import Asn1.Proofs.InputFormat.Hex
import Asn1.Proofs.Pem

/-!
# Input in any form

Octets as they are, in hexadecimal digits or in a block of a PEM file are converted to the same
octets, so that everything that is done with them is the same too.
-/

namespace Asn1

theorem Config.dump_of_convert {config : Config} {data octets : Octets}
    (converted : config.inputFormat.convert data = .ok octets) (path? : Option String) :
    config.dump path? data = { config with inputFormat := .raw }.dump path? octets := by
  rw [dump, dump, converted]
  rfl

namespace InputFormat

variable {octets file : Octets} {beginLabel endLabel : String}

theorem convert_pem_of_isFile (isBegin : Pem.IsLabel beginLabel) (isEnd : Pem.IsLabel endLabel)
    (isFile : Pem.IsFile beginLabel endLabel octets file) :
    pem.convert file =
      if beginLabel = endLabel then .ok octets
      else .error (.pem (.mismatch beginLabel endLabel)) := by
  rw [convert, Pem.decode_of_isFile isBegin isEnd isFile]
  by_cases same : beginLabel = endLabel
  · rw [if_pos same, if_pos same]
  · rw [if_neg same, if_neg same]

/-- Octets are converted to themselves from each form: as they are, from digits that white space may
stand between, and from a PEM file with equal labels, whatever else follows in it. A dump
comes out the same from each. If the labels differ, the file is refused. -/
theorem convert_agrees {octets digits data file : Octets} {label : String}
    (spelling : Hex.IsSpelling digits octets) (spaced : IsSpaced digits data)
    (isLabel : Pem.IsLabel label) (isFile : Pem.IsFile label label octets file) :
    (raw.convert octets = .ok octets ∧ hex.convert data = .ok octets ∧
        pem.convert file = .ok octets ∧ ∀ more, pem.convert (file ++ more) = .ok octets) ∧
      (∀ (config : Config) (path? : Option String),
        let asRaw := { config with inputFormat := .raw }.dump path? octets
        { config with inputFormat := .hex }.dump path? data = asRaw ∧
          { config with inputFormat := .pem }.dump path? file = asRaw) ∧
      ∀ other otherFile, Pem.IsLabel other → other ≠ label →
        Pem.IsFile label other octets otherFile →
        pem.convert otherFile = .error (.pem (.mismatch label other)) := by
  have fromHex : hex.convert data = .ok octets :=
    convert_hex_eq_ok_iff_isSpaced.mpr ⟨digits, spelling, spaced⟩
  have fromPem {block : Octets} (isFile : Pem.IsFile label label octets block) :
      pem.convert block = .ok octets := by
    rw [convert_pem_of_isFile isLabel isLabel isFile, if_pos rfl]
  refine ⟨⟨rfl, fromHex, fromPem isFile, fun more => fromPem (isFile.append more)⟩, ?_, ?_⟩
  · exact fun config path? =>
      ⟨Config.dump_of_convert fromHex path?, Config.dump_of_convert (fromPem isFile) path?⟩
  · intro other otherFile isOther different isOtherFile
    rw [convert_pem_of_isFile isLabel isOther isOtherFile, if_neg (Ne.symm different)]

/-- Lines with different ends between a line of text and a second block. -/
theorem convert_agrees_second_block :
    let octets : Octets := [0x30, 0x03, 0x01, 0x01, 0xff]
    let file := Utf8.ofString
      "text\n-----BEGIN A B-----\r\nMAMB\r\nAf8=\n-----END A B-----\n-----BEGIN C-----\n"
    let otherFile := Utf8.ofString "-----BEGIN A B-----\nMAMBAf8=\n-----END C-----\n"
    hex.convert (Utf8.ofString "30 03 01\t01\nfF") = .ok octets ∧
      pem.convert file = .ok octets ∧
      pem.convert otherFile = .error (.pem (.mismatch "A B" "C")) := by
  intro octets file otherFile
  have spelling : Hex.IsSpelling (bare (Utf8.ofString "30 03 01\t01\nfF")) octets :=
    Hex.spells_iff_isSpelling.mp (Hex.decode_eq_ok_iff.mp (by cbv))
  have written : Base64.encode octets = Utf8.ofString "MAMB" ++ (Utf8.ofString "Af8=" ++ []) := by
    decide +kernel
  have isLines : Pem.IsLines (Base64.encode octets)
      (Utf8.ofString "MAMB" ++ ([0x0d, 0x0a] ++ (Utf8.ofString "Af8=" ++ ([0x0a] ++ [])))) :=
    written ▸ .cons (by decide) (by decide) (.cons (by decide) (by decide) .nil)
  have isFile : Pem.IsFile "A B" "A B" octets file := by
    have split : file = Utf8.ofString "text\n" ++ (Pem.beginMark ++ (Utf8.ofString "A B" ++
        (Pem.dashes ++ ([0x0d, 0x0a] ++ ((Utf8.ofString "MAMB" ++ ([0x0d, 0x0a] ++
          (Utf8.ofString "Af8=" ++ ([0x0a] ++ [])))) ++ (Pem.endMark ++ (Utf8.ofString "A B" ++
            (Pem.dashes ++ Utf8.ofString "\n-----BEGIN C-----\n")))))))) := by
      decide +kernel
    rw [split]
    exact .mk (by decide) (List.all_eq_true.mp rfl) isLines
  have isOneLine : Pem.IsLines (Base64.encode octets)
      (Utf8.ofString "MAMBAf8=" ++ ([0x0a] ++ [])) := by
    have written : Base64.encode octets = Utf8.ofString "MAMBAf8=" ++ [] := by decide +kernel
    exact written ▸ .cons (by decide) (by decide) .nil
  have isOtherFile : Pem.IsFile "A B" "C" octets otherFile := by
    have split : otherFile = [] ++ (Pem.beginMark ++ (Utf8.ofString "A B" ++ (Pem.dashes ++
        ([0x0a] ++ ((Utf8.ofString "MAMBAf8=" ++ ([0x0a] ++ [])) ++ (Pem.endMark ++
          (Utf8.ofString "C" ++ (Pem.dashes ++ [0x0a])))))))) := by
      decide +kernel
    rw [split]
    exact .mk (by decide) (List.all_eq_true.mp rfl) isOneLine
  have agrees := convert_agrees spelling (isSpaced_bare _) ⟨by decide, by decide⟩ isFile
  exact ⟨agrees.1.2.1, agrees.1.2.2.1,
    agrees.2.2 "C" otherFile ⟨by decide, by decide⟩ (by decide) isOtherFile⟩

end InputFormat

end Asn1
