import Asn1.Program
import Asn1.Proofs.Hex

/-!
# Input in hexadecimal digits

White space does not count. What is left is converted exactly if it is two digits for each octet.
If it is not, one message says so: that there is a digit too many, or else which is the first octet
that is no digit. Its position is counted among the octets that are left.
-/

namespace Asn1

namespace Hex

/-- A digit of a value below 16: `0` to `9`, and then `a` to `f` or `A` to `F`. -/
inductive IsDigit (octet : UInt8) (value : Nat) : Prop
  | decimal : value < 10 → octet.toNat = 48 + value → IsDigit octet value
  | upper : 10 ≤ value → value < 16 → octet.toNat = 65 + (value - 10) → IsDigit octet value
  | lower : 10 ≤ value → value < 16 → octet.toNat = 97 + (value - 10) → IsDigit octet value

/-- Two digits for each octet, that of its high half first. -/
inductive IsSpelling : Octets → Octets → Prop
  | nil : IsSpelling [] []
  | cons {high low octet digits octets} :
      IsDigit high (octet.toNat / 16) → IsDigit low (octet.toNat % 16) →
      IsSpelling digits octets → IsSpelling (high :: low :: digits) (octet :: octets)

/-- What is said of octets that are not two digits for each octet. -/
inductive Rejected (digits : Octets) : String → Prop
  | oddLength : digits.length % 2 = 1 → Rejected digits "Odd number of digits"
  | invalidDigit {front octet back} :
      digits.length % 2 = 0 → digits = front ++ octet :: back →
      (∀ digit ∈ front, ∃ value, IsDigit digit value) → (∀ value, ¬ IsDigit octet value) →
      Rejected digits ("Invalid character " ++ Quoted.char (Char.ofNat octet.toNat)
        ++ " at position " ++ Decimal.text front.length)

variable {octet : UInt8} {value : Nat} {digits octets : Octets}

theorem value?_eq_some_iff : value? octet = some value ↔ IsDigit octet value := by
  unfold value?
  constructor
  · intro read
    split at read
    · cases read
      exact .decimal (by omega) (by omega)
    split at read
    · cases read
      exact .upper (by omega) (by omega) (by omega)
    split at read
    · cases read
      exact .lower (by omega) (by omega) (by omega)
    · cases read
  · intro isDigit
    cases isDigit with
    | decimal small written =>
        rw [if_pos (by omega), Option.some.injEq]
        omega
    | upper large small written =>
        rw [if_neg (by omega), if_pos (by omega), Option.some.injEq]
        omega
    | lower large small written =>
        rw [if_neg (by omega), if_neg (by omega), if_pos (by omega), Option.some.injEq]
        omega

theorem value?_eq_none_iff : value? octet = none ↔ ∀ value, ¬ IsDigit octet value := by
  simp only [← value?_eq_some_iff, Option.eq_none_iff_forall_ne_some]

theorem isNone_value?_eq_false_iff :
    (value? octet).isNone = false ↔ ∃ value, IsDigit octet value := by
  simp only [Option.isNone_eq_false_iff, Option.isSome_iff_exists, value?_eq_some_iff]

theorem IsDigit.lt (isDigit : IsDigit octet value) : value < 16 := by
  cases isDigit <;> omega

theorem spells_iff_isSpelling : Spells digits octets ↔ IsSpelling digits octets := by
  constructor
  · intro spells
    induction spells with
    | nil => exact .nil
    | @cons high low highValue lowValue digits octets isHigh isLow _ inductionHypothesis =>
        rw [value?_eq_some_iff] at isHigh isLow
        have highBound := isHigh.lt
        have lowBound := isLow.lt
        have number : (UInt8.ofNat (highValue * 16 + lowValue)).toNat
            = highValue * 16 + lowValue := by
          rw [UInt8.toNat_ofNat', Nat.mod_eq_of_lt (by omega)]
        have highHalf : (highValue * 16 + lowValue) / 16 = highValue := by omega
        have lowHalf : (highValue * 16 + lowValue) % 16 = lowValue := by omega
        refine .cons ?_ ?_ inductionHypothesis
        · rwa [number, highHalf]
        · rwa [number, lowHalf]
  · intro spelling
    induction spelling with
    | nil => exact .nil
    | @cons high low octet digits octets isHigh isLow _ inductionHypothesis =>
        have spells := Spells.cons (value?_eq_some_iff.mpr isHigh) (value?_eq_some_iff.mpr isLow)
          inductionHypothesis
        rwa [Nat.div_add_mod', UInt8.ofNat_toNat] at spells

theorem IsSpelling.isDigit (spelling : IsSpelling digits octets) :
    ∀ digit ∈ digits, ∃ value, IsDigit digit value := by
  induction spelling with
  | nil => exact List.forall_mem_nil _
  | cons isHigh isLow _ inductionHypothesis =>
      rw [List.forall_mem_cons, List.forall_mem_cons]
      exact ⟨⟨_, isHigh⟩, ⟨_, isLow⟩, inductionHypothesis⟩

/-- Digits before one that is none are read, two at a time. -/
theorem pairs_of_not_isDigit {front back : Octets} (index : Nat)
    (even : (front ++ octet :: back).length % 2 = 0)
    (areDigits : ∀ digit ∈ front, ∃ value, IsDigit digit value)
    (noDigit : ∀ value, ¬ IsDigit octet value) :
    pairs index (front ++ octet :: back) =
      .error (.invalidDigit octet (index + front.length)) := by
  rw [← value?_eq_none_iff] at noDigit
  match front with
  | [] =>
      match back with
      | [] => cases even
      | low :: back =>
          rw [List.nil_append, pairs, noDigit]
          rfl
  | [high] =>
      obtain ⟨value, isHigh⟩ := areDigits high (List.mem_singleton_self high)
      rw [List.singleton_append, pairs, value?_eq_some_iff.mpr isHigh, noDigit]
      rfl
  | high :: low :: front =>
      rw [List.forall_mem_cons, List.forall_mem_cons] at areDigits
      obtain ⟨⟨highValue, isHigh⟩, ⟨lowValue, isLow⟩, areDigits⟩ := areDigits
      rw [value?_eq_none_iff] at noDigit
      simp only [List.cons_append, List.length_cons] at even
      rw [List.cons_append, List.cons_append, pairs, value?_eq_some_iff.mpr isHigh,
        value?_eq_some_iff.mpr isLow]
      dsimp only
      rw [pairs_of_not_isDigit (index + 2) (by omega) areDigits noDigit, List.length_cons,
        List.length_cons, Nat.add_assoc, Nat.add_comm 2]
      rfl

theorem exists_isSpelling {digits : Octets} (even : digits.length % 2 = 0)
    (areDigits : ∀ digit ∈ digits, ∃ value, IsDigit digit value) :
    ∃ octets, IsSpelling digits octets := by
  match digits with
  | [] => exact ⟨[], .nil⟩
  | [digit] => cases even
  | high :: low :: digits =>
      rw [List.forall_mem_cons, List.forall_mem_cons] at areDigits
      obtain ⟨⟨highValue, isHigh⟩, ⟨lowValue, isLow⟩, areDigits⟩ := areDigits
      simp only [List.length_cons] at even
      obtain ⟨octets, spelling⟩ := exists_isSpelling (by omega) areDigits
      rw [← value?_eq_some_iff] at isHigh isLow
      rw [← spells_iff_isSpelling] at spelling
      exact ⟨_, spells_iff_isSpelling.mp (.cons isHigh isLow spelling)⟩

/-- Octets that are no digits for octets are rejected with the words for what is found. -/
theorem rejected_of_decode {defect : Defect} (failed : decode digits = .error defect) :
    Rejected digits defect.message := by
  have notSpelled : ∀ octets, ¬ IsSpelling digits octets := by
    intro octets spelling
    rw [decode_eq_ok_iff.mpr (spells_iff_isSpelling.mpr spelling)] at failed
    cases failed
  unfold decode at failed
  split at failed
  · next odd =>
      cases failed
      exact .oddLength odd
  next notOdd =>
  have even : digits.length % 2 = 0 := by omega
  cases first : digits.find? (fun digit => (value? digit).isNone) with
  | none =>
      -- If all are digits, their number is even, and they spell octets.
      rw [List.find?_eq_none] at first
      have areDigits : ∀ digit ∈ digits, ∃ value, IsDigit digit value := by
        intro digit isMember
        exact isNone_value?_eq_false_iff.mp (Bool.eq_false_iff.mpr (first digit isMember))
      obtain ⟨octets, spelling⟩ := exists_isSpelling even areDigits
      exact absurd spelling (notSpelled octets)
  | some octet =>
      obtain ⟨isNone, front, back, rfl, readable⟩ := List.find?_eq_some_iff_append.mp first
      have noDigit := value?_eq_none_iff.mp (Option.isNone_iff_eq_none.mp isNone)
      have areDigits : ∀ digit ∈ front, ∃ value, IsDigit digit value := by
        intro digit isMember
        exact isNone_value?_eq_false_iff.mp ((Bool.not_eq_true' _).mp (readable digit isMember))
      rw [pairs_of_not_isDigit 0 even areDigits noDigit, Nat.zero_add] at failed
      cases failed
      exact .invalidDigit even rfl areDigits noDigit

end Hex

namespace InputFormat

/-- Space, tab, line feed, form feed and carriage return. -/
def whiteSpace : Octets := [0x20, 0x09, 0x0a, 0x0c, 0x0d]

/-- What is left without white space. -/
def bare (data : Octets) : Octets := data.filter (· ∉ whiteSpace)

/-- Octets with white space anywhere before, between and behind them. -/
inductive IsSpaced : Octets → Octets → Prop
  | nil : IsSpaced [] []
  | blank {blank octets data} :
      blank ∈ whiteSpace → IsSpaced octets data → IsSpaced octets (blank :: data)
  | octet {octet octets data} :
      IsSpaced octets data → IsSpaced (octet :: octets) (octet :: data)

variable {data digits octets : Octets}

theorem isBlank_iff {octet : UInt8} : isBlank octet = true ↔ octet ∈ whiteSpace := by
  simp only [isBlank, whiteSpace, decide_eq_true_eq, List.mem_cons, List.not_mem_nil,
    ← UInt8.toNat_inj]
  simp only [UInt8.reduceToNat]
  grind

theorem filter_isBlank (data : Octets) : data.filter (fun octet => !isBlank octet) = bare data := by
  apply List.filter_congr
  intro octet _
  simp only [← isBlank_iff]
  cases isBlank octet <;> rfl

theorem bare_of_isSpaced (spaced : IsSpaced digits data)
    (nowhereBlank : ∀ digit ∈ digits, digit ∉ whiteSpace) : bare data = digits := by
  unfold bare
  induction spaced with
  | nil => rfl
  | blank isBlank _ inductionHypothesis =>
      rw [List.filter_cons_of_neg (by simpa using isBlank), inductionHypothesis nowhereBlank]
  | octet _ inductionHypothesis =>
      rw [List.forall_mem_cons] at nowhereBlank
      rw [List.filter_cons_of_pos (by simpa using nowhereBlank.1),
        inductionHypothesis nowhereBlank.2]

theorem not_mem_whiteSpace_of_isDigit {octet : UInt8} {value : Nat}
    (isDigit : Hex.IsDigit octet value) : octet ∉ whiteSpace := by
  rw [← isBlank_iff, isBlank]
  simp only [decide_eq_true_eq, List.mem_cons, List.not_mem_nil, or_false]
  cases isDigit <;> omega

theorem convert_hex_eq_ok_iff :
    hex.convert data = .ok octets ↔ Hex.IsSpelling (bare data) octets := by
  rw [← Hex.spells_iff_isSpelling, ← Hex.decode_eq_ok_iff, convert, filter_isBlank]
  cases Hex.decode (bare data) with
  | ok found => simp only [Except.ok.injEq]
  | error defect => exact ⟨nofun, nofun⟩

theorem isSpaced_bare (data : Octets) : IsSpaced (bare data) data := by
  unfold bare
  induction data with
  | nil => exact .nil
  | cons octet data inductionHypothesis =>
      by_cases blank : octet ∈ whiteSpace
      · rw [List.filter_cons_of_neg (by simpa using blank)]
        exact .blank blank inductionHypothesis
      · rw [List.filter_cons_of_pos (by simpa using blank)]
        exact .octet inductionHypothesis

/-- Digits are converted wherever white space stands between them. -/
theorem convert_hex_eq_ok_iff_isSpaced :
    hex.convert data = .ok octets ↔
      ∃ digits, Hex.IsSpelling digits octets ∧ IsSpaced digits data := by
  rw [convert_hex_eq_ok_iff]
  constructor
  · exact fun spelling => ⟨bare data, spelling, isSpaced_bare data⟩
  · rintro ⟨digits, spelling, spaced⟩
    have nowhereBlank : ∀ digit ∈ digits, digit ∉ whiteSpace := by
      intro digit isMember
      obtain ⟨value, isDigit⟩ := spelling.isDigit digit isMember
      exact not_mem_whiteSpace_of_isDigit isDigit
    rwa [bare_of_isSpaced spaced nowhereBlank]

theorem line_inputMalformed_hex (defect : Hex.Defect) :
    (Notice.inputMalformed (.hex defect)).line =
      "[ERROR] Invalid hex input: " ++ defect.message := by
  have lead : "[" ++ "ERROR" ++ "] " ++ "Invalid hex input: " = "[ERROR] Invalid hex input: " := by
    decide
  rw [← lead, String.append_assoc]
  rfl

theorem exists_rejected_of_not_isSpelling
    (notSpelled : ∀ octets, ¬ Hex.IsSpelling (bare data) octets) :
    ∃ defect, hex.convert data = .error (.hex defect) ∧
      Hex.Rejected (bare data) defect.message := by
  simp only [← convert_hex_eq_ok_iff] at notSpelled
  rw [convert, filter_isBlank] at notSpelled ⊢
  cases decoded : Hex.decode (bare data) with
  | ok octets =>
      rw [decoded] at notSpelled
      exact absurd rfl (notSpelled octets)
  | error defect => exact ⟨defect, rfl, Hex.rejected_of_decode decoded⟩

/-- Input in hexadecimal digits is converted to octets if and only if, without white space, it is
two digits for each of them; that is, if it is such digits with white space anywhere. All other
input is refused, and a dump of it ends with the one message that says what is wrong first. -/
theorem convert_hex_exact (data : Octets) :
    (∀ octets, hex.convert data = .ok octets ↔ Hex.IsSpelling (bare data) octets) ∧
      (∀ octets, hex.convert data = .ok octets ↔
        ∃ digits, Hex.IsSpelling digits octets ∧ IsSpaced digits data) ∧
      ((∀ octets, ¬ Hex.IsSpelling (bare data) octets) →
        ∃ defect message, hex.convert data = .error defect ∧ Hex.Rejected (bare data) message ∧
          ∀ (config : Config) (path? : Option String),
            let outcome := { config with inputFormat := .hex }.dump path? data
            outcome.status = .failure ∧ outcome.output = "" ∧
              outcome.notices.map Notice.line = ["[ERROR] Invalid hex input: " ++ message]) := by
  refine ⟨fun octets => convert_hex_eq_ok_iff,
    fun octets => convert_hex_eq_ok_iff_isSpaced, ?_⟩
  intro notSpelled
  obtain ⟨defect, failed, rejected⟩ := exists_rejected_of_not_isSpelling notSpelled
  refine ⟨_, _, failed, rejected, fun config path? => ?_⟩
  dsimp only
  rw [Config.dump, failed]
  refine ⟨rfl, rfl, ?_⟩
  exact congrArg ([·]) (line_inputMalformed_hex defect)

/-- White space within a pair and digits of both cases; and a letter that is no digit, which stands
at position 1 although a blank is in front of it. -/
theorem convert_hex_exact_spaced_digits :
    hex.convert [0x30, 0x20, 0x35, 0x0a, 0x46, 0x66] = .ok [0x05, 0xff] ∧
      ∃ defect message, hex.convert [0x33, 0x20, 0x67] = .error defect ∧
        Hex.Rejected [0x33, 0x67] message ∧
        (Config.dump { inputFormat := .hex } none [0x33, 0x20, 0x67]).notices.map Notice.line =
          ["[ERROR] Invalid hex input: " ++ message] := by
  constructor
  · refine ((convert_hex_exact _).2.1 _).mpr ⟨[0x30, 0x35, 0x46, 0x66], ?spelling, ?spaced⟩
    case spelling =>
      exact .cons (.decimal (by decide) rfl) (.decimal (by decide) rfl)
        (.cons (.upper (by decide) (by decide) rfl) (.lower (by decide) (by decide) rfl) .nil)
    case spaced =>
      exact .octet (.blank (by decide) (.octet (.blank (by decide) (.octet (.octet .nil)))))
  · have notSpelled : ∀ octets, ¬ Hex.IsSpelling (bare [0x33, 0x20, 0x67]) octets := by
      intro octets spelling
      obtain ⟨value, isDigit⟩ := spelling.isDigit 0x67 (by decide)
      have unread : Hex.value? 0x67 = none := by decide
      rw [← Hex.value?_eq_some_iff, unread] at isDigit
      cases isDigit
    obtain ⟨defect, message, failed, rejected, logged⟩ :=
      (convert_hex_exact [0x33, 0x20, 0x67]).2.2 notSpelled
    exact ⟨defect, message, failed, rejected, (logged {} none).2.2⟩

end InputFormat

end Asn1
