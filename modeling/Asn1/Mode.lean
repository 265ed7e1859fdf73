/-!
Which encoding rules to follow, and the other choices that decoding depends on.
-/

namespace Asn1

inductive Mode where
  /-- Basic Encoding Rules: alternative forms and indefinite lengths are allowed. -/
  | ber
  /-- Distinguished Encoding Rules: each value has one encoding. -/
  | der
  deriving DecidableEq, Repr

namespace Mode

def name : Mode → String
  | .ber => "ber"
  | .der => "der"

def ofName? : String → Option Mode
  | "ber" | "BER" => some .ber
  | "der" | "DER" => some .der
  | _ => none

def invalidMessage : String := "expected 'ber' or 'der'"

end Mode

structure TextOptions where
  /-- Whether UTF-8 strings have to be well-formed. -/
  validateUtf8 : Bool := true
  /-- Whether teletex strings are read as ISO 8859-1 instead of T.61. -/
  teletexAsLatin1 : Bool := false
  deriving DecidableEq, Repr

structure Options extends TextOptions where
  mode : Mode := .der
  /-- The nesting level of the value to decode. -/
  depth : Nat := 0
  deriving DecidableEq, Repr

namespace Options

def depthLimit : Nat := 1024

def ofMode (mode : Mode) : Options := { mode }

def deeper (options : Options) : Options := { options with depth := options.depth + 1 }

def isTooDeep (options : Options) : Bool := depthLimit < options.depth

def levels (options : Options) : Nat := depthLimit + 1 - options.depth

theorem levels_deeper (options : Options) : options.deeper.levels = options.levels - 1 := by
  simp only [levels, deeper]
  omega

theorem levels_eq_zero_iff (options : Options) :
    options.levels = 0 ↔ options.isTooDeep = true := by
  simp only [levels, isTooDeep, decide_eq_true_eq]
  omega

end Options

end Asn1
