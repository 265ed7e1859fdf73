import Asn1.Field
import Asn1.Proofs.Octets
import Asn1.Proofs.Reader
import Asn1.Proofs.Scan
import Mathlib.Data.Nat.Digits.Lemmas

/-!
# Calls on a reader

`Gives` says by positions alone what a call gives and where it leaves the cursor: the octets from
one position to another, the number they write, or the reason why they are not all there.
-/

namespace Asn1

def Octets.between (octets : Octets) (start stop : Nat) : Octets := (octets.take stop).drop start

def ByteOrder.value : ByteOrder → Octets → Nat
  | .big, octets => Nat.ofDigits 256 (octets.reverse.map UInt8.toNat)
  | .little, octets => Nat.ofDigits 256 (octets.map UInt8.toNat)

theorem Octets.toNat_eq_ofDigits (octets : Octets) :
    toNat octets = Nat.ofDigits 256 (octets.reverse.map UInt8.toNat) := by
  induction octets using List.reverseRecOn with
  | nil => rfl
  | append_singleton octets octet inductionHypothesis =>
      rw [toNat_concat, inductionHypothesis, List.reverse_concat, List.map_cons, Nat.ofDigits_cons]
      omega

theorem ByteOrder.toNat_eq_value (order : ByteOrder) (octets : Octets) :
    order.toNat octets = order.value octets := by
  cases order with
  | big => exact octets.toNat_eq_ofDigits
  | little => rw [toNat, value, Octets.toNat_eq_ofDigits, List.reverse_reverse]

namespace Reader

/-- The widths in octets of numbers. -/
def numberWidths : List Nat := [1, 2, 3, 4, 8]

/-- The widths in octets of the numbers that precede a field. -/
def prefixWidths : List Nat := [1, 2, 3]

/-- The least and the greatest length that a field may have. -/
structure Bounds where
  low : UInt64
  high : UInt64
  deriving DecidableEq, Repr

def Bounds.Admit (bounds : Bounds) (length : Nat) : Prop :=
  bounds.low.toNat ≤ length ∧ length ≤ bounds.high.toNat

instance (bounds : Bounds) (length : Nat) : Decidable (bounds.Admit length) :=
  inferInstanceAs (Decidable (_ ∧ _))

inductive Call where
  | data
  | pos
  | remaining
  | hasUnconsumedData
  | rest
  | since (start : UInt64)
  | bytes (count : UInt64)
  | number (width : Nat) (isWidth : width ∈ numberWidths)
  /-- Octets whose number is written before them, which may have to lie within bounds. -/
  | field (width : Nat) (isWidth : width ∈ prefixWidths) (bounds? : Option Bounds)
  deriving DecidableEq, Repr

inductive Answer where
  | flag (flag : Bool)
  | number (number : Nat)
  | octets (octets : Octets)
  deriving DecidableEq, Repr

/-- Takes a field, whose length has to lie within bounds if there are any. -/
def fieldScan (order : ByteOrder) (width : Nat) : Option Bounds → Scan Octets
  | none => Scan.field order width
  | some bounds => Scan.fieldWithin order width bounds.low.toNat bounds.high.toNat

/-- What a call gives, and the reader as it leaves it. -/
def answer (order : ByteOrder) (reader : Reader) : Call → Except DecodeError Answer × Reader
  | .data => (.ok (.octets reader.data), reader)
  | .pos => (.ok (.number reader.pos), reader)
  | .remaining => (.ok (.number reader.remaining), reader)
  | .hasUnconsumedData => (.ok (.flag reader.hasUnconsumedData), reader)
  | .rest => (.ok (.octets reader.rest), reader)
  | .since start => (.ok (.octets (reader.since start.toNat)), reader)
  | .bytes count => reader.run (Answer.octets <$> Scan.octets count.toNat)
  | .number width _ => reader.run (Answer.number <$> Scan.number order width)
  | .field width _ bounds? => reader.run (Answer.octets <$> fieldScan order width bounds?)

def answers (order : ByteOrder) (reader : Reader) : List Call → List (Except DecodeError Answer)
  | [] => []
  | call :: later =>
      (reader.answer order call).1 :: (reader.answer order call).2.answers order later

/-- The reader as calls made one after another leave it. -/
def after (order : ByteOrder) (reader : Reader) : List Call → Reader
  | [] => reader
  | call :: later => (reader.answer order call).2.after order later

/-- What a call gives at a position of the data, and the position that it leads to. -/
inductive Gives (order : ByteOrder) (data : Octets) (pos : Nat) :
    Call → Except DecodeError Answer → Nat → Prop
  | data : Gives order data pos .data (.ok (.octets data)) pos
  | pos : Gives order data pos .pos (.ok (.number pos)) pos
  | remaining {count} :
      pos + count = data.length →
      Gives order data pos .remaining (.ok (.number count)) pos
  | hasUnconsumedData {flag} :
      (flag = true ↔ pos < data.length) →
      Gives order data pos .hasUnconsumedData (.ok (.flag flag)) pos
  | rest : Gives order data pos .rest (.ok (.octets (data.between pos data.length))) pos
  | since {start} :
      Gives order data pos (.since start)
        (.ok (.octets (data.between (min start.toNat pos) pos))) pos
  | bytes {count stop} :
      pos + count.toNat = stop →
      stop ≤ data.length →
      Gives order data pos (.bytes count) (.ok (.octets (data.between pos stop))) stop
  | fewBytes {count} :
      data.length < pos + count.toNat →
      Gives order data pos (.bytes count) (.error .outOfBounds) pos
  | number {width isWidth stop} :
      pos + width = stop →
      stop ≤ data.length →
      Gives order data pos (.number width isWidth)
        (.ok (.number (order.value (data.between pos stop)))) stop
  | shortNumber {width isWidth} :
      data.length < pos + width →
      Gives order data pos (.number width isWidth) (.error .outOfBounds) pos
  | field {width isWidth bounds? start stop} :
      pos + width = start →
      start + order.value (data.between pos start) = stop →
      stop ≤ data.length →
      (∀ bounds ∈ bounds?, bounds.Admit (order.value (data.between pos start))) →
      Gives order data pos (.field width isWidth bounds?)
        (.ok (.octets (data.between start stop))) stop
  | shortPrefix {width isWidth bounds?} :
      data.length < pos + width →
      Gives order data pos (.field width isWidth bounds?) (.error .outOfBounds) pos
  | excluded {width isWidth bounds start} :
      pos + width = start →
      start ≤ data.length →
      ¬ bounds.Admit (order.value (data.between pos start)) →
      Gives order data pos (.field width isWidth (some bounds)) (.error .invalidFormat) start
  | shortField {width isWidth bounds? start} :
      pos + width = start →
      start ≤ data.length →
      data.length < start + order.value (data.between pos start) →
      (∀ bounds ∈ bounds?, bounds.Admit (order.value (data.between pos start))) →
      Gives order data pos (.field width isWidth bounds?) (.error .outOfBounds) start

/-- What calls made one after another give from a position on. -/
inductive Runs (order : ByteOrder) (data : Octets) :
    Nat → List Call → List (Except DecodeError Answer) → Nat → Prop
  | nil {pos} : Runs order data pos [] [] pos
  | cons {pos between stop call calls result results} :
      Gives order data pos call result between →
      Runs order data between calls results stop →
      Runs order data pos (call :: calls) (result :: results) stop

section Positions

variable {data : Octets} {pos stop count : Nat} {order : ByteOrder} {width : Nat}

theorem length_between (within : stop ≤ data.length) :
    (data.between pos stop).length = stop - pos := by
  rw [Octets.between, List.length_drop, List.length_take_of_le within]

theorem drop_eq_between_append (forward : pos ≤ stop) (within : stop ≤ data.length) :
    data.drop pos = data.between pos stop ++ data.drop stop := by
  have reached : pos ≤ (data.take stop).length := by rwa [List.length_take_of_le within]
  rw [Octets.between, ← List.drop_append_of_le_length reached, List.take_append_drop]

theorem octets_drop (reached : pos + count = stop) (within : stop ≤ data.length) :
    Scan.octets count (data.drop pos) = .ok (data.between pos stop) (data.drop stop) := by
  have length_eq : (data.between pos stop).length = stop - pos := length_between within
  exact Scan.octets_eq_ok_iff.mpr ⟨drop_eq_between_append (by omega) within, by omega⟩

theorem octets_drop_of_few (within : pos ≤ data.length) (few : data.length < pos + count) :
    Scan.octets count (data.drop pos) = .error .outOfBounds (data.drop pos) := by
  apply Scan.octets_of_length_lt
  rw [List.length_drop]
  omega

theorem number_drop (reached : pos + width = stop) (within : stop ≤ data.length) :
    Scan.number order width (data.drop pos) =
      .ok (order.value (data.between pos stop)) (data.drop stop) := by
  rw [Scan.number, Scan.bind_apply, octets_drop reached within, ← order.toNat_eq_value]
  rfl

theorem number_drop_of_few (within : pos ≤ data.length) (few : data.length < pos + width) :
    Scan.number order width (data.drop pos) = .error .outOfBounds (data.drop pos) := by
  rw [Scan.number, Scan.bind_apply, octets_drop_of_few within few]

variable {bounds? : Option Bounds} {all rest : Octets} {length : Nat}

theorem fieldScan_of_admitted (read : Scan.number order width all = .ok length rest)
    (admitted : ∀ bounds ∈ bounds?, bounds.Admit length) :
    fieldScan order width bounds? all = Scan.octets length rest := by
  cases bounds? with
  | none => rw [fieldScan, Scan.field, Scan.bind_apply, read]
  | some bounds =>
      have ⟨notShort, notLong⟩ := admitted bounds rfl
      rw [fieldScan, Scan.fieldWithin, Scan.bind_apply, read]
      dsimp only
      rw [if_neg (by omega)]

theorem fieldScan_of_excluded {bounds : Bounds}
    (read : Scan.number order width all = .ok length rest) (excluded : ¬ bounds.Admit length) :
    fieldScan order width (some bounds) all = .error .invalidFormat rest := by
  rw [Bounds.Admit] at excluded
  rw [fieldScan, Scan.fieldWithin, Scan.bind_apply, read]
  dsimp only
  rw [if_pos (by omega), Scan.throw_apply]

theorem fieldScan_of_error {error : DecodeError}
    (failed : Scan.number order width all = .error error rest) :
    fieldScan order width bounds? all = .error error rest := by
  cases bounds? with
  | none => rw [fieldScan, Scan.field, Scan.bind_apply, failed]
  | some bounds => rw [fieldScan, Scan.fieldWithin, Scan.bind_apply, failed]

end Positions

section Running

variable {α : Type} {reader : Reader} {scan : Scan α} {stop : Nat}

theorem data_run (reader : Reader) (scan : Scan α) :
    (reader.run scan).2.data = reader.data := by
  rw [run]
  split
  · rfl
  · rfl

theorem pos_leaving_drop (within : stop ≤ reader.data.length) :
    (reader.leaving (reader.data.drop stop).length).pos = stop := by
  change reader.data.length - (reader.data.drop stop).length = stop
  rw [List.length_drop]
  omega

theorem run_of_ok {result : α} (within : stop ≤ reader.data.length)
    (scanned : scan reader.rest = .ok result (reader.data.drop stop)) :
    (reader.run scan).1 = .ok result ∧ (reader.run scan).2.pos = stop := by
  rw [run, scanned]
  exact ⟨rfl, pos_leaving_drop within⟩

theorem run_of_error {error : DecodeError} (within : stop ≤ reader.data.length)
    (failed : scan reader.rest = .error error (reader.data.drop stop)) :
    (reader.run scan).1 = .error error ∧ (reader.run scan).2.pos = stop := by
  rw [run, failed]
  exact ⟨rfl, pos_leaving_drop within⟩

/-- A run that answers with the result of a scan in another form. -/
theorem run_map_of_ok {β : Type} {result : α} (function : α → β)
    (within : stop ≤ reader.data.length)
    (scanned : scan reader.rest = .ok result (reader.data.drop stop)) :
    (reader.run (function <$> scan)).1 = .ok (function result) ∧
      (reader.run (function <$> scan)).2.pos = stop :=
  run_of_ok within (Scan.map_eq_ok_iff.mpr ⟨result, scanned, rfl⟩)

theorem run_map_of_error {β : Type} {error : DecodeError} (function : α → β)
    (within : stop ≤ reader.data.length)
    (failed : scan reader.rest = .error error (reader.data.drop stop)) :
    (reader.run (function <$> scan)).1 = .error error ∧
      (reader.run (function <$> scan)).2.pos = stop := by
  apply run_of_error within
  rw [Scan.map_apply, failed]

end Running

section Calls

variable {order : ByteOrder} {data : Octets} {pos stop : Nat} {reader : Reader} {call : Call}
  {result : Except DecodeError Answer}

theorem data_answer (order : ByteOrder) (reader : Reader) (call : Call) :
    (reader.answer order call).2.data = reader.data := by
  cases call with
  | bytes | number | field => exact data_run reader _
  | _ => rfl

theorem rest_eq_between (reader : Reader) :
    reader.rest = reader.data.between reader.pos reader.data.length := by
  rw [Octets.between, List.take_length, rest]

/-- What positions say of a call is what the reader does. -/
theorem Gives.answer_eq (gives : Gives order reader.data reader.pos call result stop) :
    (reader.answer order call).1 = result ∧ (reader.answer order call).2.pos = stop := by
  have within := reader.pos_le
  cases gives with
  | data => exact ⟨rfl, rfl⟩
  | pos => exact ⟨rfl, rfl⟩
  | @remaining count total =>
      have left : reader.remaining = count := by
        rw [Reader.remaining]
        omega
      exact ⟨by rw [answer, left], rfl⟩
  | @hasUnconsumedData flag isLeft =>
      have flag_eq : reader.hasUnconsumedData = flag :=
        Bool.eq_iff_iff.mpr (decide_eq_true_iff.trans isLeft.symm)
      exact ⟨by rw [answer, flag_eq], rfl⟩
  | rest => exact ⟨by rw [answer, rest_eq_between], rfl⟩
  | since => exact ⟨rfl, rfl⟩
  | bytes reached within => exact run_map_of_ok _ within (octets_drop reached within)
  | fewBytes few => exact run_map_of_error _ within (octets_drop_of_few within few)
  | number reached within => exact run_map_of_ok _ within (number_drop reached within)
  | shortNumber few => exact run_map_of_error _ within (number_drop_of_few within few)
  | field prefixed reached within admitted =>
      have content := fieldScan_of_admitted (number_drop prefixed (by omega)) admitted
      exact run_map_of_ok _ within (content.trans (octets_drop reached within))
  | shortPrefix few =>
      exact run_map_of_error _ within (fieldScan_of_error (number_drop_of_few within few))
  | excluded prefixed within excluded =>
      exact run_map_of_error _ within (fieldScan_of_excluded (number_drop prefixed within) excluded)
  | shortField prefixed within few admitted =>
      have content := fieldScan_of_admitted (number_drop prefixed within) admitted
      exact run_map_of_error _ within (content.trans (octets_drop_of_few within few))

/-- A call gives something wherever the cursor stands. -/
theorem exists_gives (order : ByteOrder) (within : pos ≤ data.length) (call : Call) :
    ∃ result stop, Gives order data pos call result stop := by
  cases call with
  | data => exact ⟨_, _, .data⟩
  | pos => exact ⟨_, _, .pos⟩
  | remaining => exact ⟨_, _, .remaining (Nat.add_sub_cancel' within)⟩
  | hasUnconsumedData => exact ⟨_, _, .hasUnconsumedData decide_eq_true_iff⟩
  | rest => exact ⟨_, _, .rest⟩
  | since start => exact ⟨_, _, .since⟩
  | bytes count =>
      by_cases enough : pos + count.toNat ≤ data.length
      · exact ⟨_, _, .bytes rfl enough⟩
      · exact ⟨_, _, .fewBytes (Nat.lt_of_not_le enough)⟩
  | number width isWidth =>
      by_cases enough : pos + width ≤ data.length
      · exact ⟨_, _, .number rfl enough⟩
      · exact ⟨_, _, .shortNumber (Nat.lt_of_not_le enough)⟩
  | field width isWidth bounds? =>
      by_cases prefixed : pos + width ≤ data.length
      · by_cases admitted :
            ∀ bounds ∈ bounds?, bounds.Admit (order.value (data.between pos (pos + width)))
        · by_cases enough :
              pos + width + order.value (data.between pos (pos + width)) ≤ data.length
          · exact ⟨_, _, .field rfl rfl enough admitted⟩
          · exact ⟨_, _, .shortField rfl prefixed (Nat.lt_of_not_le enough) admitted⟩
        · simp only [not_forall] at admitted
          obtain ⟨bounds, rfl, excluded⟩ := admitted
          exact ⟨_, _, .excluded rfl prefixed excluded⟩
      · exact ⟨_, _, .shortPrefix (Nat.lt_of_not_le prefixed)⟩

theorem gives_iff : Gives order reader.data reader.pos call result stop ↔
    (reader.answer order call).1 = result ∧ (reader.answer order call).2.pos = stop := by
  refine ⟨Gives.answer_eq, ?_⟩
  -- Something is given, and that is what the reader does.
  rintro ⟨rfl, rfl⟩
  obtain ⟨result, stop, gives⟩ := exists_gives order reader.pos_le call
  obtain ⟨result_eq, stop_eq⟩ := gives.answer_eq
  rwa [result_eq, stop_eq]

theorem Gives.le (gives : Gives order data pos call result stop) : pos ≤ stop := by
  cases gives with
  | bytes | number | field | excluded | shortField => omega
  | _ => exact Nat.le_refl pos

end Calls

section Runs

variable {order : ByteOrder} {reader : Reader} {calls : List Call}
  {results : List (Except DecodeError Answer)} {stop : Nat}

theorem data_after (order : ByteOrder) (reader : Reader) (calls : List Call) :
    (reader.after order calls).data = reader.data := by
  induction calls generalizing reader with
  | nil => rfl
  | cons call calls inductionHypothesis =>
      rw [after, inductionHypothesis, data_answer]

theorem after_append (order : ByteOrder) (reader : Reader) (earlier later : List Call) :
    reader.after order (earlier ++ later) = (reader.after order earlier).after order later := by
  induction earlier generalizing reader with
  | nil => rfl
  | cons call earlier inductionHypothesis =>
      rw [List.cons_append, after, inductionHypothesis]
      rfl

theorem pos_le_pos_after (order : ByteOrder) (reader : Reader) (calls : List Call) :
    reader.pos ≤ (reader.after order calls).pos := by
  induction calls generalizing reader with
  | nil => exact Nat.le_refl _
  | cons call calls inductionHypothesis =>
      have first : reader.pos ≤ (reader.answer order call).2.pos := (gives_iff.mpr ⟨rfl, rfl⟩).le
      exact first.trans (inductionHypothesis _)

theorem runs_iff (reader : Reader) : Runs order reader.data reader.pos calls results stop ↔
    reader.answers order calls = results ∧ (reader.after order calls).pos = stop := by
  constructor
  · intro runs
    generalize data_eq : reader.data = data at runs
    generalize pos_eq : reader.pos = pos at runs
    induction runs generalizing reader with
    | nil => exact ⟨rfl, pos_eq⟩
    | cons first _ inductionHypothesis =>
        subst data_eq pos_eq
        obtain ⟨rfl, rfl⟩ := gives_iff.mp first
        obtain ⟨rfl, rfl⟩ := inductionHypothesis _ (data_answer order reader _) rfl
        exact ⟨rfl, rfl⟩
  · rintro ⟨rfl, rfl⟩
    induction calls generalizing reader with
    | nil => exact .nil
    | cons call calls inductionHypothesis =>
        have later := inductionHypothesis (reader.answer order call).2
        rw [data_answer] at later
        exact .cons (gives_iff.mpr ⟨rfl, rfl⟩) later

end Runs

end Reader

end Asn1
