import Asn1.Proofs.Reader.Calls

/-!
# Reading with positions in words

Here positions are words of 64 bits. A sum or difference that a word does not hold and octets beyond
the end of the data have no result. None of this happens whatever calls are made, and what they give
is what a reader gives.
-/

namespace Asn1

/-- Steps with a position in a word. A step that fails keeps the position that it came to. -/
abbrev Words (α : Type) := ExceptT DecodeError (StateT UInt64 Option) α

namespace Words

open Reader (Answer Bounds Call)

def word (number : Nat) : UInt64 := .ofNat number

def sum? (left right : UInt64) : Option UInt64 :=
  if left ≤ left + right then some (left + right) else none

def difference? (left right : UInt64) : Option UInt64 :=
  if right ≤ left then some (left - right) else none

/-- The octets from one position up to another, both of which have to be in the data. -/
def slice? (data : Octets) (start stop : UInt64) : Option Octets :=
  if start ≤ stop ∧ stop ≤ word data.length then some (data.between start.toNat stop.toNat)
  else none

/-- Octets as an array of so many, which they have to be. -/
def array? (width : Nat) (octets : Octets) : Option Octets :=
  if octets.length = width then some octets else none

def shifted (high middle low : UInt8) : UInt32 :=
  high.toUInt32 <<< 16 ||| middle.toUInt32 <<< 8 ||| low.toUInt32

/-- The number that an array writes. That of three octets has no type of its own. -/
def valueOf : ByteOrder → Octets → Nat
  | .big, [first, second, third] => (shifted first second third).toNat
  | .little, [first, second, third] => (shifted third second first).toNat
  | order, octets => order.toNat octets

section Numbers

variable {data : Octets} {start stop : Nat} {left right : UInt64}

theorem toNat_word {number : Nat} (small : number < 2 ^ 64) : (word number).toNat = number :=
  UInt64.toNat_ofNat_of_lt' small

theorem min_word (start : UInt64) {stop : Nat} (small : stop < 2 ^ 64) :
    min start (word stop) = word (min start.toNat stop) := by
  have le_iff : start ≤ word stop ↔ start.toNat ≤ stop := by
    rw [UInt64.le_iff_toNat_le, toNat_word small]
  by_cases le : start.toNat ≤ stop
  · have same : word start.toNat = start := UInt64.ofNat_toNat
    rw [Nat.min_eq_left le, same]
    exact if_pos (le_iff.mpr le)
  · rw [Nat.min_eq_right (Nat.le_of_not_le le)]
    exact if_neg (mt le_iff.mp le)

theorem sum?_eq (small : left.toNat + right.toNat < 2 ^ 64) :
    sum? left right = some (word (left.toNat + right.toNat)) := by
  have sum_eq : left + right = word (left.toNat + right.toNat) := by
    apply UInt64.toNat_inj.mp
    rw [toNat_word small, UInt64.toNat_add, Nat.mod_eq_of_lt small]
  rw [sum?, sum_eq, if_pos]
  rw [UInt64.le_iff_toNat_le, toNat_word small]
  omega

theorem difference?_eq (le : right.toNat ≤ left.toNat) :
    difference? left right = some (word (left.toNat - right.toNat)) := by
  have small := left.toNat_lt
  have le' : right ≤ left := UInt64.le_iff_toNat_le.mpr le
  rw [difference?, if_pos le', Option.some.injEq]
  apply UInt64.toNat_inj.mp
  rw [toNat_word (by omega), UInt64.toNat_sub_of_le _ _ le']

theorem slice?_eq (forward : start ≤ stop) (within : stop ≤ data.length)
    (small : data.length < 2 ^ 64) :
    slice? data (word start) (word stop) = some (data.between start stop) := by
  have start_eq : (word start).toNat = start := toNat_word (by omega)
  have stop_eq : (word stop).toNat = stop := toNat_word (by omega)
  rw [slice?, start_eq, stop_eq, if_pos]
  rw [UInt64.le_iff_toNat_le, UInt64.le_iff_toNat_le, start_eq, stop_eq, toNat_word small]
  exact ⟨forward, within⟩

theorem toNat_shifted (high middle low : UInt8) :
    (shifted high middle low).toNat = high.toNat * 65536 + middle.toNat * 256 + low.toNat := by
  have lowBound : low.toNat < 2 ^ 8 := low.toNat_lt
  have middleBound : middle.toNat < 2 ^ 8 := middle.toNat_lt
  have highBound : high.toNat < 2 ^ 8 := high.toNat_lt
  have middleShifted : (middle.toUInt32 <<< 8).toNat = middle.toNat <<< 8 := by
    rw [UInt32.toNat_shiftLeft, UInt8.toNat_toUInt32]
    apply Nat.mod_eq_of_lt
    simp only [UInt32.reduceToNat, Nat.reduceMod, Nat.shiftLeft_eq]
    omega
  have highShifted : (high.toUInt32 <<< 16).toNat = high.toNat <<< 16 := by
    rw [UInt32.toNat_shiftLeft, UInt8.toNat_toUInt32]
    apply Nat.mod_eq_of_lt
    simp only [UInt32.reduceToNat, Nat.reduceMod, Nat.shiftLeft_eq]
    omega
  have lower : middle.toNat <<< 8 ||| low.toNat = middle.toNat * 256 + low.toNat := by
    rw [← Nat.shiftLeft_add_eq_or_of_lt lowBound, Nat.shiftLeft_eq]
  have lowerBound : middle.toNat * 256 + low.toNat < 2 ^ 16 := by omega
  rw [shifted, UInt32.toNat_or, UInt32.toNat_or, highShifted, middleShifted,
    UInt8.toNat_toUInt32, Nat.or_assoc, lower, ← Nat.shiftLeft_add_eq_or_of_lt lowerBound,
    Nat.shiftLeft_eq]
  omega

theorem valueOf_eq (order : ByteOrder) (octets : Octets) :
    valueOf order octets = order.toNat octets := by
  unfold valueOf
  split
  · rw [toNat_shifted, ByteOrder.toNat, Octets.toNat]
    simp only [List.foldl_cons, List.foldl_nil]
    omega
  · rw [toNat_shifted, ByteOrder.toNat, Octets.toNat]
    simp only [List.reverse_cons, List.reverse_nil, List.nil_append, List.cons_append,
      List.foldl_cons, List.foldl_nil]
    omega
  · rfl

end Numbers

def bytes (data : Octets) (count : UInt64) : Words Octets := do
  let pos ← get
  let left ← difference? (word data.length) pos
  if left < count then
    throw .outOfBounds
  else
    let stop ← sum? pos count
    let taken ← slice? data pos stop
    set stop
    return taken

def octet (data : Octets) : Words UInt8 := do
  let pos ← get
  match data[pos.toNat]? with
  | some octet =>
      set (← sum? pos 1)
      return octet
  | none => throw .outOfBounds

def number (order : ByteOrder) (data : Octets) (width : Nat) : Words Nat := do
  if width = 1 then
    return (← octet data).toNat
  else
    return valueOf order (← array? width (← bytes data (word width)))

def field (order : ByteOrder) (data : Octets) (width : Nat) (bounds? : Option Bounds) :
    Words Octets := do
  let length := word (← number order data width)
  if bounds?.any fun bounds => length < bounds.low ∨ bounds.high < length then
    throw .invalidFormat
  else
    bytes data length

def answer (order : ByteOrder) (data : Octets) : Call → Words Answer
  | .data => return .octets data
  | .pos => return .number (← get).toNat
  | .remaining => return .number (← difference? (word data.length) (← get)).toNat
  | .hasUnconsumedData => return .flag ((← get) < word data.length)
  | .rest => return .octets (← slice? data (← get) (word data.length))
  | .since start => do
      let pos ← get
      return .octets (← slice? data (min start pos) pos)
  | .bytes count => return .octets (← bytes data count)
  | .number width _ => return .number (← number order data width)
  | .field width _ bounds? => return .octets (← field order data width bounds?)

/-- What calls made one after another give, whether each of them fails or not. -/
def answers (order : ByteOrder) (data : Octets) :
    List Call → StateT UInt64 Option (List (Except DecodeError Answer))
  | [] => return []
  | call :: later => return (← (answer order data call).run) :: (← answers order data later)

section Following

variable {α β : Type} {data : Octets} {steps : Words α} {scan : Scan α}

/-- What a scan comes to, with the position that it leaves octets at. -/
def outcome (data : Octets) : EStateM.Result DecodeError Octets α → Except DecodeError α × UInt64
  | .ok result rest => (.ok result, word (data.length - rest.length))
  | .error error rest => (.error error, word (data.length - rest.length))

/-- Wherever in the data steps start, they come to what a scan of the octets from there comes to. -/
def Follows (data : Octets) (steps : Words α) (scan : Scan α) : Prop :=
  ∀ pos ≤ data.length, steps (word pos) = some (outcome data (scan (data.drop pos)))

theorem bind_apply (steps : Words α) (next : α → Words β) (pos : UInt64) :
    (steps >>= next) pos = match steps pos with
      | some (.ok result, pos) => next result pos
      | some (.error error, pos) => some (.error error, pos)
      | none => none := by
  change Option.bind (steps pos) _ = _
  rcases steps pos with _ | ⟨_ | _, _⟩ <;> rfl

theorem Follows.bind {next : α → Words β} {nextScan : α → Scan β} (first : Follows data steps scan)
    (forward : scan.Forward)
    (later : ∀ all result rest, scan all = .ok result rest →
      Follows data (next result) (nextScan result)) :
    Follows data (steps >>= next) (scan >>= nextScan) := by
  intro pos within
  have suffix := forward (data.drop pos)
  rw [bind_apply, first pos within, Scan.bind_apply]
  cases scanned : scan (data.drop pos) with
  | error error rest => rfl
  | ok result rest =>
      -- What a scan leaves is a suffix, so the later steps start at a position of the data as well.
      rw [scanned] at suffix
      have left : data.drop (data.length - rest.length) = rest :=
        (List.suffix_iff_eq_drop.mp (suffix.trans (List.drop_suffix pos data))).symm
      have followed := later _ result rest scanned (data.length - rest.length) (Nat.sub_le _ _)
      rwa [left] at followed

theorem Follows.map (first : Follows data steps scan) (function : α → β) :
    Follows data (steps >>= fun result => pure (function result)) (function <$> scan) := by
  intro pos within
  rw [bind_apply, first pos within, Scan.map_apply]
  cases scan (data.drop pos) with
  | error error rest => rfl
  | ok result rest => rfl

theorem follows_pure (data : Octets) (result : α) : Follows data (pure result) (pure result) := by
  intro pos within
  rw [Scan.pure_apply, outcome, List.length_drop, Nat.sub_sub_self within]
  rfl

theorem follows_throw (data : Octets) (error : DecodeError) :
    Follows data (throw error : Words α) (throw error) := by
  intro pos within
  rw [Scan.throw_apply, outcome, List.length_drop, Nat.sub_sub_self within]
  rfl

theorem get_bind_apply (next : UInt64 → Words β) (pos : UInt64) :
    ((get : Words UInt64) >>= next) pos = next pos pos := rfl

theorem lift_bind_apply (found : Option α) (next : α → Words β) (pos : UInt64) :
    ((liftM found : Words α) >>= next) pos = found.bind fun result => next result pos := by
  cases found <;> rfl

theorem bytes_apply (data : Octets) (count pos : UInt64) :
    bytes data count pos = (difference? (word data.length) pos).bind fun left =>
      if left < count then some (.error .outOfBounds, pos)
      else (sum? pos count).bind fun stop =>
        (slice? data pos stop).bind fun taken => some (.ok taken, stop) := by
  rw [bytes, get_bind_apply, lift_bind_apply]
  congr 1
  funext left
  by_cases few : left < count
  · rw [if_pos few, if_pos few]
    rfl
  · rw [if_neg few, if_neg few, lift_bind_apply]
    congr 1
    funext stop
    exact lift_bind_apply _ _ _

theorem octet_apply (data : Octets) (pos : UInt64) :
    octet data pos = match data[pos.toNat]? with
      | some octet => (sum? pos 1).bind fun stop => some (.ok octet, stop)
      | none => some (.error .outOfBounds, pos) := by
  rw [octet, get_bind_apply]
  cases data[pos.toNat]? with
  | none => rfl
  | some octet => exact lift_bind_apply _ _ _

theorem follows_bytes (small : data.length < 2 ^ 64) (count : UInt64) :
    Follows data (bytes data count) (Scan.octets count.toNat) := by
  intro pos within
  have pos_eq : (word pos).toNat = pos := toNat_word (by omega)
  have size_eq : (word data.length).toNat = data.length := toNat_word small
  have left_eq : difference? (word data.length) (word pos) = some (word (data.length - pos)) := by
    rw [difference?_eq (by omega), pos_eq, size_eq]
  have few_iff : word (data.length - pos) < count ↔ data.length < pos + count.toNat := by
    rw [UInt64.lt_iff_toNat_lt, toNat_word (by omega)]
    omega
  rw [bytes_apply, left_eq, Option.bind_some]
  by_cases few : data.length < pos + count.toNat
  · rw [if_pos (few_iff.mpr few), Reader.octets_drop_of_few within few, outcome, List.length_drop,
      Nat.sub_sub_self within]
  · have enough : pos + count.toNat ≤ data.length := Nat.le_of_not_lt few
    have sum_eq : sum? (word pos) count = some (word (pos + count.toNat)) := by
      rw [sum?_eq (by omega), pos_eq]
    rw [if_neg (mt few_iff.mp few), sum_eq, Option.bind_some,
      slice?_eq (Nat.le_add_right _ _) enough small, Option.bind_some,
      Reader.octets_drop rfl enough, outcome, List.length_drop, Nat.sub_sub_self enough]

theorem follows_octet (small : data.length < 2 ^ 64) : Follows data (octet data) Scan.octet := by
  intro pos within
  have pos_eq : (word pos).toNat = pos := toNat_word (by omega)
  rw [octet_apply, pos_eq]
  by_cases reached : pos < data.length
  · have sum_eq : sum? (word pos) 1 = some (word (pos + 1)) := by
      rw [sum?_eq (by rw [pos_eq]; change pos + 1 < _; omega), pos_eq]
      rfl
    rw [List.getElem?_eq_getElem reached, List.drop_eq_getElem_cons reached]
    dsimp only
    rw [sum_eq, Scan.octet_cons, outcome, List.length_drop, Nat.sub_sub_self reached]
    rfl
  · have atEnd : pos = data.length := by omega
    rw [List.getElem?_eq_none (by omega), atEnd, List.drop_length]
    rfl

theorem number_one (order : ByteOrder) : Scan.number order 1 = UInt8.toNat <$> Scan.octet := by
  funext all
  rw [Scan.number, Scan.bind_apply, Scan.map_apply]
  cases all with
  | nil => rfl
  | cons first rest =>
      have single : order.toNat [first] = first.toNat := by
        cases order with
        | big => exact Nat.zero_add _
        | little => exact Nat.zero_add _
      exact congrArg (EStateM.Result.ok · rest) single

theorem follows_number (small : data.length < 2 ^ 64) (order : ByteOrder) {width : Nat}
    (narrow : width < 2 ^ 64) :
    Follows data (number order data width) (Scan.number order width) := by
  by_cases single : width = 1
  · rw [single, number_one, number, if_pos rfl]
    exact (follows_octet small).map UInt8.toNat
  · have taken := follows_bytes small (word width)
    rw [toNat_word narrow] at taken
    rw [number, if_neg single]
    refine taken.bind (Scan.forward_octets width) fun all octets rest scanned => ?_
    have isArray : array? width octets = some octets := if_pos (Scan.octets_eq_ok_iff.mp scanned).2
    rw [isArray, ← valueOf_eq]
    exact follows_pure data _

theorem number_lt {order : ByteOrder} {width value : Nat} {all rest : Octets}
    (scanned : Scan.number order width all = .ok value rest) : value < 256 ^ width := by
  rw [Scan.number, Scan.bind_eq_ok_iff] at scanned
  obtain ⟨written, between, taken, same⟩ := scanned
  cases same
  rw [← (Scan.octets_eq_ok_iff.mp taken).2]
  cases order with
  | big => exact written.toNat_lt
  | little =>
      rw [← List.length_reverse]
      exact Octets.toNat_lt written.reverse

theorem follows_field (small : data.length < 2 ^ 64) (order : ByteOrder) {width : Nat}
    (narrow : width ≤ 7) (bounds? : Option Bounds) :
    Follows data (field order data width bounds?) (Reader.fieldScan order width bounds?) := by
  have prefixed : Follows data (number order data width) (Scan.number order width) :=
    follows_number small order (by omega)
  have forward := Scan.forward_number order width
  have length_eq : ∀ {all length rest}, Scan.number order width all = .ok length rest →
      (word length).toNat = length := by
    intro all length rest scanned
    have bound := number_lt scanned
    have widest : 256 ^ width ≤ 256 ^ 7 := Nat.pow_le_pow_right (by decide) narrow
    exact toNat_word (by omega)
  cases bounds? with
  | none =>
      refine prefixed.bind forward fun all length rest scanned => ?_
      have content := follows_bytes small (word length)
      rwa [length_eq scanned] at content
  | some bounds =>
      refine prefixed.bind forward fun all length rest scanned => ?_
      have content := follows_bytes small (word length)
      rw [length_eq scanned] at content
      simp only [Option.any_some, decide_eq_true_eq, UInt64.lt_iff_toNat_lt, length_eq scanned]
      split
      · exact follows_throw data .invalidFormat
      · exact content

theorem run_eq_outcome (reader : Reader) (scan : Scan α) :
    outcome reader.data (scan reader.rest) =
      ((reader.run scan).1, word (reader.run scan).2.pos) := by
  rw [Reader.run]
  cases scan reader.rest <;> rfl

end Following

section Calls

variable {reader : Reader} {order : ByteOrder}

theorem Follows.answer_eq {steps : Words Answer} {scan : Scan Answer}
    (follows : Follows reader.data steps scan) :
    steps (word reader.pos) = some ((reader.run scan).1, word (reader.run scan).2.pos) :=
  (follows reader.pos reader.pos_le).trans (congrArg some (run_eq_outcome reader scan))

theorem answer_eq (small : reader.data.length < 2 ^ 64) (order : ByteOrder) (call : Call) :
    answer order reader.data call (word reader.pos) =
      some ((reader.answer order call).1, word (reader.answer order call).2.pos) := by
  have within := reader.pos_le
  have pos_eq : (word reader.pos).toNat = reader.pos := toNat_word (by omega)
  have size_eq : (word reader.data.length).toNat = reader.data.length := toNat_word small
  cases call with
  | data => rfl
  | pos =>
      change some (Except.ok (Answer.number (word reader.pos).toNat), word reader.pos) = _
      rw [pos_eq]
      rfl
  | remaining =>
      have left : difference? (word reader.data.length) (word reader.pos) =
          some (word ((word reader.data.length).toNat - (word reader.pos).toNat)) :=
        difference?_eq (by omega)
      rw [answer, get_bind_apply, lift_bind_apply, left, Option.bind_some, size_eq, pos_eq,
        toNat_word (by omega)]
      rfl
  | hasUnconsumedData =>
      have less_iff : word reader.pos < word reader.data.length ↔
          reader.pos < reader.data.length := by
        rw [UInt64.lt_iff_toNat_lt, pos_eq, size_eq]
      simp only [answer, get_bind_apply, less_iff]
      rfl
  | rest =>
      rw [answer, get_bind_apply, lift_bind_apply, slice?_eq within (Nat.le_refl _) small,
        Option.bind_some, ← Reader.rest_eq_between]
      rfl
  | since start =>
      rw [answer, get_bind_apply, min_word start (by omega), lift_bind_apply,
        slice?_eq (Nat.min_le_right _ _) within small]
      rfl
  | bytes count => exact ((follows_bytes small count).map Answer.octets).answer_eq
  | number width isWidth =>
      have narrow : width < 2 ^ 64 := by
        have widths : ∀ width ∈ Reader.numberWidths, width < 2 ^ 64 := by decide
        exact widths width isWidth
      exact ((follows_number small order narrow).map Answer.number).answer_eq
  | field width isWidth bounds? =>
      have narrow : width ≤ 7 := by
        have widths : ∀ width ∈ Reader.prefixWidths, width ≤ 7 := by decide
        exact widths width isWidth
      exact ((follows_field small order narrow bounds?).map Answer.octets).answer_eq

/-- Calls on a position in a word are never without a result. -/
theorem answers_eq (reader : Reader) (small : reader.data.length < 2 ^ 64) (order : ByteOrder)
    (calls : List Call) :
    answers order reader.data calls (word reader.pos) =
      some (reader.answers order calls, word (reader.after order calls).pos) := by
  induction calls generalizing reader with
  | nil => rfl
  | cons call calls inductionHypothesis =>
      have later := inductionHypothesis (reader.answer order call).2
      rw [Reader.data_answer] at later
      change Option.bind (answer order reader.data call (word reader.pos)) _ = _
      rw [answer_eq small, Option.bind_some]
      change Option.bind (answers order reader.data calls _) _ = _
      rw [later small]
      rfl

end Calls

end Words

namespace Reader

/-- Whatever calls are made one after another on a reader, each gives what the positions say and
nothing else. The data stays as it is, and the cursor goes forward and not beyond the end. With
positions in words no sum and no difference is wrapped, no octets beyond the end are taken, and the
calls give the same. -/
theorem answers_exact (order : ByteOrder) (data : Octets) (calls : List Call) :
    let reader := after order (ofOctets data) calls
    (∀ results stop, Runs order data 0 calls results stop ↔
      answers order (ofOctets data) calls = results ∧ reader.pos = stop) ∧
    (∀ octets, ByteOrder.value .little octets = ByteOrder.value .big octets.reverse) ∧
    reader.data = data ∧
    (∀ count, (after order (ofOctets data) (calls.take count)).pos ≤ reader.pos) ∧
    reader.pos ≤ data.length ∧
    (data.length < 2 ^ 64 → Words.answers order data calls 0 =
      some (answers order (ofOctets data) calls, Words.word reader.pos)) := by
  intro reader
  have data_eq : reader.data = data := data_after order (ofOctets data) calls
  have forward : ∀ count, (after order (ofOctets data) (calls.take count)).pos ≤ reader.pos := by
    intro count
    have later := pos_le_pos_after order (after order (ofOctets data) (calls.take count))
      (calls.drop count)
    rwa [← after_append, List.take_append_drop] at later
  refine ⟨fun results stop => (ofOctets data).runs_iff, ?_, data_eq, forward,
    data_eq ▸ reader.pos_le, fun small => Words.answers_eq (ofOctets data) small order calls⟩
  intro octets
  rw [ByteOrder.value, ByteOrder.value, List.reverse_reverse]

/-- A number that is not all there, and more octets than any data has, are not read. -/
theorem answers_exact_three_octets :
    ([1, 2, 3] : Octets).length < 2 ^ 64 ∧
      Words.answers .big [1, 2, 3]
        [.number 1 (by decide), .number 4 (by decide), .bytes 0xffffffffffffffff,
          .number 2 (by decide)] 0 =
        some ([.ok (.number 1), .error .outOfBounds, .error .outOfBounds, .ok (.number 0x0203)],
          3) := by
  have few : ([1, 2, 3] : Octets).length < 2 ^ 64 := by decide
  have ⟨_, _, _, _, _, inWords⟩ := answers_exact .big [1, 2, 3]
    [.number 1 (by decide), .number 4 (by decide), .bytes 0xffffffffffffffff,
      .number 2 (by decide)]
  exact ⟨few, (inWords few).trans (by decide)⟩

end Reader

end Asn1
