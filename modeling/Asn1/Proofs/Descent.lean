import Asn1.Proofs.Encoding.Reading
import Asn1.Proofs.Length.Reading

/-!
# Reading values step by step

The decoder as a machine. Values whose elements are being read lie on a stack, each with the cursor
at which the reading goes on after it, so that neither a loop nor a recursion is left. A step may
open a value, end one or put a series of octets aside; the octets that no cursor has passed yet,
those put aside included, bound the number of steps.
-/

namespace Asn1.Descent

open Value

/-- What the front of a value announces. -/
inductive Opening where
  /-- A primitive value or an end marker, which is none, has been taken. -/
  | item (found : Option Value)
  /-- Content of definite length has been taken. Its elements are to be read. -/
  | definite (tag : Tag) (body : Octets)
  /-- Elements up to an end marker follow. -/
  | indefinite (tag : Tag)

/-- The octets in which the elements of a value have to be read. -/
def Opening.body : Opening → Octets
  | .definite _ body => body
  | _ => []

/-- Takes what follows an identifier other than the end marker's, if that needs no other item. -/
def contentOpening (options : Options) (identifier : Identifier) : Length → Scan Opening
  | .definite count => do
      let body ← Scan.octets count
      if identifier.constructed then
        if mayBeConstructed options.mode identifier.tag then return .definite identifier.tag body
        else throw .invalidFormat
      else
        let value ← Scan.accept
          (ofContent? options.mode options.toTextOptions identifier.tag body)
        return .item (some value)
  | .indefinite =>
      if identifier.constructed ∧ mayBeConstructed options.mode identifier.tag then
        return .indefinite identifier.tag
      else
        throw .invalidFormat

/-- Takes an item as far as this needs no other item. -/
def opening (options : Options) : Scan Opening := do
  let identifier ← Identifier.scan
  if options.isTooDeep then
    throw .invalidFormat
  else
    let length ← Length.scan options.mode
    if identifier.tag = .endOfContent then
      if identifier.constructed = false ∧ length.isZero then return .item none
      else throw .invalidFormat
    else
      contentOpening options identifier length

/-- Where the elements of a value end. -/
inductive Extent where
  /-- With its content, which has a cursor of its own. The other one stands behind the value. -/
  | definite (body : Octets) (outer : Reader)
  /-- With an end marker. The content starts here. -/
  | indefinite (start : Nat)

/-- A value whose elements are being read. -/
structure Frame where
  tag : Tag
  extent : Extent
  /-- The elements that have been read. -/
  elements : List Value := []

namespace Frame

/-- The cursor with which the value itself is read if its elements are read with another one. -/
def outer (frame : Frame) (inner : Reader) : Reader :=
  match frame.extent with
  | .definite _ outer => outer
  | .indefinite _ => inner

def adding (frame : Frame) (value : Value) : Frame :=
  { frame with elements := frame.elements ++ [value] }

/-- Adds an element. Distinguished rules demand that it does not come before the last one of a
set. -/
def push? (mode : Mode) (frame : Frame) (value : Value) : Option Frame :=
  if mode = .der ∧ frame.tag = .set ∧
      frame.elements.getLast?.any (fun last => value.body < last.body) then
    none
  else
    some (frame.adding value)

/-- What a failure of an element means for the value. Content of definite length that ends too early
is malformed. -/
def errorOf (frame : Frame) (error : DecodeError) : DecodeError :=
  match frame.extent, error with
  | .definite .., .outOfBounds => .invalidFormat
  | _, error => error

end Frame

/-- Where the machine is. The frames are those of the values around, the innermost one first. -/
inductive State where
  /-- An item is about to be taken. -/
  | take (reader : Reader) (frames : List Frame)
  /-- A value or an end marker has been taken. -/
  | taken (found : Option Value) (reader : Reader) (frames : List Frame)
  | failed (error : DecodeError) (reader : Reader) (frames : List Frame)

def within (options : Options) : List Frame → Options
  | [] => options
  | _ :: frames => (within options frames).deeper

/-- Goes on with the elements of a value. Those of definite length end with the data. -/
def goOn (reader : Reader) (frame : Frame) (frames : List Frame) : State :=
  match frame.extent with
  | .definite body _ =>
      if reader.hasUnconsumedData then
        .take reader (frame :: frames)
      else
        .taken (some (.constructed frame.tag body frame.elements)) (frame.outer reader) frames
  | .indefinite _ => .take reader (frame :: frames)

/-- An end marker ends a value of indefinite length and nothing else. -/
def finish (reader : Reader) (frame : Frame) (frames : List Frame) : State :=
  match frame.extent with
  | .definite .. => .failed .invalidFormat (frame.outer reader) frames
  | .indefinite start =>
      .taken (some (.constructed frame.tag (reader.since start) frame.elements))
        (frame.outer reader) frames

def start (options : Options) (reader : Reader) (frames : List Frame) : State :=
  match reader.run (opening (within options frames)) with
  | (.error error, after) => .failed error after frames
  | (.ok (.item found), after) => .taken found after frames
  | (.ok (.definite tag body), after) =>
      goOn (.ofOctets body) { tag, extent := .definite body after } frames
  | (.ok (.indefinite tag), after) =>
      goOn after { tag, extent := .indefinite after.pos } frames

/-- One step. There is none when the outermost item is taken or has failed. -/
def next? (options : Options) : State → Option State
  | .take reader frames => some (start options reader frames)
  | .taken none reader (frame :: frames) => some (finish reader frame frames)
  | .taken (some value) reader (frame :: frames) =>
      match frame.push? options.mode value with
      | some longer => some (goOn reader longer frames)
      | none => some (.failed .invalidFormat (frame.outer reader) frames)
  | .failed error reader (frame :: frames) =>
      some (.failed (frame.errorOf error) (frame.outer reader) frames)
  | .taken _ _ [] => none
  | .failed _ _ [] => none

variable {options : Options}

@[simp]
theorem mode_within (frames : List Frame) : (within options frames).mode = options.mode := by
  induction frames with
  | nil => rfl
  | cons frame frames inductionHypothesis => exact inductionHypothesis

@[simp]
theorem toTextOptions_within (frames : List Frame) :
    (within options frames).toTextOptions = options.toTextOptions := by
  induction frames with
  | nil => rfl
  | cons frame frames inductionHypothesis => exact inductionHypothesis

theorem depth_within (frames : List Frame) :
    (within options frames).depth = options.depth + frames.length := by
  induction frames with
  | nil => rfl
  | cons frame frames inductionHypothesis =>
      change (within options frames).depth + 1 = options.depth + (frames.length + 1)
      omega

theorem forward_contentOpening (options : Options) (identifier : Identifier) (length : Length) :
    Scan.Forward (contentOpening options identifier length) := by
  cases length with
  | definite count =>
      refine Scan.forward_bind (Scan.forward_octets count) fun body => ?_
      split
      · split
        · exact Scan.forward_pure _
        · exact Scan.forward_throw _
      · exact Scan.forward_bind (Scan.forward_accept _) fun _ => Scan.forward_pure _
  | indefinite =>
      simp only [contentOpening]
      split
      · exact Scan.forward_pure _
      · exact Scan.forward_throw _

theorem forward_opening (options : Options) : Scan.Forward (opening options) := by
  refine Scan.forward_bind Identifier.forward_scan fun identifier => ?_
  split
  · exact Scan.forward_throw _
  refine Scan.forward_bind (Length.forward_scan options.mode) fun length => ?_
  split
  · split
    · exact Scan.forward_pure _
    · exact Scan.forward_throw _
  · exact forward_contentOpening options identifier length

theorem exists_used_of_contentOpening {identifier : Identifier} {length : Length}
    {all rest : Octets} {found : Opening}
    (opened : contentOpening options identifier length all = .ok found rest) :
    (∃ used, all = used ++ (found.body ++ rest)) ∧
      ∀ tag, found = .indefinite tag → length = .indefinite := by
  cases length with
  | definite count =>
      obtain ⟨body, between, taken, continued⟩ := Scan.bind_eq_ok_iff.mp opened
      obtain ⟨rfl, -⟩ := Scan.octets_eq_ok_iff.mp taken
      split at continued
      · split at continued
        · cases continued
          exact ⟨⟨[], rfl⟩, nofun⟩
        · cases continued
      · obtain ⟨value, left, accepted, announced⟩ := Scan.bind_eq_ok_iff.mp continued
        obtain ⟨-, rfl⟩ := Scan.accept_eq_ok_iff.mp accepted
        cases announced
        exact ⟨⟨body, rfl⟩, nofun⟩
  | indefinite =>
      simp only [contentOpening] at opened
      split at opened
      · cases opened
        exact ⟨⟨[], rfl⟩, fun _ _ => rfl⟩
      · cases opened

/-- What an opening needs. -/
structure Opens (options : Options) (all : Octets) (found : Opening) (rest : Octets) : Prop where
  depth_le : options.depth ≤ Options.depthLimit
  /-- An identifier and a length stand in front of the content whose elements are to be read. -/
  exists_head : ∃ head : Octets, 2 ≤ head.length ∧ all = head ++ (found.body ++ rest)
  mode_eq : ∀ tag, found = .indefinite tag → options.mode = .ber

theorem opens_of_opening {all rest : Octets} {found : Opening}
    (opened : opening options all = .ok found rest) : Opens options all found rest := by
  obtain ⟨identifier, after, taken, continued⟩ := Scan.bind_eq_ok_iff.mp opened
  obtain rfl := Identifier.scan_eq_ok_iff.mp taken
  split at continued
  · cases continued
  next notDeep =>
  have depth_le : options.depth ≤ Options.depthLimit := by
    simpa [Options.isTooDeep] using notDeep
  obtain ⟨length, between, lengthFound, announced⟩ := Scan.bind_eq_ok_iff.mp continued
  obtain ⟨written, accepts, rfl⟩ := Length.scan_eq_ok_iff.mp lengthFound
  have nonempty := List.length_pos_iff.mpr accepts.ne_nil
  split at announced
  · split at announced
    · cases announced
      exact ⟨depth_le, ⟨identifier.octet :: written, Nat.succ_le_succ nonempty, rfl⟩,
        fun tag same => by cases same⟩
    · cases announced
  · obtain ⟨⟨used, rfl⟩, indefinite⟩ := exists_used_of_contentOpening announced
    refine ⟨depth_le, ⟨identifier.octet :: (written ++ used), ?_, by simp⟩, fun tag same => ?_⟩
    · simp only [List.length_cons, List.length_append]
      omega
    · obtain rfl := indefinite tag same
      exact accepts.mode_eq

/-- How many octets wait for their turn behind the elements of a value. -/
def Frame.waiting (frame : Frame) : Nat :=
  match frame.extent with
  | .definite _ outer => outer.remaining
  | .indefinite _ => 0

theorem Frame.remaining_outer_le (frame : Frame) (inner : Reader) :
    (frame.outer inner).remaining ≤ inner.remaining + frame.waiting := by
  unfold outer waiting
  split <;> omega

/-- What each step needs and what it does to the cursors and the frames. -/
inductive Change (options : Options) : State → State → Prop
  | fails {reader after frames} (error) :
      Change options (.take reader frames) (.failed error after frames)
  | takes {reader after frames} (found) : after.remaining + 2 ≤ reader.remaining →
      Change options (.take reader frames) (.taken found after frames)
  | opens {reader inner frame frames} : (within options frames).depth ≤ Options.depthLimit →
      inner.remaining + frame.waiting + 2 ≤ reader.remaining →
      Change options (.take reader frames) (.take inner (frame :: frames))
  | goesOn {reader frame longer frames} (value) : longer.waiting = frame.waiting →
      Change options (.taken (some value) reader (frame :: frames))
        (.take reader (longer :: frames))
  | closes {reader frame frames} (found value) :
      Change options (.taken found reader (frame :: frames))
        (.taken (some value) (frame.outer reader) frames)
  | breaks {reader frame frames} (found error) :
      Change options (.taken found reader (frame :: frames))
        (.failed error (frame.outer reader) frames)
  | unwinds {reader frame frames} (error reason) :
      Change options (.failed error reader (frame :: frames))
        (.failed reason (frame.outer reader) frames)

theorem change_start (reader : Reader) (frames : List Frame) :
    Change options (.take reader frames) (start options reader frames) := by
  simp only [start, Reader.run]
  cases opened : opening (within options frames) reader.rest with
  | error error rest => exact .fails error
  | ok found rest =>
      obtain ⟨depth_le, ⟨head, two_le, split⟩, -⟩ := opens_of_opening opened
      have total : (reader.leaving rest.length).remaining + found.body.length + 2 ≤
          reader.remaining := by
        have total := congrArg List.length split
        rw [← List.append_assoc] at split
        rw [Reader.remaining_leaving split]
        simp only [List.length_append, Reader.length_rest] at total
        omega
      cases found with
      | item found => exact .takes found total
      | indefinite tag => exact .opens depth_le total
      | definite tag body =>
          simp only [goOn]
          split
          · refine .opens depth_le ?_
            simp only [Frame.waiting]
            rw [← Reader.length_rest, Reader.rest_ofOctets, Nat.add_comm body.length]
            exact total
          · refine .takes _ ?_
            change (reader.leaving rest.length).remaining + 2 ≤ reader.remaining
            omega

theorem Frame.outer_waiting_of_push? {mode : Mode} {frame longer : Frame} {value : Value}
    (pushed : frame.push? mode value = some longer) (reader : Reader) :
    longer.outer reader = frame.outer reader ∧ longer.waiting = frame.waiting := by
  simp only [push?, Option.ite_none_left_eq_some, Option.some.injEq] at pushed
  rw [← pushed.2]
  exact ⟨rfl, rfl⟩

theorem change_goOn {value : Value} {frame longer : Frame}
    (pushed : frame.push? options.mode value = some longer) (reader : Reader)
    (frames : List Frame) :
    Change options (.taken (some value) reader (frame :: frames)) (goOn reader longer frames) := by
  obtain ⟨outer_eq, waiting_eq⟩ := Frame.outer_waiting_of_push? pushed reader
  unfold goOn
  split
  · split
    · exact .goesOn value waiting_eq
    · rw [outer_eq]
      exact .closes _ _
  · exact .goesOn value waiting_eq

theorem change_finish (reader : Reader) (frame : Frame) (frames : List Frame) :
    Change options (.taken none reader (frame :: frames)) (finish reader frame frames) := by
  unfold finish
  split
  · exact .breaks _ _
  · exact .closes _ _

theorem change_of_next? {state following : State} (next : next? options state = some following) :
    Change options state following := by
  match state with
  | .take reader frames =>
      cases next
      exact change_start reader frames
  | .taken none reader (frame :: frames) =>
      cases next
      exact change_finish reader frame frames
  | .taken (some value) reader (frame :: frames) =>
      simp only [next?] at next
      split at next
      next longer pushed =>
        cases next
        exact change_goOn pushed reader frames
      · cases next
        exact .breaks _ _
  | .failed error reader (frame :: frames) =>
      cases next
      exact .unwinds _ _
  | .taken none _ [] | .taken (some _) _ [] => cases next
  | .failed _ _ [] => cases next

/-- The octets that no cursor has passed yet. -/
def unread (reader : Reader) (frames : List Frame) : Nat :=
  reader.remaining + (frames.map Frame.waiting).sum

namespace State

def frames : State → List Frame
  | take _ frames | taken _ _ frames | failed _ _ frames => frames

def isTaken : State → Bool
  | taken .. => true
  | _ => false

/-- More steps than this do not follow. Each value that is open takes one to end, and no octet needs
more than one. -/
def stepsLeft : State → Nat
  | take reader frames => unread reader frames + frames.length + 1
  | taken _ reader frames => unread reader frames + frames.length + 2
  | failed _ _ frames => frames.length

/-- Two octets for each item that is taken now or later. Those of the values that are open have been
read. -/
def credit : State → Nat
  | take reader frames => unread reader frames + 2 * frames.length
  | taken _ reader frames => unread reader frames + 2 * frames.length + 2
  | failed .. => 0

end State

theorem unread_outer_le (frame : Frame) (reader : Reader) (frames : List Frame) :
    unread (frame.outer reader) frames ≤ unread reader (frame :: frames) := by
  have outer_le := frame.remaining_outer_le reader
  simp only [unread, List.map_cons, List.sum_cons]
  omega

namespace Change

variable {state following : State}

theorem stepsLeft_lt (change : Change options state following) :
    following.stepsLeft < state.stepsLeft := by
  cases change with
  | fails | breaks | unwinds => simp only [State.stepsLeft, List.length_cons]; omega
  | takes found used | opens depth_le used | goesOn value same =>
      simp only [State.stepsLeft, unread, List.map_cons, List.sum_cons, List.length_cons]
      omega
  | @closes reader frame frames found value =>
      have unread_le := unread_outer_le frame reader frames
      simp only [State.stepsLeft, List.length_cons]
      omega

/-- A step spends two octets if it leaves an item behind that has been taken. -/
theorem credit_add_le (change : Change options state following) :
    following.credit + (if state.isTaken then 2 else 0) ≤ state.credit := by
  cases change with
  | fails | breaks | unwinds => simp [State.credit, State.isTaken]
  | takes found used | opens depth_le used | goesOn value same =>
      simp only [State.credit, State.isTaken, unread, List.map_cons, List.sum_cons,
        List.length_cons]
      grind
  | @closes reader frame frames found value =>
      have unread_le := unread_outer_le frame reader frames
      simp only [State.credit, State.isTaken, List.length_cons]
      grind

end Change

def course (options : Options) (state : State) : List State :=
  match _next : next? options state with
  | none => [state]
  | some following => state :: course options following
termination_by state.stepsLeft
decreasing_by exact (change_of_next? _next).stepsLeft_lt

section Course

variable {state following : State}

theorem course_of_next? (next : next? options state = some following) :
    course options state = state :: course options following := by
  rw [course]
  split <;> simp_all

theorem course_of_none (last : next? options state = none) : course options state = [state] := by
  rw [course]
  split <;> simp_all

theorem course_ne_nil (state : State) : course options state ≠ [] := by
  rw [course]
  split <;> exact List.cons_ne_nil _ _

theorem head?_course (state : State) : (course options state).head? = some state := by
  rw [course]
  split <;> rfl

/-- Each state but the first follows from the one before it. -/
theorem isChain_course (state : State) :
    (course options state).IsChain fun state following =>
      next? options state = some following := by
  fun_induction course options state with
  | case1 state last => exact List.isChain_singleton state
  | case2 state following next inductionHypothesis =>
      refine inductionHypothesis.cons fun reached isHead => ?_
      rw [head?_course, Option.mem_some] at isHead
      rw [next, isHead]

/-- What each step keeps holds all the way. -/
theorem forall_mem_course {Kept : State → Prop}
    (step : ∀ {state following}, Change options state following → Kept state → Kept following)
    (first : Kept state) : ∀ reached ∈ course options state, Kept reached := by
  fun_induction course options state with
  | case1 state last =>
      rw [List.forall_mem_singleton]
      exact first
  | case2 state following next inductionHypothesis =>
      rw [List.forall_mem_cons]
      exact ⟨first, inductionHypothesis (step (change_of_next? next) first)⟩

theorem length_course_le (state : State) :
    (course options state).length ≤ state.stepsLeft + 1 := by
  fun_induction course options state with
  | case1 state last => simp
  | case2 state following next inductionHypothesis =>
      have less := (change_of_next? next).stepsLeft_lt
      rw [List.length_cons]
      omega

theorem countP_isTaken_course_le (state : State) :
    2 * (course options state).countP State.isTaken ≤ state.credit := by
  fun_induction course options state with
  | case1 state last =>
      rw [List.countP_singleton]
      cases state with
      | taken found reader frames =>
          simp only [State.isTaken, State.credit, if_true]
          omega
      | _ => simp [State.isTaken]
  | case2 state following next inductionHypothesis =>
      have spent := (change_of_next? next).credit_add_le
      rw [List.countP_cons]
      split at spent <;> simp_all <;> omega

/-- A value is only opened where the limit allows it. -/
theorem length_frames_le (reader : Reader) :
    ∀ reached ∈ course options (.take reader []),
      reached.frames = [] ∨ options.depth + reached.frames.length ≤ Options.depthLimit + 1 := by
  refine forall_mem_course (fun change kept => ?_) (.inl rfl)
  cases change with
  | fails | takes => exact kept
  | opens depth_le used =>
      rw [depth_within] at depth_le
      exact .inr (Nat.succ_le_succ depth_le)
  | goesOn value same => simpa [State.frames] using kept
  | @closes reader frame frames | @breaks reader frame frames | @unwinds reader frame frames =>
      simp only [State.frames, List.length_cons, reduceCtorEq, false_or] at kept ⊢
      omega

end Course

end Asn1.Descent
