import Asn1.Proofs.Descent
import Asn1.Proofs.Stability

/-!
# What the machine ends with

The machine ends where the decoder does, with the same answer. At each level the items of the level
below are known to be answered, so that the elements of a value are an induction along the reading
of a series; the frame on top holds those that have been read. What is known of each step then
bounds how far and for how long the decoder goes.
-/

namespace Asn1.Descent

open Value

variable {options : Options} {mode : Mode} {item : ItemScan (Option Value)} {frame : Frame}
  {frames : List Frame}

namespace Frame

/-- The elements so far are in an order in which they may come. -/
def IsOrdered (mode : Mode) (frame : Frame) : Prop :=
  mode = .der → frame.tag = .set → isAscending (frame.elements.map Value.body) = true

theorem IsOrdered.ofElements?_eq (ordered : frame.IsOrdered mode) (body : Octets) :
    ofElements? mode frame.tag body frame.elements =
      some (.constructed frame.tag body frame.elements) := by
  refine if_neg fun disordered => ?_
  rw [ordered disordered.1 disordered.2.1] at disordered
  cases disordered.2.2

/-- An element may be added if it does not come before the last one. -/
theorem isAscending_append_cons_iff {elements later : List Value} {value : Value} :
    isAscending ((elements ++ value :: later).map Value.body) = true ↔
      isAscending (elements.map Value.body) = true ∧
        elements.getLast?.any (fun last => value.body < last.body) = false ∧
        isAscending ((value :: later).map Value.body) = true := by
  rw [isAscending_iff_isChain, isAscending_iff_isChain, isAscending_iff_isChain, List.map_append,
    List.isChain_append]
  cases last : elements.getLast? with
  | none => simp [last]
  | some last => simp [*, and_comm]

theorem IsOrdered.push?_eq {value : Value} {longer : Frame} (ordered : frame.IsOrdered mode)
    (pushed : frame.push? mode value = some longer) :
    longer = frame.adding value ∧ longer.IsOrdered mode := by
  rw [push?, Option.ite_none_left_eq_some, Option.some.injEq] at pushed
  obtain ⟨notBefore, rfl⟩ := pushed
  refine ⟨rfl, fun der set => isAscending_append_cons_iff.mpr ⟨ordered der set, ?_, rfl⟩⟩
  exact Bool.eq_false_iff.mpr fun before => notBefore ⟨der, set, before⟩

theorem ofElements?_of_push?_eq_none {value : Value} (refused : frame.push? mode value = none)
    (body : Octets) (later : List Value) :
    ofElements? mode frame.tag body (frame.elements ++ value :: later) = none := by
  rw [push?] at refused
  split at refused
  next before =>
    refine if_pos ⟨before.1, before.2.1, Bool.eq_false_iff.mpr fun ascending => ?_⟩
    have notBefore := (isAscending_append_cons_iff.mp ascending).2.1
    rw [before.2.2] at notBefore
    cases notBefore
  · cases refused

theorem push?_ber (value : Value) :
    frame.push? .ber value = some (frame.adding value) :=
  if_neg nofun

end Frame

theorem ofElements?_ber (tag : Tag) (body : Octets) (elements : List Value) :
    ofElements? .ber tag body elements = some (.constructed tag body elements) :=
  if_neg nofun

/-- The state after an item, given how its scan has come out. -/
def answered (frames : List Frame) : Except DecodeError (Option Value) × Reader → State
  | (.ok found, reader) => .taken found reader frames
  | (.error error, reader) => .failed error reader frames

/-- The state after a constructed value, given whether its elements were accepted. -/
def concluded (outer : Reader) (frames : List Frame) : Option Value → State
  | some value => .taken (some value) outer frames
  | none => .failed .invalidFormat outer frames

def ending (options : Options) (state : State) : Option State := (course options state).getLast?

theorem ending_of_next? {state following : State} (next : next? options state = some following) :
    ending options state = ending options following := by
  rw [ending, ending, course_of_next? next, List.getLast?_cons]
  cases last : (course options following).getLast? with
  | none => exact absurd (List.getLast?_eq_none_iff.mp last) (course_ne_nil following)
  | some last => rfl

section Steps

variable {reader : Reader} {value : Value}

theorem ending_take : ending options (.take reader frames) =
    ending options (start options reader frames) :=
  ending_of_next? rfl

theorem ending_taken_end : ending options (.taken none reader (frame :: frames)) =
    ending options (finish reader frame frames) :=
  ending_of_next? rfl

theorem ending_failed {error : DecodeError} :
    ending options (.failed error reader (frame :: frames)) =
      ending options (.failed (frame.errorOf error) (frame.outer reader) frames) :=
  ending_of_next? rfl

theorem ending_taken_value {longer : Frame}
    (pushed : frame.push? options.mode value = some longer) :
    ending options (.taken (some value) reader (frame :: frames)) =
      ending options (goOn reader longer frames) :=
  ending_of_next? (by rw [next?, pushed])

theorem ending_taken_refused (refused : frame.push? options.mode value = none) :
    ending options (.taken (some value) reader (frame :: frames)) =
      ending options (.failed .invalidFormat (frame.outer reader) frames) :=
  ending_of_next? (by rw [next?, refused])

end Steps

/-- Where so many values are open, the machine takes an item as the scan does. -/
def Answers (options : Options) (scan : Scan (Option Value)) (frames : List Frame) : Prop :=
  ∀ reader : Reader,
    ending options (.take reader frames) = ending options (answered frames (reader.run scan))

section Elements

variable {scan : Scan (Option Value)} {reader : Reader} {rest : Octets}

theorem Answers.of_ok (answers : Answers options scan frames) {found : Option Value}
    (outcome : scan reader.rest = .ok found rest) :
    ending options (.take reader frames) =
      ending options (.taken found (reader.leaving rest.length) frames) := by
  rw [answers, Reader.run, outcome]
  rfl

theorem Answers.of_error (answers : Answers options scan frames) {error : DecodeError}
    (outcome : scan reader.rest = .error error rest) :
    ending options (.take reader frames) =
      ending options (.failed error (reader.leaving rest.length) frames) := by
  rw [answers, Reader.run, outcome]
  rfl

theorem rest_leaving_of_ok (item : ItemScan (Option Value)) {found : Option Value}
    (outcome : item.run reader.rest = .ok found rest) :
    (reader.leaving rest.length).rest = rest := by
  obtain ⟨used, split⟩ := item.forward reader.rest
  rw [outcome] at split
  exact Reader.rest_leaving split.symm

theorem Frame.outer_eq {body : Octets} {outer : Reader}
    (extent : frame.extent = .definite body outer) (inner : Reader) :
    frame.outer inner = outer := by
  rw [Frame.outer, extent]

theorem goOn_of_rest_ne_nil (nonempty : reader.rest ≠ []) :
    goOn reader frame frames = .take reader (frame :: frames) := by
  unfold goOn
  split
  · rw [if_pos (Reader.hasUnconsumedData_iff.mpr nonempty)]
  · rfl

/-- Content of definite length is read to its end and accepted as a whole, if at all. That its
elements are compared as they come makes no difference. -/
theorem ending_goOn_definite {body : Octets} {outer : Reader}
    (answers : ∀ frame, Answers options item.run (frame :: frames))
    (errors : ∀ {all rest error}, item.run all = .error error rest →
      error = .invalidFormat ∨ error = .outOfBounds)
    (extent : frame.extent = .definite body outer) (ordered : frame.IsOrdered options.mode) :
    ending options (goOn reader frame frames) =
      ending options (concluded outer frames ((elements? item reader.rest).bind
        fun later => ofElements? options.mode frame.tag body (frame.elements ++ later))) := by
  generalize content_eq : reader.rest = content
  fun_induction elements? item content generalizing reader frame with
  | case1 =>
      have finished : reader.hasUnconsumedData = false := by
        rw [← Bool.not_eq_true, Reader.hasUnconsumedData_iff]
        simpa using content_eq
      rw [Option.bind_some, List.append_nil, ordered.ofElements?_eq]
      simp only [goOn, extent, finished, Frame.outer_eq extent]
      rfl
  | case2 content nonempty value rest outcome inductionHypothesis =>
      subst content_eq
      rw [goOn_of_rest_ne_nil nonempty, (answers frame).of_ok outcome, Option.bind_map]
      cases pushed : frame.push? options.mode value with
      | none =>
          rw [ending_taken_refused pushed, Frame.outer_eq extent]
          cases elements? item rest with
          | none => rfl
          | some later =>
              simp only [Option.bind_some, Function.comp_apply,
                Frame.ofElements?_of_push?_eq_none pushed]
              rfl
      | some longer =>
          obtain ⟨rfl, longerOrdered⟩ := ordered.push?_eq pushed
          have longerExtent : (frame.adding value).extent = .definite body outer := extent
          rw [ending_taken_value pushed, inductionHypothesis longerExtent longerOrdered
            (rest_leaving_of_ok item outcome)]
          simp [Frame.adding]
  | case3 content nonempty other =>
      subst content_eq
      rw [goOn_of_rest_ne_nil nonempty]
      cases outcome : item.run reader.rest with
      | error error rest =>
          have error_eq : frame.errorOf error = .invalidFormat := by
            rcases errors outcome with rfl | rfl <;> simp [Frame.errorOf, extent]
          rw [(answers frame).of_error outcome, ending_failed, error_eq, Frame.outer_eq extent]
          rfl
      | ok found rest =>
          cases found with
          | none =>
              rw [(answers frame).of_ok outcome, ending_taken_end]
              simp only [finish, extent, Frame.outer_eq extent]
              rfl
          | some value => exact absurd outcome (other value rest)

/-- The state after a value of indefinite length, given how the scan of its elements has come
out. -/
def closed (frame : Frame) (start : Nat) (frames : List Frame) :
    Except DecodeError (List Value) × Reader → State
  | (.ok later, after) =>
      .taken (some (.constructed frame.tag (after.since start) (frame.elements ++ later))) after
        frames
  | (.error error, after) => .failed error after frames

theorem goOn_indefinite {start : Nat} (extent : frame.extent = .indefinite start) :
    goOn reader frame frames = .take reader (frame :: frames) := by
  simp only [goOn, extent]

theorem Frame.outer_eq_inner {start : Nat} (extent : frame.extent = .indefinite start)
    (inner : Reader) : frame.outer inner = inner := by
  rw [Frame.outer, extent]

theorem closed_adding {start : Nat} (value : Value)
    (result : Except DecodeError (List Value) × Reader) :
    closed (frame.adding value) start frames result =
      closed frame start frames (result.map (Except.map (value :: ·)) id) := by
  obtain ⟨outcome, after⟩ := result
  cases outcome <;> simp [closed, Frame.adding, Except.map]

theorem run_untilEnd_of_value {value : Value}
    (outcome : item.run reader.rest = .ok (some value) rest) :
    reader.run (untilEnd item) =
      ((reader.leaving rest.length).run (untilEnd item)).map (Except.map (value :: ·)) id := by
  rw [Encoding.untilEnd_eq, Reader.run_bind item.forward, Reader.run, outcome,
    ← Encoding.untilEnd_eq]
  simp only [Reader.run, Scan.map_apply]
  cases untilEnd item (reader.leaving rest.length).rest <;> rfl

/-- Elements of indefinite length are read up to their end marker with the cursor of the value. -/
theorem ending_take_indefinite {start : Nat} (ber : options.mode = .ber)
    (answers : ∀ frame, Answers options item.run (frame :: frames))
    (extent : frame.extent = .indefinite start) :
    ending options (.take reader (frame :: frames)) =
      ending options (closed frame start frames (reader.run (untilEnd item))) := by
  -- Each element leaves fewer octets.
  induction count : reader.rest.length using Nat.strong_induction_on
    generalizing reader frame with
  | h count inductionHypothesis =>
  subst count
  cases outcome : item.run reader.rest with
  | error error rest =>
      have errorOf_eq : frame.errorOf error = error := by simp [Frame.errorOf, extent]
      have run_eq : reader.run (untilEnd item) = (.error error, reader.leaving rest.length) := by
        rw [Encoding.untilEnd_eq, Reader.run_bind item.forward, Reader.run, outcome]
      rw [(answers frame).of_error outcome, ending_failed, errorOf_eq,
        Frame.outer_eq_inner extent, run_eq]
      rfl
  | ok found rest =>
      have rest_eq := rest_leaving_of_ok item outcome
      rw [(answers frame).of_ok outcome]
      cases found with
      | none =>
          rw [ending_taken_end, Reader.run, Encoding.untilEnd_of_end outcome]
          simp only [finish, extent, Frame.outer_eq_inner extent, closed, List.append_nil]
      | some value =>
          have pushed : frame.push? options.mode value = some (frame.adding value) := by
            rw [ber, Frame.push?_ber]
          have longerExtent : (frame.adding value).extent = .indefinite start := extent
          have shorter : (reader.leaving rest.length).rest.length < reader.rest.length := by
            rw [rest_eq]
            exact item.progress _ _ _ outcome
          rw [ending_taken_value pushed, goOn_indefinite longerExtent,
            inductionHypothesis _ shorter longerExtent rfl, closed_adding,
            run_untilEnd_of_value outcome]

end Elements

/-- Takes the elements of a value that has been opened. -/
def complete (mode : Mode) (item : ItemScan (Option Value)) : Opening → Scan (Option Value)
  | .item found => pure found
  | .definite tag body =>
      some <$> Scan.accept ((elements? item body).bind (ofElements? mode tag body))
  | .indefinite tag =>
      some <$> (do
        let (elements, body) ← Scan.spanned (untilEnd item)
        Scan.accept (ofElements? mode tag body elements))

theorem some_map_content_eq (identifier : Identifier) (length : Length) :
    some <$> content options.mode options.toTextOptions item identifier length =
      contentOpening options identifier length >>= complete options.mode item := by
  cases length with
  | definite count =>
      simp only [content, contentOpening, map_bind, bind_assoc]
      refine congrArg _ (funext fun body => ?_)
      split
      · split
        · rfl
        · rfl
      · rw [← bind_pure_comp, bind_assoc]
        simp [complete]
  | indefinite =>
      simp only [content, contentOpening]
      split <;> rfl

theorem valueOrEnd_eq_opening (shallow : options.isTooDeep = false) :
    valueOrEnd options.mode options.toTextOptions item =
      opening options >>= complete options.mode item := by
  simp only [valueOrEnd, opening, shallow, Bool.false_eq_true, if_false, bind_assoc,
    some_map_content_eq]
  refine congrArg _ (funext fun identifier => congrArg _ (funext fun length => ?_))
  split
  · split <;> rfl
  · rfl

theorem run_itemScan_eq_opening (options : Options) :
    (itemScan options.mode options.toTextOptions options.levels).run =
      opening options >>= complete options.mode
        (itemScan options.mode options.toTextOptions options.deeper.levels) := by
  rw [Options.levels_deeper]
  cases levels_eq : options.levels with
  | zero =>
      have deep := (Options.levels_eq_zero_iff options).mp levels_eq
      simp only [opening, deep, bind_assoc]
      rfl
  | succ levels =>
      refine valueOrEnd_eq_opening (Bool.eq_false_iff.mpr fun deep => ?_)
      rw [← Options.levels_eq_zero_iff, levels_eq] at deep
      cases deep

theorem answered_run_pure (reader : Reader) (found : Option Value) :
    answered frames (reader.run (pure found)) = .taken found reader frames :=
  congrArg (State.taken found · frames) reader.leaving_length_rest

theorem answered_run_accept (reader : Reader) (found : Option Value) :
    answered frames (reader.run (some <$> Scan.accept found)) = concluded reader frames found := by
  cases found with
  | none => exact congrArg (State.failed .invalidFormat · frames) reader.leaving_length_rest
  | some value => exact congrArg (State.taken (some value) · frames) reader.leaving_length_rest

/-- The octets from the start of a value of indefinite length are those that its scan has used. -/
theorem answered_run_complete_indefinite (reader : Reader) (tag : Tag) :
    answered frames (reader.run (complete .ber item (.indefinite tag))) =
      closed { tag, extent := .indefinite reader.pos } reader.pos frames
        (reader.run (untilEnd item)) := by
  simp only [complete, Reader.run, Scan.map_apply, Scan.bind_apply, Scan.spanned]
  cases outcome : untilEnd item reader.rest with
  | error error rest => rfl
  | ok elements rest =>
      obtain ⟨used, split⟩ := forward_untilEnd item reader.rest
      rw [outcome] at split
      have since_eq : (reader.leaving rest.length).since reader.pos = used :=
        Reader.since_leaving split.symm
      have take_eq : reader.rest.take (reader.rest.length - rest.length) = used :=
        Scan.take_used used split.symm
      simp only [ofElements?_ber, Scan.accept, Scan.pure_apply, answered, closed, since_eq, take_eq,
        List.nil_append]

/-- If the machine answers the items of the level below, it completes what it has opened. -/
theorem ending_start (item : ItemScan (Option Value)) (reader : Reader)
    (answers : (within options frames).depth ≤ Options.depthLimit →
      ∀ frame, Answers options item.run (frame :: frames))
    (errors : ∀ {all rest error}, item.run all = .error error rest →
      error = .invalidFormat ∨ error = .outOfBounds) :
    ending options (start options reader frames) =
      ending options (answered frames
        (reader.run (opening (within options frames) >>= complete options.mode item))) := by
  rw [Reader.run_bind (forward_opening _), start]
  cases opened : opening (within options frames) reader.rest with
  | error error rest =>
      simp only [Reader.run, opened]
      rfl
  | ok found rest =>
      obtain ⟨depth_le, -, mode_eq⟩ := opens_of_opening opened
      have run_eq : reader.run (opening (within options frames)) =
          (.ok found, reader.leaving rest.length) := by
        rw [Reader.run, opened]
      rw [run_eq]
      cases found with
      | item found => exact congrArg _ (answered_run_pure _ _).symm
      | definite tag body =>
          simp only
          rw [ending_goOn_definite (answers depth_le) errors rfl fun _ _ => rfl]
          exact congrArg _ (answered_run_accept _ _).symm
      | indefinite tag =>
          have ber : options.mode = .ber := by simpa using mode_eq tag rfl
          simp only
          rw [goOn_indefinite rfl, ending_take_indefinite ber (answers depth_le) rfl, ber,
            answered_run_complete_indefinite]

theorem answers_of_deeper
    (answers : (within options frames).depth ≤ Options.depthLimit → ∀ frame,
      Answers options (itemScan options.mode options.toTextOptions
        (within options frames).deeper.levels).run (frame :: frames)) :
    Answers options
      (itemScan options.mode options.toTextOptions (within options frames).levels).run frames := by
  intro reader
  have run_eq := run_itemScan_eq_opening (within options frames)
  rw [mode_within, toTextOptions_within] at run_eq
  rw [ending_take, run_eq]
  exact ending_start _ reader answers (stable_itemScan _ _ _).invalidFormat_or_outOfBounds

/-- The machine takes an item as the decoder does, however many values are open. -/
theorem answers_itemScan (options : Options) (frames : List Frame) :
    Answers options
      (itemScan options.mode options.toTextOptions (within options frames).levels).run frames := by
  induction levels_eq : (within options frames).levels generalizing frames with
  | zero =>
      rw [← levels_eq]
      refine answers_of_deeper fun depth_le => ?_
      have deep := (Options.levels_eq_zero_iff _).mp levels_eq
      rw [Options.isTooDeep, decide_eq_true_eq] at deep
      omega
  | succ levels inductionHypothesis =>
      have deeper_eq : (within options frames).deeper.levels = levels := by
        rw [Options.levels_deeper, levels_eq, Nat.add_sub_cancel]
      rw [← levels_eq]
      refine answers_of_deeper fun _ frame => ?_
      rw [deeper_eq]
      exact inductionHypothesis (frame :: frames) deeper_eq

/-- Nothing follows the answer to the outermost item. -/
theorem next?_answered (answer : Except DecodeError (Option Value) × Reader) :
    next? options (answered [] answer) = none := by
  obtain ⟨_ | _ | _, after⟩ := answer <;> rfl

/-- The course that takes an item ends with the answer of the decoder. -/
theorem getLast?_course_take (options : Options) (reader : Reader) :
    (course options (.take reader [])).getLast? = some (answered []
      (reader.run (itemScan options.mode options.toTextOptions options.levels).run)) := by
  have answers := answers_itemScan options [] reader
  rw [ending, ending] at answers
  exact answers.trans (congrArg List.getLast? (course_of_none (next?_answered _)))

theorem forward_complete (mode : Mode) (item : ItemScan (Option Value)) (found : Opening) :
    Scan.Forward (complete mode item found) := by
  cases found with
  | item found => exact Scan.forward_pure found
  | definite tag body =>
      exact Scan.forward_bind (Scan.forward_accept _) fun _ => Scan.forward_pure _
  | indefinite tag =>
      refine Scan.forward_bind ?_ fun _ => Scan.forward_pure _
      exact Scan.forward_bind (Scan.forward_spanned (forward_untilEnd item))
        fun _ => Scan.forward_accept _

theorem exists_used_of_itemScan {all rest : Octets} {found : Option Value}
    (outcome : (itemScan options.mode options.toTextOptions options.levels).run all =
      .ok found rest) : ∃ used : Octets, 2 ≤ used.length ∧ all = used ++ rest := by
  rw [run_itemScan_eq_opening, Scan.bind_eq_ok_iff] at outcome
  obtain ⟨announced, between, opened, completed⟩ := outcome
  obtain ⟨-, ⟨head, two_le, rfl⟩, -⟩ := opens_of_opening opened
  have suffix := forward_complete options.mode
    (itemScan options.mode options.toTextOptions options.deeper.levels) announced between
  rw [completed] at suffix
  obtain ⟨elements, rfl⟩ := suffix
  refine ⟨head ++ (announced.body ++ elements), ?_, by simp [Scan.left]⟩
  rw [List.length_append]
  omega

theorem pos_add_two_le {reader : Reader} {found : Option Value}
    (succeeded : (reader.run
      (itemScan options.mode options.toTextOptions options.levels).run).1 = .ok found) :
    reader.pos + 2 ≤
      (reader.run (itemScan options.mode options.toTextOptions options.levels).run).2.pos := by
  rw [Reader.run] at succeeded ⊢
  split at succeeded
  next scanned =>
    obtain ⟨used, two_le, split⟩ := exists_used_of_itemScan scanned
    simp only
    rw [Reader.pos_leaving split]
    omega
  · cases succeeded

/-- From any place of a cursor, under any rules and at any depth: taking an item moves the cursor
forward within the data, by two octets at least if there is an item. The machine gets there, in at
most as many steps as there are octets and one more. It takes at most one item for two octets, and
begins with none more than one level beyond the limit unless it starts there. -/
theorem course_progresses (options : Options) (reader : Reader) :
    let states := course options (.take reader [])
    let outcome :=
      (reader.run (itemScan options.mode options.toTextOptions options.levels).run).1
    let after := (reader.run (itemScan options.mode options.toTextOptions options.levels).run).2
    (states.head? = some (.take reader []) ∧
        (states.IsChain fun state following => next? options state = some following) ∧
        states.getLast? = some (answered [] (outcome, after)) ∧
        next? options (answered [] (outcome, after)) = none) ∧
      (after.data = reader.data ∧ reader.pos ≤ after.pos ∧ after.pos ≤ reader.data.length) ∧
      (∀ found, outcome = .ok found → reader.pos + 2 ≤ after.pos) ∧
      (options.depth ≤ Options.depthLimit → ∀ inner frames, .take inner frames ∈ states →
        (within options frames).depth ≤ Options.depthLimit + 1) ∧
      2 * states.countP State.isTaken ≤ reader.remaining ∧
      states.length ≤ reader.remaining + 2 := by
  intro states outcome after
  have after_eq : after = reader.leaving (Scan.left _).length := Reader.run_snd _
  obtain ⟨used, split⟩ :=
    (itemScan options.mode options.toTextOptions options.levels).forward reader.rest
  have pos_eq : after.pos = reader.pos + used.length := by
    rw [after_eq, Reader.pos_leaving split.symm]
  have data_eq : after.data = reader.data := by rw [after_eq]; rfl
  refine ⟨⟨head?_course _, isChain_course _, getLast?_course_take options reader,
    next?_answered _⟩, ⟨data_eq, ?_, ?_⟩, ?_, ?_, ?_, ?_⟩
  · omega
  · rw [← data_eq]
    exact after.pos_le
  · exact fun found succeeded => pos_add_two_le succeeded
  · intro shallow inner frames membership
    have open_le := length_frames_le reader _ membership
    rw [depth_within]
    rcases open_le with none_open | open_le
    · change frames = [] at none_open
      rw [none_open]
      exact Nat.le_succ_of_le shallow
    · exact open_le
  · simpa [State.credit, unread] using countP_isTaken_course_le (State.take reader [])
  · simpa [State.stepsLeft, unread] using length_course_le (State.take reader [])

/-- A sequence of indefinite length with a null value in it, one level before the limit. Each of its
octets is needed: there are two for the value, two for the end marker and two for the sequence. -/
theorem course_progresses_before_limit :
    let options : Options := { mode := .ber, depth := 1023 }
    let reader := Reader.ofOctets [0x30, 0x80, 0x05, 0x00, 0x00, 0x00]
    let answer := reader.run (Value.itemScan options.mode options.toTextOptions options.levels).run
    let states := course options (.take reader [])
    (∃ found, answer.1 = .ok found ∧ 2 ≤ answer.2.pos) ∧
      options.depth ≤ Options.depthLimit ∧
      (∀ inner frames, .take inner frames ∈ states → (within options frames).depth ≤ 1025) ∧
      states.countP State.isTaken = 3 ∧ 2 * 3 ≤ reader.remaining := by
  intro options reader answer states
  obtain ⟨-, -, moved, shallow, taken, -⟩ := course_progresses options reader
  have succeeded : answer.1 =
      .ok (some (.constructed .sequence [0x05, 0x00, 0x00, 0x00] [.generic .null []])) := by
    decide +kernel
  have count : states.countP State.isTaken = 3 := by decide +kernel
  have depth_le : options.depth ≤ Options.depthLimit := by decide
  refine ⟨⟨_, succeeded, moved _ succeeded⟩, depth_le, shallow depth_le, count, ?_⟩
  rw [← count]
  exact taken

end Asn1.Descent
