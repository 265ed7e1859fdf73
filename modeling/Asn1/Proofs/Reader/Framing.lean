import Asn1.Proofs.Reader.Words

/-!
# Fields behind their lengths

Fields that are written behind their lengths, one after another, are read back by calls of the same
widths, and reading ends where further octets start.
-/

namespace Asn1

/-- A number in so many octets, most significant octet first. -/
def Octets.padded : Nat → Nat → Octets
  | 0, _ => []
  | width + 1, number => padded width (number / 256) ++ [UInt8.ofNat number]

def ByteOrder.octets : ByteOrder → Nat → Nat → Octets
  | .big, width, number => Octets.padded width number
  | .little, width, number => (Octets.padded width number).reverse

theorem Octets.length_padded (width number : Nat) : (padded width number).length = width := by
  induction width generalizing number with
  | zero => rfl
  | succ width inductionHypothesis =>
      rw [padded, List.length_append, inductionHypothesis, List.length_singleton]

theorem Octets.toNat_padded {width number : Nat} (fits : number < 256 ^ width) :
    toNat (padded width number) = number := by
  induction width generalizing number with
  | zero =>
      rw [Nat.pow_zero, Nat.lt_one_iff] at fits
      rw [fits]
      rfl
  | succ width inductionHypothesis =>
      rw [Nat.pow_succ] at fits
      rw [padded, toNat_concat, inductionHypothesis (by omega), UInt8.toNat_ofNat']
      omega

theorem ByteOrder.length_octets (order : ByteOrder) (width number : Nat) :
    (order.octets width number).length = width := by
  cases order with
  | big => exact Octets.length_padded width number
  | little => exact List.length_reverse.trans (Octets.length_padded width number)

theorem ByteOrder.value_octets (order : ByteOrder) {width number : Nat}
    (fits : number < 256 ^ width) : order.value (order.octets width number) = number := by
  rw [← toNat_eq_value]
  cases order with
  | big => exact Octets.toNat_padded fits
  | little => rw [toNat, octets, List.reverse_reverse, Octets.toNat_padded fits]

namespace Reader

/-- Content with the width of its length, and the bounds that are set for it if there are any. -/
structure Frame where
  width : Nat
  isWidth : width ∈ prefixWidths
  bounds? : Option Bounds
  content : Octets
  fits : content.length < 256 ^ width
  admitted : ∀ bounds ∈ bounds?, bounds.Admit content.length

namespace Frame

def written (order : ByteOrder) (frame : Frame) : Octets :=
  order.octets frame.width frame.content.length ++ frame.content

def call (frame : Frame) : Call := .field frame.width frame.isWidth frame.bounds?

def result (frame : Frame) : Except DecodeError Answer := .ok (.octets frame.content)

end Frame

variable {order : ByteOrder} {data used rest : Octets} {pos : Nat}

theorem between_of_drop (split : data.drop pos = used ++ rest) :
    data.between pos (pos + used.length) = used := by
  rw [Octets.between, List.drop_take, split, Nat.add_sub_cancel_left, List.take_left]

theorem drop_of_drop (split : data.drop pos = used ++ rest) :
    data.drop (pos + used.length) = rest := by
  rw [← List.drop_drop, split, List.drop_left]

theorem le_length_of_drop (within : pos ≤ data.length) (split : data.drop pos = used ++ rest) :
    pos + used.length ≤ data.length := by
  have length_eq := congrArg List.length split
  rw [List.length_drop, List.length_append] at length_eq
  omega

theorem value_between_of_drop {width number : Nat} (fits : number < 256 ^ width)
    (split : data.drop pos = order.octets width number ++ rest) :
    order.value (data.between pos (pos + width)) = number := by
  have front := between_of_drop split
  rw [order.length_octets] at front
  rw [front, order.value_octets fits]

theorem Frame.gives (frame : Frame) (within : pos ≤ data.length)
    (split : data.drop pos = frame.written order ++ rest) :
    Gives order data pos frame.call frame.result (pos + (frame.written order).length) := by
  rw [written, List.append_assoc] at split
  have content := drop_of_drop split
  have value_eq := value_between_of_drop frame.fits split
  have stop_le := le_length_of_drop (le_length_of_drop within split) content
  have front := between_of_drop content
  rw [order.length_octets] at front stop_le
  have gives : Gives order data pos frame.call
      (.ok (.octets (data.between (pos + frame.width)
        (pos + frame.width + frame.content.length))))
      (pos + frame.width + frame.content.length) :=
    .field rfl (congrArg (pos + frame.width + ·) value_eq) stop_le (value_eq ▸ frame.admitted)
  rw [front] at gives
  rwa [written, List.length_append, order.length_octets, ← Nat.add_assoc]

theorem gives_excluded {width length : Nat} {isWidth : width ∈ prefixWidths} {bounds : Bounds}
    (within : pos ≤ data.length) (fits : length < 256 ^ width) (excluded : ¬ bounds.Admit length)
    (split : data.drop pos = order.octets width length ++ rest) :
    Gives order data pos (.field width isWidth (some bounds)) (.error .invalidFormat)
      (pos + width) := by
  have start_le := le_length_of_drop within split
  rw [order.length_octets] at start_le
  exact .excluded rfl start_le ((value_between_of_drop fits split).symm ▸ excluded)

theorem runs_frames (frames : List Frame) (within : pos ≤ data.length)
    (split : data.drop pos = frames.flatMap (Frame.written order) ++ rest) :
    Runs order data pos (frames.map Frame.call) (frames.map Frame.result)
      (pos + (frames.flatMap (Frame.written order)).length) := by
  induction frames generalizing pos with
  | nil => exact .nil
  | cons frame frames inductionHypothesis =>
      rw [List.flatMap_cons, List.append_assoc] at split
      have later := inductionHypothesis (le_length_of_drop within split) (drop_of_drop split)
      rw [List.flatMap_cons, List.length_append, ← Nat.add_assoc]
      exact .cons (frame.gives within split) later

/-- Fields behind their lengths are read back in order, whatever stands behind the last of them, and
the cursor stops in front of that. If the length of a field is excluded by its bounds the format is
found to be broken, whether or not its content follows. With positions in words the same is read. -/
theorem answers_frames (order : ByteOrder) (frames : List Frame) (further : Octets) :
    let written := frames.flatMap (Frame.written order)
    let reader := after order (ofOctets (written ++ further)) (frames.map Frame.call)
    answers order (ofOctets (written ++ further)) (frames.map Frame.call) =
      frames.map Frame.result ∧
    reader.pos = written.length ∧
    reader.rest = further ∧
    (∀ width isWidth bounds length rest, length < 256 ^ width → ¬ Bounds.Admit bounds length →
      further = order.octets width length ++ rest →
        (reader.answer order (.field width isWidth (some bounds))).1 = .error .invalidFormat) ∧
    ((written ++ further).length < 2 ^ 64 →
      Words.answers order (written ++ further) (frames.map Frame.call) 0 =
        some (frames.map Frame.result, Words.word written.length)) := by
  intro written reader
  have runs : Runs order (written ++ further) 0 (frames.map Frame.call)
      (frames.map Frame.result) (0 + written.length) := runs_frames frames (Nat.zero_le _) rfl
  obtain ⟨answered, stopped⟩ := (ofOctets (written ++ further)).runs_iff.mp runs
  have data_eq : reader.data = written ++ further := data_after _ _ _
  have pos_eq : reader.pos = written.length := stopped.trans (Nat.zero_add _)
  have rest_eq : reader.rest = further := by
    rw [rest, data_eq, pos_eq, List.drop_left]
  refine ⟨answered, pos_eq, rest_eq, ?excluded, ?inWords⟩
  case excluded =>
    intro width isWidth bounds length others fits excluded split
    exact (gives_excluded reader.pos_le fits excluded (rest_eq.trans split)).answer_eq.1
  case inWords =>
    intro small
    rw [← pos_eq, ← answered]
    exact Words.answers_eq (ofOctets (written ++ further)) small order _

/-- Two fields, of which the second has a length of two octets and is bounded, and a third length
that is too small. -/
theorem answers_frames_bounded :
    let frames : List Frame :=
      [⟨1, by decide, none, [0xaa, 0xbb], by decide, by decide⟩,
        ⟨2, by decide, some ⟨2, 4⟩, [0x11, 0x22, 0x33], by decide, by decide⟩]
    let data : Octets := [0x02, 0xaa, 0xbb, 0x03, 0x00, 0x11, 0x22, 0x33, 0x01, 0x00, 0x00, 0xab]
    1 < 256 ^ 3 ∧ ¬ Bounds.Admit ⟨2, 4⟩ 1 ∧
      [0x01, 0x00, 0x00, 0xab] = ByteOrder.little.octets 3 1 ++ [0xab] ∧
      ((after .little (ofOctets data) (frames.map Frame.call)).answer .little
        (.field 3 (by decide) (some ⟨2, 4⟩))).1 = .error .invalidFormat ∧
      data.length < 2 ^ 64 ∧
      Words.answers .little data (frames.map Frame.call) 0 =
        some ([.ok (.octets [0xaa, 0xbb]), .ok (.octets [0x11, 0x22, 0x33])], 8) := by
  intro frames data
  have fits : 1 < 256 ^ 3 := by decide
  have excluded : ¬ Bounds.Admit ⟨2, 4⟩ 1 := by decide
  have split : [0x01, 0x00, 0x00, 0xab] = ByteOrder.little.octets 3 1 ++ [0xab] := by decide
  have few : data.length < 2 ^ 64 := by decide
  have ⟨_, _, _, isExcluded, inWords⟩ := answers_frames .little frames [0x01, 0x00, 0x00, 0xab]
  exact ⟨fits, excluded, split, isExcluded 3 _ _ _ _ fits excluded split, few, inWords few⟩

end Reader

end Asn1
