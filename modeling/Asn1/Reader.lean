import Asn1.Scan

/-!
A cursor over octets. A scan moves it forward over what it takes, never past the end.
-/

namespace Asn1

structure Reader where
  data : Octets
  /-- How many of them have been read. -/
  pos : Nat
  pos_le : pos ≤ data.length

namespace Reader

def ofOctets (data : Octets) : Reader :=
  { data, pos := 0, pos_le := Nat.zero_le _ }

def rest (reader : Reader) : Octets := reader.data.drop reader.pos

def remaining (reader : Reader) : Nat := reader.data.length - reader.pos

def hasUnconsumedData (reader : Reader) : Bool := reader.pos < reader.data.length

/-- The octets read since the cursor was at `start`; none if it has not been so far. -/
def since (reader : Reader) (start : Nat) : Octets :=
  (reader.data.take reader.pos).drop (min start reader.pos)

def leaving (reader : Reader) (count : Nat) : Reader :=
  { data := reader.data, pos := reader.data.length - count, pos_le := Nat.sub_le _ _ }

def run {α : Type} (reader : Reader) (scan : Scan α) : Except DecodeError α × Reader :=
  match scan reader.rest with
  | .ok result rest => (.ok result, reader.leaving rest.length)
  | .error error rest => (.error error, reader.leaving rest.length)

@[simp]
theorem rest_ofOctets (data : Octets) : (ofOctets data).rest = data := rfl

@[simp]
theorem length_rest (reader : Reader) : reader.rest.length = reader.remaining := by
  simp [rest, remaining]

end Reader

end Asn1
