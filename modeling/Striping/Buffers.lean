import Striping.Geometry

/-!
# Buffers of a group

The blocks retrieved for one group, with a slot for each data and each parity block. A block that
was not retrieved leaves its slot empty.
-/

namespace Striping

/-- The retrieved blocks of one group. -/
structure Buffers where
  /-- The group's index in the file. -/
  group : Nat
  /-- The data blocks, by index. -/
  data : List (Option Bytes)
  /-- The parity blocks, by index less the number of data blocks. -/
  parity : List (Option Bytes)
  deriving DecidableEq, Repr

namespace Buffers

/-- Empty slots for every block of a group. -/
def empty (g : Geometry) (group : Nat) : Buffers where
  group
  data := List.replicate g.dataBlocks none
  parity := List.replicate g.parityBlocks none

/-- Full slots for these data blocks, none for parity. -/
def ofData (group : Nat) (blocks : List Bytes) : Buffers where
  group
  data := blocks.map some
  parity := []

/-- Fill the slot of the block at `index`, data slots counting first. -/
def insert (b : Buffers) (index : Nat) (content : Bytes) : Except Error Buffers :=
  if index < b.data.length then
    .ok { b with data := b.data.set index (some content) }
  else if index < b.data.length + b.parity.length then
    .ok { b with parity := b.parity.set (index - b.data.length) (some content) }
  else .error (.blockIndex index (b.data.length + b.parity.length))

/-- Fill slots from left to right. -/
def insertAll (b : Buffers) : List (Nat × Bytes) → Except Error Buffers
  | [] => .ok b
  | (index, content) :: rest =>
    match b.insert index content with
    | .error e => .error e
    | .ok b => b.insertAll rest

/-- The bytes in the data slots. -/
def dataLength (b : Buffers) : Nat := (b.data.filterMap id).flatten.length

end Buffers

end Striping
