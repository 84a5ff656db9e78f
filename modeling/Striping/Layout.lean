import Striping.Geometry

/-!
# The layout of a striped file

Within a group, cells go round-robin over the data blocks:

```text
           block 0   block 1   ...  block D-1
stripe 0   cell 0    cell 1    ...  cell D-1
stripe 1   cell D    cell D+1  ...  cell 2D-1
```

* `place` sends an offset in a group to a block and an offset in it, `unplace` goes back.
* `Geometry.locate` and `Geometry.fileOffset` do the same for positions of the whole file; the
  second checks its coordinates.
* `Geometry.groupCount` and `Geometry.groupLength` cut a file into groups,
  `Geometry.share` and `Geometry.blockLength` a group into blocks.

Everything here is exact arithmetic on natural numbers; `Striping.Layout.Words` carries the same
computations out in words.
-/

namespace Striping

/-- The data block that holds the byte at offset `pos` of a group, and the byte's offset in it. -/
def place (cellSize dataBlocks pos : Nat) : Nat × Nat :=
  let stripe := pos / (cellSize * dataBlocks)
  let inStripe := pos % (cellSize * dataBlocks)
  (inStripe / cellSize, stripe * cellSize + inStripe % cellSize)

/-- The offset in the group of the byte at `offset` in data block `block`. -/
def unplace (cellSize dataBlocks block offset : Nat) : Nat :=
  offset / cellSize * cellSize * dataBlocks + block * cellSize + offset % cellSize

/-- The place of one byte of a file. -/
structure Coordinate where
  /-- The group's index in the file. -/
  group : Nat
  /-- The data block's index in the group. -/
  block : Nat
  /-- The cell's index in the block. -/
  stripe : Nat
  /-- The byte's offset in the cell. -/
  inCell : Nat
  /-- The byte's offset in the block. -/
  inBlock : Nat
  deriving DecidableEq, Repr

namespace Geometry

variable (g : Geometry)

/-- An index of a block of the group is below the width. -/
def checkIndex (index : Nat) : Except Error Unit :=
  if index < g.width then .ok () else .error (.blockIndex index g.width)

/-- What the block at `index` holds: data blocks come first. -/
def role (index : Nat) : Except Error Role :=
  match g.checkIndex index with
  | .error e => .error e
  | .ok () => .ok (if index < g.dataBlocks then .data else .parity)

/-- The place of the byte at a file position. -/
def locate (pos : Nat) : Coordinate :=
  let (block, inBlock) := place g.cellSize g.dataBlocks (pos % g.groupCapacity)
  { group := pos / g.groupCapacity
    block
    stripe := inBlock / g.cellSize
    inCell := inBlock % g.cellSize
    inBlock }

/-- The file position of the byte at `offset` in data block `block` of a group. Parity blocks have
no positions; the position has to be a word. -/
def fileOffset (group block offset : Nat) : Except Error Nat :=
  if g.dataBlocks ≤ block then .error (.blockIndex block g.dataBlocks)
  else if g.blockCapacity ≤ offset then .error (.blockOffset offset g.blockCapacity)
  else
    let pos := group * g.groupCapacity + unplace g.cellSize g.dataBlocks block offset
    if pos < Word.size then .ok pos else .error (.layout (.unaddressable group))

/-- The groups of a file of `length` bytes: the last one may be short. -/
def groupCount (length : Nat) : Nat :=
  length / g.groupCapacity + if length % g.groupCapacity = 0 then 0 else 1

/-- The bytes that group `group` holds of a file of `length` bytes. -/
def groupLength (length group : Nat) : Nat :=
  min (length - group * g.groupCapacity) g.groupCapacity

/-- The bytes that a stripe of `length` bytes puts into the block at `index`. A parity cell is as
long as the first data cell. -/
def cellShare (length index : Nat) : Nat :=
  min (if index < g.dataBlocks then length - index * g.cellSize else length) g.cellSize

/-- The bytes that a group of `length` bytes puts into the block at `index`. Where the last stripe
is full, all blocks are equally long. -/
def share (length index : Nat) : Nat :=
  let last := length % g.stripeCapacity
  if last = 0 then length / g.dataBlocks
  else (length - 1) / g.stripeCapacity * g.cellSize + g.cellShare last index

/-- The length of the block at `index` of a group of `length` bytes, both of which have to fit the
layout. -/
def blockLength (length index : Nat) : Except Error Nat :=
  match g.checkIndex index with
  | .error e => .error e
  | .ok () =>
    if g.groupCapacity < length then .error (.layout (.groupTooLong length g.groupCapacity))
    else .ok (g.share length index)

end Geometry

end Striping
