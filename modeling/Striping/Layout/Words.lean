import Striping.Layout

/-!
# The layout in words

The computations of `Striping.Layout` carried out in 64-bit words. A step that overflows or divides
by zero is a `Fault`; checked and saturating steps are those of the exact versions. The two maps
`Word.place` and `Word.unplace` take any words, so they do fault; all others take a `Geometry`, whose
bounds keep every step in range.
-/

namespace Striping.Word

/-- `Striping.place` in words. -/
def place (cellSize dataBlocks pos : Nat) : Except Fault (Nat × Nat) := do
  let stripeSize ← mul cellSize dataBlocks
  let stripe ← div pos stripeSize
  let inStripe ← mod pos stripeSize
  let block ← div inStripe cellSize
  let inCell ← mod inStripe cellSize
  let offset ← add (← mul stripe cellSize) inCell
  return (block, offset)

/-- `Striping.unplace` in words. -/
def unplace (cellSize dataBlocks block offset : Nat) : Except Fault Nat := do
  let stripe ← div offset cellSize
  let inCell ← mod offset cellSize
  let stripeStart ← mul (← mul stripe cellSize) dataBlocks
  let cellStart ← mul block cellSize
  add (← add stripeStart cellStart) inCell

variable (g : Geometry)

/-- `Geometry.blockCapacity` in words. -/
def blockCapacity : Except Fault Nat :=
  mul g.cellSize g.stripesPerBlock

/-- `Geometry.stripeCapacity` in words. -/
def stripeCapacity : Except Fault Nat :=
  mul g.cellSize g.dataBlocks

/-- `Geometry.groupCapacity` in words. -/
def groupCapacity : Except Fault Nat := do
  mul (← blockCapacity g) g.dataBlocks

/-- `Geometry.locate` in words. -/
def locate (pos : Nat) : Except Fault Coordinate := do
  let capacity ← groupCapacity g
  let group ← div pos capacity
  let (block, inBlock) ← place g.cellSize g.dataBlocks (← mod pos capacity)
  let stripe ← div inBlock g.cellSize
  let inCell ← mod inBlock g.cellSize
  return { group, block, stripe, inCell, inBlock }

/-- `Geometry.fileOffset` in words: the last product and sum are checked. -/
def fileOffset (group block offset : Nat) : Except Error Nat := do
  if g.dataBlocks ≤ block then
    throw (.blockIndex block g.dataBlocks)
  let blockSize ← (blockCapacity g).mapError .fault
  if blockSize ≤ offset then
    throw (.blockOffset offset blockSize)
  let inGroup ← (unplace g.cellSize g.dataBlocks block offset).mapError .fault
  let capacity ← (groupCapacity g).mapError .fault
  match mul group capacity with
  | .error _ => throw (.layout (.unaddressable group))
  | .ok base =>
    match add base inGroup with
    | .error _ => throw (.layout (.unaddressable group))
    | .ok pos => return pos

/-- `Geometry.groupCount` in words. -/
def groupCount (length : Nat) : Except Fault Nat := do
  let capacity ← groupCapacity g
  let full ← div length capacity
  if (← mod length capacity) = 0 then return full
  add full 1

/-- `Geometry.groupLength` in words: the group's start saturates at the last word. -/
def groupLength (length group : Nat) : Except Fault Nat := do
  let capacity ← groupCapacity g
  let start := min (group * capacity) (size - 1)
  if length ≤ start then return 0
  return min (← sub length start) capacity

/-- `Geometry.blockLength` in words: a cell's length is a saturating difference. -/
def blockLength (length index : Nat) : Except Error Nat := do
  g.checkIndex index
  let capacity ← (groupCapacity g).mapError .fault
  if capacity < length then
    throw (.layout (.groupTooLong length capacity))
  let stripeSize ← (stripeCapacity g).mapError .fault
  let last ← (mod length stripeSize).mapError .fault
  if last = 0 then
    return ← (div length g.dataBlocks).mapError .fault
  let full ← (div (← (sub length 1).mapError .fault) stripeSize).mapError .fault
  let start ← (mul full g.cellSize).mapError .fault
  let rest ←
    if index < g.dataBlocks then
      (fun skipped => last - skipped) <$> (mul index g.cellSize).mapError .fault
    else pure last
  (add start (min rest g.cellSize)).mapError .fault

end Striping.Word
