import Striping.Buffers
import Striping.Layout

/-!
# Scattering and gathering

`Geometry.scatter` writes the bytes of one group into its data blocks, cell by cell;
`Geometry.gather` reads them back in file order. A write past the end of a block would be a `Fault`.
Parity blocks play no part: computing them is left to others.
-/

namespace Striping

/-- The list cut into pieces of `n` elements, the last of which may be shorter. -/
def chunks {α : Type} (n : Nat) (xs : List α) : List (List α) :=
  go xs.length xs
where
  /-- At most `fuel` pieces. -/
  go : Nat → List α → List (List α)
  | 0, _ => []
  | _, [] => []
  | fuel + 1, x :: xs => (x :: xs).take n :: go fuel ((x :: xs).drop n)

/-- Replace the bytes from `offset` on by `piece`, which has to fit. -/
def overwrite (buffer : Bytes) (offset : Nat) (piece : Bytes) : Except Fault Bytes :=
  if offset + piece.length ≤ buffer.length then
    .ok (buffer.take offset ++ piece ++ buffer.drop (offset + piece.length))
  else .error .outOfBounds

/-- One cell's bytes, and where they belong. -/
structure Cell where
  /-- The data block's index. -/
  block : Nat
  /-- The offset in the block. -/
  offset : Nat
  /-- The content; only the last cell of a group may be short. -/
  bytes : Bytes
  deriving DecidableEq, Repr

/-- Write a cell into its block. -/
def Cell.write (c : Cell) (blocks : List Bytes) : Except Fault (List Bytes) :=
  match blocks[c.block]? with
  | none => .error .outOfBounds
  | some buffer =>
    match overwrite buffer c.offset c.bytes with
    | .error fault => .error fault
    | .ok buffer => .ok (blocks.set c.block buffer)

/-- Write cells into their blocks, from left to right. -/
def writeCells : List Cell → List Bytes → Except Fault (List Bytes)
  | [], blocks => .ok blocks
  | c :: rest, blocks =>
    match c.write blocks with
    | .error fault => .error fault
    | .ok blocks => writeCells rest blocks

namespace Geometry

variable (g : Geometry)

/-- The cells of a group's bytes, in file order. -/
def cells (bytes : Bytes) : List Cell :=
  (chunks g.cellSize bytes).zipIdx.map fun (piece, k) =>
    let (block, offset) := place g.cellSize g.dataBlocks (k * g.cellSize)
    { block, offset, bytes := piece }

/-- The data blocks of a group of `length` bytes, filled with zeros. -/
def blank (length : Nat) : List Bytes :=
  (List.range g.dataBlocks).map fun i => List.replicate (g.share length i) 0

/-- The data blocks of a group with this content. -/
def scatter (bytes : Bytes) : Except Error (List Bytes) :=
  if g.groupCapacity < bytes.length then
    .error (.layout (.groupTooLong bytes.length g.groupCapacity))
  else (writeCells (g.cells bytes) (g.blank bytes.length)).mapError .fault

/-- The data blocks of each group of a file with this content. -/
def scatterFile (bytes : Bytes) : Except Error (List (List Bytes)) :=
  (chunks g.groupCapacity bytes).mapM g.scatter

/-- The bytes of the `k`-th cell of a group of `length` bytes, read from its block. -/
def gatherCell (b : Buffers) (length k : Nat) : Except Error Bytes :=
  let pos := k * g.cellSize
  let (block, offset) := place g.cellSize g.dataBlocks pos
  let run := min g.cellSize (length - pos)
  match b.data[block]? with
  | some (some buffer) =>
    if offset + run ≤ buffer.length then .ok ((buffer.drop offset).take run)
    else .error (.length (offset + run) buffer.length)
  | _ => .error (.layout (.missingBlock b.group block))

/-- The cells that `length` bytes reach into. -/
def cellCount (length : Nat) : Nat :=
  length / g.cellSize + if length % g.cellSize = 0 then 0 else 1

/-- The first `length` bytes of a group, in file order. Where they are kept is left aside:
`Word.assemble` reserves memory for them. -/
def gather (b : Buffers) (length : Nat) : Except Error Bytes :=
  if g.groupCapacity < length then
    .error (.layout (.groupTooLong length g.groupCapacity))
  else
    match (List.range (g.cellCount length)).mapM (g.gatherCell b length) with
    | .error e => .error e
    | .ok pieces => .ok pieces.flatten

end Geometry

end Striping
