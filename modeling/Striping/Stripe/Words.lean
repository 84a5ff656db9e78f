import Striping.Layout.Words
import Striping.Stripe

/-!
# Scattering and gathering in words

The computations of `Striping.Stripe` carried out in 64-bit words. Scattering copies cell after
cell; gathering reads runs, each up to the end of its cell or of the content. A run is never empty
(`Word.run_pos`), so gathering comes to an end.

`Word.gather` leaves open where the bytes go. `Word.assemble` is the whole of it: a piece of memory
is reserved for the bytes before the first one is looked for, so a length that no piece has is a
fault, whatever the buffers hold.
-/

namespace Striping.Word

variable (g : Geometry)

/-- `Geometry.blank` in words. -/
def blank (length : Nat) : Except Error (List Bytes) :=
  (List.range g.dataBlocks).mapM fun i => do
    return List.replicate (← blockLength g length i) 0

/-- The cell of number `k`, with its place. Its last byte has an offset, too. -/
def cell (k : Nat) (bytes : Bytes) : Except Fault Cell := do
  let (block, offset) ← place g.cellSize g.dataBlocks (← mul k g.cellSize)
  let _ ← add offset bytes.length
  return { block, offset, bytes }

/-- Write the cells from number `k` on into their blocks. -/
def writePieces (k : Nat) : List Bytes → List Bytes → Except Fault (List Bytes)
  | [], blocks => .ok blocks
  | piece :: rest, blocks =>
    match cell g k piece with
    | .error fault => .error fault
    | .ok c =>
      match c.write blocks with
      | .error fault => .error fault
      | .ok blocks => writePieces (k + 1) rest blocks

/-- `Geometry.scatter` in words. -/
def scatter (bytes : Bytes) : Except Error (List Bytes) :=
  match blank g bytes.length with
  | .error e => .error e
  | .ok blocks => (writePieces g 0 (chunks g.cellSize bytes) blocks).mapError .fault

/-- `Geometry.scatterFile` in words. -/
def scatterFile (bytes : Bytes) : Except Error (List (List Bytes)) :=
  match groupCapacity g with
  | .error fault => .error (.fault fault)
  | .ok capacity => (chunks capacity bytes).mapM (scatter g)

/-- The bytes from offset `pos` of a group up to the end of the cell, or to the end of the first
`length` bytes. The byte at `pos` lies at `offset` in its block. -/
def run (length pos offset : Nat) : Except Fault Nat := do
  let left ← sub g.cellSize (← mod offset g.cellSize)
  return min left (← sub length pos)

theorem run_eq {length pos : Nat} (offset : Nat) (h : pos < length) :
    run g length pos offset = .ok (min (g.cellSize - offset % g.cellSize) (length - pos)) := by
  have hmod := Nat.mod_lt offset g.cellSize_pos
  rw [run, mod_eq_ok g.cellSize_pos, sub_eq_ok (Nat.le_of_lt h)]
  show (sub g.cellSize (offset % g.cellSize) >>= fun left => _) = _
  rw [sub_eq_ok (Nat.le_of_lt hmod)]
  rfl

theorem run_pos {length pos offset n : Nat} (hpos : pos < length)
    (h : run g length pos offset = .ok n) : 0 < n := by
  have hmod := Nat.mod_lt offset g.cellSize_pos
  rw [run_eq g offset hpos, Except.ok.injEq] at h
  omega

/-- The run of `n` bytes at `offset` of a data block. -/
def slice (b : Buffers) (block offset n : Nat) : Except Error Bytes :=
  match b.data[block]? with
  | some (some buffer) =>
    match add offset n with
    | .error fault => .error (.fault fault)
    | .ok stop =>
      if stop ≤ buffer.length then .ok ((buffer.drop offset).take n)
      else .error (.length stop buffer.length)
  | _ => .error (.layout (.missingBlock b.group block))

/-- The bytes of a group from offset `pos` on, of which `length` are read in all. -/
def gatherFrom (b : Buffers) (length pos : Nat) : Except Error Bytes :=
  if hpos : pos < length then
    match place g.cellSize g.dataBlocks pos with
    | .error fault => .error (.fault fault)
    | .ok (block, offset) =>
      match h : run g length pos offset with
      | .error fault => .error (.fault fault)
      | .ok n =>
        have := run_pos g hpos h
        match slice b block offset n with
        | .error e => .error e
        | .ok piece =>
          match gatherFrom b length (pos + n) with
          | .error e => .error e
          | .ok rest => .ok (piece ++ rest)
  else .ok []
termination_by length - pos

/-- `Geometry.gather` in words, memory left aside. -/
def gather (b : Buffers) (length : Nat) : Except Error Bytes :=
  match groupCapacity g with
  | .error fault => .error (.fault fault)
  | .ok capacity =>
    if capacity < length then .error (.layout (.groupTooLong length capacity))
    else gatherFrom g b length 0

/-- The first `length` bytes of a group, gathered into memory that is reserved for them. -/
def assemble (b : Buffers) (length : Nat) : Except Error Bytes :=
  match groupCapacity g with
  | .error fault => .error (.fault fault)
  | .ok capacity =>
    if capacity < length then .error (.layout (.groupTooLong length capacity))
    else
      match reserve length with
      | .error fault => .error (.fault fault)
      | .ok () => gatherFrom g b length 0

end Striping.Word
