import Striping.Buffers
import Striping.Layout
import Striping.Pattern

/-!
# Auditing retrieved content

An `Expectation` says what a file should hold: the bytes of a pattern up to the written length, and
zeros from there on. Content is audited in two ways.

* `Expectation.checkGroup`, `checkFile` and `checkStream` stop at the first byte that differs, and
  otherwise report what they compared.
* `Expectation.groupMismatches` and `fileMismatches` list every byte that differs.

Parity blocks are not looked at.
-/

namespace Striping

/-- What a successful audit compared. -/
structure Report where
  /-- The groups. -/
  groups : Nat
  /-- The data blocks that were present and not empty. -/
  blocks : Nat
  /-- The bytes. -/
  bytes : Nat
  deriving DecidableEq, Repr

namespace Report

/-- Nothing was compared. -/
def zero : Report := ⟨0, 0, 0⟩

/-- What two audits compared together. -/
def add (r s : Report) : Report := ⟨r.groups + s.groups, r.blocks + s.blocks, r.bytes + s.bytes⟩

instance : Zero Report := ⟨zero⟩

instance : Add Report := ⟨add⟩

end Report

/-- What a file should hold. -/
structure Expectation where
  /-- The file's layout. -/
  geometry : Geometry
  /-- The pattern of its bytes. -/
  pattern : Pattern
  /-- The written bytes; what lies behind them is zero. -/
  length : Nat
  deriving DecidableEq, Repr

namespace Expectation

variable (e : Expectation)

/-- The byte that belongs at a file position. -/
def byteAt (pos : Nat) : UInt8 :=
  if e.length ≤ pos then 0 else e.pattern.byteAt pos

/-- Compare the byte at `offset` of data block `block`, unless its position is not a word. -/
def inspect (group block offset : Nat) (actual : UInt8) : Except Error (Option Mismatch) :=
  let g := e.geometry
  let position := group * g.groupCapacity + unplace g.cellSize g.dataBlocks block offset
  if Word.size ≤ position then .error (.layout (.unaddressable group))
  else if e.byteAt position = actual then .ok none
  else
    .ok (some {
      group
      stripe := offset / g.cellSize
      block
      inCell := offset % g.cellSize
      inBlock := offset
      position
      expected := e.byteAt position
      actual })

/-- A group has at most the data blocks of the layout, and its first byte has a position. -/
def checkShape (b : Buffers) : Except Error Unit :=
  let g := e.geometry
  if g.dataBlocks < b.data.length then .error (.blockIndex (b.data.length - 1) g.dataBlocks)
  else if Word.size ≤ b.group * g.groupCapacity then .error (.layout (.unaddressable b.group))
  else .ok ()

/-- A block has at most the cells of the layout. -/
def checkLength (content : Bytes) : Except Error Unit :=
  let capacity := e.geometry.blockCapacity
  if capacity < content.length then .error (.blockOffset (content.length - 1) capacity) else .ok ()

/-! ## Stopping at the first mismatch -/

/-- Compare the bytes of a data block from `offset` on. -/
def checkBytes (group block : Nat) : Nat → Bytes → Except Error Unit
  | _, [] => .ok ()
  | offset, actual :: rest =>
    match e.inspect group block offset actual with
    | .error err => .error err
    | .ok (some m) => .error (.mismatch m)
    | .ok none => checkBytes group block (offset + 1) rest

/-- Compare the data blocks of a group from index `block` on. -/
def checkBlocks (group : Nat) : Nat → List (Option Bytes) → Except Error Report
  | _, [] => .ok 0
  | block, none :: rest => checkBlocks group (block + 1) rest
  | block, some content :: rest =>
    match e.checkLength content with
    | .error err => .error err
    | .ok () =>
      match e.checkBytes group block 0 content with
      | .error err => .error err
      | .ok () =>
        match checkBlocks group (block + 1) rest with
        | .error err => .error err
        | .ok report => .ok (⟨0, if content.isEmpty then 0 else 1, content.length⟩ + report)

/-- Compare one group. -/
def checkGroup (b : Buffers) : Except Error Report :=
  match e.checkShape b with
  | .error err => .error err
  | .ok () =>
    match e.checkBlocks b.group 0 b.data with
    | .error err => .error err
    | .ok report => .ok (⟨1, 0, 0⟩ + report)

/-- The failure of the group with the smallest index; of equal indices, the first in the list. -/
def firstFailure (groups : List Buffers) : Option Error :=
  let failures := groups.filterMap fun b =>
    match e.checkGroup b with
    | .error err => some (b.group, err)
    | .ok _ => none
  match failures with
  | [] => none
  | f :: rest => some (rest.foldl (fun a b => if b.1 < a.1 then b else a) f).2

/-- Compare the groups of a file whose length is reported as `reported`. -/
def checkFile (reported : Nat) (groups : List Buffers) : Except Error Report :=
  if reported ≠ e.length then .error (.length e.length reported)
  else
    match e.firstFailure groups with
    | some err => .error err
    | none => .ok (groups.map fun b => (e.checkGroup b).toOption.getD 0).sum

/-- Compare content that was read back as one stream. -/
def checkStream (content : Bytes) : Except Error Unit :=
  if content.length ≠ e.length then .error (.length e.length content.length)
  else
    match content.zipIdx.find? fun (actual, pos) => actual ≠ e.pattern.byteAt pos with
    | none => .ok ()
    | some (actual, position) =>
      let c := e.geometry.locate position
      .error (.mismatch {
        group := c.group
        stripe := c.stripe
        block := c.block
        inCell := c.inCell
        inBlock := c.inBlock
        position
        expected := e.pattern.byteAt position
        actual })

/-! ## Listing all mismatches -/

/-- The mismatches of one data block, in order of the offset. -/
def blockMismatches (group block : Nat) (content : Bytes) : Except Error (List Mismatch) :=
  match e.checkLength content with
  | .error err => .error err
  | .ok () =>
    match content.zipIdx.mapM fun (actual, offset) => e.inspect group block offset actual with
    | .error err => .error err
    | .ok found => .ok (found.filterMap id)

/-- The mismatches of one slot: an empty slot has none. -/
def slotMismatches (group block : Nat) : Option Bytes → Except Error (List Mismatch)
  | none => .ok []
  | some content => e.blockMismatches group block content

/-- The mismatches of one group, in order of the block and the offset. -/
def groupMismatches (b : Buffers) : Except Error (List Mismatch) :=
  match e.checkShape b with
  | .error err => .error err
  | .ok () =>
    match b.data.zipIdx.mapM fun (slot, block) => e.slotMismatches b.group block slot with
    | .error err => .error err
    | .ok found => .ok found.flatten

/-- The order of mismatches in a list: by group, block and offset. -/
def before (m n : Mismatch) : Bool :=
  m.group < n.group ||
    (m.group == n.group && (m.block < n.block || (m.block == n.block && m.inBlock ≤ n.inBlock)))

/-- The mismatches of a file. -/
def fileMismatches (groups : List Buffers) : Except Error (List Mismatch) :=
  match groups.mapM e.groupMismatches with
  | .error err => .error err
  | .ok found => .ok (found.flatten.mergeSort before)

end Expectation

end Striping
