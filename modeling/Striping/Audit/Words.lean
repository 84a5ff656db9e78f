import Striping.Audit
import Striping.Layout.Words

/-!
# Auditing in words

One pass over the data blocks of a group, carried out in 64-bit words, that counts what it compares
and keeps the mismatches. It stops at the first mismatch or goes on to the end: with
`Word.checkGroup` and `Word.groupMismatches` it serves both ways of auditing.
-/

namespace Striping.Word

/-- What a pass has counted and found so far. -/
structure Scan where
  /-- The counts. -/
  report : Report
  /-- The mismatches, in the order in which they were found. -/
  found : List Mismatch
  deriving DecidableEq, Repr

/-- Whether a pass that lists `all` mismatches or only the first has nothing left to do. -/
def Scan.isDone (s : Scan) (all : Bool) : Bool := !all && !s.found.isEmpty

variable (e : Expectation)

/-- The file position at which a group starts. -/
def groupStart (group : Nat) : Except Error Nat :=
  match groupCapacity e.geometry with
  | .error fault => .error (.fault fault)
  | .ok capacity =>
    match mul group capacity with
    | .error _ => .error (.layout (.unaddressable group))
    | .ok start => .ok start

/-- The file position of a byte of the group that starts at `start`. -/
def position (group start block offset : Nat) : Except Error Nat :=
  match unplace e.geometry.cellSize e.geometry.dataBlocks block offset with
  | .error fault => .error (.fault fault)
  | .ok inGroup =>
    match add start inGroup with
    | .error _ => .error (.layout (.unaddressable group))
    | .ok position => .ok position

/-- `Expectation.inspect` in words. -/
def inspect (group start block offset : Nat) (actual : UInt8) :
    Except Error (Option Mismatch) :=
  match position e group start block offset with
  | .error err => .error err
  | .ok position =>
    let expected := e.byteAt position
    if expected = actual then .ok none
    else
      match div offset e.geometry.cellSize, mod offset e.geometry.cellSize with
      | .ok stripe, .ok inCell =>
        .ok (some { group, stripe, block, inCell, inBlock := offset, position, expected, actual })
      | .error fault, _ => .error (.fault fault)
      | _, .error fault => .error (.fault fault)

/-- Go on with the bytes of a data block from `offset` on. -/
def scanBytes (all : Bool) (group start block : Nat) : Nat → Bytes → Scan → Except Error Scan
  | _, [], s => .ok s
  | offset, actual :: rest, s =>
    if s.isDone all then .ok s
    else
      match inspect e group start block offset actual with
      | .error err => .error err
      | .ok mismatch? =>
        match add s.report.bytes 1 with
        | .error fault => .error (.fault fault)
        | .ok bytes =>
          scanBytes all group start block (offset + 1) rest
            { report := { s.report with bytes }, found := s.found ++ mismatch?.toList }

/-- Go on with a data block. -/
def scanBlock (all : Bool) (group start block : Nat) (content : Bytes) (s : Scan) :
    Except Error Scan :=
  match blockCapacity e.geometry with
  | .error fault => .error (.fault fault)
  | .ok capacity =>
    if capacity < content.length then .error (.blockOffset (content.length - 1) capacity)
    else if content.isEmpty then .ok s
    else
      match add s.report.blocks 1 with
      | .error fault => .error (.fault fault)
      | .ok blocks =>
        scanBytes e all group start block 0 content
          { s with report := { s.report with blocks } }

/-- Go on with the data blocks of a group from index `block` on. -/
def scanBlocks (all : Bool) (group start : Nat) :
    Nat → List (Option Bytes) → Scan → Except Error Scan
  | _, [], s => .ok s
  | block, none :: rest, s => scanBlocks all group start (block + 1) rest s
  | block, some content :: rest, s =>
    if s.isDone all then .ok s
    else
      match scanBlock e all group start block content s with
      | .error err => .error err
      | .ok s => scanBlocks all group start (block + 1) rest s

/-- Pass over a group. -/
def scan (all : Bool) (b : Buffers) : Except Error Scan :=
  if e.geometry.dataBlocks < b.data.length then
    .error (.blockIndex (b.data.length - 1) e.geometry.dataBlocks)
  else
    match groupStart e b.group with
    | .error err => .error err
    | .ok start => scanBlocks e all b.group start 0 b.data ⟨⟨1, 0, 0⟩, []⟩

/-- `Expectation.checkGroup` in words. -/
def checkGroup (b : Buffers) : Except Error Report :=
  match scan e false b with
  | .error err => .error err
  | .ok ⟨report, []⟩ => .ok report
  | .ok ⟨_, m :: _⟩ => .error (.mismatch m)

/-- `Expectation.groupMismatches` in words. -/
def groupMismatches (b : Buffers) : Except Error (List Mismatch) :=
  match scan e true b with
  | .error err => .error err
  | .ok s => .ok s.found

end Striping.Word
