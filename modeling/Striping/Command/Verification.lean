import Striping.Audit
import Striping.Command.Outcome
import Striping.Fetch

/-!
# Verification

A generated file is written to a new store, bytes at given positions are zeroed in the blocks, and
what is fetched back is audited. The verdict is data; `Verdict.outcome` puts it into words.
-/

namespace Striping.Command

/-- What a verification comes to. -/
inductive Verdict where
  /-- It could not be carried out. -/
  | unfinished (f : Failure)
  /-- The audit found nothing. -/
  | passed (report : Report)
  /-- The audit stopped at an error. -/
  | stopped (e : Error)
  /-- The audit of all `length` bytes listed these mismatches. -/
  | listed (length : Nat) (mismatches : List Mismatch)
  deriving DecidableEq, Repr

/-- The path of the generated file. -/
def verifiedPath : String := "/verify"

/-- The store after the bytes at file positions are zeroed, from left to right. -/
def zero (g : Geometry) (length : Nat) (groups : List GroupRecord) (s : Store) :
    List Nat → Except Failure Store
  | [] => .ok s
  | position :: rest =>
    if length ≤ position then .error (.pastEnd position length)
    else
      let c := g.locate position
      match groups[c.group]? with
      | none => .error (.zeroing position (.fault .outOfBounds))
      | some group =>
        match s.corrupt (group.block.id + c.block) c.inBlock 0 with
        | (.error e, _) => .error (.zeroing position e)
        | (.ok (), s) => zero g length groups s rest

/-- The buffers of the groups from index `group` on, each split and fetched. -/
def fetchAll (s : Store) (g : Geometry) : Nat → List GroupRecord → Except Failure (List Buffers)
  | _, [] => .ok []
  | group, record :: rest =>
    match record.split g with
    | .error e => .error (.refused e)
    | .ok members =>
      match s.fetchGroup g group members with
      | (.error e, _) => .error (.fetching group e)
      | (.ok buffers, s) =>
        match fetchAll s g (group + 1) rest with
        | .error f => .error f
        | .ok others => .ok (buffers :: others)

/-- What a store gives back of the generated file after bytes of it are zeroed: its length, and the
buffers of its groups. -/
def fetchZeroed (g : Geometry) (length : Nat) (zeroed : List Nat) (s : Store) :
    Except Failure (Nat × List Buffers) :=
  match s.groups verifiedPath with
  | .error e => .error (.refused e)
  | .ok groups =>
    match zero g length groups s zeroed with
    | .error f => .error f
    | .ok s =>
      match s.length verifiedPath with
      | .error e => .error (.refused e)
      | .ok reported =>
        match fetchAll s g 0 groups with
        | .error f => .error f
        | .ok buffers => .ok (reported, buffers)

/-- Write content that was generated for a file of `length` bytes to a store, zero bytes of it, and
audit it: up to the first mismatch, or `all`. -/
def verifyContent (g : Geometry) (p : Pattern) (length : Nat) (all : Bool) (zeroed : List Nat)
    (content : Bytes) : Verdict :=
  match (Store.empty g Store.firstId).write verifiedPath content with
  | (.error e, _) => .unfinished (.refused e)
  | (.ok _, s) =>
    match fetchZeroed g length zeroed s with
    | .error f => .unfinished f
    | .ok (reported, buffers) =>
      let expectation : Expectation := ⟨g, p, length⟩
      if all then
        if reported ≠ length then .unfinished (.wrongLength length reported)
        else
          match expectation.fileMismatches buffers with
          | .error e => .unfinished (.refused e)
          | .ok mismatches => .listed length mismatches
      else
        match expectation.checkFile reported buffers with
        | .error e => .stopped e
        | .ok report => .passed report

/-- Generate a file of `length` bytes, write it, zero bytes of it, and audit it. The content is
generated before anything else, and needs a piece of memory. -/
def verify (g : Geometry) (p : Pattern) (length : Nat) (all : Bool) (zeroed : List Nat) : Verdict :=
  match p.produce length with
  | .error fault => .unfinished (.refused (.fault fault))
  | .ok content => verifyContent g p length all zeroed content

/-- How many mismatches are shown one by one. -/
def maxShown : Nat := 20

/-- The lines of mismatches: the first ones, and the number of those that are not shown. -/
def mismatchLines (mismatches : List Mismatch) : String :=
  String.join ((mismatches.take maxShown).map fun m => s!"  {m.message}\n") ++
  if maxShown < mismatches.length then s!"  ... and {mismatches.length - maxShown} more\n" else ""

/-- The verdict in words. -/
def Verdict.outcome : Verdict → Outcome
  | .unfinished f => .failure "" f
  | .passed report =>
    .success <|
      s!"✓ Verified {report.bytes} bytes in {report.blocks} blocks across " ++
      s!"{report.groups} block groups\n"
  | .stopped e => .failure s!"✗ {e.message}\n" (.refused e)
  | .listed length [] => .success s!"✓ All {length} bytes match\n"
  | .listed _ mismatches =>
    .failure (s!"✗ {mismatches.length} mismatched bytes\n" ++ mismatchLines mismatches)
      (.differing mismatches.length)

end Striping.Command
