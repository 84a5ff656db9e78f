import Striping.Layout.Words
import Striping.Split

/-!
# Splitting in words

The computations of `Striping.Split` carried out in 64-bit words. One pass over the listed blocks
fills the slots, which are empty at first; a slot that is filled stays as it is.
-/

namespace Striping.Word

variable (g : Geometry) (record : GroupRecord)

/-- `GroupRecord.member` in words: the id and the start are checked sums. -/
def member (site : Site) (index : Nat) : Except Error Member := do
  let role ← g.role index
  let length ← blockLength g record.block.length index
  match add record.block.id index with
  | .error _ => throw (.layout (.idOverflow index record.block))
  | .ok id =>
    match mul index g.cellSize >>= add record.start with
    | .error _ => throw (.layout (.startOverflow index record.block))
    | .ok start =>
      return {
        block := { record.block with id, length }
        start
        site
        token := record.token
        index
        role }

/-- Put a block into its slot, unless the slot is filled. -/
def put (m : Member) (slots : List (Option Member)) : Except Fault (List (Option Member)) :=
  match slots[m.index]? with
  | none => .error .outOfBounds
  | some none => .ok (slots.set m.index (some m))
  | some (some _) => .ok slots

/-- Put the listed blocks into their slots, from left to right. -/
def fill : List (Site × UInt8) → List (Option Member) → Except Error (List (Option Member))
  | [], slots => .ok slots
  | (site, index) :: rest, slots =>
    match member g record site index.toNat with
    | .error e => .error e
    | .ok m =>
      match put m slots with
      | .error fault => .error (.fault fault)
      | .ok slots => fill rest slots

/-- `GroupRecord.split` in words. -/
def split : Except Error (List (Option Member)) :=
  if record.sites.length ≠ record.indices.length then
    .error (.configuration (.ragged record.block record.sites.length record.indices.length))
  else fill g record (record.sites.zip record.indices) (List.replicate g.width none)

end Striping.Word
