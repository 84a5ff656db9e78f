import Striping.Layout

/-!
# Splitting a group into its blocks

One record stands for a whole group. `GroupRecord.split` gives a slot to every block of the group,
parity included: the slot of a listed index holds the block's own record, with the id counted from
the group's first block and the length that the layout puts into it; the others are empty. Where an
index is listed twice, its first site counts.
-/

namespace Striping

/-- The block at `index` of the group, fetched from `site`. The index, the group's length, the
block's id and its start are checked in this order. -/
def GroupRecord.member (group : GroupRecord) (g : Geometry) (site : Site) (index : Nat) :
    Except Error Member :=
  match g.role index with
  | .error e => .error e
  | .ok role =>
    match g.blockLength group.block.length index with
    | .error e => .error e
    | .ok length =>
      if Word.size ≤ group.block.id + index then
        .error (.layout (.idOverflow index group.block))
      else if Word.size ≤ group.start + index * g.cellSize then
        .error (.layout (.startOverflow index group.block))
      else
        .ok {
          block := { group.block with id := group.block.id + index, length }
          start := group.start + index * g.cellSize
          site
          token := group.token
          index
          role }

/-- The listed blocks of the group, in the order of the list. -/
def GroupRecord.members (group : GroupRecord) (g : Geometry) : Except Error (List Member) :=
  (group.sites.zip group.indices).mapM fun (site, index) => group.member g site index.toNat

/-- A slot for each block of the group, in order of the index. -/
def GroupRecord.split (group : GroupRecord) (g : Geometry) : Except Error (List (Option Member)) :=
  if group.sites.length ≠ group.indices.length then
    .error (.configuration (.ragged group.block group.sites.length group.indices.length))
  else
    match group.members g with
    | .error e => .error e
    | .ok members => .ok ((List.range g.width).map fun i => members.find? (·.index == i))

end Striping
