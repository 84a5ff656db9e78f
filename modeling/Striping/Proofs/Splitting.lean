import Striping.Proofs.Lengths
import Striping.Proofs.Traversal
import Striping.Split
import Striping.Store

/-!
# Splitting the records of a store

`GroupRecord.part` is the record of one block, as the layout describes it; it is what
`GroupRecord.member` gives if all its checks pass (`GroupRecord.member_eq_ok`). The records that a
store keeps list the data blocks in order, so splitting one gives the parts of the data blocks and
leaves the parity slots empty (`Geometry.split_groupRecord`).
-/

namespace Striping

/-- The block at `index` of the group, fetched from `site`. -/
def GroupRecord.part (group : GroupRecord) (g : Geometry) (site : Site) (index : Nat) : Member where
  block := {
    group.block with
    id := group.block.id + index
    length := g.share group.block.length index }
  start := group.start + index * g.cellSize
  site
  token := group.token
  index
  role := if index < g.dataBlocks then .data else .parity

theorem GroupRecord.member_eq_ok {group : GroupRecord} {g : Geometry} {site : Site} {index : Nat}
    (hi : index < g.width) (hlen : group.block.length ≤ g.groupCapacity)
    (hid : group.block.id + index < Word.size)
    (hstart : group.start + index * g.cellSize < Word.size) :
    group.member g site index = .ok (group.part g site index) := by
  simp only [member, Geometry.role, Geometry.checkIndex, hi, if_true, g.blockLength_eq_ok hi hlen,
    Nat.not_le_of_lt hid, Nat.not_le_of_lt hstart, if_false, part]

namespace Geometry

variable (g : Geometry)

/-- Every block of a group of a file that a machine can hold starts at a word. -/
theorem start_add_groupCapacity_le {length group : Nat} (hlen : length ≤ Bytes.maxLength)
    (hg : group < g.groupCount length) : group * g.groupCapacity + g.groupCapacity ≤ Word.size := by
  have hcap := g.groupCapacity_lt
  have hstart := (g.lt_groupCount_iff length group).1 hg
  rcases Nat.eq_zero_or_pos group with rfl | hpos
  · omega
  · have := Nat.le_mul_of_pos_left g.groupCapacity hpos
    simp only [Bytes.maxLength, Word.size] at *
    omega

/-- A byte tells the data blocks of a group apart. -/
theorem toNat_ofNat_index {index : Nat} (hi : index < g.dataBlocks) :
    (UInt8.ofNat index).toNat = index :=
  Nat.mod_eq_of_lt (Nat.lt_of_lt_of_le hi (Nat.le_trans (Nat.le_add_right ..) g.width_le))

/-- The indices that a record lists are those of the data blocks. -/
theorem map_toNat_indices (first length group : Nat) :
    (g.groupRecord first length group).indices.map UInt8.toNat = List.range g.dataBlocks := by
  rw [groupRecord, List.map_map]
  conv_rhs => rw [← List.map_id (List.range g.dataBlocks)]
  exact List.map_congr_left fun i hi => g.toNat_ofNat_index (List.mem_range.1 hi)

/-- The blocks that a store's record describes. -/
def part (first length group index : Nat) : Member :=
  (g.groupRecord first length group).part g (Store.site index) index

theorem members_groupRecord {first length group : Nat}
    (hid : g.groupId first group + g.width ≤ Word.size)
    (hstart : group * g.groupCapacity + g.groupCapacity ≤ Word.size) :
    (g.groupRecord first length group).members g =
      .ok ((List.range g.dataBlocks).map (g.part first length group)) := by
  have hzip : (g.groupRecord first length group).sites.zip
      (g.groupRecord first length group).indices =
        (List.range g.dataBlocks).map fun i => (Store.site i, UInt8.ofNat i) := by
    simp [groupRecord, List.zip_map']
  rw [GroupRecord.members, hzip, List.mapM_map]
  apply mapM_eq_ok
  intro i hi
  rw [List.mem_range] at hi
  have hwidth : i < g.width := Nat.lt_of_lt_of_le hi (Nat.le_add_right ..)
  have hcell := Nat.lt_of_lt_of_le (g.mul_cellSize_lt hi) g.stripeCapacity_le
  simp only [Function.comp, g.toNat_ofNat_index hi]
  exact GroupRecord.member_eq_ok hwidth (g.groupLength_le ..)
    (Nat.lt_of_lt_of_le (Nat.add_lt_add_left hwidth _) hid)
    (Nat.lt_of_lt_of_le (Nat.add_lt_add_left hcell _) hstart)

theorem split_groupRecord {first length group : Nat}
    (hid : g.groupId first group + g.width ≤ Word.size)
    (hstart : group * g.groupCapacity + g.groupCapacity ≤ Word.size) :
    (g.groupRecord first length group).split g = .ok ((List.range g.width).map fun i =>
      if i < g.dataBlocks then some (g.part first length group i) else none) := by
  have hlen : (g.groupRecord first length group).sites.length =
      (g.groupRecord first length group).indices.length := by simp [groupRecord]
  rw [GroupRecord.split, if_neg (not_not_intro hlen), g.members_groupRecord hid hstart]
  refine congrArg Except.ok (List.map_congr_left fun i _ => ?_)
  rw [List.find?_map]
  split
  · next hi =>
    rw [Option.map_eq_some_iff]
    refine ⟨i, List.find?_range_eq_some.2 ⟨by simp [part, GroupRecord.part], by simpa using hi,
      fun j hj => ?_⟩, rfl⟩
    simpa [part, GroupRecord.part] using Nat.ne_of_lt hj
  · next hi =>
    rw [Option.map_eq_none_iff, List.find?_eq_none]
    intro j hj
    rw [List.mem_range] at hj
    simp [part, GroupRecord.part]
    omega

end Geometry

end Striping
