import Striping.Proofs.Splitting

/-!
# Splitting any record

A record can list any indices, in any order and more than once, and give any lengths and ids. It is
split exactly if it has as many sites as indices and the layout has room for each listed block
(`GroupRecord.Describes`); the slots then hold the parts of the listed blocks and nothing else
(`GroupRecord.split_eq_ok_iff`).
-/

namespace Striping.GroupRecord

variable (record : GroupRecord) (g : Geometry)

/-- The indices of the blocks that the record lists. -/
def listed : List Nat := record.indices.map UInt8.toNat

/-- The layout has a block at `index`, with an id and a start, and room for the record's bytes. -/
structure Describes (index : Nat) : Prop where
  index_lt : index < g.width
  length_le : record.block.length ≤ g.groupCapacity
  id_lt : record.block.id + index < Word.size
  start_lt : record.start + index * g.cellSize < Word.size

/-- What the slot at `index` holds: the part of the block, from the first site that is listed for
it. -/
def slot (index : Nat) : Option Member :=
  ((record.sites.zip record.indices).find? fun x => x.2.toNat == index).map fun x =>
    record.part g x.1 x.2.toNat

variable {record g}

theorem member_eq_ok_iff {site : Site} {index : Nat} {m : Member} :
    record.member g site index = .ok m ↔
      record.Describes g index ∧ m = record.part g site index := by
  constructor
  · intro h
    have hdescribes : record.Describes g index := by
      simp only [member, Geometry.role, Geometry.checkIndex, Geometry.blockLength] at h
      by_cases hi : index < g.width
      · by_cases hlen : g.groupCapacity < record.block.length
        · simp [hi, hlen] at h
        · by_cases hid : Word.size ≤ record.block.id + index
          · simp [hi, hlen, hid] at h
          · by_cases hstart : Word.size ≤ record.start + index * g.cellSize
            · simp [hi, hlen, hid, hstart] at h
            · exact ⟨hi, Nat.le_of_not_lt hlen, Nat.lt_of_not_le hid, Nat.lt_of_not_le hstart⟩
      · simp [hi] at h
    obtain ⟨hi, hlen, hid, hstart⟩ := hdescribes
    rw [member_eq_ok hi hlen hid hstart] at h
    exact ⟨⟨hi, hlen, hid, hstart⟩, (Except.ok.inj h).symm⟩
  · rintro ⟨⟨hi, hlen, hid, hstart⟩, rfl⟩
    exact member_eq_ok hi hlen hid hstart

theorem listed_eq_map (hlen : record.sites.length = record.indices.length) :
    record.listed = (record.sites.zip record.indices).map fun x => x.2.toNat := by
  conv_lhs => rw [listed, ← List.map_snd_zip (Nat.le_of_eq hlen.symm), List.map_map]
  rfl

theorem members_eq_ok_iff {ms : List Member} (hlen : record.sites.length = record.indices.length) :
    record.members g = .ok ms ↔ (∀ index ∈ record.listed, record.Describes g index) ∧
      ms = (record.sites.zip record.indices).map fun x => record.part g x.1 x.2.toNat := by
  rw [listed_eq_map hlen, List.forall_mem_map, members]
  exact mapM_eq_ok_iff_forall fun _ _ => member_eq_ok_iff

/-- **A record is split exactly if it is well-formed and the layout has all its blocks.** -/
theorem split_eq_ok_iff {slots : List (Option Member)} : record.split g = .ok slots ↔
    record.sites.length = record.indices.length ∧
      (∀ index ∈ record.listed, record.Describes g index) ∧
        slots = (List.range g.width).map (record.slot g) := by
  unfold split
  split
  · next h => simp [h]
  · next h =>
    have hlen := not_not.1 h
    constructor
    · intro hsplit
      split at hsplit
      · cases hsplit
      · next hmembers =>
        obtain ⟨hall, rfl⟩ := (members_eq_ok_iff hlen).1 hmembers
        refine ⟨hlen, hall, (Except.ok.inj hsplit).symm.trans ?_⟩
        simp only [List.find?_map]
        rfl
    · rintro ⟨-, hall, rfl⟩
      rw [(members_eq_ok_iff hlen).2 ⟨hall, rfl⟩]
      simp only [List.find?_map]
      rfl

/-- A slot holds the part of its block. -/
theorem slot_eq_some {index : Nat} {m : Member} (h : record.slot g index = some m) :
    index ∈ record.listed ∧ ∃ site, m = record.part g site index := by
  obtain ⟨x, hfind, rfl⟩ := Option.map_eq_some_iff.1 h
  have hindex : x.2.toNat = index := by simpa using List.find?_some hfind
  have hmem : x.2 ∈ record.indices := (List.of_mem_zip (List.mem_of_find?_eq_some hfind)).2
  exact ⟨hindex ▸ List.mem_map_of_mem hmem, x.1, by rw [hindex]⟩

/-- The slots of the listed blocks are filled. -/
theorem exists_slot_eq_some (hlen : record.sites.length = record.indices.length) {index : Nat}
    (h : index ∈ record.listed) : ∃ m, record.slot g index = some m := by
  rw [listed_eq_map hlen] at h
  obtain ⟨x, hx, rfl⟩ := List.mem_map.1 h
  have hsome : ((record.sites.zip record.indices).find? fun y =>
      y.2.toNat == x.2.toNat).isSome := List.find?_isSome.2 ⟨x, hx, beq_self_eq_true _⟩
  obtain ⟨y, hy⟩ := Option.isSome_iff_exists.1 hsome
  exact ⟨_, by rw [slot, hy]; rfl⟩

end Striping.GroupRecord
