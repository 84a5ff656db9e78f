import Striping.Proofs.Addressing
import Striping.Proofs.Words.Split

/-!
# Splitting any record exactly

What splitting answers is said from the lists of the record alone. An index that the layout has no
block for has one reason (`GroupRecord.member_eq_error_iff`), and the first listed one decides the
error. A slot shows the block of its index at the first site that is listed for it
(`GroupRecord.depicts_of_slot`). Both are said by splitting a list: behind what comes before, here
it is (`GroupRecord.split_exact`).
-/

namespace Striping.GroupRecord

variable (record : GroupRecord) (g : Geometry)

/-- Why the layout has no block at `index` for the record. The index is checked first, then the
length of the group, the block's id and its start. -/
inductive Undescribed (index : Nat) : Error → Prop
  | index (h : g.width ≤ index) : Undescribed index (.blockIndex index g.width)
  | length (hi : index < g.width) (h : g.groupCapacity < record.block.length) :
    Undescribed index (.layout (.groupTooLong record.block.length g.groupCapacity))
  | id (hi : index < g.width) (hlen : record.block.length ≤ g.groupCapacity)
    (h : Word.size ≤ record.block.id + index) :
    Undescribed index (.layout (.idOverflow index record.block))
  | start (hi : index < g.width) (hlen : record.block.length ≤ g.groupCapacity)
    (hid : record.block.id + index < Word.size)
    (h : Word.size ≤ record.start + index * g.cellSize) :
    Undescribed index (.layout (.startOverflow index record.block))

/-- The member is the block at `index`, at the first site that the record lists for it. -/
structure Depicts (index : Nat) (m : Member) : Prop where
  site : ∃ before byte after,
    record.sites.zip record.indices = before ++ (m.site, byte) :: after ∧ byte.toNat = index ∧
      ∀ x ∈ before, x.2.toNat ≠ index
  index_eq : m.index = index
  role : m.role = if index < g.dataBlocks then .data else .parity
  token : m.token = record.token
  pool : m.block.pool = record.block.pool
  stamp : m.block.stamp = record.block.stamp
  id : m.block.id = record.block.id + index
  length : Word.blockLength g record.block.length index = .ok m.block.length
  start : m.start = record.start + index * g.cellSize
  /-- Where the record starts at a group of the file, a data block starts at its first byte. -/
  fileOffset : ∀ group, record.start = group * g.groupCapacity → index < g.dataBlocks →
    Word.fileOffset g group index 0 = .ok m.start

variable {record g} {site : Site} {index : Nat}

theorem Undescribed.isLayoutViolation {e : Error} (h : record.Undescribed g index e) :
    e.isLayoutViolation = true := by
  cases h <;> rfl

theorem describes_or_undescribed (record : GroupRecord) (g : Geometry) (index : Nat) :
    record.Describes g index ∨ ∃ e, record.Undescribed g index e := by
  rcases Nat.lt_or_ge index g.width with hi | hi
  · rcases Nat.lt_or_ge g.groupCapacity record.block.length with hlen | hlen
    · exact .inr ⟨_, .length hi hlen⟩
    · rcases Nat.lt_or_ge (record.block.id + index) Word.size with hid | hid
      · rcases Nat.lt_or_ge (record.start + index * g.cellSize) Word.size with hstart | hstart
        · exact .inl ⟨hi, hlen, hid, hstart⟩
        · exact .inr ⟨_, .start hi hlen hid hstart⟩
      · exact .inr ⟨_, .id hi hlen hid⟩
  · exact .inr ⟨_, .index hi⟩

theorem member_eq_error {e : Error} (h : record.Undescribed g index e) :
    record.member g site index = .error e := by
  unfold member Geometry.role
  cases h with
  | index hi => simp only [Geometry.checkIndex, Nat.not_lt_of_le hi, if_false]
  | length hi hlen =>
    simp only [Geometry.checkIndex, Geometry.blockLength, hi, hlen, if_true]
  | id hi hlen hid =>
    simp only [Geometry.checkIndex, hi, g.blockLength_eq_ok hi hlen, hid, if_true]
  | start hi hlen hid hstart =>
    simp only [Geometry.checkIndex, hi, g.blockLength_eq_ok hi hlen, Nat.not_le_of_lt hid, hstart,
      if_true, if_false]

/-- **A listed block is refused for the first reason that applies.** -/
theorem member_eq_error_iff {e : Error} :
    record.member g site index = .error e ↔ record.Undescribed g index e := by
  refine ⟨fun h => ?_, member_eq_error⟩
  rcases describes_or_undescribed record g index with hdescribes | ⟨e', he'⟩
  · cases h.symm.trans (member_eq_ok_iff.2 ⟨hdescribes, rfl⟩)
  · cases h.symm.trans (member_eq_error he')
    exact he'

/-- A data block starts at the first of its bytes in the file. -/
theorem Describes.fileOffset_eq {group : Nat} (h : record.Describes g index)
    (hgroup : record.start = group * g.groupCapacity) (hi : index < g.dataBlocks) :
    g.fileOffset group index 0 = .ok (record.start + index * g.cellSize) := by
  refine Geometry.fileOffset_eq_ok_iff.2 ⟨hi, g.blockCapacity_pos, ?_, h.start_lt⟩
  rw [hgroup, Geometry.position]
  simp [unplace]

/-- **A slot shows the block of its index**, at the first site that is listed for it. -/
theorem depicts_of_slot {m : Member} (h : record.Describes g index)
    (hslot : record.slot g index = some m) : record.Depicts g index m := by
  obtain ⟨x, hfind, rfl⟩ := Option.map_eq_some_iff.1 hslot
  obtain ⟨hx, before, after, hsplit, hbefore⟩ := List.find?_eq_some_iff_append.1 hfind
  obtain rfl : x.2.toNat = index := by simpa using hx
  exact {
    site := ⟨before, x.2, after, hsplit, rfl, fun y hy => by simpa using hbefore y hy⟩
    index_eq := rfl
    role := rfl
    token := rfl
    pool := rfl
    stamp := rfl
    id := rfl
    length := by rw [Word.blockLength_eq, g.blockLength_eq_ok h.index_lt h.length_le]; rfl
    start := rfl
    fileOffset := fun group hgroup hi => by
      rw [Word.fileOffset_eq]
      exact h.fileOffset_eq hgroup hi }

theorem slot_isSome_iff (hlen : record.sites.length = record.indices.length) :
    (record.slot g index).isSome ↔ index ∈ record.listed := by
  rw [Option.isSome_iff_exists]
  exact ⟨fun ⟨_, hm⟩ => (slot_eq_some hm).1, exists_slot_eq_some hlen⟩

/-- The first listed block that is refused decides the error. -/
theorem members_eq_error {e : Error} (hlen : record.sites.length = record.indices.length)
    (h : record.members g = .error e) : ∃ before index after,
      record.listed = before ++ index :: after ∧ (∀ i ∈ before, record.Describes g i) ∧
        record.Undescribed g index e := by
  obtain ⟨before, x, after, hsplit, hbefore, hx⟩ := mapM_eq_error h
  refine ⟨before.map (·.2.toNat), x.2.toNat, after.map (·.2.toNat), ?_, ?_,
    member_eq_error_iff.1 hx⟩
  · rw [listed_eq_map hlen, hsplit, List.map_append, List.map_cons]
  · rw [List.forall_mem_map]
    intro y hy
    obtain ⟨m, hm⟩ := hbefore y hy
    exact (member_eq_ok_iff.1 hm).1

/-- **Splitting is exact for every record**, in words. A record with other numbers of sites than of
indices is refused. Any other one is split exactly if the layout has a block for every listed index;
if not, the first listed index without one decides the error, which is a violation of the layout.
There is a slot for each block of the group, which is filled exactly if the index is listed, and
then shows the block at the first site that is listed for it. -/
theorem split_exact (record : GroupRecord) (g : Geometry) :
    (record.sites.length ≠ record.indices.length → Word.split g record = .error (.configuration
      (.ragged record.block record.sites.length record.indices.length))) ∧
    (record.sites.length = record.indices.length →
      ((∃ slots, Word.split g record = .ok slots) ↔
        ∀ index ∈ record.listed, record.Describes g index) ∧
      (∀ err, Word.split g record = .error err → err.isLayoutViolation = true ∧
        ∃ before index after, record.listed = before ++ index :: after ∧
          (∀ i ∈ before, record.Describes g i) ∧ record.Undescribed g index err) ∧
      ∀ slots, Word.split g record = .ok slots → slots.length = g.width ∧
        ∀ index < g.width, ∃ slot, slots[index]? = some slot ∧
          (slot.isSome ↔ index ∈ record.listed) ∧
          ∀ m, slot = some m → record.Depicts g index m) := by
  rw [Word.split_eq]
  refine ⟨fun hlen => if_pos hlen, fun hlen => ⟨?_, fun err herr => ?_, fun slots hslots => ?_⟩⟩
  · simp only [split_eq_ok_iff]
    exact ⟨fun ⟨_, _, hall, _⟩ => hall, fun hall => ⟨_, hlen, hall, rfl⟩⟩
  · have hmembers : record.members g = .error err := by
      rw [split, if_neg (not_not_intro hlen)] at herr
      split at herr
      · next h =>
        cases herr
        exact h
      · cases herr
    obtain ⟨before, index, after, hsplit, hbefore, hfirst⟩ := members_eq_error hlen hmembers
    exact ⟨hfirst.isLayoutViolation, before, index, after, hsplit, hbefore, hfirst⟩
  · obtain ⟨-, hall, rfl⟩ := split_eq_ok_iff.1 hslots
    refine ⟨by rw [List.length_map, List.length_range], fun index hi => ?_⟩
    refine ⟨record.slot g index, getElem?_map_range_eq_some.2 ⟨hi, rfl⟩, slot_isSome_iff hlen,
      fun m hm => depicts_of_slot (hall index (slot_eq_some hm).1) hm⟩

/-- A record lists the first block of a group twice and its second not at all. With an index that is
not one of the group it is refused, and without one of its indices, too. -/
theorem split_exact_repeated :
    let g := Geometry.small
    let site (node : String) : Site := ⟨node, node⟩
    let record (indices : List UInt8) : GroupRecord :=
      ⟨⟨"p", 7, 5, 1⟩, 16, [site "a", site "b", site "c"], indices, ⟨[]⟩⟩
    let first := (record [2, 0, 0]).part g (site "b") 0
    (Word.split g (record [2, 0, 0]) =
        .ok [some first, none, some ((record [2, 0, 0]).part g (site "a") 2)] ∧
          (∀ index ∈ [2, 0, 0], (record [2, 0, 0]).Describes g index) ∧
            (record [2, 0, 0]).Depicts g 0 first) ∧
      (Word.split g (record [2, 3, 0]) = .error (.blockIndex 3 3) ∧
        ∃ before index after, [2, 3, 0] = before ++ index :: after ∧
          (∀ i ∈ before, (record [2, 3, 0]).Describes g i) ∧
            (record [2, 3, 0]).Undescribed g index (.blockIndex 3 3)) ∧
      Word.split g (record [2, 0]) = .error (.configuration (.ragged ⟨"p", 7, 5, 1⟩ 3 2)) := by
  intro g site record first
  have hsplit : Word.split g (record [2, 0, 0]) =
      .ok [some first, none, some ((record [2, 0, 0]).part g (site "a") 2)] := by decide +kernel
  have hrefused : Word.split g (record [2, 3, 0]) = .error (.blockIndex 3 3) := by decide +kernel
  obtain ⟨hok, -, hslots⟩ := (split_exact (record [2, 0, 0]) g).2 rfl
  obtain ⟨slot, hslot, -, hdepicts⟩ := (hslots _ hsplit).2 0 (by decide)
  cases hslot
  exact ⟨⟨hsplit, hok.1 ⟨_, hsplit⟩, hdepicts _ rfl⟩,
    ⟨hrefused, (((split_exact (record [2, 3, 0]) g).2 rfl).2.1 _ hrefused).2⟩,
    (split_exact (record [2, 0]) g).1 (by decide)⟩

end Striping.GroupRecord
