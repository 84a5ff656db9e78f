import Striping.Proofs.Positions
import Striping.Proofs.Store.Contents

/-!
# Corrupting a byte of a file

The layout names the block and the offset that hold a byte of a file. Replacing the byte there
replaces it in the file's content, and leaves the file intact (`Store.Intact.corrupt`).
-/

namespace Striping

namespace Geometry

variable (g : Geometry)

/-- The id of the block that holds the byte at a position of a file whose ids start at `first`. -/
def holder (first pos : Nat) : Nat := g.groupId first (g.locate pos).group + (g.locate pos).block

/-- The id of a data block belongs to one group and one index. -/
theorem groupId_add_inj (first : Nat) {group group' i i' : Nat} (hi : i < g.dataBlocks)
    (hi' : i' < g.dataBlocks) (h : g.groupId first group + i = g.groupId first group' + i') :
    group = group' ∧ i = i' := by
  have hwidth : g.dataBlocks ≤ g.width := Nat.le_add_right ..
  obtain rfl : group = group' := by
    apply g.eq_of_groupId_le first (Nat.le_add_right _ i)
    · omega
    · omega
    · omega
  exact ⟨rfl, Nat.add_left_cancel h⟩

/-- The holder of a byte reaches to the byte's offset. -/
theorem keptAt_holder (first : Nat) {content : Bytes} {pos : Nat} (hpos : pos < content.length) :
    ∃ block, g.keptAt first content (g.holder first pos) = some block ∧
      (g.locate pos).inBlock < block.length := by
  have hb := g.locate_block_lt pos
  have hbyte : (g.column (g.groupBytes content (g.locate pos).group) (g.locate pos).block)[
      (g.locate pos).inBlock]? = content[pos]? := by
    rw [g.getElem?_groupColumn hb (g.locate_inBlock_lt pos), g.position_locate]
  rw [List.getElem?_eq_getElem hpos] at hbyte
  have hlt := (List.getElem?_eq_some_iff.1 hbyte).1
  have hne := List.ne_nil_of_length_pos (Nat.lt_of_le_of_lt (Nat.zero_le _) hlt)
  exact ⟨_, (g.keptAt_eq_some_iff ..).2 ⟨_, g.locate_group_lt hpos, _, hb, hne, rfl, rfl⟩, hlt⟩

/-- Replacing a byte of a file replaces one byte of the block that holds it. -/
theorem keptAt_set (first : Nat) {content : Bytes} {pos : Nat} {value : UInt8} {id : Nat}
    {block : Bytes} (h : g.keptAt first (content.set pos value) id = some block) :
    ∃ old, g.keptAt first content id = some old ∧
      block = if id = g.holder first pos then old.set (g.locate pos).inBlock value else old := by
  obtain ⟨group, hg, i, hi, hne, rfl, rfl⟩ := (g.keptAt_eq_some_iff ..).1 h
  rw [List.length_set] at hg
  have hplace : (group = (g.locate pos).group ∧ i = (g.locate pos).block) ↔
      g.groupId first group + i = g.holder first pos := by
    constructor
    · rintro ⟨rfl, rfl⟩
      rfl
    · exact g.groupId_add_inj first hi (g.locate_block_lt pos)
  -- a column is set at the byte's place, a block at the byte's holder
  rw [g.groupColumn_set content hi] at hne ⊢
  refine ⟨_, (g.keptAt_eq_some_iff ..).2 ⟨group, hg, i, hi, ?_, rfl, rfl⟩, by simp only [hplace]⟩
  intro hnil
  simp [hnil] at hne

end Geometry

namespace Store

variable {s : Store} {path : String} {first : Nat} {content : Bytes}

theorem corrupt_eq_ok {id offset : Nat} {block : Bytes} (h : s.blocks.get? id = some block)
    (hoffset : offset < block.length) (value : UInt8) : s.corrupt id offset value =
      (.ok (), { s with blocks := s.blocks.insert id (block.set offset value) }) := by
  rw [corrupt, h]
  exact if_neg (Nat.not_le_of_lt hoffset)

/-- **Replacing a byte where the layout puts it replaces it in the file.** -/
theorem Intact.corrupt (h : Intact s path first content) {pos : Nat} (hpos : pos < content.length)
    (value : UInt8) : ∃ t,
      s.corrupt (s.geometry.holder first pos) (s.geometry.locate pos).inBlock value = (.ok (), t) ∧
        t.geometry = s.geometry ∧ Intact t path first (content.set pos value) := by
  obtain ⟨block, hkept, hlt⟩ := s.geometry.keptAt_holder first hpos
  have hcorrupt := corrupt_eq_ok (h.kept _ _ hkept) hlt value
  have ht := s.touched_corrupt (s.geometry.holder first pos) (s.geometry.locate pos).inBlock value
  rw [hcorrupt] at ht
  refine ⟨_, hcorrupt, rfl, ?_, fun id _ hblock => ?_⟩
  · rw [List.length_set]
    exact ht.stored h.stored
  · obtain ⟨old, hold, rfl⟩ := s.geometry.keptAt_set first hblock
    rw [FiniteMap.get?_insert]
    split
    · next hid =>
      subst hid
      rw [Option.some.inj (hkept.symm.trans hold)]
    · exact h.kept id old hold

end Store

end Striping
