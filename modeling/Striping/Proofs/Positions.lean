import Striping.Proofs.Scattering

/-!
# Positions in a file

The byte at an offset of a data block has a position in the file, and each position has coordinates.
The two undo each other (`Geometry.locate_position`, `Geometry.position_locate`), and the columns of
a file's groups hold at every place the byte at its position (`Geometry.getElem?_groupColumn`).
-/

namespace Striping.Geometry

variable (g : Geometry)

/-- The file position of the byte at `offset` in data block `block` of a group. -/
def position (group block offset : Nat) : Nat :=
  group * g.groupCapacity + unplace g.cellSize g.dataBlocks block offset

theorem locate_position {block offset : Nat} (hb : block < g.dataBlocks)
    (ho : offset < g.blockCapacity) (group : Nat) : g.locate (g.position group block offset) =
      ⟨group, block, offset / g.cellSize, offset % g.cellSize, offset⟩ := by
  have hlt := unplace_lt g hb ho
  simp only [locate, position, mul_add_div_of_lt _ hlt, Nat.mul_add_mod_of_lt hlt,
    place_unplace g.cellSize_pos hb]

theorem position_locate (pos : Nat) :
    g.position (g.locate pos).group (g.locate pos).block (g.locate pos).inBlock = pos := by
  change pos / g.groupCapacity * g.groupCapacity + unplace g.cellSize g.dataBlocks
    (place g.cellSize g.dataBlocks (pos % g.groupCapacity)).1
    (place g.cellSize g.dataBlocks (pos % g.groupCapacity)).2 = pos
  rw [unplace_place g.cellSize_pos, Nat.div_add_mod']

theorem locate_block_lt (pos : Nat) : (g.locate pos).block < g.dataBlocks :=
  place_fst_lt g.cellSize_pos g.dataBlocks_pos _

theorem locate_inBlock_lt (pos : Nat) : (g.locate pos).inBlock < g.blockCapacity :=
  place_snd_lt g (Nat.mod_lt _ g.groupCapacity_pos)

theorem locate_group_lt {content : Bytes} {pos : Nat} (h : pos < content.length) :
    (g.locate pos).group < g.groupCount content.length := by
  rw [g.lt_groupCount_iff]
  exact Nat.lt_of_le_of_lt (Nat.div_mul_le_self ..) h

/-- **The columns of a file's groups hold each byte at its place.** -/
theorem getElem?_groupColumn {content : Bytes} {block offset : Nat} (hb : block < g.dataBlocks)
    (ho : offset < g.blockCapacity) (group : Nat) :
    (g.column (g.groupBytes content group) block)[offset]? =
      content[g.position group block offset]? := by
  rw [g.getElem?_column hb, groupBytes, List.getElem?_take_of_lt (unplace_lt g hb ho),
    List.getElem?_drop, position]

theorem position_eq_iff {block offset : Nat} (hb : block < g.dataBlocks)
    (ho : offset < g.blockCapacity) (group pos : Nat) : g.position group block offset = pos ↔
      group = (g.locate pos).group ∧ block = (g.locate pos).block ∧
        offset = (g.locate pos).inBlock := by
  constructor
  · rintro rfl
    rw [g.locate_position hb ho]
    exact ⟨rfl, rfl, rfl⟩
  · rintro ⟨rfl, rfl, rfl⟩
    exact g.position_locate pos

theorem length_groupColumn_le (content : Bytes) {block : Nat} (hb : block < g.dataBlocks)
    (group : Nat) : (g.column (g.groupBytes content group) block).length ≤ g.blockCapacity := by
  rw [length_column, length_groupBytes]
  exact g.share_le_blockCapacity hb (g.groupLength_le ..)

/-- **Replacing a byte of a file replaces one byte of one column**, where the byte has its place. -/
theorem groupColumn_set (content : Bytes) {block : Nat} (hb : block < g.dataBlocks)
    (group pos : Nat) (value : UInt8) :
    g.column (g.groupBytes (content.set pos value) group) block =
      if group = (g.locate pos).group ∧ block = (g.locate pos).block then
        (g.column (g.groupBytes content group) block).set (g.locate pos).inBlock value
      else g.column (g.groupBytes content group) block := by
  ext offset : 1
  by_cases ho : offset < g.blockCapacity
  · have hiff := g.position_eq_iff hb ho group pos
    rw [g.getElem?_groupColumn hb ho, List.getElem?_set', ← g.getElem?_groupColumn hb ho]
    simp only [@eq_comm _ pos, hiff]
    by_cases hplace : group = (g.locate pos).group ∧ block = (g.locate pos).block
    · simp [hplace, List.getElem?_set', eq_comm]
    · simp [hplace, ← and_assoc]
  · have hle := Nat.le_of_not_lt ho
    have hcolumn : ∀ content, (g.column (g.groupBytes content group) block).length ≤ offset :=
      fun content => Nat.le_trans (g.length_groupColumn_le content hb group) hle
    rw [List.getElem?_eq_none (hcolumn _), List.getElem?_eq_none]
    split
    · rw [List.length_set]
      exact hcolumn content
    · exact hcolumn content

end Striping.Geometry
