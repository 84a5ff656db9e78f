import Striping.Proofs.Sharing
import Striping.Proofs.Words.Stripe

/-!
# Cells tile the blocks

Scattering copies the cells of a group into blocks that are filled with zeros. Each cell ends within
its block (`Geometry.cell_fits`), and each byte of a block lies in exactly one cell
(`Geometry.cell_covers_iff`). So no zero of the filling is left, no byte is written twice, and the
blocks hold the byte of the group that the layout names for each offset
(`Geometry.scatter_exact`).
-/

namespace Striping

/-- Writing the cell writes the byte at `offset` of data block `block`. -/
def Cell.Covers (c : Cell) (block offset : Nat) : Prop :=
  c.block = block ∧ c.offset ≤ offset ∧ offset < c.offset + c.bytes.length

namespace Geometry

variable (g : Geometry)

/-- The cell of number `k` is the one that is copied for the piece of this number. -/
def Copies (bytes : Bytes) (k : Nat) (c : Cell) : Prop :=
  ∃ piece, (chunks g.cellSize bytes)[k]? = some piece ∧ Word.cell g k piece = .ok c

variable {g} {bytes : Bytes}

theorem copies_iff (hlen : bytes.length ≤ g.groupCapacity) {k : Nat} {c : Cell} :
    g.Copies bytes k c ↔ k * g.cellSize < bytes.length ∧ c = g.cell bytes k := by
  have hcell : ∀ hk : k * g.cellSize < bytes.length,
      Word.cell g k ((bytes.drop (k * g.cellSize)).take g.cellSize) = .ok (g.cell bytes k) :=
    fun hk => Word.cell_eq g (Nat.lt_of_lt_of_le hk hlen) (List.length_take_le ..)
  rw [Copies, getElem?_chunks g.cellSize_pos]
  constructor
  · rintro ⟨piece, hpiece, hc⟩
    rw [Option.ite_none_right_eq_some, Option.some.injEq] at hpiece
    obtain ⟨hk, rfl⟩ := hpiece
    exact ⟨hk, Except.ok.inj (hc.symm.trans (hcell hk))⟩
  · rintro ⟨hk, rfl⟩
    exact ⟨_, if_pos hk, hcell hk⟩

/-- **A byte of a block lies in one cell**, the one that its offset in the group falls into. -/
theorem cell_covers_iff {block offset : Nat} (hb : block < g.dataBlocks)
    (hlt : unplace g.cellSize g.dataBlocks block offset < bytes.length) (k : Nat) :
    (g.cell bytes k).Covers block offset ↔
      k = unplace g.cellSize g.dataBlocks block offset / g.cellSize := by
  have hc := g.cellSize_pos
  have hlen := g.length_cell_bytes bytes k
  constructor
  · rintro ⟨rfl, hle, hend⟩
    obtain ⟨t, rfl⟩ := Nat.exists_eq_add_of_le hle
    have ht : t < g.cellSize := by omega
    rw [g.unplace_cell bytes k ht, mul_add_div_of_lt k ht]
  · intro hk
    have hsplit := Nat.div_add_mod' (unplace g.cellSize g.dataBlocks block offset) g.cellSize
    have hmod := Nat.mod_lt (unplace g.cellSize g.dataBlocks block offset) hc
    rw [← hk] at hsplit
    obtain ⟨hblock, hoffset⟩ := (g.unplace_eq_iff hb hmod offset k).1 hsplit.symm
    change offset = (g.cell bytes k).offset + _ at hoffset
    exact ⟨hblock.symm, by omega, by omega⟩

variable (g) in
/-- The blocks are those that a group with this content is scattered into. -/
structure Scattered (bytes : Bytes) (blocks : List Bytes) : Prop where
  /-- There is a block for each index of a data block. -/
  count_eq : blocks.length = g.dataBlocks
  /-- A block is as long as the layout makes it. -/
  length_eq : ∀ (block : Nat) (buffer : Bytes), blocks[block]? = some buffer →
    Word.blockLength g bytes.length block = .ok buffer.length
  /-- Each byte of a block is the one of the group that the layout names. -/
  byte_eq : ∀ (block : Nat) (buffer : Bytes), blocks[block]? = some buffer →
    ∀ offset < buffer.length, ∃ pos, Word.unplace g.cellSize g.dataBlocks block offset = .ok pos ∧
      pos < bytes.length ∧ buffer[offset]? = bytes[pos]?
  /-- Each piece of the group is copied into a block that it fits. -/
  within : ∀ (k : Nat) (piece : Bytes), (chunks g.cellSize bytes)[k]? = some piece →
    ∃ c buffer, Word.cell g k piece = .ok c ∧ c.bytes = piece ∧ blocks[c.block]? = some buffer ∧
      c.offset + piece.length ≤ buffer.length
  /-- Each byte of a block is written by one copy. -/
  once : ∀ (block : Nat) (buffer : Bytes), blocks[block]? = some buffer →
    ∀ offset < buffer.length, ∃! k, ∃ c, g.Copies bytes k c ∧ c.Covers block offset

theorem scattered_columns (hlen : bytes.length ≤ g.groupCapacity) :
    g.Scattered bytes ((List.range g.dataBlocks).map (g.column bytes)) where
  count_eq := by rw [List.length_map, List.length_range]
  length_eq block buffer hget := by
    obtain ⟨hb, rfl⟩ := getElem?_map_range_eq_some.1 hget
    rw [Word.blockLength_eq, length_column]
    exact g.blockLength_eq_ok (Nat.lt_of_lt_of_le hb (Nat.le_add_right ..)) hlen
  byte_eq block buffer hget offset ho := by
    obtain ⟨hb, rfl⟩ := getElem?_map_range_eq_some.1 hget
    rw [length_column, g.lt_share_iff hb] at ho
    have hword := Nat.lt_of_le_of_lt (Nat.le_trans (Nat.le_of_lt ho) hlen) g.groupCapacity_lt
    exact ⟨_, Word.unplace_eq g.cellSize_pos g.dataBlocks_pos hword, ho, g.getElem?_column hb ..⟩
  within k piece hpiece := by
    rw [getElem?_chunks g.cellSize_pos, Option.ite_none_right_eq_some, Option.some.injEq] at hpiece
    obtain ⟨hk, rfl⟩ := hpiece
    refine ⟨g.cell bytes k, g.column bytes (g.cell bytes k).block, ?_, rfl, ?_, ?_⟩
    · exact Word.cell_eq g (Nat.lt_of_lt_of_le hk hlen) (List.length_take_le ..)
    · exact getElem?_map_range_eq_some.2 ⟨g.cell_block_lt bytes k, rfl⟩
    · rw [length_column]
      exact g.cell_fits hk
  once block buffer hget offset ho := by
    obtain ⟨hb, rfl⟩ := getElem?_map_range_eq_some.1 hget
    rw [length_column, g.lt_share_iff hb] at ho
    refine ⟨_, ⟨_, (copies_iff hlen).2 ⟨?_, rfl⟩, (cell_covers_iff hb ho _).2 rfl⟩, ?_⟩
    · exact Nat.lt_of_le_of_lt (Nat.div_mul_le_self ..) ho
    · rintro k ⟨c, hcopies, hcovers⟩
      obtain ⟨-, rfl⟩ := (copies_iff hlen).1 hcopies
      exact (cell_covers_iff hb ho k).1 hcovers

/-- **Scattering puts every byte at its place and touches nothing else**, in words. It succeeds for
the contents that fit a group, and refuses longer ones as a violation of the layout; the blocks then
have the lengths and the bytes of the layout, every copy stays within its block, and every byte of a
block is written by exactly one. -/
theorem scatter_exact (g : Geometry) (bytes : Bytes) :
    ((∃ blocks, Word.scatter g bytes = .ok blocks) ↔ bytes.length ≤ g.groupCapacity) ∧
    (∀ err, Word.scatter g bytes = .error err →
      err = .layout (.groupTooLong bytes.length g.groupCapacity)) ∧
    ∀ blocks, Word.scatter g bytes = .ok blocks → g.Scattered bytes blocks := by
  rw [Word.scatter_eq]
  by_cases hlen : bytes.length ≤ g.groupCapacity
  · rw [g.scatter_eq_ok hlen]
    refine ⟨iff_of_true ⟨_, rfl⟩ hlen, nofun, ?_⟩
    rintro _ ⟨⟩
    exact scattered_columns hlen
  · rw [g.scatter_eq_error (Nat.lt_of_not_le hlen)]
    refine ⟨iff_of_false (by rintro ⟨_, ⟨⟩⟩) hlen, ?_, nofun⟩
    rintro _ ⟨⟩
    rfl

/-- Five bytes in cells of two: the last cell is short. Nine bytes are refused. -/
theorem scatter_exact_five :
    (Word.scatter small [1, 2, 3, 4, 5] = .ok [[1, 2, 5], [3, 4]] ∧
      small.Scattered [1, 2, 3, 4, 5] [[1, 2, 5], [3, 4]]) ∧
    ∀ err, Word.scatter small [1, 2, 3, 4, 5, 6, 7, 8, 9] = .error err →
      err = .layout (.groupTooLong 9 8) := by
  have hblocks : Word.scatter small [1, 2, 3, 4, 5] = .ok [[1, 2, 5], [3, 4]] := by decide +kernel
  exact ⟨⟨hblocks, (scatter_exact small _).2.2 _ hblocks⟩, (scatter_exact small _).2.1⟩

end Geometry

end Striping
