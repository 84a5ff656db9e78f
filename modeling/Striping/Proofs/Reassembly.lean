import Striping.Proofs.Gathering
import Striping.Proofs.Words.Stripe

/-!
# Scattering and gathering undo each other

The data blocks of a file's groups give back its bytes (`Geometry.gather_groups`). The other way
round, any blocks as long as the layout has them are the blocks of the bytes that are gathered from
them (`Geometry.gather_gathered`, `Geometry.scatter_gathered`), so no content of the blocks is lost
either. Both hold for the loops in words (`Geometry.scatter_inverse`).
-/

namespace Striping.Geometry

variable (g : Geometry)

/-! ## From a file to its blocks and back -/

/-- The blocks of each group give back its bytes. -/
theorem gather_columns_groupBytes (content : Bytes) (group : Nat) :
    g.gather (.ofData group (g.columns content group)) (g.groupLength content.length group) =
      .ok (g.groupBytes content group) := by
  have hlen := g.length_groupBytes content group
  have hcap : (g.groupBytes content group).length ≤ g.groupCapacity := by
    rw [hlen]
    exact g.groupLength_le ..
  have hdata : (Buffers.ofData group (g.columns content group)).data =
      (List.range g.dataBlocks).map fun i => some (g.column (g.groupBytes content group) i) := by
    simp [Buffers.ofData, columns]
  have hgather := g.gather_columns hdata hcap (Nat.le_refl _)
  rwa [List.take_length, hlen] at hgather

/-- **The blocks of all groups give back the file.** -/
theorem gather_groups (content : Bytes) :
    ((List.range (g.groupCount content.length)).map (g.columns content)).zipIdx.mapM
        (fun (blocks, group) => g.gather (.ofData group blocks)
          (g.groupLength content.length group)) =
      .ok ((List.range (g.groupCount content.length)).map (g.groupBytes content)) := by
  rw [zipIdx_map_range, List.mapM_map]
  exact mapM_eq_ok fun group _ => g.gather_columns_groupBytes content group

/-! ## From blocks to their bytes and back -/

/-- The byte of the blocks at each of the first offsets of a group. -/
def gathered (blocks : List Bytes) (length : Nat) : Bytes :=
  (List.range length).map fun pos =>
    (blocks.getD (place g.cellSize g.dataBlocks pos).1 []).getD
      (place g.cellSize g.dataBlocks pos).2 0

@[simp] theorem length_gathered (blocks : List Bytes) (length : Nat) :
    (g.gathered blocks length).length = length := by
  simp [gathered]

/-- The blocks are those of a group of `length` bytes, by their number and lengths. -/
structure Shaped (length : Nat) (blocks : List Bytes) : Prop where
  length_le : length ≤ g.groupCapacity
  count_eq : blocks.length = g.dataBlocks
  share_eq : ∀ i block, blocks[i]? = some block → block.length = g.share length i

variable {g} {length : Nat} {blocks : List Bytes}

theorem Shaped.getElem? (h : g.Shaped length blocks) {i : Nat} (hi : i < g.dataBlocks) :
    blocks[i]? = some (blocks.getD i []) := by
  rw [List.getD_eq_getElem?_getD, List.getElem?_eq_getElem (h.count_eq ▸ hi), Option.getD_some]

theorem Shaped.length_getD (h : g.Shaped length blocks) {i : Nat} (hi : i < g.dataBlocks) :
    (blocks.getD i []).length = g.share length i :=
  h.share_eq i _ (h.getElem? hi)

/-- Every offset of the group is read from the block that holds it. -/
theorem Shaped.getElem?_gathered (h : g.Shaped length blocks) {pos : Nat} (hpos : pos < length) :
    (g.gathered blocks length)[pos]? =
      (blocks.getD (place g.cellSize g.dataBlocks pos).1 [])[
        (place g.cellSize g.dataBlocks pos).2]? := by
  have hblock := place_fst_lt g.cellSize_pos g.dataBlocks_pos pos
  have hoffset : (place g.cellSize g.dataBlocks pos).2 <
      (blocks.getD (place g.cellSize g.dataBlocks pos).1 []).length := by
    rw [h.length_getD hblock, g.lt_share_iff hblock, unplace_place g.cellSize_pos]
    exact hpos
  rw [gathered, List.getElem?_map, List.getElem?_range hpos, Option.map_some,
    List.getElem?_eq_getElem hoffset, List.getD_eq_getElem _ _ hoffset]

/-- **Blocks of the right lengths are gathered.** -/
theorem gather_gathered (h : g.Shaped length blocks) {b : Buffers}
    (hb : b.data = blocks.map some) : g.gather b length = .ok (g.gathered blocks length) := by
  have hlen := g.length_gathered blocks length
  have hgather : g.gather b (g.gathered blocks length).length = .ok (g.gathered blocks length) := by
    apply g.gather_eq_ok (hlen.symm ▸ h.length_le)
    intro pos hpos
    rw [hlen] at hpos
    have hblock := place_fst_lt g.cellSize_pos g.dataBlocks_pos pos
    refine ⟨blocks.getD (place g.cellSize g.dataBlocks pos).1 [], ?_, ?_⟩
    · rw [hb, List.getElem?_map, h.getElem? hblock, Option.map_some]
    · rw [h.getElem?_gathered hpos]
  rwa [hlen] at hgather

/-- The blocks are the columns of the bytes that are gathered from them. -/
theorem column_gathered (h : g.Shaped length blocks) {i : Nat} (hi : i < g.dataBlocks) :
    g.column (g.gathered blocks length) i = blocks.getD i [] := by
  ext offset : 1
  rw [g.getElem?_column hi]
  by_cases hlt : unplace g.cellSize g.dataBlocks i offset < length
  · rw [h.getElem?_gathered hlt, place_unplace g.cellSize_pos hi]
  · rw [List.getElem?_eq_none (by rw [length_gathered]; omega), List.getElem?_eq_none]
    rw [h.length_getD hi]
    exact Nat.le_of_not_lt (mt (g.lt_share_iff hi length offset).1 hlt)

/-- **Blocks of the right lengths are scattered from what is gathered.** -/
theorem scatter_gathered (h : g.Shaped length blocks) :
    g.scatter (g.gathered blocks length) = .ok blocks := by
  rw [g.scatter_eq_ok (by rw [length_gathered]; exact h.length_le)]
  congr 1
  ext i : 1
  rw [List.getElem?_map]
  by_cases hi : i < g.dataBlocks
  · rw [List.getElem?_range hi, Option.map_some, column_gathered h hi, h.getElem? hi]
  · rw [List.getElem?_eq_none (by simpa using hi), Option.map_none,
      List.getElem?_eq_none (by rw [h.count_eq]; omega)]

/-! ## In words -/

/-- **Scattering and gathering undo each other.** The blocks of the groups of any file give back the
file, one group after the other. Any full blocks that are as long as those of a group of `length`
bytes give `length` bytes, and these are scattered into the same blocks. -/
theorem scatter_inverse (g : Geometry) :
    (∀ content, ∃ groups pieces, g.scatterFile content = .ok groups ∧
      (groups.zipIdx.mapM fun (blocks, group) => Word.gather g (.ofData group blocks)
        (g.groupLength content.length group)) = .ok pieces ∧ pieces.flatten = content) ∧
    ∀ length blocks, length ≤ g.groupCapacity → blocks.length = g.dataBlocks →
      (∀ i block, blocks[i]? = some block → Word.blockLength g length i = .ok block.length) →
      ∀ b : Buffers, b.data = blocks.map some → ∃ bytes, Word.gather g b length = .ok bytes ∧
        bytes.length = length ∧ Word.scatter g bytes = .ok blocks := by
  simp only [Word.gather_eq, Word.scatter_eq, Word.blockLength_eq]
  constructor
  · intro content
    exact ⟨_, _, g.scatterFile_eq_ok content, g.gather_groups content,
      g.flatten_groupBytes (g.length_le_groupCount_mul _)⟩
  · intro length blocks hlen hcount hlengths b hb
    have hshaped : g.Shaped length blocks := by
      refine ⟨hlen, hcount, fun i block hget => ?_⟩
      have hi := (List.getElem?_eq_some_iff.1 hget).1
      have hlength := hlengths i block hget
      rw [g.blockLength_eq_ok (Nat.lt_of_lt_of_le (hcount ▸ hi) (Nat.le_add_right ..)) hlen,
        Except.ok.injEq] at hlength
      exact hlength.symm
    exact ⟨_, gather_gathered hshaped hb, g.length_gathered .., scatter_gathered hshaped⟩

/-- Two blocks whose last cell is short, and a file that fills a group and begins another. -/
theorem scatter_inverse_short :
    let blocks : List Bytes := [[1, 2, 5], [3, 4]]
    (∃ groups pieces, small.scatterFile [1, 2, 3, 4, 5, 6, 7, 8, 9] = .ok groups ∧
      (groups.zipIdx.mapM fun (blocks, group) => Word.gather small (.ofData group blocks)
        (small.groupLength 9 group)) = .ok pieces ∧
          pieces.flatten = [1, 2, 3, 4, 5, 6, 7, 8, 9]) ∧
    (∀ i block, blocks[i]? = some block → Word.blockLength small 5 i = .ok block.length) ∧
    ∃ bytes, Word.gather small (.ofData 0 blocks) 5 = .ok bytes ∧ bytes.length = 5 ∧
      Word.scatter small bytes = .ok blocks := by
  intro blocks
  obtain ⟨hfile, hblocks⟩ := scatter_inverse small
  have hlengths : ∀ i block, blocks[i]? = some block →
      Word.blockLength small 5 i = .ok block.length := by
    rintro (_ | _ | i) block h
    · cases h
      decide
    · cases h
      decide
    · cases h
  exact ⟨hfile _, hlengths, hblocks 5 blocks (by decide) rfl hlengths _ rfl⟩

end Striping.Geometry
