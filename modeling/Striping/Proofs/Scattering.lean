import Striping.Proofs.Chunks
import Striping.Proofs.Traversal

/-!
# Scattering the bytes of a group

`Geometry.column` says byte by byte what a data block holds: at each offset the byte of the group
that `unplace` names (`Geometry.getElem?_column`). Scattering gives exactly the columns
(`Geometry.scatter_eq_ok`). It writes one cell after the other, so after `k` cells the blocks hold
their final bytes below `k` cells and zeros from there on (`Geometry.filled`); this is what each
step keeps.
-/

namespace Striping

theorem getElem?_overwrite {buffer piece : Bytes} {offset : Nat}
    (h : offset + piece.length ≤ buffer.length) :
    ∃ out, overwrite buffer offset piece = .ok out ∧ ∀ i, out[i]? =
      if offset ≤ i ∧ i < offset + piece.length then piece[i - offset]? else buffer[i]? := by
  refine ⟨_, if_pos h, fun i => ?_⟩
  have hlen : (buffer.take offset).length = offset := by
    rw [List.length_take]
    omega
  rw [List.append_assoc, List.getElem?_append, List.getElem?_append, hlen]
  by_cases h₁ : i < offset
  · rw [if_pos h₁, if_neg (by omega), List.getElem?_take_of_lt h₁]
  · by_cases h₂ : i < offset + piece.length
    · rw [if_neg h₁, if_pos (by omega), if_pos (by omega)]
    · rw [if_neg h₁, if_neg (by omega), if_neg (by omega), List.getElem?_drop]
      congr 1
      omega

/-- The bytes of a cell lie next to each other in its block. -/
theorem place_cell {cellSize dataBlocks t : Nat} (hd : 0 < dataBlocks) (ht : t < cellSize)
    (k : Nat) : place cellSize dataBlocks (k * cellSize + t) =
      ((place cellSize dataBlocks (k * cellSize)).1,
        (place cellSize dataBlocks (k * cellSize)).2 + t) := by
  have hc : 0 < cellSize := by omega
  have hmod : k * cellSize % (cellSize * dataBlocks) = k % dataBlocks * cellSize := by
    rw [Nat.mul_comm k, Nat.mul_mod_mul_left, Nat.mul_comm]
  have hlt : k % dataBlocks * cellSize + t < cellSize * dataBlocks := by
    have := inStripe_lt hc (Nat.mod_lt k hd) t
    rwa [Nat.mod_eq_of_lt ht] at this
  have hsplit : k * cellSize + t = k * cellSize / (cellSize * dataBlocks) *
      (cellSize * dataBlocks) + (k % dataBlocks * cellSize + t) := by
    rw [← Nat.add_assoc, ← hmod, Nat.div_add_mod']
  conv_lhs => rw [hsplit, place, mul_add_div_of_lt _ hlt, Nat.mul_add_mod_of_lt hlt,
    mul_add_div_of_lt _ ht, Nat.mul_add_mod_of_lt ht]
  rw [place, hmod, Nat.mul_div_cancel _ hc, Nat.mul_mod_left, Nat.add_zero]

namespace Geometry

variable (g : Geometry)

/-- What the layout puts into the data block at `index` of a group with this content. -/
def column (bytes : Bytes) (index : Nat) : Bytes :=
  (List.range (g.share bytes.length index)).map fun offset =>
    bytes.getD (unplace g.cellSize g.dataBlocks index offset) 0

@[simp] theorem length_column (bytes : Bytes) (index : Nat) :
    (g.column bytes index).length = g.share bytes.length index := by
  simp [column]

theorem getElem?_column {index : Nat} (hi : index < g.dataBlocks) (bytes : Bytes) (offset : Nat) :
    (g.column bytes index)[offset]? = bytes[unplace g.cellSize g.dataBlocks index offset]? := by
  rw [column, List.getElem?_map]
  by_cases h : offset < g.share bytes.length index
  · have hlt := (g.lt_share_iff hi bytes.length offset).1 h
    simp [h, List.getElem?_eq_getElem hlt]
  · have hle := Nat.le_of_not_lt (mt (g.lt_share_iff hi bytes.length offset).2 h)
    rw [List.getElem?_eq_none hle, List.getElem?_eq_none (by simpa using h)]
    rfl

/-! ## One cell after the other -/

/-- The data block at `index` after `k` cells: bytes of later cells are still zero. -/
def filled (bytes : Bytes) (k index : Nat) : Bytes :=
  (List.range (g.share bytes.length index)).map fun offset =>
    let pos := unplace g.cellSize g.dataBlocks index offset
    if pos < k * g.cellSize then bytes.getD pos 0 else 0

theorem getElem?_filled {index : Nat} (hi : index < g.dataBlocks) (bytes : Bytes)
    (k offset : Nat) : (g.filled bytes k index)[offset]? =
      bytes[unplace g.cellSize g.dataBlocks index offset]?.map fun b =>
        if unplace g.cellSize g.dataBlocks index offset < k * g.cellSize then b else 0 := by
  rw [filled, List.getElem?_map]
  by_cases h : offset < g.share bytes.length index
  · have hlt := (g.lt_share_iff hi bytes.length offset).1 h
    simp [h, List.getElem?_eq_getElem hlt]
  · have hle := Nat.le_of_not_lt (mt (g.lt_share_iff hi bytes.length offset).2 h)
    rw [List.getElem?_eq_none hle, List.getElem?_eq_none (by simpa using h)]
    rfl

theorem filled_zero (bytes : Bytes) : g.blank bytes.length =
    (List.range g.dataBlocks).map (g.filled bytes 0) := by
  apply List.map_congr_left
  intro i _
  simp [filled, List.map_const']

theorem filled_of_le {bytes : Bytes} {k index : Nat} (hi : index < g.dataBlocks)
    (h : bytes.length ≤ k * g.cellSize) : g.filled bytes k index = g.column bytes index := by
  ext offset : 1
  rw [g.getElem?_filled hi, g.getElem?_column hi]
  by_cases hp : unplace g.cellSize g.dataBlocks index offset < bytes.length
  · rw [List.getElem?_eq_getElem hp, Option.map_some, if_pos (Nat.lt_of_lt_of_le hp h)]
  · rw [List.getElem?_eq_none (Nat.le_of_not_lt hp), Option.map_none]

/-- The cell of number `k` of a group with this content. -/
def cell (bytes : Bytes) (k : Nat) : Cell where
  block := (place g.cellSize g.dataBlocks (k * g.cellSize)).1
  offset := (place g.cellSize g.dataBlocks (k * g.cellSize)).2
  bytes := (bytes.drop (k * g.cellSize)).take g.cellSize

theorem lt_cellCount_iff (length k : Nat) : k < g.cellCount length ↔ k * g.cellSize < length :=
  lt_ceil_iff g.cellSize_pos k length

theorem length_le_cellCount_mul (length : Nat) : length ≤ g.cellCount length * g.cellSize :=
  Nat.le_of_not_lt fun h => Nat.lt_irrefl _ ((g.lt_cellCount_iff length _).2 h)

theorem cells_eq_map (bytes : Bytes) :
    g.cells bytes = (List.range (g.cellCount bytes.length)).map (g.cell bytes) := by
  rw [cells, chunks_eq_map g.cellSize_pos (g.lt_cellCount_iff bytes.length), zipIdx_map_range,
    List.map_map]
  rfl

/-- The byte `t` of cell `k` lies in the cell's block, `t` behind the cell's start. -/
theorem unplace_eq_iff {index t : Nat} (hi : index < g.dataBlocks) (ht : t < g.cellSize)
    (offset k : Nat) : unplace g.cellSize g.dataBlocks index offset = k * g.cellSize + t ↔
      index = (place g.cellSize g.dataBlocks (k * g.cellSize)).1 ∧
        offset = (place g.cellSize g.dataBlocks (k * g.cellSize)).2 + t := by
  have hcell := place_cell g.dataBlocks_pos ht k
  constructor
  · intro h
    have hp := place_unplace g.cellSize_pos hi offset
    rw [h, hcell] at hp
    exact ⟨(congrArg Prod.fst hp).symm, (congrArg Prod.snd hp).symm⟩
  · rintro ⟨rfl, rfl⟩
    have hu : unplace g.cellSize g.dataBlocks
        (place g.cellSize g.dataBlocks (k * g.cellSize + t)).1
        (place g.cellSize g.dataBlocks (k * g.cellSize + t)).2 = k * g.cellSize + t :=
      unplace_place g.cellSize_pos _
    rwa [hcell] at hu

/-- A cell changes no byte but its own. -/
theorem getElem?_filled_succ {bytes : Bytes} {k index offset : Nat} (hi : index < g.dataBlocks)
    (h : ∀ t < g.cellSize, k * g.cellSize + t < bytes.length →
      unplace g.cellSize g.dataBlocks index offset ≠ k * g.cellSize + t) :
    (g.filled bytes (k + 1) index)[offset]? = (g.filled bytes k index)[offset]? := by
  rw [g.getElem?_filled hi, g.getElem?_filled hi]
  rcases Nat.lt_or_ge (unplace g.cellSize g.dataBlocks index offset) bytes.length with hp | hp
  · congr 1
    funext b
    refine if_congr ?_ rfl rfl
    have := h (unplace g.cellSize g.dataBlocks index offset - k * g.cellSize)
    rw [Nat.add_mul, Nat.one_mul]
    omega
  · rw [List.getElem?_eq_none hp]
    rfl

theorem length_cell_bytes (bytes : Bytes) (k : Nat) :
    (g.cell bytes k).bytes.length = min g.cellSize (bytes.length - k * g.cellSize) := by
  simp [cell]

theorem cell_block_lt (bytes : Bytes) (k : Nat) : (g.cell bytes k).block < g.dataBlocks :=
  place_fst_lt g.cellSize_pos g.dataBlocks_pos _

theorem unplace_cell (bytes : Bytes) (k : Nat) {t : Nat} (ht : t < g.cellSize) :
    unplace g.cellSize g.dataBlocks (g.cell bytes k).block ((g.cell bytes k).offset + t) =
      k * g.cellSize + t :=
  (g.unplace_eq_iff (g.cell_block_lt bytes k) ht _ k).2 ⟨rfl, rfl⟩

/-- **A cell ends within its block**: its last byte is still below the length of the block. -/
theorem cell_fits {bytes : Bytes} {k : Nat} (hk : k * g.cellSize < bytes.length) :
    (g.cell bytes k).offset + (g.cell bytes k).bytes.length ≤
      g.share bytes.length (g.cell bytes k).block := by
  have hlen := g.length_cell_bytes bytes k
  have hc := g.cellSize_pos
  have hlast := (g.lt_share_iff (g.cell_block_lt bytes k) bytes.length
    ((g.cell bytes k).offset + ((g.cell bytes k).bytes.length - 1))).2 (by
      rw [g.unplace_cell bytes k (by omega)]
      omega)
  omega

theorem overwrite_cell {bytes : Bytes} {k : Nat} (hk : k * g.cellSize < bytes.length) :
    overwrite (g.filled bytes k (g.cell bytes k).block) (g.cell bytes k).offset
      (g.cell bytes k).bytes = .ok (g.filled bytes (k + 1) (g.cell bytes k).block) := by
  have hlen := g.length_cell_bytes bytes k
  have hb := g.cell_block_lt bytes k
  have hfit : (g.cell bytes k).offset + (g.cell bytes k).bytes.length ≤
      (g.filled bytes k (g.cell bytes k).block).length := by
    rw [filled, List.length_map, List.length_range]
    exact g.cell_fits hk
  obtain ⟨out, hout, hget⟩ := getElem?_overwrite hfit
  rw [hout]
  congr 1
  ext i : 1
  rw [hget]
  split
  · obtain ⟨t, rfl⟩ : ∃ t, i = (g.cell bytes k).offset + t :=
      ⟨i - (g.cell bytes k).offset, by omega⟩
    have ht : t < g.cellSize := by omega
    have hpos : k * g.cellSize + t < bytes.length := by omega
    rw [g.getElem?_filled hb, g.unplace_cell bytes k ht, Nat.add_sub_cancel_left,
      List.getElem?_eq_getElem hpos, Option.map_some, if_pos (by rw [Nat.add_mul]; omega)]
    simp only [cell]
    rw [List.getElem?_take_of_lt ht, List.getElem?_drop, List.getElem?_eq_getElem hpos]
  · refine (g.getElem?_filled_succ hb fun t ht hpos heq => ?_).symm
    have hi := ((g.unplace_eq_iff hb ht i k).1 heq).2
    change i = (g.cell bytes k).offset + t at hi
    omega

theorem write_cell {bytes : Bytes} {k : Nat} (hk : k * g.cellSize < bytes.length) :
    (g.cell bytes k).write ((List.range g.dataBlocks).map (g.filled bytes k)) =
      .ok ((List.range g.dataBlocks).map (g.filled bytes (k + 1))) := by
  have hb := g.cell_block_lt bytes k
  have hget : ((List.range g.dataBlocks).map (g.filled bytes k))[(g.cell bytes k).block]? =
      some (g.filled bytes k (g.cell bytes k).block) := by simp [hb]
  rw [Cell.write, hget]
  simp only [g.overwrite_cell hk]
  congr 1
  ext i : 1
  rw [List.getElem?_set]
  split
  · next h =>
    subst h
    simp [hb]
  · next h =>
    by_cases hi : i < g.dataBlocks
    · simp only [List.getElem?_map, List.getElem?_range hi, Option.map_some]
      congr 1
      ext offset : 1
      refine (g.getElem?_filled_succ hi fun t ht _ heq => h ?_).symm
      exact ((g.unplace_eq_iff hi ht offset k).1 heq).1.symm
    · simp [hi]

theorem writeCells_cells {bytes : Bytes} (m k : Nat)
    (h : ∀ j < k + m, j * g.cellSize < bytes.length) :
    writeCells ((List.range' k m).map (g.cell bytes))
        ((List.range g.dataBlocks).map (g.filled bytes k)) =
      .ok ((List.range g.dataBlocks).map (g.filled bytes (k + m))) := by
  induction m generalizing k with
  | zero => rfl
  | succ m ih =>
    rw [List.range'_succ, List.map_cons, writeCells, g.write_cell (h k (by omega))]
    rw [show k + (m + 1) = k + 1 + m by omega] at h ⊢
    exact ih (k + 1) h

/-- **Scattering puts into each data block what the layout says.** -/
theorem scatter_eq_ok {bytes : Bytes} (h : bytes.length ≤ g.groupCapacity) :
    g.scatter bytes = .ok ((List.range g.dataBlocks).map (g.column bytes)) := by
  have hcount := g.lt_cellCount_iff bytes.length
  have hin : ∀ j < 0 + g.cellCount bytes.length, j * g.cellSize < bytes.length := fun j hj =>
    (hcount j).1 (by omega)
  have hrun := g.writeCells_cells (g.cellCount bytes.length) 0 hin
  rw [← List.range_eq_range', Nat.zero_add] at hrun
  rw [scatter, if_neg (Nat.not_lt_of_le h), g.cells_eq_map, g.filled_zero, hrun]
  exact congrArg Except.ok (List.map_congr_left fun i hi =>
    g.filled_of_le (List.mem_range.1 hi) (g.length_le_cellCount_mul _))

theorem scatter_eq_error {bytes : Bytes} (h : g.groupCapacity < bytes.length) :
    g.scatter bytes = .error (.layout (.groupTooLong bytes.length g.groupCapacity)) :=
  if_pos h

/-! ## All groups of a file -/

/-- The bytes that group `group` holds of a file with this content. -/
def groupBytes (content : Bytes) (group : Nat) : Bytes :=
  (content.drop (group * g.groupCapacity)).take g.groupCapacity

@[simp] theorem length_groupBytes (content : Bytes) (group : Nat) :
    (g.groupBytes content group).length = g.groupLength content.length group := by
  rw [groupBytes, List.length_take, List.length_drop, groupLength, Nat.min_comm]

theorem chunks_eq_groupBytes (content : Bytes) : chunks g.groupCapacity content =
    (List.range (g.groupCount content.length)).map (g.groupBytes content) :=
  chunks_eq_map g.groupCapacity_pos (g.lt_groupCount_iff content.length)

/-- The bytes of the first groups are those of the file, if no byte lies behind these groups. -/
theorem flatten_groupBytes {content : Bytes} {n : Nat} (h : content.length ≤ n * g.groupCapacity) :
    ((List.range n).map (g.groupBytes content)).flatten = content :=
  (flatten_map_range ..).trans (List.take_of_length_le h)

/-- The data blocks of each group of a file, as the layout has them. -/
def columns (content : Bytes) (group : Nat) : List Bytes :=
  (List.range g.dataBlocks).map (g.column (g.groupBytes content group))

/-- The data blocks of a group hold its bytes. -/
theorem sum_length_columns (content : Bytes) (group : Nat) :
    ((g.columns content group).map List.length).sum = g.groupLength content.length group := by
  simp only [columns, List.map_map, Function.comp_def, length_column, length_groupBytes]
  exact g.sum_share _

theorem scatterFile_eq_ok (content : Bytes) : g.scatterFile content =
    .ok ((List.range (g.groupCount content.length)).map (g.columns content)) := by
  rw [scatterFile, g.chunks_eq_groupBytes, List.mapM_map]
  refine mapM_eq_ok fun group _ => g.scatter_eq_ok ?_
  rw [g.length_groupBytes]
  exact g.groupLength_le ..

end Geometry

end Striping
