import Striping.Proofs.Scattering
import Striping.Proofs.Words.Layout
import Striping.Stripe.Words

/-!
# Scattering and gathering in words are exact

Scattering in words copies the same cells to the same places (`Word.scatter_eq`). Gathering in words
reads runs; each starts where a cell does, so the runs are the cells (`Word.gather_eq`). Both answer
what their exact versions do for all content, buffers and lengths, errors included.

With memory reserved for them, bytes are gathered in the same way if there can be so much of it
(`Word.assemble_eq`). Otherwise a length that the layout has room for is a fault
(`Word.assemble_of_large`).
-/

namespace Striping

namespace Geometry

variable (g : Geometry)

/-- A cell that starts within a group ends within it. -/
theorem cell_le_groupCapacity {k : Nat} (h : k * g.cellSize < g.groupCapacity) :
    k * g.cellSize + g.cellSize ≤ g.groupCapacity := by
  have hcap : g.groupCapacity = g.stripesPerBlock * g.dataBlocks * g.cellSize := by
    rw [g.groupCapacity_eq, stripeCapacity, Nat.mul_comm g.cellSize, Nat.mul_assoc]
  rw [hcap] at h ⊢
  rw [← Nat.succ_mul]
  exact Nat.mul_le_mul_right _ (Nat.lt_of_mul_lt_mul_right h)

/-- A cell that starts within a group ends within its block. -/
theorem place_add_cellSize_le {k : Nat} (h : k * g.cellSize < g.groupCapacity) :
    (place g.cellSize g.dataBlocks (k * g.cellSize)).2 + g.cellSize ≤ g.blockCapacity := by
  have hc := g.cellSize_pos
  have hend := g.cell_le_groupCapacity h
  have hlt : k * g.cellSize + (g.cellSize - 1) < g.groupCapacity := by omega
  have hlast := place_snd_lt g hlt
  rw [place_cell g.dataBlocks_pos (by omega)] at hlast
  dsimp only at hlast
  omega

/-- A cell starts at a multiple of the cell size in its block. -/
theorem place_mod_cellSize (k : Nat) :
    (place g.cellSize g.dataBlocks (k * g.cellSize)).2 % g.cellSize = 0 := by
  simp only [place]
  rw [Nat.mul_comm k, Nat.mul_mod_mul_left]
  simp

/-- The cell of number `k`, with this content. -/
def cellOf (k : Nat) (bytes : Bytes) : Cell where
  block := (place g.cellSize g.dataBlocks (k * g.cellSize)).1
  offset := (place g.cellSize g.dataBlocks (k * g.cellSize)).2
  bytes

end Geometry

namespace Word

variable (g : Geometry)

/-! ## Scattering -/

theorem blank_eq_ok {length : Nat} (h : length ≤ g.groupCapacity) :
    blank g length = .ok (g.blank length) := by
  apply mapM_eq_ok
  intro i hi
  have hwidth : i < g.width := Nat.lt_of_lt_of_le (List.mem_range.1 hi) (Nat.le_add_right ..)
  rw [blockLength_eq, g.blockLength_eq_ok hwidth h]
  rfl

theorem blank_eq_error {length : Nat} (h : g.groupCapacity < length) :
    blank g length = .error (.layout (.groupTooLong length g.groupCapacity)) := by
  obtain ⟨d, hd⟩ := Nat.exists_eq_add_one_of_ne_zero (Nat.ne_of_gt g.dataBlocks_pos)
  rw [blank, hd, List.range_succ_eq_map]
  apply mapM_cons_error
  have hwidth : 0 < g.width := Nat.lt_of_lt_of_le g.dataBlocks_pos (Nat.le_add_right ..)
  rw [blockLength_eq, Geometry.blockLength, Geometry.checkIndex, if_pos hwidth]
  simp only [h, if_true]
  rfl

theorem cell_eq {k : Nat} {bytes : Bytes} (hk : k * g.cellSize < g.groupCapacity)
    (hbytes : bytes.length ≤ g.cellSize) : cell g k bytes = .ok (g.cellOf k bytes) := by
  have hcap := g.groupCapacity_lt
  have hblock := g.blockCapacity_lt
  have hend := g.place_add_cellSize_le hk
  simp (disch := omega) only [cell, bind, Except.bind, mul_eq_ok, place_eq_of_lt, add_eq_ok]
  rfl

theorem writePieces_eq {pieces : List Bytes} {k : Nat}
    (hpieces : ∀ piece ∈ pieces, piece.length ≤ g.cellSize)
    (hk : ∀ j < k + pieces.length, j * g.cellSize < g.groupCapacity) (blocks : List Bytes) :
    writePieces g k pieces blocks =
      writeCells ((pieces.zipIdx k).map fun (piece, k) => g.cellOf k piece) blocks := by
  induction pieces generalizing k blocks with
  | nil => rfl
  | cons piece rest ih =>
    rw [List.length_cons] at hk
    rw [writePieces, cell_eq g (hk k (by omega)) (hpieces piece (.head _)), List.zipIdx_cons,
      List.map_cons, writeCells]
    dsimp only
    cases (g.cellOf k piece).write blocks with
    | error fault => rfl
    | ok blocks =>
      exact ih (fun piece hpiece => hpieces piece (.tail _ hpiece))
        (fun j hj => hk j (by omega)) blocks

/-- **Scattering in words is exact.** -/
theorem scatter_eq (bytes : Bytes) : scatter g bytes = g.scatter bytes := by
  have hpieces := chunks_eq_map g.cellSize_pos (g.lt_cellCount_iff bytes.length)
  rw [scatter, Geometry.scatter]
  by_cases h : g.groupCapacity < bytes.length
  · rw [blank_eq_error g h, if_pos h]
  · rw [blank_eq_ok g (Nat.le_of_not_lt h), if_neg h]
    dsimp only
    rw [writePieces_eq]
    · rfl
    · intro piece hpiece
      rw [hpieces, List.mem_map] at hpiece
      obtain ⟨k, -, rfl⟩ := hpiece
      exact List.length_take_le ..
    · intro j hj
      rw [hpieces, List.length_map, List.length_range, Nat.zero_add, g.lt_cellCount_iff] at hj
      omega

/-- **Scattering a file in words is exact.** -/
theorem scatterFile_eq (bytes : Bytes) : scatterFile g bytes = g.scatterFile bytes := by
  rw [scatterFile, groupCapacity_eq, Geometry.scatterFile, funext (scatter_eq g)]

/-! ## Gathering -/

/-- A run that starts where a cell does is what is read of the cell. -/
theorem slice_eq (b : Buffers) (length : Nat) {k : Nat} (hk : k * g.cellSize < g.groupCapacity) :
    slice b (Striping.place g.cellSize g.dataBlocks (k * g.cellSize)).1
      (Striping.place g.cellSize g.dataBlocks (k * g.cellSize)).2
      (min g.cellSize (length - k * g.cellSize)) = g.gatherCell b length k := by
  have hblock := g.blockCapacity_lt
  have hend := g.place_add_cellSize_le hk
  have hadd : add (Striping.place g.cellSize g.dataBlocks (k * g.cellSize)).2
      (min g.cellSize (length - k * g.cellSize)) = .ok _ := add_eq_ok (by omega)
  unfold slice
  rw [hadd]
  rfl

theorem gatherFrom_eq {b : Buffers} {length : Nat} (hlen : length ≤ g.groupCapacity) (n k : Nat)
    (h : k + n = g.cellCount length) :
    gatherFrom g b length (min (k * g.cellSize) length) =
      match (List.range' k n).mapM (g.gatherCell b length) with
      | .error e => .error e
      | .ok pieces => .ok pieces.flatten := by
  induction n generalizing k with
  | zero =>
    have hend : ¬ k * g.cellSize < length := by
      rw [← g.lt_cellCount_iff]
      omega
    rw [gatherFrom, dif_neg (by omega)]
    rfl
  | succ n ih =>
    have hk : k * g.cellSize < length := (g.lt_cellCount_iff length k).1 (by omega)
    have hcap := g.groupCapacity_lt
    rw [Nat.min_eq_left (Nat.le_of_lt hk), gatherFrom, dif_pos hk,
      place_eq_of_lt g (by omega), List.range'_succ]
    dsimp only
    have hrun := run_eq g (Striping.place g.cellSize g.dataBlocks (k * g.cellSize)).2 hk
    rw [g.place_mod_cellSize, Nat.sub_zero] at hrun
    split
    · next hfault => simp [hrun] at hfault
    · next m hm =>
      rw [hrun, Except.ok.injEq] at hm
      subst hm
      rw [slice_eq g b length (by omega)]
      cases hcell : g.gatherCell b length k with
      | error e => rw [mapM_cons_error hcell]
      | ok piece =>
        have hnext : k * g.cellSize + min g.cellSize (length - k * g.cellSize) =
            min ((k + 1) * g.cellSize) length := by
          rw [Nat.add_mul, Nat.one_mul]
          omega
        rw [mapM_cons_ok hcell, hnext, ih (k + 1) (by omega)]
        cases (List.range' (k + 1) n).mapM (g.gatherCell b length) <;> rfl

/-- **Gathering in words is exact.** -/
theorem gather_eq (b : Buffers) (length : Nat) : gather g b length = g.gather b length := by
  rw [gather, groupCapacity_eq, Geometry.gather]
  dsimp only
  split
  · rfl
  · next h =>
    have hall := gatherFrom_eq g (b := b) (Nat.le_of_not_lt h) (g.cellCount length) 0
      (Nat.zero_add _)
    rwa [Nat.zero_mul, Nat.zero_min, ← List.range_eq_range'] at hall

/-- **Reserving memory changes nothing** for a length that memory has room for, or that the layout
refuses before. -/
theorem assemble_eq (b : Buffers) {length : Nat}
    (h : length ≤ Bytes.maxLength ∨ g.groupCapacity < length) :
    assemble g b length = g.gather b length := by
  rw [← gather_eq, assemble, gather, groupCapacity_eq]
  dsimp only
  split
  · rfl
  · next hcap => rw [reserve_eq_ok (h.resolve_right hcap)]

/-- **A length beyond memory is a fault**, whatever the buffers hold. -/
theorem assemble_of_large (b : Buffers) {length : Nat} (h : Bytes.maxLength < length)
    (hcap : length ≤ g.groupCapacity) : assemble g b length = .error (.fault .capacity) := by
  rw [assemble, groupCapacity_eq]
  dsimp only
  rw [if_neg (Nat.not_lt_of_le hcap), reserve_eq_error h]

/-- There is a layout that has room for one byte more than memory takes. -/
theorem assemble_huge (b : Buffers) :
    assemble .huge b 9223372036854775808 = .error (.fault .capacity) :=
  assemble_of_large .huge b (by decide) (by decide)

end Word

end Striping
