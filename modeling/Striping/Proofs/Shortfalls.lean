import Striping.Proofs.Gathering

/-!
# Gathering from incomplete buffers

Buffers hold a byte of their group if its block is there and reaches it (`Buffers.Holds`). Gathering
succeeds exactly if all bytes are held. Otherwise it fails at the first byte that is not
(`Geometry.gather_cases`), and the error tells a block that is missing from one that is too short
(`Geometry.Shortfall`). Both follow from what happens in one cell (`Geometry.gatherCell_cases`),
because the bytes of a cell come from one block.
-/

namespace Striping

/-- The buffers hold the byte at offset `pos` of their group. -/
def Buffers.Holds (b : Buffers) (g : Geometry) (pos : Nat) : Prop :=
  ∃ content, b.data[(place g.cellSize g.dataBlocks pos).1]? = some (some content) ∧
    (place g.cellSize g.dataBlocks pos).2 < content.length

namespace Geometry

variable (g : Geometry)

/-- Where the first `length` bytes of a group end in the block that holds the cell of number `k`, as
far as the cell goes. -/
def cellStop (length k : Nat) : Nat :=
  (place g.cellSize g.dataBlocks (k * g.cellSize)).2 + min g.cellSize (length - k * g.cellSize)

/-- Why the byte at `pos` is not held, as gathering `length` bytes reports it: its block is missing,
or ends at or before the byte. -/
inductive Shortfall (b : Buffers) (length pos : Nat) : Error → Prop
  | missing (h : ∀ content,
      b.data[(place g.cellSize g.dataBlocks pos).1]? ≠ some (some content)) :
    Shortfall b length pos
      (.layout (.missingBlock b.group (place g.cellSize g.dataBlocks pos).1))
  | short (content : Bytes)
      (h : b.data[(place g.cellSize g.dataBlocks pos).1]? = some (some content))
      (hle : content.length ≤ (place g.cellSize g.dataBlocks pos).2) :
    Shortfall b length pos (.length (g.cellStop length (pos / g.cellSize)) content.length)

variable {g} {b : Buffers} {length k : Nat}

theorem gatherCell_of_missing (h : ∀ content,
    b.data[(place g.cellSize g.dataBlocks (k * g.cellSize)).1]? ≠ some (some content)) :
    g.gatherCell b length k = .error (.layout
      (.missingBlock b.group (place g.cellSize g.dataBlocks (k * g.cellSize)).1)) := by
  -- by `h` the first case of the match does not apply
  simp only [gatherCell]

theorem gatherCell_of_present (length : Nat) {content : Bytes}
    (h : b.data[(place g.cellSize g.dataBlocks (k * g.cellSize)).1]? = some (some content)) :
    g.gatherCell b length k =
      if g.cellStop length k ≤ content.length then
        .ok ((content.drop (place g.cellSize g.dataBlocks (k * g.cellSize)).2).take
          (min g.cellSize (length - k * g.cellSize)))
      else .error (.length (g.cellStop length k) content.length) := by
  simp only [gatherCell, h]
  rfl

/-- The bytes of a cell are held by one block, one after the other. -/
theorem holds_cell_iff {t : Nat} (ht : t < g.cellSize) : b.Holds g (k * g.cellSize + t) ↔
    ∃ content, b.data[(place g.cellSize g.dataBlocks (k * g.cellSize)).1]? =
      some (some content) ∧
        (place g.cellSize g.dataBlocks (k * g.cellSize)).2 + t < content.length := by
  rw [Buffers.Holds, place_cell g.dataBlocks_pos ht]

/-- **A cell is read if its bytes are held**, else the first one that is not is reported. -/
theorem gatherCell_cases (hk : k * g.cellSize < length) :
    ((∃ piece, g.gatherCell b length k = .ok piece) ∧
      ∀ t < g.cellSize, k * g.cellSize + t < length → b.Holds g (k * g.cellSize + t)) ∨
    ∃ t < g.cellSize, k * g.cellSize + t < length ∧ ¬ b.Holds g (k * g.cellSize + t) ∧
      (∀ t' < t, b.Holds g (k * g.cellSize + t')) ∧
        ∃ err, g.gatherCell b length k = .error err ∧
          g.Shortfall b length (k * g.cellSize + t) err := by
  have hc := g.cellSize_pos
  by_cases hpresent : ∃ content, b.data[(place g.cellSize g.dataBlocks (k * g.cellSize)).1]? =
      some (some content)
  · obtain ⟨content, hcontent⟩ := hpresent
    have hholds : ∀ t < g.cellSize, b.Holds g (k * g.cellSize + t) ↔
        (place g.cellSize g.dataBlocks (k * g.cellSize)).2 + t < content.length := by
      intro t ht
      rw [holds_cell_iff ht, hcontent]
      simp
    have hcell := gatherCell_of_present length hcontent
    by_cases hfit : g.cellStop length k ≤ content.length
    · refine .inl ⟨⟨_, hcell.trans (if_pos hfit)⟩, fun t ht hlen => (hholds t ht).2 ?_⟩
      rw [cellStop] at hfit
      omega
    · -- the first byte behind the block
      obtain ⟨t, ht⟩ : ∃ t, t = content.length -
        (place g.cellSize g.dataBlocks (k * g.cellSize)).2 := ⟨_, rfl⟩
      have hstop := hfit
      rw [cellStop] at hstop
      have htc : t < g.cellSize := by omega
      have hplace := place_cell g.dataBlocks_pos htc k
      refine .inr ⟨t, htc, by omega, ?_, fun t' ht' => ?_, _, hcell.trans (if_neg hfit), ?_⟩
      · rw [hholds t htc]
        omega
      · rw [hholds t' (by omega)]
        omega
      · have hshort : g.Shortfall b length (k * g.cellSize + t)
            (.length (g.cellStop length ((k * g.cellSize + t) / g.cellSize)) content.length) :=
          .short content (by rw [hplace, hcontent]) (by rw [hplace]; dsimp only; omega)
        rwa [mul_add_div_of_lt k htc] at hshort
  · have hmissing := fun content hcontent => hpresent ⟨content, hcontent⟩
    refine .inr ⟨0, hc, hk, ?_, nofun, _, gatherCell_of_missing hmissing, .missing hmissing⟩
    rintro ⟨content, hcontent, -⟩
    exact hmissing content hcontent

/-- **Gathering succeeds if all bytes are held**, else it reports the first one that is not. -/
theorem gather_cases (hlen : length ≤ g.groupCapacity) :
    ((∃ bytes, g.gather b length = .ok bytes) ∧ ∀ pos < length, b.Holds g pos) ∨
    ∃ pos < length, ¬ b.Holds g pos ∧ (∀ p < pos, b.Holds g p) ∧
      ∃ err, g.gather b length = .error err ∧ g.Shortfall b length pos err := by
  have hc := g.cellSize_pos
  -- the bytes of a cell that is read are held
  have hread : ∀ pos < length,
      (∃ piece, g.gatherCell b length (pos / g.cellSize) = .ok piece) → b.Holds g pos := by
    rintro pos hpos ⟨piece, hpiece⟩
    have hdm := Nat.div_add_mod' pos g.cellSize
    rcases gatherCell_cases (b := b) (Nat.lt_of_le_of_lt (Nat.div_mul_le_self pos _) hpos) with
      ⟨-, hall⟩ | ⟨_, -, -, -, -, err, herr, -⟩
    · have := hall (pos % g.cellSize) (Nat.mod_lt _ hc) (by omega)
      rwa [hdm] at this
    · rw [hpiece] at herr
      cases herr
  rw [gather, if_neg (Nat.not_lt_of_le hlen)]
  cases hcells : (List.range (g.cellCount length)).mapM (g.gatherCell b length) with
  | ok pieces =>
    refine .inl ⟨⟨_, rfl⟩, fun pos hpos => hread pos hpos (exists_of_mapM_eq_ok hcells ?_)⟩
    rw [List.mem_range, g.lt_cellCount_iff]
    exact Nat.lt_of_le_of_lt (Nat.div_mul_le_self pos _) hpos
  | error err =>
    obtain ⟨k, hk, hbefore, herr⟩ := mapM_range_eq_error hcells
    rcases gatherCell_cases (b := b) ((g.lt_cellCount_iff length k).1 hk) with
      ⟨⟨piece, hpiece⟩, -⟩ | ⟨t, ht, hpos, hnot, hcell, err', herr', hshort⟩
    · rw [hpiece] at herr
      cases herr
    · rw [herr] at herr'
      cases herr'
      refine .inr ⟨_, hpos, hnot, fun p hp => ?_, err, rfl, hshort⟩
      rcases Nat.lt_or_ge (p / g.cellSize) k with hlt | hge
      · exact hread p (by omega) (hbefore _ hlt)
      · have hle : k * g.cellSize ≤ p := (Nat.le_div_iff_mul_le hc).1 hge
        have hheld := hcell (p - k * g.cellSize) (by omega)
        rwa [Nat.add_sub_cancel' hle] at hheld

end Geometry

end Striping
