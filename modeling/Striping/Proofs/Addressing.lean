import Striping.Command.Listing
import Striping.Proofs.Positions
import Striping.Proofs.Words.Layout

/-!
# Coordinates of all positions

Every position that is a word has coordinates within the layout (`Geometry.locate_within`), and
coordinates are refused for a stated reason or lead to the one position that they name
(`Geometry.fileOffset_eq_ok_iff`, `Geometry.fileOffset_eq_error_iff`). So locating a position and
finding the position of coordinates undo each other over the whole range of words, also where the
last group reaches past it (`Geometry.locate_inverse`).
-/

namespace Striping

/-- The coordinate lies within the layout, and its stripe and offset in the cell make up its offset
in the block. -/
structure Coordinate.Within (c : Coordinate) (g : Geometry) : Prop where
  block_lt : c.block < g.dataBlocks
  inBlock_lt : c.inBlock < g.blockCapacity
  stripe_lt : c.stripe < g.stripesPerBlock
  inCell_lt : c.inCell < g.cellSize
  inBlock_eq : c.inBlock = c.stripe * g.cellSize + c.inCell

namespace Geometry

variable (g : Geometry)

/-- Why the byte at `offset` in data block `block` of a group has no position. The block is checked
before the offset, and the offset before the position. -/
inductive Unplaced (group block offset : Nat) : Error → Prop
  | block (h : g.dataBlocks ≤ block) : Unplaced group block offset (.blockIndex block g.dataBlocks)
  | offset (hb : block < g.dataBlocks) (h : g.blockCapacity ≤ offset) :
    Unplaced group block offset (.blockOffset offset g.blockCapacity)
  | position (hb : block < g.dataBlocks) (ho : offset < g.blockCapacity)
    (h : Word.size ≤ g.position group block offset) :
    Unplaced group block offset (.layout (.unaddressable group))

/-- **Every position has coordinates within the layout.** -/
theorem locate_within (pos : Nat) : (g.locate pos).Within g where
  block_lt := g.locate_block_lt pos
  inBlock_lt := g.locate_inBlock_lt pos
  stripe_lt := Nat.div_lt_of_lt_mul (g.locate_inBlock_lt pos)
  inCell_lt := Nat.mod_lt _ g.cellSize_pos
  inBlock_eq := (Nat.div_add_mod' _ _).symm

variable {g} {group block offset pos : Nat}

/-- **Coordinates have a position if it is a word.** -/
theorem fileOffset_eq_ok_iff : g.fileOffset group block offset = .ok pos ↔
    block < g.dataBlocks ∧ offset < g.blockCapacity ∧ g.position group block offset = pos ∧
      pos < Word.size := by
  unfold fileOffset
  split
  · next hb => simp [Nat.not_lt_of_le hb]
  · next hb =>
    split
    · next ho => simp [Nat.not_lt_of_le ho]
    · next ho =>
      have hb' := Nat.lt_of_not_le hb
      have ho' := Nat.lt_of_not_le ho
      change (if g.position group block offset < Word.size then
        Except.ok (g.position group block offset) else _) = _ ↔ _
      split
      · next h =>
        simp only [Except.ok.injEq, hb', ho', true_and]
        constructor
        · rintro rfl
          exact ⟨rfl, h⟩
        · exact And.left
      · next h =>
        simp only [hb', ho', true_and, reduceCtorEq, false_iff, not_and]
        rintro rfl
        exact h

/-- **Coordinates are refused for the first reason that applies.** -/
theorem fileOffset_eq_error_iff {e : Error} : g.fileOffset group block offset = .error e ↔
    g.Unplaced group block offset e := by
  constructor
  · intro h
    unfold fileOffset at h
    split at h
    · next hb =>
      cases h
      exact .block hb
    · next hb =>
      split at h
      · next ho =>
        cases h
        exact .offset (Nat.lt_of_not_le hb) ho
      · next ho =>
        dsimp only at h
        split at h
        · cases h
        · next hpos =>
          cases h
          exact .position (Nat.lt_of_not_le hb) (Nat.lt_of_not_le ho) (Nat.le_of_not_lt hpos)
  · intro h
    unfold fileOffset
    cases h with
    | block hb => rw [if_pos hb]
    | offset hb ho => rw [if_neg (Nat.not_le_of_lt hb), if_pos ho]
    | position hb ho hpos =>
      rw [if_neg (Nat.not_le_of_lt hb), if_neg (Nat.not_le_of_lt ho)]
      exact if_neg (Nat.not_lt_of_le hpos)

theorem Unplaced.isLayoutViolation {e : Error} (h : g.Unplaced group block offset e) :
    e.isLayoutViolation = true := by
  cases h <;> rfl

variable (g) in
theorem fileOffset_locate (h : pos < Word.size) :
    g.fileOffset (g.locate pos).group (g.locate pos).block (g.locate pos).inBlock = .ok pos :=
  fileOffset_eq_ok_iff.2
    ⟨g.locate_block_lt pos, g.locate_inBlock_lt pos, g.position_locate pos, h⟩

theorem locate_eq_of_fileOffset (h : g.fileOffset group block offset = .ok pos) :
    g.locate pos = ⟨group, block, offset / g.cellSize, offset % g.cellSize, offset⟩ := by
  obtain ⟨hb, ho, rfl, -⟩ := fileOffset_eq_ok_iff.1 h
  exact g.locate_position hb ho group

/-- No two places of a file have the same position. -/
theorem fileOffset_injective {group' block' offset' : Nat}
    (h : g.fileOffset group block offset = .ok pos)
    (h' : g.fileOffset group' block' offset' = .ok pos) :
    group = group' ∧ block = block' ∧ offset = offset' := by
  have heq := (locate_eq_of_fileOffset h).symm.trans (locate_eq_of_fileOffset h')
  simp only [Coordinate.mk.injEq] at heq
  exact ⟨heq.1, heq.2.1, heq.2.2.2.2⟩

end Geometry

/-! ## Listing positions -/

namespace Command

variable (g : Geometry)

theorem locateChecked_eq {pos : Nat} (h : pos < Word.size) :
    locateChecked g pos = .ok (g.locate pos) := by
  unfold locateChecked
  simp only [g.fileOffset_locate h, if_true]

theorem listPositions_eq (listed : String) {positions : List Nat}
    (h : ∀ pos ∈ positions, pos < Word.size) :
    ∃ text, listPositions g listed positions = .success text := by
  induction positions generalizing listed with
  | nil => exact ⟨listed, rfl⟩
  | cons pos rest ih =>
    unfold listPositions
    rw [locateChecked_eq g (h pos (.head _))]
    exact ih _ fun pos' hpos' => h pos' (.tail _ hpos')

end Command

/-- **Positions and coordinates name each other**, over all words and in words. Each position has
coordinates within the layout that lead back to it. Coordinates lead to the position that they name,
if it is a word, and it has these coordinates again; otherwise they are refused as a violation of
the layout. So no two places share a position, and the listing of positions never fails. -/
theorem Geometry.locate_inverse (g : Geometry) :
    (∀ pos < Word.size, ∃ c : Coordinate, Word.locate g pos = .ok c ∧ c.Within g ∧
      Word.fileOffset g c.group c.block c.inBlock = .ok pos) ∧
    (∀ group block offset pos, Word.fileOffset g group block offset = .ok pos ↔
      block < g.dataBlocks ∧ offset < g.blockCapacity ∧ g.position group block offset = pos ∧
        pos < Word.size) ∧
    (∀ group block offset pos, Word.fileOffset g group block offset = .ok pos →
      Word.locate g pos =
        .ok ⟨group, block, offset / g.cellSize, offset % g.cellSize, offset⟩) ∧
    (∀ group block offset e, Word.fileOffset g group block offset = .error e →
      g.Unplaced group block offset e ∧ e.isLayoutViolation = true) ∧
    (∀ group block offset group' block' offset' pos,
      Word.fileOffset g group block offset = .ok pos →
        Word.fileOffset g group' block' offset' = .ok pos →
          group = group' ∧ block = block' ∧ offset = offset') ∧
    ∀ positions, (∀ pos ∈ positions, pos < Word.size) →
      (∀ pos ∈ positions, Command.locateChecked g pos = .ok (g.locate pos)) ∧
        ∃ text, Command.locate g positions = .success text := by
  simp only [Word.fileOffset_eq]
  refine ⟨fun pos hpos => ?_, fun _ _ _ _ => fileOffset_eq_ok_iff, fun _ _ _ pos h => ?_,
    fun _ _ _ _ h => ?_, fun _ _ _ _ _ _ _ => fileOffset_injective, fun positions h => ?_⟩
  · exact ⟨g.locate pos, Word.locate_eq g hpos, g.locate_within pos, g.fileOffset_locate hpos⟩
  · rw [Word.locate_eq g (fileOffset_eq_ok_iff.1 h).2.2.2, locate_eq_of_fileOffset h]
  · have hunplaced := fileOffset_eq_error_iff.1 h
    exact ⟨hunplaced, hunplaced.isLayoutViolation⟩
  · exact ⟨fun pos hpos => Command.locateChecked_eq g (h pos hpos),
      Command.listPositions_eq g _ h⟩

/-- The last word is a position in a group that reaches past it: a cell of the third stripe of that
group has no positions. -/
theorem Geometry.locate_inverse_last :
    let last := Word.size - 1
    let group := last / standard.groupCapacity
    last < Word.size ∧
      (∃ c : Coordinate, Word.locate standard last = .ok c ∧ c.Within standard ∧
        Word.fileOffset standard c.group c.block c.inBlock = .ok last) ∧
      standard.Unplaced group 4 131072 (.layout (.unaddressable group)) := by
  have hlast : Word.size - 1 < Word.size := by decide
  obtain ⟨hlocate, -, -, hrefused, -, -⟩ := locate_inverse standard
  exact ⟨hlast, hlocate _ hlast, (hrefused _ _ _ _ (by decide +kernel)).1⟩

end Striping
