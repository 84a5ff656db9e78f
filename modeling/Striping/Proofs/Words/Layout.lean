import Striping.Layout.Words
import Striping.Proofs.Placement

/-!
# The layout in words is exact

The bounds of a `Geometry` keep the steps of the computations in words in range, so these answer
what their exact versions do: `Word.locate_eq` for every position that is a word,
`Word.fileOffset_eq` and `Word.blockLength_eq` for all numbers, because the steps that can leave the
range are checked.
-/

namespace Striping

namespace Geometry

variable (g : Geometry)

/-- The full stripes of a group that holds a further byte leave room for a cell in each block. -/
theorem fullStripes_add_le {length : Nat} (hpos : 0 < length) (hlen : length ≤ g.groupCapacity) :
    (length - 1) / g.stripeCapacity * g.cellSize + g.cellSize ≤ g.blockCapacity := by
  have hfull : (length - 1) / g.stripeCapacity < g.stripesPerBlock := by
    apply Nat.div_lt_of_lt_mul
    rw [Nat.mul_comm, ← g.groupCapacity_eq]
    omega
  have := Nat.mul_le_mul_right g.cellSize (show _ + 1 ≤ _ from hfull)
  rwa [Nat.add_mul, Nat.one_mul, Nat.mul_comm g.stripesPerBlock] at this

end Geometry

namespace Word

/-! ## The two maps -/

variable {cellSize dataBlocks : Nat}

theorem place_eq (hc : 0 < cellSize) (hd : 0 < dataBlocks) (hstripe : cellSize * dataBlocks < size)
    {pos : Nat} (hpos : pos < size) :
    place cellSize dataBlocks pos = .ok (Striping.place cellSize dataBlocks pos) := by
  have hsize : 0 < cellSize * dataBlocks := Nat.mul_pos hc hd
  have hdm := Nat.div_add_mod' pos (cellSize * dataBlocks)
  have hin := Nat.mod_le (pos % (cellSize * dataBlocks)) cellSize
  -- the offset in the block is at most the offset in the group
  have hstart : pos / (cellSize * dataBlocks) * cellSize ≤
      pos / (cellSize * dataBlocks) * (cellSize * dataBlocks) :=
    Nat.mul_le_mul_left _ (Nat.le_mul_of_pos_right cellSize hd)
  simp (disch := omega) only [place, bind, Except.bind, pure, Except.pure, mul_eq_ok, div_eq_ok,
    mod_eq_ok, add_eq_ok]
  rfl

theorem unplace_eq (hc : 0 < cellSize) (hd : 0 < dataBlocks) {block offset : Nat}
    (h : Striping.unplace cellSize dataBlocks block offset < size) :
    unplace cellSize dataBlocks block offset =
      .ok (Striping.unplace cellSize dataBlocks block offset) := by
  unfold Striping.unplace at h
  have hstripe : offset / cellSize * cellSize ≤ offset / cellSize * cellSize * dataBlocks :=
    Nat.le_mul_of_pos_right _ hd
  simp (disch := omega) only [unplace, bind, Except.bind, div_eq_ok, mod_eq_ok, mul_eq_ok,
    add_eq_ok]
  rfl

/-! ## Capacities -/

variable (g : Geometry)

theorem blockCapacity_eq : blockCapacity g = .ok g.blockCapacity :=
  mul_eq_ok g.blockCapacity_lt

theorem stripeCapacity_eq : stripeCapacity g = .ok g.stripeCapacity :=
  mul_eq_ok g.stripeCapacity_lt

theorem groupCapacity_eq : groupCapacity g = .ok g.groupCapacity := by
  rw [groupCapacity, blockCapacity_eq]
  exact mul_eq_ok g.groupCapacity_lt

/-! ## Positions -/

theorem place_eq_of_lt {pos : Nat} (h : pos < size) :
    place g.cellSize g.dataBlocks pos = .ok (Striping.place g.cellSize g.dataBlocks pos) :=
  place_eq g.cellSize_pos g.dataBlocks_pos g.stripeCapacity_lt h

/-- **Every position that is a word is located.** -/
theorem locate_eq {pos : Nat} (h : pos < size) : locate g pos = .ok (g.locate pos) := by
  have hmod : pos % g.groupCapacity < size := Nat.lt_of_le_of_lt (Nat.mod_le ..) h
  simp only [locate, bind, Except.bind, groupCapacity_eq, div_eq_ok g.groupCapacity_pos,
    mod_eq_ok g.groupCapacity_pos, place_eq_of_lt g hmod, div_eq_ok g.cellSize_pos,
    mod_eq_ok g.cellSize_pos]
  rfl

theorem mapError_eq {ε ε' α : Type} (f : ε → ε') (x : Except ε α) :
    x.mapError f = match x with
      | .error e => .error (f e)
      | .ok a => .ok a := by
  cases x <;> rfl

/-- **Coordinates are refused exactly if they have no position**: within the block, a step overflows
only if the position is no word. -/
theorem fileOffset_eq (group block offset : Nat) :
    fileOffset g group block offset = g.fileOffset group block offset := by
  have hcap := g.groupCapacity_lt
  simp only [fileOffset, Geometry.fileOffset, bind, Except.bind, pure, Except.pure, throw,
    throwThe, MonadExceptOf.throw, blockCapacity_eq, groupCapacity_eq, mapError_eq]
  split
  · rfl
  · next hb =>
    split
    · rfl
    · next ho =>
      have hin := unplace_lt g (Nat.lt_of_not_le hb) (Nat.lt_of_not_le ho)
      rw [unplace_eq g.cellSize_pos g.dataBlocks_pos (Nat.lt_trans hin hcap)]
      dsimp only
      rcases Nat.lt_or_ge (group * g.groupCapacity) size with hbase | hbase
      · rw [mul_eq_ok hbase]
        dsimp only
        by_cases hpos : group * g.groupCapacity +
            Striping.unplace g.cellSize g.dataBlocks block offset < size
        · rw [add_eq_ok hpos, if_pos hpos]
        · rw [add_eq_error (Nat.le_of_not_lt hpos), if_neg hpos]
      · rw [mul_eq_error hbase, if_neg (by omega)]

/-! ## Lengths -/

/-- **The number of groups is exact.** -/
theorem groupCount_eq {length : Nat} (h : length < size) :
    groupCount g length = .ok (g.groupCount length) := by
  have hdm := Nat.div_add_mod' length g.groupCapacity
  have hfull := Nat.le_mul_of_pos_right (length / g.groupCapacity) g.groupCapacity_pos
  simp only [groupCount, Geometry.groupCount, bind, Except.bind, pure, Except.pure,
    groupCapacity_eq, div_eq_ok g.groupCapacity_pos, mod_eq_ok g.groupCapacity_pos]
  split
  · rfl
  · next hrest => exact add_eq_ok (by omega)

/-- **The length of a group is exact**: a start that is no word lies behind every file. -/
theorem groupLength_eq {length : Nat} (h : length < size) (group : Nat) :
    groupLength g length group = .ok (g.groupLength length group) := by
  simp only [groupLength, Geometry.groupLength, bind, Except.bind, pure, Except.pure,
    groupCapacity_eq]
  split
  · next hstart => exact congrArg Except.ok (by omega)
  · next hstart =>
    rw [sub_eq_ok (by omega)]
    exact congrArg Except.ok (by omega)

/-- **The length of a block is exact.** -/
theorem blockLength_eq (length index : Nat) :
    blockLength g length index = g.blockLength length index := by
  simp only [blockLength, Geometry.blockLength, bind, Except.bind, pure, Except.pure, throw,
    throwThe, MonadExceptOf.throw, groupCapacity_eq, stripeCapacity_eq, mapError_eq,
    mod_eq_ok g.stripeCapacity_pos, div_eq_ok g.dataBlocks_pos, Geometry.share]
  cases g.checkIndex index with
  | error e => rfl
  | ok u =>
    dsimp only
    split
    · rfl
    · next hcap =>
      split
      · rfl
      · next hlast =>
        have hpos : 0 < length := Nat.pos_of_ne_zero fun h => hlast (by rw [h, Nat.zero_mod])
        have hroom := g.fullStripes_add_le hpos (Nat.le_of_not_lt hcap)
        have hblock := g.blockCapacity_lt
        have hstripe := g.stripeCapacity_lt
        have hstripe_pos := g.stripeCapacity_pos
        by_cases hi : index < g.dataBlocks
        · have hskip := g.mul_cellSize_lt hi
          simp (disch := omega) only [hi, if_true, sub_eq_ok, div_eq_ok, mul_eq_ok, add_eq_ok,
            Functor.map, Except.map, Geometry.cellShare]
        · simp (disch := omega) only [hi, if_false, sub_eq_ok, div_eq_ok, mul_eq_ok, add_eq_ok,
            Geometry.cellShare]

end Word

end Striping
