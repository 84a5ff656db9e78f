import Mathlib
import Striping.Proofs.Placement

/-!
# Lengths of groups and blocks

How the bytes of a file are shared out. A data block of a group holds the offsets whose bytes lie
below the group's length (`Geometry.lt_share_iff`), so the shares of a group add up to its length
(`Geometry.sum_share`). The groups of a file tile it in the same way (`Geometry.lt_groupCount_iff`,
`Geometry.sum_groupLength`).
-/

namespace Striping

/-- Pieces of at most `c`, taken from `x` one after another, add up to `x` or to all the room. -/
theorem sum_range_min_sub (x c n : Nat) :
    ((List.range n).map fun i => min (x - i * c) c).sum = min x (n * c) := by
  induction n with
  | zero => simp
  | succ n ih =>
    rw [List.range_succ, List.map_append, List.sum_append, ih, Nat.add_mul, Nat.one_mul]
    simp only [List.map_cons, List.map_nil, List.sum_cons, List.sum_nil]
    omega

/-- Numbers below a quotient that is rounded up. -/
theorem lt_ceil_iff {c : Nat} (hc : 0 < c) (k length : Nat) :
    k < length / c + (if length % c = 0 then 0 else 1) ↔ k * c < length := by
  have hlt := Nat.mod_lt length hc
  have key := mul_add_lt_mul_add_iff (s := k) (q := length / c) hc (Nat.le_of_lt hlt)
  rw [Nat.div_add_mod', Nat.add_zero] at key
  rw [key]
  split <;> omega

namespace Geometry

variable (g : Geometry)

/-! ## Shares of a group -/

theorem share_eq {index : Nat} (hi : index < g.dataBlocks) (length : Nat) :
    g.share length index = length / g.stripeCapacity * g.cellSize +
      min (length % g.stripeCapacity - index * g.cellSize) g.cellSize := by
  have hdm := Nat.div_add_mod' length g.stripeCapacity
  rw [share]
  by_cases hlast : length % g.stripeCapacity = 0
  · have hdiv : length / g.dataBlocks = length / g.stripeCapacity * g.cellSize := by
      rw [hlast, Nat.add_zero, stripeCapacity, ← Nat.mul_assoc] at hdm
      conv_lhs => rw [← hdm]
      exact Nat.mul_div_cancel _ g.dataBlocks_pos
    simp [hlast, hdiv]
  · have hpred : (length - 1) / g.stripeCapacity = length / g.stripeCapacity := by
      have hlt := Nat.mod_lt length g.stripeCapacity_pos
      rw [show length - 1 = length / g.stripeCapacity * g.stripeCapacity +
        (length % g.stripeCapacity - 1) by omega]
      exact mul_add_div_of_lt _ (by omega)
    simp only [hlast, if_false, hpred, cellShare, hi, if_true]

/-- **A data block holds the offsets whose bytes lie below the group's length.** -/
theorem lt_share_iff {index : Nat} (hi : index < g.dataBlocks) (length offset : Nat) :
    offset < g.share length index ↔ unplace g.cellSize g.dataBlocks index offset < length := by
  have hin : index * g.cellSize + offset % g.cellSize < g.stripeCapacity :=
    inStripe_lt g.cellSize_pos hi offset
  have hmod := Nat.mod_lt offset g.cellSize_pos
  have hlast := Nat.mod_lt length g.stripeCapacity_pos
  rw [g.share_eq hi, unplace_eq]
  conv_lhs => lhs; rw [← Nat.div_add_mod' offset g.cellSize]
  conv_rhs => rhs; rw [← Nat.div_add_mod' length g.stripeCapacity]
  rw [mul_add_lt_mul_add_iff hmod (Nat.min_le_right ..)]
  change _ ↔ _ * g.stripeCapacity + _ < _
  rw [mul_add_lt_mul_add_iff hin (Nat.le_of_lt hlast)]
  omega

/-- The block that a group ends in ends where the group's next byte would be. -/
theorem share_place (length : Nat) :
    g.share length (place g.cellSize g.dataBlocks length).1 =
      (place g.cellSize g.dataBlocks length).2 := by
  have hblock := place_fst_lt g.cellSize_pos g.dataBlocks_pos length
  refine eq_of_forall_lt_iff fun offset => ?_
  have hlt := unplace_lt_unplace_iff g.cellSize_pos hblock offset
    (place g.cellSize g.dataBlocks length).2
  rwa [unplace_place g.cellSize_pos, ← g.lt_share_iff hblock] at hlt

theorem sum_share (length : Nat) :
    ((List.range g.dataBlocks).map (g.share length)).sum = length := by
  have hlast : length % g.stripeCapacity ≤ g.cellSize * g.dataBlocks :=
    Nat.le_of_lt (Nat.mod_lt length g.stripeCapacity_pos)
  calc ((List.range g.dataBlocks).map (g.share length)).sum
      = ((List.range g.dataBlocks).map fun i => length / g.stripeCapacity * g.cellSize +
          min (length % g.stripeCapacity - i * g.cellSize) g.cellSize).sum :=
        congrArg List.sum (List.map_congr_left fun i hi => g.share_eq (List.mem_range.1 hi) length)
    _ = g.dataBlocks * (length / g.stripeCapacity * g.cellSize) +
          min (length % g.stripeCapacity) (g.dataBlocks * g.cellSize) := by
        rw [List.sum_map_add, sum_range_min_sub]
        simp
    _ = length / g.stripeCapacity * g.stripeCapacity + length % g.stripeCapacity := by
        rw [Nat.mul_comm g.dataBlocks g.cellSize, Nat.min_eq_left hlast, stripeCapacity,
          Nat.mul_comm g.dataBlocks, Nat.mul_assoc]
    _ = length := Nat.div_add_mod' length g.stripeCapacity

theorem share_le_blockCapacity {length index : Nat} (hi : index < g.dataBlocks)
    (h : length ≤ g.groupCapacity) : g.share length index ≤ g.blockCapacity := by
  apply Nat.le_of_not_lt
  intro hlt
  have hmod := Nat.mod_lt g.blockCapacity g.cellSize_pos
  have hpos := (g.lt_share_iff hi length g.blockCapacity).1 hlt
  have hdiv : g.blockCapacity / g.cellSize = g.stripesPerBlock :=
    Nat.mul_div_cancel_left _ g.cellSize_pos
  rw [unplace_eq, hdiv] at hpos
  rw [g.groupCapacity_eq] at h
  exact absurd (Nat.lt_of_le_of_lt (Nat.le_add_right _ _) hpos) (Nat.not_lt_of_le h)

/-- The first block of a group holds a byte if any does. -/
theorem share_zero_pos {length : Nat} (h : 0 < length) : 0 < g.share length 0 := by
  rw [g.lt_share_iff g.dataBlocks_pos, unplace_eq]
  simpa using h

theorem blockLength_eq_ok {length index : Nat} (hi : index < g.width)
    (h : length ≤ g.groupCapacity) : g.blockLength length index = .ok (g.share length index) := by
  simp only [blockLength, checkIndex, hi, if_true, Nat.not_lt_of_le h, if_false]

/-! ## Groups of a file -/

theorem lt_groupCount_iff (length group : Nat) :
    group < g.groupCount length ↔ group * g.groupCapacity < length :=
  lt_ceil_iff g.groupCapacity_pos group length

theorem groupLength_le (length group : Nat) : g.groupLength length group ≤ g.groupCapacity :=
  Nat.min_le_right ..

theorem groupLength_of_lt_div {length group : Nat} (h : group < length / g.groupCapacity) :
    g.groupLength length group = g.groupCapacity := by
  have hend := (Nat.le_div_iff_mul_le g.groupCapacity_pos).1 (show group + 1 ≤ _ from h)
  rw [Nat.add_mul, Nat.one_mul] at hend
  rw [groupLength]
  omega

theorem groupLength_div (length : Nat) : g.groupLength length (length / g.groupCapacity) =
    length % g.groupCapacity := by
  have hdm := Nat.div_add_mod' length g.groupCapacity
  have hmod := Nat.mod_lt length g.groupCapacity_pos
  rw [groupLength]
  omega

theorem groupLength_pos_iff (length group : Nat) :
    0 < g.groupLength length group ↔ group < g.groupCount length := by
  have hcap := g.groupCapacity_pos
  rw [g.lt_groupCount_iff, groupLength]
  omega

theorem length_le_groupCount_mul (length : Nat) :
    length ≤ g.groupCount length * g.groupCapacity :=
  Nat.le_of_not_lt fun h => absurd ((g.lt_groupCount_iff length _).2 h) (Nat.lt_irrefl _)

theorem sum_groupLength (length : Nat) :
    ((List.range (g.groupCount length)).map (g.groupLength length)).sum = length :=
  (sum_range_min_sub ..).trans (Nat.min_eq_left (g.length_le_groupCount_mul length))

end Geometry

end Striping
