import Striping.Layout

/-!
# Placing bytes in a group

`place` and `unplace` undo each other: an offset of a group goes to exactly one place in a data
block and back (`unplace_place`, `place_unplace`). Within a full group neither leaves the layout
(`place_snd_lt`, `unplace_lt`).
-/

namespace Striping

/-! ## Numbers in a mixed radix -/

/-- Numbers with digits `s, t` and `q, m` compare by the first digit, then by the second. -/
theorem mul_add_lt_mul_add_iff {c s t q m : Nat} (ht : t < c) (hm : m ≤ c) :
    s * c + t < q * c + m ↔ s < q ∨ s = q ∧ t < m := by
  rcases Nat.lt_trichotomy s q with h | rfl | h
  · have := Nat.mul_le_mul_right c (show s + 1 ≤ q from h)
    rw [Nat.add_mul] at this
    omega
  · omega
  · have := Nat.mul_le_mul_right c (show q + 1 ≤ s from h)
    rw [Nat.add_mul] at this
    omega

theorem mul_add_div_of_lt {c t : Nat} (s : Nat) (ht : t < c) : (s * c + t) / c = s := by
  rw [Nat.mul_comm, Nat.mul_add_div (by omega), Nat.div_eq_of_lt ht, Nat.add_zero]

/-! ## The two maps -/

variable {cellSize dataBlocks : Nat}

/-- The offset in its stripe of a byte of a data block. -/
theorem inStripe_lt {block : Nat} (hc : 0 < cellSize) (hb : block < dataBlocks) (offset : Nat) :
    block * cellSize + offset % cellSize < cellSize * dataBlocks := by
  have hmod := Nat.mod_lt offset hc
  have := Nat.mul_le_mul_right cellSize (show block + 1 ≤ dataBlocks from hb)
  rw [Nat.add_mul, Nat.mul_comm dataBlocks] at this
  omega

theorem unplace_eq (cellSize dataBlocks block offset : Nat) :
    unplace cellSize dataBlocks block offset =
      offset / cellSize * (cellSize * dataBlocks) + (block * cellSize + offset % cellSize) := by
  rw [unplace, Nat.mul_assoc, Nat.add_assoc]

theorem unplace_place (hc : 0 < cellSize) (pos : Nat) :
    unplace cellSize dataBlocks (place cellSize dataBlocks pos).1
      (place cellSize dataBlocks pos).2 = pos := by
  have hmod := Nat.mod_lt (pos % (cellSize * dataBlocks)) hc
  rw [unplace_eq, place, mul_add_div_of_lt _ hmod, Nat.mul_add_mod_of_lt hmod, Nat.div_add_mod',
    Nat.div_add_mod']

theorem place_unplace {block : Nat} (hc : 0 < cellSize) (hb : block < dataBlocks) (offset : Nat) :
    place cellSize dataBlocks (unplace cellSize dataBlocks block offset) = (block, offset) := by
  have hlt := inStripe_lt hc hb offset
  have hmod := Nat.mod_lt offset hc
  rw [unplace_eq, place, mul_add_div_of_lt _ hlt, Nat.mul_add_mod_of_lt hlt,
    mul_add_div_of_lt _ hmod, Nat.mul_add_mod_of_lt hmod, Nat.div_add_mod']

/-- Within a block, later bytes are later bytes of the group. -/
theorem unplace_lt_unplace_iff {block : Nat} (hc : 0 < cellSize) (hb : block < dataBlocks)
    (offset offset' : Nat) : unplace cellSize dataBlocks block offset <
      unplace cellSize dataBlocks block offset' ↔ offset < offset' := by
  have hmod := Nat.mod_lt offset hc
  have hmod' := Nat.mod_lt offset' hc
  conv => rhs; rw [← Nat.div_add_mod' offset cellSize, ← Nat.div_add_mod' offset' cellSize]
  rw [unplace_eq, unplace_eq, mul_add_lt_mul_add_iff hmod (Nat.le_of_lt hmod'),
    mul_add_lt_mul_add_iff (inStripe_lt hc hb offset) (Nat.le_of_lt (inStripe_lt hc hb offset')),
    Nat.add_lt_add_iff_left]

/-- A byte keeps its offset in its cell. -/
theorem place_snd_mod (cellSize dataBlocks pos : Nat) :
    (place cellSize dataBlocks pos).2 % cellSize = pos % cellSize := by
  rw [place]
  dsimp only
  rw [Nat.mul_add_mod', Nat.mod_mod, Nat.mod_mul_right_mod]

theorem place_fst_lt (hc : 0 < cellSize) (hd : 0 < dataBlocks) (pos : Nat) :
    (place cellSize dataBlocks pos).1 < dataBlocks :=
  Nat.div_lt_of_lt_mul (Nat.mod_lt _ (Nat.mul_pos hc hd))

/-! ## Within a full group -/

variable (g : Geometry)

theorem Geometry.mul_cellSize_lt {index : Nat} (hi : index < g.dataBlocks) :
    index * g.cellSize < g.stripeCapacity := by
  have := inStripe_lt g.cellSize_pos hi 0
  rwa [Nat.zero_mod, Nat.add_zero] at this

theorem place_snd_lt {pos : Nat} (h : pos < g.groupCapacity) :
    (place g.cellSize g.dataBlocks pos).2 < g.blockCapacity := by
  have hmod := Nat.mod_lt (pos % (g.cellSize * g.dataBlocks)) g.cellSize_pos
  have hstripe : pos / (g.cellSize * g.dataBlocks) < g.stripesPerBlock := by
    apply Nat.div_lt_of_lt_mul
    rwa [g.groupCapacity_eq, Nat.mul_comm] at h
  show _ < g.cellSize * g.stripesPerBlock
  rw [Nat.mul_comm]
  exact (mul_add_lt_mul_add_iff hmod (Nat.zero_le _) (m := 0)).2 (.inl hstripe)

theorem unplace_lt {block offset : Nat} (hb : block < g.dataBlocks)
    (ho : offset < g.blockCapacity) :
    unplace g.cellSize g.dataBlocks block offset < g.groupCapacity := by
  have hstripe : offset / g.cellSize < g.stripesPerBlock := Nat.div_lt_of_lt_mul ho
  rw [unplace_eq, g.groupCapacity_eq]
  exact (mul_add_lt_mul_add_iff (inStripe_lt g.cellSize_pos hb offset) (Nat.zero_le _) (m := 0)).2
    (.inl hstripe)

end Striping
