import Striping.Proofs.Scattering

/-!
# Gathering the bytes of a group

Gathering reads cell after cell. If the buffers hold each byte of a group at the place that the
layout gives it, the cells are the pieces of the group's bytes, in order
(`Geometry.gather_eq_ok`). The columns of a group hold its bytes in this way, so gathering undoes
scattering, for the whole group and for each of its first parts (`Geometry.gather_columns`).
-/

namespace Striping

namespace Geometry

variable (g : Geometry)

theorem gatherCell_eq_ok {b : Buffers} {out : Bytes} {k : Nat} (hk : k * g.cellSize < out.length)
    (h : ∀ pos < out.length, ∃ buffer, b.data[(place g.cellSize g.dataBlocks pos).1]? =
      some (some buffer) ∧ buffer[(place g.cellSize g.dataBlocks pos).2]? = out[pos]?) :
    g.gatherCell b out.length k = .ok ((out.drop (k * g.cellSize)).take g.cellSize) := by
  have hc := g.cellSize_pos
  obtain ⟨buffer, hbuffer, -⟩ := h _ hk
  -- all bytes of the cell come from one buffer, one after the other
  have hbytes : ∀ t < min g.cellSize (out.length - k * g.cellSize),
      buffer[(place g.cellSize g.dataBlocks (k * g.cellSize)).2 + t]? =
        out[k * g.cellSize + t]? := by
    intro t ht
    obtain ⟨buffer', hbuffer', hbyte⟩ := h (k * g.cellSize + t) (by omega)
    rw [place_cell g.dataBlocks_pos (by omega) k] at hbuffer' hbyte
    rw [hbuffer, Option.some.injEq, Option.some.injEq] at hbuffer'
    rwa [hbuffer']
  have hfit : (place g.cellSize g.dataBlocks (k * g.cellSize)).2 +
      min g.cellSize (out.length - k * g.cellSize) ≤ buffer.length := by
    have hlast := hbytes (min g.cellSize (out.length - k * g.cellSize) - 1) (by omega)
    rw [List.getElem?_eq_getElem (by omega : _ < out.length)] at hlast
    have := (List.getElem?_eq_some_iff.1 hlast).1
    omega
  simp only [gatherCell, hbuffer, hfit, if_true]
  congr 1
  ext t : 1
  by_cases ht : t < min g.cellSize (out.length - k * g.cellSize)
  · rw [List.getElem?_take_of_lt ht, List.getElem?_drop, hbytes t ht,
      List.getElem?_take_of_lt (by omega), List.getElem?_drop]
  · rw [List.getElem?_eq_none, List.getElem?_eq_none]
    · rw [List.length_take, List.length_drop]
      omega
    · rw [List.length_take, List.length_drop]
      omega

/-- **Gathering gives the bytes that the buffers hold at their places.** -/
theorem gather_eq_ok {b : Buffers} {out : Bytes} (hcap : out.length ≤ g.groupCapacity)
    (h : ∀ pos < out.length, ∃ buffer, b.data[(place g.cellSize g.dataBlocks pos).1]? =
      some (some buffer) ∧ buffer[(place g.cellSize g.dataBlocks pos).2]? = out[pos]?) :
    g.gather b out.length = .ok out := by
  have hcount := g.lt_cellCount_iff out.length
  have hcells : (List.range (g.cellCount out.length)).mapM (g.gatherCell b out.length) =
      .ok ((List.range (g.cellCount out.length)).map fun k =>
        (out.drop (k * g.cellSize)).take g.cellSize) :=
    mapM_eq_ok fun k hk => g.gatherCell_eq_ok ((hcount k).1 (List.mem_range.1 hk)) h
  rw [gather, if_neg (Nat.not_lt_of_le hcap), hcells]
  refine congrArg Except.ok ((flatten_map_range ..).trans ?_)
  exact List.take_of_length_le (g.length_le_cellCount_mul out.length)

/-- **The columns of a group give back its bytes**, all or the first of them. -/
theorem gather_columns {b : Buffers} {bytes : Bytes} {length : Nat}
    (hb : b.data = (List.range g.dataBlocks).map fun i => some (g.column bytes i))
    (hcap : bytes.length ≤ g.groupCapacity) (hlen : length ≤ bytes.length) :
    g.gather b length = .ok (bytes.take length) := by
  have htake : (bytes.take length).length = length := List.length_take_of_le hlen
  have hall : g.gather b (bytes.take length).length = .ok (bytes.take length) := by
    apply g.gather_eq_ok (by omega)
    intro pos hpos
    have hblock := place_fst_lt g.cellSize_pos g.dataBlocks_pos pos
    refine ⟨g.column bytes (place g.cellSize g.dataBlocks pos).1, by simp [hb, hblock], ?_⟩
    rw [g.getElem?_column hblock, unplace_place g.cellSize_pos,
      List.getElem?_take_of_lt (by omega)]
  rwa [htake] at hall

end Geometry

end Striping
