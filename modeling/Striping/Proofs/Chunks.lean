import Striping.Proofs.Lengths
import Striping.Stripe

/-!
# Cutting lists into pieces

The pieces of `chunks n xs` are the consecutive stretches of `xs` (`chunks_eq_map`), and the first
pieces together are the first elements (`flatten_map_range`).
-/

namespace Striping

variable {α : Type}

theorem getElem?_chunksGo {n : Nat} (hn : 0 < n) (fuel : Nat) (xs : List α)
    (hf : xs.length ≤ fuel) (k : Nat) :
    (chunks.go n fuel xs)[k]? =
      if k * n < xs.length then some ((xs.drop (k * n)).take n) else none := by
  induction fuel generalizing xs k with
  | zero =>
    rw [List.length_eq_zero_iff.1 (Nat.le_zero.1 hf)]
    simp [chunks.go]
  | succ fuel ih =>
    cases xs with
    | nil => simp [chunks.go]
    | cons x xs =>
      rw [chunks.go]
      cases k with
      | zero => simp
      | succ k =>
        have hlen : ((x :: xs).drop n).length ≤ fuel := by
          simp only [List.length_drop, List.length_cons] at hf ⊢
          omega
        rw [List.getElem?_cons_succ, ih _ hlen, List.drop_drop, List.length_drop,
          Nat.add_comm n, ← Nat.succ_mul]
        congr 1
        rw [Nat.succ_mul]
        exact propext ⟨fun h => by omega, fun h => by omega⟩

theorem getElem?_chunks {n : Nat} (hn : 0 < n) (xs : List α) (k : Nat) :
    (chunks n xs)[k]? = if k * n < xs.length then some ((xs.drop (k * n)).take n) else none :=
  getElem?_chunksGo hn _ xs Nat.le.refl k

theorem chunks_eq_map {n count : Nat} (hn : 0 < n) {xs : List α}
    (hcount : ∀ k, k < count ↔ k * n < xs.length) :
    chunks n xs = (List.range count).map fun k => (xs.drop (k * n)).take n := by
  ext k : 1
  rw [getElem?_chunks hn, List.getElem?_map, ← if_congr (hcount k) rfl rfl]
  by_cases h : k < count
  · simp [h]
  · simp [h]

/-- The first `n` pieces are the first elements. -/
theorem flatten_map_range (c n : Nat) (xs : List α) :
    ((List.range n).map fun k => (xs.drop (k * c)).take c).flatten = xs.take (n * c) := by
  induction n with
  | zero => simp
  | succ n ih =>
    rw [List.range_succ, List.map_append, List.flatten_append, ih, Nat.add_mul, Nat.one_mul,
      List.take_add]
    simp

end Striping
