import Mathlib
import Striping.FiniteMap

/-!
# Entries and counts of finite maps

A key's value is the one that stands beside it (`FiniteMap.get?_eq_some_iff`), and of several new
values set at once each wins over the old one (`FiniteMap.get?_insertAll`). A map whose values are
measured by a list without repeated keys has as many entries as the list, and the same total
(`FiniteMap.size_eq_length`, `FiniteMap.total_eq_sum`). So two maps with the same measures agree in
both (`FiniteMap.size_eq_and_total_eq`).
-/

namespace Striping

variable {κ α : Type}

theorem FiniteMap.total_eq_sum_map (m : FiniteMap κ α) (f : α → Nat) :
    m.total f = (m.entries.map fun e => f e.2).sum := by
  rw [total, List.sum, List.foldr_map]

/-- The entries of a map with the measures of their values. -/
def FiniteMap.measured (m : FiniteMap κ α) (f : α → Nat) : List (κ × Nat) :=
  m.entries.map fun e => (e.1, f e.2)

theorem FiniteMap.nodup_measured (m : FiniteMap κ α) (f : α → Nat) :
    ((m.measured f).map Prod.fst).Nodup := by
  rw [measured, List.map_map]
  exact m.nodup

variable [DecidableEq κ]

theorem lookup_eq_some_iff_mem {es : List (κ × α)} (hes : (es.map Prod.fst).Nodup) (k : κ) (a : α) :
    es.lookup k = some a ↔ (k, a) ∈ es := by
  induction es with
  | nil => simp
  | cons e es ih =>
    obtain ⟨j, b⟩ := e
    rw [List.map_cons, List.nodup_cons] at hes
    by_cases hk : k = j
    · subst hk
      have hnot : (k, a) ∉ es := fun h => hes.1 (List.mem_map.2 ⟨(k, a), h, rfl⟩)
      simp [hnot, eq_comm]
    · have hbeq : (k == j) = false := by simp [hk]
      simp [List.lookup_cons, hbeq, ih hes.2, hk]

namespace FiniteMap

theorem get?_eq_some_iff (m : FiniteMap κ α) (k : κ) (a : α) :
    m.get? k = some a ↔ (k, a) ∈ m.entries :=
  lookup_eq_some_iff_mem m.nodup k a

theorem get?_insertAll (m : FiniteMap κ α) {es : List (κ × α)} (hes : (es.map Prod.fst).Nodup)
    (k : κ) : (m.insertAll es).get? k = (es.lookup k).or (m.get? k) := by
  induction es generalizing m with
  | nil => rfl
  | cons e es ih =>
    obtain ⟨j, a⟩ := e
    rw [List.map_cons, List.nodup_cons] at hes
    change ((m.insert j a).insertAll es).get? k = _
    rw [ih _ hes.2, get?_insert]
    by_cases hk : k = j
    · subst hk
      have hnone : es.lookup k = none := by
        rw [List.lookup_eq_none_iff]
        intro e he
        simpa using fun h : k = e.1 => hes.1 (List.mem_map.2 ⟨e, he, h.symm⟩)
      simp [hnone]
    · have hbeq : (k == j) = false := by simp [hk]
      simp [List.lookup_cons, hbeq, hk]

/-! ## Counting -/

variable {m : FiniteMap κ α} {f : α → Nat} {es : List (κ × Nat)}

theorem map_get?_eq_some_iff (m : FiniteMap κ α) (f : α → Nat) (k : κ) (n : Nat) :
    (m.get? k).map f = some n ↔ (k, n) ∈ m.measured f := by
  simp only [Option.map_eq_some_iff, get?_eq_some_iff, measured, List.mem_map, Prod.mk.injEq,
    Prod.exists]
  constructor
  · rintro ⟨a, hmem, ha⟩
    exact ⟨k, a, hmem, rfl, ha⟩
  · rintro ⟨j, a, hmem, rfl, ha⟩
    exact ⟨a, hmem, ha⟩

/-- A list without repeated keys that measures the values of a map is the measured map, in some
order. -/
theorem perm_of_measures (hes : (es.map Prod.fst).Nodup)
    (h : ∀ k n, (m.get? k).map f = some n ↔ (k, n) ∈ es) : (m.measured f).Perm es := by
  apply (List.perm_ext_iff_of_nodup (List.Nodup.of_map _ (m.nodup_measured f))
    (List.Nodup.of_map _ hes)).2
  rintro ⟨k, n⟩
  rw [← h, map_get?_eq_some_iff]

theorem size_eq_length (hes : (es.map Prod.fst).Nodup)
    (h : ∀ k n, (m.get? k).map f = some n ↔ (k, n) ∈ es) : m.size = es.length := by
  rw [← (perm_of_measures hes h).length_eq, measured, List.length_map]
  rfl

theorem total_eq_sum (hes : (es.map Prod.fst).Nodup)
    (h : ∀ k n, (m.get? k).map f = some n ↔ (k, n) ∈ es) : m.total f = (es.map Prod.snd).sum := by
  rw [total_eq_sum_map, ← ((perm_of_measures hes h).map Prod.snd).sum_eq, measured, List.map_map]
  rfl

/-- Maps that measure the same at each key have as many entries, and the same total. -/
theorem size_eq_and_total_eq {m' : FiniteMap κ α}
    (h : ∀ k, (m.get? k).map f = (m'.get? k).map f) :
    m.size = m'.size ∧ m.total f = m'.total f := by
  have hmeasures : ∀ k n, (m.get? k).map f = some n ↔ (k, n) ∈ m'.measured f := fun k n => by
    rw [h, map_get?_eq_some_iff]
  constructor
  · rw [size_eq_length (m'.nodup_measured f) hmeasures, measured, List.length_map]
    rfl
  · rw [total_eq_sum (m'.nodup_measured f) hmeasures, total_eq_sum_map, measured, List.map_map]
    rfl

end FiniteMap

end Striping
