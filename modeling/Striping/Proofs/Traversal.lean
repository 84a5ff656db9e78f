import Mathlib.Data.List.Forall2

/-!
# Fallible steps along a list

`List.mapM` in `Except` carries out a step at each element, up to the first failure. It succeeds
exactly if every step does (`mapM_eq_ok_iff`), and fails with the first step that does
(`mapM_eq_error`).
-/

namespace Striping

variable {α β ε : Type}

/-- All elements have a property, or there is a first one that does not. -/
theorem forall_or_exists_first (P : α → Prop) (xs : List α) : (∀ x ∈ xs, P x) ∨
    ∃ before x after, xs = before ++ x :: after ∧ (∀ y ∈ before, P y) ∧ ¬ P x := by
  induction xs with
  | nil => exact .inl nofun
  | cons x xs ih =>
    by_cases hx : P x
    · rcases ih with h | ⟨before, y, after, rfl, hbefore, hy⟩
      · exact .inl (List.forall_mem_cons.2 ⟨hx, h⟩)
      · exact .inr ⟨x :: before, y, after, rfl, List.forall_mem_cons.2 ⟨hx, hbefore⟩, hy⟩
    · exact .inr ⟨[], x, xs, rfl, nofun, hx⟩

theorem mapM_cons_ok {f : α → Except ε β} {x : α} {y : β} (h : f x = .ok y) (xs : List α) :
    (x :: xs).mapM f = (xs.mapM f).map (y :: ·) := by
  rw [List.mapM_cons, h]
  cases xs.mapM f <;> rfl

theorem mapM_cons_error {f : α → Except ε β} {x : α} {e : ε} (h : f x = .error e) (xs : List α) :
    (x :: xs).mapM f = .error e := by
  rw [List.mapM_cons, h]
  rfl

/-- A traversal succeeds exactly if every step does, and gives the answers in order. -/
theorem mapM_eq_ok_iff {f : α → Except ε β} {xs : List α} {ys : List β} :
    xs.mapM f = .ok ys ↔ List.Forall₂ (fun x y => f x = .ok y) xs ys := by
  induction xs generalizing ys with
  | nil =>
    rw [List.forall₂_nil_left_iff]
    exact ⟨fun h => (Except.ok.inj h).symm, fun h => h ▸ rfl⟩
  | cons x xs ih =>
    rw [List.forall₂_cons_left_iff]
    cases hx : f x with
    | error e => simp [mapM_cons_error hx]
    | ok y =>
      rw [mapM_cons_ok hx]
      cases hxs : xs.mapM f with
      | error e => simp [Except.map, ← ih, hxs]
      | ok zs => simp [Except.map, ← ih, hxs, eq_comm]

theorem mapM_cons_eq_ok {f : α → Except ε β} {x : α} {xs : List α} {ys : List β}
    (h : (x :: xs).mapM f = .ok ys) :
    ∃ y rest, f x = .ok y ∧ xs.mapM f = .ok rest ∧ ys = y :: rest := by
  obtain ⟨y, rest, hy, hrest, rfl⟩ := List.forall₂_cons_left_iff.1 (mapM_eq_ok_iff.1 h)
  exact ⟨y, rest, hy, mapM_eq_ok_iff.2 hrest, rfl⟩

theorem mapM_eq_ok {f : α → Except ε β} {φ : α → β} {xs : List α}
    (h : ∀ x ∈ xs, f x = .ok (φ x)) : xs.mapM f = .ok (xs.map φ) := by
  rw [mapM_eq_ok_iff, List.forall₂_map_right_iff, List.forall₂_same]
  exact h

/-- What the steps answer when they succeed is all that a traversal can answer. -/
theorem eq_map_of_mapM_eq_ok {f : α → Except ε β} {φ : α → β} {xs : List α} {ys : List β}
    (hf : ∀ x y, f x = .ok y → y = φ x) (h : xs.mapM f = .ok ys) : ys = xs.map φ := by
  have hall := mapM_eq_ok_iff.1 h
  induction hall with
  | nil => rfl
  | cons hx hxs ih => rw [List.map_cons, hf _ _ hx, ih (mapM_eq_ok_iff.2 hxs)]

theorem mem_iff_of_mapM_eq_ok {f : α → Except ε β} {xs : List α} {ys : List β}
    (h : xs.mapM f = .ok ys) (y : β) : y ∈ ys ↔ ∃ x ∈ xs, f x = .ok y := by
  have hall := mapM_eq_ok_iff.1 h
  clear h
  induction hall with
  | nil => simp
  | cons hx _ ih => simp [ih, hx, eq_comm]

theorem exists_of_mapM_eq_ok {f : α → Except ε β} {xs : List α} {ys : List β}
    (h : xs.mapM f = .ok ys) {x : α} (hx : x ∈ xs) : ∃ y, f x = .ok y := by
  have hall := mapM_eq_ok_iff.1 h
  clear h
  induction hall with
  | nil => cases hx
  | cons hy _ ih =>
    rcases List.mem_cons.1 hx with rfl | hx
    · exact ⟨_, hy⟩
    · exact ih hx

/-- If a step succeeds under a condition, a traversal does if all elements meet it. -/
theorem mapM_eq_ok_iff_forall {f : α → Except ε β} {P : α → Prop} {φ : α → β}
    (hf : ∀ x y, f x = .ok y ↔ P x ∧ y = φ x) {xs : List α} {ys : List β} :
    xs.mapM f = .ok ys ↔ (∀ x ∈ xs, P x) ∧ ys = xs.map φ := by
  rw [mapM_eq_ok_iff]
  constructor
  · intro h
    induction h with
    | nil => simp
    | cons hx _ ih =>
      obtain ⟨hP, rfl⟩ := (hf _ _).1 hx
      obtain ⟨hrest, rfl⟩ := ih
      exact ⟨List.forall_mem_cons.2 ⟨hP, hrest⟩, rfl⟩
  · rintro ⟨hP, rfl⟩
    rw [List.forall₂_map_right_iff, List.forall₂_same]
    exact fun x hx => (hf _ _).2 ⟨hP x hx, rfl⟩

/-- A traversal fails with the first step that does. -/
theorem mapM_eq_error {f : α → Except ε β} {xs : List α} {e : ε} (h : xs.mapM f = .error e) :
    ∃ before x after, xs = before ++ x :: after ∧ (∀ y ∈ before, ∃ z, f y = .ok z) ∧
      f x = .error e := by
  induction xs with
  | nil => cases h
  | cons x xs ih =>
    cases hx : f x with
    | error err =>
      rw [mapM_cons_error hx] at h
      cases h
      exact ⟨[], x, xs, rfl, nofun, hx⟩
    | ok y =>
      rw [mapM_cons_ok hx] at h
      cases hxs : xs.mapM f with
      | ok ys =>
        rw [hxs] at h
        cases h
      | error err =>
        rw [hxs] at h
        cases h
        obtain ⟨before, x', after, rfl, hbefore, herror⟩ := ih hxs
        exact ⟨x :: before, x', after, rfl, List.forall_mem_cons.2 ⟨⟨y, hx⟩, hbefore⟩, herror⟩

theorem mapM_range_eq_error {f : Nat → Except ε β} {n : Nat} {e : ε}
    (h : (List.range n).mapM f = .error e) :
    ∃ k < n, (∀ j < k, ∃ y, f j = .ok y) ∧ f k = .error e := by
  obtain ⟨before, k, after, hrange, hbefore, herror⟩ := mapM_eq_error h
  rw [List.range_eq_range', List.range'_eq_append_iff] at hrange
  obtain ⟨m, -, rfl, hafter⟩ := hrange
  obtain ⟨hm, hpos, -⟩ := List.range'_eq_cons_iff.1 hafter.symm
  refine ⟨k, by omega, fun j hj => hbefore j ?_, herror⟩
  rw [List.mem_range'_1]
  omega

/-- A traversal of numbers fails at the last of them if it comes that far. -/
theorem mapM_range_succ_eq_error {f : Nat → Except ε β} {n : Nat} {e : ε}
    (hbefore : ∀ k < n, ∃ y, f k = .ok y) (h : f n = .error e) :
    (List.range (n + 1)).mapM f = .error e := by
  cases hall : (List.range (n + 1)).mapM f with
  | ok ys =>
    obtain ⟨y, hy⟩ := exists_of_mapM_eq_ok hall (List.mem_range.2 (Nat.lt_succ_self n))
    cases h.symm.trans hy
  | error e' =>
    obtain ⟨k, hk, -, herror⟩ := mapM_range_eq_error hall
    rcases Nat.lt_succ_iff_lt_or_eq.1 hk with hlt | rfl
    · obtain ⟨y, hy⟩ := hbefore k hlt
      cases herror.symm.trans hy
    · cases herror.symm.trans h
      rfl

theorem mapM_zipIdx_eq_error {f : α × Nat → Except ε β} {xs : List α} {e : ε}
    (h : xs.zipIdx.mapM f = .error e) : ∃ k x, xs[k]? = some x ∧
      (∀ j < k, ∀ y, xs[j]? = some y → ∃ z, f (y, j) = .ok z) ∧ f (x, k) = .error e := by
  obtain ⟨before, ⟨x, k⟩, after, hsplit, hbefore, herror⟩ := mapM_eq_error h
  have hzip : ∀ j y, xs[j]? = some y → xs.zipIdx[j]? = some (y, j) := fun j y hy => by
    rw [List.getElem?_zipIdx, hy, Option.map_some, Nat.zero_add]
  have hget : xs.zipIdx[before.length]? = some (x, k) := by simp [hsplit]
  obtain ⟨x', hx', heq⟩ := Option.map_eq_some_iff.1 (List.getElem?_zipIdx.symm.trans hget)
  rw [Nat.zero_add, Prod.mk.injEq] at heq
  obtain ⟨rfl, rfl⟩ := heq
  refine ⟨before.length, x', hx', fun j hj y hy => hbefore (y, j) ?_, herror⟩
  have hmem := hzip j y hy
  rw [hsplit, List.getElem?_append_left hj] at hmem
  exact List.mem_of_getElem? hmem

/-- A numbered traversal succeeds exactly if every step does with its number. -/
theorem mapM_zipIdx_eq_ok_iff {f : α × Nat → Except ε β} {xs : List α} {ys : List β} :
    xs.zipIdx.mapM f = .ok ys ↔ ys.length = xs.length ∧
      ∀ i x y, xs[i]? = some x → ys[i]? = some y → f (x, i) = .ok y := by
  rw [mapM_eq_ok_iff, List.forall₂_iff_get]
  constructor
  · rintro ⟨hlen, hget⟩
    refine ⟨by rw [← hlen, List.length_zipIdx], fun i x y hx hy => ?_⟩
    obtain ⟨hi, rfl⟩ := List.getElem?_eq_some_iff.1 hx
    obtain ⟨hi', rfl⟩ := List.getElem?_eq_some_iff.1 hy
    have hstep := hget i (by rwa [List.length_zipIdx]) hi'
    simpa using hstep
  · rintro ⟨hlen, hget⟩
    refine ⟨by rw [List.length_zipIdx, hlen], fun i hi hi' => ?_⟩
    have hstep := hget i _ _ (List.getElem?_eq_getElem (hlen ▸ hi')) (List.getElem?_eq_getElem hi')
    simpa using hstep

theorem getElem?_map_range_eq_some {f : Nat → α} {n i : Nat} {y : α} :
    ((List.range n).map f)[i]? = some y ↔ i < n ∧ y = f i := by
  rw [List.getElem?_map]
  by_cases h : i < n
  · simp [h, eq_comm]
  · simp [h]

theorem zipIdx_map_range (f : Nat → α) (n : Nat) :
    ((List.range n).map f).zipIdx = (List.range n).map fun i => (f i, i) := by
  ext i : 1
  by_cases h : i < n
  · simp [h]
  · simp [h]

end Striping
