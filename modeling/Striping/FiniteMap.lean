/-!
# Finite maps

A finite map is a list of entries with distinct keys. `get?` is its view: the lemmas say what
`insert` and `erase` do to it, and `total` adds up a measure of the values.
-/

namespace Striping

/-- A map with finitely many keys. -/
structure FiniteMap (κ α : Type) where
  /-- The entries, in no order that matters. -/
  entries : List (κ × α)
  /-- No key has two entries. -/
  nodup : (entries.map Prod.fst).Nodup

namespace FiniteMap

variable {κ α : Type} [DecidableEq κ]

/-- The map without entries. -/
def empty : FiniteMap κ α := ⟨[], List.nodup_nil⟩

instance : EmptyCollection (FiniteMap κ α) := ⟨empty⟩

instance : Inhabited (FiniteMap κ α) := ⟨empty⟩

/-- The value of a key. -/
def get? (m : FiniteMap κ α) (k : κ) : Option α := m.entries.lookup k

/-- Whether the key has a value. -/
def contains (m : FiniteMap κ α) (k : κ) : Bool := (m.get? k).isSome

/-- The map without the keys of a set. -/
def eraseWhere (m : FiniteMap κ α) (s : κ → Bool) : FiniteMap κ α where
  entries := m.entries.filter fun e => !s e.1
  nodup := (List.filter_sublist.map Prod.fst).nodup m.nodup

/-- The map without a key. -/
def erase (m : FiniteMap κ α) (k : κ) : FiniteMap κ α := m.eraseWhere (· == k)

/-- The map with a new value for a key. -/
def insert (m : FiniteMap κ α) (k : κ) (a : α) : FiniteMap κ α where
  entries := (k, a) :: (m.erase k).entries
  nodup := by
    refine List.nodup_cons.2 ⟨fun h => ?_, (m.erase k).nodup⟩
    obtain ⟨e, he, hk⟩ := List.mem_map.1 h
    have := (List.mem_filter.1 he).2
    simp [hk] at this

/-- The map with new values for several keys, set from left to right. -/
def insertAll (m : FiniteMap κ α) (es : List (κ × α)) : FiniteMap κ α :=
  es.foldl (fun m e => m.insert e.1 e.2) m

/-- The number of keys. -/
def size (m : FiniteMap κ α) : Nat := m.entries.length

/-- The sum of a measure over all values. -/
def total (m : FiniteMap κ α) (f : α → Nat) : Nat := m.entries.foldr (fun e n => f e.2 + n) 0

@[simp] theorem get?_empty (k : κ) : (∅ : FiniteMap κ α).get? k = none := rfl

private theorem lookup_filter_not {s : κ → Bool} (k : κ) (es : List (κ × α)) :
    (es.filter fun e => !s e.1).lookup k = if s k then none else es.lookup k := by
  induction es with
  | nil => simp
  | cons e es ih =>
    obtain ⟨k', a⟩ := e
    by_cases hk : k = k'
    · subst hk
      cases hs : s k <;> simp [hs, ih]
    · have hbeq : (k == k') = false := by simp [hk]
      cases hs : s k' <;> simp [hs, ih, List.lookup_cons, hbeq]

theorem get?_eraseWhere (m : FiniteMap κ α) (s : κ → Bool) (k : κ) :
    (m.eraseWhere s).get? k = if s k then none else m.get? k :=
  lookup_filter_not k m.entries

theorem get?_erase (m : FiniteMap κ α) (j k : κ) :
    (m.erase j).get? k = if k = j then none else m.get? k := by
  simp [erase, get?_eraseWhere]

theorem get?_insert (m : FiniteMap κ α) (j k : κ) (a : α) :
    (m.insert j a).get? k = if k = j then some a else m.get? k := by
  by_cases h : k = j
  · simp [get?, insert, h]
  · have hbeq : (k == j) = false := by simp [h]
    have := get?_erase m j k
    simp only [h, if_false] at this ⊢
    rw [← this]
    simp [get?, insert, List.lookup_cons, hbeq]

end FiniteMap

end Striping
