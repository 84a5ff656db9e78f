import Striping.Proofs.Store.Runs

/-!
# Consistent stores

In a consistent store every file is one that a write left behind: its records are those of a file of
its length, its ids were all given out, and no other file has any of them. A store without files is
consistent, and every call keeps it so (`Store.Consistent.of_replaced`,
`Store.Consistent.of_touched`).

So a file's blocks stay as they are while other paths are written and deleted
(`Store.Consistent.block_eq`), and a new file's blocks are all there (`Store.Consistent.block_new`).
-/

namespace Striping.Store

/-- The file at a path is the file of `length` bytes whose ids start at `first`; it was given these
ids, and fits into a machine's memory. -/
structure Stored (s : Store) (path : String) (first length : Nat) : Prop where
  file_eq : s.files.get? path = some (s.geometry.storedFile first length)
  length_le : length ≤ Bytes.maxLength
  le_nextId : first + s.geometry.idCount length ≤ s.nextId
  le_size : first + s.geometry.idCount length ≤ Word.size

/-- Every file was written as a whole, and no two files share an id. -/
structure Consistent (s : Store) : Prop where
  stored : ∀ path file, s.files.get? path = some file → ∃ first, Stored s path first file.length
  apart : ∀ path path' id, s.ownedBy path id → s.ownedBy path' id → path = path'

variable {s t : Store} {path other : String} {held : Option Bytes} {content : Bytes}
  {first length id : Nat}

theorem Stored.ownedBy_iff (h : Stored s path first length) (id : Nat) :
    s.ownedBy path id ↔ first ≤ id ∧ id < first + s.geometry.idCount length := by
  rw [ownedBy, h.file_eq, ← s.geometry.owns_records_iff]
  simp [Geometry.storedFile]

theorem Stored.eq_storedFile (h : Stored s path first length) {file : StoredFile}
    (hfile : s.files.get? path = some file) : file = s.geometry.storedFile first length :=
  Option.some.inj (hfile.symm.trans h.file_eq)

theorem Consistent.lt_nextId (h : Consistent s) (hid : s.ownedBy path id) : id < s.nextId := by
  have ⟨file, hfile, _⟩ := hid
  obtain ⟨first, hstored⟩ := h.stored path file hfile
  have hrange := (hstored.ownedBy_iff _).1 hid
  have := hstored.le_nextId
  omega

theorem consistent_empty (g : Geometry) (first : Nat) : Consistent (empty g first) where
  stored path file h := by simp [empty] at h
  apart path path' id h := by
    obtain ⟨file, hfile, -⟩ := h
    simp [empty] at hfile

/-! ## Replacing a file -/

theorem Replaced.le_nextId (h : Replaced s path held t) : s.nextId ≤ t.nextId := by
  rw [h.nextId_eq]
  exact Nat.le_add_right ..

theorem Replaced.ownedBy_iff (h : Replaced s path held t) (hne : other ≠ path) (id : Nat) :
    t.ownedBy other id ↔ s.ownedBy other id := by
  rw [ownedBy, ownedBy, h.geometry_eq, h.other_file_eq other hne]

theorem Replaced.stored (h : Replaced s path held t) (hne : other ≠ path)
    (hs : Stored s other first length) : Stored t other first length where
  file_eq := by rw [h.geometry_eq, h.other_file_eq other hne, hs.file_eq]
  length_le := hs.length_le
  le_nextId := by
    rw [h.geometry_eq]
    exact Nat.le_trans hs.le_nextId h.le_nextId
  le_size := by
    rw [h.geometry_eq]
    exact hs.le_size

theorem Replaced.stored_self (h : Replaced s path (some content) t)
    (hlen : content.length ≤ Bytes.maxLength) : Stored t path s.nextId content.length where
  file_eq := by rw [h.geometry_eq, h.file_eq, Option.map_some]
  length_le := hlen
  le_nextId := by
    rw [h.geometry_eq]
    exact Nat.le_of_eq h.nextId_eq.symm
  le_size := by
    rw [h.geometry_eq]
    exact Nat.le_of_lt (h.room content rfl)

/-- A new file takes ids that no file had. -/
theorem Replaced.nextId_le_of_ownedBy (h : Replaced s path held t) (hfits : Fits held)
    (hid : t.ownedBy path id) : s.nextId ≤ id := by
  cases held with
  | none =>
    obtain ⟨file, hfile, -⟩ := hid
    simp [h.file_eq] at hfile
  | some content => exact (((h.stored_self (hfits content rfl)).ownedBy_iff _).1 hid).1

/-- **Consistency survives writes and deletes.** -/
theorem Consistent.of_replaced (h : Consistent s) (hr : Replaced s path held t)
    (hfits : Fits held) : Consistent t := by
  have hnew : ∀ other ≠ path, ∀ id, t.ownedBy path id → ¬ t.ownedBy other id := by
    intro other hne id hid hother
    have hle := hr.nextId_le_of_ownedBy hfits hid
    have hlt := h.lt_nextId ((hr.ownedBy_iff hne id).1 hother)
    omega
  constructor
  · intro other file hfile
    by_cases hne : other = path
    · subst hne
      cases held with
      | none => simp [hr.file_eq] at hfile
      | some content =>
        rw [hr.file_eq, Option.map_some, Option.some.injEq] at hfile
        exact ⟨s.nextId, hfile ▸ hr.stored_self (hfits content rfl)⟩
    · rw [hr.other_file_eq other hne] at hfile
      obtain ⟨first, hs⟩ := h.stored other file hfile
      exact ⟨first, hr.stored hne hs⟩
  · intro p q id hp hq
    by_cases hpp : p = path
    · by_cases hqp : q = path
      · rw [hpp, hqp]
      · exact absurd hq (hnew q hqp id (hpp ▸ hp))
    · by_cases hqp : q = path
      · exact absurd hp (hnew p hpp id (hqp ▸ hq))
      · exact h.apart p q id ((hr.ownedBy_iff hpp id).1 hp) ((hr.ownedBy_iff hqp id).1 hq)

/-- The blocks of other files stay as they are. -/
theorem Consistent.block_eq (h : Consistent s) (hr : Replaced s path held t) (hne : other ≠ path)
    (hid : s.ownedBy other id) : t.blocks.get? id = s.blocks.get? id := by
  have hnot : ¬ s.ownedBy path id := fun hp => hne (h.apart other path id hid hp)
  have hlt := h.lt_nextId hid
  rw [hr.block_eq id hnot]
  cases held with
  | none => rfl
  | some content =>
    have hnone : s.geometry.keptAt s.nextId content id = none :=
      s.geometry.keptAt_eq_none fun hrange => Nat.not_lt.2 hrange.1 hlt
    rw [Option.bind_some, hnone, Option.none_or]

/-- A new file's blocks are not released with the old ones. -/
theorem Consistent.block_new (h : Consistent s) (hr : Replaced s path (some content) t)
    {block : Bytes} (hk : s.geometry.keptAt s.nextId content id = some block) :
    t.blocks.get? id = some block := by
  have hnot : ¬ s.ownedBy path id := fun hid =>
    Nat.not_lt.2 (s.geometry.owned_of_keptAt hk).1 (h.lt_nextId hid)
  rw [hr.block_eq id hnot, Option.bind_some, hk, Option.some_or]

/-! ## Changing blocks only -/

variable {target : Option Nat}

theorem Touched.ownedBy_iff (h : Touched s target t) (path : String) (id : Nat) :
    t.ownedBy path id ↔ s.ownedBy path id := by
  rw [ownedBy, ownedBy, h.geometry_eq, h.files_eq]

theorem Touched.stored (h : Touched s target t) (hs : Stored s path first length) :
    Stored t path first length where
  file_eq := by rw [h.geometry_eq, h.files_eq, hs.file_eq]
  length_le := hs.length_le
  le_nextId := by
    rw [h.geometry_eq, h.nextId_eq]
    exact hs.le_nextId
  le_size := by
    rw [h.geometry_eq]
    exact hs.le_size

/-- **Consistency survives all that changes blocks only.** -/
theorem Consistent.of_touched (h : Consistent s) (ht : Touched s target t) : Consistent t where
  stored path file hfile := by
    rw [ht.files_eq] at hfile
    obtain ⟨first, hs⟩ := h.stored path file hfile
    exact ⟨first, ht.stored hs⟩
  apart path path' id hp hp' :=
    h.apart path path' id ((ht.ownedBy_iff path id).1 hp) ((ht.ownedBy_iff path' id).1 hp')

theorem Consistent.after (h : Consistent s) {c : Call} (hc : c.Fits) : Consistent (s.after c) := by
  rcases s.after_cases hc with ⟨_, _, -, hfits, hr⟩ | ⟨-, ht⟩
  · exact h.of_replaced hr hfits
  · exact h.of_touched ht

end Striping.Store
