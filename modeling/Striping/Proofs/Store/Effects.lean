import Striping.Proofs.FiniteMaps
import Striping.Proofs.Scattering
import Striping.Store

/-!
# What the operations of a store do

`Store.Replaced` says all that a successful write or delete changes, through the look-ups of paths
and ids: a delete is a write of nothing. `Store.write_cases` and `Store.delete_cases` say when they
succeed, and that nothing changes otherwise. What follows about stores is derived from these and not
from the operations.
-/

namespace Striping

namespace Geometry

variable (g : Geometry)

/-! ## The ids and blocks of a file -/

/-- The number of ids that a file of `length` bytes takes. -/
def idCount (length : Nat) : Nat := g.groupCount length * g.width

/-- The records of a file of `length` bytes whose ids start at `first`. -/
def records (first length : Nat) : List GroupRecord :=
  (List.range (g.groupCount length)).map (g.groupRecord first length)

/-- What a store knows of such a file. -/
def storedFile (first length : Nat) : StoredFile := ⟨length, g.records first length⟩

/-- The blocks that a store keeps for a file with this content. -/
def kept (first : Nat) (content : Bytes) : List (Nat × Bytes) :=
  g.numbered first ((List.range (g.groupCount content.length)).map (g.columns content))

theorem width_pos : 0 < g.width := Nat.lt_of_lt_of_le g.dataBlocks_pos (Nat.le_add_right ..)

theorem groupId_add_width_le {length group : Nat} (first : Nat) (h : group < g.groupCount length) :
    g.groupId first group + g.width ≤ first + g.idCount length := by
  have := Nat.mul_le_mul_right g.width (show group + 1 ≤ g.groupCount length from h)
  rw [Nat.add_mul] at this
  rw [groupId, idCount]
  omega

theorem getElem?_records (first length group : Nat) (record : GroupRecord) :
    (g.records first length)[group]? = some record ↔
      group < g.groupCount length ∧ record = g.groupRecord first length group := by
  rw [records, List.getElem?_map]
  by_cases hg : group < g.groupCount length
  · simp [hg, eq_comm]
  · simp [hg]

/-- A file that holds bytes has a first group. -/
theorem exists_records_eq_cons {length : Nat} (first : Nat) (h : 0 < g.groupCount length) :
    ∃ rest, g.records first length = g.groupRecord first length 0 :: rest := by
  obtain ⟨n, hn⟩ := Nat.exists_eq_add_one_of_ne_zero (Nat.ne_of_gt h)
  exact ⟨_, by rw [records, hn, List.range_succ_eq_map, List.map_cons]⟩

/-- Two groups of a file share no id. -/
theorem groupId_add_width_le_groupId {group group' : Nat} (first : Nat) (h : group < group') :
    g.groupId first group + g.width ≤ g.groupId first group' := by
  have := Nat.mul_le_mul_right g.width (show group + 1 ≤ group' from h)
  rw [Nat.add_mul] at this
  rw [groupId, groupId]
  omega

/-- No id lies in the ranges of two groups of a file. -/
theorem eq_of_groupId_le (first : Nat) {group group' id : Nat}
    (hle : g.groupId first group ≤ id) (hlt : id < g.groupId first group + g.width)
    (hle' : g.groupId first group' ≤ id) (hlt' : id < g.groupId first group' + g.width) :
    group = group' := by
  rcases Nat.lt_trichotomy group group' with h | h | h
  · have := g.groupId_add_width_le_groupId first h
    omega
  · exact h
  · have := g.groupId_add_width_le_groupId first h
    omega

/-- A file owns the ids from the first to the last of its blocks. -/
theorem owns_records_iff (first length id : Nat) :
    Store.owns g (g.records first length) id = true ↔
      first ≤ id ∧ id < first + g.idCount length := by
  simp only [Store.owns, records, List.any_eq_true, List.mem_map, List.mem_range,
    Bool.and_eq_true, decide_eq_true_eq, exists_exists_and_eq_and]
  change (∃ group < g.groupCount length, g.groupId first group ≤ id ∧
    id < g.groupId first group + g.width) ↔ _
  constructor
  · rintro ⟨group, hg, hle, hlt⟩
    have := g.groupId_add_width_le first hg
    exact ⟨Nat.le_trans (Nat.le_add_right ..) hle, Nat.lt_of_lt_of_le hlt this⟩
  · rintro ⟨hle, hlt⟩
    have hdm := Nat.div_add_mod' (id - first) g.width
    have hmod := Nat.mod_lt (id - first) g.width_pos
    refine ⟨(id - first) / g.width, ?_, ?_, ?_⟩
    · exact Nat.div_lt_of_lt_mul (by rw [Nat.mul_comm]; rw [idCount] at hlt; omega)
    · rw [groupId]
      omega
    · rw [groupId]
      omega

theorem kept_eq (first : Nat) (content : Bytes) : g.kept first content =
    (List.range (g.groupCount content.length)).flatMap fun group =>
      ((List.range g.dataBlocks).filter fun i =>
        !(g.column (g.groupBytes content group) i).isEmpty).map fun i =>
          (g.groupId first group + i, g.column (g.groupBytes content group) i) := by
  rw [kept, numbered, zipIdx_map_range, List.flatMap_map]
  simp only [columns, zipIdx_map_range, List.filter_map, List.map_map]
  rfl

theorem mem_kept_iff (first : Nat) (content : Bytes) (id : Nat) (block : Bytes) :
    (id, block) ∈ g.kept first content ↔
      ∃ group < g.groupCount content.length, ∃ i < g.dataBlocks,
        g.column (g.groupBytes content group) i ≠ [] ∧ g.groupId first group + i = id ∧
          g.column (g.groupBytes content group) i = block := by
  simp only [kept_eq, List.mem_flatMap, List.mem_map, List.mem_filter, List.mem_range,
    Prod.mk.injEq, Bool.not_eq_true', List.isEmpty_eq_false_iff, and_assoc]

/-- No id is given to two data blocks of a file. -/
theorem nodup_ids (first count : Nat) (p : Nat → Nat → Bool) :
    ((List.range count).flatMap fun group => ((List.range g.dataBlocks).filter (p group)).map
      fun i => g.groupId first group + i).Nodup := by
  rw [List.nodup_flatMap]
  constructor
  · intro group _
    exact (List.nodup_range.filter _).map fun i j h => Nat.add_left_cancel h
  · apply List.pairwise_lt_range.imp
    intro group group' hlt
    have hapart := g.groupId_add_width_le_groupId first hlt
    simp only [Function.onFun, List.disjoint_left, List.mem_map, List.mem_filter, List.mem_range]
    rintro _ ⟨i, ⟨hi, -⟩, rfl⟩ ⟨j, -, hj⟩
    rw [width] at hapart
    omega

theorem nodup_kept (first : Nat) (content : Bytes) :
    ((g.kept first content).map Prod.fst).Nodup := by
  rw [kept_eq, List.map_flatMap]
  simp only [List.map_map]
  exact g.nodup_ids first _ fun group i => !(g.column (g.groupBytes content group) i).isEmpty

/-- The block that a store keeps at an id for a file with this content. -/
def keptAt (first : Nat) (content : Bytes) (id : Nat) : Option Bytes :=
  (g.kept first content).lookup id

theorem keptAt_eq_some_iff (first : Nat) (content : Bytes) (id : Nat) (block : Bytes) :
    g.keptAt first content id = some block ↔
      ∃ group < g.groupCount content.length, ∃ i < g.dataBlocks,
        g.column (g.groupBytes content group) i ≠ [] ∧ g.groupId first group + i = id ∧
          g.column (g.groupBytes content group) i = block := by
  rw [keptAt, lookup_eq_some_iff_mem (g.nodup_kept first content), mem_kept_iff]

/-- Blocks are kept at ids of the file only. -/
theorem owned_of_keptAt {first : Nat} {content : Bytes} {id : Nat} {block : Bytes}
    (h : g.keptAt first content id = some block) :
    first ≤ id ∧ id < first + g.idCount content.length := by
  obtain ⟨group, hg, i, hi, -, rfl, -⟩ := (g.keptAt_eq_some_iff ..).1 h
  have hle := g.groupId_add_width_le first hg
  rw [groupId, width] at *
  omega

theorem keptAt_eq_none {first : Nat} {content : Bytes} {id : Nat}
    (h : ¬ (first ≤ id ∧ id < first + g.idCount content.length)) :
    g.keptAt first content id = none := by
  cases hk : g.keptAt first content id with
  | none => rfl
  | some block => exact absurd (g.owned_of_keptAt hk) h

end Geometry

namespace Store

/-! ## Replacing a file -/

/-- Whether an id belongs to the file at a path. -/
def ownedBy (s : Store) (path : String) (id : Nat) : Prop :=
  ∃ file, s.files.get? path = some file ∧ owns s.geometry file.groups id = true

/-- All that changes when a path is given content, or none. New ids follow the last one given out;
the blocks of the path's previous file are gone. -/
structure Replaced (s : Store) (path : String) (held : Option Bytes) (t : Store) : Prop where
  /-- There are ids left for the content. -/
  room : ∀ content, held = some content →
    s.nextId + s.geometry.idCount content.length < Word.size
  geometry_eq : t.geometry = s.geometry
  nextId_eq : t.nextId = s.nextId + held.elim 0 fun content => s.geometry.idCount content.length
  file_eq : t.files.get? path =
    held.map fun content => s.geometry.storedFile s.nextId content.length
  other_file_eq : ∀ other ≠ path, t.files.get? other = s.files.get? other
  released : ∀ id, s.ownedBy path id → t.blocks.get? id = none
  block_eq : ∀ id, ¬ s.ownedBy path id → t.blocks.get? id =
    (held.bind fun content => s.geometry.keptAt s.nextId content id).or (s.blocks.get? id)
  writes_eq : t.writes =
    s.writes + held.elim 0 fun content => .ofNat (s.geometry.kept s.nextId content).length
  reads_eq : t.reads = s.reads
  bytesRead_eq : t.bytesRead = s.bytesRead

/-- The store without the blocks of a path's previous file, if there was one. -/
def freed (s : Store) (previous : Option StoredFile) : Store := (previous.map s.release).getD s

section Freed

variable (s : Store) (previous : Option StoredFile)

/-- Only blocks change. -/
theorem freed_eq : s.freed previous = { s with blocks := (s.freed previous).blocks } := by
  cases previous with
  | none => rfl
  | some file => rw [freed, Option.map_some, Option.getD_some, release]

theorem get?_freed_of_owns {file : StoredFile} (hfile : previous = some file) {id : Nat}
    (h : owns s.geometry file.groups id = true) : (s.freed previous).blocks.get? id = none := by
  subst hfile
  rw [freed, Option.map_some, Option.getD_some, release, FiniteMap.get?_eraseWhere, if_pos h]

theorem get?_freed_of_not_owns {id : Nat}
    (h : ∀ file, previous = some file → ¬ owns s.geometry file.groups id = true) :
    (s.freed previous).blocks.get? id = s.blocks.get? id := by
  cases previous with
  | none => rfl
  | some file =>
    rw [freed, Option.map_some, Option.getD_some, release, FiniteMap.get?_eraseWhere,
      if_neg (h file rfl)]

end Freed

/-! ## Writing -/

/-- The store after a write, before the path's previous file is released. -/
def added (s : Store) (path : String) (content : Bytes) : Store :=
  { s with
    nextId := s.nextId + s.geometry.idCount content.length
    blocks := s.blocks.insertAll (s.geometry.kept s.nextId content)
    files := s.files.insert path (s.geometry.storedFile s.nextId content.length)
    writes := s.writes + .ofNat (s.geometry.kept s.nextId content).length }

theorem write_eq (s : Store) (path : String) (content : Bytes) : s.write path content =
    if s.nextId + s.geometry.idCount content.length < Word.size then
      (.ok (s.geometry.groupCount content.length),
        (s.added path content).freed (s.files.get? path))
    else
      (.error (.storage (.idsExhausted (s.geometry.idCount content.length) s.nextId)), s) := by
  rw [write, s.geometry.scatterFile_eq_ok]
  simp only [List.length_map, List.length_range, allocate]
  by_cases hroom : s.nextId + s.geometry.idCount content.length < Word.size
  · rw [if_pos hroom]
    rw [Geometry.idCount] at hroom
    rw [if_pos hroom]
    rfl
  · rw [if_neg hroom]
    rw [Geometry.idCount] at hroom
    rw [if_neg hroom]
    rfl

theorem get?_added_blocks (s : Store) (path : String) (content : Bytes) (id : Nat) :
    (s.added path content).blocks.get? id =
      (s.geometry.keptAt s.nextId content id).or (s.blocks.get? id) :=
  FiniteMap.get?_insertAll _ (s.geometry.nodup_kept ..) id

theorem get?_added_files (s : Store) (path : String) (content : Bytes) (other : String) :
    (s.added path content).files.get? other =
      if other = path then some (s.geometry.storedFile s.nextId content.length)
      else s.files.get? other :=
  FiniteMap.get?_insert ..

theorem replaced_of_room {s : Store} {path : String} {content : Bytes}
    (hroom : s.nextId + s.geometry.idCount content.length < Word.size) :
    Replaced s path (some content) ((s.added path content).freed (s.files.get? path)) where
  room _ h := by rwa [← Option.some.inj h]
  geometry_eq := by rw [freed_eq, added]
  nextId_eq := by rw [freed_eq, added, Option.elim_some]
  file_eq := by rw [freed_eq, s.get?_added_files, if_pos rfl, Option.map_some]
  other_file_eq other h := by rw [freed_eq, s.get?_added_files, if_neg h]
  released id h := by
    obtain ⟨file, hfile, howns⟩ := h
    exact get?_freed_of_owns _ _ hfile howns
  block_eq id h := by
    have hnot : ∀ file, s.files.get? path = some file →
        ¬ owns (s.added path content).geometry file.groups id = true := by
      intro file hfile howns
      exact h ⟨file, hfile, howns⟩
    rw [get?_freed_of_not_owns _ _ hnot, s.get?_added_blocks, Option.bind_some]
  writes_eq := by rw [freed_eq, added, Option.elim_some]
  reads_eq := by rw [freed_eq, added]
  bytesRead_eq := by rw [freed_eq, added]

/-- **A write succeeds if there are ids left, and else changes nothing.** -/
theorem write_cases (s : Store) (path : String) (content : Bytes) :
    (∃ t, s.write path content = (.ok (s.geometry.groupCount content.length), t) ∧
        Replaced s path (some content) t) ∨
      Word.size ≤ s.nextId + s.geometry.idCount content.length ∧
        s.write path content = (.error (.storage
          (.idsExhausted (s.geometry.idCount content.length) s.nextId)), s) := by
  rw [write_eq]
  by_cases hroom : s.nextId + s.geometry.idCount content.length < Word.size
  · exact .inl ⟨_, if_pos hroom, replaced_of_room hroom⟩
  · exact .inr ⟨Nat.le_of_not_lt hroom, if_neg hroom⟩

/-! ## Deleting -/

/-- The store after a delete, before the file's blocks are released. -/
def removed (s : Store) (path : String) : Store := { s with files := s.files.erase path }

theorem replaced_removed (s : Store) (path : String) :
    Replaced s path none ((s.removed path).freed (s.files.get? path)) where
  room content h := by cases h
  geometry_eq := by rw [freed_eq, removed]
  nextId_eq := by rw [freed_eq, removed, Option.elim_none, Nat.add_zero]
  file_eq := by rw [freed_eq, removed, FiniteMap.get?_erase, if_pos rfl, Option.map_none]
  other_file_eq other h := by rw [freed_eq, removed, FiniteMap.get?_erase, if_neg h]
  released id h := by
    obtain ⟨file, hfile, howns⟩ := h
    exact get?_freed_of_owns _ _ hfile howns
  block_eq id h := by
    have hnot : ∀ file, s.files.get? path = some file →
        ¬ owns (s.removed path).geometry file.groups id = true := by
      intro file hfile howns
      exact h ⟨file, hfile, howns⟩
    rw [get?_freed_of_not_owns _ _ hnot, removed, Option.bind_none, Option.none_or]
  writes_eq := by rw [freed_eq, removed, Option.elim_none, UInt64.add_zero]
  reads_eq := by rw [freed_eq, removed]
  bytesRead_eq := by rw [freed_eq, removed]

/-- **A delete succeeds if there is a file, and else changes nothing.** -/
theorem delete_cases (s : Store) (path : String) :
    (∃ t, s.delete path = (.ok (), t) ∧ (s.files.get? path).isSome ∧ Replaced s path none t) ∨
      s.files.get? path = none ∧ s.delete path = (.error (.fileNotFound path), s) := by
  have hreplaced := s.replaced_removed path
  rw [delete, file]
  cases hprev : s.files.get? path with
  | none => exact .inr ⟨rfl, rfl⟩
  | some file =>
    rw [hprev] at hreplaced
    exact .inl ⟨_, rfl, rfl, hreplaced⟩

end Store

end Striping
