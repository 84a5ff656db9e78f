import Striping.Proofs.Store.Consistency

/-!
# Who owns the blocks of a store

As long as no block is put or dropped by its id, the blocks of a store are exactly the data blocks
of its files that hold anything, with the lengths that the layout gives them. `Store.Exact` says so
and is kept by every step; with `Store.Consistent` it gives `Store.Accounted`, the whole account of
ids, blocks, counts and groups (`Store.accounted_run`).
-/

namespace Striping

/-! ## The blocks that records ask for -/

/-- The ids of the data blocks of a group that hold anything, with their lengths. -/
def GroupRecord.sizes (g : Geometry) (record : GroupRecord) : List (Nat × Nat) :=
  ((List.range g.dataBlocks).filter fun i => 0 < g.share record.block.length i).map fun i =>
    (record.block.id + i, g.share record.block.length i)

/-- The number of data blocks of a group that hold anything. -/
def GroupRecord.filledBlocks (g : Geometry) (record : GroupRecord) : Nat :=
  (List.range g.dataBlocks).countP fun i => 0 < g.share record.block.length i

/-- The ids of a group, parity included. -/
def GroupRecord.Covers (g : Geometry) (record : GroupRecord) (id : Nat) : Prop :=
  record.block.id ≤ id ∧ id < record.block.id + g.width

/-- The same of all groups of a file. -/
def StoredFile.sizes (g : Geometry) (file : StoredFile) : List (Nat × Nat) :=
  file.groups.flatMap (·.sizes g)

theorem GroupRecord.mem_sizes_iff (g : Geometry) (record : GroupRecord) (id n : Nat) :
    (id, n) ∈ record.sizes g ↔ ∃ i < g.dataBlocks,
      id = record.block.id + i ∧ g.share record.block.length i = n ∧ 0 < n := by
  simp only [sizes, List.mem_map, List.mem_filter, List.mem_range, decide_eq_true_eq,
    Prod.mk.injEq]
  constructor
  · rintro ⟨i, ⟨hi, hpos⟩, hid, hn⟩
    exact ⟨i, hi, hid.symm, hn, hn ▸ hpos⟩
  · rintro ⟨i, hi, hid, hn, hpos⟩
    exact ⟨i, ⟨hi, hn ▸ hpos⟩, hid.symm, hn⟩

theorem sum_map_filter_pos {α : Type} (l : List α) (f : α → Nat) :
    ((l.filter fun a => 0 < f a).map f).sum = (l.map f).sum := by
  induction l with
  | nil => rfl
  | cons a l ih =>
    rw [List.filter_cons]
    split
    · rw [List.map_cons, List.map_cons, List.sum_cons, List.sum_cons, ih]
    · next h =>
      have hzero : f a = 0 := by simpa using h
      rw [ih, List.map_cons, List.sum_cons, hzero, Nat.zero_add]

theorem GroupRecord.length_sizes (g : Geometry) (record : GroupRecord) :
    (record.sizes g).length = record.filledBlocks g := by
  rw [sizes, List.length_map, filledBlocks, List.countP_eq_length_filter]

theorem GroupRecord.sum_sizes (g : Geometry) (record : GroupRecord) :
    ((record.sizes g).map Prod.snd).sum = record.block.length := by
  rw [sizes, List.map_map]
  exact (sum_map_filter_pos ..).trans (g.sum_share _)

namespace Geometry

variable (g : Geometry)

/-- Sizes are those of the blocks that a store keeps. -/
theorem mem_sizes_storedFile_iff (first : Nat) (content : Bytes) (id n : Nat) :
    (id, n) ∈ (g.storedFile first content.length).sizes g ↔
      (g.keptAt first content id).map List.length = some n := by
  have hlen : ∀ group i, (g.column (g.groupBytes content group) i).length =
      g.share (g.groupLength content.length group) i := by
    intro group i
    rw [length_column, length_groupBytes]
  simp only [StoredFile.sizes, storedFile, records, List.mem_flatMap, List.mem_map, List.mem_range,
    exists_exists_and_eq_and, GroupRecord.mem_sizes_iff, Option.map_eq_some_iff,
    keptAt_eq_some_iff]
  constructor
  · rintro ⟨group, hg, i, hi, rfl, hn, hpos⟩
    refine ⟨_, ⟨group, hg, i, hi, ?_, rfl, rfl⟩, (hlen group i).trans hn⟩
    exact List.ne_nil_of_length_pos (by rw [hlen]; exact hn ▸ hpos)
  · rintro ⟨_, ⟨group, hg, i, hi, hne, rfl, rfl⟩, hn⟩
    exact ⟨group, hg, i, hi, rfl, (hlen group i).symm.trans hn,
      hn ▸ List.length_pos_iff.2 hne⟩

theorem sum_sizes_storedFile (first length : Nat) :
    (((g.storedFile first length).sizes g).map Prod.snd).sum = length := by
  rw [StoredFile.sizes, List.map_flatMap, List.flatMap_def, List.sum_flatten, List.map_map]
  have hsum : (List.sum ∘ fun record : GroupRecord => (record.sizes g).map Prod.snd) =
      fun record => record.block.length := funext (GroupRecord.sum_sizes g)
  rw [hsum, storedFile, records, List.map_map]
  exact g.sum_groupLength length

theorem nodup_sizes_storedFile (first length : Nat) :
    (((g.storedFile first length).sizes g).map Prod.fst).Nodup := by
  simp only [StoredFile.sizes, storedFile, records, List.map_flatMap, List.flatMap_map,
    GroupRecord.sizes, List.map_map]
  exact g.nodup_ids first _ fun group i => 0 < g.share (g.groupLength length group) i

end Geometry

namespace Store

/-! ## Exactly the blocks of files -/

/-- The file at a path asks for a block of `n` bytes at the id. -/
def Places (s : Store) (path : String) (id n : Nat) : Prop :=
  ∃ file, s.files.get? path = some file ∧ (id, n) ∈ file.sizes s.geometry

/-- The store has the blocks that its files ask for, as long as they have to be, and no others. -/
def Exact (s : Store) : Prop :=
  ∀ id n, (s.blocks.get? id).map List.length = some n ↔ ∃ path, s.Places path id n

variable {s t : Store} {path other : String} {held : Option Bytes} {id n : Nat}

theorem Places.ownedBy (h : s.Places path id n) : s.ownedBy path id := by
  obtain ⟨file, hfile, hmem⟩ := h
  obtain ⟨record, hrecord, hsize⟩ := List.mem_flatMap.1 hmem
  obtain ⟨i, hi, rfl, -, -⟩ := (record.mem_sizes_iff ..).1 hsize
  refine ⟨file, hfile, List.any_eq_true.2 ⟨record, hrecord, ?_⟩⟩
  have hwidth : i < s.geometry.width := Nat.lt_of_lt_of_le hi (Nat.le_add_right ..)
  simpa using hwidth

theorem Replaced.places_iff (h : Replaced s path held t) (hne : other ≠ path) (id n : Nat) :
    t.Places other id n ↔ s.Places other id n := by
  rw [Places, Places, h.geometry_eq, h.other_file_eq other hne]

theorem Replaced.places_self_iff (h : Replaced s path held t) (id n : Nat) :
    t.Places path id n ↔
      ((held.bind fun content => s.geometry.keptAt s.nextId content id).map List.length) =
        some n := by
  rw [Places, h.geometry_eq, h.file_eq]
  cases held with
  | none => simp
  | some content => simp [s.geometry.mem_sizes_storedFile_iff]

theorem exact_empty (g : Geometry) (first : Nat) : Exact (empty g first) := by
  intro id n
  simp [empty, Places]

/-- No other file asks for an old id of the path, or for a new one. -/
theorem Replaced.not_places (h : Replaced s path held t) (hs : Consistent s) (hne : other ≠ path)
    (hid : s.ownedBy path id ∨ s.nextId ≤ id) : ¬ t.Places other id n := by
  intro hplaces
  have hown := ((h.places_iff hne id n).1 hplaces).ownedBy
  rcases hid with hpath | hnew
  · exact hne (hs.apart other path id hown hpath)
  · exact Nat.not_lt.2 hnew (hs.lt_nextId hown)

/-- **Writes and deletes leave exactly the blocks of files.** -/
theorem Exact.of_replaced (h : Exact s) (hs : Consistent s) (hr : Replaced s path held t)
    (hfits : Fits held) : Exact t := by
  intro id n
  by_cases hpath : s.ownedBy path id
  · -- The old file's id: its block is released, and the new file has other ids.
    rw [hr.released id hpath]
    refine iff_of_false nofun fun ⟨other, hplaces⟩ => ?_
    by_cases hne : other = path
    · have hnew := hr.nextId_le_of_ownedBy hfits (hne ▸ hplaces).ownedBy
      exact Nat.not_lt.2 hnew (hs.lt_nextId hpath)
    · exact hr.not_places hs hne (.inl hpath) hplaces
  · rw [hr.block_eq id hpath]
    cases hkept : held.bind fun content => s.geometry.keptAt s.nextId content id with
    | some block =>
      have hself := hr.places_self_iff id n
      rw [hkept] at hself
      rw [Option.some_or, ← hself]
      refine ⟨fun hplaces => ⟨path, hplaces⟩, fun ⟨other, hplaces⟩ => ?_⟩
      have hnew : s.nextId ≤ id := by
        have hlen := (hr.places_self_iff id block.length).2 (by rw [hkept]; rfl)
        exact hr.nextId_le_of_ownedBy hfits hlen.ownedBy
      by_cases hne : other = path
      · exact hne ▸ hplaces
      · exact absurd hplaces (hr.not_places hs hne (.inr hnew))
    | none =>
      have hself : ¬ t.Places path id n := by
        rw [hr.places_self_iff, hkept]
        nofun
      rw [Option.none_or, h id n]
      constructor
      · rintro ⟨other, hplaces⟩
        have hne : other ≠ path := fun heq => hpath (heq ▸ hplaces.ownedBy)
        exact ⟨other, (hr.places_iff hne id n).2 hplaces⟩
      · rintro ⟨other, hplaces⟩
        have hne : other ≠ path := fun heq => hself (heq ▸ hplaces)
        exact ⟨other, (hr.places_iff hne id n).1 hplaces⟩

theorem Exact.of_touched (h : Exact s) {target : Option Nat} (ht : Touched s target t)
    (hlen : ∀ id, (t.blocks.get? id).map List.length = (s.blocks.get? id).map List.length) :
    Exact t := by
  intro id n
  rw [hlen, h id n]
  simp only [Places, ht.files_eq, ht.geometry_eq]

/-! ## Counting -/

/-- All that the files of a store ask for. -/
def sizes (s : Store) : List (Nat × Nat) := s.files.entries.flatMap fun e => e.2.sizes s.geometry

theorem mem_sizes_iff (s : Store) (id n : Nat) :
    (id, n) ∈ s.sizes ↔ ∃ path, s.Places path id n := by
  simp only [sizes, List.mem_flatMap, Places, FiniteMap.get?_eq_some_iff, Prod.exists]

theorem nodup_sizes (h : Consistent s) : (s.sizes.map Prod.fst).Nodup := by
  rw [sizes, List.map_flatMap, List.nodup_flatMap]
  constructor
  · rintro ⟨path, file⟩ he
    obtain ⟨first, hs⟩ := h.stored path file ((s.files.get?_eq_some_iff path file).2 he)
    rw [hs.eq_storedFile ((s.files.get?_eq_some_iff path file).2 he)]
    exact s.geometry.nodup_sizes_storedFile first file.length
  · have hkeys : s.files.entries.Pairwise fun e e' => e.1 ≠ e'.1 :=
      List.pairwise_map.1 s.files.nodup
    have howned : ∀ e ∈ s.files.entries, ∀ id ∈ (e.2.sizes s.geometry).map Prod.fst,
        s.ownedBy e.1 id := by
      rintro ⟨path, file⟩ he _ hid
      obtain ⟨⟨id, n⟩, hmem, rfl⟩ := List.mem_map.1 hid
      have hplaces : s.Places path id n := ⟨file, (s.files.get?_eq_some_iff path file).2 he, hmem⟩
      exact hplaces.ownedBy
    refine hkeys.imp_of_mem fun {e e'} he he' hne => List.disjoint_left.2 fun id hid hid' => ?_
    exact hne (h.apart e.1 e'.1 id (howned e he id hid) (howned e' he' id hid'))

theorem Exact.bytesStored_eq (h : Exact s) (hs : Consistent s) :
    s.stats.bytesStored = s.files.total (·.length) := by
  have hlength : ∀ e ∈ s.files.entries, ((e.2.sizes s.geometry).map Prod.snd).sum = e.2.length := by
    rintro ⟨path, file⟩ he
    have hget := (s.files.get?_eq_some_iff path file).2 he
    obtain ⟨first, hstored⟩ := hs.stored path file hget
    rw [hstored.eq_storedFile hget]
    exact s.geometry.sum_sizes_storedFile first file.length
  calc s.stats.bytesStored
      = (s.sizes.map Prod.snd).sum :=
        FiniteMap.total_eq_sum (nodup_sizes hs) fun id n =>
          (h id n).trans (s.mem_sizes_iff id n).symm
    _ = (s.files.entries.map fun e => ((e.2.sizes s.geometry).map Prod.snd).sum).sum := by
        rw [sizes, List.map_flatMap, List.flatMap_def, List.sum_flatten, List.map_map]
        rfl
    _ = (s.files.entries.map fun e => e.2.length).sum :=
        congrArg List.sum (List.map_congr_left hlength)
    _ = s.files.total (·.length) := (s.files.total_eq_sum_map _).symm

theorem Exact.blockCount_eq (h : Exact s) (hs : Consistent s) : s.stats.blockCount =
    s.files.total fun file => (file.groups.map (·.filledBlocks s.geometry)).sum := by
  have hfilled : ∀ file : StoredFile, (file.sizes s.geometry).length =
      (file.groups.map (·.filledBlocks s.geometry)).sum := by
    intro file
    simp only [StoredFile.sizes, List.length_flatMap, GroupRecord.length_sizes]
  calc s.stats.blockCount
      = s.sizes.length :=
        FiniteMap.size_eq_length (nodup_sizes hs) fun id n =>
          (h id n).trans (s.mem_sizes_iff id n).symm
    _ = (s.files.entries.map fun e => (e.2.sizes s.geometry).length).sum := by
        rw [sizes, List.length_flatMap]
    _ = s.files.total fun file => (file.groups.map (·.filledBlocks s.geometry)).sum := by
        simp only [hfilled, FiniteMap.total_eq_sum_map]

/-! ## The account -/

/-- The record is the one at index `group` of the file at the path. -/
def HasGroup (s : Store) (path : String) (group : Nat) (record : GroupRecord) : Prop :=
  ∃ file, s.files.get? path = some file ∧ file.groups[group]? = some record

/-- What the records and blocks of a store with layout `g` are. -/
structure Accounted (g : Geometry) (s : Store) : Prop where
  /-- No id lies in the ranges of two groups. -/
  apart : ∀ path path' group group' record record' id, s.HasGroup path group record →
    s.HasGroup path' group' record' → record.Covers g id → record'.Covers g id →
      path = path' ∧ group = group'
  /-- All ids were given out. -/
  le_nextId : ∀ path group record, s.HasGroup path group record →
    record.block.id + g.width ≤ s.nextId
  /-- The blocks are the data blocks that hold anything. -/
  block_iff : ∀ id n, (s.blocks.get? id).map List.length = some n ↔
    ∃ path group record, s.HasGroup path group record ∧ ∃ i < g.dataBlocks,
      id = record.block.id + i ∧ g.blockLength record.block.length i = .ok n ∧ 0 < n
  /-- The bytes in blocks are those of the files. -/
  bytesStored_eq : s.stats.bytesStored = s.files.total (·.length)
  /-- The number of blocks. -/
  blockCount_eq : s.stats.blockCount =
    s.files.total fun file => (file.groups.map (·.filledBlocks g)).sum
  /-- A file has as many groups as its length takes. -/
  length_groups : ∀ path file, s.files.get? path = some file →
    file.groups.length = g.groupCount file.length
  /-- Each group describes its part of the file and can be split. -/
  group_eq : ∀ path file group record, s.files.get? path = some file →
    file.groups[group]? = some record →
      record.start = group * g.groupCapacity ∧
      record.block.length = g.groupLength file.length group ∧
      record.indices.map UInt8.toNat = List.range g.dataBlocks ∧
      ∃ slots, record.split g = .ok slots

/-- Every group is one of a file that was written. -/
theorem Consistent.exists_of_hasGroup (h : Consistent s) {group : Nat} {record : GroupRecord}
    (hgroup : s.HasGroup path group record) : ∃ first length, Stored s path first length ∧
      group < s.geometry.groupCount length ∧
        record = s.geometry.groupRecord first length group := by
  obtain ⟨file, hfile, hrecord⟩ := hgroup
  obtain ⟨first, hstored⟩ := h.stored path file hfile
  rw [hstored.eq_storedFile hfile] at hrecord
  exact ⟨first, file.length, hstored, (s.geometry.getElem?_records ..).1 hrecord⟩

theorem HasGroup.ownedBy {group : Nat} {record : GroupRecord} (h : s.HasGroup path group record)
    (hid : record.Covers s.geometry id) : s.ownedBy path id := by
  obtain ⟨file, hfile, hrecord⟩ := h
  refine ⟨file, hfile, List.any_eq_true.2 ⟨record, List.mem_of_getElem? hrecord, ?_⟩⟩
  simpa [GroupRecord.Covers] using hid

/-- No id lies in the ranges of two groups of one file. -/
theorem eq_of_covers {g : Geometry} {first length group group' : Nat}
    (h : (g.groupRecord first length group).Covers g id)
    (h' : (g.groupRecord first length group').Covers g id) : group = group' :=
  g.eq_of_groupId_le first h.1 h.2 h'.1 h'.2

theorem Consistent.apart_groups (h : Consistent s) {path' : String} {group group' : Nat}
    {record record' : GroupRecord} (hgroup : s.HasGroup path group record)
    (hgroup' : s.HasGroup path' group' record') (hid : record.Covers s.geometry id)
    (hid' : record'.Covers s.geometry id) : path = path' ∧ group = group' := by
  obtain rfl := h.apart path path' id (hgroup.ownedBy hid) (hgroup'.ownedBy hid')
  obtain ⟨file, hfile, hrecord⟩ := hgroup
  obtain ⟨file', hfile', hrecord'⟩ := hgroup'
  obtain rfl := Option.some.inj (hfile.symm.trans hfile')
  obtain ⟨first, hstored⟩ := h.stored path file hfile
  rw [hstored.eq_storedFile hfile] at hrecord hrecord'
  obtain ⟨-, rfl⟩ := (s.geometry.getElem?_records ..).1 hrecord
  obtain ⟨-, rfl⟩ := (s.geometry.getElem?_records ..).1 hrecord'
  exact ⟨rfl, eq_of_covers hid hid'⟩

theorem Consistent.blockLength_eq (h : Consistent s) {group i : Nat} {record : GroupRecord}
    (hgroup : s.HasGroup path group record) (hi : i < s.geometry.dataBlocks) :
    s.geometry.blockLength record.block.length i =
      .ok (s.geometry.share record.block.length i) := by
  obtain ⟨first, length, -, -, rfl⟩ := h.exists_of_hasGroup hgroup
  exact s.geometry.blockLength_eq_ok (Nat.lt_of_lt_of_le hi (Nat.le_add_right ..))
    (s.geometry.groupLength_le ..)

theorem Consistent.places_iff (h : Consistent s) : s.Places path id n ↔
    ∃ group record, s.HasGroup path group record ∧ ∃ i < s.geometry.dataBlocks,
      id = record.block.id + i ∧ s.geometry.blockLength record.block.length i = .ok n ∧ 0 < n := by
  constructor
  · rintro ⟨file, hfile, hmem⟩
    obtain ⟨record, hrecord, hsize⟩ := List.mem_flatMap.1 hmem
    obtain ⟨group, hgroup⟩ := List.mem_iff_getElem?.1 hrecord
    obtain ⟨i, hi, hid, hn, hpos⟩ := (record.mem_sizes_iff ..).1 hsize
    have hhas : s.HasGroup path group record := ⟨file, hfile, hgroup⟩
    exact ⟨group, record, hhas, i, hi, hid, by rw [h.blockLength_eq hhas hi, hn], hpos⟩
  · rintro ⟨group, record, hhas, i, hi, hid, hn, hpos⟩
    rw [h.blockLength_eq hhas hi, Except.ok.injEq] at hn
    obtain ⟨file, hfile, hgroup⟩ := hhas
    refine ⟨file, hfile, List.mem_flatMap.2 ⟨record, List.mem_of_getElem? hgroup, ?_⟩⟩
    exact (record.mem_sizes_iff ..).2 ⟨i, hi, hid, hn, hpos⟩

/-- **A consistent store with exactly the blocks of its files is accounted for.** -/
theorem accounted (hs : Consistent s) (he : Exact s) : Accounted s.geometry s where
  apart path path' group group' record record' id hgroup hgroup' hid hid' :=
    hs.apart_groups hgroup hgroup' hid hid'
  le_nextId path group record hgroup := by
    obtain ⟨first, length, hstored, hlt, rfl⟩ := hs.exists_of_hasGroup hgroup
    exact Nat.le_trans (s.geometry.groupId_add_width_le first hlt) hstored.le_nextId
  block_iff id n := by rw [he id n, exists_congr fun path => hs.places_iff]
  bytesStored_eq := he.bytesStored_eq hs
  blockCount_eq := he.blockCount_eq hs
  length_groups path file hfile := by
    obtain ⟨first, hstored⟩ := hs.stored path file hfile
    rw [hstored.eq_storedFile hfile]
    simp [Geometry.storedFile, Geometry.records]
  group_eq path file group record hfile hrecord := by
    obtain ⟨first, hstored⟩ := hs.stored path file hfile
    rw [hstored.eq_storedFile hfile] at hrecord
    obtain ⟨hlt, rfl⟩ := (s.geometry.getElem?_records ..).1 hrecord
    have hid := Nat.le_trans (s.geometry.groupId_add_width_le first hlt) hstored.le_size
    have hstart := s.geometry.start_add_groupCapacity_le hstored.length_le hlt
    exact ⟨rfl, rfl, s.geometry.map_toNat_indices .., _, s.geometry.split_groupRecord hid hstart⟩

/-! ## Runs without puts and drops -/

/-- A call that revises no path leaves the lengths of all blocks. -/
theorem map_length_after {c : Call} (hc : c.keepsBlocks) (ht : Touched s c.target (s.after c))
    (id : Nat) :
    ((s.after c).blocks.get? id).map List.length = (s.blocks.get? id).map List.length := by
  cases c with
  | put | drop => exact nomatch hc
  | corrupt id offset value => exact s.map_length_corrupt ..
  | write | delete | read | fetchGroup | fetchGroups | readGroups => rw [ht.block_eq id nofun]

theorem exact_after {c : Call} (hc : c.Fits ∧ c.keepsBlocks) (h : Consistent s ∧ Exact s) :
    Consistent (s.after c) ∧ Exact (s.after c) := by
  refine ⟨h.1.after hc.1, ?_⟩
  rcases s.after_cases hc.1 with ⟨path, held, -, hfits, hr⟩ | ⟨-, ht⟩
  · exact h.2.of_replaced h.1 hr hfits
  · exact h.2.of_touched ht (map_length_after hc.2 ht)

/-- **Every store that writes, deletes, reads and corruptions lead to is accounted for**: its ids,
its blocks, its counts and the groups of its files. -/
theorem accounted_run (g : Geometry) (first : Nat) {calls : List Call}
    (hcalls : ∀ c ∈ calls, c.Fits ∧ c.keepsBlocks) :
    Accounted g ((empty g first).run calls) := by
  have hpermits : Permits (fun _ c => c.Fits ∧ c.keepsBlocks) (empty g first) calls :=
    permits_of_forall hcalls
  have hg : ((empty g first).run calls).geometry = g :=
    geometry_run (fun _ _ hc => hc.1) hpermits
  obtain ⟨hs, he⟩ := run_invariant (P := fun s => Consistent s ∧ Exact s)
    (fun _ _ hc h => exact_after hc h) hpermits ⟨consistent_empty g first, exact_empty g first⟩
  have h := accounted hs he
  rwa [hg] at h

/-- One path is written twice and a byte of it corrupted, and another is deleted. -/
def overwriting : List Call :=
  [.write "a" [1, 2, 3], .write "b" [4], .write "a" [5, 6, 7, 8, 9, 10, 11, 12, 13],
    .corrupt 8 1 0, .delete "b", .delete "b"]

theorem accounted_run_overwriting :
    (∀ c ∈ overwriting, c.Fits ∧ c.keepsBlocks) ∧
      Accounted .small ((empty .small 1).run overwriting) :=
  have hcalls : ∀ c ∈ overwriting, c.Fits ∧ c.keepsBlocks := by decide
  ⟨hcalls, accounted_run .small 1 hcalls⟩

example : ((empty .small 1).run overwriting).stats = ⟨3, 9, 0, 6, 0⟩ := by decide +kernel

end Store

end Striping
