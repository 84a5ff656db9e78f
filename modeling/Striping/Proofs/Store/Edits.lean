import Striping.Proofs.Store.Corruption
import Striping.Proofs.Words.Layout

/-!
# Replacing single bytes of files

A byte of a block is a byte of at most one file. So corruptions change what files hold but keep them
intact (`Store.Intact.exists_corrupt`), and every store that writes, deletes and corruptions lead to
holds some content at each of its paths (`Store.exists_holds_run`).

In such a store the place that the layout names for a byte of a file is there to be changed.
Changing it replaces this byte of this file, and nothing else that the store answers
(`Store.corrupt_located`).
-/

namespace Striping.Store

variable {s t : Store} {path : String} {held : Option Bytes} {first : Nat} {content : Bytes}

/-! ## What a corruption keeps -/

theorem corrupt_of_length_le {id offset : Nat} {block : Bytes}
    (h : s.blocks.get? id = some block) (hle : block.length ≤ offset) (value : UInt8) :
    (s.corrupt id offset value).2 = s := by
  rw [corrupt, h]
  dsimp only
  rw [if_pos hle]

/-- **A file is intact after any corruption**, with some content. -/
theorem Intact.exists_corrupt (h : Intact s path first content) (id offset : Nat) (value : UInt8) :
    ∃ content', Intact (s.corrupt id offset value).2 path first content' := by
  have ht := s.touched_corrupt id offset value
  cases hkept : s.geometry.keptAt first content id with
  | none =>
    refine ⟨content, ht.stored h.stored, fun other block hblock => ?_⟩
    rw [ht.geometry_eq] at hblock
    have hne : some id ≠ some other := by
      rintro ⟨⟩
      rw [hkept] at hblock
      cases hblock
    rw [ht.block_eq other hne, h.kept other block hblock]
  | some block =>
    have hget := h.kept id block hkept
    rcases Nat.lt_or_ge offset block.length with hoffset | hoffset
    · -- the byte of the block is one of the file
      obtain ⟨group, -, i, hi, -, rfl, rfl⟩ := (s.geometry.keptAt_eq_some_iff ..).1 hkept
      have hlt := Nat.lt_of_lt_of_le hoffset (s.geometry.length_groupColumn_le content hi group)
      have hbyte : (s.geometry.column (s.geometry.groupBytes content group) i)[offset]? =
          content[s.geometry.position group i offset]? :=
        s.geometry.getElem?_groupColumn hi hlt group
      rw [List.getElem?_eq_getElem hoffset] at hbyte
      have hpos := (List.getElem?_eq_some_iff.1 hbyte.symm).1
      obtain ⟨t, hcorrupt, -, hintact⟩ := h.corrupt hpos value
      rw [Geometry.holder, s.geometry.locate_position hi hlt] at hcorrupt
      exact ⟨_, by rwa [hcorrupt]⟩
    · exact ⟨content, by rwa [corrupt_of_length_le hget hoffset]⟩

theorem HoldsAt.exists_corrupt (h : HoldsAt s path held) (id offset : Nat) (value : UInt8) :
    ∃ held', HoldsAt (s.corrupt id offset value).2 path held' := by
  cases held with
  | none =>
    refine ⟨none, ?_⟩
    rw [HoldsAt, (s.touched_corrupt id offset value).files_eq]
    exact h
  | some content =>
    obtain ⟨first, hintact⟩ := h
    obtain ⟨content', hintact'⟩ := hintact.exists_corrupt id offset value
    exact ⟨some content', first, hintact'⟩

/-- **Some contents are held after every call that neither puts nor drops blocks.** -/
theorem exists_holds_after {c : Call} (hc : c.Fits ∧ c.keepsBlocks) (h : ∃ held, Holds s held) :
    ∃ held, Holds (s.after c) held := by
  obtain ⟨held, hholds⟩ := h
  cases c with
  | put | drop => exact nomatch hc.2
  | corrupt id offset value =>
    choose held' hheld' using fun path => (hholds.holdsAt path).exists_corrupt id offset value
    exact ⟨held', hholds.consistent.after hc.1, hheld'⟩
  | write | delete | read | fetchGroup | fetchGroups | readGroups =>
    exact ⟨_, hholds.after (s.spares_of_plain ⟨hc.1, rfl⟩)⟩

theorem exists_holds_run (g : Geometry) (first : Nat) {calls : List Call}
    (hcalls : ∀ c ∈ calls, c.Fits ∧ c.keepsBlocks) :
    ∃ held, Holds ((empty g first).run calls) held :=
  run_invariant (P := fun s => ∃ held, Holds s held) (fun _ _ hc h => exists_holds_after hc h)
    (permits_of_forall hcalls) ⟨_, holds_empty g first⟩

/-- A corruption changes no counts. -/
theorem stats_corrupt (s : Store) (id offset : Nat) (value : UInt8) :
    (s.corrupt id offset value).2.stats = s.stats := by
  obtain ⟨hsize, htotal⟩ := FiniteMap.size_eq_and_total_eq (s.map_length_corrupt id offset value)
  have hcounts : (s.corrupt id offset value).2.reads = s.reads ∧
      (s.corrupt id offset value).2.writes = s.writes ∧
      (s.corrupt id offset value).2.bytesRead = s.bytesRead := by
    rw [corrupt]
    cases s.blocks.get? id with
    | none => exact ⟨rfl, rfl, rfl⟩
    | some content =>
      dsimp only
      split <;> exact ⟨rfl, rfl, rfl⟩
  rw [stats, stats, hsize, htotal, hcounts.1, hcounts.2.1, hcounts.2.2]

/-! ## What an edit changes -/

/-- The store `t` is the store `s` but that the file at a path holds this content. -/
structure Edited (g : Geometry) (s : Store) (path : String) (content : Bytes) (t : Store) :
    Prop where
  /-- The file reads back the content. -/
  read_eq : ∀ records, t.groups path = .ok records →
    (t.readGroups g content.length records).1 = .ok content
  /-- Every other file reads back what it did, up to any length. -/
  other_read_eq : ∀ other ≠ path, ∀ records, t.groups other = .ok records → ∀ length,
    (t.readGroups g length records).1 = (s.readGroups g length records).1
  /-- All files are as long as they were. -/
  length_eq : ∀ other, t.length other = s.length other
  /-- All files are where they were. -/
  groups_eq : ∀ other, t.groups other = s.groups other
  /-- The counts are as they were. -/
  stats_eq : t.stats = s.stats

/-- An intact file reads back the same from two stores. -/
theorem Intact.readGroups_congr (hs : Intact s path first content)
    (ht : Intact t path first content) (hg : t.geometry = s.geometry) (length : Nat) :
    (t.readGroups s.geometry length (s.geometry.records first content.length)).1 =
      (s.readGroups s.geometry length (s.geometry.records first content.length)).1 := by
  have hfetch := ht.fetchGroups_eq
  rw [hg] at hfetch
  rw [readGroups_fst, readGroups_fst, hfetch, hs.fetchGroups_eq]

/-- **Replacing a byte where the layout puts it edits the file.** -/
theorem Holds.edited {held : Contents} (h : Holds s held) (hintact : Intact s path first content)
    {pos : Nat} (hpos : pos < content.length) (value : UInt8) : ∃ t,
      s.corrupt (s.geometry.holder first pos) (s.geometry.locate pos).inBlock value = (.ok (), t) ∧
        Edited s.geometry s path (content.set pos value) t := by
  obtain ⟨t, hcorrupt, hg, hnew⟩ := hintact.corrupt hpos value
  have ht := s.touched_corrupt (s.geometry.holder first pos) (s.geometry.locate pos).inBlock value
  have hstats := s.stats_corrupt (s.geometry.holder first pos) (s.geometry.locate pos).inBlock value
  rw [hcorrupt] at ht hstats
  obtain ⟨block, hkept, -⟩ := s.geometry.keptAt_holder first hpos
  have howned := hintact.ownedBy hkept
  refine ⟨t, hcorrupt, fun records hrecords => ?_, fun other hne records hrecords length => ?_,
    fun other => ?_, fun other => ?_, hstats⟩
  · obtain rfl := Except.ok.inj (hnew.groups_eq.symm.trans hrecords)
    have hread := hnew.readGroups_eq (Nat.le_refl _)
    rw [hg, List.take_length] at hread
    rwa [hg]
  · have hother := h.holdsAt other
    cases hheld : held other with
    | none =>
      rw [hheld, HoldsAt] at hother
      rw [groups, file, ht.files_eq, hother] at hrecords
      cases hrecords
    | some content' =>
      rw [hheld] at hother
      obtain ⟨first', hs⟩ := hother
      -- the block belongs to the file that is edited
      have hintact' : Intact t other first' content' := by
        refine hs.of_touched ht fun id hid howned' => hne ?_
        cases hid
        exact h.consistent.apart other path _ howned' howned
      obtain rfl := Except.ok.inj (hintact'.groups_eq.symm.trans hrecords)
      rw [hg]
      exact hs.readGroups_congr hintact' hg length
  · rw [length, length, file, file, ht.files_eq]
  · rw [groups, groups, file, file, ht.files_eq]

/-- The layout and the records of a stored file name the block that holds a byte. -/
theorem Stored.names_holder (h : Stored s path first content.length) {pos : Nat}
    (hpos : pos < content.length) : ∃ record,
      Word.locate s.geometry pos = .ok (s.geometry.locate pos) ∧
      (s.geometry.records first content.length)[(s.geometry.locate pos).group]? = some record ∧
      Word.add record.block.id (s.geometry.locate pos).block =
        .ok (s.geometry.holder first pos) := by
  have hgroup := s.geometry.locate_group_lt hpos
  have hlen := h.length_le
  have hsize := h.le_size
  have hroom := s.geometry.groupId_add_width_le first hgroup
  have hblock := s.geometry.locate_block_lt pos
  refine ⟨s.geometry.groupRecord first content.length (s.geometry.locate pos).group,
    Word.locate_eq _ ?_, (s.geometry.getElem?_records ..).2 ⟨hgroup, rfl⟩, Word.add_eq_ok ?_⟩
  · rw [Bytes.maxLength] at hlen
    rw [Word.size]
    omega
  · change s.geometry.groupId first (s.geometry.locate pos).group + _ < _
    rw [Geometry.width] at hroom
    omega

/-- **The place that the layout names for a byte of a file is its only place**, after any writes,
deletes, corruptions and reads. The file that is there can be read, and for each of its bytes the
layout and the records name a block and an offset. The byte there can be changed, and this changes
the byte of the file and nothing else. -/
theorem corrupt_located (g : Geometry) (first : Nat) {calls : List Call}
    (hcalls : ∀ c ∈ calls, c.Fits ∧ c.keepsBlocks) {path : String} {length : Nat}
    (hlive : ((empty g first).run calls).length path = .ok length) :
    ∃ records content, ((empty g first).run calls).groups path = .ok records ∧
      content.length = length ∧
      (((empty g first).run calls).readGroups g length records).1 = .ok content ∧
      ∀ pos < length, ∀ value, ∃ c record id t, Word.locate g pos = .ok c ∧
        records[c.group]? = some record ∧ Word.add record.block.id c.block = .ok id ∧
        ((empty g first).run calls).corrupt id c.inBlock value = (.ok (), t) ∧
        Edited g ((empty g first).run calls) path (content.set pos value) t := by
  have hpermits : Permits (fun _ c => c.Fits ∧ c.keepsBlocks) (empty g first) calls :=
    permits_of_forall hcalls
  have hg : ((empty g first).run calls).geometry = g :=
    geometry_run (fun _ _ hc => hc.1) hpermits
  obtain ⟨held, hholds⟩ := exists_holds_run g first hcalls
  have hpath := hholds.holdsAt path
  cases hheld : held path with
  | none =>
    rw [hheld, HoldsAt] at hpath
    rw [Store.length, file, hpath] at hlive
    cases hlive
  | some content =>
    rw [hheld] at hpath
    obtain ⟨id, hintact⟩ := hpath
    obtain rfl := Except.ok.inj (hintact.length_eq.symm.trans hlive)
    have hgroups := hintact.groups_eq
    have hread := hintact.readGroups_eq (Nat.le_refl _)
    rw [hg] at hgroups hread
    rw [List.take_length] at hread
    refine ⟨_, content, hgroups, rfl, hread, fun pos hpos value => ?_⟩
    obtain ⟨t, hcorrupt, hedited⟩ := hholds.edited hintact hpos value
    obtain ⟨record, hlocate, hrecord, hadd⟩ := hintact.stored.names_holder hpos
    rw [hg] at hcorrupt hedited hlocate hrecord hadd
    exact ⟨_, record, _, t, hlocate, hrecord, hadd, hcorrupt, hedited⟩

/-- One path is written twice, and a byte of another is corrupted. -/
def editing : List Call :=
  [.write "a" [1, 2, 3], .write "b" [4, 5, 6], .write "a" [7, 8, 9, 10, 11, 12, 13, 14, 15],
    .corrupt 4 0 0]

/-- The last byte of the file is in the first block of its second group. -/
theorem corrupt_located_editing :
    (∀ c ∈ editing, c.Fits ∧ c.keepsBlocks) ∧
      ((empty .small 1).run editing).length "a" = .ok 9 ∧
      ∃ records others t, ((empty .small 1).run editing).groups "a" = .ok records ∧
        ((empty .small 1).run editing).groups "b" = .ok others ∧
        ((empty .small 1).run editing).corrupt 10 0 99 = (.ok (), t) ∧
        (t.readGroups .small 9 records).1 = .ok [7, 8, 9, 10, 11, 12, 13, 14, 99] ∧
        (t.readGroups .small 3 others).1 = .ok [0, 5, 6] := by
  have hcalls : ∀ c ∈ editing, c.Fits ∧ c.keepsBlocks := by decide
  have hlive : ((empty .small 1).run editing).length "a" = .ok 9 := by decide +kernel
  have hgroups : ((empty .small 1).run editing).groups "a" =
      .ok (Geometry.small.records 7 9) := by
    decide +kernel
  have hgroupsb : ((empty .small 1).run editing).groups "b" =
      .ok (Geometry.small.records 4 3) := by
    decide +kernel
  have hread : (((empty .small 1).run editing).readGroups .small 9
      (Geometry.small.records 7 9)).1 = .ok [7, 8, 9, 10, 11, 12, 13, 14, 15] := by
    decide +kernel
  have hreadb : (((empty .small 1).run editing).readGroups .small 3
      (Geometry.small.records 4 3)).1 = .ok [0, 5, 6] := by
    decide +kernel
  obtain ⟨records, content, hrecords, -, hcontent, hedit⟩ :=
    corrupt_located .small 1 hcalls hlive
  obtain rfl := Except.ok.inj (hgroups.symm.trans hrecords)
  obtain rfl := Except.ok.inj (hread.symm.trans hcontent)
  obtain ⟨c, record, id, t, hc, hrecord, hid, hcorrupt, hedited⟩ := hedit 8 (by decide) 99
  have hplace : Word.locate .small 8 = .ok ⟨1, 0, 0, 0, 0⟩ := by decide
  obtain rfl := Except.ok.inj (hplace.symm.trans hc)
  obtain rfl := Option.some.inj hrecord
  obtain rfl : 10 = id := Except.ok.inj hid
  refine ⟨hcalls, hlive, _, _, t, hgroups, hgroupsb, hcorrupt, ?_, ?_⟩
  · exact hedited.read_eq _ ((hedited.groups_eq "a").trans hgroups)
  · rw [hedited.other_read_eq "b" (by decide) _ ((hedited.groups_eq "b").trans hgroupsb), hreadb]

end Striping.Store
