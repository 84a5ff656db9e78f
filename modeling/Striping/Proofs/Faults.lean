import Striping.Proofs.Routing
import Striping.Proofs.Words.Split

/-!
# The first fault ends the fetching of a file

The groups of a file are fetched one after the other, for records that say anything. If all are
fetched, each slot holds what the record promises (`GroupRecord.Delivers`). Otherwise there is a
first record that has a fault: it does not start where its place in the file says, it is not split,
or a block of it is not fetched (`Store.Faults`). What is behind it does not matter
(`Store.fetchFrom_eq_error_iff`), and neither files nor blocks change (`Store.fetchGroups_exact`).
-/

namespace Striping

/-- The buffers for the group at index `group` hold what its record promises: the blocks that it
lists, as long as the layout makes them, with the content of the store, and no others. -/
structure GroupRecord.Delivers (record : GroupRecord) (blocks : FiniteMap Nat Bytes) (g : Geometry)
    (group : Nat) (b : Buffers) : Prop where
  group_eq : b.group = group
  start_eq : record.start = group * g.groupCapacity
  split : ∃ slots, Word.split g record = .ok slots
  data_length : b.data.length = g.dataBlocks
  parity_length : b.parity.length = g.parityBlocks
  absent_iff : ∀ index < g.width, b.slots[index]? = some none ↔ index ∉ record.listed
  content : ∀ index < g.width, ∀ content, b.slots[index]? = some (some content) →
    Word.blockLength g record.block.length index = .ok content.length ∧
      (0 < content.length → blocks.get? (record.block.id + index) = some content)

namespace GroupRecord

variable {record : GroupRecord} {blocks : FiniteMap Nat Bytes} {g : Geometry} {group : Nat}
  {b b' : Buffers}

theorem delivers_of_readFrom (h : record.readFrom blocks g group = .ok b) :
    record.Delivers blocks g group b := by
  have hfetched := fetched_of_readFrom h
  refine ⟨hfetched.group_eq, hfetched.start_eq, ?_, hfetched.data_length, hfetched.parity_length,
    fun index hi => ⟨fun habsent hmem => ?_, hfetched.unlisted index hi⟩,
    fun index hi content hcontent => ?_⟩
  · unfold readFrom at h
    rw [if_neg (not_not_intro hfetched.start_eq)] at h
    rw [Word.split_eq]
    cases hsplit : record.split g with
    | error e =>
      rw [hsplit] at h
      cases h
    | ok slots => exact ⟨slots, rfl⟩
  · obtain ⟨content, hcontent, -⟩ := hfetched.listed index hmem
    rw [habsent] at hcontent
    cases hcontent
  · have hmem : index ∈ record.listed := by
      by_contra hnot
      rw [hfetched.unlisted index hi hnot] at hcontent
      cases hcontent
    obtain ⟨content', hcontent', hlength, hblock⟩ := hfetched.listed index hmem
    rw [hcontent] at hcontent'
    cases hcontent'
    refine ⟨?_, fun hpos => hblock (List.ne_nil_of_length_pos hpos)⟩
    rw [Word.blockLength_eq, hlength]
    exact g.blockLength_eq_ok hi (hfetched.describes index hmem).length_le

namespace Delivers

variable (h : record.Delivers blocks g group b)
include h

theorem length_slots : b.slots.length = g.width := by
  rw [Buffers.length_slots, h.data_length, h.parity_length]
  rfl

/-- The slot of a listed block is filled. -/
theorem exists_content {index : Nat} (hi : index < g.width) (hmem : index ∈ record.listed) :
    ∃ content, b.slots[index]? = some (some content) := by
  have hlen := h.length_slots
  rcases hslot : b.slots[index]? with _ | _ | content
  · have hle := List.getElem?_eq_none_iff.1 hslot
    omega
  · exact absurd hmem ((h.absent_iff index hi).1 hslot)
  · exact ⟨content, rfl⟩

/-- Nothing else is delivered. -/
theorem unique (h' : record.Delivers blocks g group b') : b = b' := by
  have hslots : b.slots = b'.slots := by
    ext index : 1
    by_cases hi : index < g.width
    · by_cases hmem : index ∈ record.listed
      · obtain ⟨content, hcontent⟩ := h.exists_content hi hmem
        obtain ⟨content', hcontent'⟩ := h'.exists_content hi hmem
        obtain ⟨hlength, hblock⟩ := h.content index hi content hcontent
        obtain ⟨hlength', hblock'⟩ := h'.content index hi content' hcontent'
        have hlen : content.length = content'.length :=
          Except.ok.inj (hlength.symm.trans hlength')
        rw [hcontent, hcontent']
        rcases Nat.eq_zero_or_pos content.length with hzero | hpos
        · rw [List.length_eq_zero_iff.1 hzero, List.length_eq_zero_iff.1 (hlen.symm.trans hzero)]
        · rw [Option.some.inj ((hblock hpos).symm.trans (hblock' (hlen ▸ hpos)))]
      · rw [(h.absent_iff index hi).2 hmem, (h'.absent_iff index hi).2 hmem]
    · rw [List.getElem?_eq_none (by rw [h.length_slots]; omega),
        List.getElem?_eq_none (by rw [h'.length_slots]; omega)]
  exact Buffers.eq_of_slots (h.group_eq.trans h'.group_eq.symm)
    (h.data_length.trans h'.data_length.symm) hslots

/-- What can be delivered is fetched. -/
theorem exists_readFrom : ∃ b', record.readFrom blocks g group = .ok b' := by
  obtain ⟨slots, hsplit⟩ := h.split
  rw [Word.split_eq] at hsplit
  obtain ⟨-, hdescribes, rfl⟩ := split_eq_ok_iff.1 hsplit
  have hmembers : ∀ m ∈ ((List.range g.width).map (record.slot g)).filterMap id,
      m.index < g.width ∧ (m.occupied → m.Readable blocks) := by
    intro m hm
    rw [List.filterMap_map, List.mem_filterMap] at hm
    obtain ⟨index, -, hslot⟩ := hm
    obtain ⟨hmem, site, rfl⟩ := slot_eq_some hslot
    have hi := (hdescribes index hmem).index_lt
    obtain ⟨content, hcontent⟩ := h.exists_content hi hmem
    obtain ⟨hlength, hblock⟩ := h.content index hi content hcontent
    rw [Word.blockLength_eq, g.blockLength_eq_ok hi (hdescribes index hmem).length_le] at hlength
    have hshare : g.share record.block.length index = content.length := Except.ok.inj hlength
    refine ⟨hi, fun hoccupied => ⟨content, hblock ?_, hshare.symm⟩⟩
    have hne : g.share record.block.length index ≠ 0 := by
      simpa [Member.occupied, part] using hoccupied
    omega
  have hread := mapM_eq_ok fun m hm => Member.readFrom_of_readable (hmembers m hm).2
  obtain ⟨b', hb'⟩ := Buffers.exists_insertAll_eq_ok (b := .empty g group)
    ((((List.range g.width).map (record.slot g)).filterMap id).map fun m =>
      (m.index, m.contentIn blocks))
    (by
      rw [Buffers.length_slots_empty, List.forall_mem_map]
      exact fun m hm => (hmembers m hm).1)
  refine ⟨b', ?_⟩
  rw [readFrom, if_neg (not_not_intro h.start_eq), hsplit]
  dsimp only
  rw [readSlots, hread]
  exact hb'

end Delivers

/-- **What is fetched for a record is what it promises.** -/
theorem readFrom_eq_ok_iff :
    record.readFrom blocks g group = .ok b ↔ record.Delivers blocks g group b := by
  refine ⟨delivers_of_readFrom, fun h => ?_⟩
  obtain ⟨b', hb'⟩ := h.exists_readFrom
  rw [hb', h.unique (delivers_of_readFrom hb')]

end GroupRecord

namespace Store

/-! ## Where the fetching stops -/

/-- The fault of a record at index `group`, and the store that it leaves. The record's place is
checked first, then it is split, and then its blocks are fetched. -/
inductive Faults (s : Store) (g : Geometry) (group : Nat) (record : GroupRecord) :
    Error → Store → Prop
  | misplaced (h : record.start ≠ group * g.groupCapacity) :
    Faults s g group record (.layout (.misplaced group record.start (group * g.groupCapacity))) s
  | unsplit {e : Error} (hstart : record.start = group * g.groupCapacity)
    (h : Word.split g record = .error e) : Faults s g group record e s
  | unfetched {e : Error} {t : Store} {slots : List (Option Member)}
    (hstart : record.start = group * g.groupCapacity) (hsplit : Word.split g record = .ok slots)
    (h : s.fetchGroup g group slots = (.error e, t)) : Faults s g group record e t

variable {s t : Store} {g : Geometry} {group : Nat} {record : GroupRecord} {err : Error}

/-- **A record is not fetched exactly for its fault.** -/
theorem fetchFrom_singleton_eq_error_iff :
    s.fetchFrom g group [record] = (.error err, t) ↔ s.Faults g group record err t := by
  constructor
  · intro h
    rw [fetchFrom] at h
    split at h
    · next hstart =>
      cases h
      exact .misplaced hstart
    · next hstart =>
      have hstart := not_not.1 hstart
      cases hsplit : record.split g with
      | error e =>
        rw [hsplit] at h
        cases h
        exact .unsplit hstart (by rw [Word.split_eq, hsplit])
      | ok slots =>
        rw [hsplit] at h
        dsimp only at h
        rcases hgroup : s.fetchGroup g group slots with ⟨_ | b, u⟩
        · rw [hgroup] at h
          cases h
          exact .unfetched hstart (by rw [Word.split_eq, hsplit]) hgroup
        · rw [hgroup] at h
          cases h
  · intro h
    rw [fetchFrom]
    cases h with
    | misplaced hstart => exact if_pos hstart
    | unsplit hstart hsplit =>
      rw [Word.split_eq] at hsplit
      rw [if_neg (not_not_intro hstart), hsplit]
    | unfetched hstart hsplit hgroup =>
      rw [Word.split_eq] at hsplit
      rw [if_neg (not_not_intro hstart), hsplit]
      dsimp only
      rw [hgroup]

/-- Further records are fetched from the store that the ones before leave. -/
theorem fetchFrom_append (s : Store) (g : Geometry) (group : Nat)
    (records others : List GroupRecord) : s.fetchFrom g group (records ++ others) =
      match s.fetchFrom g group records with
      | (.error e, t) => (.error e, t)
      | (.ok found, t) =>
        match t.fetchFrom g (group + records.length) others with
        | (.error e, u) => (.error e, u)
        | (.ok rest, u) => (.ok (found ++ rest), u) := by
  induction records generalizing s group with
  | nil =>
    rw [List.nil_append, fetchFrom, List.length_nil, Nat.add_zero]
    dsimp only
    rcases s.fetchFrom g group others with ⟨_ | _, _⟩ <;> rfl
  | cons record records ih =>
    rw [List.cons_append, fetchFrom, fetchFrom, List.length_cons, ← Nat.add_assoc,
      Nat.add_right_comm]
    split
    · rfl
    · cases record.split g with
      | error e => rfl
      | ok slots =>
        dsimp only
        rcases s.fetchGroup g group slots with ⟨_ | b, t⟩
        · rfl
        · dsimp only
          rw [ih]
          rcases t.fetchFrom g (group + 1) records with ⟨_ | found, u⟩
          · rfl
          · dsimp only
            rcases u.fetchFrom g (group + 1 + records.length) others with ⟨_ | _, _⟩ <;> rfl

/-- **Fetching fails exactly for the fault of the first record that has one.** -/
theorem fetchFrom_eq_error_iff {records : List GroupRecord} :
    s.fetchFrom g group records = (.error err, t) ↔ ∃ before record after found u,
      records = before ++ record :: after ∧ s.fetchFrom g group before = (.ok found, u) ∧
        u.Faults g (group + before.length) record err t := by
  constructor
  · intro h
    induction records generalizing s group with
    | nil => cases h
    | cons record records ih =>
      have happend := s.fetchFrom_append g group [record] records
      rcases hfirst : s.fetchFrom g group [record] with ⟨e | found, u⟩
      · rw [hfirst] at happend
        obtain ⟨he, rfl⟩ := Prod.mk.inj (happend.symm.trans h)
        cases he
        exact ⟨[], record, records, [], s, rfl, rfl, fetchFrom_singleton_eq_error_iff.1 hfirst⟩
      · rw [hfirst] at happend
        dsimp only at happend
        rcases hrest : u.fetchFrom g (group + [record].length) records with ⟨e | rest, v⟩
        · rw [hrest] at happend
          obtain ⟨he, rfl⟩ := Prod.mk.inj (happend.symm.trans h)
          cases he
          obtain ⟨before, faulty, after, others, w, rfl, hbefore, hfault⟩ := ih hrest
          have hmore := s.fetchFrom_append g group [record] before
          rw [hfirst] at hmore
          dsimp only at hmore
          rw [hbefore] at hmore
          refine ⟨record :: before, faulty, after, _, w, rfl, hmore, ?_⟩
          rwa [List.length_cons, Nat.add_comm before.length, ← Nat.add_assoc]
        · rw [hrest] at happend
          cases (Prod.mk.inj (happend.symm.trans h)).1
  · rintro ⟨before, record, after, found, u, rfl, hbefore, hfault⟩
    have hfirst := fetchFrom_singleton_eq_error_iff.2 hfault
    rw [fetchFrom_append, hbefore]
    dsimp only
    rw [← List.singleton_append, fetchFrom_append, hfirst]

/-- **A file is fetched as its records promise, or up to the first fault**, from any store and for
any records. All groups are fetched exactly if there are buffers that hold what the records promise,
which are the answer. Otherwise the first record that has a fault decides the error, and the store
that is left is the one that the records up to there leave, so nothing behind the fault is read.
Either way only the counts of reads change. -/
theorem fetchGroups_exact (s : Store) (g : Geometry) (records : List GroupRecord) :
    (∀ buffers, (s.fetchGroups g records).1 = .ok buffers ↔
      buffers.length = records.length ∧ ∀ (group : Nat) (record : GroupRecord) (b : Buffers),
        records[group]? = some record → buffers[group]? = some b →
          record.Delivers s.blocks g group b) ∧
    (∀ err t, s.fetchGroups g records = (.error err, t) ↔ ∃ before record after found u,
      records = before ++ record :: after ∧ s.fetchGroups g before = (.ok found, u) ∧
        u.Faults g before.length record err t ∧
          s.fetchGroups g (before ++ [record]) = (.error err, t)) ∧
    OnlyRead s (s.fetchGroups g records).2 := by
  refine ⟨fun buffers => ?_, fun err t => ?_, s.onlyRead_fetchGroups g records⟩
  · rw [fetchGroups_fst, mapM_zipIdx_eq_ok_iff]
    simp only [GroupRecord.readFrom_eq_ok_iff]
  · have hiff : ∀ records, s.fetchGroups g records = (.error err, t) ↔ _ := fun records =>
      fetchFrom_eq_error_iff
    simp only [Nat.zero_add] at hiff
    rw [hiff]
    constructor
    · rintro ⟨before, record, after, found, u, rfl, hbefore, hfault⟩
      exact ⟨before, record, after, found, u, rfl, hbefore, hfault,
        (hiff _).2 ⟨before, record, [], found, u, rfl, hbefore, hfault⟩⟩
    · rintro ⟨before, record, after, found, u, hsplit, hbefore, hfault, -⟩
      exact ⟨before, record, after, found, u, hsplit, hbefore, hfault⟩

/-- The first record is fetched. The block of the second is not there, so that the place of the
third does not matter. -/
theorem fetchGroups_exact_absent :
    let s : Store := ((empty .small 1).put 10 [1, 2, 5]).put 20 [3]
    let record (start id length : Nat) : GroupRecord :=
      ⟨⟨"pool", id, length, 1⟩, start, [⟨"node", "address"⟩], [0], ⟨[]⟩⟩
    (record 0 10 5).Delivers s.blocks .small 0 ⟨0, [some [1, 2, 5], none], [none]⟩ ∧
      ∃ t, s.fetchGroups .small [record 0 10 5, record 8 30 1, record 3 20 1] =
          (.error (.blockNotFound 30), t) ∧
        s.fetchGroups .small [record 0 10 5, record 8 30 1] = (.error (.blockNotFound 30), t) ∧
          t.stats = ⟨2, 4, 1, 2, 3⟩ := by
  intro s record
  have hfirst : (s.fetchGroups .small [record 0 10 5]).1 =
      .ok [⟨0, [some [1, 2, 5], none], [none]⟩] := by
    decide +kernel
  have hsecond : (s.fetchGroups .small [record 0 10 5, record 8 30 1]).1 =
      .error (.blockNotFound 30) := by
    decide +kernel
  have hall : (s.fetchGroups .small [record 0 10 5, record 8 30 1, record 3 20 1]).1 =
      .error (.blockNotFound 30) := by
    decide +kernel
  refine ⟨(((fetchGroups_exact s .small _).1 _).1 hfirst).2 0 _ _ rfl rfl, _,
    Prod.ext hall rfl, ?_, by decide +kernel⟩
  obtain ⟨before, faulty, after, found, u, hsplit, hbefore, -, hstop⟩ :=
    ((fetchGroups_exact s .small _).2.1 _ _).1 (Prod.ext hall rfl)
  -- the fault is neither the first record's nor the third's
  rcases before with _ | ⟨x, _ | ⟨y, rest⟩⟩
  · cases hsplit
    cases (congrArg Prod.fst hstop).symm.trans hfirst
  · cases hsplit
    exact hstop
  · obtain ⟨rfl, htail⟩ := List.cons.inj hsplit
    obtain ⟨rfl, hlast⟩ := List.cons.inj htail
    rcases List.append_eq_singleton_iff.1 hlast.symm with ⟨rfl, -⟩ | ⟨-, hnil⟩
    · cases (congrArg Prod.fst hbefore).symm.trans hsecond
    · cases hnil

end Store

end Striping
