import Striping.Fetch
import Striping.Proofs.Gathering
import Striping.Proofs.Splitting

/-!
# Fetching the groups of a file

What fetching answers depends on the blocks of the store only: `Member.readFrom` and
`GroupRecord.readFrom` read one block and one group from a map of blocks, and the store's operations
answer what these do, one after the other (`Store.fetchMembers_fst`, `Store.fetchGroups_fst`).
Fetching leaves the store as it is, but for the counts of reads (`Store.OnlyRead`).

If the map holds the columns of a group at the ids of its record, the record is read as
`Geometry.buffers` (`Geometry.readFrom_groupRecord`), and the buffers of all groups give the file's
bytes (`Geometry.joinGroups_buffers`).
-/

namespace Striping

/-! ## Reading from a map of blocks -/

/-- The content of a block, with its index. -/
def Member.readFrom (blocks : FiniteMap Nat Bytes) (m : Member) : Except Error (Nat × Bytes) :=
  if m.block.length = 0 then .ok (m.index, [])
  else
    match blocks.get? m.block.id with
    | none => .error (.blockNotFound m.block.id)
    | some content =>
      if content.length = m.block.length then .ok (m.index, content)
      else .error (.length m.block.length content.length)

/-- The buffers of a group with slots for each of its blocks. -/
def readSlots (blocks : FiniteMap Nat Bytes) (g : Geometry) (group : Nat)
    (slots : List (Option Member)) : Except Error Buffers :=
  match (slots.filterMap id).mapM (Member.readFrom blocks) with
  | .error e => .error e
  | .ok found => (Buffers.empty g group).insertAll found

/-- The buffers of the group at index `group`. -/
def GroupRecord.readFrom (blocks : FiniteMap Nat Bytes) (g : Geometry) (record : GroupRecord)
    (group : Nat) : Except Error Buffers :=
  if record.start ≠ group * g.groupCapacity then
    .error (.layout (.misplaced group record.start (group * g.groupCapacity)))
  else
    match record.split g with
    | .error e => .error e
    | .ok slots => readSlots blocks g group slots

namespace Store

/-- Reading may have led from the first store to the second: only the counts of reads differ. -/
def OnlyRead (s t : Store) : Prop := t = { s with reads := t.reads, bytesRead := t.bytesRead }

theorem OnlyRead.refl (s : Store) : OnlyRead s s := rfl

theorem OnlyRead.trans {s t u : Store} (h₁ : OnlyRead s t) (h₂ : OnlyRead t u) : OnlyRead s u := by
  rw [OnlyRead] at *
  rw [h₂, h₁]

theorem OnlyRead.blocks_eq {s t : Store} (h : OnlyRead s t) : t.blocks = s.blocks := by
  rw [OnlyRead] at h
  rw [h]

/-! ## Each operation reads from the store's blocks -/

theorem onlyRead_read (s : Store) (id : Nat) : OnlyRead s (s.read id).2 := by
  rw [read]
  split <;> rfl

theorem fetchMember_eq (s : Store) (m : Member) :
    ∃ t, OnlyRead s t ∧ s.fetchMember m = (m.readFrom s.blocks, t) := by
  rw [fetchMember, Member.readFrom]
  split
  · exact ⟨s, .refl s, rfl⟩
  · rw [read]
    cases s.blocks.get? m.block.id with
    | none => exact ⟨s, .refl s, rfl⟩
    | some content =>
      refine ⟨{ s with reads := s.reads + 1, bytesRead := s.bytesRead + .ofNat content.length },
        rfl, ?_⟩
      dsimp only
      split <;> rfl

theorem fetchMembers_eq (s : Store) (ms : List Member) :
    ∃ t, OnlyRead s t ∧ s.fetchMembers ms = (ms.mapM (Member.readFrom s.blocks), t) := by
  induction ms generalizing s with
  | nil => exact ⟨s, .refl s, rfl⟩
  | cons m ms ih =>
    obtain ⟨t, ht, hm⟩ := s.fetchMember_eq m
    rw [fetchMembers, hm]
    cases hfound : m.readFrom s.blocks with
    | error e => exact ⟨t, ht, by rw [mapM_cons_error hfound]⟩
    | ok found =>
      obtain ⟨u, hu, hms⟩ := ih t
      rw [ht.blocks_eq] at hms
      refine ⟨u, ht.trans hu, ?_⟩
      rw [mapM_cons_ok hfound]
      dsimp only
      rw [hms]
      cases ms.mapM (Member.readFrom s.blocks) <;> rfl

theorem fetchGroup_eq (s : Store) (g : Geometry) (group : Nat) (slots : List (Option Member)) :
    ∃ t, OnlyRead s t ∧ s.fetchGroup g group slots = (readSlots s.blocks g group slots, t) := by
  obtain ⟨t, ht, hms⟩ := s.fetchMembers_eq (slots.filterMap id)
  refine ⟨t, ht, ?_⟩
  rw [fetchGroup, readSlots, hms]
  cases (slots.filterMap id).mapM (Member.readFrom s.blocks) <;> rfl

theorem fetchFrom_eq (s : Store) (g : Geometry) (group : Nat) (records : List GroupRecord) :
    ∃ t, OnlyRead s t ∧ s.fetchFrom g group records =
      ((records.zipIdx group).mapM fun r => r.1.readFrom s.blocks g r.2, t) := by
  induction records generalizing s group with
  | nil => exact ⟨s, .refl s, rfl⟩
  | cons record records ih =>
    rw [fetchFrom, List.zipIdx_cons]
    split
    · next h =>
      have hread : record.readFrom s.blocks g group = .error _ := if_pos h
      refine ⟨s, .refl s, ?_⟩
      simp only [List.mapM_cons, hread]
      rfl
    · next h =>
      cases hslots : record.split g with
      | error e =>
        have hread : record.readFrom s.blocks g group = .error e := by
          rw [GroupRecord.readFrom, if_neg h, hslots]
        refine ⟨s, .refl s, ?_⟩
        simp only [List.mapM_cons, hread]
        rfl
      | ok slots =>
        have hread : record.readFrom s.blocks g group = readSlots s.blocks g group slots := by
          rw [GroupRecord.readFrom, if_neg h, hslots]
        obtain ⟨t, ht, hgroup⟩ := s.fetchGroup_eq g group slots
        simp only [List.mapM_cons, hread, hgroup]
        cases readSlots s.blocks g group slots with
        | error e => exact ⟨t, ht, rfl⟩
        | ok buffers =>
          obtain ⟨u, hu, hrest⟩ := ih t (group + 1)
          rw [ht.blocks_eq] at hrest
          refine ⟨u, ht.trans hu, ?_⟩
          simp only [hrest]
          cases (records.zipIdx (group + 1)).mapM fun r => r.1.readFrom s.blocks g r.2 <;> rfl

/-- Groups are fetched only if the first one is split and fetched, and then the others are. -/
theorem fetchFrom_cons_eq_ok {s : Store} {g : Geometry} {group : Nat} {record : GroupRecord}
    {rest : List GroupRecord} {buffers : List Buffers}
    (h : (s.fetchFrom g group (record :: rest)).1 = .ok buffers) :
    ∃ slots found t others, record.split g = .ok slots ∧
      s.fetchGroup g group slots = (.ok found, t) ∧
        (t.fetchFrom g (group + 1) rest).1 = .ok others ∧ buffers = found :: others := by
  rw [fetchFrom] at h
  split at h
  · cases h
  · split at h
    · cases h
    · next slots hsplit =>
      rcases hgroup : s.fetchGroup g group slots with ⟨_ | found, t⟩
      · rw [hgroup] at h
        cases h
      · rcases hrest : t.fetchFrom g (group + 1) rest with ⟨_ | others, u⟩
        · simp only [hgroup, hrest] at h
          cases h
        · simp only [hgroup, hrest] at h
          exact ⟨slots, found, t, others, hsplit, hgroup, congrArg Prod.fst hrest,
            (Except.ok.inj h).symm⟩

theorem onlyRead_fetchGroup (s : Store) (g : Geometry) (group : Nat)
    (slots : List (Option Member)) : OnlyRead s (s.fetchGroup g group slots).2 := by
  obtain ⟨t, ht, h⟩ := s.fetchGroup_eq g group slots
  rwa [h]

/-- **Fetching a file reads its groups from the store's blocks, one after the other.** -/
theorem fetchGroups_fst (s : Store) (g : Geometry) (records : List GroupRecord) :
    (s.fetchGroups g records).1 =
      records.zipIdx.mapM fun r => r.1.readFrom s.blocks g r.2 := by
  obtain ⟨t, -, h⟩ := s.fetchFrom_eq g 0 records
  rw [fetchGroups, h]

theorem onlyRead_fetchGroups (s : Store) (g : Geometry) (records : List GroupRecord) :
    OnlyRead s (s.fetchGroups g records).2 := by
  obtain ⟨t, ht, h⟩ := s.fetchFrom_eq g 0 records
  rwa [fetchGroups, h]

theorem readGroups_fst (s : Store) (g : Geometry) (length : Nat) (records : List GroupRecord) :
    (s.readGroups g length records).1 =
      match (s.fetchGroups g records).1 with
      | .error e => .error e
      | .ok buffers => joinGroups g length buffers := by
  rw [readGroups]
  rcases s.fetchGroups g records with ⟨_ | _, _⟩ <;> rfl

theorem onlyRead_readGroups (s : Store) (g : Geometry) (length : Nat)
    (records : List GroupRecord) : OnlyRead s (s.readGroups g length records).2 := by
  have h := s.onlyRead_fetchGroups g records
  rw [readGroups]
  rcases hf : s.fetchGroups g records with ⟨_ | _, _⟩ <;> rwa [hf] at h

end Store

/-! ## The buffers of a stored group -/

theorem Buffers.insertAll_range' (group : Nat) (parity : List (Option Bytes)) (f : Nat → Bytes)
    (m k : Nat) :
    (Buffers.mk group ((List.range k).map (some ∘ f) ++ List.replicate m none) parity).insertAll
        ((List.range' k m).map fun i => (i, f i)) =
      .ok ⟨group, (List.range (k + m)).map (some ∘ f), parity⟩ := by
  induction m generalizing k with
  | zero => simp [insertAll]
  | succ m ih =>
    have hins : (Buffers.mk group ((List.range k).map (some ∘ f) ++
        List.replicate (m + 1) none) parity).insert k (f k) =
          .ok ⟨group, (List.range (k + 1)).map (some ∘ f) ++ List.replicate m none, parity⟩ := by
      simp [insert, List.range_succ, List.replicate_succ]
    rw [List.range'_succ, List.map_cons, insertAll, hins]
    rw [show k + (m + 1) = k + 1 + m by omega]
    exact ih (k + 1)

namespace Geometry

variable (g : Geometry)

/-- What is fetched for a group of a file with this content. -/
def buffers (content : Bytes) (group : Nat) : Buffers where
  group
  data := (List.range g.dataBlocks).map fun i => some (g.column (g.groupBytes content group) i)
  parity := List.replicate g.parityBlocks none

/-- What is fetched for all groups of such a file. -/
def fileBuffers (content : Bytes) : List Buffers :=
  (List.range (g.groupCount content.length)).map (g.buffers content)

theorem filterMap_slots (f : Nat → Member) :
    ((List.range g.width).map fun i => if i < g.dataBlocks then some (f i) else none).filterMap id =
      (List.range g.dataBlocks).map f := by
  rw [width, List.range_add, List.map_append, List.filterMap_append, List.map_map]
  have hdata : (List.range g.dataBlocks).map (fun i =>
      if i < g.dataBlocks then some (f i) else none) =
        ((List.range g.dataBlocks).map f).map some := by
    rw [List.map_map]
    exact List.map_congr_left fun i hi => if_pos (List.mem_range.1 hi)
  have hparity : ((List.range g.parityBlocks).map ((fun i =>
      if i < g.dataBlocks then some (f i) else none) ∘ (g.dataBlocks + ·))).filterMap id = [] := by
    simp [List.filterMap_map, Function.comp_def]
  rw [hdata, hparity, List.append_nil, List.filterMap_map]
  exact List.filterMap_some

/-- The record of a group is split at once and its data blocks are read in order. -/
theorem readFrom_groupRecord_eq {blocks : FiniteMap Nat Bytes} {first length group : Nat}
    (hid : g.groupId first group + g.width ≤ Word.size)
    (hstart : group * g.groupCapacity + g.groupCapacity ≤ Word.size) :
    (g.groupRecord first length group).readFrom blocks g group =
      match (List.range g.dataBlocks).mapM fun i =>
        (g.part first length group i).readFrom blocks with
      | .error e => .error e
      | .ok found => (Buffers.empty g group).insertAll found := by
  have hplace : (g.groupRecord first length group).start = group * g.groupCapacity := rfl
  rw [GroupRecord.readFrom, if_neg (not_not_intro hplace), g.split_groupRecord hid hstart]
  simp only [readSlots, g.filterMap_slots, List.mapM_map]
  rfl

/-- **A stored group is read as the columns of its bytes**, if the blocks that are not empty are
there. -/
theorem readFrom_groupRecord {blocks : FiniteMap Nat Bytes} {first group : Nat} {content : Bytes}
    (hid : g.groupId first group + g.width ≤ Word.size)
    (hstart : group * g.groupCapacity + g.groupCapacity ≤ Word.size)
    (hblocks : ∀ i < g.dataBlocks, g.column (g.groupBytes content group) i ≠ [] →
      blocks.get? (g.groupId first group + i) = some (g.column (g.groupBytes content group) i)) :
    (g.groupRecord first content.length group).readFrom blocks g group =
      .ok (g.buffers content group) := by
  have hparts : ∀ i ∈ List.range g.dataBlocks,
      (g.part first content.length group i).readFrom blocks =
        .ok (i, g.column (g.groupBytes content group) i) := by
    intro i hi
    have hlen : (g.part first content.length group i).block.length =
        (g.column (g.groupBytes content group) i).length := by
      rw [length_column, length_groupBytes]
      rfl
    rw [Member.readFrom, hlen]
    split
    · next h => rw [List.length_eq_zero_iff.1 h]; rfl
    · next h =>
      have hget := hblocks i (List.mem_range.1 hi) (mt List.length_eq_zero_iff.2 h)
      change (match blocks.get? (g.groupId first group + i) with | none => _ | some _ => _) = _
      simp only [hget, if_true]
      rfl
  rw [g.readFrom_groupRecord_eq hid hstart, mapM_eq_ok hparts]
  have hfill := Buffers.insertAll_range' group (List.replicate g.parityBlocks none)
    (g.column (g.groupBytes content group)) g.dataBlocks 0
  rwa [Nat.zero_add, ← List.range_eq_range'] at hfill

/-- A group that holds bytes is not read without its first block. -/
theorem readFrom_groupRecord_of_missing {blocks : FiniteMap Nat Bytes} {first length group : Nat}
    (hid : g.groupId first group + g.width ≤ Word.size)
    (hstart : group * g.groupCapacity + g.groupCapacity ≤ Word.size)
    (hlen : 0 < g.groupLength length group)
    (hmissing : blocks.get? (g.groupId first group) = none) :
    (g.groupRecord first length group).readFrom blocks g group =
      .error (.blockNotFound (g.groupId first group)) := by
  have hpos : (g.part first length group 0).block.length ≠ 0 :=
    Nat.ne_of_gt (g.share_zero_pos hlen)
  have hfirst : (g.part first length group 0).readFrom blocks =
      .error (.blockNotFound (g.groupId first group)) := by
    rw [Member.readFrom, if_neg hpos]
    change (match blocks.get? (g.groupId first group) with | none => _ | some _ => _) = _
    rw [hmissing]
    rfl
  obtain ⟨d, hd⟩ := Nat.exists_eq_add_one_of_ne_zero (Nat.ne_of_gt g.dataBlocks_pos)
  rw [g.readFrom_groupRecord_eq hid hstart, hd, List.range_succ_eq_map]
  simp only [List.mapM_cons, hfirst]
  rfl

theorem groupBytes_take (content : Bytes) (length group : Nat) :
    g.groupBytes (content.take length) group =
      (g.groupBytes content group).take (g.groupLength length group) := by
  rw [groupBytes, groupBytes, groupLength, List.drop_take, List.take_take, List.take_take,
    Nat.min_comm, Nat.min_assoc, Nat.min_self]

/-- **The buffers of a file give back its first bytes.** -/
theorem joinGroups_buffers {content : Bytes} {length : Nat} (hlen : length ≤ content.length) :
    Store.joinGroups g length (g.fileBuffers content) = .ok (content.take length) := by
  have hgather : ∀ group ∈ List.range (g.groupCount content.length),
      ((fun b : Buffers => g.gather b (g.groupLength length b.group)) ∘ g.buffers content) group =
        .ok (g.groupBytes (content.take length) group) := by
    intro group _
    rw [g.groupBytes_take]
    refine g.gather_columns rfl ?_ ?_
    · rw [g.length_groupBytes]
      exact g.groupLength_le ..
    · rw [g.length_groupBytes]
      change min (length - group * g.groupCapacity) _ ≤ min (content.length - _) _
      omega
  have hall : (content.take length).length ≤ g.groupCount content.length * g.groupCapacity := by
    rw [List.length_take_of_le hlen]
    exact Nat.le_trans hlen (g.length_le_groupCount_mul _)
  rw [Store.joinGroups, fileBuffers, List.mapM_map, mapM_eq_ok hgather]
  simp only [g.flatten_groupBytes hall, List.length_take_of_le hlen, if_true]

end Geometry

end Striping
