import Striping.Proofs.Fetching
import Striping.Proofs.Records

/-!
# What is fetched for a record

Whatever a record says, the buffers that are fetched for it have a slot for each block of the
layout. The slots of the blocks that it lists hold what the layout puts into them, byte for byte as
the store has it, and the others are empty (`GroupRecord.Fetched`,
`GroupRecord.fetched_of_readFrom`).
-/

namespace Striping

/-! ## Filling slots -/

namespace Buffers

/-- The slots of all blocks, parity behind data. -/
def slots (b : Buffers) : List (Option Bytes) := b.data ++ b.parity

variable {b b' : Buffers}

theorem insert_eq_ok {index : Nat} {content : Bytes} (h : b.insert index content = .ok b') :
    b'.group = b.group ∧ b'.data.length = b.data.length ∧
      b'.slots = b.slots.set index (some content) := by
  unfold insert at h
  split at h
  · next hdata =>
    cases h
    exact ⟨rfl, List.length_set, by rw [slots, slots, List.set_append, if_pos hdata]⟩
  · next hdata =>
    split at h
    · cases h
      exact ⟨rfl, rfl, by rw [slots, slots, List.set_append, if_neg hdata]⟩
    · cases h

/-- Of several blocks for one slot, the last counts. -/
theorem insertAll_eq_ok {found : List (Nat × Bytes)} (h : b.insertAll found = .ok b') :
    b'.group = b.group ∧ b'.data.length = b.data.length ∧ ∀ index,
      b'.slots[index]? = b.slots[index]?.map fun slot => (found.reverse.lookup index).or slot := by
  induction found generalizing b with
  | nil =>
    cases h
    simp
  | cons x found ih =>
    obtain ⟨first, content⟩ := x
    unfold insertAll at h
    split at h
    · cases h
    · next hinsert =>
      obtain ⟨hgroup, hdata, hslots⟩ := insert_eq_ok hinsert
      obtain ⟨hgroup', hdata', hslots'⟩ := ih h
      refine ⟨hgroup'.trans hgroup, hdata'.trans hdata, fun index => ?_⟩
      rw [hslots', hslots, List.getElem?_set', List.reverse_cons, List.lookup_append]
      by_cases hindex : first = index
      · subst hindex
        cases b.slots[first]? <;> simp
      · have hbeq : (index == first) = false := beq_false_of_ne (Ne.symm hindex)
        simp [hindex, List.lookup_cons, hbeq]

end Buffers

/-! ## Reading members -/

theorem Member.readFrom_eq_ok {blocks : FiniteMap Nat Bytes} {m : Member} {x : Nat × Bytes}
    (h : m.readFrom blocks = .ok x) : x.1 = m.index ∧ x.2.length = m.block.length ∧
      (x.2 ≠ [] → blocks.get? m.block.id = some x.2) := by
  unfold readFrom at h
  split at h
  · next hlen =>
    cases h
    exact ⟨rfl, hlen.symm, fun hne => absurd rfl hne⟩
  · split at h
    · cases h
    · next hget =>
      split at h
      · next hlen =>
        cases h
        exact ⟨rfl, hlen, fun _ => hget⟩
      · cases h

theorem readSlots_eq_ok {blocks : FiniteMap Nat Bytes} {g : Geometry} {group : Nat}
    {slots : List (Option Member)} {b : Buffers} (h : readSlots blocks g group slots = .ok b) :
    ∃ found, (slots.filterMap id).mapM (Member.readFrom blocks) = .ok found ∧
      b.group = group ∧ b.data.length = g.dataBlocks ∧
        b.slots = (List.range g.width).map fun index => found.reverse.lookup index := by
  unfold readSlots at h
  split at h
  · cases h
  · next found hfound =>
    obtain ⟨hgroup, hdata, hslots⟩ := Buffers.insertAll_eq_ok h
    have hempty : (Buffers.empty g group).slots = List.replicate g.width none :=
      List.replicate_append_replicate
    refine ⟨found, hfound, hgroup, hdata.trans List.length_replicate, ?_⟩
    ext index : 1
    rw [hslots, hempty, List.getElem?_replicate, List.getElem?_map]
    by_cases hi : index < g.width
    · simp [hi]
    · simp [hi]

/-! ## Reading records -/

namespace GroupRecord

/-- What the buffers hold that were fetched for the group at index `group`: the blocks that the
record lists, as long as the layout makes them, with the store's content. -/
structure Fetched (record : GroupRecord) (blocks : FiniteMap Nat Bytes) (g : Geometry)
    (group : Nat) (b : Buffers) : Prop where
  group_eq : b.group = group
  data_length : b.data.length = g.dataBlocks
  parity_length : b.parity.length = g.parityBlocks
  start_eq : record.start = group * g.groupCapacity
  describes : ∀ index ∈ record.listed, record.Describes g index
  unlisted : ∀ index < g.width, index ∉ record.listed → b.slots[index]? = some none
  listed : ∀ index ∈ record.listed, ∃ content, b.slots[index]? = some (some content) ∧
    content.length = g.share record.block.length index ∧
      (content ≠ [] → blocks.get? (record.block.id + index) = some content)

section Found

variable {record : GroupRecord} {blocks : FiniteMap Nat Bytes} {g : Geometry}
  {found : List (Nat × Bytes)}
  (hfound : (((List.range g.width).map (record.slot g)).filterMap id).mapM
    (Member.readFrom blocks) = .ok found)
include hfound

theorem mem_found_iff (x : Nat × Bytes) : x ∈ found ↔
    ∃ index < g.width, ∃ m, record.slot g index = some m ∧ m.readFrom blocks = .ok x := by
  rw [mem_iff_of_mapM_eq_ok hfound, List.filterMap_map]
  simp only [Function.id_comp, List.mem_filterMap, List.mem_range]
  constructor
  · rintro ⟨m, ⟨index, hi, hm⟩, hx⟩
    exact ⟨index, hi, m, hm, hx⟩
  · rintro ⟨index, hi, m, hm, hx⟩
    exact ⟨m, ⟨index, hi, hm⟩, hx⟩

/-- Only listed blocks are found, with the length and the content that they should have. -/
theorem of_mem_found {x : Nat × Bytes} (hx : x ∈ found) : x.1 ∈ record.listed ∧
    x.2.length = g.share record.block.length x.1 ∧
      (x.2 ≠ [] → blocks.get? (record.block.id + x.1) = some x.2) := by
  obtain ⟨index, -, m, hslot, hm⟩ := (mem_found_iff hfound x).1 hx
  obtain ⟨hlisted, site, rfl⟩ := slot_eq_some hslot
  obtain ⟨hindex, hcontent⟩ := Member.readFrom_eq_ok hm
  have hindex : x.1 = index := hindex
  subst hindex
  exact ⟨hlisted, hcontent⟩

/-- Every listed block is found. -/
theorem exists_mem_found (hlen : record.sites.length = record.indices.length) {index : Nat}
    (hi : index < g.width) (h : index ∈ record.listed) : ∃ content, (index, content) ∈ found := by
  obtain ⟨m, hslot⟩ := exists_slot_eq_some hlen h
  have hmem : m ∈ ((List.range g.width).map (record.slot g)).filterMap id := by
    rw [List.filterMap_map]
    exact List.mem_filterMap.2 ⟨index, List.mem_range.2 hi, hslot⟩
  obtain ⟨x, hx⟩ := exists_of_mapM_eq_ok hfound hmem
  obtain ⟨-, site, rfl⟩ := slot_eq_some hslot
  have hindex : x.1 = index := (Member.readFrom_eq_ok hx).1
  subst hindex
  exact ⟨x.2, (mem_found_iff hfound x).2 ⟨x.1, hi, _, hslot, hx⟩⟩

end Found

/-- **What is fetched for a record is what it lists.** -/
theorem fetched_of_readFrom {record : GroupRecord} {blocks : FiniteMap Nat Bytes} {g : Geometry}
    {group : Nat} {b : Buffers} (h : record.readFrom blocks g group = .ok b) :
    record.Fetched blocks g group b := by
  unfold readFrom at h
  split at h
  · cases h
  · next hstart =>
    split at h
    · cases h
    · next hsplit =>
      obtain ⟨hlen, hdescribes, rfl⟩ := split_eq_ok_iff.1 hsplit
      obtain ⟨found, hfound, hgroup, hdata, hslots⟩ := readSlots_eq_ok h
      have hparity : b.parity.length = g.parityBlocks := by
        have hall := congrArg List.length hslots
        rw [Buffers.slots, List.length_append, hdata, List.length_map, List.length_range] at hall
        exact Nat.add_left_cancel hall
      have hslot : ∀ index < g.width, b.slots[index]? = some (found.reverse.lookup index) := by
        intro index hi
        rw [hslots]
        exact getElem?_map_range_eq_some.2 ⟨hi, rfl⟩
      refine ⟨hgroup, hdata, hparity, not_not.1 hstart, hdescribes, fun index hi hindex => ?_,
        fun index hindex => ?_⟩
      · rw [hslot index hi, Option.some.injEq, List.lookup_eq_none_iff]
        rintro x hx
        rw [bne_iff_ne]
        rintro rfl
        exact hindex (of_mem_found hfound (List.mem_reverse.1 hx)).1
      · have hi := (hdescribes index hindex).index_lt
        obtain ⟨content, hcontent⟩ := exists_mem_found hfound hlen hi hindex
        cases hlookup : found.reverse.lookup index with
        | none =>
          have := List.lookup_eq_none_iff.1 hlookup _ (List.mem_reverse.2 hcontent)
          simp at this
        | some content =>
          obtain ⟨before, after, hsplit, -⟩ := List.lookup_eq_some_iff.1 hlookup
          have hx : (index, content) ∈ found := by
            rw [← List.mem_reverse, hsplit]
            simp
          exact ⟨content, by rw [hslot index hi, hlookup], (of_mem_found hfound hx).2⟩

end GroupRecord

end Striping
