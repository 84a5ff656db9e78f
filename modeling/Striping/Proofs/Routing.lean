import Striping.Proofs.Retrieval

/-!
# Fetching any listed blocks

The blocks that are fetched for a group can have any ids, lengths and indices, be listed more than
once, or come from another layout. They are asked for in order, those without bytes excepted, and
the first one that is absent or of another length ends the fetching. A block that is there counts as
read, also if its length is wrong (`Store.asked`). After that the contents go into the slots of
their indices, of which the first one outside the group is refused, and of several for one slot the
last one stays (`Geometry.routed`).

`FetchEnds` says this with one case for each end, and a group is fetched as it says and in no other
way (`Store.fetchGroup_exact`).
-/

namespace Striping

/-! ## Reading a block -/

namespace Member

/-- The block holds bytes, so it is read. -/
def occupied (m : Member) : Bool := m.block.length != 0

/-- The block is there, as long as its record says. -/
def Readable (blocks : FiniteMap Nat Bytes) (m : Member) : Prop :=
  ∃ content, blocks.get? m.block.id = some content ∧ content.length = m.block.length

/-- Why a block is not read. -/
inductive Unread (blocks : FiniteMap Nat Bytes) (m : Member) : Error → Prop
  | absent (h : blocks.get? m.block.id = none) : Unread blocks m (.blockNotFound m.block.id)
  | length (content : Bytes) (h : blocks.get? m.block.id = some content)
    (hne : content.length ≠ m.block.length) :
    Unread blocks m (.length m.block.length content.length)

/-- The content that is fetched for the block. -/
def contentIn (blocks : FiniteMap Nat Bytes) (m : Member) : Bytes :=
  if m.occupied then (blocks.get? m.block.id).getD [] else []

variable {blocks : FiniteMap Nat Bytes} {m : Member}

theorem readable_or_unread (blocks : FiniteMap Nat Bytes) (m : Member) :
    m.Readable blocks ∨ ∃ e, m.Unread blocks e := by
  cases h : blocks.get? m.block.id with
  | none => exact .inr ⟨_, .absent h⟩
  | some content =>
    by_cases hlen : content.length = m.block.length
    · exact .inl ⟨content, h, hlen⟩
    · exact .inr ⟨_, .length content h hlen⟩

theorem readFrom_of_readable (h : m.occupied → m.Readable blocks) :
    m.readFrom blocks = .ok (m.index, m.contentIn blocks) := by
  unfold readFrom contentIn
  by_cases hlen : m.block.length = 0
  · simp [occupied, hlen]
  · obtain ⟨content, hget, hcontent⟩ := h (by simp [occupied, hlen])
    simp [occupied, hlen, hget, hcontent]

theorem readFrom_of_unread {e : Error} (hm : m.occupied) (h : m.Unread blocks e) :
    m.readFrom blocks = .error e := by
  have hlen : m.block.length ≠ 0 := by simpa [occupied] using hm
  unfold readFrom
  rw [if_neg hlen]
  cases h with
  | absent hget => simp only [hget]
  | length content hget hne => simp only [hget, hne, if_false]

end Member

/-! ## Reading blocks in order -/

namespace Store

/-- What the store has of these blocks. -/
def present (s : Store) (ms : List Member) : List Bytes :=
  ms.filterMap fun m => s.blocks.get? m.block.id

/-- The store after it was asked for these blocks: it counts those that are there, and their
bytes, as far as words count. -/
def asked (s : Store) (ms : List Member) : Store :=
  { s with
    reads := s.reads + .ofNat (s.present ms).length
    bytesRead := s.bytesRead + .ofNat ((s.present ms).map List.length).sum }

theorem asked_nil (s : Store) : s.asked [] = s := by
  simp [asked, present]

theorem asked_append (s : Store) (ms ns : List Member) :
    (s.asked ms).asked ns = s.asked (ms ++ ns) := by
  simp only [asked, present, List.filterMap_append, List.length_append, List.map_append,
    List.sum_append, UInt64.ofNat_add, UInt64.add_assoc]

variable {s : Store} {m : Member}

theorem read_snd (s : Store) (m : Member) : (s.read m.block.id).2 = s.asked [m] := by
  rw [read]
  cases h : s.blocks.get? m.block.id <;> simp [asked, present, h]

theorem fetchMember_snd (s : Store) (m : Member) :
    (s.fetchMember m).2 = s.asked ([m].filter Member.occupied) := by
  have hread := s.read_snd m
  rw [fetchMember]
  by_cases hlen : m.block.length = 0
  · simp [hlen, Member.occupied, asked, present]
  · rw [if_neg hlen, List.filter_cons_of_pos (by simpa [Member.occupied] using hlen),
      List.filter_nil]
    rcases hr : s.read m.block.id with ⟨_ | content, t⟩
    · rwa [hr] at hread
    · rw [hr] at hread
      dsimp only
      split <;> exact hread

theorem fetchMember_of_readable (h : m.occupied → m.Readable s.blocks) : s.fetchMember m =
    (.ok (m.index, m.contentIn s.blocks), s.asked ([m].filter Member.occupied)) := by
  obtain ⟨t, -, ht⟩ := s.fetchMember_eq m
  have hsnd := s.fetchMember_snd m
  rw [ht] at hsnd
  rw [ht, ← hsnd, Member.readFrom_of_readable h]

theorem fetchMember_of_unread {e : Error} (hm : m.occupied) (h : m.Unread s.blocks e) :
    s.fetchMember m = (.error e, s.asked [m]) := by
  obtain ⟨t, -, ht⟩ := s.fetchMember_eq m
  have hsnd := s.fetchMember_snd m
  rw [ht, List.filter_cons_of_pos hm, List.filter_nil] at hsnd
  rw [ht, ← hsnd, Member.readFrom_of_unread hm h]

/-- **Blocks that are there are all read**, and what holds no bytes is not asked for. -/
theorem fetchMembers_of_readable {ms : List Member}
    (h : ∀ m ∈ ms, m.occupied → m.Readable s.blocks) : s.fetchMembers ms =
      (.ok (ms.map fun m => (m.index, m.contentIn s.blocks)),
        s.asked (ms.filter Member.occupied)) := by
  induction ms generalizing s with
  | nil =>
    rw [List.filter_nil, asked_nil]
    rfl
  | cons m ms ih =>
    obtain ⟨hm, hms⟩ := List.forall_mem_cons.1 h
    have hrest := ih (s := s.asked ([m].filter Member.occupied)) hms
    rw [asked_append, ← List.filter_append] at hrest
    rw [fetchMembers, fetchMember_of_readable hm]
    dsimp only
    rw [hrest]
    rfl

/-- **The first block that is not read ends the reading**, and what is behind it is not asked
for. -/
theorem fetchMembers_of_unread {before after : List Member} {e : Error}
    (hbefore : ∀ x ∈ before, x.occupied → x.Readable s.blocks) (hm : m.occupied)
    (h : m.Unread s.blocks e) : s.fetchMembers (before ++ m :: after) =
      (.error e, s.asked ((before ++ [m]).filter Member.occupied)) := by
  induction before generalizing s with
  | nil =>
    rw [List.nil_append, fetchMembers, fetchMember_of_unread hm h, List.nil_append,
      List.filter_cons_of_pos hm, List.filter_nil]
  | cons x before ih =>
    obtain ⟨hx, hrest⟩ := List.forall_mem_cons.1 hbefore
    have hnext := ih (s := s.asked ([x].filter Member.occupied)) hrest h
    rw [asked_append, ← List.filter_append] at hnext
    rw [List.cons_append, fetchMembers, fetchMember_of_readable hx]
    dsimp only
    rw [hnext]
    rfl

end Store

/-! ## Filling slots -/

namespace Buffers

variable {b : Buffers}

theorem length_slots (b : Buffers) : b.slots.length = b.data.length + b.parity.length :=
  List.length_append

/-- Buffers with as many data slots are told apart by their slots. -/
theorem eq_of_slots {b b' : Buffers} (hgroup : b.group = b'.group)
    (hdata : b.data.length = b'.data.length) (hslots : b.slots = b'.slots) : b = b' := by
  obtain ⟨hdata, hparity⟩ := List.append_inj hslots hdata
  cases b
  cases hgroup
  cases hdata
  cases hparity
  rfl

theorem exists_insert_eq_ok {index : Nat} (h : index < b.slots.length) (content : Bytes) :
    ∃ b', b.insert index content = .ok b' ∧ b'.slots.length = b.slots.length := by
  have hok : ∃ b', b.insert index content = .ok b' := by
    rw [length_slots] at h
    unfold insert
    split
    · exact ⟨_, rfl⟩
    · exact ⟨_, rfl⟩
  obtain ⟨b', hb'⟩ := hok
  exact ⟨b', hb', by rw [(insert_eq_ok hb').2.2, List.length_set]⟩

theorem insert_eq_error {index : Nat} (h : b.slots.length ≤ index) (content : Bytes) :
    b.insert index content = .error (.blockIndex index b.slots.length) := by
  rw [length_slots] at h ⊢
  unfold insert
  rw [if_neg (by omega), if_neg (by omega)]

/-- Contents for slots that are there are all put. -/
theorem exists_insertAll_eq_ok (found : List (Nat × Bytes))
    (h : ∀ x ∈ found, x.1 < b.slots.length) : ∃ b', b.insertAll found = .ok b' := by
  induction found generalizing b with
  | nil => exact ⟨b, rfl⟩
  | cons x found ih =>
    obtain ⟨hx, hfound⟩ := List.forall_mem_cons.1 h
    obtain ⟨b', hb', hlen⟩ := exists_insert_eq_ok hx x.2
    rw [insertAll, hb']
    exact ih (hlen ▸ hfound)

/-- The first content without a slot is refused. -/
theorem insertAll_eq_error {before after : List (Nat × Bytes)} {x : Nat × Bytes}
    (hbefore : ∀ y ∈ before, y.1 < b.slots.length) (h : b.slots.length ≤ x.1) :
    b.insertAll (before ++ x :: after) = .error (.blockIndex x.1 b.slots.length) := by
  induction before generalizing b with
  | nil => rw [List.nil_append, insertAll, insert_eq_error h]
  | cons y before ih =>
    obtain ⟨hy, hrest⟩ := List.forall_mem_cons.1 hbefore
    obtain ⟨b', hb', hlen⟩ := exists_insert_eq_ok hy y.2
    rw [List.cons_append, insertAll, hb']
    dsimp only
    rw [ih (hlen ▸ hrest) (hlen ▸ h), hlen]

theorem slots_empty (g : Geometry) (group : Nat) :
    (empty g group).slots = List.replicate g.width none :=
  List.replicate_append_replicate

theorem length_slots_empty (g : Geometry) (group : Nat) :
    (empty g group).slots.length = g.width := by
  rw [slots_empty, List.length_replicate]

end Buffers

/-- The content of the last listed block of an index, if there is one. -/
def lastContent (blocks : FiniteMap Nat Bytes) (listed : List Member) (index : Nat) :
    Option Bytes :=
  (listed.reverse.find? (·.index == index)).map (Member.contentIn blocks)

/-- The buffers of a group with the content of the last listed block in each slot. -/
def Geometry.routed (g : Geometry) (blocks : FiniteMap Nat Bytes) (group : Nat)
    (listed : List Member) : Buffers where
  group
  data := (List.range g.dataBlocks).map (lastContent blocks listed)
  parity := (List.range g.parityBlocks).map fun i => lastContent blocks listed (g.dataBlocks + i)

theorem lookup_map_index (listed : List Member) (f : Member → Bytes) (index : Nat) :
    (listed.map fun m => (m.index, f m)).lookup index =
      (listed.find? (·.index == index)).map f := by
  induction listed with
  | nil => rfl
  | cons m listed ih =>
    rw [List.map_cons, List.lookup_cons, List.find?_cons, BEq.comm]
    cases m.index == index with
    | true => rfl
    | false => exact ih

/-- **Of several blocks for one slot, the last one listed stays.** -/
theorem insertAll_eq_routed {blocks : FiniteMap Nat Bytes} {g : Geometry} {group : Nat}
    {listed : List Member} {b : Buffers} (h : (Buffers.empty g group).insertAll
      (listed.map fun m => (m.index, m.contentIn blocks)) = .ok b) :
    b = g.routed blocks group listed := by
  obtain ⟨hgroup, hdata, hslots⟩ := Buffers.insertAll_eq_ok h
  have hall : b.slots = (g.routed blocks group listed).slots := by
    have hrouted : (g.routed blocks group listed).slots =
        (List.range g.width).map (lastContent blocks listed) := by
      rw [Geometry.width, List.range_add, List.map_append, List.map_map]
      rfl
    rw [hrouted]
    ext index : 1
    rw [hslots, Buffers.slots_empty, List.getElem?_replicate, List.getElem?_map, ← List.map_reverse,
      lookup_map_index]
    by_cases hi : index < g.width
    · simp [hi, lastContent]
    · simp [hi]
  have hlen : b.data.length = (g.routed blocks group listed).data.length := by
    rw [hdata]
    simp [Buffers.empty, Geometry.routed]
  exact Buffers.eq_of_slots hgroup hlen hall

/-! ## Fetching a group -/

/-- How the fetching of a group from the listed blocks ends, and which blocks were asked for. -/
inductive FetchEnds (blocks : FiniteMap Nat Bytes) (g : Geometry) (group : Nat)
    (listed : List Member) : List Member → Except Error Buffers → Prop
  /-- The first block with bytes that is not read ends it. -/
  | unread {before after : List Member} {m : Member} {e : Error}
    (hsplit : listed.filter Member.occupied = before ++ m :: after)
    (hbefore : ∀ x ∈ before, x.Readable blocks) (h : m.Unread blocks e) :
    FetchEnds blocks g group listed (before ++ [m]) (.error e)
  /-- All blocks with bytes are read, but an index is not one of the group. -/
  | stray {before after : List Member} {m : Member}
    (hread : ∀ x ∈ listed.filter Member.occupied, x.Readable blocks)
    (hsplit : listed = before ++ m :: after) (hbefore : ∀ x ∈ before, x.index < g.width)
    (h : g.width ≤ m.index) :
    FetchEnds blocks g group listed (listed.filter Member.occupied)
      (.error (.blockIndex m.index g.width))
  /-- All blocks with bytes are read, and every index is one of the group. -/
  | routed (hread : ∀ x ∈ listed.filter Member.occupied, x.Readable blocks)
    (hindex : ∀ x ∈ listed, x.index < g.width) :
    FetchEnds blocks g group listed (listed.filter Member.occupied)
      (.ok (g.routed blocks group listed))

/-- What a filter keeps before an element is kept from the part of the list before the element. -/
theorem exists_of_filter_eq_append_cons {α : Type} {p : α → Bool} {xs before after : List α} {x : α}
    (h : xs.filter p = before ++ x :: after) : ∃ front back, xs = front ++ x :: back ∧
      front.filter p = before ∧ p x = true := by
  obtain ⟨l, l', rfl, hl, hl'⟩ := List.filter_eq_append_iff.1 h
  obtain ⟨skipped, back, rfl, hskipped, hx, -⟩ := List.filter_eq_cons_iff.1 hl'
  refine ⟨l ++ skipped, back, (List.append_assoc ..).symm, ?_, hx⟩
  rw [List.filter_append, hl, List.filter_eq_nil_iff.2 hskipped, List.append_nil]

section Fetching

variable {s : Store} {g : Geometry} {group : Nat} {slots : List (Option Member)}
  {ms : List Member} {answer : Except Error Buffers}

/-- Some end applies. -/
theorem exists_fetchEnds (blocks : FiniteMap Nat Bytes) (g : Geometry) (group : Nat)
    (listed : List Member) : ∃ ms answer, FetchEnds blocks g group listed ms answer := by
  rcases forall_or_exists_first (fun x => Member.Readable blocks x)
      (listed.filter Member.occupied) with hread | ⟨before, m, after, hsplit, hbefore, hm⟩
  · rcases forall_or_exists_first (fun x => x.index < g.width) listed with
      hindex | ⟨before, m, after, hsplit, hbefore, hm⟩
    · exact ⟨_, _, .routed hread hindex⟩
    · exact ⟨_, _, .stray hread hsplit hbefore (Nat.le_of_not_lt hm)⟩
  · obtain ⟨e, he⟩ := (m.readable_or_unread blocks).resolve_left hm
    exact ⟨_, _, .unread hsplit hbefore he⟩

/-- **A group is fetched to the end that applies.** -/
theorem FetchEnds.fetchGroup_eq (h : FetchEnds s.blocks g group (slots.filterMap id) ms answer) :
    s.fetchGroup g group slots = (answer, s.asked ms) := by
  have hwidth := Buffers.length_slots_empty g group
  unfold Store.fetchGroup
  cases h with
  | @unread before after m e hsplit hbefore h =>
    obtain ⟨front, back, hlisted, hfront, hm⟩ := exists_of_filter_eq_append_cons hsplit
    have hread : ∀ x ∈ front, x.occupied → x.Readable s.blocks := fun x hx hoccupied =>
      hbefore x (hfront ▸ List.mem_filter.2 ⟨hx, hoccupied⟩)
    have hfilter : (front ++ [m]).filter Member.occupied = before ++ [m] := by
      rw [List.filter_append, hfront, List.filter_cons_of_pos hm, List.filter_nil]
    rw [hlisted, Store.fetchMembers_of_unread hread hm h, hfilter]
  | stray hread hsplit hbefore h =>
    rw [Store.fetchMembers_of_readable fun x hx ho => hread x (List.mem_filter.2 ⟨hx, ho⟩)]
    dsimp only
    rw [hsplit, List.map_append, List.map_cons, Buffers.insertAll_eq_error, hwidth]
    · simpa [hwidth] using hbefore
    · rwa [hwidth]
  | routed hread hindex =>
    rw [Store.fetchMembers_of_readable fun x hx ho => hread x (List.mem_filter.2 ⟨hx, ho⟩)]
    dsimp only
    obtain ⟨b, hb⟩ := Buffers.exists_insertAll_eq_ok (b := .empty g group)
      ((slots.filterMap id).map fun m => (m.index, m.contentIn s.blocks))
      (by simpa [hwidth] using hindex)
    rw [hb, insertAll_eq_routed hb]

end Fetching

/-- **A group is fetched from any listed blocks as one of the ends says, and in no other way.** -/
theorem Store.fetchGroup_exact (s : Store) (g : Geometry) (group : Nat)
    (slots : List (Option Member)) (answer : Except Error Buffers) (t : Store) :
    s.fetchGroup g group slots = (answer, t) ↔ ∃ ms,
      FetchEnds s.blocks g group (slots.filterMap id) ms answer ∧ t = s.asked ms := by
  constructor
  · intro h
    obtain ⟨ms, answer', hends⟩ := exists_fetchEnds s.blocks g group (slots.filterMap id)
    obtain ⟨rfl, rfl⟩ := Prod.mk.inj (h.symm.trans hends.fetchGroup_eq)
    exact ⟨ms, hends, rfl⟩
  · rintro ⟨ms, hends, rfl⟩
    exact hends.fetchGroup_eq

/-- A block of three bytes is read, one without bytes is not asked for, and of the next there is a
byte less than its record says; the last, which has no slot, does not matter. -/
theorem Store.fetchGroup_exact_short :
    let s := ((Store.empty .small 1).put 10 [1, 2, 5]).put 20 [3]
    let member id length index : Member :=
      ⟨⟨"pool", id, length, 1⟩, 0, ⟨"node", "address"⟩, ⟨[]⟩, index, .data⟩
    ∃ t, s.fetchGroup .small 0
        [some (member 10 3 0), none, some (member 7 0 1), some (member 20 2 1),
          some (member 8 1 9)] = (.error (.length 2 1), t) ∧
      t.stats = ⟨2, 4, 2, 2, 4⟩ := by
  intro s member
  refine ⟨s.asked [member 10 3 0, member 20 2 1], ?_, by decide +kernel⟩
  refine (Store.fetchGroup_exact ..).2 ⟨_, ?_, rfl⟩
  refine @FetchEnds.unread _ _ _ _ [member 10 3 0] [member 8 1 9] _ _ (by decide +kernel) ?_ ?_
  · exact List.forall_mem_singleton.2 ⟨[1, 2, 5], by decide +kernel, by decide⟩
  · exact .length [3] (by decide +kernel) (by decide)

end Striping
