import Striping.Proofs.Audit.Verdicts

/-!
# Groups that pass

A comparison that succeeds has seen every byte of the data blocks: `Expectation.Passes` says what it
found, and a group is reported exactly if it passes (`Expectation.checkGroup_eq_ok_iff`), a file
exactly if all its groups do (`Expectation.checkFile_eq_ok_iff`). Where the blocks are within the
layout, only a byte can fail: it differs, or it has no position
(`Expectation.checkGroup_error_of_within`).
-/

namespace Striping

/-- The group has no more data blocks, and no longer ones, than the layout. -/
structure Buffers.Within (b : Buffers) (g : Geometry) : Prop where
  data_le : b.data.length ≤ g.dataBlocks
  length_le : ∀ (block : Nat) (content : Bytes), b.data[block]? = some (some content) →
    content.length ≤ g.blockCapacity

namespace Expectation

variable (e : Expectation)

/-- The byte has a position and belongs there. -/
def Agrees (group block offset : Nat) (actual : UInt8) : Prop :=
  e.geometry.position group block offset < Word.size ∧
    e.byteAt (e.geometry.position group block offset) = actual

/-- The group is within the layout, starts at a position, and every byte of it agrees. -/
structure Passes (b : Buffers) : Prop extends b.Within e.geometry where
  start_lt : b.group * e.geometry.groupCapacity < Word.size
  agrees : ∀ (block : Nat) (content : Bytes), b.data[block]? = some (some content) →
    ∀ (offset : Nat) (actual : UInt8), content[offset]? = some actual →
      e.Agrees b.group block offset actual

/-! ## Bytes and blocks -/

theorem inspect_eq_none_iff {group block offset : Nat} {actual : UInt8} :
    e.inspect group block offset actual = .ok none ↔ e.Agrees group block offset actual := by
  rw [e.inspect_eq_ite, difference, Agrees, ← Nat.not_le]
  split
  · next h => simp [h]
  · next h => simp [h]

theorem inspect_eq_error {group block offset : Nat} {actual : UInt8} {err : Error}
    (h : e.inspect group block offset actual = .error err) :
    err = .layout (.unaddressable group) := by
  rw [e.inspect_eq_ite] at h
  split at h
  · exact (Except.error.inj h).symm
  · cases h

theorem checkBytes_eq_ok_iff {group block offset : Nat} {content : Bytes} :
    e.checkBytes group block offset content = .ok () ↔
      ∀ x ∈ content.zipIdx offset, e.Agrees group block x.2 x.1 := by
  induction content generalizing offset with
  | nil => simp [checkBytes]
  | cons actual content ih =>
    rw [List.zipIdx_cons, List.forall_mem_cons, ← e.inspect_eq_none_iff, ← ih, checkBytes]
    rcases e.inspect group block offset actual with err | _ | m
    · simp
    · simp
    · simp

theorem checkBytes_eq_error {group block offset : Nat} {content : Bytes} {err : Error}
    (h : e.checkBytes group block offset content = .error err) :
    (∃ m, err = .mismatch m) ∨ err = .layout (.unaddressable group) := by
  induction content generalizing offset with
  | nil => cases h
  | cons first content ih =>
    unfold checkBytes at h
    split at h
    · next hinspect =>
      cases h
      exact .inr (e.inspect_eq_error hinspect)
    · next m _ =>
      cases h
      exact .inl ⟨m, rfl⟩
    · exact ih h

theorem checkLength_eq_ok_iff {content : Bytes} :
    e.checkLength content = .ok () ↔ content.length ≤ e.geometry.blockCapacity := by
  unfold checkLength
  dsimp only
  split
  · next h => simp [Nat.not_le_of_lt h]
  · next h => simp [Nat.le_of_not_lt h]

theorem checkLength_eq_error {content : Bytes} {err : Error}
    (h : e.checkLength content = .error err) : e.geometry.blockCapacity < content.length ∧
      err = .blockOffset (content.length - 1) e.geometry.blockCapacity := by
  unfold checkLength at h
  dsimp only at h
  split at h
  · next hlen => exact ⟨hlen, (Except.error.inj h).symm⟩
  · cases h

/-- The slot is empty, or its block is within the layout and every byte of it agrees. -/
def SlotPasses (group block : Nat) (slot : Option Bytes) : Prop :=
  ∀ content, slot = some content → content.length ≤ e.geometry.blockCapacity ∧
    ∀ x ∈ content.zipIdx, e.Agrees group block x.2 x.1

theorem checkBlocks_eq_ok_iff {group block : Nat} {slots : List (Option Bytes)}
    {report : Report} : e.checkBlocks group block slots = .ok report ↔
      (∀ x ∈ slots.zipIdx block, e.SlotPasses group x.2 x.1) ∧ report = slotsReport slots := by
  induction slots generalizing block report with
  | nil => simp [checkBlocks, slotsReport, eq_comm]; rfl
  | cons slot slots ih =>
    rw [List.zipIdx_cons, List.forall_mem_cons]
    cases slot with
    | none =>
      have hslot : e.SlotPasses group block none := by
        intro _ hsome
        cases hsome
      rw [checkBlocks, ih]
      simp [slotsReport, hslot]
    | some content =>
      have hslot : e.SlotPasses group block (some content) ↔ e.checkLength content = .ok () ∧
          e.checkBytes group block 0 content = .ok () := by
        rw [e.checkLength_eq_ok_iff, e.checkBytes_eq_ok_iff]
        exact ⟨fun h => h content rfl, fun h _ hsome => Option.some.inj hsome ▸ h⟩
      rw [hslot, slotsReport_some, checkBlocks]
      cases e.checkLength content with
      | error err => simp
      | ok _ =>
        cases e.checkBytes group block 0 content with
        | error err => simp
        | ok _ =>
          dsimp only
          constructor
          · intro h
            split at h
            · cases h
            · next hrest =>
              obtain ⟨hall, rfl⟩ := ih.1 hrest
              exact ⟨⟨⟨rfl, rfl⟩, hall⟩, (Except.ok.inj h).symm⟩
          · rintro ⟨⟨-, hall⟩, rfl⟩
            rw [ih.2 ⟨hall, rfl⟩]

theorem checkBlocks_eq_error {group block : Nat} {slots : List (Option Bytes)} {err : Error}
    (hslots : ∀ content, some content ∈ slots → content.length ≤ e.geometry.blockCapacity)
    (h : e.checkBlocks group block slots = .error err) :
    (∃ m, err = .mismatch m) ∨ err = .layout (.unaddressable group) := by
  induction slots generalizing block with
  | nil => cases h
  | cons slot slots ih =>
    have hrest := fun content hmem => hslots content (List.mem_cons_of_mem slot hmem)
    cases slot with
    | none => exact ih hrest h
    | some content =>
      unfold checkBlocks at h
      rw [e.checkLength_eq_ok_iff.2 (hslots content (.head _))] at h
      dsimp only at h
      split at h
      · next hbytes =>
        cases h
        exact e.checkBytes_eq_error hbytes
      · split at h
        · next hblocks =>
          cases h
          exact ih hrest hblocks
        · cases h

/-! ## Groups and files -/

theorem checkShape_eq_ok_iff {b : Buffers} : e.checkShape b = .ok () ↔
    b.data.length ≤ e.geometry.dataBlocks ∧ b.group * e.geometry.groupCapacity < Word.size := by
  unfold checkShape
  dsimp only
  split
  · next h => simp [Nat.not_le_of_lt h]
  · next h =>
    split
    · next h' => simp [Nat.not_lt_of_le h']
    · next h' => simp [Nat.le_of_not_lt h, Nat.lt_of_not_le h']

theorem checkShape_eq_error {b : Buffers} {err : Error} (h : e.checkShape b = .error err) :
    e.geometry.dataBlocks < b.data.length ∧
        err = .blockIndex (b.data.length - 1) e.geometry.dataBlocks ∨
      b.data.length ≤ e.geometry.dataBlocks ∧
        Word.size ≤ b.group * e.geometry.groupCapacity ∧
          err = .layout (.unaddressable b.group) := by
  unfold checkShape at h
  dsimp only at h
  split at h
  · next hdata => exact .inl ⟨hdata, (Except.error.inj h).symm⟩
  · next hdata =>
    split at h
    · next hstart => exact .inr ⟨Nat.le_of_not_lt hdata, hstart, (Except.error.inj h).symm⟩
    · cases h

theorem passes_iff {b : Buffers} : e.Passes b ↔ e.checkShape b = .ok () ∧
    ∀ x ∈ b.data.zipIdx, e.SlotPasses b.group x.2 x.1 := by
  rw [e.checkShape_eq_ok_iff]
  constructor
  · rintro ⟨⟨hdata, hlength⟩, hstart, hagrees⟩
    refine ⟨⟨hdata, hstart⟩, ?_⟩
    rintro ⟨slot, block⟩ hx content rfl
    have hget := List.mk_mem_zipIdx_iff_getElem?.1 hx
    refine ⟨hlength block content hget, ?_⟩
    rintro ⟨actual, offset⟩ hbyte
    exact hagrees block content hget offset actual (List.mk_mem_zipIdx_iff_getElem?.1 hbyte)
  · rintro ⟨⟨hdata, hstart⟩, hslots⟩
    have hslot : ∀ (block : Nat) (content : Bytes), b.data[block]? = some (some content) → _ :=
      fun block content hget =>
        hslots (some content, block) (List.mk_mem_zipIdx_iff_getElem?.2 hget) content rfl
    refine ⟨⟨hdata, fun block content hget => (hslot block content hget).1⟩, hstart, ?_⟩
    intro block content hget offset actual hbyte
    exact (hslot block content hget).2 (actual, offset) (List.mk_mem_zipIdx_iff_getElem?.2 hbyte)

/-- **A group is reported exactly if it passes.** -/
theorem checkGroup_eq_ok_iff {b : Buffers} {report : Report} :
    e.checkGroup b = .ok report ↔ e.Passes b ∧ report = b.report := by
  have hreport : (⟨1, 0, 0⟩ : Report) + slotsReport b.data = b.report := by
    change Report.mk (1 + 0) (0 + _) (0 + _) = _
    simp [Buffers.report, slotsReport, Buffers.dataLength]
  rw [e.passes_iff, checkGroup, ← hreport]
  cases e.checkShape b with
  | error err => simp
  | ok _ =>
    dsimp only
    constructor
    · intro h
      split at h
      · cases h
      · next hblocks =>
        obtain ⟨hall, rfl⟩ := e.checkBlocks_eq_ok_iff.1 hblocks
        exact ⟨⟨rfl, hall⟩, (Except.ok.inj h).symm⟩
    · rintro ⟨⟨-, hall⟩, rfl⟩
      rw [e.checkBlocks_eq_ok_iff.2 ⟨hall, rfl⟩]

theorem checkFile_of_passes {groups : List Buffers} (h : ∀ b ∈ groups, e.Passes b) :
    e.checkFile e.length groups = .ok (groups.map (·.report)).sum := by
  apply e.checkFile_eq_ok
  rw [List.forall₂_map_right_iff, List.forall₂_same]
  exact fun b hb => e.checkGroup_eq_ok_iff.2 ⟨h b hb, rfl⟩

/-- **A file is reported exactly if its length is right and all its groups pass.** -/
theorem checkFile_eq_ok_iff {reported : Nat} {groups : List Buffers} {report : Report} :
    e.checkFile reported groups = .ok report ↔ reported = e.length ∧
      (∀ b ∈ groups, e.Passes b) ∧ report = (groups.map (·.report)).sum := by
  constructor
  · intro h
    have hlen : reported = e.length := by
      by_contra hne
      cases h.symm.trans (if_pos hne)
    subst hlen
    have hpass : ∀ b ∈ groups, e.Passes b := by
      intro b hb
      cases hcheck : e.checkGroup b with
      | ok report => exact (e.checkGroup_eq_ok_iff.1 hcheck).1
      | error err =>
        obtain ⟨_, _, -, hfails⟩ := e.exists_failsFirst hb hcheck
        cases h.symm.trans hfails
    exact ⟨rfl, hpass, Except.ok.inj (h.symm.trans (e.checkFile_of_passes hpass))⟩
  · rintro ⟨rfl, hpass, rfl⟩
    exact e.checkFile_of_passes hpass

/-- **Within the layout only a byte can fail**: it differs, or the group reaches past the last
position. -/
theorem checkGroup_error_of_within {b : Buffers} (hb : b.Within e.geometry) {err : Error}
    (h : e.checkGroup b = .error err) :
    (∃ m, err = .mismatch m) ∨ err = .layout (.unaddressable b.group) := by
  unfold checkGroup at h
  split at h
  · next hshape =>
    cases h
    rcases e.checkShape_eq_error hshape with ⟨hdata, -⟩ | ⟨-, -, herr⟩
    · exact absurd hb.data_le (Nat.not_le_of_lt hdata)
    · exact .inr herr
  · split at h
    · next hblocks =>
      cases h
      refine e.checkBlocks_eq_error (fun content hmem => ?_) hblocks
      obtain ⟨block, hget⟩ := List.mem_iff_getElem?.1 hmem
      exact hb.length_le block content hget
    · cases h

end Expectation

end Striping
