import Striping.Proofs.Addressing
import Striping.Proofs.Words.Audit

/-!
# What is listed of a group

Listing the mismatches of a group goes through all its data blocks, so it succeeds exactly if every
block fits the layout and every byte has a position (`Expectation.exists_groupMismatches_iff`), and
is refused as a violation of the layout otherwise. The list has an entry for each byte that differs
from the one that belongs at its position, and no other (`Expectation.exact_differences`): the
coordinates of an entry lead to its position, and those of the position are the entry's own.
-/

namespace Striping.Expectation

variable (e : Expectation)

/-- The group is within the layout, and it and all its bytes have positions. -/
structure Addressed (b : Buffers) : Prop extends b.Within e.geometry where
  start_lt : b.group * e.geometry.groupCapacity < Word.size
  position_lt : ∀ (block : Nat) (content : Bytes), b.data[block]? = some (some content) →
    ∀ offset < content.length, e.geometry.position b.group block offset < Word.size

/-- Why the mismatches of a group cannot be listed. -/
inductive Unlisted (b : Buffers) : Prop
  /-- There are more data blocks than the layout has. -/
  | data (h : e.geometry.dataBlocks < b.data.length)
  /-- The group starts behind the last position. -/
  | start (h : Word.size ≤ b.group * e.geometry.groupCapacity)
  /-- A block is longer than the layout allows. -/
  | length (block : Nat) (content : Bytes) (hget : b.data[block]? = some (some content))
    (h : e.geometry.blockCapacity < content.length)
  /-- A byte lies behind the last position. -/
  | position (block : Nat) (content : Bytes) (hget : b.data[block]? = some (some content))
    (offset : Nat) (ho : offset < content.length)
    (h : Word.size ≤ e.geometry.position b.group block offset)

theorem addressed_iff_not_unlisted {b : Buffers} : e.Addressed b ↔ ¬ e.Unlisted b := by
  constructor
  · rintro ⟨⟨hdata, hlength⟩, hstart, hposition⟩ h
    cases h with
    | data h => omega
    | start h => omega
    | length block content hget h => exact absurd (hlength block content hget) (Nat.not_le_of_lt h)
    | position block content hget offset ho h =>
      exact absurd (hposition block content hget offset ho) (Nat.not_lt_of_le h)
  · intro h
    refine ⟨⟨?_, fun block content hget => ?_⟩, ?_, fun block content hget offset ho => ?_⟩
    · exact Nat.le_of_not_lt fun hdata => h (.data hdata)
    · exact Nat.le_of_not_lt fun hlength => h (.length block content hget hlength)
    · exact Nat.lt_of_not_le fun hstart => h (.start hstart)
    · exact Nat.lt_of_not_le fun hposition => h (.position block content hget offset ho hposition)

/-! ## When a list is given -/

theorem position_lt_of_inspect {group block offset : Nat} {actual : UInt8}
    {found : Option Mismatch} (h : e.inspect group block offset actual = .ok found) :
    e.geometry.position group block offset < Word.size := by
  rw [e.inspect_eq_ite] at h
  split at h
  · cases h
  · next hlt => exact Nat.lt_of_not_le hlt

theorem addressed_of_blockMismatches {group block : Nat} {content : Bytes} {ms : List Mismatch}
    (h : e.blockMismatches group block content = .ok ms) :
    content.length ≤ e.geometry.blockCapacity ∧
      ∀ offset < content.length, e.geometry.position group block offset < Word.size := by
  refine ⟨e.checkLength_eq_ok_iff.1 (e.checkBlock_eq h).1, fun offset ho => ?_⟩
  unfold blockMismatches at h
  split at h
  · cases h
  · split at h
    · cases h
    · next hfound =>
      have hmem := List.mk_mem_zipIdx_iff_getElem?.2 (List.getElem?_eq_getElem ho)
      obtain ⟨found, hinspect⟩ := exists_of_mapM_eq_ok hfound hmem
      exact e.position_lt_of_inspect hinspect

theorem addressed_of_groupMismatches {b : Buffers} {ms : List Mismatch}
    (h : e.groupMismatches b = .ok ms) : e.Addressed b := by
  unfold groupMismatches at h
  split at h
  · cases h
  · next hshape =>
    obtain ⟨hdata, hstart⟩ := e.checkShape_eq_ok_iff.1 hshape
    split at h
    · cases h
    · next hfound =>
      have hblock : ∀ (block : Nat) (content : Bytes), b.data[block]? = some (some content) →
          ∃ found, e.blockMismatches b.group block content = .ok found := fun _ _ hget =>
        exists_of_mapM_eq_ok hfound (List.mk_mem_zipIdx_iff_getElem?.2 hget)
      refine ⟨⟨hdata, fun block content hget => ?_⟩, hstart, fun block content hget => ?_⟩
      · obtain ⟨_, hok⟩ := hblock block content hget
        exact (e.addressed_of_blockMismatches hok).1
      · obtain ⟨_, hok⟩ := hblock block content hget
        exact (e.addressed_of_blockMismatches hok).2

/-- **A group is listed exactly if its blocks fit the layout and its bytes have positions.** -/
theorem groupMismatches_eq_ok_iff {b : Buffers} {ms : List Mismatch} :
    e.groupMismatches b = .ok ms ↔ e.Addressed b ∧ ms = e.differences b := by
  constructor
  · intro h
    exact ⟨e.addressed_of_groupMismatches h, e.groupMismatches_eq h⟩
  · rintro ⟨h, rfl⟩
    exact e.groupMismatches_eq_ok h.data_le h.start_lt fun block content hget =>
      ⟨h.length_le block content hget, h.position_lt block content hget⟩

theorem exists_groupMismatches_iff {b : Buffers} :
    (∃ err, e.groupMismatches b = .error err) ↔ e.Unlisted b := by
  constructor
  · rintro ⟨err, herr⟩
    by_contra h
    have hok := e.groupMismatches_eq_ok_iff.2 ⟨e.addressed_iff_not_unlisted.2 h, rfl⟩
    cases herr.symm.trans hok
  · intro h
    cases hlist : e.groupMismatches b with
    | error err => exact ⟨err, rfl⟩
    | ok ms => exact absurd h (e.addressed_iff_not_unlisted.1 (e.addressed_of_groupMismatches hlist))

/-! ## How a group is refused -/

theorem blockMismatches_isLayoutViolation {group block : Nat} {content : Bytes} {err : Error}
    (h : e.blockMismatches group block content = .error err) : err.isLayoutViolation = true := by
  unfold blockMismatches at h
  split at h
  · next hlength =>
    cases h
    rw [(e.checkLength_eq_error hlength).2]
    rfl
  · split at h
    · next hfound =>
      cases h
      obtain ⟨_, _, _, -, -, hinspect⟩ := mapM_eq_error hfound
      rw [e.inspect_eq_error hinspect]
      rfl
    · cases h

theorem groupMismatches_isLayoutViolation {b : Buffers} {err : Error}
    (h : e.groupMismatches b = .error err) : err.isLayoutViolation = true := by
  unfold groupMismatches at h
  split at h
  · next hshape =>
    cases h
    rcases e.checkShape_eq_error hshape with ⟨-, rfl⟩ | ⟨-, -, rfl⟩
    · rfl
    · rfl
  · split at h
    · next hfound =>
      cases h
      obtain ⟨_, ⟨slot, block⟩, _, -, -, hslot⟩ := mapM_eq_error hfound
      cases slot with
      | none => cases hslot
      | some content => exact e.blockMismatches_isLayoutViolation hslot
    · cases h

/-! ## What the list says -/

/-- The byte at `offset` of data block `block` was retrieved, and it is not the one that belongs at
its position. -/
def Differs (b : Buffers) (block offset : Nat) (actual : UInt8) : Prop :=
  (∃ content, b.data[block]? = some (some content) ∧ content[offset]? = some actual) ∧
    ∃ pos, Word.fileOffset e.geometry b.group block offset = .ok pos ∧ e.byteAt pos ≠ actual

/-- The mismatch tells the truth about a byte of the group: its position is that of its coordinates,
and the coordinates of its position are its own. -/
structure Truthful (b : Buffers) (m : Mismatch) : Prop where
  group_eq : m.group = b.group
  differs : e.Differs b m.block m.inBlock m.actual
  position_eq : Word.fileOffset e.geometry m.group m.block m.inBlock = .ok m.position
  locate_eq : Word.locate e.geometry m.position =
    .ok ⟨m.group, m.block, m.stripe, m.inCell, m.inBlock⟩
  expected_eq : m.expected = e.byteAt m.position

/-- The mismatches are those of the bytes that differ, one for each, in strict order of the block
and the offset. -/
structure Exact (b : Buffers) (ms : List Mismatch) : Prop where
  pairwise : ms.Pairwise fun m n => m.block < n.block ∨ m.block = n.block ∧ m.inBlock < n.inBlock
  mem_iff : ∀ block offset, (∃ m ∈ ms, m.block = block ∧ m.inBlock = offset) ↔
    ∃ actual, e.Differs b block offset actual
  truthful : ∀ m ∈ ms, e.Truthful b m

variable {e}

/-- A byte of a group that is listed has the position that its coordinates name. -/
theorem Addressed.fileOffset_eq {b : Buffers} (h : e.Addressed b) {block offset : Nat}
    {content : Bytes} (hget : b.data[block]? = some (some content)) (ho : offset < content.length) :
    Word.fileOffset e.geometry b.group block offset =
      .ok (e.geometry.position b.group block offset) := by
  have hb : block < b.data.length := (List.getElem?_eq_some_iff.1 hget).1
  rw [Word.fileOffset_eq, Geometry.fileOffset_eq_ok_iff]
  exact ⟨Nat.lt_of_lt_of_le hb h.data_le, Nat.lt_of_lt_of_le ho (h.length_le block content hget),
    rfl, h.position_lt block content hget offset ho⟩

theorem Addressed.truthful_mismatchAt {b : Buffers} (h : e.Addressed b) {block offset : Nat}
    {content : Bytes} {actual : UInt8} (hget : b.data[block]? = some (some content))
    (hbyte : content[offset]? = some actual)
    (hne : e.byteAt (e.geometry.position b.group block offset) ≠ actual) :
    e.Truthful b (e.mismatchAt b.group block offset actual) := by
  have hpos := h.fileOffset_eq hget (List.getElem?_eq_some_iff.1 hbyte).1
  rw [Word.fileOffset_eq] at hpos
  have hlt := (Geometry.fileOffset_eq_ok_iff.1 hpos).2.2.2
  refine ⟨rfl, ⟨⟨content, hget, hbyte⟩, _, ?_, hne⟩, ?_, ?_, rfl⟩
  · rwa [Word.fileOffset_eq]
  · rwa [Word.fileOffset_eq]
  · exact (Word.locate_eq _ hlt).trans (congrArg _ (Geometry.locate_eq_of_fileOffset hpos))

/-- **The bytes of a group that differ are listed truthfully**, each once and in order. -/
theorem Addressed.exact_differences {b : Buffers} (h : e.Addressed b) :
    e.Exact b (e.differences b) where
  pairwise := by
    apply (e.pairwise_differences b).imp_of_mem
    intro m n hm hn hprecedes
    have hgroup := (e.group_of_mem_differences hm).trans (e.group_of_mem_differences hn).symm
    unfold Mismatch.Precedes at hprecedes
    omega
  mem_iff block offset := by
    constructor
    · rintro ⟨m, hm, rfl, rfl⟩
      obtain ⟨block, content, offset, actual, hget, hbyte, hne, rfl⟩ := e.mem_differences_iff.1 hm
      exact ⟨actual, (h.truthful_mismatchAt hget hbyte hne).differs⟩
    · rintro ⟨actual, ⟨content, hget, hbyte⟩, pos, hpos, hne⟩
      rw [h.fileOffset_eq hget (List.getElem?_eq_some_iff.1 hbyte).1] at hpos
      cases hpos
      exact ⟨_, e.mem_differences_iff.2 ⟨block, content, offset, actual, hget, hbyte, hne, rfl⟩,
        rfl, rfl⟩
  truthful m hm := by
    obtain ⟨block, content, offset, actual, hget, hbyte, hne, rfl⟩ := e.mem_differences_iff.1 hm
    exact h.truthful_mismatchAt hget hbyte hne

variable (e)

/-- **Listing the mismatches of a group is exact**, in words and for any buffers. It is refused
exactly for one of the reasons of `Unlisted`, as a violation of the layout; otherwise each byte that
differs is listed, and no other, truthfully and in order. The parity blocks do not matter. -/
theorem groupMismatches_exact (b : Buffers) :
    ((∃ err, Word.groupMismatches e b = .error err) ↔ e.Unlisted b) ∧
    (∀ err, Word.groupMismatches e b = .error err → err.isLayoutViolation = true) ∧
    (∀ ms, Word.groupMismatches e b = .ok ms → e.Exact b ms) ∧
    ∀ parity, Word.groupMismatches e { b with parity } = Word.groupMismatches e b := by
  simp only [Word.groupMismatches_eq]
  refine ⟨e.exists_groupMismatches_iff, fun err h => e.groupMismatches_isLayoutViolation h,
    fun ms h => ?_, fun parity => rfl⟩
  obtain ⟨haddressed, rfl⟩ := e.groupMismatches_eq_ok_iff.1 h
  exact haddressed.exact_differences

/-- The second cell of the last group has one byte before the end of all positions. The byte of the
first cell that differs is listed. One byte more in the second cell, and the group is refused. -/
theorem groupMismatches_exact_last :
    let g : Geometry := ⟨3, 2, 1, 1, by decide, by decide, by decide, by decide, by decide⟩
    let e : Expectation := ⟨g, .standard, Word.size - 1⟩
    let group := (Word.size - 1) / g.groupCapacity
    let b : Buffers := ⟨group, [some [21, 22, 9], some [0]], [some [7]]⟩
    let longer : Buffers := ⟨group, [none, some [0, 0]], []⟩
    let found : Mismatch := ⟨group, 0, 0, 2, 2, Word.size - 2, 23, 9⟩
    (Word.groupMismatches e b = .ok [found] ∧ e.Exact b [found]) ∧
      Word.groupMismatches e { b with parity := [] } = .ok [found] ∧
      ∃ err, Word.groupMismatches e longer = .error err ∧ e.Unlisted longer ∧
        err.isLayoutViolation = true := by
  intro g e group b longer found
  obtain ⟨-, -, hlisted, hparity⟩ := e.groupMismatches_exact b
  obtain ⟨hrefused, hviolation, -, -⟩ := e.groupMismatches_exact longer
  have hfound : Word.groupMismatches e b = .ok [found] := by decide +kernel
  have herr : Word.groupMismatches e longer = .error (.layout (.unaddressable group)) := by
    decide +kernel
  exact ⟨⟨hfound, hlisted _ hfound⟩, (hparity []).trans hfound, _, herr, hrefused.1 ⟨_, herr⟩,
    hviolation _ herr⟩

end Striping.Expectation
