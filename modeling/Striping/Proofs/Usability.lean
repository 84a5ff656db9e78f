import Striping.Proofs.Retrieval
import Striping.Proofs.Shortfalls
import Striping.Proofs.Words.Audit
import Striping.Proofs.Words.Stripe

/-!
# Fetched buffers can be used

The length that is checked when a block is fetched is that of the whole group, and the buffers are
used for audits of any file and for any first part of the group. The blocks of fetched buffers are
within the layout (`GroupRecord.Fetched.within`), and a listed block holds each of its bytes
(`GroupRecord.Fetched.holds_iff`). So an audit only finds fault with bytes, and assembling only with
blocks that are not listed, or with a length that memory does not take (`Store.fetchGroups_usable`).
-/

namespace Striping

/-- The blocks of the first `length` bytes of a group are those that get a share. -/
theorem Geometry.forall_place_iff (g : Geometry) (length : Nat) {P : Nat → Prop} :
    (∀ pos < length, P (place g.cellSize g.dataBlocks pos).1) ↔
      ∀ index < g.dataBlocks, 0 < g.share length index → P index := by
  constructor
  · intro h index hi hshare
    have hpos := (g.lt_share_iff hi length 0).1 hshare
    have hindex := h _ hpos
    rwa [place_unplace g.cellSize_pos hi] at hindex
  · intro h pos hpos
    have hi := place_fst_lt g.cellSize_pos g.dataBlocks_pos pos
    have hshare := (g.lt_share_iff hi length (place g.cellSize g.dataBlocks pos).2).2
      (by rwa [unplace_place g.cellSize_pos])
    exact h _ hi (Nat.lt_of_le_of_lt (Nat.zero_le _) hshare)

namespace GroupRecord.Fetched

variable {record : GroupRecord} {blocks : FiniteMap Nat Bytes} {g : Geometry} {group : Nat}
  {b : Buffers} (h : record.Fetched blocks g group b)
include h

theorem getElem?_slots {index : Nat} (hi : index < g.dataBlocks) :
    b.slots[index]? = b.data[index]? :=
  List.getElem?_append_left (h.data_length ▸ hi)

/-- A data block is there if it is listed, as long as the layout makes it. -/
theorem getElem?_data_iff {index : Nat} (hi : index < g.dataBlocks) :
    (∃ content, b.data[index]? = some (some content)) ↔ index ∈ record.listed := by
  rw [← h.getElem?_slots hi]
  constructor
  · rintro ⟨content, hcontent⟩
    by_contra hnot
    rw [h.unlisted index (Nat.lt_of_lt_of_le hi (Nat.le_add_right ..)) hnot] at hcontent
    cases hcontent
  · intro hlisted
    obtain ⟨content, hcontent, -⟩ := h.listed index hlisted
    exact ⟨content, hcontent⟩

theorem length_of_data {index : Nat} (hi : index < g.dataBlocks) {content : Bytes}
    (hcontent : b.data[index]? = some (some content)) :
    index ∈ record.listed ∧ content.length = g.share record.block.length index := by
  have hlisted := (h.getElem?_data_iff hi).1 ⟨content, hcontent⟩
  obtain ⟨content', hcontent', hlength, -⟩ := h.listed index hlisted
  rw [h.getElem?_slots hi, hcontent] at hcontent'
  cases hcontent'
  exact ⟨hlisted, hlength⟩

/-- **The blocks of fetched buffers are within the layout.** -/
theorem within : b.Within g where
  data_le := Nat.le_of_eq h.data_length
  length_le := by
    intro index content hcontent
    have hi : index < g.dataBlocks := h.data_length ▸ (List.getElem?_eq_some_iff.1 hcontent).1
    obtain ⟨hlisted, hlength⟩ := h.length_of_data hi hcontent
    rw [hlength]
    exact g.share_le_blockCapacity hi (h.describes index hlisted).length_le

/-- **A byte of the group is held exactly if its block is listed.** -/
theorem holds_iff {pos : Nat} (hpos : pos < record.block.length) :
    b.Holds g pos ↔ (place g.cellSize g.dataBlocks pos).1 ∈ record.listed := by
  have hi := place_fst_lt g.cellSize_pos g.dataBlocks_pos pos
  constructor
  · rintro ⟨content, hcontent, -⟩
    exact (h.getElem?_data_iff hi).1 ⟨content, hcontent⟩
  · intro hlisted
    obtain ⟨content, hcontent⟩ := (h.getElem?_data_iff hi).2 hlisted
    refine ⟨content, hcontent, ?_⟩
    rw [(h.length_of_data hi hcontent).2, g.lt_share_iff hi, unplace_place g.cellSize_pos]
    exact hpos

end GroupRecord.Fetched

/-- What is answered for the first `length` bytes of a group, going by the blocks that its record
lists. -/
structure GroupRecord.AnswersListed (record : GroupRecord) (g : Geometry) (group length : Nat)
    (answer : Except Error Bytes) : Prop where
  /-- It is bytes exactly if all data blocks that hold any are listed. -/
  gathers : (∃ bytes, answer = .ok bytes) ↔ ∀ index < g.dataBlocks,
    ∃ n, Word.blockLength g length index = .ok n ∧ (0 < n → index ∈ record.listed)
  /-- If not, the missing block that comes first in the order of the bytes is named. -/
  misses : ∀ err, answer = .error err → ∃ pos < length,
    (place g.cellSize g.dataBlocks pos).1 ∉ record.listed ∧
      (∀ p < pos, (place g.cellSize g.dataBlocks p).1 ∈ record.listed) ∧
        err = .layout (.missingBlock group (place g.cellSize g.dataBlocks pos).1)

/-- What was fetched for a record can be audited and assembled. -/
structure Buffers.Usable (b : Buffers) (g : Geometry) (group : Nat) (record : GroupRecord) :
    Prop where
  /-- An audit finds fault with a byte or its position, never with the index of a block or with an
  offset in it. -/
  audits : ∀ (pattern : Pattern) (length : Nat) (err : Error),
    Word.checkGroup ⟨g, pattern, length⟩ b = .error err →
      (∃ m, err = .mismatch m) ∨ err = .layout (.unaddressable group)
  /-- The first bytes are answered by what is listed, as many as memory takes. -/
  answers : ∀ length ≤ record.block.length, length ≤ g.groupCapacity → length ≤ Bytes.maxLength →
    record.AnswersListed g group length (Word.assemble g b length)
  /-- To ask for more is a fault. -/
  memory : ∀ length ≤ record.block.length, length ≤ g.groupCapacity → Bytes.maxLength < length →
    Word.assemble g b length = .error (.fault .capacity)

namespace GroupRecord.Fetched

variable {record : GroupRecord} {blocks : FiniteMap Nat Bytes} {g : Geometry} {group : Nat}
  {b : Buffers} (h : record.Fetched blocks g group b)
include h

/-- **Gathering fails only where a block is not listed**, and names the first such block. -/
theorem gather_cases {length : Nat} (hle : length ≤ record.block.length)
    (hlen : length ≤ g.groupCapacity) :
    ((∃ bytes, g.gather b length = .ok bytes) ∧
      ∀ pos < length, (place g.cellSize g.dataBlocks pos).1 ∈ record.listed) ∨
    ∃ pos < length, (place g.cellSize g.dataBlocks pos).1 ∉ record.listed ∧
      (∀ p < pos, (place g.cellSize g.dataBlocks p).1 ∈ record.listed) ∧
        g.gather b length = .error
          (.layout (.missingBlock group (place g.cellSize g.dataBlocks pos).1)) := by
  have hholds : ∀ pos < length, b.Holds g pos ↔ _ := fun pos hpos =>
    h.holds_iff (Nat.lt_of_lt_of_le hpos hle)
  rcases Geometry.gather_cases (b := b) hlen with ⟨hok, hall⟩ |
    ⟨pos, hpos, hnot, hbefore, err, herr, hshort⟩
  · exact .inl ⟨hok, fun pos hpos => (hholds pos hpos).1 (hall pos hpos)⟩
  · have hunlisted := mt (hholds pos hpos).2 hnot
    refine .inr ⟨pos, hpos, hunlisted,
      fun p hp => (hholds p (Nat.lt_trans hp hpos)).1 (hbefore p hp), ?_⟩
    cases hshort with
    | missing => rwa [h.group_eq] at herr
    | short content hcontent =>
      -- the block would be there, so it would be listed
      have hi := place_fst_lt g.cellSize_pos g.dataBlocks_pos pos
      exact absurd ((h.getElem?_data_iff hi).1 ⟨content, hcontent⟩) hunlisted

/-- **What is gathered goes by what is listed.** -/
theorem answersListed {length : Nat} (hle : length ≤ record.block.length)
    (hlen : length ≤ g.groupCapacity) :
    record.AnswersListed g group length (g.gather b length) where
  gathers := by
    have hshares : (∀ index < g.dataBlocks, ∃ n, Word.blockLength g length index = .ok n ∧
        (0 < n → index ∈ record.listed)) ↔
          ∀ pos < length, (place g.cellSize g.dataBlocks pos).1 ∈ record.listed := by
      rw [g.forall_place_iff length]
      refine forall₂_congr fun index hi => ?_
      rw [Word.blockLength_eq,
        g.blockLength_eq_ok (Nat.lt_of_lt_of_le hi (Nat.le_add_right ..)) hlen]
      simp
    rw [hshares]
    rcases h.gather_cases hle hlen with ⟨hok, hall⟩ | ⟨pos, hpos, hnot, -, herr⟩
    · exact iff_of_true hok hall
    · refine iff_of_false ?_ fun hall => hnot (hall pos hpos)
      rintro ⟨bytes, hok⟩
      rw [hok] at herr
      cases herr
  misses := by
    intro err herr
    rcases h.gather_cases hle hlen with ⟨⟨bytes, hok⟩, -⟩ | ⟨pos, hpos, hnot, hbefore, herr'⟩
    · rw [hok] at herr
      cases herr
    · exact ⟨pos, hpos, hnot, hbefore, Except.error.inj (herr.symm.trans herr')⟩

/-- **What was fetched for a record can be used.** -/
theorem usable : b.Usable g group record where
  audits := by
    intro pattern length err herr
    rw [Word.checkGroup_eq] at herr
    have hcases := Expectation.checkGroup_error_of_within ⟨g, pattern, length⟩ h.within herr
    rwa [h.group_eq] at hcases
  answers := by
    intro length hle hlen hmemory
    rw [Word.assemble_eq g b (.inl hmemory)]
    exact h.answersListed hle hlen
  memory _ _ hlen hlarge := Word.assemble_of_large g b hlarge hlen

end GroupRecord.Fetched

namespace Store

/-- **Whatever is fetched can be used.** Let the groups of a file be fetched from any store, for
records that say anything. If this succeeds there is one group of buffers for each record, which can
be audited for any file and assembled up to any length that the record and memory allow. -/
theorem fetchGroups_usable (s : Store) (g : Geometry) {records : List GroupRecord}
    {buffers : List Buffers} (h : (s.fetchGroups g records).1 = .ok buffers) :
    buffers.length = records.length ∧ ∀ (group : Nat) (record : GroupRecord) (b : Buffers),
      records[group]? = some record → buffers[group]? = some b → b.Usable g group record := by
  rw [fetchGroups_fst, mapM_eq_ok_iff] at h
  refine ⟨?_, fun group record b hrecord hb => ?_⟩
  · rw [← h.length_eq, List.length_zipIdx]
  · have hzip : records.zipIdx[group]? = some (record, group) := by
      rw [List.getElem?_zipIdx, hrecord, Option.map_some, Nat.zero_add]
    obtain ⟨hi, hget⟩ := List.getElem?_eq_some_iff.1 hzip
    obtain ⟨hi', hget'⟩ := List.getElem?_eq_some_iff.1 hb
    have hread : records.zipIdx[group].1.readFrom s.blocks g records.zipIdx[group].2 =
        .ok buffers[group] := h.get hi hi'
    rw [hget, hget'] at hread
    exact (GroupRecord.fetched_of_readFrom hread).usable

/-- Two records that list the first block only: where bytes lie in the second block it is reported
as missing, and where none do they are gathered. -/
theorem fetchGroups_usable_partial :
    let s : Store := ((Store.empty .small 1).put 10 [1, 2, 5]).put 20 [3]
    let record (start id length : Nat) : GroupRecord :=
      ⟨⟨"pool", id, length, 1⟩, start, [⟨"node", "address"⟩], [0], ⟨[]⟩⟩
    let first : Buffers := ⟨0, [some [1, 2, 5], none], [none]⟩
    let second : Buffers := ⟨1, [some [3], none], [none]⟩
    (s.fetchGroups .small [record 0 10 5, record 8 20 1]).1 = .ok [first, second] ∧
      (∀ err, Word.assemble .small first 5 = .error err → err = .layout (.missingBlock 0 1)) ∧
        ∃ bytes, Word.assemble .small second 1 = .ok bytes := by
  intro s record first second
  have hfetch : (s.fetchGroups .small [record 0 10 5, record 8 20 1]).1 =
      .ok [first, second] := by
    decide +kernel
  obtain ⟨-, husable⟩ := s.fetchGroups_usable .small hfetch
  refine ⟨hfetch, fun err herr => ?_, ?_⟩
  · obtain ⟨pos, hpos, hnot, -, hmissing⟩ :=
      ((husable 0 _ _ rfl rfl).answers 5 (by decide) (by decide) (by decide)).misses err herr
    have hblock : ∀ pos < 5, (place 2 2 pos).1 ∉ (record 0 10 5).listed →
        (place 2 2 pos).1 = 1 := by
      decide
    exact hmissing.trans (congrArg (Error.layout ∘ .missingBlock 0) (hblock pos hpos hnot))
  · have hanswers := (husable 1 _ _ rfl rfl).answers 1 (by decide) (by decide) (by decide)
    refine hanswers.gathers.2 fun index hi => ?_
    have hlengths : ∀ index < 2, ∃ n < 2, Word.blockLength .small 1 index = .ok n ∧
        (0 < n → index ∈ (record 8 20 1).listed) := by
      decide +kernel
    obtain ⟨n, -, hn⟩ := hlengths index hi
    exact ⟨n, hn⟩

/-- A record that lists no block is fetched, whatever its length is. With one byte more than memory
takes, the block that is not listed is not what assembling complains of. -/
theorem fetchGroups_not_usable :
    let record : GroupRecord := ⟨⟨"pool", 10, 9223372036854775808, 1⟩, 0, [], [], ⟨[]⟩⟩
    ((Store.empty .huge 1).fetchGroups .huge [record]).1 = .ok [⟨0, [none], []⟩] ∧
      9223372036854775808 ≤ record.block.length ∧
      9223372036854775808 ≤ Geometry.huge.groupCapacity ∧
      ¬ record.AnswersListed .huge 0 9223372036854775808
        (Word.assemble .huge ⟨0, [none], []⟩ 9223372036854775808) := by
  intro record
  refine ⟨by decide +kernel, Nat.le_refl _, by decide, fun h => ?_⟩
  obtain ⟨pos, -, -, -, hmissing⟩ := h.misses _ (Word.assemble_huge _)
  cases hmissing

end Store

end Striping
