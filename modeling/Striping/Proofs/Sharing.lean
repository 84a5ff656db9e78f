import Striping.Proofs.Lengths
import Striping.Proofs.Words.Layout

/-!
# Blocks and the bytes of their group

The length of a block counts the bytes of the group that the layout puts into it. All that is said
of these lengths follows from `Geometry.lt_share_iff`: a data block holds an offset exactly if the
byte there lies below the length of the group. Offsets come later in the group the larger their
block is, so no block is longer than one before it (`Geometry.share_antitone`), and a longer group
fills no block less (`Geometry.share_mono`). A length is refused for a stated reason only
(`Geometry.blockLength_eq_error_iff`).
-/

namespace Striping

/-- The same offset comes no earlier in the group if its block is a later one. -/
theorem unplace_le_unplace {block block' : Nat} (h : block ≤ block') (cellSize dataBlocks
    offset : Nat) : unplace cellSize dataBlocks block offset ≤
      unplace cellSize dataBlocks block' offset := by
  have := Nat.mul_le_mul_right cellSize h
  unfold unplace
  omega

namespace Geometry

variable (g : Geometry)

/-- Why the block at `index` of a group of `length` bytes has no length. The index is checked
first. -/
inductive Unshared (length index : Nat) : Error → Prop
  | index (h : g.width ≤ index) : Unshared length index (.blockIndex index g.width)
  | length (hi : index < g.width) (h : g.groupCapacity < length) :
    Unshared length index (.layout (.groupTooLong length g.groupCapacity))

/-- **A length is refused for the first reason that applies.** -/
theorem blockLength_eq_error_iff {length index : Nat} {e : Error} :
    g.blockLength length index = .error e ↔ g.Unshared length index e := by
  constructor
  · intro h
    unfold blockLength checkIndex at h
    split at h
    · next hcheck =>
      split at hcheck
      · cases hcheck
      · next hi =>
        cases hcheck
        cases h
        exact .index (Nat.le_of_not_lt hi)
    · next hcheck =>
      split at hcheck
      · next hi =>
        split at h
        · next hlen =>
          cases h
          exact .length hi hlen
        · cases h
      · cases hcheck
  · intro h
    unfold blockLength checkIndex
    cases h with
    | index hi => rw [if_neg (Nat.not_lt_of_le hi)]
    | length hi hlen =>
      rw [if_pos hi]
      exact if_pos hlen

theorem blockLength_eq_ok_iff {length index n : Nat} : g.blockLength length index = .ok n ↔
    index < g.width ∧ length ≤ g.groupCapacity ∧ n = g.share length index := by
  constructor
  · intro h
    by_cases hi : index < g.width
    · by_cases hlen : length ≤ g.groupCapacity
      · rw [g.blockLength_eq_ok hi hlen] at h
        exact ⟨hi, hlen, (Except.ok.inj h).symm⟩
      · cases h.symm.trans (g.blockLength_eq_error_iff.2 (.length hi (Nat.lt_of_not_le hlen)))
    · cases h.symm.trans (g.blockLength_eq_error_iff.2 (.index (Nat.le_of_not_lt hi)))
  · rintro ⟨hi, hlen, rfl⟩
    exact g.blockLength_eq_ok hi hlen

/-! ## Comparing lengths -/

theorem share_antitone {block block' : Nat} (h : block ≤ block') (hb : block' < g.dataBlocks)
    (length : Nat) : g.share length block' ≤ g.share length block := by
  -- the last offset of the later block lies below the length, and so does that of the earlier one
  refine Nat.le_of_not_lt fun hlt => ?_
  have hlater := (g.lt_share_iff hb length _).1 hlt
  have hle := unplace_le_unplace h g.cellSize g.dataBlocks (g.share length block)
  have hearlier := (g.lt_share_iff (Nat.lt_of_le_of_lt h hb) length _).2
    (Nat.lt_of_le_of_lt hle hlater)
  exact Nat.lt_irrefl _ hearlier

/-- A parity block is as long as the first data block. -/
theorem share_eq_share_zero {index : Nat} (hi : g.dataBlocks ≤ index) (length : Nat) :
    g.share length index = g.share length 0 := by
  simp only [share, cellShare, Nat.not_lt_of_le hi, if_false, g.dataBlocks_pos, if_true,
    Nat.zero_mul, Nat.sub_zero]

theorem share_mono {length length' : Nat} (h : length ≤ length') (index : Nat) :
    g.share length index ≤ g.share length' index := by
  have hdata : ∀ block < g.dataBlocks, g.share length block ≤ g.share length' block := by
    intro block hb
    refine Nat.le_of_not_lt fun hlt => ?_
    have hbyte := (g.lt_share_iff hb length _).1 hlt
    exact Nat.lt_irrefl _ ((g.lt_share_iff hb length' _).2 (Nat.lt_of_lt_of_le hbyte h))
  by_cases hi : index < g.dataBlocks
  · exact hdata index hi
  · have hi := Nat.le_of_not_lt hi
    rw [g.share_eq_share_zero hi, g.share_eq_share_zero hi]
    exact hdata 0 g.dataBlocks_pos

theorem share_le {length : Nat} (h : length ≤ g.groupCapacity) (index : Nat) :
    g.share length index ≤ g.blockCapacity := by
  by_cases hi : index < g.dataBlocks
  · exact g.share_le_blockCapacity hi h
  · rw [g.share_eq_share_zero (Nat.le_of_not_lt hi)]
    exact g.share_le_blockCapacity g.dataBlocks_pos h

/-! ## All lengths of a group -/

/-- These are the lengths of the blocks of a group of `length` bytes, by their index. -/
structure Apportions (length : Nat) (lengths : Nat → Nat) : Prop where
  /-- A data block holds the offsets whose bytes belong to the group. -/
  lt_iff : ∀ block < g.dataBlocks, ∀ offset < g.blockCapacity, ∃ pos,
    Word.unplace g.cellSize g.dataBlocks block offset = .ok pos ∧
      (offset < lengths block ↔ pos < length)
  /-- The data blocks hold all bytes of the group. -/
  sum_eq : ((List.range g.dataBlocks).map lengths).sum = length
  /-- No block is longer than the layout allows. -/
  le : ∀ index < g.width, lengths index ≤ g.blockCapacity
  /-- No data block is longer than one before it. -/
  antitone : ∀ block block', block ≤ block' → block' < g.dataBlocks →
    lengths block' ≤ lengths block
  /-- A parity block is as long as the first data block. -/
  parity : ∀ index, g.dataBlocks ≤ index → index < g.width → lengths index = lengths 0

theorem apportions_share {length : Nat} (h : length ≤ g.groupCapacity) :
    g.Apportions length (g.share length) where
  lt_iff block hb offset ho := by
    have hpos := Nat.lt_trans (unplace_lt g hb ho) g.groupCapacity_lt
    exact ⟨_, Word.unplace_eq g.cellSize_pos g.dataBlocks_pos hpos, g.lt_share_iff hb length offset⟩
  sum_eq := g.sum_share length
  le index _ := g.share_le h index
  antitone _ _ hle hb := g.share_antitone hle hb length
  parity _ hi _ := g.share_eq_share_zero hi length

/-- **The lengths of the blocks count the bytes that the layout puts into them**, computed in words.
A length is refused if the index is not one of the group or, after that, if the group is too long;
the lengths of a group say for each offset of a data block whether its byte belongs to the group;
and a longer group has no shorter block. -/
theorem blockLength_apportions :
    (∀ length index e, Word.blockLength g length index = .error e ↔ g.Unshared length index e) ∧
    (∀ length ≤ g.groupCapacity, ∃ lengths : Nat → Nat,
      (∀ index < g.width, Word.blockLength g length index = .ok (lengths index)) ∧
        g.Apportions length lengths) ∧
    ∀ length length' index n n', length ≤ length' →
      Word.blockLength g length index = .ok n → Word.blockLength g length' index = .ok n' →
        n ≤ n' := by
  simp only [Word.blockLength_eq]
  refine ⟨fun _ _ _ => g.blockLength_eq_error_iff, fun length hlen => ?_,
    fun length length' index n n' hle h h' => ?_⟩
  · exact ⟨g.share length, fun index hi => g.blockLength_eq_ok hi hlen, g.apportions_share hlen⟩
  · obtain ⟨-, -, rfl⟩ := g.blockLength_eq_ok_iff.1 h
    obtain ⟨-, -, rfl⟩ := g.blockLength_eq_ok_iff.1 h'
    exact g.share_mono hle index

/-- Five bytes in cells of two: the second stripe has a byte in the first block and in the parity
block only. A sixth byte makes both longer, and nine bytes are too many. -/
theorem blockLength_apportions_five :
    5 ≤ small.groupCapacity ∧
      (∃ lengths : Nat → Nat, (lengths 0 = 3 ∧ lengths 1 = 2 ∧ lengths 2 = 3) ∧
        small.Apportions 5 lengths) ∧
      small.Unshared 9 3 (.blockIndex 3 3) ∧ small.Unshared 9 2 (.layout (.groupTooLong 9 8)) ∧
      ∀ n, Word.blockLength small 6 0 = .ok n → 3 ≤ n := by
  obtain ⟨hrefused, hlengths, hmono⟩ := small.blockLength_apportions
  obtain ⟨lengths, hok, h⟩ := hlengths 5 (by decide)
  have hlength : ∀ index n, index < small.width → Word.blockLength small 5 index = .ok n →
      lengths index = n := fun index n hi hn => Except.ok.inj ((hok index hi).symm.trans hn)
  refine ⟨by decide, ⟨lengths, ⟨?_, ?_, ?_⟩, h⟩, (hrefused ..).1 rfl, (hrefused ..).1 rfl,
    fun n hn => hmono 5 6 0 3 n (by decide) rfl hn⟩
  · exact hlength 0 3 (by decide) rfl
  · exact hlength 1 2 (by decide) rfl
  · exact hlength 2 3 (by decide) rfl

end Geometry

end Striping
