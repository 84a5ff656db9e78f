import Striping.Audit
import Striping.Proofs.Positions

/-!
# Lists of mismatches

Where all coordinates are allowed, listing mismatches is a plain filter: `Expectation.differences`
goes through the blocks of a group and keeps the bytes that differ
(`Expectation.groupMismatches_eq`, `Expectation.mem_differences_iff`). The list is in strict order
of the coordinates (`Expectation.pairwise_differences`).
-/

namespace Striping

/-- The first mismatch has the smaller group, block and offset, compared in this order. -/
def Mismatch.Precedes (m n : Mismatch) : Prop :=
  m.group < n.group ∨ m.group = n.group ∧
    (m.block < n.block ∨ m.block = n.block ∧ m.inBlock < n.inBlock)

theorem Mismatch.Precedes.asymm {m n : Mismatch} (h : m.Precedes n) : ¬ n.Precedes m := by
  unfold Mismatch.Precedes at *
  omega

namespace Expectation

theorem before_iff (m n : Mismatch) : before m n = true ↔ ¬ n.Precedes m := by
  simp only [before, Mismatch.Precedes, Bool.or_eq_true, Bool.and_eq_true, decide_eq_true_eq,
    beq_iff_eq]
  omega

theorem before_trans (m n o : Mismatch) (h : before m n = true) (h' : before n o = true) :
    before m o = true := by
  simp only [before_iff, Mismatch.Precedes] at *
  omega

theorem before_total (m n : Mismatch) : (before m n || before n m) = true := by
  simp only [Bool.or_eq_true, before_iff, Mismatch.Precedes]
  omega

variable (e : Expectation)

/-! ## Single bytes -/

/-- The mismatch of a byte at this place. -/
def mismatchAt (group block offset : Nat) (actual : UInt8) : Mismatch where
  group
  stripe := offset / e.geometry.cellSize
  block
  inCell := offset % e.geometry.cellSize
  inBlock := offset
  position := e.geometry.position group block offset
  expected := e.byteAt (e.geometry.position group block offset)
  actual

/-- The mismatch of a byte at this place, if it is not the one that belongs there. -/
def difference (group block offset : Nat) (actual : UInt8) : Option Mismatch :=
  if e.byteAt (e.geometry.position group block offset) = actual then none
  else some (e.mismatchAt group block offset actual)

theorem inspect_eq_ite (group block offset : Nat) (actual : UInt8) :
    e.inspect group block offset actual =
      if Word.size ≤ e.geometry.position group block offset then
        .error (.layout (.unaddressable group))
      else .ok (e.difference group block offset actual) := by
  unfold inspect difference mismatchAt Geometry.position
  dsimp only
  split
  · rfl
  · split
    · rfl
    · rfl

theorem inspect_eq_ok {group block offset : Nat} (actual : UInt8)
    (h : e.geometry.position group block offset < Word.size) :
    e.inspect group block offset actual = .ok (e.difference group block offset actual) := by
  rw [e.inspect_eq_ite, if_neg (Nat.not_le_of_lt h)]

theorem inspect_eq {group block offset : Nat} {actual : UInt8} {found : Option Mismatch}
    (h : e.inspect group block offset actual = .ok found) :
    found = e.difference group block offset actual := by
  rw [e.inspect_eq_ite] at h
  split at h
  · cases h
  · exact (Except.ok.inj h).symm

/-! ## Blocks and groups -/

/-- The bytes of a data block that differ. -/
def blockDifferences (group block : Nat) (content : Bytes) : List Mismatch :=
  content.zipIdx.filterMap fun (actual, offset) => e.difference group block offset actual

/-- The bytes of a slot that differ. -/
def slotDifferences (group block : Nat) : Option Bytes → List Mismatch
  | none => []
  | some content => e.blockDifferences group block content

/-- The bytes of a group that differ. -/
def differences (b : Buffers) : List Mismatch :=
  b.data.zipIdx.flatMap fun (slot, block) => e.slotDifferences b.group block slot

theorem blockMismatches_eq {group block : Nat} {content : Bytes} {ms : List Mismatch}
    (h : e.blockMismatches group block content = .ok ms) :
    ms = e.blockDifferences group block content := by
  unfold blockMismatches at h
  split at h
  · cases h
  · split at h
    · cases h
    · next found hfound =>
      have hmap := eq_map_of_mapM_eq_ok (fun _ _ hx => e.inspect_eq hx) hfound
      rw [← Except.ok.inj h, hmap, List.filterMap_map]
      rfl

theorem slotMismatches_eq {group block : Nat} {slot : Option Bytes} {ms : List Mismatch}
    (h : e.slotMismatches group block slot = .ok ms) : ms = e.slotDifferences group block slot := by
  cases slot with
  | none => exact (Except.ok.inj h).symm
  | some content => exact e.blockMismatches_eq h

/-- **The mismatches of a group are the bytes that differ.** -/
theorem groupMismatches_eq {b : Buffers} {ms : List Mismatch}
    (h : e.groupMismatches b = .ok ms) : ms = e.differences b := by
  unfold groupMismatches at h
  split at h
  · cases h
  · split at h
    · cases h
    · next found hfound =>
      have hmap := eq_map_of_mapM_eq_ok (fun _ _ hx => e.slotMismatches_eq hx) hfound
      rw [← Except.ok.inj h, hmap, differences, List.flatMap_def]

/-! ## Where all coordinates are allowed -/

theorem blockMismatches_eq_ok {group block : Nat} {content : Bytes}
    (hlength : content.length ≤ e.geometry.blockCapacity)
    (hposition : ∀ offset < content.length,
      e.geometry.position group block offset < Word.size) :
    e.blockMismatches group block content = .ok (e.blockDifferences group block content) := by
  have hinspect : ∀ x ∈ content.zipIdx, (fun (actual, offset) =>
      e.inspect group block offset actual) x = .ok ((fun (actual, offset) =>
        e.difference group block offset actual) x) := by
    rintro ⟨actual, offset⟩ hx
    have hget := List.mk_mem_zipIdx_iff_getElem?.1 hx
    exact e.inspect_eq_ok actual (hposition offset (List.getElem?_eq_some_iff.1 hget).1)
  unfold blockMismatches checkLength
  rw [if_neg (Nat.not_lt_of_le hlength), mapM_eq_ok hinspect]
  dsimp only
  rw [List.filterMap_map]
  rfl

/-- **A group is listed if its blocks fit the layout and its bytes have positions.** -/
theorem groupMismatches_eq_ok {b : Buffers} (hdata : b.data.length ≤ e.geometry.dataBlocks)
    (hgroup : b.group * e.geometry.groupCapacity < Word.size)
    (hblocks : ∀ (block : Nat) (content : Bytes), b.data[block]? = some (some content) →
      content.length ≤ e.geometry.blockCapacity ∧ ∀ offset < content.length,
        e.geometry.position b.group block offset < Word.size) :
    e.groupMismatches b = .ok (e.differences b) := by
  have hslots : ∀ x ∈ b.data.zipIdx, (fun (slot, block) =>
      e.slotMismatches b.group block slot) x = .ok ((fun (slot, block) =>
        e.slotDifferences b.group block slot) x) := by
    rintro ⟨slot, block⟩ hx
    cases slot with
    | none => rfl
    | some content =>
      obtain ⟨hlength, hposition⟩ := hblocks block content (List.mk_mem_zipIdx_iff_getElem?.1 hx)
      exact e.blockMismatches_eq_ok hlength hposition
  unfold groupMismatches checkShape
  rw [if_neg (Nat.not_lt_of_le hdata), if_neg (Nat.not_le_of_lt hgroup), mapM_eq_ok hslots]
  dsimp only
  rw [differences, List.flatMap_def]

/-! ## What is listed -/

theorem mem_blockDifferences_iff {group block : Nat} {content : Bytes} {m : Mismatch} :
    m ∈ e.blockDifferences group block content ↔ ∃ offset actual,
      content[offset]? = some actual ∧ e.byteAt (e.geometry.position group block offset) ≠ actual ∧
        m = e.mismatchAt group block offset actual := by
  simp only [blockDifferences, List.mem_filterMap, Prod.exists, List.mk_mem_zipIdx_iff_getElem?,
    difference, Option.ite_none_left_eq_some, Option.some.injEq]
  constructor
  · rintro ⟨actual, offset, hget, hne, hm⟩
    exact ⟨offset, actual, hget, hne, hm.symm⟩
  · rintro ⟨offset, actual, hget, hne, hm⟩
    exact ⟨actual, offset, hget, hne, hm.symm⟩

/-- **Each byte that differs is listed, at its coordinates.** -/
theorem mem_differences_iff {b : Buffers} {m : Mismatch} : m ∈ e.differences b ↔
    ∃ block content offset actual, b.data[block]? = some (some content) ∧
      content[offset]? = some actual ∧
        e.byteAt (e.geometry.position b.group block offset) ≠ actual ∧
          m = e.mismatchAt b.group block offset actual := by
  simp only [differences, List.mem_flatMap, Prod.exists, List.mk_mem_zipIdx_iff_getElem?]
  constructor
  · rintro ⟨slot, block, hslot, hm⟩
    cases slot with
    | none => exact absurd hm List.not_mem_nil
    | some content =>
      obtain ⟨offset, actual, hbyte⟩ := e.mem_blockDifferences_iff.1 hm
      exact ⟨block, content, offset, actual, hslot, hbyte⟩
  · rintro ⟨block, content, offset, actual, hslot, hbyte⟩
    exact ⟨some content, block, hslot, e.mem_blockDifferences_iff.2 ⟨offset, actual, hbyte⟩⟩

theorem group_of_mem_differences {b : Buffers} {m : Mismatch} (h : m ∈ e.differences b) :
    m.group = b.group := by
  obtain ⟨_, _, _, _, -, -, -, rfl⟩ := e.mem_differences_iff.1 h
  rfl

/-! ## Order -/

theorem pairwise_zipIdx {α : Type} (xs : List α) :
    xs.zipIdx.Pairwise fun x y => x.2 < y.2 := by
  have h : (xs.zipIdx.map Prod.snd).Pairwise (· < ·) := by
    rw [List.zipIdx_map_snd]
    exact List.pairwise_lt_range'
  exact List.pairwise_map.1 h

theorem pairwise_blockDifferences (group block : Nat) (content : Bytes) :
    (e.blockDifferences group block content).Pairwise Mismatch.Precedes := by
  apply (pairwise_zipIdx content).filterMap _
  rintro ⟨actual, offset⟩ ⟨actual', offset'⟩ hlt m hm n hn
  simp only [difference, Option.ite_none_left_eq_some, Option.some.injEq] at hm hn
  obtain ⟨-, rfl⟩ := hm
  obtain ⟨-, rfl⟩ := hn
  exact .inr ⟨rfl, .inr ⟨rfl, hlt⟩⟩

/-- **The mismatches of a group are in strict order.** -/
theorem pairwise_differences (b : Buffers) :
    (e.differences b).Pairwise Mismatch.Precedes := by
  unfold differences
  rw [List.pairwise_flatMap]
  constructor
  · rintro ⟨slot, block⟩ -
    cases slot with
    | none => exact .nil
    | some content => exact e.pairwise_blockDifferences b.group block content
  · apply (pairwise_zipIdx b.data).imp
    rintro ⟨slot, block⟩ ⟨slot', block'⟩ hlt m hm n hn
    cases slot with
    | none => exact absurd hm List.not_mem_nil
    | some content =>
      cases slot' with
      | none => exact absurd hn List.not_mem_nil
      | some content' =>
        obtain ⟨_, _, -, -, rfl⟩ := e.mem_blockDifferences_iff.1 hm
        obtain ⟨_, _, -, -, rfl⟩ := e.mem_blockDifferences_iff.1 hn
        exact .inr ⟨rfl, .inl hlt⟩

end Expectation

end Striping
