import Striping.Proofs.Audit.Verdicts

/-!
# Files with several failing groups

Comparing a file takes its groups in any order and answers with the failure of the smallest index;
listing its mismatches sorts those of all groups. `Expectation.checkFile_agrees` relates the two on
every list of groups, whatever fails in them.
-/

namespace Striping

namespace Expectation

variable (e : Expectation) {groups : List Buffers}

/-- The mismatches of a file are those of its groups. -/
theorem perm_fileMismatches {ms : List Mismatch} (h : e.fileMismatches groups = .ok ms) :
    ∃ found, List.Forall₂ (fun b found => e.groupMismatches b = .ok found) groups found ∧
      ms.Perm found.flatten := by
  unfold fileMismatches at h
  split at h
  · cases h
  · next found hfound =>
    cases h
    exact ⟨found, mapM_eq_ok_iff.1 hfound, List.mergeSort_perm ..⟩

/-- No two mismatches are at one place, if no two groups have the same index. -/
theorem pairwise_flatMap_differences (hgroups : (groups.map (·.group)).Nodup) :
    (groups.flatMap e.differences).Pairwise fun m n => m.Precedes n ∨ n.Precedes m := by
  rw [List.pairwise_flatMap]
  constructor
  · exact fun b _ => (e.pairwise_differences b).imp .inl
  · apply (List.pairwise_map.1 hgroups).imp
    intro b b' hne m hm n hn
    rw [← e.group_of_mem_differences hm, ← e.group_of_mem_differences hn] at hne
    unfold Mismatch.Precedes
    omega

/-- **The mismatches of a file are in strict order**, if no two groups have the same index. -/
theorem pairwise_fileMismatches (hgroups : (groups.map (·.group)).Nodup) {ms : List Mismatch}
    (h : e.fileMismatches groups = .ok ms) : ms.Pairwise Mismatch.Precedes := by
  obtain ⟨-, rfl⟩ := e.fileMismatches_eq h
  -- the sort leaves open whether two neighbours are at one place
  have hapart := ((List.mergeSort_perm _ before).pairwise_iff fun h => h.symm).2
    (e.pairwise_flatMap_differences hgroups)
  apply (hapart.and (pairwise_sorted _)).imp
  rintro m n ⟨hmn | hnm, hbefore⟩
  · exact hmn
  · exact absurd hnm ((before_iff m n).1 hbefore)

/-- What listing the mismatches of a file's groups says about the groups and about comparing
them. -/
structure Listed (groups : List Buffers) (ms : List Mismatch) : Prop where
  /-- The list is in strict order of group, block and offset. -/
  pairwise : ms.Pairwise Mismatch.Precedes
  /-- It has the mismatches of all groups, and no others. -/
  perm : ∃ found, List.Forall₂ (fun b found => e.groupMismatches b = .ok found) groups found ∧
    ms.Perm found.flatten
  /-- Comparing the file passes exactly if the list is empty. -/
  checkFile_iff : (∃ report, e.checkFile e.length groups = .ok report) ↔ ms = []
  /-- Otherwise it fails with the head of the list. -/
  checkFile_cons : ∀ m rest, ms = m :: rest →
    e.checkFile e.length groups = .error (.mismatch m)

theorem listed (hgroups : (groups.map (·.group)).Nodup) {ms : List Mismatch}
    (h : e.fileMismatches groups = .ok ms) : e.Listed groups ms := by
  have hcheck := e.checkFile_eq hgroups h
  refine ⟨e.pairwise_fileMismatches hgroups h, e.perm_fileMismatches h, ?_, ?_⟩
  · rw [hcheck]
    simp [verdict_eq_ok_iff]
  · rintro m rest rfl
    exact hcheck

/-- **Comparing a file agrees with listing its mismatches.** If no two groups have the same index,
the list is that of all groups in strict order, and comparing stops at its head. For groups of any
indices, a wrong length is refused first; then the failing group of smallest index decides, the
first of several; and if none fails, the reports add up. -/
theorem checkFile_agrees (groups : List Buffers) :
    ((groups.map (·.group)).Nodup → ∀ ms, e.fileMismatches groups = .ok ms →
      e.Listed groups ms) ∧
    (∀ reported, reported ≠ e.length →
      e.checkFile reported groups = .error (.length e.length reported)) ∧
    ((∃ b ∈ groups, ∃ err, e.checkGroup b = .error err) →
      ∃ b err, e.FailsFirst groups b err ∧ e.checkFile e.length groups = .error err) ∧
    ∀ reports, List.Forall₂ (fun b report => e.checkGroup b = .ok report) groups reports →
      e.checkFile e.length groups = .ok ⟨(reports.map (·.groups)).sum,
        (reports.map (·.blocks)).sum, (reports.map (·.bytes)).sum⟩ := by
  refine ⟨fun hgroups ms h => e.listed hgroups h, fun reported h => if_pos h, ?_,
    fun reports h => ?_⟩
  · rintro ⟨b, hb, err, hcheck⟩
    exact e.exists_failsFirst hb hcheck
  · rw [e.checkFile_eq_ok h, Report.sum_eq]

/-- Groups out of order: the mismatch of the second is reported. -/
theorem checkFile_agrees_unordered :
    let e : Expectation := ⟨.small, .standard, 1⟩
    let groups : List Buffers := [.ofData 1 [[7]], .ofData 0 [[1], [4]]]
    (groups.map (·.group)).Nodup ∧ (∃ ms, e.fileMismatches groups = .ok ms ∧ e.Listed groups ms) ∧
      e.checkFile 1 groups = .error (.mismatch ⟨0, 0, 1, 0, 0, 2, 0, 4⟩) := by
  intro e groups
  obtain ⟨hlisted, -⟩ := e.checkFile_agrees groups
  have hgroups : (groups.map (·.group)).Nodup := by decide
  have hfound : groups.mapM e.groupMismatches =
      .ok [[⟨1, 0, 0, 0, 0, 8, 0, 7⟩], [⟨0, 0, 1, 0, 0, 2, 0, 4⟩]] := by decide +kernel
  have hms : e.fileMismatches groups = .ok (List.mergeSort
      [⟨1, 0, 0, 0, 0, 8, 0, 7⟩, ⟨0, 0, 1, 0, 0, 2, 0, 4⟩] before) := by
    unfold fileMismatches
    rw [hfound]
    rfl
  have h := hlisted hgroups _ hms
  refine ⟨hgroups, ⟨_, hms, h⟩, ?_⟩
  have hsort : List.mergeSort [⟨1, 0, 0, 0, 0, 8, 0, 7⟩, ⟨0, 0, 1, 0, 0, 2, 0, 4⟩] before =
      [⟨0, 0, 1, 0, 0, 2, 0, 4⟩, ⟨1, 0, 0, 0, 0, 8, 0, 7⟩] := by
    simp [List.mergeSort, before]
  exact h.checkFile_cons _ _ hsort

/-- Of two failing groups of one index, the first in the list decides, whatever their blocks. -/
example : checkFile ⟨.standard, .standard, 1⟩ 1
    [.ofData 1 [[7]], .ofData 0 [[], [0, 4]], .ofData 0 [[9]]] =
      .error (.mismatch ⟨0, 0, 1, 1, 1, 65537, 0, 4⟩) := by decide +kernel

end Expectation

end Striping
