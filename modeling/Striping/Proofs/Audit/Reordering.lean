import Striping.Proofs.Audit.Failures

/-!
# Groups in another order

The groups of a file may come in any order. If no two of them have the same index, then at most one
failing group has the smallest index (`Expectation.FailsFirst.err_eq`) and no two mismatches are at
one place, so neither the comparison of the file nor the list of its mismatches depends on the order
(`Expectation.checkFile_perm`, `Expectation.fileMismatches_perm`).
-/

namespace Striping

/-- Reports add up in any order. -/
theorem Report.sum_perm {reports reports' : List Report} (h : reports.Perm reports') :
    reports.sum = reports'.sum := by
  rw [Report.sum_eq, Report.sum_eq, (h.map (·.groups)).sum_eq, (h.map (·.blocks)).sum_eq,
    (h.map (·.bytes)).sum_eq]

namespace Expectation

variable {e : Expectation} {groups groups' : List Buffers}

/-- The group that fails first is the same in every order. -/
theorem FailsFirst.err_eq (hgroups : (groups.map (·.group)).Nodup) (hperm : groups.Perm groups')
    {b b' : Buffers} {err err' : Error} (h : e.FailsFirst groups b err)
    (h' : e.FailsFirst groups' b' err') : err = err' := by
  have hb' : b' ∈ groups := hperm.mem_iff.2 h'.mem
  have hle : b.group ≤ b'.group := h.le hb' h'.1
  have hge : b'.group ≤ b.group := h'.le (hperm.mem_iff.1 h.mem) h.1
  obtain rfl : b = b' := List.inj_on_of_nodup_map hgroups h.mem hb' (Nat.le_antisymm hle hge)
  have herr := h.1.symm.trans h'.1
  rwa [Except.error.injEq] at herr

variable (e)

theorem firstFailure_perm (hgroups : (groups.map (·.group)).Nodup) (hperm : groups.Perm groups') :
    e.firstFailure groups = e.firstFailure groups' := by
  rcases e.firstFailure_cases groups with ⟨hnone, hall⟩ | ⟨b, err, hsome, hfails⟩
  · rcases e.firstFailure_cases groups' with ⟨hnone', -⟩ | ⟨b', err', -, hfails'⟩
    · rw [hnone, hnone']
    · obtain ⟨report, hok⟩ := hall b' (hperm.mem_iff.2 hfails'.mem)
      cases hok.symm.trans hfails'.1
  · rcases e.firstFailure_cases groups' with ⟨-, hall'⟩ | ⟨b', err', hsome', hfails'⟩
    · obtain ⟨report, hok⟩ := hall' b (hperm.mem_iff.1 hfails.mem)
      cases hok.symm.trans hfails.1
    · rw [hsome, hsome', hfails.err_eq hgroups hperm hfails']

/-- **Comparing a file does not depend on the order of its groups.** -/
theorem checkFile_perm (hgroups : (groups.map (·.group)).Nodup) (hperm : groups.Perm groups')
    (reported : Nat) : e.checkFile reported groups = e.checkFile reported groups' := by
  have hreport := Report.sum_perm (hperm.map fun b => (e.checkGroup b).toOption.getD 0)
  unfold checkFile
  rw [e.firstFailure_perm hgroups hperm, hreport]

/-- **The list of mismatches does not depend on the order of the groups.** -/
theorem fileMismatches_perm (hgroups : (groups.map (·.group)).Nodup)
    (hperm : groups.Perm groups') {ms : List Mismatch} (h : e.fileMismatches groups = .ok ms) :
    e.fileMismatches groups' = .ok ms := by
  obtain ⟨hok, hms⟩ := e.fileMismatches_eq h
  have hok' := e.fileMismatches_eq_ok fun b hb => hok b (hperm.mem_iff.2 hb)
  have hsame : ms.Perm ((groups'.flatMap e.differences).mergeSort before) := by
    rw [hms]
    exact ((List.mergeSort_perm _ _).trans (hperm.flatMap_right _)).trans
      (List.mergeSort_perm _ _).symm
  -- both lists are in strict order, so they agree place by place
  have hsorted := e.pairwise_fileMismatches hgroups h
  have hsorted' := e.pairwise_fileMismatches ((hperm.map _).nodup_iff.1 hgroups) hok'
  rw [hok', hsame.eq_of_pairwise (fun m n _ _ hmn hnm => absurd hnm hmn.asymm) hsorted hsorted']

/-- **The order of the groups does not matter**, if no two of them have the same index: the report
or error of comparing the file is the same, and so is the list of its mismatches, unless neither
order gives one. -/
theorem audits_perm (hgroups : (groups.map (·.group)).Nodup) (hperm : groups.Perm groups') :
    (∀ reported, e.checkFile reported groups = e.checkFile reported groups') ∧
      ((∃ ms, e.fileMismatches groups = .ok ms ∧ e.fileMismatches groups' = .ok ms) ∨
        ∃ err err', e.fileMismatches groups = .error err ∧
          e.fileMismatches groups' = .error err') := by
  refine ⟨e.checkFile_perm hgroups hperm, ?_⟩
  cases h : e.fileMismatches groups with
  | ok ms => exact .inl ⟨ms, rfl, e.fileMismatches_perm hgroups hperm h⟩
  | error err =>
    cases h' : e.fileMismatches groups' with
    | ok ms =>
      have hback := e.fileMismatches_perm ((hperm.map _).nodup_iff.1 hgroups) hperm.symm h'
      cases h.symm.trans hback
    | error err' => exact .inr ⟨err, err', rfl, rfl⟩

/-- Of three groups the first has a block that is too long. The mismatch of the second is reported
in both directions, and without the first it is listed in both. -/
theorem audits_perm_reversed :
    let e : Expectation := ⟨.small, .standard, 12⟩
    let groups : List Buffers := [.ofData 2 [[0, 0, 0, 0, 0]], .ofData 1 [[9], [4]], .ofData 0 [[1]]]
    (groups.map (·.group)).Nodup ∧ groups.Perm groups.reverse ∧
      e.checkFile 12 groups = .error (.mismatch ⟨1, 0, 1, 0, 0, 10, 11, 4⟩) ∧
      e.checkFile 12 groups.reverse = .error (.mismatch ⟨1, 0, 1, 0, 0, 10, 11, 4⟩) ∧
      ∃ ms, e.fileMismatches (groups.drop 1) = .ok ms ∧
        e.fileMismatches (groups.drop 1).reverse = .ok ms := by
  intro e groups
  have hgroups : (groups.map (·.group)).Nodup := by decide
  have hperm : groups.Perm groups.reverse := (List.reverse_perm groups).symm
  have hcheck : e.checkFile 12 groups = .error (.mismatch ⟨1, 0, 1, 0, 0, 10, 11, 4⟩) := by
    decide +kernel
  have hsame := (e.audits_perm hgroups hperm).1 12
  have hrest : ((groups.drop 1).map (·.group)).Nodup := by decide
  refine ⟨hgroups, hperm, hcheck, hsame ▸ hcheck, ?_⟩
  rcases (e.audits_perm hrest (List.reverse_perm _).symm).2 with hlisted | ⟨err, -, herr, -⟩
  · exact hlisted
  · have hfound : (groups.drop 1).mapM e.groupMismatches =
        .ok [[⟨1, 0, 1, 0, 0, 10, 11, 4⟩], []] := by decide +kernel
    unfold fileMismatches at herr
    rw [hfound] at herr
    cases herr

end Expectation

end Striping
