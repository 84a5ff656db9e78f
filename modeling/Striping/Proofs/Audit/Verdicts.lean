import Striping.Proofs.Audit.Differences

/-!
# Stopping at the first mismatch

Where listing the mismatches succeeds, stopping at the first one gives the head of the list, or the
report if it is empty (`Expectation.verdict`). This holds for a block, for a group
(`Expectation.checkGroup_eq`) and, if no two groups have the same index, for a file
(`Expectation.checkFile_eq`): the failing group of least index holds the least mismatch of all.

For any groups, a file fails in its first failing group of least index
(`Expectation.exists_failsFirst`), and is reported by the sum if none fails
(`Expectation.checkFile_eq_ok`).
-/

namespace Striping

/-- What stopping at the first of these mismatches answers. -/
def Expectation.verdict {α : Type} (report : α) : List Mismatch → Except Error α
  | [] => .ok report
  | m :: _ => .error (.mismatch m)

theorem Expectation.verdict_eq_ok_iff {α : Type} {report r : α} {ms : List Mismatch} :
    Expectation.verdict report ms = .ok r ↔ ms = [] ∧ r = report := by
  cases ms <;> simp [Expectation.verdict, eq_comm]

theorem Expectation.verdict_eq_error_iff {α : Type} {report : α} {ms : List Mismatch}
    {err : Error} : Expectation.verdict report ms = .error err ↔
      ∃ m rest, ms = m :: rest ∧ err = .mismatch m := by
  cases ms <;> simp [Expectation.verdict, eq_comm]

theorem Report.sum_eq (reports : List Report) : reports.sum =
    ⟨(reports.map (·.groups)).sum, (reports.map (·.blocks)).sum, (reports.map (·.bytes)).sum⟩ := by
  induction reports with
  | nil => rfl
  | cons report reports ih =>
    rw [List.sum_cons, ih]
    rfl

/-- What comparing a group reports. -/
def Buffers.report (b : Buffers) : Report :=
  ⟨1, (b.data.filterMap id).countP (!·.isEmpty), b.dataLength⟩

namespace Expectation

variable (e : Expectation)

/-! ## Blocks -/

theorem checkBytes_eq {group block offset : Nat} {content : Bytes} {found : List (Option Mismatch)}
    (h : ((content.zipIdx offset).mapM fun (actual, offset) =>
      e.inspect group block offset actual) = .ok found) :
    e.checkBytes group block offset content = verdict () (found.filterMap id) := by
  induction content generalizing offset found with
  | nil =>
    cases h
    rfl
  | cons actual content ih =>
    rw [List.zipIdx_cons] at h
    obtain ⟨first, rest, hfirst, hrest, rfl⟩ := mapM_cons_eq_ok h
    change e.inspect group block offset actual = .ok first at hfirst
    unfold checkBytes
    rw [hfirst]
    cases first with
    | none => simpa using ih hrest
    | some m => rfl

theorem checkBlock_eq {group block : Nat} {content : Bytes} {ms : List Mismatch}
    (h : e.blockMismatches group block content = .ok ms) :
    e.checkLength content = .ok () ∧ e.checkBytes group block 0 content = verdict () ms := by
  unfold blockMismatches at h
  split at h
  · cases h
  · next hlength =>
    split at h
    · cases h
    · next found hfound =>
      cases h
      exact ⟨hlength, e.checkBytes_eq hfound⟩

/-! ## Groups -/

/-- What comparing these slots reports. -/
def slotsReport (slots : List (Option Bytes)) : Report :=
  ⟨0, (slots.filterMap id).countP (!·.isEmpty), (slots.filterMap id).flatten.length⟩

theorem slotsReport_some (content : Bytes) (slots : List (Option Bytes)) :
    slotsReport (some content :: slots) =
      ⟨0, if content.isEmpty then 0 else 1, content.length⟩ + slotsReport slots := by
  change _ = Report.mk _ _ _
  cases content with
  | nil => simp [slotsReport]
  | cons _ _ =>
    simp [slotsReport]
    omega

theorem checkBlocks_eq {group block : Nat} {slots : List (Option Bytes)}
    {found : List (List Mismatch)}
    (h : ((slots.zipIdx block).mapM fun (slot, block) => e.slotMismatches group block slot) =
      .ok found) :
    e.checkBlocks group block slots = verdict (slotsReport slots) found.flatten := by
  induction slots generalizing block found with
  | nil =>
    cases h
    rfl
  | cons slot slots ih =>
    rw [List.zipIdx_cons] at h
    obtain ⟨first, rest, hfirst, hrest, rfl⟩ := mapM_cons_eq_ok h
    change e.slotMismatches group block slot = .ok first at hfirst
    cases slot with
    | none =>
      cases hfirst
      rw [checkBlocks, ih hrest, List.flatten_cons, List.nil_append]
      rfl
    | some content =>
      obtain ⟨hlength, hbytes⟩ := e.checkBlock_eq hfirst
      unfold checkBlocks
      rw [hlength, hbytes, ih hrest]
      cases first with
      | cons m ms => rfl
      | nil =>
        rw [slotsReport_some, List.flatten_cons, List.nil_append]
        cases rest.flatten with
        | nil => rfl
        | cons m ms => rfl

/-- **Comparing a group gives the first of its mismatches, or its report.** -/
theorem checkGroup_eq {b : Buffers} {ms : List Mismatch} (h : e.groupMismatches b = .ok ms) :
    e.checkGroup b = verdict b.report ms := by
  unfold groupMismatches at h
  unfold checkGroup
  split at h
  · cases h
  · next hshape =>
    split at h
    · cases h
    · next found hfound =>
      cases h
      rw [e.checkBlocks_eq hfound]
      cases found.flatten with
      | cons m ms => rfl
      | nil =>
        change Except.ok (Report.mk (1 + 0) (0 + _) (0 + _)) = _
        simp [verdict, Buffers.report, slotsReport, Buffers.dataLength]

/-! ## Files -/

/-- Going through a list and keeping the smaller key gives the entry of least key, the first of
several. -/
theorem foldl_earliest {α : Type} (f : Nat × α) (rest : List (Nat × α)) :
    ∃ before m after, rest.foldl (fun a b => if b.1 < a.1 then b else a) f = m ∧
      f :: rest = before ++ m :: after ∧ (∀ x ∈ before, m.1 < x.1) ∧ ∀ x ∈ after, m.1 ≤ x.1 := by
  induction rest generalizing f with
  | nil => exact ⟨[], f, [], rfl, rfl, by simp, by simp⟩
  | cons b rest ih =>
    rw [List.foldl_cons]
    by_cases hlt : b.1 < f.1
    · rw [if_pos hlt]
      obtain ⟨before, m, after, hm, hsplit, hbefore, hafter⟩ := ih b
      have hle : m.1 ≤ b.1 := by
        rcases List.mem_append.1 (hsplit ▸ List.mem_cons_self : b ∈ before ++ m :: after) with h | h
        · exact Nat.le_of_lt (hbefore b h)
        · rcases List.mem_cons.1 h with rfl | h
          · exact Nat.le_refl _
          · exact hafter b h
      refine ⟨f :: before, m, after, hm, by rw [hsplit, List.cons_append], ?_, hafter⟩
      exact List.forall_mem_cons.2 ⟨by omega, hbefore⟩
    · rw [if_neg hlt]
      obtain ⟨before, m, after, hm, hsplit, hbefore, hafter⟩ := ih f
      cases before with
      | nil =>
        obtain ⟨rfl, rfl⟩ := List.cons.inj hsplit
        refine ⟨[], f, b :: rest, hm, rfl, by simp, ?_⟩
        exact List.forall_mem_cons.2 ⟨Nat.le_of_not_lt hlt, hafter⟩
      | cons f' before =>
        obtain ⟨rfl, rfl⟩ := List.cons.inj hsplit
        obtain ⟨hf, hbefore⟩ := List.forall_mem_cons.1 hbefore
        refine ⟨f :: b :: before, m, after, hm, rfl, ?_, hafter⟩
        exact List.forall_mem_cons.2 ⟨hf, List.forall_mem_cons.2 ⟨by omega, hbefore⟩⟩

/-- The failure of a group, with the group's index. -/
def failure (b : Buffers) : Option (Nat × Error) :=
  match e.checkGroup b with
  | .error err => some (b.group, err)
  | .ok _ => none

theorem failure_eq_some_iff {b : Buffers} {x : Nat × Error} :
    e.failure b = some x ↔ e.checkGroup b = .error x.2 ∧ x.1 = b.group := by
  unfold failure
  cases e.checkGroup b with
  | error err => simp [Prod.ext_iff, eq_comm, and_comm]
  | ok report => simp

theorem firstFailure_eq (groups : List Buffers) : e.firstFailure groups =
    match groups.filterMap e.failure with
    | [] => none
    | f :: rest =>
      some (rest.foldl (fun (a b : Nat × Error) => if b.1 < a.1 then b else a) f).2 :=
  rfl

/-- The group fails, every failing group before it in the list has a larger index, and none behind
it has a smaller one. -/
def FailsFirst (groups : List Buffers) (b : Buffers) (err : Error) : Prop :=
  e.checkGroup b = .error err ∧ ∃ before after, groups = before ++ b :: after ∧
    (∀ b' ∈ before, ∀ err', e.checkGroup b' = .error err' → b.group < b'.group) ∧
      ∀ b' ∈ after, ∀ err', e.checkGroup b' = .error err' → b.group ≤ b'.group

variable {e} in
theorem FailsFirst.mem {groups : List Buffers} {b : Buffers} {err : Error}
    (h : e.FailsFirst groups b err) : b ∈ groups := by
  obtain ⟨-, before, after, rfl, -, -⟩ := h
  simp

variable {e} in
theorem FailsFirst.le {groups : List Buffers} {b b' : Buffers} {err err' : Error}
    (h : e.FailsFirst groups b err) (hb' : b' ∈ groups) (hcheck : e.checkGroup b' = .error err') :
    b.group ≤ b'.group := by
  obtain ⟨-, before, after, rfl, hbefore, hafter⟩ := h
  rcases List.mem_append.1 hb' with hmem | hmem
  · exact Nat.le_of_lt (hbefore b' hmem err' hcheck)
  · rcases List.mem_cons.1 hmem with rfl | hmem
    · exact Nat.le_refl _
    · exact hafter b' hmem err' hcheck

/-- **The first failure of a file**, if any, is that of the failing group with the smallest index,
the first of several. -/
theorem firstFailure_cases (groups : List Buffers) :
    (e.firstFailure groups = none ∧ ∀ b ∈ groups, ∃ report, e.checkGroup b = .ok report) ∨
      ∃ b err, e.firstFailure groups = some err ∧ e.FailsFirst groups b err := by
  rw [e.firstFailure_eq]
  cases hf : groups.filterMap e.failure with
  | nil =>
    refine .inl ⟨rfl, fun b hb => ?_⟩
    have hnone := List.filterMap_eq_nil_iff.1 hf b hb
    cases hcheck : e.checkGroup b with
    | ok report => exact ⟨report, rfl⟩
    | error err => simp [failure, hcheck] at hnone
  | cons f rest =>
    obtain ⟨before, m, after, hm, hsplit, hbefore, hafter⟩ := foldl_earliest f rest
    rw [hsplit] at hf
    obtain ⟨groups₁, groups', rfl, rfl, hrest⟩ := List.filterMap_eq_append_iff.1 hf
    obtain ⟨skipped, b, groups₂, rfl, hskipped, hfail, rfl⟩ := List.filterMap_eq_cons_iff.1 hrest
    obtain ⟨hcheck, hgroup⟩ := e.failure_eq_some_iff.1 hfail
    rw [hgroup] at hbefore hafter
    have hin : ∀ {gs : List Buffers}, ∀ b' ∈ gs, ∀ err', e.checkGroup b' = .error err' →
        (b'.group, err') ∈ gs.filterMap e.failure := fun b' hb' err' hcheck' =>
      List.mem_filterMap.2 ⟨b', hb', e.failure_eq_some_iff.2 ⟨hcheck', rfl⟩⟩
    refine .inr ⟨b, m.2, by dsimp only; rw [hm], hcheck, groups₁ ++ skipped, groups₂,
      by rw [List.append_assoc], fun b' hb' err' hcheck' => ?_, fun b' hb' err' hcheck' => ?_⟩
    · rcases List.mem_append.1 hb' with hmem | hmem
      · exact hbefore _ (hin b' hmem err' hcheck')
      · simpa [failure, hcheck'] using hskipped b' hmem
    · exact hafter _ (hin b' hb' err' hcheck')

/-- **A file with a failing group fails**, with the first failure of the smallest index. -/
theorem exists_failsFirst {groups : List Buffers} {b : Buffers} (hb : b ∈ groups) {err : Error}
    (hcheck : e.checkGroup b = .error err) :
    ∃ b err, e.FailsFirst groups b err ∧ e.checkFile e.length groups = .error err := by
  rcases e.firstFailure_cases groups with ⟨-, hall⟩ | ⟨b', err', hfirst, hfails⟩
  · obtain ⟨report, hreport⟩ := hall b hb
    simp [hcheck] at hreport
  · exact ⟨b', err', hfails, by simp [checkFile, hfirst]⟩

/-- **A file whose groups all pass is reported by their sum.** -/
theorem checkFile_eq_ok {groups : List Buffers} {reports : List Report}
    (h : List.Forall₂ (fun b report => e.checkGroup b = .ok report) groups reports) :
    e.checkFile e.length groups = .ok reports.sum := by
  have hreports : reports = groups.map fun b => (e.checkGroup b).toOption.getD 0 :=
    eq_map_of_mapM_eq_ok (fun b report hcheck => by rw [hcheck]; rfl) (mapM_eq_ok_iff.2 h)
  have hnone : e.firstFailure groups = none := by
    rcases e.firstFailure_cases groups with ⟨hnone, -⟩ | ⟨b, err, -, hfails⟩
    · exact hnone
    · rw [hreports, List.forall₂_map_right_iff, List.forall₂_same] at h
      have hok := h b hfails.mem
      rw [hfails.1] at hok
      cases hok
  simp [checkFile, hnone, ← hreports]

theorem fileMismatches_eq {groups : List Buffers} {ms : List Mismatch}
    (h : e.fileMismatches groups = .ok ms) :
    (∀ b ∈ groups, e.groupMismatches b = .ok (e.differences b)) ∧
      ms = (groups.flatMap e.differences).mergeSort before := by
  unfold fileMismatches at h
  split at h
  · cases h
  · next found hfound =>
    have hmap := eq_map_of_mapM_eq_ok (fun _ _ hx => e.groupMismatches_eq hx) hfound
    rw [hmap] at hfound
    refine ⟨?_, by rw [← Except.ok.inj h, hmap, List.flatMap_def]⟩
    rwa [mapM_eq_ok_iff, List.forall₂_map_right_iff, List.forall₂_same] at hfound

theorem fileMismatches_eq_ok {groups : List Buffers}
    (h : ∀ b ∈ groups, e.groupMismatches b = .ok (e.differences b)) :
    e.fileMismatches groups = .ok ((groups.flatMap e.differences).mergeSort before) := by
  unfold fileMismatches
  rw [mapM_eq_ok h, List.flatMap_def]

/-- The mismatches of a file are sorted. -/
theorem pairwise_sorted (ms : List Mismatch) :
    (ms.mergeSort before).Pairwise fun m n => before m n = true :=
  List.pairwise_mergeSort before_trans before_total ms

theorem before_of_mem {m n : Mismatch} {ms : List Mismatch}
    (h : (m :: ms).Pairwise fun m n => before m n = true) (hn : n ∈ m :: ms) :
    before m n = true := by
  rcases List.mem_cons.1 hn with rfl | hmem
  · simpa using before_total n n
  · exact (List.pairwise_cons.1 h).1 n hmem

/-- The first failure of a file is the least mismatch, for it comes first in its group, and its
group comes first. -/
theorem least_of_firstFailure {groups : List Buffers} (hgroups : (groups.map (·.group)).Nodup)
    {b b₀ : Buffers} {m m₀ : Mismatch} {rest : List Mismatch} (hb : b ∈ groups) (hb₀ : b₀ ∈ groups)
    (hle : b.group ≤ b₀.group) (hm : e.differences b = m :: rest) (hm₀ : m₀ ∈ e.differences b₀)
    (hbefore : before m₀ m = true) : m₀ = m := by
  rw [before_iff] at hbefore
  have hgroup : m.group = b.group := e.group_of_mem_differences (hm ▸ .head _)
  have hgroup₀ : m₀.group = b₀.group := e.group_of_mem_differences hm₀
  have hsame : b.group = b₀.group := by
    unfold Mismatch.Precedes at hbefore
    omega
  have heq : b = b₀ := List.inj_on_of_nodup_map hgroups hb hb₀ hsame
  rw [← heq, hm] at hm₀
  have hpairwise := e.pairwise_differences b
  rw [hm, List.pairwise_cons] at hpairwise
  rcases List.mem_cons.1 hm₀ with h | h
  · exact h
  · exact absurd (hpairwise.1 m₀ h) hbefore

/-- **Comparing a file gives the first of its mismatches, or its report**, if no two groups have the
same index. -/
theorem checkFile_eq {groups : List Buffers} {ms : List Mismatch}
    (hgroups : (groups.map (·.group)).Nodup) (h : e.fileMismatches groups = .ok ms) :
    e.checkFile e.length groups = verdict (groups.map (·.report)).sum ms := by
  obtain ⟨hok, hms⟩ := e.fileMismatches_eq h
  have hcheck : ∀ b ∈ groups, e.checkGroup b = verdict b.report (e.differences b) := fun b hb =>
    e.checkGroup_eq (hok b hb)
  have hmem : ∀ m, m ∈ ms ↔ ∃ b ∈ groups, m ∈ e.differences b := by
    intro m
    rw [hms, List.mem_mergeSort, List.mem_flatMap]
  have hsorted := pairwise_sorted (groups.flatMap e.differences)
  rw [← hms] at hsorted
  cases ms with
  | nil =>
    have hpass : ∀ b ∈ groups, e.checkGroup b = .ok b.report := by
      intro b hb
      have hnone : e.differences b = [] := by
        apply List.eq_nil_iff_forall_not_mem.2
        intro m hm
        exact absurd ((hmem m).2 ⟨b, hb, hm⟩) List.not_mem_nil
      rw [hcheck b hb, hnone]
      rfl
    apply e.checkFile_eq_ok
    rwa [List.forall₂_map_right_iff, List.forall₂_same]
  | cons m₀ ms =>
    -- the group of the least mismatch fails, so the one that decides is not behind it
    obtain ⟨b₀, hb₀, hm₀⟩ := (hmem m₀).1 (.head _)
    obtain ⟨m', rest', hm'⟩ := List.exists_cons_of_ne_nil (List.ne_nil_of_mem hm₀)
    have hfail : e.checkGroup b₀ = .error (.mismatch m') := by
      rw [hcheck b₀ hb₀, hm']
      rfl
    obtain ⟨b, err, hfails, hfile⟩ := e.exists_failsFirst hb₀ hfail
    have hb := hfails.mem
    obtain ⟨m, rest, hm, rfl⟩ := verdict_eq_error_iff.1 ((hcheck b hb).symm.trans hfails.1)
    have hbefore := before_of_mem hsorted ((hmem m).2 ⟨b, hb, hm ▸ .head _⟩)
    rw [hfile, e.least_of_firstFailure hgroups hb hb₀ (hfails.le hb₀ hfail) hm hm₀ hbefore]
    rfl

end Expectation

end Striping
