import Striping.Command.Verification
import Striping.Proofs.Audit.Agreement
import Striping.Proofs.Store.Corruption

/-!
# Verification finds the zeroed bytes

Zeroing bytes of a generated file in its blocks zeroes them in its content (`Command.zero_eq_ok`),
and no byte of a pattern is zero. So a verification finds each zeroed position once and nothing
else, and says so in both modes (`Command.verify_detects`). A position behind the file ends it
before anything is fetched, and a file that memory has no room for before anything at all
(`Command.verify_of_large`).
-/

namespace Striping.Command

/-! ## Zeroed content -/

/-- The content with zeros at these positions. -/
def zeroAt (content : Bytes) (zeroed : List Nat) : Bytes :=
  zeroed.foldl (fun content pos => content.set pos 0) content

@[simp] theorem length_zeroAt (content : Bytes) (zeroed : List Nat) :
    (zeroAt content zeroed).length = content.length := by
  induction zeroed generalizing content with
  | nil => rfl
  | cons pos rest ih =>
    rw [zeroAt, List.foldl_cons, ← zeroAt, ih, List.length_set]

theorem getElem?_zeroAt (content : Bytes) (zeroed : List Nat) (pos : Nat) :
    (zeroAt content zeroed)[pos]? =
      if pos ∈ zeroed then content[pos]?.map fun _ => 0 else content[pos]? := by
  induction zeroed generalizing content with
  | nil => simp [zeroAt]
  | cons pos' rest ih =>
    rw [zeroAt, List.foldl_cons, ← zeroAt, ih, List.getElem?_set']
    by_cases heq : pos' = pos
    · subst heq
      simp [Function.const_def]
    · simp [heq, Ne.symm heq]

/-! ## Zeroing -/

section Zeroing

variable {s : Store} {path : String} {first : Nat} {content : Bytes} {zeroed : List Nat}

/-- Zeroing one more byte of a file leaves the others to do. -/
theorem zero_cons {pos : Nat} (h : s.Intact path first content) (hpos : pos < content.length)
    (rest : List Nat) : ∃ t : Store, t.geometry = s.geometry ∧
      t.Intact path first (content.set pos 0) ∧
      zero s.geometry content.length (s.geometry.records first content.length) s (pos :: rest) =
        zero s.geometry content.length (s.geometry.records first content.length) t rest := by
  obtain ⟨t, hcorrupt, hg, ht⟩ := h.corrupt hpos 0
  have hrecord := (s.geometry.getElem?_records first content.length _ _).2
    ⟨s.geometry.locate_group_lt hpos, rfl⟩
  -- the group's record is the one from before any zeroing, and its ids are still the file's
  have hholder :
      (s.geometry.groupRecord first content.length (s.geometry.locate pos).group).block.id +
        (s.geometry.locate pos).block = s.geometry.holder first pos := rfl
  refine ⟨t, hg, ht, ?_⟩
  rw [zero, if_neg (Nat.not_le_of_lt hpos)]
  dsimp only
  rw [hrecord]
  dsimp only
  rw [hholder, hcorrupt]

/-- **Zeroing bytes of a file zeroes them in its content.** -/
theorem zero_eq_ok (h : s.Intact path first content)
    (hzeroed : ∀ pos ∈ zeroed, pos < content.length) :
    ∃ t : Store, t.geometry = s.geometry ∧ t.Intact path first (zeroAt content zeroed) ∧
      zero s.geometry content.length (s.geometry.records first content.length) s zeroed =
        .ok t := by
  induction zeroed generalizing s content with
  | nil => exact ⟨s, rfl, h, rfl⟩
  | cons pos rest ih =>
    obtain ⟨hpos, hrest⟩ := List.forall_mem_cons.1 hzeroed
    obtain ⟨t, hg, ht, hzero⟩ := zero_cons h hpos rest
    obtain ⟨u, hg', hu, hzero'⟩ := ih ht (by simpa using hrest)
    rw [List.length_set, hg] at hzero'
    exact ⟨u, hg'.trans hg, hu, hzero.trans hzero'⟩

/-- **The first position behind the file ends the zeroing.** -/
theorem zero_eq_pastEnd {pos : Nat} (h : s.Intact path first content)
    (hfind : zeroed.find? (content.length ≤ ·) = some pos) :
    zero s.geometry content.length (s.geometry.records first content.length) s zeroed =
      .error (.pastEnd pos content.length) := by
  induction zeroed generalizing s content with
  | nil => cases hfind
  | cons pos' rest ih =>
    rw [List.find?_cons] at hfind
    by_cases hpos : content.length ≤ pos'
    · simp only [hpos, decide_true, Option.some.injEq] at hfind
      rw [← hfind, zero, if_pos hpos]
    · simp only [hpos, decide_false] at hfind
      obtain ⟨t, hg, ht, hzero⟩ := zero_cons h (Nat.lt_of_not_le hpos) rest
      have hrest := ih ht (by simpa using hfind)
      rw [List.length_set, hg] at hrest
      rw [hzero, hrest]

end Zeroing

/-! ## Fetching -/

/-- What a store fetches of a file is what a verification fetches, group by group. -/
theorem fetchAll_eq_ok {s : Store} {g : Geometry} {group : Nat} {records : List GroupRecord}
    {buffers : List Buffers} (h : (s.fetchFrom g group records).1 = .ok buffers) :
    fetchAll s g group records = .ok buffers := by
  induction records generalizing s group buffers with
  | nil =>
    cases h
    rfl
  | cons record rest ih =>
    obtain ⟨slots, found, t, others, hsplit, hgroup, hrest, rfl⟩ := Store.fetchFrom_cons_eq_ok h
    unfold fetchAll
    simp only [hsplit, hgroup, ih hrest]

/-- **What is fetched of a file after bytes of it are zeroed** is its length and the buffers of its
zeroed content. -/
theorem fetchZeroed_eq_ok {s : Store} {first : Nat} {content : Bytes} {zeroed : List Nat}
    (h : s.Intact verifiedPath first content) (hzeroed : ∀ pos ∈ zeroed, pos < content.length) :
    fetchZeroed s.geometry content.length zeroed s =
      .ok (content.length, s.geometry.fileBuffers (zeroAt content zeroed)) := by
  obtain ⟨t, hg, ht, hzero⟩ := zero_eq_ok h hzeroed
  have hfetch := ht.fetchGroups_eq
  rw [hg, length_zeroAt] at hfetch
  have hlength := ht.length_eq
  rw [length_zeroAt] at hlength
  unfold fetchZeroed
  simp only [h.groups_eq, hzero, hlength, fetchAll_eq_ok hfetch]

theorem fetchZeroed_eq_pastEnd {s : Store} {first : Nat} {content : Bytes} {zeroed : List Nat}
    {pos : Nat} (h : s.Intact verifiedPath first content)
    (hfind : zeroed.find? (content.length ≤ ·) = some pos) :
    fetchZeroed s.geometry content.length zeroed s = .error (.pastEnd pos content.length) := by
  unfold fetchZeroed
  simp only [h.groups_eq, zero_eq_pastEnd h hfind]

/-! ## The audit -/

/-- **The divergences of zeroed content are the zeroed positions**, for no byte of the pattern is
zero. -/
theorem perm_divergences_zeroAt (e : Expectation) {zeroed : List Nat}
    (hzeroed : ∀ pos ∈ zeroed, pos < e.length) :
    (e.divergences (zeroAt (e.pattern.generate e.length) zeroed)).Perm
      (zeroed.dedup.map fun pos => e.mismatchOf pos 0) := by
  refine (List.perm_ext_iff_of_nodup (e.nodup_divergences _) ?_).2 fun m => ?_
  · exact zeroed.nodup_dedup.map fun pos pos' h => congrArg Mismatch.position h
  · simp only [e.mem_divergences_iff, getElem?_zeroAt, Pattern.getElem?_generate, List.mem_map,
      List.mem_dedup]
    constructor
    · rintro ⟨pos, actual, hget, hne, rfl⟩
      by_cases hmem : pos ∈ zeroed
      · simp only [hmem, hzeroed pos hmem, if_true, Option.map_some, Option.some.injEq] at hget
        exact ⟨pos, hmem, by rw [hget]⟩
      · -- the byte is still that of the pattern
        simp only [hmem, if_false, Option.ite_none_right_eq_some, Option.some.injEq] at hget
        exact absurd hget.2.symm hne
    · rintro ⟨pos, hmem, rfl⟩
      refine ⟨pos, 0, ?_, (e.pattern.byteAt_ne_zero pos).symm, rfl⟩
      simp [hmem, hzeroed pos hmem]

/-- These are the mismatches of zeros at the positions, each position once, in strict order of
group, block and offset. -/
structure ZeroMismatches (e : Expectation) (zeroed : List Nat) (ms : List Mismatch) : Prop where
  pairwise : ms.Pairwise Mismatch.Precedes
  perm : ms.Perm (zeroed.dedup.map fun pos => e.mismatchOf pos 0)

theorem ZeroMismatches.length_eq {e : Expectation} {zeroed : List Nat} {ms : List Mismatch}
    (h : ZeroMismatches e zeroed ms) : ms.length = zeroed.dedup.length := by
  rw [h.perm.length_eq, List.length_map]

theorem ZeroMismatches.eq_nil_iff {e : Expectation} {zeroed : List Nat} {ms : List Mismatch}
    (h : ZeroMismatches e zeroed ms) : ms = [] ↔ zeroed = [] := by
  rw [← List.length_eq_zero_iff, h.length_eq, List.length_eq_zero_iff, List.dedup_eq_nil]

/-- **The audit of zeroed content** lists the mismatches of the zeros, and stops at the first of
them. -/
theorem audit_zeroAt (e : Expectation) (hlength : e.length ≤ Bytes.maxLength) {zeroed : List Nat}
    (hzeroed : ∀ pos ∈ zeroed, pos < e.length) :
    let buffers := e.geometry.fileBuffers (zeroAt (e.pattern.generate e.length) zeroed)
    ∃ ms blocks, ZeroMismatches e zeroed ms ∧ e.fileMismatches buffers = .ok ms ∧
      e.checkFile e.length buffers =
        Expectation.verdict ⟨e.geometry.groupCount e.length, blocks, e.length⟩ ms := by
  intro buffers
  have hlen : (zeroAt (e.pattern.generate e.length) zeroed).length = e.length := by simp
  have hmax := Nat.le_trans (Nat.le_of_eq hlen) hlength
  have hcheck := e.checkFile_fileBuffers hlen hmax
  obtain ⟨blocks, hreport⟩ := Expectation.sum_report_fileBuffers e.geometry
    (zeroAt (e.pattern.generate e.length) zeroed)
  rw [hreport, hlen] at hcheck
  exact ⟨_, blocks, ⟨e.pairwise_fileDifferences e.geometry _,
    (e.perm_divergences hlen).trans (perm_divergences_zeroAt e hzeroed)⟩,
    e.fileMismatches_fileBuffers hlen hmax, hcheck⟩

/-! ## The whole verification -/

section Verify

variable {g : Geometry} {p : Pattern} {length : Nat} {zeroed : List Nat}

/-- The generated file is written if there are ids left for it. -/
theorem exists_written (p : Pattern) (hlength : length ≤ Bytes.maxLength)
    (hids : Store.firstId + g.idCount length < Word.size) : ∃ count s,
      (Store.empty g Store.firstId).write verifiedPath (p.generate length) = (.ok count, s) ∧
        s.geometry = g ∧ s.Intact verifiedPath Store.firstId (p.generate length) := by
  rcases (Store.empty g Store.firstId).write_cases verifiedPath (p.generate length) with
    ⟨s, hwrite, hs⟩ | ⟨hfull, -⟩
  · have hlen : (p.generate length).length ≤ Bytes.maxLength := by rwa [Pattern.length_generate]
    exact ⟨_, s, hwrite, hs.geometry_eq,
      Store.intact_of_replaced (Store.consistent_empty ..) hs hlen⟩
  · rw [Pattern.length_generate] at hfull
    exact absurd hids (Nat.not_lt_of_le hfull)

/-- A length that memory has no room for ends the verification before it does anything. -/
theorem verify_of_large (h : Bytes.maxLength < length) (all : Bool) :
    verify g p length all zeroed = .unfinished (.refused (.fault .capacity)) := by
  rw [verify, p.produce_eq_error h]

/-- Any other length is verified with its content. -/
theorem verify_eq_verifyContent (hlength : length ≤ Bytes.maxLength) (all : Bool) :
    verify g p length all zeroed = verifyContent g p length all zeroed (p.generate length) := by
  rw [verify, p.produce_eq_ok hlength]

theorem verify_eq_pastEnd (hlength : length ≤ Bytes.maxLength)
    (hids : Store.firstId + g.idCount length < Word.size) {pos : Nat}
    (hfind : zeroed.find? (length ≤ ·) = some pos) (all : Bool) :
    verify g p length all zeroed = .unfinished (.pastEnd pos length) := by
  obtain ⟨_, s, hwrite, rfl, hs⟩ := exists_written p hlength hids
  have hbehind : zeroed.find? ((p.generate length).length ≤ ·) = some pos := by
    rwa [Pattern.length_generate]
  have hfetch := fetchZeroed_eq_pastEnd hs hbehind
  rw [Pattern.length_generate] at hfetch
  rw [verify_eq_verifyContent hlength]
  unfold verifyContent
  simp only [hwrite, hfetch]

/-- **A verification comes to the zeroed positions.** -/
theorem verify_eq (p : Pattern) (hlength : length ≤ Bytes.maxLength)
    (hids : Store.firstId + g.idCount length < Word.size) (hzeroed : ∀ pos ∈ zeroed, pos < length) :
    ∃ ms blocks, ZeroMismatches ⟨g, p, length⟩ zeroed ms ∧
      verify g p length true zeroed = .listed length ms ∧
      verify g p length false zeroed = match ms with
        | [] => .passed ⟨g.groupCount length, blocks, length⟩
        | m :: _ => .stopped (.mismatch m) := by
  obtain ⟨_, s, hwrite, rfl, hs⟩ := exists_written p hlength hids
  have hwithin : ∀ pos ∈ zeroed, pos < (p.generate length).length := by
    rwa [Pattern.length_generate]
  have hfetch := fetchZeroed_eq_ok hs hwithin
  rw [Pattern.length_generate] at hfetch
  obtain ⟨ms, blocks, hms, hlisted, hcheck⟩ :=
    audit_zeroAt ⟨s.geometry, p, length⟩ hlength hzeroed
  dsimp only at hlisted hcheck
  refine ⟨ms, blocks, hms, ?_, ?_⟩
  · rw [verify_eq_verifyContent hlength]
    unfold verifyContent
    simp [hwrite, hfetch, hlisted]
  · rw [verify_eq_verifyContent hlength]
    unfold verifyContent
    simp only [hwrite, hfetch, hcheck]
    cases ms with
    | nil => rfl
    | cons m rest => rfl

end Verify

/-- A verification finds exactly the zeroed bytes of a file of `length` bytes. -/
structure Detects (g : Geometry) (p : Pattern) (length : Nat) (zeroed : List Nat) : Prop where
  /-- The first position behind the file ends it. -/
  pastEnd : ∀ pos, zeroed.find? (length ≤ ·) = some pos → ∀ all,
    (verify g p length all zeroed).outcome = .failure "" (.pastEnd pos length)
  /-- Without zeroed bytes both modes succeed. -/
  clean : zeroed = [] →
    (verify g p length true zeroed).outcome = .success s!"✓ All {length} bytes match\n" ∧
    ∃ blocks : Nat, (verify g p length false zeroed).outcome = .success
      (s!"✓ Verified {length} bytes in {blocks} blocks across " ++
        s!"{g.groupCount length} block groups\n")
  /-- Else one mode fails with the first of the mismatches, and the other counts them all and shows
  up to twenty. -/
  differs : zeroed ≠ [] → (∀ pos ∈ zeroed, pos < length) →
    ∃ m rest, ZeroMismatches ⟨g, p, length⟩ zeroed (m :: rest) ∧
      (verify g p length false zeroed).outcome =
        .failure s!"✗ {(Error.mismatch m).message}\n" (.refused (.mismatch m)) ∧
      let count := zeroed.dedup.length
      (verify g p length true zeroed).outcome =
        .failure (s!"✗ {count} mismatched bytes\n" ++
          (String.join (((m :: rest).take 20).map fun m => s!"  {m.message}\n") ++
            if 20 < count then s!"  ... and {count - 20} more\n" else ""))
          (.differing count)

/-- **A verification detects exactly the zeroed bytes**, for a file that fits into memory and ids. A
file that is too long for memory is not even generated: whatever is to be zeroed and reported, the
run is broken off. -/
theorem verify_detects (g : Geometry) (p : Pattern) (length : Nat) (zeroed : List Nat) :
    (length ≤ Bytes.maxLength → Store.firstId + g.idCount length < Word.size →
      Detects g p length zeroed) ∧
    (Bytes.maxLength < length → ∀ all,
      (verify g p length all zeroed).outcome = .abort "" .capacity) := by
  constructor
  · intro hlength hids
    refine ⟨fun pos hfind all => ?_, fun hnil => ?_, fun hne hzeroed => ?_⟩
    · rw [verify_eq_pastEnd hlength hids hfind]
      rfl
    · subst hnil
      have hnone : ∀ pos ∈ ([] : List Nat), pos < length := nofun
      obtain ⟨ms, blocks, hms, hlisted, hstopped⟩ := verify_eq p hlength hids hnone
      rw [hlisted, hstopped, hms.eq_nil_iff.2 rfl]
      exact ⟨rfl, blocks, rfl⟩
    · obtain ⟨ms, blocks, hms, hlisted, hstopped⟩ := verify_eq p hlength hids hzeroed
      obtain ⟨m, rest, rfl⟩ := List.exists_cons_of_ne_nil (mt hms.eq_nil_iff.1 hne)
      rw [hlisted, hstopped]
      refine ⟨m, rest, hms, rfl, ?_⟩
      rw [← hms.length_eq]
      rfl
  · intro hlarge all
    rw [verify_of_large hlarge]
    rfl

/-- Of two zeroed bytes, the one in the first block is reported, though it lies behind the other in
the file. -/
theorem verify_detects_repeated :
    6 ≤ Bytes.maxLength ∧ Store.firstId + Geometry.small.idCount 6 < Word.size ∧
      (verify .small .standard 6 true [2, 7, 6]).outcome = .failure "" (.pastEnd 7 6) ∧
      let m : Mismatch := ⟨0, 1, 0, 1, 3, 5, 6, 0⟩
      (verify .small .standard 6 false [5, 2, 5]).outcome =
        .failure s!"✗ {(Error.mismatch m).message}\n" (.refused (.mismatch m)) := by
  have hlength : 6 ≤ Bytes.maxLength := by decide
  have hids : Store.firstId + Geometry.small.idCount 6 < Word.size := by decide
  have hdetects (zeroed : List Nat) : Detects .small .standard 6 zeroed :=
    (verify_detects .small .standard 6 zeroed).1 hlength hids
  refine ⟨hlength, hids, (hdetects _).pastEnd 7 (by decide) true, ?_⟩
  intro m
  obtain ⟨m', rest, hms, hstopped, -⟩ := (hdetects [5, 2, 5]).differs (by decide) (by decide)
  have hperm : (m' :: rest).Perm [⟨0, 0, 1, 0, 0, 2, 3, 0⟩, m] := hms.perm
  have hhead := hperm.mem_iff.1 (.head rest)
  rw [List.mem_pair] at hhead
  rcases hhead with rfl | rfl
  · -- the mismatch at position 2 is not the least
    have hmem : m ∈ rest := by simpa [m] using hperm.mem_iff.2 (.tail _ (.head _))
    have hprecedes := (List.pairwise_cons.1 hms.pairwise).1 m hmem
    simp [Mismatch.Precedes, m] at hprecedes
  · exact hstopped

/-- There are ids for a group of one byte more than memory takes, and no byte of it is zeroed: still
its verification does not succeed. -/
theorem verify_not_detects :
    Store.firstId + Geometry.huge.idCount 9223372036854775808 < Word.size ∧
      ¬ Detects .huge .standard 9223372036854775808 [] := by
  refine ⟨by decide, fun h => ?_⟩
  have hsuccess := (h.clean rfl).1
  rw [verify_of_large (by decide)] at hsuccess
  cases congrArg Outcome.status hsuccess

end Striping.Command
