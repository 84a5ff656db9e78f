import Striping.Proofs.Audit.Verdicts
import Striping.Proofs.Store.Contents

/-!
# Two audits of stored content

Content that a store holds can be audited group by group, as the blocks are, or as the stream that
is read back. Both come down to the list of positions at which the content differs from the pattern
(`Expectation.divergences`): the stream is compared along it (`Expectation.checkStream_eq`), and
the mismatches of the groups are the same ones in another order (`Expectation.perm_divergences`). So
the two audits agree on every content, and each stops at the mismatch that comes first in its order
(`Store.audited_run`).
-/

namespace Striping

namespace Expectation

variable (e : Expectation)

/-! ## Positions that differ -/

/-- The mismatch at a position, with the coordinates that the layout gives it. -/
def mismatchOf (pos : Nat) (actual : UInt8) : Mismatch where
  group := (e.geometry.locate pos).group
  stripe := (e.geometry.locate pos).stripe
  block := (e.geometry.locate pos).block
  inCell := (e.geometry.locate pos).inCell
  inBlock := (e.geometry.locate pos).inBlock
  position := pos
  expected := e.pattern.byteAt pos
  actual

/-- The positions at which content differs from the pattern, in their order. -/
def divergences (content : Bytes) : List Mismatch :=
  content.zipIdx.filterMap fun (actual, pos) =>
    if actual = e.pattern.byteAt pos then none else some (e.mismatchOf pos actual)

theorem mem_divergences_iff {content : Bytes} {m : Mismatch} : m ∈ e.divergences content ↔
    ∃ pos actual, content[pos]? = some actual ∧ actual ≠ e.pattern.byteAt pos ∧
      m = e.mismatchOf pos actual := by
  simp only [divergences, List.mem_filterMap, Prod.exists, List.mk_mem_zipIdx_iff_getElem?,
    Option.ite_none_left_eq_some, Option.some.injEq]
  constructor
  · rintro ⟨actual, pos, hget, hne, hm⟩
    exact ⟨pos, actual, hget, hne, hm.symm⟩
  · rintro ⟨pos, actual, hget, hne, hm⟩
    exact ⟨actual, pos, hget, hne, hm.symm⟩

theorem pairwise_divergences (content : Bytes) :
    (e.divergences content).Pairwise fun m n => m.position < n.position := by
  apply (pairwise_zipIdx content).filterMap _
  rintro ⟨actual, pos⟩ ⟨actual', pos'⟩ hlt m hm n hn
  simp only [Option.ite_none_left_eq_some, Option.some.injEq] at hm hn
  obtain ⟨-, rfl⟩ := hm
  obtain ⟨-, rfl⟩ := hn
  exact hlt

theorem nodup_divergences (content : Bytes) : (e.divergences content).Nodup := by
  apply (e.pairwise_divergences content).imp
  rintro m _ h rfl
  exact Nat.lt_irrefl _ h

/-- **Content has no divergences exactly if it is what the pattern generates.** -/
theorem divergences_eq_nil_iff (content : Bytes) :
    e.divergences content = [] ↔ content = e.pattern.generate content.length := by
  constructor
  · intro hnil
    ext pos : 1
    rw [Pattern.getElem?_generate]
    by_cases h : pos < content.length
    · rw [if_pos h, List.getElem?_eq_getElem h]
      congr 1
      by_contra hne
      have hmem := e.mem_divergences_iff.2 ⟨pos, _, List.getElem?_eq_getElem h, hne, rfl⟩
      simp [hnil] at hmem
    · rw [if_neg h, List.getElem?_eq_none (Nat.le_of_not_lt h)]
  · intro heq
    apply List.eq_nil_iff_forall_not_mem.2
    intro m hm
    obtain ⟨pos, actual, hpos, hne, -⟩ := e.mem_divergences_iff.1 hm
    rw [heq, Pattern.getElem?_generate] at hpos
    split at hpos
    · exact hne (Option.some.inj hpos).symm
    · cases hpos

/-- **The stream is compared along its divergences.** -/
theorem checkStream_eq {content : Bytes} (h : content.length = e.length) :
    e.checkStream content = verdict () (e.divergences content) := by
  unfold checkStream divergences
  rw [if_neg (not_not_intro h)]
  induction content.zipIdx with
  | nil => rfl
  | cons x xs ih =>
    obtain ⟨actual, pos⟩ := x
    by_cases heq : actual = e.pattern.byteAt pos
    · simpa [List.find?_cons, heq] using ih
    · simp [heq, verdict, mismatchOf]

/-- Of mismatches in strict order, the first one is reported. -/
theorem verdict_eq_error_iff_of_pairwise {α : Type} {report : α} {ms : List Mismatch} {err : Error}
    {R : Mismatch → Mismatch → Prop} (hasymm : ∀ m n, R m n → ¬ R n m) (h : ms.Pairwise R) :
    verdict report ms = .error err ↔
      ∃ m ∈ ms, err = .mismatch m ∧ ∀ n ∈ ms, n = m ∨ R m n := by
  rw [verdict_eq_error_iff]
  constructor
  · rintro ⟨m, rest, rfl, rfl⟩
    refine ⟨m, .head _, rfl, fun n hn => ?_⟩
    rcases List.mem_cons.1 hn with hn | hn
    · exact .inl hn
    · exact .inr ((List.pairwise_cons.1 h).1 n hn)
  · rintro ⟨m, hm, rfl, hleast⟩
    cases ms with
    | nil => cases hm
    | cons m₀ rest =>
      rcases List.mem_cons.1 hm with rfl | hrest
      · exact ⟨m, rest, rfl, rfl⟩
      · rcases hleast m₀ (.head _) with rfl | hR
        · exact ⟨m₀, rest, rfl, rfl⟩
        · exact absurd hR (hasymm m₀ m ((List.pairwise_cons.1 h).1 m hrest))

/-! ## The groups of a file -/

variable {content : Bytes}

/-- At a place within the content, both names of a mismatch are one. -/
theorem mismatchAt_eq {block offset : Nat} (hb : block < e.geometry.dataBlocks)
    (ho : offset < e.geometry.blockCapacity) {group : Nat}
    (hpos : e.geometry.position group block offset < e.length) (actual : UInt8) :
    e.mismatchAt group block offset actual =
      e.mismatchOf (e.geometry.position group block offset) actual := by
  have hbyte : e.byteAt (e.geometry.position group block offset) =
      e.pattern.byteAt (e.geometry.position group block offset) :=
    if_neg (Nat.not_le_of_lt hpos)
  simp only [mismatchAt, mismatchOf, e.geometry.locate_position hb ho, hbyte]

theorem data_buffers (g : Geometry) (content : Bytes) (group block : Nat) (column : Bytes) :
    (g.buffers content group).data[block]? = some (some column) ↔
      block < g.dataBlocks ∧ column = g.column (g.groupBytes content group) block := by
  rw [Geometry.buffers, getElem?_map_range_eq_some, Option.some.injEq]

/-- **The mismatches of a stored group are the divergences that the layout puts there.** -/
theorem mem_differences_buffers_iff (hlen : content.length = e.length) {group : Nat}
    {m : Mismatch} : m ∈ e.differences (e.geometry.buffers content group) ↔
      m ∈ e.divergences content ∧ m.group = group := by
  rw [e.mem_differences_iff, e.mem_divergences_iff]
  constructor
  · rintro ⟨block, column, offset, actual, hdata, hget, hne, rfl⟩
    obtain ⟨hb, rfl⟩ := (data_buffers ..).1 hdata
    have ho : offset < e.geometry.blockCapacity :=
      Nat.lt_of_lt_of_le (List.getElem?_eq_some_iff.1 hget).1
        (e.geometry.length_groupColumn_le content hb group)
    rw [e.geometry.getElem?_groupColumn hb ho] at hget
    have hpos : e.geometry.position group block offset < e.length :=
      hlen ▸ (List.getElem?_eq_some_iff.1 hget).1
    change e.byteAt (e.geometry.position group block offset) ≠ actual at hne
    unfold byteAt at hne
    rw [if_neg (Nat.not_le_of_lt hpos)] at hne
    exact ⟨⟨_, actual, hget, hne.symm, e.mismatchAt_eq hb ho hpos actual⟩, rfl⟩
  · rintro ⟨⟨pos, actual, hget, hne, rfl⟩, rfl⟩
    have hb := e.geometry.locate_block_lt pos
    have ho := e.geometry.locate_inBlock_lt pos
    have hposition := e.geometry.position_locate pos
    have hpos : pos < e.length := hlen ▸ (List.getElem?_eq_some_iff.1 hget).1
    refine ⟨(e.geometry.locate pos).block, _, (e.geometry.locate pos).inBlock, actual,
      (data_buffers ..).2 ⟨hb, rfl⟩, ?_, ?_, ?_⟩
    · rw [e.geometry.getElem?_groupColumn hb ho]
      change content[e.geometry.position (e.geometry.locate pos).group _ _]? = _
      rwa [hposition]
    · change e.byteAt (e.geometry.position (e.geometry.locate pos).group _ _) ≠ actual
      rw [hposition, byteAt, if_neg (Nat.not_le_of_lt hpos)]
      exact hne.symm
    · have hplace : e.geometry.position (e.geometry.locate pos).group
          (e.geometry.locate pos).block (e.geometry.locate pos).inBlock < e.length := by
        rwa [hposition]
      have hname := e.mismatchAt_eq hb ho hplace actual
      rw [hposition] at hname
      exact hname.symm

theorem nodup_group_fileBuffers (g : Geometry) (content : Bytes) :
    ((g.fileBuffers content).map (·.group)).Nodup := by
  rw [Geometry.fileBuffers, List.map_map]
  exact List.nodup_range.map fun _ _ h => h

theorem dataLength_buffers (g : Geometry) (content : Bytes) (group : Nat) :
    (g.buffers content group).dataLength = g.groupLength content.length group := by
  rw [Buffers.dataLength, Geometry.buffers, List.length_flatten, List.filterMap_map]
  simp [Function.comp_def, g.sum_share]

/-- **The groups of a file are reported together with the file's bytes.** -/
theorem sum_report_fileBuffers (g : Geometry) (content : Bytes) : ∃ blocks,
    ((g.fileBuffers content).map (·.report)).sum =
      ⟨g.groupCount content.length, blocks, content.length⟩ := by
  have hgroups : (((g.fileBuffers content).map (·.report)).map (·.groups)).sum =
      g.groupCount content.length := by
    simp [Geometry.fileBuffers, Buffers.report, Function.comp_def]
  have hbytes : (((g.fileBuffers content).map (·.report)).map (·.bytes)).sum =
      content.length := by
    simp only [Geometry.fileBuffers, List.map_map, Function.comp_def, Buffers.report,
      dataLength_buffers]
    exact g.sum_groupLength content.length
  exact ⟨_, by rw [Report.sum_eq, hgroups, hbytes]⟩

theorem pairwise_fileDifferences (g : Geometry) (content : Bytes) :
    ((g.fileBuffers content).flatMap e.differences).Pairwise Mismatch.Precedes := by
  rw [List.pairwise_flatMap]
  constructor
  · exact fun b _ => e.pairwise_differences b
  · rw [Geometry.fileBuffers, List.pairwise_map]
    refine List.pairwise_lt_range.imp fun {group group'} hlt m hm n hn => .inl ?_
    rw [e.group_of_mem_differences hm, e.group_of_mem_differences hn]
    exact hlt

/-- **The groups of a file have each of its divergences once.** -/
theorem perm_divergences (hlen : content.length = e.length) :
    ((e.geometry.fileBuffers content).flatMap e.differences).Perm (e.divergences content) := by
  refine (List.perm_ext_iff_of_nodup ?_ (e.nodup_divergences content)).2 fun m => ?_
  · apply (e.pairwise_fileDifferences e.geometry content).imp
    rintro m _ h rfl
    exact h.asymm h
  · rw [Geometry.fileBuffers, List.flatMap_map, List.mem_flatMap]
    simp only [List.mem_range, e.mem_differences_buffers_iff hlen]
    constructor
    · rintro ⟨group, -, hm, -⟩
      exact hm
    · intro hm
      refine ⟨m.group, ?_, hm, rfl⟩
      obtain ⟨pos, actual, hget, -, rfl⟩ := e.mem_divergences_iff.1 hm
      exact e.geometry.locate_group_lt (List.getElem?_eq_some_iff.1 hget).1

/-! ## Both audits of a file -/

theorem groupMismatches_buffers (hlen : content.length = e.length)
    (hmax : content.length ≤ Bytes.maxLength) {group : Nat}
    (hgroup : group < e.geometry.groupCount content.length) :
    e.groupMismatches (e.geometry.buffers content group) =
      .ok (e.differences (e.geometry.buffers content group)) := by
  have hstart := (e.geometry.lt_groupCount_iff content.length group).1 hgroup
  refine e.groupMismatches_eq_ok ?_ ?_ fun block column hdata => ?_
  · simp [Geometry.buffers]
  · change group * e.geometry.groupCapacity < Word.size
    simp only [Bytes.maxLength, Word.size] at *
    omega
  · obtain ⟨hb, rfl⟩ := (data_buffers ..).1 hdata
    have hcolumn := e.geometry.length_groupColumn_le content hb group
    refine ⟨hcolumn, fun offset hoffset => ?_⟩
    have hget := List.getElem?_eq_getElem hoffset
    rw [e.geometry.getElem?_groupColumn hb (Nat.lt_of_lt_of_le hoffset hcolumn)] at hget
    have hpos := (List.getElem?_eq_some_iff.1 hget).1
    change e.geometry.position group block offset < Word.size
    simp only [Bytes.maxLength, Word.size] at *
    omega

theorem fileMismatches_fileBuffers (hlen : content.length = e.length)
    (hmax : content.length ≤ Bytes.maxLength) :
    e.fileMismatches (e.geometry.fileBuffers content) =
      .ok ((e.geometry.fileBuffers content).flatMap e.differences) := by
  have hgroups : ∀ b ∈ e.geometry.fileBuffers content,
      e.groupMismatches b = .ok (e.differences b) := by
    intro b hb
    obtain ⟨group, hgroup, rfl⟩ := List.mem_map.1 hb
    exact e.groupMismatches_buffers hlen hmax (List.mem_range.1 hgroup)
  have hsorted : ((e.geometry.fileBuffers content).flatMap e.differences).Pairwise
      fun m n => before m n = true := by
    apply (e.pairwise_fileDifferences e.geometry content).imp
    exact fun {m n} h => (before_iff m n).2 h.asymm
  rw [e.fileMismatches_eq_ok hgroups, List.mergeSort_of_pairwise hsorted]

theorem checkFile_fileBuffers (hlen : content.length = e.length)
    (hmax : content.length ≤ Bytes.maxLength) :
    e.checkFile e.length (e.geometry.fileBuffers content) =
      verdict ((e.geometry.fileBuffers content).map (·.report)).sum
        ((e.geometry.fileBuffers content).flatMap e.differences) :=
  e.checkFile_eq (nodup_group_fileBuffers ..) (e.fileMismatches_fileBuffers hlen hmax)

/-- Two audits of a file with this content: group by group in the buffers, and as a stream. All
mismatches are listed, and each audit passes exactly if the content is that of the pattern and
otherwise stops at the mismatch that comes first in its order. -/
structure Audited (content : Bytes) (buffers : List Buffers) (stream : Bytes)
    (ms : List Mismatch) : Prop where
  /-- The list is that of the groups. -/
  fileMismatches_eq : e.fileMismatches buffers = .ok ms
  /-- It has every position that differs once. -/
  perm : ms.Perm (e.divergences content)
  checkFile_iff : (∃ report, e.checkFile content.length buffers = .ok report) ↔
    content = e.pattern.generate content.length
  checkStream_iff : e.checkStream stream = .ok () ↔ content = e.pattern.generate content.length
  /-- The first mismatch by group, block and offset. -/
  checkFile_error_iff : ∀ err, e.checkFile content.length buffers = .error err ↔
    ∃ m ∈ ms, err = .mismatch m ∧ ∀ n ∈ ms, n = m ∨ m.Precedes n
  /-- The first mismatch by position. -/
  checkStream_error_iff : ∀ err, e.checkStream stream = .error err ↔
    ∃ m ∈ ms, err = .mismatch m ∧ ∀ n ∈ ms, n = m ∨ m.position < n.position

/-- **The two audits agree on every content.** -/
theorem audited (hlen : content.length = e.length) (hmax : content.length ≤ Bytes.maxLength) :
    e.Audited content (e.geometry.fileBuffers content) content
      ((e.geometry.fileBuffers content).flatMap e.differences) := by
  have hperm := e.perm_divergences hlen
  have hmismatches := e.fileMismatches_fileBuffers hlen hmax
  have hfile := e.checkFile_fileBuffers hlen hmax
  rw [← hlen] at hfile
  have hstream := e.checkStream_eq hlen
  have hnil : (e.geometry.fileBuffers content).flatMap e.differences = [] ↔
      content = e.pattern.generate content.length := by
    rw [← e.divergences_eq_nil_iff, ← List.length_eq_zero_iff, hperm.length_eq,
      List.length_eq_zero_iff]
  refine ⟨hmismatches, hperm, ?_, ?_, fun err => ?_, fun err => ?_⟩
  · rw [hfile, ← hnil]
    simp [verdict_eq_ok_iff]
  · rw [hstream, ← e.divergences_eq_nil_iff]
    simp [verdict_eq_ok_iff]
  · rw [hfile]
    refine verdict_eq_error_iff_of_pairwise (fun m n h h' => ?_)
      (e.pairwise_fileDifferences e.geometry content)
    unfold Mismatch.Precedes at *
    omega
  · rw [hstream, verdict_eq_error_iff_of_pairwise (fun m n h h' => Nat.lt_asymm h h')
      (e.pairwise_divergences content)]
    simp only [hperm.mem_iff]

end Expectation

namespace Store

/-- **Stored content gets the same judgement in both audits.** Let a store reached by writes,
deletes and reads hold content at a path. Then its groups are fetched and its bytes are read, and
for every pattern the audits of the two agree. -/
theorem audited_run (g : Geometry) (pattern : Pattern) (first : Nat) {calls : List Call}
    (hcalls : ∀ c ∈ calls, c.Plain) {path : String} {content : Bytes}
    (hheld : (empty g first).contents (fun _ => none) calls path = some content) :
    let s := (empty g first).run calls
    ∃ records buffers stream, s.groups path = .ok records ∧
      (s.fetchGroups g records).1 = .ok buffers ∧
      (s.readGroups g content.length records).1 = .ok stream ∧
      ∃ ms, Expectation.Audited ⟨g, pattern, content.length⟩ content buffers stream ms := by
  intro s
  have hg : s.geometry = g := geometry_run_of_plain g first hcalls
  have hpath := (holds_run_of_plain g first hcalls).holdsAt path
  rw [hheld] at hpath
  obtain ⟨id, hintact⟩ := hpath
  have hread := hintact.readGroups_eq (Nat.le_refl _)
  rw [List.take_length] at hread
  have hfetch := hintact.fetchGroups_eq
  have hgroups := hintact.groups_eq
  rw [hg] at hread hfetch hgroups
  exact ⟨_, _, content, hgroups, hfetch, hread, _,
    Expectation.audited ⟨g, pattern, content.length⟩ rfl hintact.stored.length_le⟩

/-- A file with wrong bytes at two positions, of which the second comes first in its group. -/
def miswriting : List Call := [.write "b" [7], .write "a" [1, 2, 0, 4, 0, 6]]

theorem audited_run_miswriting :
    (∀ c ∈ miswriting, c.Plain) ∧
      (empty .small 1).contents (fun _ => none) miswriting "a" = some [1, 2, 0, 4, 0, 6] ∧
      ∃ records buffers stream,
        ((empty .small 1).run miswriting).groups "a" = .ok records ∧
        (((empty .small 1).run miswriting).fetchGroups .small records).1 = .ok buffers ∧
        (((empty .small 1).run miswriting).readGroups .small 6 records).1 = .ok stream ∧
        Expectation.checkStream ⟨.small, .standard, 6⟩ stream =
          .error (.mismatch ⟨0, 0, 1, 0, 0, 2, 3, 0⟩) ∧
        Expectation.checkFile ⟨.small, .standard, 6⟩ 6 buffers =
          .error (.mismatch ⟨0, 1, 0, 0, 2, 4, 5, 0⟩) := by
  have hcalls : ∀ c ∈ miswriting, c.Plain := by decide
  have hheld : (empty .small 1).contents (fun _ => none) miswriting "a" =
      some [1, 2, 0, 4, 0, 6] := by decide +kernel
  obtain ⟨records, buffers, stream, hgroups, hfetch, hread, ms, h⟩ :=
    audited_run .small .standard 1 hcalls hheld
  have hms : ∀ m, m ∈ ms ↔ m = ⟨0, 0, 1, 0, 0, 2, 3, 0⟩ ∨ m = ⟨0, 1, 0, 0, 2, 4, 5, 0⟩ := by
    intro m
    have hdivergences : Expectation.divergences ⟨.small, .standard, 6⟩ [1, 2, 0, 4, 0, 6] =
        [⟨0, 0, 1, 0, 0, 2, 3, 0⟩, ⟨0, 1, 0, 0, 2, 4, 5, 0⟩] := by decide +kernel
    rw [h.perm.mem_iff]
    change m ∈ Expectation.divergences ⟨.small, .standard, 6⟩ _ ↔ _
    simp [hdivergences]
  refine ⟨hcalls, hheld, records, buffers, stream, hgroups, hfetch, hread, ?_, ?_⟩
  · refine (h.checkStream_error_iff _).2 ⟨_, (hms _).2 (.inl rfl), rfl, fun n hn => ?_⟩
    rcases (hms n).1 hn with rfl | rfl
    · exact .inl rfl
    · exact .inr (by decide)
  · refine (h.checkFile_error_iff _).2 ⟨_, (hms _).2 (.inr rfl), rfl, fun n hn => ?_⟩
    rcases (hms n).1 hn with rfl | rfl
    · simp [Mismatch.Precedes]
    · exact .inl rfl

end Store

end Striping
