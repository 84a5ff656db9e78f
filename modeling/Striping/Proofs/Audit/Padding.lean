import Striping.Proofs.Audit.Coverage
import Striping.Proofs.Audit.Failures
import Striping.Proofs.Splitting

/-!
# Padded and missing blocks

The blocks of a generated file may come back with zeros behind them, up to the capacity of a block,
or not at all. Every place behind a block belongs to a position behind the file
(`Expectation.byteAt_position`): all groups but the last are full, and the last has no bytes there.
So zeros are what belongs there, and the bytes of the padding that are not zero are the mismatches
(`Expectation.tolerates`). Without padding all of the file is counted
(`Expectation.checkFile_unpadded`).
-/

namespace Striping

/-- What stands behind each block of each group; nothing where the block is absent. -/
abbrev Padding := Nat → Nat → Option Bytes

namespace Padding

variable (padding : Padding)

/-- Every block is there, with nothing behind it. -/
def empty : Padding := fun _ _ => some []

/-- The groups with these data blocks, each block followed by its padding, or absent. -/
def groups (striped : List (List Bytes)) : List Buffers :=
  striped.zipIdx.map fun (blocks, group) => {
    group
    data := blocks.zipIdx.map fun (content, block) => (padding group block).map (content ++ ·)
    parity := [] }

/-- No padded block is longer than a block of the layout. -/
def Fits (g : Geometry) (striped : List (List Bytes)) : Prop :=
  ∀ b ∈ padding.groups striped, ∀ content, some content ∈ b.data →
    content.length ≤ g.blockCapacity

/-- The byte stands behind the block at its place, and it is not zero. -/
def Stray (striped : List (List Bytes)) (x : HeldByte) : Prop :=
  ∃ blocks content bytes, striped[x.group]? = some blocks ∧ blocks[x.block]? = some content ∧
    padding x.group x.block = some bytes ∧ content.length ≤ x.offset ∧
      bytes[x.offset - content.length]? = some x.value ∧ x.value ≠ 0

theorem not_stray_empty (striped : List (List Bytes)) (x : HeldByte) :
    ¬ empty.Stray striped x := by
  rintro ⟨_, _, _, -, -, hbytes, -, hvalue, -⟩
  cases hbytes
  cases hvalue

end Padding

/-! ## Counting blocks -/

/-- The data blocks that are present. -/
def presentBlocks (groups : List Buffers) : List Bytes := groups.flatMap (·.data.filterMap id)

theorem Buffers.sum_report (groups : List Buffers) : (groups.map Buffers.report).sum =
    ⟨groups.length, (presentBlocks groups).countP (!·.isEmpty),
      ((presentBlocks groups).map List.length).sum⟩ := by
  induction groups with
  | nil => rfl
  | cons b groups ih =>
    have hpresent : presentBlocks (b :: groups) = b.data.filterMap id ++ presentBlocks groups :=
      List.flatMap_cons
    have hbytes : ((b.data.filterMap id).map List.length).sum = b.dataLength :=
      List.length_flatten.symm
    rw [List.map_cons, List.sum_cons, ih, hpresent, List.countP_append, List.map_append,
      List.sum_append, hbytes, List.length_cons, Nat.add_comm _ 1]
    rfl

theorem countP_range_lt (c n : Nat) : (List.range n).countP (· < c) = min n c := by
  induction n with
  | zero => simp
  | succ n ih =>
    rw [List.range_succ, List.countP_append, ih, List.countP_singleton]
    by_cases h : n < c
    · rw [if_pos (decide_eq_true h)]
      omega
    · rw [if_neg (by simpa using h)]
      omega

namespace Geometry

variable (g : Geometry)

/-- A block of a group holds bytes if a cell begins there. -/
theorem share_pos_iff {index : Nat} (hi : index < g.dataBlocks) (length : Nat) :
    0 < g.share length index ↔ index < g.cellCount length := by
  rw [g.lt_share_iff hi, g.lt_cellCount_iff, unplace_eq]
  simp

/-- A group has as many blocks with bytes as it has cells, up to all of them. -/
theorem countP_columns (content : Bytes) (group : Nat) :
    (g.columns content group).countP (!·.isEmpty) =
      min g.dataBlocks (g.cellCount (g.groupLength content.length group)) := by
  rw [columns, List.countP_map, ← countP_range_lt]
  refine List.countP_congr fun i hi => ?_
  have hpos := g.share_pos_iff (List.mem_range.1 hi) (g.groupLength content.length group)
  rw [← g.length_groupBytes, ← g.length_column, List.length_pos_iff] at hpos
  simpa using hpos

end Geometry

namespace Expectation

variable (e : Expectation)

/-! ## The generated file -/

/-- The data block at this place of the generated file. -/
def column (group block : Nat) : Bytes :=
  e.geometry.column (e.geometry.groupBytes (e.pattern.generate e.length) group) block

/-- The data blocks of the groups of the generated file. -/
def striped : List (List Bytes) :=
  (List.range (e.geometry.groupCount e.length)).map fun group =>
    (List.range e.geometry.dataBlocks).map (e.column group)

theorem scatterFile_generate :
    e.geometry.scatterFile (e.pattern.generate e.length) = .ok e.striped := by
  rw [e.geometry.scatterFile_eq_ok, Pattern.length_generate]
  rfl

/-- **The byte that belongs to a place is the one that the generated block has there, or zero behind
it.** -/
theorem byteAt_position {block offset : Nat} (hb : block < e.geometry.dataBlocks)
    (ho : offset < e.geometry.blockCapacity) (group : Nat) :
    e.byteAt (e.geometry.position group block offset) =
      (e.column group block)[offset]?.getD 0 := by
  rw [column, e.geometry.getElem?_groupColumn hb ho, Pattern.getElem?_generate, byteAt]
  by_cases h : e.geometry.position group block offset < e.length
  · rw [if_neg (Nat.not_le_of_lt h), if_pos h, Option.getD_some]
  · rw [if_pos (Nat.le_of_not_lt h), if_neg h, Option.getD_none]

/-- A byte of a padded block differs exactly if it stands behind the block and is not zero. -/
theorem byteAt_ne_iff {group block offset : Nat} {bytes : Bytes} {actual : UInt8}
    (hb : block < e.geometry.dataBlocks) (ho : offset < e.geometry.blockCapacity)
    (hget : (e.column group block ++ bytes)[offset]? = some actual) :
    e.byteAt (e.geometry.position group block offset) ≠ actual ↔
      (e.column group block).length ≤ offset ∧
        bytes[offset - (e.column group block).length]? = some actual ∧ actual ≠ 0 := by
  rw [e.byteAt_position hb ho]
  rw [List.getElem?_append] at hget
  split at hget
  · next hlt => simp [hget, Nat.not_le_of_lt hlt]
  · next hge =>
    rw [List.getElem?_eq_none (Nat.le_of_not_lt hge)]
    simp [hget, Nat.le_of_not_lt hge, eq_comm]

/-! ## Padded groups -/

variable (padding : Padding)

/-- The group of the generated file, padded. -/
def paddedGroup (group : Nat) : Buffers where
  group
  data := (List.range e.geometry.dataBlocks).map fun block =>
    (padding group block).map (e.column group block ++ ·)
  parity := []

theorem groups_striped : padding.groups e.striped =
    (List.range (e.geometry.groupCount e.length)).map (e.paddedGroup padding) := by
  rw [Padding.groups, striped, zipIdx_map_range, List.map_map]
  refine List.map_congr_left fun group _ => ?_
  simp only [Function.comp_apply, zipIdx_map_range, List.map_map]
  rfl

theorem nodup_groups_striped : ((padding.groups e.striped).map (·.group)).Nodup := by
  rw [groups_striped, List.map_map]
  exact List.nodup_range.map fun _ _ h => h

variable {e padding} {group : Nat}

theorem data_paddedGroup {block : Nat} {content : Bytes} :
    (e.paddedGroup padding group).data[block]? = some (some content) ↔
      block < e.geometry.dataBlocks ∧
        ∃ bytes, padding group block = some bytes ∧ e.column group block ++ bytes = content := by
  rw [paddedGroup, getElem?_map_range_eq_some, eq_comm (a := some content),
    Option.map_eq_some_iff]

theorem stray_striped_iff {x : HeldByte} : padding.Stray e.striped x ↔
    x.group < e.geometry.groupCount e.length ∧ x.block < e.geometry.dataBlocks ∧
      ∃ bytes, padding x.group x.block = some bytes ∧
        (e.column x.group x.block).length ≤ x.offset ∧
          bytes[x.offset - (e.column x.group x.block).length]? = some x.value ∧ x.value ≠ 0 := by
  constructor
  · rintro ⟨blocks, content, bytes, hblocks, hcontent, hbytes⟩
    obtain ⟨hgroup, rfl⟩ := getElem?_map_range_eq_some.1 hblocks
    obtain ⟨hblock, rfl⟩ := getElem?_map_range_eq_some.1 hcontent
    exact ⟨hgroup, hblock, bytes, hbytes⟩
  · rintro ⟨hgroup, hblock, bytes, hbytes⟩
    exact ⟨_, _, bytes, getElem?_map_range_eq_some.2 ⟨hgroup, rfl⟩,
      getElem?_map_range_eq_some.2 ⟨hblock, rfl⟩, hbytes⟩

section Fits

variable (hfits : padding.Fits e.geometry e.striped)
  (hgroup : group < e.geometry.groupCount e.length)
include hfits hgroup

theorem length_le_of_fits {block : Nat} {content : Bytes}
    (h : (e.paddedGroup padding group).data[block]? = some (some content)) :
    content.length ≤ e.geometry.blockCapacity := by
  refine hfits (e.paddedGroup padding group) ?_ content (List.mem_of_getElem? h)
  rw [groups_striped]
  exact List.mem_map_of_mem (List.mem_range.2 hgroup)

theorem groupMismatches_paddedGroup (hlength : e.length ≤ Bytes.maxLength) :
    e.groupMismatches (e.paddedGroup padding group) =
      .ok (e.differences (e.paddedGroup padding group)) := by
  have hroom := e.geometry.start_add_groupCapacity_le hlength hgroup
  have hcap := e.geometry.groupCapacity_pos
  refine e.groupMismatches_eq_ok ?_ ?_ fun block content hdata => ?_
  · simp [paddedGroup]
  · change group * e.geometry.groupCapacity < Word.size
    omega
  · have hcontent := length_le_of_fits hfits hgroup hdata
    refine ⟨hcontent, fun offset hoffset => ?_⟩
    have hin := unplace_lt e.geometry (data_paddedGroup.1 hdata).1
      (Nat.lt_of_lt_of_le hoffset hcontent)
    change group * e.geometry.groupCapacity + _ < Word.size
    omega

/-- **The mismatches of a padded group are stray bytes**, where zeros were expected. -/
theorem exists_stray_of_mem_differences {m : Mismatch}
    (hm : m ∈ e.differences (e.paddedGroup padding group)) : m.expected = 0 ∧
      ∃ x : HeldByte, padding.Stray e.striped x ∧
        m = e.mismatchAt x.group x.block x.offset x.value := by
  obtain ⟨block, content, offset, actual, hdata, hget, hne, rfl⟩ := e.mem_differences_iff.1 hm
  have hoffset := Nat.lt_of_lt_of_le (List.getElem?_eq_some_iff.1 hget).1
    (length_le_of_fits hfits hgroup hdata)
  obtain ⟨hblock, bytes, hbytes, rfl⟩ := data_paddedGroup.1 hdata
  have hstray := (e.byteAt_ne_iff hblock hoffset hget).1 hne
  constructor
  · change e.byteAt (e.geometry.position group block offset) = 0
    rw [e.byteAt_position hblock hoffset, List.getElem?_eq_none hstray.1]
    rfl
  · exact ⟨⟨group, block, offset, actual⟩,
      stray_striped_iff.2 ⟨hgroup, hblock, bytes, hbytes, hstray⟩, rfl⟩

end Fits

/-- **The stray bytes are mismatches** of their groups. -/
theorem mem_differences_of_stray (hfits : padding.Fits e.geometry e.striped) {x : HeldByte}
    (hx : padding.Stray e.striped x) : e.mismatchAt x.group x.block x.offset x.value ∈
      e.differences (e.paddedGroup padding x.group) := by
  obtain ⟨hgroup, hblock, bytes, hbytes, hle, hvalue, hne⟩ := stray_striped_iff.1 hx
  have hdata := data_paddedGroup.2 ⟨hblock, bytes, hbytes, rfl⟩
  have hget := (List.getElem?_append_right hle).trans hvalue
  have hoffset := Nat.lt_of_lt_of_le (List.getElem?_eq_some_iff.1 hget).1
    (length_le_of_fits hfits hgroup hdata)
  exact e.mem_differences_iff.2 ⟨x.block, _, x.offset, x.value, hdata, hget,
    (e.byteAt_ne_iff hblock hoffset hget).2 ⟨hle, hvalue, hne⟩, rfl⟩

/-! ## The padded file -/

/-- What the audits say of groups with padded blocks: they pass where all padding is zero, and the
stray bytes are the mismatches. -/
structure Tolerates (e : Expectation) (padding : Padding) (striped : List (List Bytes)) : Prop where
  /-- The report counts the blocks that are present and not empty, and their bytes. -/
  passes : (∀ x, ¬ padding.Stray striped x) →
    e.checkFile e.length (padding.groups striped) = .ok ⟨e.geometry.groupCount e.length,
      (presentBlocks (padding.groups striped)).countP (!·.isEmpty),
      ((presentBlocks (padding.groups striped)).map List.length).sum⟩
  fails : (∃ x, padding.Stray striped x) →
    ∃ m, e.checkFile e.length (padding.groups striped) = .error (.mismatch m)
  /-- Each stray byte is listed once, where a zero was expected. -/
  listed : ∃ ms, e.fileMismatches (padding.groups striped) = .ok ms ∧
    ms.Pairwise Mismatch.Precedes ∧ (∀ m ∈ ms, m.expected = 0) ∧
      ∀ m, m ∈ ms ↔ ∃ x, padding.Stray striped x ∧
        m = e.mismatchAt x.group x.block x.offset x.value

theorem fileMismatches_padded (hlength : e.length ≤ Bytes.maxLength)
    (hfits : padding.Fits e.geometry e.striped) : ∃ ms,
      e.fileMismatches (padding.groups e.striped) = .ok ms ∧ (∀ m ∈ ms, m.expected = 0) ∧
        ∀ m, m ∈ ms ↔ ∃ x, padding.Stray e.striped x ∧
          m = e.mismatchAt x.group x.block x.offset x.value := by
  have hlisted : ∀ b ∈ padding.groups e.striped, e.groupMismatches b = .ok (e.differences b) := by
    rw [groups_striped]
    intro b hb
    obtain ⟨group, hgroup, rfl⟩ := List.mem_map.1 hb
    exact groupMismatches_paddedGroup hfits (List.mem_range.1 hgroup) hlength
  have hmem : ∀ m, m ∈ ((padding.groups e.striped).flatMap e.differences).mergeSort before ↔
      ∃ group < e.geometry.groupCount e.length,
        m ∈ e.differences (e.paddedGroup padding group) := by
    intro m
    rw [List.mem_mergeSort, groups_striped, List.flatMap_map, List.mem_flatMap]
    simp only [List.mem_range]
  refine ⟨_, e.fileMismatches_eq_ok hlisted, fun m hm => ?_, fun m => ⟨fun hm => ?_, ?_⟩⟩
  · obtain ⟨group, hgroup, hm⟩ := (hmem m).1 hm
    exact (exists_stray_of_mem_differences hfits hgroup hm).1
  · obtain ⟨group, hgroup, hm⟩ := (hmem m).1 hm
    exact (exists_stray_of_mem_differences hfits hgroup hm).2
  · rintro ⟨x, hx, rfl⟩
    exact (hmem _).2 ⟨x.group, (stray_striped_iff.1 hx).1, mem_differences_of_stray hfits hx⟩

/-- **Zero padding and missing blocks are tolerated**, and no other padding is. -/
theorem tolerates (hlength : e.length ≤ Bytes.maxLength)
    (hfits : padding.Fits e.geometry e.striped) : e.Tolerates padding e.striped := by
  obtain ⟨ms, hlisted, hexpected, hstray⟩ := fileMismatches_padded hlength hfits
  have hnodup := e.nodup_groups_striped padding
  have hcheck := e.checkFile_eq hnodup hlisted
  refine ⟨fun hnone => ?_, fun ⟨x, hx⟩ => ?_, ms, hlisted,
    e.pairwise_fileMismatches hnodup hlisted, hexpected, hstray⟩
  · have hnil : ms = [] := by
      refine List.eq_nil_iff_forall_not_mem.2 fun m hm => ?_
      obtain ⟨x, hx, -⟩ := (hstray m).1 hm
      exact hnone x hx
    have hcount : (padding.groups e.striped).length = e.geometry.groupCount e.length := by
      rw [groups_striped, List.length_map, List.length_range]
    rw [hcheck, hnil, Buffers.sum_report, hcount]
    rfl
  · obtain ⟨m, rest, rfl⟩ :=
      List.exists_cons_of_ne_nil (List.ne_nil_of_mem ((hstray _).2 ⟨x, hx, rfl⟩))
    exact ⟨m, hcheck⟩

variable (e)

theorem presentBlocks_unpadded : presentBlocks (Padding.empty.groups e.striped) =
    (List.range (e.geometry.groupCount e.length)).flatMap
      (e.geometry.columns (e.pattern.generate e.length)) := by
  have hdata : ∀ group, (e.paddedGroup .empty group).data.filterMap id =
      e.geometry.columns (e.pattern.generate e.length) group := fun group => by
    simp [paddedGroup, Padding.empty, column, Geometry.columns, List.filterMap_map]
  rw [groups_striped, presentBlocks, List.flatMap_map]
  simp only [hdata]

theorem fits_empty : Padding.empty.Fits e.geometry e.striped := by
  rw [Padding.Fits, groups_striped]
  intro b hb content hcontent
  obtain ⟨group, -, rfl⟩ := List.mem_map.1 hb
  obtain ⟨block, hget⟩ := List.mem_iff_getElem?.1 hcontent
  obtain ⟨hblock, _, hbytes, rfl⟩ := data_paddedGroup.1 hget
  cases hbytes
  rw [List.append_nil]
  exact e.geometry.length_groupColumn_le _ hblock group

/-- Without padding all blocks and bytes of the file are counted. -/
theorem checkFile_unpadded (hlength : e.length ≤ Bytes.maxLength) :
    e.checkFile e.length (Padding.empty.groups e.striped) =
      .ok ⟨e.geometry.groupCount e.length,
        ((List.range (e.geometry.groupCount e.length)).map fun group =>
          min e.geometry.dataBlocks
            (e.geometry.cellCount (e.geometry.groupLength e.length group))).sum, e.length⟩ := by
  rw [(tolerates hlength e.fits_empty).passes (Padding.not_stray_empty _), presentBlocks_unpadded,
    List.countP_flatMap, List.map_flatMap, List.flatMap_def, List.sum_flatten, List.map_map]
  simp only [Function.comp_def, Geometry.countP_columns, Geometry.sum_length_columns,
    Pattern.length_generate, e.geometry.sum_groupLength]

/-- **Every file that was written correctly passes, whatever zero padding or missing blocks it
has.** Let the blocks of the generated file be followed by padding, up to the capacity of a block, or
be absent. If all padding is zero the file passes, and the report counts what is present; else the
bytes of the padding that are not zero are the mismatches. Without any padding all blocks and bytes
of the file are counted. -/
theorem checkFile_padded (hlength : e.length ≤ Bytes.maxLength) :
    ∃ striped, e.geometry.scatterFile (e.pattern.generate e.length) = .ok striped ∧
      (∀ padding : Padding, padding.Fits e.geometry striped → e.Tolerates padding striped) ∧
      e.checkFile e.length (Padding.empty.groups striped) =
        .ok ⟨e.geometry.groupCount e.length,
          ((List.range (e.geometry.groupCount e.length)).map fun group =>
            min e.geometry.dataBlocks
              (e.geometry.cellCount (e.geometry.groupLength e.length group))).sum, e.length⟩ :=
  ⟨e.striped, e.scatterFile_generate, fun _ => tolerates hlength, e.checkFile_unpadded hlength⟩

/-- Of five bytes, the last stands alone in its stripe. Zeros behind it pass, also where the second
block is absent; a seven in the second block belongs to position 7, and is reported. -/
theorem checkFile_padded_short :
    let e : Expectation := ⟨.small, .standard, 5⟩
    let zeros : Padding := fun _ block => if block = 0 then some [0] else none
    let seven : Padding := fun _ block => if block = 0 then some [0] else some [0, 7]
    e.length ≤ Bytes.maxLength ∧
      zeros.Fits .small [[[1, 2, 5], [3, 4]]] ∧ seven.Fits .small [[[1, 2, 5], [3, 4]]] ∧
      e.checkFile 5 (zeros.groups [[[1, 2, 5], [3, 4]]]) = .ok ⟨1, 1, 4⟩ ∧
      (∃ m, e.checkFile 5 (seven.groups [[[1, 2, 5], [3, 4]]]) = .error (.mismatch m)) ∧
      ∃ ms, e.fileMismatches (seven.groups [[[1, 2, 5], [3, 4]]]) = .ok ms ∧
        ⟨0, 1, 1, 1, 3, 7, 0, 7⟩ ∈ ms := by
  intro e zeros seven
  have hlength : e.length ≤ Bytes.maxLength := by decide
  obtain ⟨striped, hstriped, htolerates, -⟩ := e.checkFile_padded hlength
  have heq : striped = [[[1, 2, 5], [3, 4]]] := by
    have hscatter : e.geometry.scatterFile (e.pattern.generate e.length) =
        .ok [[[1, 2, 5], [3, 4]]] := by decide +kernel
    exact Except.ok.inj (hstriped.symm.trans hscatter)
  subst heq
  have hzeros : zeros.Fits .small [[[1, 2, 5], [3, 4]]] := by
    intro b hb content hcontent
    obtain rfl := List.mem_singleton.1 hb
    change some content ∈ [some [1, 2, 5, 0], none] at hcontent
    obtain rfl : content = [1, 2, 5, 0] := by simpa using hcontent
    decide
  have hseven : seven.Fits .small [[[1, 2, 5], [3, 4]]] := by
    intro b hb content hcontent
    obtain rfl := List.mem_singleton.1 hb
    change some content ∈ [some [1, 2, 5, 0], some [3, 4, 0, 7]] at hcontent
    obtain rfl | rfl : content = [1, 2, 5, 0] ∨ content = [3, 4, 0, 7] := by
      simpa using hcontent
    · decide
    · decide
  have hclean : ∀ x, ¬ zeros.Stray [[[1, 2, 5], [3, 4]]] x := by
    rintro x ⟨_, _, bytes, -, -, hbytes, -, hvalue, hne⟩
    have hzero : bytes = [0] := by
      change (if x.block = 0 then some [0] else none) = some bytes at hbytes
      split at hbytes
      · exact (Option.some.inj hbytes).symm
      · cases hbytes
    subst hzero
    exact hne (List.mem_singleton.1 (List.mem_of_getElem? hvalue))
  have hstray : seven.Stray [[[1, 2, 5], [3, 4]]] ⟨0, 1, 3, 7⟩ :=
    ⟨_, _, _, rfl, rfl, rfl, by decide, rfl, by decide⟩
  obtain ⟨ms, hms, -, -, hmem⟩ := (htolerates seven hseven).listed
  have hpasses := (htolerates zeros hzeros).passes hclean
  exact ⟨hlength, hzeros, hseven, hpasses.trans (by decide +kernel),
    (htolerates seven hseven).fails ⟨_, hstray⟩, ms, hms, (hmem _).2 ⟨_, hstray, by decide⟩⟩

end Expectation

end Striping
