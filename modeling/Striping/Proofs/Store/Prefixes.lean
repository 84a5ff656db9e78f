import Striping.Proofs.Shortfalls
import Striping.Proofs.Store.Contents
import Striping.Proofs.Words.Stripe

/-!
# Reading any number of bytes of a file

A file can be read up to any length, which is cut into groups without regard to how much each group
holds. Up to the file's end this gives its first bytes. Beyond the end it fails, and never pads
(`Store.readGroups_prefix`).

Where the end is within a group, the group's cells are read up to the one that the end falls into,
and that cell is found too short (`Geometry.gather_end`). Where all groups are full, they are read
and then found too few (`Geometry.joinGroups_beyond`). So the error names lengths of a block in the
first case and of the file in the second (`Geometry.excess`).

All this is said of reading with memory left aside. Reading into memory that is reserved for the
bytes is the same up to the length that memory takes (`Store.readContent_eq`), and a fault beyond
(`Store.readContent_of_large`).
-/

namespace Striping

namespace Geometry

variable (g : Geometry)

/-- The length that is asked for and the one that is found when a file of `length` bytes is read up
to `wanted`. They are those of the file if it ends with a group, and else those of the block that it
ends in. -/
def excess (length wanted : Nat) : Nat × Nat :=
  if length % g.groupCapacity = 0 then (wanted, length)
  else
    let e := g.locate length
    (e.inBlock + min (g.cellSize - e.inCell) (wanted - length), e.inBlock)

theorem locate_inCell (pos : Nat) :
    (g.locate pos).inCell = pos % g.groupCapacity % g.cellSize :=
  place_snd_mod ..

theorem excess_lt {length wanted : Nat} (h : length < wanted) :
    (g.excess length wanted).2 < (g.excess length wanted).1 := by
  have hcell := Nat.mod_lt (length % g.groupCapacity) g.cellSize_pos
  rw [excess]
  split
  · exact h
  · simp only [locate_inCell]
    omega

/-! ## The end of a group -/

variable {g} {content : Bytes} {group length pos : Nat}

/-- Where a cell is cut off, seen from one of its bytes. -/
theorem cellStop_div (hpos : pos < length) : g.cellStop length (pos / g.cellSize) =
    (place g.cellSize g.dataBlocks pos).2 +
      min (g.cellSize - pos % g.cellSize) (length - pos) := by
  have hmod := Nat.mod_lt pos g.cellSize_pos
  have hdm := Nat.div_add_mod' pos g.cellSize
  have hplace := place_cell g.dataBlocks_pos hmod (pos / g.cellSize)
  rw [hdm] at hplace
  rw [cellStop, hplace]
  dsimp only
  omega

theorem getElem?_buffers (content : Bytes) (group : Nat) {i : Nat} (hi : i < g.dataBlocks) :
    (g.buffers content group).data[i]? =
      some (some (g.column (g.groupBytes content group) i)) := by
  simp [buffers, hi]

/-- The buffers of a stored group hold its bytes and no more. -/
theorem holds_buffers_iff :
    (g.buffers content group).Holds g pos ↔ pos < g.groupLength content.length group := by
  have hblock := place_fst_lt g.cellSize_pos g.dataBlocks_pos pos
  rw [Buffers.Holds, getElem?_buffers content group hblock]
  simp only [Option.some.injEq, exists_eq_left', length_column, length_groupBytes]
  rw [g.lt_share_iff hblock, unplace_place g.cellSize_pos]

/-- **Gathering beyond the end of a group fails at its end**, in the block that the group ends
in. -/
theorem gather_end (hlt : g.groupLength content.length group < length)
    (hle : length ≤ g.groupCapacity) : g.gather (g.buffers content group) length =
      .error (.length
        (g.cellStop length (g.groupLength content.length group / g.cellSize))
        (place g.cellSize g.dataBlocks (g.groupLength content.length group)).2) := by
  rcases gather_cases (b := g.buffers content group) hle with
    ⟨-, hall⟩ | ⟨pos, hpos, hnot, hbefore, err, herr, hshort⟩
  · exact absurd (holds_buffers_iff.1 (hall _ hlt)) (Nat.lt_irrefl _)
  · obtain rfl : pos = g.groupLength content.length group := by
      rcases Nat.lt_trichotomy pos (g.groupLength content.length group) with h | h | h
      · exact absurd (holds_buffers_iff.2 h) hnot
      · exact h
      · exact absurd (holds_buffers_iff.1 (hbefore _ h)) (Nat.lt_irrefl _)
    have hblock := place_fst_lt g.cellSize_pos g.dataBlocks_pos
      (g.groupLength content.length group)
    have hcolumn := getElem?_buffers content group hblock
    rw [herr]
    cases hshort with
    | missing hmissing => exact absurd hcolumn (hmissing _)
    | short found hfound _ =>
      rw [hcolumn, Option.some.injEq, Option.some.injEq] at hfound
      rw [← hfound, length_column, length_groupBytes, share_place]

/-! ## The end of a file -/

variable {wanted : Nat}

/-- A full group is gathered as a whole. -/
theorem gather_full (h : content.length ≤ wanted)
    (hfull : group < content.length / g.groupCapacity) :
    g.gather (g.buffers content group) (g.groupLength wanted group) =
      .ok (g.groupBytes content group) := by
  have hwanted := Nat.lt_of_lt_of_le hfull (Nat.div_le_div_right h)
  have hlen : (g.groupBytes content group).length = g.groupCapacity := by
    rw [length_groupBytes, g.groupLength_of_lt_div hfull]
  have hgather := g.gather_columns (b := g.buffers content group) rfl (Nat.le_of_eq hlen)
    (Nat.le_refl _)
  rwa [List.take_length, hlen, ← g.groupLength_of_lt_div hwanted] at hgather

/-- **A group that is not full is found too short** if more is wanted than the file holds. -/
theorem gather_last (h : content.length < wanted) (hmod : content.length % g.groupCapacity ≠ 0) :
    g.gather (g.buffers content (content.length / g.groupCapacity))
        (g.groupLength wanted (content.length / g.groupCapacity)) =
      .error (.length (g.excess content.length wanted).1 (g.excess content.length wanted).2) := by
  have hdm := Nat.div_add_mod' content.length g.groupCapacity
  have hdm' := Nat.div_add_mod' (content.length % g.groupCapacity) g.cellSize
  have hlt := Nat.mod_lt content.length g.groupCapacity_pos
  have hend : g.groupLength content.length (content.length / g.groupCapacity) <
      g.groupLength wanted (content.length / g.groupCapacity) := by
    rw [g.groupLength_div, groupLength]
    omega
  -- the cell that the file ends in does not reach behind the group
  have hcell := g.cell_le_groupCapacity
    (Nat.lt_of_le_of_lt (Nat.div_mul_le_self (content.length % g.groupCapacity) g.cellSize) hlt)
  have hcut : min (g.cellSize - content.length % g.groupCapacity % g.cellSize)
      (g.groupLength wanted (content.length / g.groupCapacity) -
        content.length % g.groupCapacity) =
      min (g.cellSize - (g.locate content.length).inCell) (wanted - content.length) := by
    rw [locate_inCell, groupLength]
    omega
  rw [gather_end hend (g.groupLength_le ..), cellStop_div hend, g.groupLength_div, hcut, excess,
    if_neg hmod]
  rfl

/-- **Joining beyond the end of a file fails**, in the group that it ends in or behind the last
one. -/
theorem joinGroups_beyond (h : content.length < wanted) :
    Store.joinGroups g wanted (g.fileBuffers content) =
      .error (.length (g.excess content.length wanted).1 (g.excess content.length wanted).2) := by
  have hfull : ∀ group < content.length / g.groupCapacity,
      ((fun b : Buffers => g.gather b (g.groupLength wanted b.group)) ∘ g.buffers content) group =
        .ok (g.groupBytes content group) := fun group hgroup => gather_full (Nat.le_of_lt h) hgroup
  rw [Store.joinGroups, fileBuffers, List.mapM_map]
  by_cases hmod : content.length % g.groupCapacity = 0
  · have hcount : g.groupCount content.length = content.length / g.groupCapacity := by
      rw [groupCount, if_pos hmod, Nat.add_zero]
    rw [hcount, mapM_eq_ok fun group hgroup => hfull group (List.mem_range.1 hgroup)]
    dsimp only
    rw [← hcount, g.flatten_groupBytes (g.length_le_groupCount_mul _), if_neg (Nat.ne_of_lt h),
      excess, if_pos hmod]
  · have hcount : g.groupCount content.length = content.length / g.groupCapacity + 1 := by
      rw [groupCount, if_neg hmod]
    rw [hcount, mapM_range_succ_eq_error (fun group hgroup => ⟨_, hfull group hgroup⟩)
      (gather_last h hmod)]

end Geometry

namespace Store

/-! ## Memory -/

theorem assembleGroups_eq (g : Geometry) {length : Nat} (h : length ≤ Bytes.maxLength)
    (groups : List Buffers) : assembleGroups g length groups = joinGroups g length groups := by
  have hassemble : (fun b : Buffers => Word.assemble g b (g.groupLength length b.group)) =
      fun b => g.gather b (g.groupLength length b.group) := by
    funext b
    have hle : g.groupLength length b.group ≤ length :=
      Nat.le_trans (Nat.min_le_left ..) (Nat.sub_le ..)
    exact Word.assemble_eq g b (.inl (Nat.le_trans hle h))
  rw [assembleGroups, Word.reserve_eq_ok h, joinGroups, hassemble]

/-- **Reserving memory changes nothing** for a length that memory has room for. -/
theorem readContent_eq (s : Store) (g : Geometry) {length : Nat} (h : length ≤ Bytes.maxLength)
    (records : List GroupRecord) :
    s.readContent g length records = s.readGroups g length records := by
  rw [readContent, readGroups]
  simp only [assembleGroups_eq g h]

/-- **A length beyond memory is a fault** once the groups are fetched. -/
theorem readContent_of_large {s t : Store} {g : Geometry} {records : List GroupRecord}
    {buffers : List Buffers} (hfetch : s.fetchGroups g records = (.ok buffers, t)) {length : Nat}
    (h : Bytes.maxLength < length) :
    s.readContent g length records = (.error (.fault .capacity), t) := by
  rw [readContent, hfetch]
  dsimp only
  rw [assembleGroups, Word.reserve_eq_error h]

/-! ## Any number of bytes -/

variable {s : Store} {path : String} {first wanted : Nat} {content : Bytes}

/-- **An intact file is not read beyond its end.** -/
theorem Intact.readGroups_beyond (h : Intact s path first content)
    (hlt : content.length < wanted) :
    (s.readGroups s.geometry wanted (s.geometry.records first content.length)).1 =
      .error (.length (s.geometry.excess content.length wanted).1
        (s.geometry.excess content.length wanted).2) := by
  rw [readGroups_fst, h.fetchGroups_eq]
  exact Geometry.joinGroups_beyond hlt

/-- **Any number of bytes of a file is read as a prefix, or not at all**, after any writes, deletes
and reads: if the file is shorter, the error is that of a length that is not reached. -/
theorem readGroups_prefix (g : Geometry) (first : Nat) {calls : List Call}
    (hcalls : ∀ c ∈ calls, c.Plain) {path : String} {content : Bytes}
    (hheld : (empty g first).contents (fun _ => none) calls path = some content) (wanted : Nat) :
    ∃ records, ((empty g first).run calls).groups path = .ok records ∧
      (wanted ≤ content.length → (((empty g first).run calls).readGroups g wanted records).1 =
        .ok (content.take wanted)) ∧
      (content.length < wanted → ∃ expected actual,
        g.excess content.length wanted = (expected, actual) ∧ actual < expected ∧
          (((empty g first).run calls).readGroups g wanted records).1 =
            .error (.length expected actual)) := by
  have hg : ((empty g first).run calls).geometry = g := geometry_run_of_plain g first hcalls
  have hholds := (holds_run_of_plain g first hcalls).holdsAt path
  rw [hheld] at hholds
  obtain ⟨id, hintact⟩ := hholds
  have hprefix : wanted ≤ content.length → _ := hintact.readGroups_eq
  have hbeyond : content.length < wanted → _ := hintact.readGroups_beyond
  have hgroups := hintact.groups_eq
  rw [hg] at hprefix hbeyond hgroups
  exact ⟨_, hgroups, hprefix, fun hlt => ⟨_, _, rfl, g.excess_lt hlt, hbeyond hlt⟩⟩

/-- Files that end within a group, with a group and before the first group. -/
def ending : List Call :=
  [.write "b" [9], .write "a" [1, 2, 3, 4, 5], .delete "b", .write "b" [1, 2, 3, 4, 5, 6, 7, 8],
    .write "c" []]

theorem readGroups_prefix_ending :
    (∀ c ∈ ending, c.Plain) ∧ ∃ a b c,
      ((empty .small 1).run ending).groups "a" = .ok a ∧
      ((empty .small 1).run ending).groups "b" = .ok b ∧
      ((empty .small 1).run ending).groups "c" = .ok c ∧
      (((empty .small 1).run ending).readGroups .small 3 a).1 = .ok [1, 2, 3] ∧
      (((empty .small 1).run ending).readGroups .small 100 a).1 = .error (.length 4 3) ∧
      (((empty .small 1).run ending).readGroups .small 9 b).1 = .error (.length 9 8) ∧
      (((empty .small 1).run ending).readGroups .small 1 c).1 = .error (.length 1 0) := by
  have hcalls : ∀ c ∈ ending, c.Plain := by decide
  have ha : (empty .small 1).contents (fun _ => none) ending "a" = some [1, 2, 3, 4, 5] := by
    decide +kernel
  have hb : (empty .small 1).contents (fun _ => none) ending "b" =
      some [1, 2, 3, 4, 5, 6, 7, 8] := by
    decide +kernel
  have hc : (empty .small 1).contents (fun _ => none) ending "c" = some [] := by decide +kernel
  obtain ⟨a, hgroups, hthree, -⟩ := readGroups_prefix .small 1 hcalls ha 3
  obtain ⟨a', hgroups', -, hhundred⟩ := readGroups_prefix .small 1 hcalls ha 100
  obtain ⟨b, hgroupsb, -, hnine⟩ := readGroups_prefix .small 1 hcalls hb 9
  obtain ⟨c, hgroupsc, -, hone⟩ := readGroups_prefix .small 1 hcalls hc 1
  obtain rfl := Except.ok.inj (hgroups.symm.trans hgroups')
  obtain ⟨_, _, hexcess, -, hwithin⟩ := hhundred (by decide)
  obtain ⟨_, _, hexcessb, -, hfull⟩ := hnine (by decide)
  obtain ⟨_, _, hexcessc, -, hempty⟩ := hone (by decide)
  cases hexcess
  cases hexcessb
  cases hexcessc
  exact ⟨hcalls, a, b, c, hgroups, hgroupsb, hgroupsc, hthree (by decide), hwithin, hfull,
    hempty⟩

end Store

end Striping
