import Striping.Proofs.Audit.Passing

/-!
# What a successful comparison covers

Missing blocks and missing groups are passed over, so a successful comparison says nothing about
them. But it counts the bytes that it compared, and no two of these have the same position
(`Expectation.nodup_positions`). So if the count comes up to the length of the file, every position
of the file is held, at its place and with its byte (`Expectation.checkFile_covers`).
-/

namespace Striping

/-- A list of distinct numbers below its length has each of them. -/
theorem mem_of_nodup_of_lt {xs : List Nat} (hnodup : xs.Nodup) (hlt : ∀ x ∈ xs, x < xs.length)
    {n : Nat} (hn : n < xs.length) : n ∈ xs := by
  have hsub : xs ⊆ List.range xs.length := fun x hx => List.mem_range.2 (hlt x hx)
  have hperm : xs.Perm (List.range xs.length) :=
    (hnodup.subperm hsub).perm_of_length_le (by rw [List.length_range])
  rwa [hperm.mem_iff, List.mem_range]

/-- Of elements with distinct images, one has the image of a given one. -/
theorem filter_eq_singleton {α β : Type} [DecidableEq β] {f : α → β} {xs : List α}
    (h : (xs.map f).Nodup) {x : α} (hx : x ∈ xs) : (xs.filter fun y => f y = f x) = [x] := by
  obtain ⟨before, after, rfl⟩ := List.append_of_mem hx
  rw [List.map_append, List.map_cons, List.nodup_middle, List.nodup_cons, List.mem_append,
    List.mem_map, List.mem_map, not_or] at h
  have hbefore : before.filter (fun y => f y = f x) = [] :=
    List.filter_eq_nil_iff.2 fun y hy heq => h.1.1 ⟨y, hy, of_decide_eq_true heq⟩
  have hafter : after.filter (fun y => f y = f x) = [] :=
    List.filter_eq_nil_iff.2 fun y hy heq => h.1.2 ⟨y, hy, of_decide_eq_true heq⟩
  rw [List.filter_append, List.filter_cons_of_pos (by simp), hbefore, hafter, List.nil_append]

/-- A byte of a data block, with its place in the file. -/
structure HeldByte where
  /-- The group's index in the file. -/
  group : Nat
  /-- The data block's index in the group. -/
  block : Nat
  /-- The byte's offset in the block. -/
  offset : Nat
  /-- The byte itself. -/
  value : UInt8
  deriving DecidableEq, Repr

/-- The position of the byte in a file of this layout. -/
def HeldByte.position (x : HeldByte) (g : Geometry) : Nat := g.position x.group x.block x.offset

namespace Buffers

/-- The bytes of the data blocks that are present. -/
def held (b : Buffers) : List HeldByte :=
  b.data.zipIdx.flatMap fun (slot, block) =>
    (slot.getD []).zipIdx.map fun (value, offset) => ⟨b.group, block, offset, value⟩

theorem mem_held_iff {b : Buffers} {x : HeldByte} : x ∈ b.held ↔ x.group = b.group ∧
    ∃ content, b.data[x.block]? = some (some content) ∧ content[x.offset]? = some x.value := by
  simp only [held, List.mem_flatMap, List.mem_map, Prod.exists, List.mk_mem_zipIdx_iff_getElem?]
  constructor
  · rintro ⟨slot, block, hslot, value, offset, hbyte, rfl⟩
    cases slot with
    | none => cases hbyte
    | some content => exact ⟨rfl, content, hslot, hbyte⟩
  · rintro ⟨hgroup, content, hslot, hbyte⟩
    exact ⟨some content, x.block, hslot, x.value, x.offset, hbyte, by rw [← hgroup]⟩

theorem length_held (b : Buffers) : b.held.length = b.dataLength := by
  have hslots : ∀ (slots : List (Option Bytes)) (k : Nat),
      ((slots.zipIdx k).map fun x => (x.1.getD []).length).sum =
        (slots.filterMap id).flatten.length := by
    intro slots
    induction slots with
    | nil => exact fun _ => rfl
    | cons slot slots ih =>
      intro k
      rw [List.zipIdx_cons, List.map_cons, List.sum_cons, ih]
      cases slot with
      | none => simp
      | some content => simp
  rw [held, dataLength, ← hslots b.data 0, List.length_flatMap]
  simp only [List.length_map, List.length_zipIdx]

/-- No two bytes of a group are at one place. -/
theorem pairwise_held (b : Buffers) :
    b.held.Pairwise fun x y => x.block ≠ y.block ∨ x.offset ≠ y.offset := by
  unfold held
  rw [List.pairwise_flatMap]
  constructor
  · rintro ⟨slot, block⟩ -
    rw [List.pairwise_map]
    exact (Expectation.pairwise_zipIdx _).imp fun hlt => .inr (Nat.ne_of_lt hlt)
  · apply (Expectation.pairwise_zipIdx b.data).imp
    rintro ⟨slot, block⟩ ⟨slot', block'⟩ hlt x hx y hy
    obtain ⟨_, -, rfl⟩ := List.mem_map.1 hx
    obtain ⟨_, -, rfl⟩ := List.mem_map.1 hy
    exact .inl (Nat.ne_of_lt hlt)

/-- No two bytes of a file are at one place, if no two groups have the same index. -/
theorem pairwise_flatMap_held {groups : List Buffers} (hgroups : (groups.map (·.group)).Nodup) :
    (groups.flatMap held).Pairwise fun x y =>
      x.group ≠ y.group ∨ x.block ≠ y.block ∨ x.offset ≠ y.offset := by
  rw [List.pairwise_flatMap]
  constructor
  · exact fun b _ => b.pairwise_held.imp .inr
  · apply (List.pairwise_map.1 hgroups).imp
    intro b b' hne x hx y hy
    rw [← (mem_held_iff.1 hx).1, ← (mem_held_iff.1 hy).1] at hne
    exact .inl hne

end Buffers

namespace Expectation

variable {e : Expectation} {groups : List Buffers}

/-- A byte of a group that passes is within the layout, and it is the one that belongs to its
position. -/
theorem Passes.of_mem_held {b : Buffers} (hb : e.Passes b) {x : HeldByte} (hx : x ∈ b.held) :
    x.block < e.geometry.dataBlocks ∧ x.offset < e.geometry.blockCapacity ∧
      e.byteAt (x.position e.geometry) = x.value := by
  obtain ⟨hgroup, content, hslot, hbyte⟩ := Buffers.mem_held_iff.1 hx
  have hblock := (List.getElem?_eq_some_iff.1 hslot).1
  have hoffset := (List.getElem?_eq_some_iff.1 hbyte).1
  refine ⟨Nat.lt_of_lt_of_le hblock hb.data_le,
    Nat.lt_of_lt_of_le hoffset (hb.length_le _ content hslot), ?_⟩
  rw [HeldByte.position, hgroup]
  exact (hb.agrees _ content hslot _ _ hbyte).2

/-- The coordinates of the position of a byte are its place. -/
theorem Passes.locate_position {b : Buffers} (hb : e.Passes b) {x : HeldByte} (hx : x ∈ b.held) :
    x.group = (e.geometry.locate (x.position e.geometry)).group ∧
      x.block = (e.geometry.locate (x.position e.geometry)).block ∧
        x.offset = (e.geometry.locate (x.position e.geometry)).inBlock := by
  obtain ⟨hblock, hoffset, -⟩ := hb.of_mem_held hx
  exact (e.geometry.position_eq_iff hblock hoffset x.group _).1 rfl

/-- **No two bytes of groups that pass have the same position.** -/
theorem nodup_positions (hgroups : (groups.map (·.group)).Nodup)
    (hpass : ∀ b ∈ groups, e.Passes b) :
    ((groups.flatMap Buffers.held).map (·.position e.geometry)).Nodup := by
  apply List.pairwise_map.2
  refine (Buffers.pairwise_flatMap_held hgroups).imp_of_mem fun {x y} hx hy hne heq => ?_
  obtain ⟨b, hb, hx⟩ := List.mem_flatMap.1 hx
  obtain ⟨b', hb', hy⟩ := List.mem_flatMap.1 hy
  obtain ⟨hgroup, hblock, hoffset⟩ := (hpass b hb).locate_position hx
  obtain ⟨hgroup', hblock', hoffset'⟩ := (hpass b' hb').locate_position hy
  rw [heq] at hgroup hblock hoffset
  rcases hne with hne | hne | hne
  · exact hne (hgroup.trans hgroup'.symm)
  · exact hne (hblock.trans hblock'.symm)
  · exact hne (hoffset.trans hoffset'.symm)

theorem bytes_sum_report (groups : List Buffers) :
    (groups.map Buffers.report).sum.bytes = (groups.flatMap Buffers.held).length := by
  rw [Report.sum_eq, List.length_flatMap]
  simp only [List.map_map, Buffers.length_held]
  rfl

/-- **The count of a successful comparison measures what it covers.** If no two groups have the same
index, the bytes that were compared have distinct positions, so the report counts positions. If
these lie within the file and there are as many as the file has, then each position of the file is
held once, at its coordinates, by the byte of the pattern. -/
theorem checkFile_covers (hgroups : (groups.map (·.group)).Nodup) {report : Report}
    (h : e.checkFile e.length groups = .ok report) :
    let held := groups.flatMap Buffers.held
    (held.map (·.position e.geometry)).Nodup ∧
      report.bytes = (held.map (·.position e.geometry)).toFinset.card ∧
      ((∀ x ∈ held, x.position e.geometry < e.length) → report.bytes = e.length →
        ∀ pos < e.length, (held.filter fun x => x.position e.geometry = pos) =
          [⟨(e.geometry.locate pos).group, (e.geometry.locate pos).block,
            (e.geometry.locate pos).inBlock, e.pattern.byteAt pos⟩]) := by
  intro held
  obtain ⟨-, hpass, rfl⟩ := e.checkFile_eq_ok_iff.1 h
  have hnodup := e.nodup_positions hgroups hpass
  have hbytes := bytes_sum_report groups
  refine ⟨hnodup, ?_, fun hwithin hfull pos hpos => ?_⟩
  · rw [List.toFinset_card_of_nodup hnodup, List.length_map, hbytes]
  · have hlength : (held.map (·.position e.geometry)).length = e.length := by
      rw [List.length_map, ← hbytes, hfull]
    have hmem : pos ∈ held.map (·.position e.geometry) := by
      refine mem_of_nodup_of_lt hnodup (fun p hp => ?_) (hlength.symm ▸ hpos)
      obtain ⟨x, hx, rfl⟩ := List.mem_map.1 hp
      exact hlength.symm ▸ hwithin x hx
    obtain ⟨x, hx, rfl⟩ := List.mem_map.1 hmem
    obtain ⟨b, hb, hxb⟩ := List.mem_flatMap.1 hx
    obtain ⟨-, -, hvalue⟩ := (hpass b hb).of_mem_held hxb
    obtain ⟨hgroup, hblock, hoffset⟩ := (hpass b hb).locate_position hxb
    rw [byteAt, if_neg (Nat.not_le_of_lt hpos)] at hvalue
    rw [filter_eq_singleton hnodup hx, ← hgroup, ← hblock, ← hoffset, hvalue]

/-- Nine bytes in nine places, the second group first: the byte at position 4 begins the second cell
of the first block. -/
theorem checkFile_covers_full :
    let e : Expectation := ⟨.small, .standard, 9⟩
    let groups : List Buffers := [.ofData 1 [[9]], .ofData 0 [[1, 2, 5, 6], [3, 4, 7, 8]]]
    (groups.map (·.group)).Nodup ∧ e.checkFile 9 groups = .ok ⟨2, 3, 9⟩ ∧
      (∀ x ∈ groups.flatMap Buffers.held, x.position .small < 9) ∧
      ((groups.flatMap Buffers.held).filter fun x => x.position .small = 4) = [⟨0, 0, 2, 5⟩] := by
  intro e groups
  have hgroups : (groups.map (·.group)).Nodup := by decide
  have hcheck : e.checkFile 9 groups = .ok ⟨2, 3, 9⟩ := by decide +kernel
  have hwithin : ∀ x ∈ groups.flatMap Buffers.held, x.position .small < 9 := by decide +kernel
  have hheld := (checkFile_covers hgroups hcheck).2.2 hwithin rfl 4 (by decide)
  exact ⟨hgroups, hcheck, hwithin, hheld.trans (by decide +kernel)⟩

end Expectation

end Striping
