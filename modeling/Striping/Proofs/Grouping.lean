import Striping.Proofs.Splitting
import Striping.Proofs.Words.Stripe

/-!
# Files are tiled by their groups

Three computations cut a file into groups: the number of groups is a quotient rounded up, the length
of a group is what its start leaves of the file, and the content itself is cut into pieces. All three
come down to where a group starts (`Geometry.lt_groupCount_iff`), so they agree for every length
(`Geometry.groups_tile`): the groups that hold anything are those that are counted, all but the last
are full, and a position lies in the file exactly if its group holds it.
-/

namespace Striping.Geometry

variable (g : Geometry)

/-- All groups of a file but the last are full. -/
theorem groupLength_of_succ_lt {length group : Nat} (h : group + 1 < g.groupCount length) :
    g.groupLength length group = g.groupCapacity := by
  have hstart := (g.lt_groupCount_iff length (group + 1)).1 h
  rw [Nat.add_mul, Nat.one_mul] at hstart
  rw [groupLength]
  omega

/-- A position lies in the file if its group reaches to it. -/
theorem lt_length_iff (length pos : Nat) :
    pos < length ↔ pos % g.groupCapacity < g.groupLength length (g.locate pos).group := by
  have hdm := Nat.div_add_mod' pos g.groupCapacity
  have hmod := Nat.mod_lt pos g.groupCapacity_pos
  change _ ↔ _ < min (length - pos / g.groupCapacity * g.groupCapacity) g.groupCapacity
  omega

/-- The groups of a file of `length` bytes, of which there are `count`, have these lengths. -/
structure Tiles (length count : Nat) (lengths : Nat → Nat) : Prop where
  /-- The groups that hold anything are those that are counted. -/
  pos_iff : ∀ group, 0 < lengths group ↔ group < count
  /-- All groups but the last are full. -/
  full : ∀ group, group + 1 < count → lengths group = g.groupCapacity
  /-- The groups hold all bytes of the file. -/
  sum_eq : ((List.range count).map lengths).sum = length
  /-- A position lies in the file if its group reaches to it. -/
  reaches_iff : ∀ pos < Word.size, ∃ c : Coordinate, Word.locate g pos = .ok c ∧
    (pos < length ↔ pos % g.groupCapacity < lengths c.group)

theorem tiles_groupLength (length : Nat) :
    g.Tiles length (g.groupCount length) (g.groupLength length) where
  pos_iff := g.groupLength_pos_iff length
  full _ := g.groupLength_of_succ_lt
  sum_eq := g.sum_groupLength length
  reaches_iff pos hpos := ⟨g.locate pos, Word.locate_eq g hpos, g.lt_length_iff length pos⟩

/-- **The ways of cutting a file into groups agree**, computed in words. Every length has a number of
groups, and every group a length, also where its start is no word; the groups tile the file. A file's
content is cut into as many groups, whose data blocks hold as many bytes. -/
theorem groups_tile :
    (∀ length < Word.size, ∃ count lengths, Word.groupCount g length = .ok count ∧
      (∀ group, Word.groupLength g length group = .ok (lengths group)) ∧
        g.Tiles length count lengths) ∧
    ∀ content : Bytes, content.length ≤ Bytes.maxLength → ∃ groups : List (List Bytes),
      Word.scatterFile g content = .ok groups ∧
      Word.groupCount g content.length = .ok groups.length ∧
      ∀ group blocks, groups[group]? = some blocks →
        Word.groupLength g content.length group = .ok (blocks.map List.length).sum := by
  refine ⟨fun length hlength => ?_, fun content hcontent => ?_⟩
  · exact ⟨_, _, Word.groupCount_eq g hlength, Word.groupLength_eq g hlength,
      g.tiles_groupLength length⟩
  · have hlength : content.length < Word.size := by
      rw [Bytes.maxLength] at hcontent
      rw [Word.size]
      omega
    refine ⟨_, (Word.scatterFile_eq g content).trans (g.scatterFile_eq_ok content), ?_, ?_⟩
    · rw [Word.groupCount_eq g hlength, List.length_map, List.length_range]
    · intro group blocks hblocks
      obtain ⟨-, rfl⟩ := getElem?_map_range_eq_some.1 hblocks
      rw [Word.groupLength_eq g hlength, g.sum_length_columns]

/-- The largest length that is a word fills its last group up to one byte, and the group behind it
starts at no word. Nine bytes take two groups, the second of which holds one. -/
theorem groups_tile_last :
    Word.size - 1 < Word.size ∧
      (∃ count lengths, Word.groupCount small (Word.size - 1) = .ok count ∧
        count = Word.size / small.groupCapacity ∧ lengths (count - 1) = 7 ∧ lengths count = 0 ∧
        small.Tiles (Word.size - 1) count lengths) ∧
      [1, 2, 3, 4, 5, 6, 7, 8, 9].length ≤ Bytes.maxLength ∧
      Word.scatterFile small [1, 2, 3, 4, 5, 6, 7, 8, 9] =
        .ok [[[1, 2, 5, 6], [3, 4, 7, 8]], [[9], []]] ∧
      Word.groupLength small 9 1 = .ok 1 := by
  obtain ⟨htiles, hcut⟩ := small.groups_tile
  obtain ⟨count, lengths, hcount, hlengths, h⟩ := htiles (Word.size - 1) (by decide)
  obtain rfl : Word.size / small.groupCapacity = count :=
    Except.ok.inj (Eq.trans (by decide +kernel) hcount)
  have hlength : ∀ group n, Word.groupLength small (Word.size - 1) group = .ok n →
      lengths group = n := fun group n hn => Except.ok.inj ((hlengths group).symm.trans hn)
  obtain ⟨groups, hgroups, -, hsums⟩ := hcut [1, 2, 3, 4, 5, 6, 7, 8, 9] (by decide)
  have hscattered : Word.scatterFile small [1, 2, 3, 4, 5, 6, 7, 8, 9] =
      .ok [[[1, 2, 5, 6], [3, 4, 7, 8]], [[9], []]] := by decide +kernel
  obtain rfl := Except.ok.inj (hgroups.symm.trans hscattered)
  exact ⟨by decide, ⟨_, lengths, hcount, rfl, hlength _ _ (by decide +kernel),
    hlength _ _ (by decide +kernel), h⟩, by decide, hscattered, hsums 1 _ rfl⟩

end Striping.Geometry
