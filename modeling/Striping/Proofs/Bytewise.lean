import Striping.Proofs.Shortfalls
import Striping.Proofs.Words.Stripe

/-!
# Gathering byte by byte

Gathering reads runs of bytes, but what it answers is said byte by byte. `Geometry.Reads` is the
byte that the buffers hold for an offset of the group, at the place that the layout gives it.
Gathering succeeds exactly if there is one for each offset, and gives these bytes
(`Geometry.gather_eq_ok_iff`); otherwise the first offset without one decides the error
(`Geometry.AnswersBytes`). The loop ends because each run is a part of a cell that is not empty and
not longer than what is left (`Geometry.run_advances`). So much is answered wherever memory can be
reserved for the bytes (`Geometry.assemble_exact`).
-/

namespace Striping.Geometry

variable (g : Geometry)

/-- The buffers hold this byte at the place of offset `pos` of the group. -/
def Reads (b : Buffers) (pos : Nat) (byte : UInt8) : Prop :=
  ∃ block offset content, Word.place g.cellSize g.dataBlocks pos = .ok (block, offset) ∧
    b.data[block]? = some (some content) ∧ content[offset]? = some byte

/-- **A run advances within its cell**: it has a byte, and ends neither behind the cell nor behind
the first `length` bytes of the group. -/
theorem run_advances {length pos : Nat} (hlen : length ≤ g.groupCapacity) (hpos : pos < length) :
    ∃ block offset n, Word.place g.cellSize g.dataBlocks pos = .ok (block, offset) ∧
      Word.run g length pos offset = .ok n ∧ 0 < n ∧ pos + n ≤ length ∧
        offset % g.cellSize + n ≤ g.cellSize := by
  have hcap := g.groupCapacity_lt
  have hmod := Nat.mod_lt (place g.cellSize g.dataBlocks pos).2 g.cellSize_pos
  have hrun := Word.run_eq g (place g.cellSize g.dataBlocks pos).2 hpos
  exact ⟨_, (place g.cellSize g.dataBlocks pos).2, _, Word.place_eq_of_lt g (by omega), hrun,
    Word.run_pos g hpos hrun, by omega, by omega⟩

variable {g} {b : Buffers} {length pos : Nat}

theorem reads_iff (h : pos < Word.size) {byte : UInt8} : g.Reads b pos byte ↔
    ∃ content, b.data[(place g.cellSize g.dataBlocks pos).1]? = some (some content) ∧
      content[(place g.cellSize g.dataBlocks pos).2]? = some byte := by
  rw [Reads, Word.place_eq_of_lt g h]
  constructor
  · rintro ⟨block, offset, content, ⟨⟩, hcontent, hbyte⟩
    exact ⟨content, hcontent, hbyte⟩
  · rintro ⟨content, hcontent, hbyte⟩
    exact ⟨_, _, content, rfl, hcontent, hbyte⟩

theorem holds_iff_exists_reads (h : pos < Word.size) :
    b.Holds g pos ↔ ∃ byte, g.Reads b pos byte := by
  simp only [reads_iff h]
  constructor
  · rintro ⟨content, hcontent, hlt⟩
    exact ⟨_, content, hcontent, List.getElem?_eq_getElem hlt⟩
  · rintro ⟨byte, content, hcontent, hbyte⟩
    exact ⟨content, hcontent, (List.getElem?_eq_some_iff.1 hbyte).1⟩

theorem gather_eq_ok_of_reads {out : Bytes} (hlen : out.length ≤ g.groupCapacity)
    (h : ∀ pos < out.length, ∃ byte, g.Reads b pos byte ∧ out[pos]? = some byte) :
    g.gather b out.length = .ok out := by
  refine g.gather_eq_ok hlen fun pos hpos => ?_
  obtain ⟨byte, hreads, hbyte⟩ := h pos hpos
  have hcap := g.groupCapacity_lt
  obtain ⟨content, hcontent, hread⟩ := (reads_iff (by omega)).1 hreads
  exact ⟨content, hcontent, hread.trans hbyte.symm⟩

/-- The bytes that are read at the first offsets, in order. -/
theorem exists_reads (h : ∀ pos < length, ∃ byte, g.Reads b pos byte) : ∃ out : Bytes,
    out.length = length ∧ ∀ pos < length, ∃ byte, g.Reads b pos byte ∧ out[pos]? = some byte := by
  choose! byte hbyte using h
  refine ⟨(List.range length).map byte, by simp, fun pos hpos => ⟨byte pos, hbyte pos hpos, ?_⟩⟩
  exact getElem?_map_range_eq_some.2 ⟨hpos, rfl⟩

/-- **Gathering gives the bytes that are read**, if there is one for each offset. -/
theorem gather_eq_ok_iff (hlen : length ≤ g.groupCapacity) {out : Bytes} :
    g.gather b length = .ok out ↔ out.length = length ∧
      ∀ pos < length, ∃ byte, g.Reads b pos byte ∧ out[pos]? = some byte := by
  have hcap := g.groupCapacity_lt
  constructor
  · intro hok
    rcases gather_cases (b := b) hlen with ⟨-, hall⟩ | ⟨-, -, -, -, err, herr, -⟩
    · have hread : ∀ pos < length, ∃ byte, g.Reads b pos byte := fun pos hpos =>
        (holds_iff_exists_reads (by omega)).1 (hall pos hpos)
      obtain ⟨out', rfl, hout'⟩ := exists_reads hread
      cases hok.symm.trans (gather_eq_ok_of_reads hlen hout')
      exact ⟨rfl, hout'⟩
    · cases hok.symm.trans herr
  · rintro ⟨rfl, h⟩
    exact gather_eq_ok_of_reads hlen h

/-- What is answered for the first `length` bytes of a group, byte by byte. -/
structure AnswersBytes (g : Geometry) (b : Buffers) (length : Nat) (answer : Except Error Bytes) :
    Prop where
  /-- A length that the layout has no room for is refused. -/
  tooLong : g.groupCapacity < length →
    answer = .error (.layout (.groupTooLong length g.groupCapacity))
  /-- Any other is answered with bytes if there is one for each offset of the group. -/
  ok_iff : length ≤ g.groupCapacity →
    ((∃ out, answer = .ok out) ↔ ∀ pos < length, ∃ byte, g.Reads b pos byte)
  /-- These are the answer. -/
  bytes : length ≤ g.groupCapacity → ∀ out, answer = .ok out → out.length = length ∧
    ∀ pos < length, ∃ byte, g.Reads b pos byte ∧ out[pos]? = some byte
  /-- The first offset without a byte tells the error: its block is missing or too short. -/
  first : length ≤ g.groupCapacity → ∀ err, answer = .error err → ∃ pos < length,
    (¬ ∃ byte, g.Reads b pos byte) ∧ (∀ p < pos, ∃ byte, g.Reads b p byte) ∧
      g.Shortfall b length pos err

theorem answersBytes_gather (g : Geometry) (b : Buffers) (length : Nat) :
    g.AnswersBytes b length (g.gather b length) := by
  have hcap := g.groupCapacity_lt
  have hholds : length ≤ g.groupCapacity → ∀ pos < length,
      (b.Holds g pos ↔ ∃ byte, g.Reads b pos byte) := fun hlen pos hpos =>
    holds_iff_exists_reads (by omega)
  refine ⟨fun hlen => if_pos hlen, fun hlen => ?_, fun hlen out => (gather_eq_ok_iff hlen).1,
    fun hlen err herr => ?_⟩
  · rcases gather_cases (b := b) hlen with ⟨hok, hall⟩ | ⟨pos, hpos, hnot, -, err, herr, -⟩
    · exact iff_of_true hok fun pos hpos => (hholds hlen pos hpos).1 (hall pos hpos)
    · refine iff_of_false ?_ fun hall => hnot ((hholds hlen pos hpos).2 (hall pos hpos))
      rintro ⟨out, hok⟩
      cases hok.symm.trans herr
  · rcases gather_cases (b := b) hlen with
      ⟨⟨out, hok⟩, -⟩ | ⟨pos, hpos, hnot, hbefore, err', herr', hshort⟩
    · cases hok.symm.trans herr
    · cases herr.symm.trans herr'
      exact ⟨pos, hpos, mt (hholds hlen pos hpos).2 hnot,
        fun p hp => (hholds hlen p (Nat.lt_trans hp hpos)).1 (hbefore p hp), hshort⟩

/-- **Assembling a group is reading it byte by byte**, in words and for any buffers. Each run of the
loop advances, so it ends. The answer is the one that the bytes decide, for every length that memory
has room for or that the layout refuses. Any other length is a fault before a byte is looked for. -/
theorem assemble_exact (g : Geometry) (b : Buffers) (length : Nat) :
    (length ≤ g.groupCapacity → ∀ pos < length, ∃ block offset n,
      Word.place g.cellSize g.dataBlocks pos = .ok (block, offset) ∧
        Word.run g length pos offset = .ok n ∧ 0 < n ∧ pos + n ≤ length ∧
          offset % g.cellSize + n ≤ g.cellSize) ∧
    (length ≤ Bytes.maxLength ∨ g.groupCapacity < length →
      g.AnswersBytes b length (Word.assemble g b length)) ∧
    (Bytes.maxLength < length → length ≤ g.groupCapacity →
      Word.assemble g b length = .error (.fault .capacity)) := by
  refine ⟨fun hlen pos hpos => g.run_advances hlen hpos, fun h => ?_, Word.assemble_of_large g b⟩
  rw [Word.assemble_eq g b h]
  exact g.answersBytes_gather b length

/-- Without the second block two bytes are gathered, and a third is not. With it the fifth byte is
the first one missing: for this byte the first block has to reach up to offset three. -/
theorem assemble_exact_short :
    let missing : Buffers := ⟨7, [some [1, 2, 5]], []⟩
    let short : Buffers := ⟨7, [some [1, 2], some [3, 4]], []⟩
    (2 ≤ small.groupCapacity ∧ Word.assemble small missing 2 = .ok [1, 2] ∧
        ∀ pos < 2, ∃ byte, small.Reads missing pos byte ∧ [1, 2][pos]? = some byte) ∧
      (Word.assemble small missing 3 = .error (.layout (.missingBlock 7 1)) ∧
        ∃ pos < 3, small.Shortfall missing 3 pos (.layout (.missingBlock 7 1))) ∧
      (Word.assemble small short 5 = .error (.length 3 2) ∧
        ∃ pos < 5, small.Shortfall short 5 pos (.length 3 2)) ∧
      small.groupCapacity < 9 ∧
        Word.assemble small short 9 = .error (.layout (.groupTooLong 9 small.groupCapacity)) := by
  intro missing short
  have hmemory (length : Nat) (h : length ≤ 9) :
      length ≤ Bytes.maxLength ∨ small.groupCapacity < length :=
    .inl (Nat.le_trans h (by decide))
  have hgathered : Word.assemble small missing 2 = .ok [1, 2] := by
    rw [Word.assemble_eq small missing (hmemory 2 (by decide))]
    decide +kernel
  have hmissing : Word.assemble small missing 3 = .error (.layout (.missingBlock 7 1)) := by
    rw [Word.assemble_eq small missing (hmemory 3 (by decide))]
    decide +kernel
  have hshort : Word.assemble small short 5 = .error (.length 3 2) := by
    rw [Word.assemble_eq small short (hmemory 5 (by decide))]
    decide +kernel
  have hlong : small.groupCapacity < 9 := by decide
  have hexact (b : Buffers) (length : Nat) (h : length ≤ 9) :=
    (assemble_exact small b length).2.1 (hmemory length h)
  have hbytes := (hexact missing 2 (by decide)).bytes (by decide) _ hgathered
  obtain ⟨pos, hpos, -, -, hfirst⟩ := (hexact missing 3 (by decide)).first (by decide) _ hmissing
  obtain ⟨pos', hpos', -, -, hfirst'⟩ := (hexact short 5 (by decide)).first (by decide) _ hshort
  exact ⟨⟨by decide, hgathered, hbytes.2⟩, ⟨hmissing, pos, hpos, hfirst⟩,
    ⟨hshort, pos', hpos', hfirst'⟩, hlong, (hexact short 9 (by decide)).tooLong hlong⟩

/-- The layout has room for one byte more than memory has. Without a block no byte of it can be read,
but that is not what is answered. -/
theorem assemble_not_answersBytes :
    9223372036854775808 ≤ huge.groupCapacity ∧
      ¬ huge.AnswersBytes ⟨0, [none], []⟩ 9223372036854775808
        (Word.assemble huge ⟨0, [none], []⟩ 9223372036854775808) := by
  have hcap : 9223372036854775808 ≤ huge.groupCapacity := by decide
  refine ⟨hcap, fun h => ?_⟩
  obtain ⟨pos, -, -, -, hshort⟩ := h.first hcap _ (Word.assemble_huge _)
  cases hshort

end Striping.Geometry
