import Striping.Proofs.Audit.Refusals
import Striping.Proofs.Bytewise
import Striping.Proofs.Sharing

/-!
# Words are enough for every layout

What a `Geometry` promises bounds all that is computed from it, so 64-bit words carry the
computations of the layout, of scattering and gathering, and of auditing without a fault: each
answers what its exact version does (`Geometry.exactInWords`). This is so up to the bounds
themselves, for a group of 256 blocks that holds as many bytes as a word can count. Only memory is
shorter than that: to assemble more bytes than it takes is a fault, though no number overflows.

Where the exact version refuses its arguments, so does the one in words, and a refusal is not a
fault: for every computation that can refuse, a lemma says so of the exact version. What the
versions in words leave to natural numbers is a word as well: the position that the loop of
gathering goes on from, the byte of a pattern, and the last index or offset that a refusal names.
-/

namespace Striping

/-- A computation in words answers what the exact one does, and not with a fault. -/
def Word.Exact {α : Type} (inWords exact : Except Error α) : Prop :=
  inWords = exact ∧ ∀ fault, inWords ≠ .error (.fault fault)

theorem Word.exact_of_eq {α : Type} {inWords exact : Except Error α} (h : inWords = exact)
    (hfault : ∀ fault, exact ≠ .error (.fault fault)) : Word.Exact inWords exact :=
  ⟨h, fun fault hinWords => hfault fault (h.symm.trans hinWords)⟩

namespace Geometry

variable (g : Geometry)

/-! ## A refusal by the layout is no fault -/

theorem fileOffset_ne_fault (group block offset : Nat) (fault : Fault) :
    g.fileOffset group block offset ≠ .error (.fault fault) := by
  intro h
  cases fileOffset_eq_error_iff.1 h

theorem blockLength_ne_fault (length index : Nat) (fault : Fault) :
    g.blockLength length index ≠ .error (.fault fault) := by
  intro h
  cases g.blockLength_eq_error_iff.1 h

theorem scatter_ne_fault (bytes : Bytes) (fault : Fault) :
    g.scatter bytes ≠ .error (.fault fault) := by
  intro h
  rcases Nat.lt_or_ge g.groupCapacity bytes.length with hlen | hlen
  · cases h.symm.trans (g.scatter_eq_error hlen)
  · cases h.symm.trans (g.scatter_eq_ok hlen)

theorem gather_ne_fault (b : Buffers) (length : Nat) (fault : Fault) :
    g.gather b length ≠ .error (.fault fault) := by
  intro h
  rcases Nat.lt_or_ge g.groupCapacity length with hlen | hlen
  · cases h.symm.trans (if_pos hlen)
  · rcases gather_cases (b := b) hlen with ⟨⟨bytes, hok⟩, -⟩ | ⟨pos, -, -, -, err, herr, hshort⟩
    · cases h.symm.trans hok
    · cases h.symm.trans herr
      cases hshort

end Geometry

namespace Expectation

/-! ## A refusal by an audit is no fault -/

variable {e : Expectation} {b : Buffers}

/-- Comparing a group fails with a mismatch or with what listing its mismatches is refused for. -/
theorem mismatch_or_refusedAt {err : Error} (h : e.checkGroup b = .error err) :
    (∃ m, err = .mismatch m) ∨ ∃ block offset, e.RefusedAt b block offset err := by
  cases hlist : e.groupMismatches b with
  | ok found =>
    rw [e.checkGroup_eq hlist] at h
    obtain ⟨m, -, -, rfl⟩ := verdict_eq_error_iff.1 h
    exact .inl ⟨m, rfl⟩
  | error err' =>
    obtain ⟨block, offset, hrefused⟩ := e.exists_refusedAt hlist
    obtain ⟨err'', herr, hstops⟩ := e.stopsBy_of_refusedAt hrefused
    cases h.symm.trans herr
    cases hstops with
    | mismatch m => exact .inl ⟨m, rfl⟩
    | refusal => exact .inr ⟨block, offset, hrefused⟩

theorem checkGroup_ne_fault (fault : Fault) : e.checkGroup b ≠ .error (.fault fault) := by
  intro h
  rcases mismatch_or_refusedAt h with ⟨m, hm⟩ | ⟨block, offset, hrefused⟩
  · cases hm
  · cases hrefused

theorem groupMismatches_ne_fault (fault : Fault) :
    e.groupMismatches b ≠ .error (.fault fault) := by
  intro h
  obtain ⟨block, offset, hrefused⟩ := e.exists_refusedAt h
  cases hrefused

/-- An audit of the group, in one way or the other, is refused with this error. -/
def Refuses (e : Expectation) (b : Buffers) (err : Error) : Prop :=
  Word.checkGroup e b = .error err ∨ Word.groupMismatches e b = .error err

theorem exists_refusedAt_of_refuses {err : Error} (hm : err.mismatch? = none)
    (h : e.Refuses b err) : ∃ block offset, e.RefusedAt b block offset err := by
  rw [Refuses, Word.checkGroup_eq, Word.groupMismatches_eq] at h
  rcases h with hcheck | hlist
  · rcases mismatch_or_refusedAt hcheck with ⟨m, rfl⟩ | hrefused
    · cases hm
    · exact hrefused
  · exact e.exists_refusedAt hlist

/-- A group with too many data blocks has a last one. -/
theorem sub_of_refuses_blockIndex {index limit : Nat} (h : e.Refuses b (.blockIndex index limit)) :
    Word.sub b.data.length 1 = .ok index := by
  obtain ⟨block, offset, hrefused⟩ := exists_refusedAt_of_refuses rfl h
  cases hrefused with
  | data hdata => exact Word.sub_eq_ok (by omega)

/-- A block that is too long has a last byte. -/
theorem sub_of_refuses_blockOffset {offset capacity : Nat}
    (h : e.Refuses b (.blockOffset offset capacity)) :
    ∃ content, some content ∈ b.data ∧ Word.sub content.length 1 = .ok offset := by
  obtain ⟨block, _, hrefused⟩ := exists_refusedAt_of_refuses rfl h
  cases hrefused with
  | length _ content _ hget hlong =>
    exact ⟨content, List.mem_of_getElem? hget, Word.sub_eq_ok (by omega)⟩

end Expectation

namespace Geometry

/-! ## Steps that are left to natural numbers -/

theorem add_dataBlocks_parityBlocks (g : Geometry) :
    Word.add g.dataBlocks g.parityBlocks = .ok g.width :=
  Word.add_eq_ok (Nat.lt_of_le_of_lt g.width_le (by decide))

/-- **The position from which gathering goes on is a word.** -/
theorem next_position (g : Geometry) {length pos : Nat} (hlen : length ≤ g.groupCapacity)
    (hpos : pos < length) : ∃ block offset n,
      Word.place g.cellSize g.dataBlocks pos = .ok (block, offset) ∧
        Word.run g length pos offset = .ok n ∧ Word.add pos n = .ok (pos + n) := by
  have hcap := g.groupCapacity_lt
  obtain ⟨block, offset, n, hplace, hrun, -, hend, -⟩ := g.run_advances hlen hpos
  exact ⟨block, offset, n, hplace, hrun, Word.add_eq_ok (by omega)⟩

/-! ## All computations -/

/-- The computations with this layout are exact in words. -/
structure ExactInWords (g : Geometry) : Prop where
  /-- The width of a group is a sum of words. -/
  width : Word.add g.dataBlocks g.parityBlocks = .ok g.width
  blockCapacity : Word.blockCapacity g = .ok g.blockCapacity
  stripeCapacity : Word.stripeCapacity g = .ok g.stripeCapacity
  groupCapacity : Word.groupCapacity g = .ok g.groupCapacity
  /-- Content is cut into cells and into groups that hold a byte. -/
  pieces : 0 < g.cellSize ∧ 0 < g.groupCapacity
  locate : ∀ pos < Word.size, Word.locate g pos = .ok (g.locate pos)
  fileOffset : ∀ group block offset,
    Word.Exact (Word.fileOffset g group block offset) (g.fileOffset group block offset)
  groupCount : ∀ length < Word.size, Word.groupCount g length = .ok (g.groupCount length)
  groupLength : ∀ length < Word.size, ∀ group,
    Word.groupLength g length group = .ok (g.groupLength length group)
  blockLength : ∀ length index,
    Word.Exact (Word.blockLength g length index) (g.blockLength length index)
  scatter : ∀ bytes, Word.Exact (Word.scatter g bytes) (g.scatter bytes)
  scatterFile : ∀ bytes, Word.Exact (Word.scatterFile g bytes) (g.scatterFile bytes)
  gather : ∀ b length, Word.Exact (Word.gather g b length) (g.gather b length)
  /-- What is gathered is assembled, if memory has room for it or the layout refuses it. -/
  assemble : ∀ b length, length ≤ Bytes.maxLength ∨ g.groupCapacity < length →
    Word.Exact (Word.assemble g b length) (g.gather b length)
  /-- Else the fault is that of memory. -/
  memory : ∀ b length, Bytes.maxLength < length → length ≤ g.groupCapacity →
    Word.assemble g b length = .error (.fault .capacity)
  /-- Gathering goes on from a position that is a word. -/
  next : ∀ length ≤ g.groupCapacity, ∀ pos < length, ∃ block offset n,
    Word.place g.cellSize g.dataBlocks pos = .ok (block, offset) ∧
      Word.run g length pos offset = .ok n ∧ Word.add pos n = .ok (pos + n)
  checkGroup : ∀ e : Expectation, e.geometry = g → ∀ b,
    Word.Exact (Word.checkGroup e b) (e.checkGroup b)
  groupMismatches : ∀ e : Expectation, e.geometry = g → ∀ b,
    Word.Exact (Word.groupMismatches e b) (e.groupMismatches b)
  /-- The last data block of a group that has too many. -/
  lastBlock : ∀ e : Expectation, e.geometry = g → ∀ b index limit,
    e.Refuses b (.blockIndex index limit) → Word.sub b.data.length 1 = .ok index
  /-- The last byte of a block that is too long. -/
  lastByte : ∀ e : Expectation, e.geometry = g → ∀ b offset capacity,
    e.Refuses b (.blockOffset offset capacity) →
      ∃ content, some content ∈ b.data ∧ Word.sub content.length 1 = .ok offset
  /-- The byte that a pattern has at a position is a remainder and one more. -/
  patternByte : ∀ (p : Pattern) (pos : Nat),
    (Word.mod pos p.modulus >>= (Word.add · 1)) = .ok (p.byteAt pos).toNat

/-- **The computations with a layout are exact in words**, for every layout and all arguments, but
for the fault of assembling more bytes than memory takes. -/
theorem exactInWords (g : Geometry) : g.ExactInWords where
  width := g.add_dataBlocks_parityBlocks
  blockCapacity := Word.blockCapacity_eq g
  stripeCapacity := Word.stripeCapacity_eq g
  groupCapacity := Word.groupCapacity_eq g
  pieces := ⟨g.cellSize_pos, g.groupCapacity_pos⟩
  locate _ := Word.locate_eq g
  fileOffset group block offset :=
    Word.exact_of_eq (Word.fileOffset_eq g group block offset)
      (g.fileOffset_ne_fault group block offset)
  groupCount _ := Word.groupCount_eq g
  groupLength _ := Word.groupLength_eq g
  blockLength length index :=
    Word.exact_of_eq (Word.blockLength_eq g length index) (g.blockLength_ne_fault length index)
  scatter bytes := Word.exact_of_eq (Word.scatter_eq g bytes) (g.scatter_ne_fault bytes)
  scatterFile bytes := Word.exact_of_eq (Word.scatterFile_eq g bytes) fun fault h => by
    cases h.symm.trans (g.scatterFile_eq_ok bytes)
  gather b length := Word.exact_of_eq (Word.gather_eq g b length) (g.gather_ne_fault b length)
  assemble b length h :=
    Word.exact_of_eq (Word.assemble_eq g b h) (g.gather_ne_fault b length)
  memory b _ := Word.assemble_of_large g b
  next _ hlen _ := g.next_position hlen
  checkGroup e _ b := Word.exact_of_eq (Word.checkGroup_eq e b) Expectation.checkGroup_ne_fault
  groupMismatches e _ b :=
    Word.exact_of_eq (Word.groupMismatches_eq e b) Expectation.groupMismatches_ne_fault
  lastBlock _ _ _ _ _ := Expectation.sub_of_refuses_blockIndex
  lastByte _ _ _ _ _ := Expectation.sub_of_refuses_blockOffset
  patternByte p pos := by
    have hmod : pos % p.modulus + 1 ≤ 255 := Nat.le_trans (Nat.mod_lt _ p.modulus_pos) p.modulus_le
    rw [Word.mod_eq_ok p.modulus_pos, p.toNat_byteAt]
    exact Word.add_eq_ok (Nat.lt_of_le_of_lt hmod (by decide))

/-- They are exact with one cell to a block and 255 data blocks beside one parity block, which hold
as many bytes as a word can count. -/
theorem exactInWords_largest : ∃ g : Geometry, g.stripesPerBlock = 1 ∧ g.width = maxWidth ∧
    g.groupCapacity + 1 = Word.size ∧ g.ExactInWords := by
  let g : Geometry := {
    cellSize := 72340172838076673
    dataBlocks := 255
    parityBlocks := 1
    stripesPerBlock := 1
    cellSize_pos := by decide
    dataBlocks_pos := by decide
    stripesPerBlock_pos := by decide
    width_le := by decide
    capacity_lt := by decide }
  exact ⟨g, by decide, by decide, by decide, exactInWords g⟩

/-- A group may hold one byte more than memory takes. The exact version finds its block missing, and
the one in words has no answer. -/
theorem assemble_not_exact :
    huge.gather ⟨0, [], []⟩ 9223372036854775808 = .error (.layout (.missingBlock 0 0)) ∧
      ¬ Word.Exact (Word.assemble huge ⟨0, [], []⟩ 9223372036854775808)
        (huge.gather ⟨0, [], []⟩ 9223372036854775808) := by
  exact ⟨by decide +kernel, fun h => h.2 _ (Word.assemble_huge _)⟩

end Geometry

end Striping
