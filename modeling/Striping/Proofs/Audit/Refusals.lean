import Striping.Proofs.Audit.Listing

/-!
# Where an audit is refused

Both ways of auditing a group go through its bytes in order of the block and the offset. Where a
block or a byte does not fit the layout, listing the mismatches is refused
(`Expectation.RefusedAt` tells the place and the error). Stopping at the first mismatch is refused
there only if no byte before the place differs; otherwise it has stopped by then
(`Expectation.StopsBy`).

The bytes before the place make up a group of their own, `Buffers.upTo`, which can be listed.
Comparing the whole group is comparing that one and then being refused
(`Expectation.checkGroup_eq_bind`), so all that is known of groups that can be listed applies to it.
-/

namespace Striping

/-! ## The bytes before a place -/

/-- The bytes of the group before `offset` in data block `block`. -/
def Buffers.upTo (b : Buffers) (block offset : Nat) : Buffers where
  group := b.group
  data := b.data.take block ++ (b.data[block]?.map (Option.map (List.take offset))).toList
  parity := b.parity

namespace Buffers

variable {b : Buffers} {block : Nat} {content : Bytes}

theorem data_upTo (hget : b.data[block]? = some (some content)) (offset : Nat) :
    (b.upTo block offset).data = b.data.take block ++ [some (content.take offset)] := by
  simp [upTo, hget]

theorem data_eq_append (hget : b.data[block]? = some (some content)) :
    b.data = b.data.take block ++ some content :: b.data.drop (block + 1) := by
  obtain ⟨hlt, hcontent⟩ := List.getElem?_eq_some_iff.1 hget
  rw [← hcontent, List.getElem_cons_drop, List.take_append_drop]

theorem length_take_data (hget : b.data[block]? = some (some content)) :
    (b.data.take block).length = block :=
  List.length_take_of_le (Nat.le_of_lt (List.getElem?_eq_some_iff.1 hget).1)

theorem getElem?_upTo (hget : b.data[block]? = some (some content)) (offset i : Nat) :
    (b.upTo block offset).data[i]? =
      if i < block then b.data[i]? else if i = block then some (some (content.take offset))
      else none := by
  have hlen := length_take_data hget
  rw [data_upTo hget, List.getElem?_append, hlen]
  rcases Nat.lt_trichotomy i block with h | rfl | h
  · rw [if_pos h, if_pos h, List.getElem?_take_of_lt h]
  · simp
  · rw [if_neg (by omega), if_neg (by omega), if_neg (by omega)]
    exact List.getElem?_eq_none (by simp; omega)

/-- The bytes before a place are those at earlier places. -/
theorem upTo_byte_iff (hget : b.data[block]? = some (some content)) {offset i o : Nat}
    {actual : UInt8} :
    (∃ bytes, (b.upTo block offset).data[i]? = some (some bytes) ∧ bytes[o]? = some actual) ↔
      toLex (i, o) < toLex (block, offset) ∧
        ∃ bytes, b.data[i]? = some (some bytes) ∧ bytes[o]? = some actual := by
  rw [getElem?_upTo hget, Prod.Lex.toLex_lt_toLex]
  rcases Nat.lt_trichotomy i block with h | rfl | h
  · simp [h]
  · simp [hget, List.getElem?_take]
  · simp [Nat.not_lt_of_lt h, Nat.ne_of_gt h]

end Buffers

namespace Report

protected theorem zero_add (report : Report) : 0 + report = report := by
  change Report.mk (0 + _) (0 + _) (0 + _) = report
  simp only [Nat.zero_add]

protected theorem add_assoc (r s t : Report) : r + s + t = r + (s + t) := by
  change Report.mk (_ + _ + _) (_ + _ + _) (_ + _ + _) = _
  simp only [Nat.add_assoc]
  rfl

end Report

namespace Expectation

variable (e : Expectation)

/-! ## Comparing part by part -/

theorem checkBytes_append (group block offset : Nat) (front rest : Bytes) :
    e.checkBytes group block offset (front ++ rest) =
      (e.checkBytes group block offset front).bind fun _ =>
        e.checkBytes group block (offset + front.length) rest := by
  induction front generalizing offset with
  | nil => rfl
  | cons actual front ih =>
    rw [List.cons_append, checkBytes, checkBytes]
    rcases e.inspect group block offset actual with err | _ | m
    · rfl
    · dsimp only
      rw [ih, List.length_cons, Nat.add_assoc, Nat.add_comm 1]
    · rfl

theorem checkBlocks_append (group block : Nat) (front rest : List (Option Bytes)) :
    e.checkBlocks group block (front ++ rest) =
      (e.checkBlocks group block front).bind fun report =>
        (e.checkBlocks group (block + front.length) rest).map (report + ·) := by
  induction front generalizing block with
  | nil =>
    change e.checkBlocks group block rest = (e.checkBlocks group block rest).map (0 + ·)
    cases e.checkBlocks group block rest with
    | error err => rfl
    | ok report => exact congrArg Except.ok (Report.zero_add report).symm
  | cons slot front ih =>
    have hnext : block + (slot :: front).length = block + 1 + front.length := by
      rw [List.length_cons]
      omega
    rw [List.cons_append, hnext]
    cases slot with
    | none => exact ih (block + 1)
    | some content =>
      rw [checkBlocks, checkBlocks, ih]
      rcases e.checkLength content with err | _
      · rfl
      · rcases e.checkBytes group block 0 content with err | _
        · rfl
        · dsimp only
          rcases e.checkBlocks group (block + 1) front with err | first
          · rfl
          · rcases e.checkBlocks group (block + 1 + front.length) rest with err | second
            · rfl
            · exact congrArg Except.ok (Report.add_assoc ..).symm

/-! ## The place of a refusal -/

/-- The group has no more data blocks than the layout, its first byte has a position, and the bytes
before a place can be audited: the blocks before that of the place are not too long, and each byte
before the place has a position. -/
structure ClearBefore (b : Buffers) (block offset : Nat) : Prop where
  data_le : b.data.length ≤ e.geometry.dataBlocks
  start_lt : b.group * e.geometry.groupCapacity < Word.size
  length_le : ∀ (i : Nat) (bytes : Bytes), i < block → b.data[i]? = some (some bytes) →
    bytes.length ≤ e.geometry.blockCapacity
  position_lt : ∀ (i : Nat) (bytes : Bytes) (o : Nat), b.data[i]? = some (some bytes) →
    o < bytes.length → toLex (i, o) < toLex (block, offset) →
      e.geometry.position b.group i o < Word.size

/-- Listing the mismatches of the group is refused with this error at this place, and not before. A
group that does not fit the layout is refused before its first byte, a block before its own first
byte. -/
inductive RefusedAt (b : Buffers) : Nat → Nat → Error → Prop
  /-- There are more data blocks than the layout has. -/
  | data (h : e.geometry.dataBlocks < b.data.length) :
    RefusedAt b 0 0 (.blockIndex (b.data.length - 1) e.geometry.dataBlocks)
  /-- The group starts behind the last position. -/
  | start (hdata : b.data.length ≤ e.geometry.dataBlocks)
    (h : Word.size ≤ b.group * e.geometry.groupCapacity) :
    RefusedAt b 0 0 (.layout (.unaddressable b.group))
  /-- The block is longer than the layout allows. -/
  | length (block : Nat) (content : Bytes) (hclear : e.ClearBefore b block 0)
    (hget : b.data[block]? = some (some content))
    (h : e.geometry.blockCapacity < content.length) :
    RefusedAt b block 0 (.blockOffset (content.length - 1) e.geometry.blockCapacity)
  /-- The byte lies behind the last position. -/
  | position (block : Nat) (content : Bytes) (offset : Nat) (hclear : e.ClearBefore b block offset)
    (hget : b.data[block]? = some (some content))
    (hlen : content.length ≤ e.geometry.blockCapacity) (ho : offset < content.length)
    (h : Word.size ≤ e.geometry.position b.group block offset) :
    RefusedAt b block offset (.layout (.unaddressable b.group))

/-- What stopping at the first mismatch answers for a group whose list is refused with `err` at this
place: the first byte that differs, if one before the place does, and the refusal otherwise. -/
inductive StopsBy (b : Buffers) (block offset : Nat) (err : Error) : Error → Prop
  | mismatch (m : Mismatch) (htruthful : e.Truthful b m)
    (hearlier : toLex (m.block, m.inBlock) < toLex (block, offset))
    (hfirst : ∀ i o actual, toLex (i, o) < toLex (m.block, m.inBlock) →
      ¬ e.Differs b i o actual) : StopsBy b block offset err (.mismatch m)
  | refusal (hnone : ∀ i o actual, toLex (i, o) < toLex (block, offset) →
      ¬ e.Differs b i o actual) : StopsBy b block offset err err

/-- A block is refused as a whole if it is too long, and else at its first byte that has no
position. -/
theorem blockMismatches_eq_error {group block : Nat} {content : Bytes} {err : Error}
    (h : e.blockMismatches group block content = .error err) :
    e.geometry.blockCapacity < content.length ∧
        err = .blockOffset (content.length - 1) e.geometry.blockCapacity ∨
      content.length ≤ e.geometry.blockCapacity ∧ err = .layout (.unaddressable group) ∧
        ∃ offset < content.length, Word.size ≤ e.geometry.position group block offset ∧
          ∀ o < offset, e.geometry.position group block o < Word.size := by
  unfold blockMismatches at h
  split at h
  · next hlong =>
    cases h
    exact .inl (e.checkLength_eq_error hlong)
  · next hlen =>
    split at h
    · next hfound =>
      cases h
      obtain ⟨offset, actual, hbyte, hbefore, hinspect⟩ := mapM_zipIdx_eq_error hfound
      have ho := (List.getElem?_eq_some_iff.1 hbyte).1
      refine .inr ⟨e.checkLength_eq_ok_iff.1 hlen, e.inspect_eq_error hinspect, offset, ho, ?_,
        fun o hlt => ?_⟩
      · refine Nat.le_of_not_lt fun hlt => ?_
        cases (e.inspect_eq_ok actual hlt).symm.trans hinspect
      · obtain ⟨_, hok⟩ := hbefore o hlt _ (List.getElem?_eq_getElem (Nat.lt_trans hlt ho))
        exact e.position_lt_of_inspect hok
    · cases h

/-- **A list is refused at a place**, the first that does not fit. -/
theorem exists_refusedAt {b : Buffers} {err : Error} (h : e.groupMismatches b = .error err) :
    ∃ block offset, e.RefusedAt b block offset err := by
  unfold groupMismatches at h
  split at h
  · next hshape =>
    cases h
    rcases e.checkShape_eq_error hshape with ⟨hdata, rfl⟩ | ⟨hdata, hstart, rfl⟩
    · exact ⟨0, 0, .data hdata⟩
    · exact ⟨0, 0, .start hdata hstart⟩
  · next hshape =>
    obtain ⟨hdata, hstart⟩ := e.checkShape_eq_ok_iff.1 hshape
    split at h
    · next hslots =>
      cases h
      obtain ⟨block, slot, hget, hbefore, hslot⟩ := mapM_zipIdx_eq_error hslots
      have hfits : ∀ (i : Nat) (bytes : Bytes), i < block → b.data[i]? = some (some bytes) →
          bytes.length ≤ e.geometry.blockCapacity ∧
            ∀ o < bytes.length, e.geometry.position b.group i o < Word.size := by
        intro i bytes hi hbytes
        obtain ⟨_, hok⟩ := hbefore i hi _ hbytes
        exact e.addressed_of_blockMismatches hok
      have hlength := fun i bytes hi hbytes => (hfits i bytes hi hbytes).1
      cases slot with
      | none => cases hslot
      | some content =>
        rcases e.blockMismatches_eq_error hslot with
          ⟨hlong, rfl⟩ | ⟨hlen, rfl, offset, ho, hpos, hpassed⟩
        · refine ⟨block, 0, .length block content ⟨hdata, hstart, hlength, ?_⟩ hget hlong⟩
          intro i bytes o hbytes ho hearlier
          rw [Prod.Lex.toLex_lt_toLex] at hearlier
          exact (hfits i bytes (by omega) hbytes).2 o ho
        · refine ⟨block, offset, .position block content offset ⟨hdata, hstart, hlength, ?_⟩ hget
            hlen ho hpos⟩
          intro i bytes o hbytes ho' hearlier
          rcases Prod.Lex.toLex_lt_toLex.1 hearlier with hlt | ⟨rfl, hlt⟩
          · exact (hfits i bytes hlt hbytes).2 o ho'
          · exact hpassed o hlt
    · cases h

/-! ## The answer at a refusal -/

/-- The block of the place fails to pass there, whatever follows it. -/
theorem checkBlocks_of_long {group block : Nat} {content : Bytes}
    (h : e.geometry.blockCapacity < content.length) (rest : List (Option Bytes)) :
    e.checkBlocks group block (some content :: rest) =
      (e.checkBlocks group block [some (content.take 0)]).bind fun _ =>
        .error (.blockOffset (content.length - 1) e.geometry.blockCapacity) := by
  have hlong : e.checkLength content =
      .error (.blockOffset (content.length - 1) e.geometry.blockCapacity) := if_pos h
  rw [checkBlocks, hlong]
  rfl

theorem checkBlocks_of_unaddressable {group block offset : Nat} {content : Bytes}
    (hlen : content.length ≤ e.geometry.blockCapacity) (ho : offset < content.length)
    (h : Word.size ≤ e.geometry.position group block offset) (rest : List (Option Bytes)) :
    e.checkBlocks group block (some content :: rest) =
      (e.checkBlocks group block [some (content.take offset)]).bind fun _ =>
        .error (.layout (.unaddressable group)) := by
  have hshort : (content.take offset).length = offset := List.length_take_of_le (Nat.le_of_lt ho)
  have hbyte : e.checkBytes group block offset (content.drop offset) =
      .error (.layout (.unaddressable group)) := by
    rw [← List.getElem_cons_drop ho, checkBytes, e.inspect_eq_ite, if_pos h]
  have hbytes : e.checkBytes group block 0 content =
      (e.checkBytes group block 0 (content.take offset)).bind fun _ =>
        .error (.layout (.unaddressable group)) := by
    conv_lhs => rw [← List.take_append_drop offset content]
    rw [checkBytes_append, hshort, Nat.zero_add, hbyte]
  rw [checkBlocks, checkBlocks, e.checkLength_eq_ok_iff.2 hlen,
    e.checkLength_eq_ok_iff.2 (by omega), hbytes]
  cases e.checkBytes group block 0 (content.take offset) with
  | error err => rfl
  | ok _ => rfl

/-- **Comparing a group that is refused at a place** is comparing the bytes before the place, and
being refused if they pass. -/
theorem checkGroup_eq_bind {b : Buffers} {block offset : Nat} {content : Bytes} {err : Error}
    (hclear : e.ClearBefore b block offset) (hget : b.data[block]? = some (some content))
    (hblock : ∀ rest, e.checkBlocks b.group block (some content :: rest) =
      (e.checkBlocks b.group block [some (content.take offset)]).bind fun _ => .error err) :
    e.checkGroup b = (e.checkGroup (b.upTo block offset)).bind fun _ => .error err := by
  have hlen := Buffers.length_take_data hget
  have hlt := (List.getElem?_eq_some_iff.1 hget).1
  have hshape : e.checkShape b = .ok () :=
    e.checkShape_eq_ok_iff.2 ⟨hclear.data_le, hclear.start_lt⟩
  have hshape' : e.checkShape (b.upTo block offset) = .ok () := by
    refine e.checkShape_eq_ok_iff.2 ⟨?_, hclear.start_lt⟩
    rw [Buffers.data_upTo hget, List.length_append, hlen]
    exact Nat.le_trans hlt hclear.data_le
  rw [checkGroup, checkGroup, hshape, hshape', Buffers.data_upTo hget]
  conv_lhs => rw [Buffers.data_eq_append hget]
  rw [checkBlocks_append, checkBlocks_append, hlen, Nat.zero_add, hblock]
  dsimp only [Buffers.upTo]
  rcases e.checkBlocks b.group 0 (b.data.take block) with err | front
  · rfl
  · rcases e.checkBlocks b.group block [some (content.take offset)] with err | last
    · rfl
    · rfl

section Refused

variable {e} {b : Buffers} {block offset : Nat} {content : Bytes}
  (hclear : e.ClearBefore b block offset) (hget : b.data[block]? = some (some content))
include hget

theorem differs_upTo_iff {i o : Nat} {actual : UInt8} :
    e.Differs (b.upTo block offset) i o actual ↔
      toLex (i, o) < toLex (block, offset) ∧ e.Differs b i o actual := by
  rw [Differs, Buffers.upTo_byte_iff hget, and_assoc]
  rfl

include hclear

/-- The bytes before the place of a refusal can be listed. -/
theorem ClearBefore.addressed_upTo
    (hfit : (content.take offset).length ≤ e.geometry.blockCapacity) :
    e.Addressed (b.upTo block offset) where
  data_le := by
    rw [Buffers.data_upTo hget, List.length_append, Buffers.length_take_data hget]
    exact Nat.le_trans (List.getElem?_eq_some_iff.1 hget).1 hclear.data_le
  length_le i bytes hbytes := by
    rw [Buffers.getElem?_upTo hget] at hbytes
    split at hbytes
    · next hi => exact hclear.length_le i bytes hi hbytes
    · split at hbytes
      · cases hbytes
        exact hfit
      · cases hbytes
  start_lt := hclear.start_lt
  position_lt i bytes hbytes o ho := by
    obtain ⟨hearlier, bytes', hbytes', hbyte⟩ :=
      (Buffers.upTo_byte_iff hget).1 ⟨bytes, hbytes, List.getElem?_eq_getElem ho⟩
    exact hclear.position_lt i bytes' o hbytes' (List.getElem?_eq_some_iff.1 hbyte).1 hearlier

/-- **The first byte that differs before the place of a refusal is reported**, if there is one. -/
theorem ClearBefore.stopsBy {err : Error}
    (hfit : (content.take offset).length ≤ e.geometry.blockCapacity)
    (hblock : ∀ rest, e.checkBlocks b.group block (some content :: rest) =
      (e.checkBlocks b.group block [some (content.take offset)]).bind fun _ => .error err) :
    ∃ err', e.checkGroup b = .error err' ∧ e.StopsBy b block offset err err' := by
  have haddressed := hclear.addressed_upTo hget hfit
  have hlist := e.groupMismatches_eq_ok_iff.2 ⟨haddressed, rfl⟩
  have hexact := haddressed.exact_differences
  rw [e.checkGroup_eq_bind hclear hget hblock, e.checkGroup_eq hlist]
  -- a byte that differs before the place is in the list of the bytes before it
  have hlisted : ∀ i o actual, toLex (i, o) < toLex (block, offset) → e.Differs b i o actual →
      ∃ m ∈ e.differences (b.upTo block offset), m.block = i ∧ m.inBlock = o :=
    fun i o actual hearlier hdiffers =>
      (hexact.mem_iff i o).2 ⟨actual, (differs_upTo_iff hget).2 ⟨hearlier, hdiffers⟩⟩
  cases hms : e.differences (b.upTo block offset) with
  | nil =>
    rw [hms] at hlisted
    refine ⟨err, rfl, .refusal fun i o actual hearlier hdiffers => ?_⟩
    obtain ⟨m, hm, -⟩ := hlisted i o actual hearlier hdiffers
    exact List.not_mem_nil hm
  | cons m rest =>
    rw [hms] at hlisted hexact
    have htruthful := hexact.truthful m (.head _)
    obtain ⟨hearlier, hdiffers⟩ := (differs_upTo_iff hget).1 htruthful.differs
    refine ⟨.mismatch m, rfl, .mismatch m { htruthful with differs := hdiffers } hearlier
      fun i o actual hbefore hdiffers' => ?_⟩
    obtain ⟨m', hm', rfl, rfl⟩ := hlisted i o actual (hbefore.trans hearlier) hdiffers'
    rw [Prod.Lex.toLex_lt_toLex] at hbefore
    rcases List.mem_cons.1 hm' with rfl | hmem
    · omega
    · have := (List.pairwise_cons.1 hexact.pairwise).1 m' hmem
      omega

end Refused

/-- **Comparing a group whose list is refused fails**, with the first byte that differs before the
place of the refusal or with the refusal itself. -/
theorem stopsBy_of_refusedAt {b : Buffers} {block offset : Nat} {err : Error}
    (h : e.RefusedAt b block offset err) :
    ∃ err', e.checkGroup b = .error err' ∧ e.StopsBy b block offset err err' := by
  -- no byte comes before the first
  have hnone : ∀ i o actual, toLex (i, o) < toLex (0, 0) → ¬ e.Differs b i o actual := by
    intro i o actual hearlier
    rw [Prod.Lex.toLex_lt_toLex] at hearlier
    omega
  cases h with
  | data hdata =>
    refine ⟨_, ?_, .refusal hnone⟩
    rw [checkGroup, checkShape, if_pos hdata]
  | start hdata hstart =>
    refine ⟨_, ?_, .refusal hnone⟩
    rw [checkGroup, checkShape, if_neg (Nat.not_lt_of_le hdata), if_pos hstart]
  | length block content hclear hget hlong =>
    exact hclear.stopsBy hget (Nat.zero_le _) (e.checkBlocks_of_long hlong)
  | position block content offset hclear hget hlen ho hpos =>
    exact hclear.stopsBy hget (by rw [List.length_take]; omega)
      (e.checkBlocks_of_unaddressable hlen ho hpos)

/-- **The two ways of auditing a group agree**, in words and for any buffers. If no mismatch is
listed, comparing the group reports what it holds; if some are, it fails with the first of them. If
listing is refused, comparing fails, too: with the first byte that differs before the place of the
refusal, or with the refusal if there is none. -/
theorem checkGroup_agrees (b : Buffers) :
    (Word.groupMismatches e b = .ok [] → Word.checkGroup e b =
      .ok ⟨1, (b.data.filterMap id).countP (!·.isEmpty), b.dataLength⟩) ∧
    (∀ m rest, Word.groupMismatches e b = .ok (m :: rest) →
      Word.checkGroup e b = .error (.mismatch m)) ∧
    ∀ err, Word.groupMismatches e b = .error err → ∃ block offset, e.RefusedAt b block offset err ∧
      ∃ err', Word.checkGroup e b = .error err' ∧ e.StopsBy b block offset err err' := by
  rw [Word.groupMismatches_eq, Word.checkGroup_eq]
  refine ⟨fun h => e.checkGroup_eq h, fun m rest h => e.checkGroup_eq h, fun err h => ?_⟩
  obtain ⟨block, offset, hrefused⟩ := e.exists_refusedAt h
  exact ⟨block, offset, hrefused, e.stopsBy_of_refusedAt hrefused⟩

/-- A group with an empty block passes, one with two wrong bytes fails with the first. Behind a
block of one byte a block is too long: the answer is that byte if it is wrong, else the refusal. -/
theorem checkGroup_agrees_long :
    let e : Expectation := ⟨.small, .standard, 8⟩
    let passing : Buffers := ⟨0, [some [1, 2, 5], some []], []⟩
    let failing : Buffers := ⟨0, [some [1, 9, 9]], []⟩
    let long (first : UInt8) : Buffers := ⟨0, [some [first], some [3, 4, 7, 8, 9]], []⟩
    let found : Mismatch := ⟨0, 0, 0, 1, 1, 1, 2, 9⟩
    (Word.groupMismatches e passing = .ok [] ∧ Word.checkGroup e passing = .ok ⟨1, 1, 3⟩) ∧
      (Word.groupMismatches e failing = .ok [found, ⟨0, 1, 0, 0, 2, 4, 5, 9⟩] ∧
        Word.checkGroup e failing = .error (.mismatch found)) ∧
      (Word.groupMismatches e (long 9) = .error (.blockOffset 4 4) ∧ ∃ block offset,
        e.StopsBy (long 9) block offset (.blockOffset 4 4) (.mismatch ⟨0, 0, 0, 0, 0, 0, 1, 9⟩)) ∧
      Word.groupMismatches e (long 1) = .error (.blockOffset 4 4) ∧ ∃ block offset,
        e.StopsBy (long 1) block offset (.blockOffset 4 4) (.blockOffset 4 4) := by
  intro e passing failing long found
  have hpassing : Word.groupMismatches e passing = .ok [] := by decide +kernel
  have hfailing : Word.groupMismatches e failing = .ok [found, ⟨0, 1, 0, 0, 2, 4, 5, 9⟩] := by
    decide +kernel
  have hlong (first : UInt8) (err : Error)
      (hlist : Word.groupMismatches e (long first) = .error (.blockOffset 4 4))
      (hcheck : Word.checkGroup e (long first) = .error err) :
      ∃ block offset, e.StopsBy (long first) block offset (.blockOffset 4 4) err := by
    obtain ⟨block, offset, -, err', hcheck', hstops⟩ := (e.checkGroup_agrees _).2.2 _ hlist
    rw [hcheck, Except.error.injEq] at hcheck'
    exact ⟨block, offset, hcheck' ▸ hstops⟩
  have hlist : ∀ first ∈ [9, 1], Word.groupMismatches e (long first) =
      .error (.blockOffset 4 4) := by
    decide +kernel
  exact ⟨⟨hpassing, (e.checkGroup_agrees _).1 hpassing⟩,
    ⟨hfailing, (e.checkGroup_agrees _).2.1 _ _ hfailing⟩,
    ⟨hlist 9 (by decide), hlong 9 _ (hlist 9 (by decide)) (by decide +kernel)⟩,
    hlist 1 (by decide), hlong 1 _ (hlist 1 (by decide)) (by decide +kernel)⟩

end Expectation

end Striping
