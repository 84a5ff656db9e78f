import Striping.Audit.Words
import Striping.Proofs.Audit.Passing
import Striping.Proofs.Words.Layout

/-!
# Auditing in words is exact

One pass in words serves both ways of auditing. A pass that lists all mismatches goes through the
blocks as `Expectation.groupMismatches` does (`Word.groupMismatches_eq`). A pass that stops at the
first mismatch is read by its verdict, the report or the mismatch it stopped at: once it has found
one it changes nothing any more, so the verdict of a longer pass is that of its first part if this
found anything (`Word.verdict_bind`), and a pass over a group comes to the verdict of
`Expectation.checkGroup` (`Word.checkGroup_eq`). The counts stay in range because the bytes of a
group do.
-/

namespace Striping.Word

variable (e : Expectation)

/-! ## Counts and verdicts -/

/-- The report with one more block counted. -/
def counted (report : Report) (content : Bytes) : Report :=
  report + ⟨0, if content.isEmpty then 0 else 1, content.length⟩

theorem counted_add (report : Report) (content : Bytes) (rest : Report) :
    counted report content + rest =
      report + (⟨0, if content.isEmpty then 0 else 1, content.length⟩ + rest) := by
  change Report.mk (_ + _ + _) (_ + _ + _) (_ + _ + _) = _
  simp only [Nat.add_assoc]
  rfl

/-- What a pass can have counted before the block at index `block`. -/
structure Bounded (g : Geometry) (block : Nat) (report : Report) : Prop where
  blocks_le : report.blocks ≤ block
  bytes_le : report.bytes ≤ block * g.blockCapacity

theorem Bounded.counted {g : Geometry} {block : Nat} {report : Report} {content : Bytes}
    (h : Bounded g block report) (hlen : content.length ≤ g.blockCapacity) :
    Bounded g (block + 1) (counted report content) where
  blocks_le := by
    have := h.blocks_le
    change report.blocks + (if content.isEmpty then 0 else 1) ≤ _
    split <;> omega
  bytes_le := by
    rw [Nat.add_mul, Nat.one_mul]
    exact Nat.add_le_add h.bytes_le hlen

theorem Bounded.succ {g : Geometry} {block : Nat} {report : Report} (h : Bounded g block report) :
    Bounded g (block + 1) report where
  blocks_le := Nat.le_succ_of_le h.blocks_le
  bytes_le := Nat.le_trans h.bytes_le (Nat.mul_le_mul_right _ (Nat.le_succ _))

theorem Bounded.blocks_lt {g : Geometry} {block : Nat} {report : Report}
    (h : Bounded g block report) (hb : block < g.dataBlocks) : report.blocks + 1 < size := by
  have hwidth := g.width_le
  have hblocks := h.blocks_le
  simp only [maxWidth, size] at *
  omega

theorem Bounded.bytes_lt {g : Geometry} {block : Nat} {report : Report} {content : Bytes}
    (h : Bounded g block report) (hb : block < g.dataBlocks)
    (hlen : content.length ≤ g.blockCapacity) : report.bytes + content.length < size := by
  have hcounted := (h.counted hlen).bytes_le
  have hcap := Nat.mul_le_mul_right g.blockCapacity (show block + 1 ≤ g.dataBlocks from hb)
  rw [Nat.mul_comm g.dataBlocks] at hcap
  exact Nat.lt_of_le_of_lt (Nat.le_trans hcounted hcap) g.groupCapacity_lt

/-- What a pass that stops at the first mismatch says: its report, or the mismatch. -/
def Scan.verdict (s : Scan) : Except Error Report := Expectation.verdict s.report s.found

/-- **The first mismatch decides**, if the rest of the pass leaves a pass that found one as it
is. -/
theorem verdict_bind (x : Except Error Scan) {next : Scan → Except Error Scan}
    (hnext : ∀ s, s.found ≠ [] → next s = .ok s) : (x.bind next).bind Scan.verdict =
      (x.bind Scan.verdict).bind fun report => (next ⟨report, []⟩).bind Scan.verdict := by
  rcases x with err | ⟨report, _ | ⟨m, found⟩⟩
  · rfl
  · rfl
  · change (next ⟨report, m :: found⟩).bind Scan.verdict = .error (.mismatch m)
    rw [hnext _ (List.cons_ne_nil m found)]
    rfl

theorem Scan.isDone_false {s : Scan} (h : s.found ≠ []) : s.isDone false = true := by
  simpa [isDone] using h

/-! ## Bytes -/

section Bytes

variable {group block : Nat} (hb : block < e.geometry.dataBlocks)
include hb

theorem inspect_eq {offset : Nat} (ho : offset < e.geometry.blockCapacity) (actual : UInt8) :
    inspect e group (group * e.geometry.groupCapacity) block offset actual =
      e.inspect group block offset actual := by
  have hin := Nat.lt_trans (unplace_lt e.geometry hb ho) e.geometry.groupCapacity_lt
  rw [inspect, position, unplace_eq e.geometry.cellSize_pos e.geometry.dataBlocks_pos hin,
    Expectation.inspect]
  dsimp only
  by_cases h : size ≤ group * e.geometry.groupCapacity +
      Striping.unplace e.geometry.cellSize e.geometry.dataBlocks block offset
  · rw [add_eq_error h, if_pos h]
  · rw [add_eq_ok (Nat.lt_of_not_le h), if_neg h, div_eq_ok e.geometry.cellSize_pos,
      mod_eq_ok e.geometry.cellSize_pos]

/-! ### Listing all mismatches -/

/-- A pass that lists all mismatches inspects the bytes of a block one after the other. -/
theorem scanBytes_true (offset : Nat) (content : Bytes) (report : Report) (found : List Mismatch)
    (hlen : offset + content.length ≤ e.geometry.blockCapacity)
    (hbytes : report.bytes + content.length < size) :
    scanBytes e true group (group * e.geometry.groupCapacity) block offset content
        ⟨report, found⟩ =
      ((content.zipIdx offset).mapM fun x => e.inspect group block x.2 x.1).map fun more =>
        ⟨{ report with bytes := report.bytes + content.length }, found ++ more.filterMap id⟩ := by
  induction content generalizing offset report found with
  | nil => exact congrArg (fun found => Except.ok (Scan.mk report found)) (List.append_nil _).symm
  | cons actual content ih =>
    rw [List.length_cons] at hlen hbytes
    have hdone : (Scan.mk report found).isDone true = false := rfl
    have hnext : add report.bytes 1 = .ok (report.bytes + 1) := add_eq_ok (by omega)
    rw [scanBytes, hdone, inspect_eq e hb (by omega), hnext, List.zipIdx_cons, List.length_cons]
    cases hinspect : e.inspect group block offset actual with
    | error err =>
      rw [mapM_cons_error (x := (actual, offset)) hinspect]
      rfl
    | ok mismatch? =>
      rw [mapM_cons_ok (x := (actual, offset)) hinspect]
      refine (ih (offset + 1) { report with bytes := report.bytes + 1 }
        (found ++ mismatch?.toList) (by omega) (by dsimp only; omega)).trans ?_
      cases (content.zipIdx (offset + 1)).mapM fun x => e.inspect group block x.2 x.1 with
      | error err => rfl
      | ok more => cases mismatch? <;> simp [Except.map, Nat.add_assoc, Nat.add_comm 1]

/-! ### Stopping at the first mismatch -/

omit hb in
theorem scanBytes_done {start offset : Nat} {s : Scan} (hs : s.found ≠ []) (content : Bytes) :
    scanBytes e false group start block offset content s = .ok s := by
  cases content with
  | nil => rfl
  | cons actual content => rw [scanBytes, Scan.isDone_false hs, if_pos rfl]

theorem scanBytes_false (offset : Nat) (content : Bytes) (report : Report)
    (hlen : offset + content.length ≤ e.geometry.blockCapacity)
    (hbytes : report.bytes + content.length < size) :
    (scanBytes e false group (group * e.geometry.groupCapacity) block offset content
        ⟨report, []⟩).bind Scan.verdict =
      (e.checkBytes group block offset content).map fun _ =>
        { report with bytes := report.bytes + content.length } := by
  induction content generalizing offset report with
  | nil => rfl
  | cons actual content ih =>
    rw [List.length_cons] at hlen hbytes
    have hdone : (Scan.mk report []).isDone false = false := rfl
    have hnext : add report.bytes 1 = .ok (report.bytes + 1) := add_eq_ok (by omega)
    rw [scanBytes, hdone, inspect_eq e hb (by omega), hnext, Expectation.checkBytes]
    rcases e.inspect group block offset actual with err | _ | m
    · rfl
    · refine (ih (offset + 1) { report with bytes := report.bytes + 1 } (by omega)
        (by dsimp only; omega)).trans ?_
      simp only [Nat.add_assoc, Nat.add_comm 1, List.length_cons]
    · change (scanBytes e false group _ block (offset + 1) content ⟨_, [m]⟩).bind _ = _
      rw [scanBytes_done e (List.cons_ne_nil m [])]
      rfl

end Bytes

/-! ## Blocks -/

section Blocks

variable {group block : Nat}

/-- A block that is not too long is skipped if it is empty, and else counted and scanned. -/
theorem scanBlock_eq (all : Bool) {start : Nat} (content : Bytes) {report : Report}
    (found : List Mismatch) (hblocks : report.blocks + 1 < size) :
    scanBlock e all group start block content ⟨report, found⟩ =
      (e.checkLength content).bind fun _ =>
        if content.isEmpty then .ok ⟨report, found⟩
        else scanBytes e all group start block 0 content
          ⟨{ report with blocks := report.blocks + 1 }, found⟩ := by
  rw [scanBlock, blockCapacity_eq, Expectation.checkLength, add_eq_ok hblocks]
  dsimp only
  split
  · rfl
  · rfl

/-! ### Listing all mismatches -/

theorem scanBlock_true {content : Bytes} {report : Report} (found : List Mismatch)
    (hb : block < e.geometry.dataBlocks) (hreport : Bounded e.geometry block report) :
    scanBlock e true group (group * e.geometry.groupCapacity) block content ⟨report, found⟩ =
      (e.blockMismatches group block content).map fun more =>
        ⟨counted report content, found ++ more⟩ := by
  rw [scanBlock_eq e true content found (hreport.blocks_lt hb), Expectation.blockMismatches]
  cases hlength : e.checkLength content with
  | error err => rfl
  | ok _ =>
    have hlen := e.checkLength_eq_ok_iff.1 hlength
    cases content with
    | nil => exact congrArg (fun found => Except.ok (Scan.mk report found)) (List.append_nil _).symm
    | cons actual content =>
      refine (scanBytes_true e hb 0 _ { report with blocks := report.blocks + 1 } found
        (by rwa [Nat.zero_add]) (hreport.bytes_lt hb hlen)).trans ?_
      dsimp only
      split
      · next err herr => exact congrArg (Except.map _) herr
      · next more hmore => exact congrArg (Except.map _) hmore

theorem scanBlocks_true {slots : List (Option Bytes)} {report : Report} {found : List Mismatch}
    (hslots : block + slots.length ≤ e.geometry.dataBlocks)
    (hreport : Bounded e.geometry block report) :
    (scanBlocks e true group (group * e.geometry.groupCapacity) block slots ⟨report, found⟩).map
        Scan.found =
      ((slots.zipIdx block).mapM fun x => e.slotMismatches group x.2 x.1).map fun more =>
        found ++ more.flatten := by
  induction slots generalizing block report found with
  | nil => exact congrArg Except.ok (List.append_nil _).symm
  | cons slot slots ih =>
    rw [List.length_cons] at hslots
    rw [List.zipIdx_cons]
    cases slot with
    | none =>
      have hslot : e.slotMismatches group block none = .ok [] := rfl
      rw [mapM_cons_ok (x := (none, block)) hslot]
      refine (ih (by omega) hreport.succ).trans ?_
      cases (slots.zipIdx (block + 1)).mapM fun x => e.slotMismatches group x.2 x.1 with
      | error err => rfl
      | ok more => rfl
    | some content =>
      have hdone : (Scan.mk report found).isDone true = false := rfl
      rw [scanBlocks, hdone, scanBlock_true e found (by omega) hreport]
      cases hmismatches : e.blockMismatches group block content with
      | error err =>
        have hslot : e.slotMismatches group block (some content) = .error err := hmismatches
        rw [mapM_cons_error (x := (some content, block)) hslot]
        rfl
      | ok more =>
        have hslot : e.slotMismatches group block (some content) = .ok more := hmismatches
        have hlen := e.checkLength_eq_ok_iff.1 (e.checkBlock_eq hmismatches).1
        rw [mapM_cons_ok (x := (some content, block)) hslot]
        refine (ih (by omega) (hreport.counted hlen)).trans ?_
        cases (slots.zipIdx (block + 1)).mapM fun x => e.slotMismatches group x.2 x.1 with
        | error err => rfl
        | ok rest => simp [Except.map]

/-! ### Stopping at the first mismatch -/

theorem scanBlock_false {content : Bytes} {report : Report}
    (hb : block < e.geometry.dataBlocks) (hreport : Bounded e.geometry block report) :
    (scanBlock e false group (group * e.geometry.groupCapacity) block content
        ⟨report, []⟩).bind Scan.verdict =
      (e.checkLength content).bind fun _ =>
        (e.checkBytes group block 0 content).map fun _ => counted report content := by
  rw [scanBlock_eq e false content [] (hreport.blocks_lt hb)]
  cases hlength : e.checkLength content with
  | error err => rfl
  | ok _ =>
    have hlen := e.checkLength_eq_ok_iff.1 hlength
    cases content with
    | nil => rfl
    | cons actual content =>
      exact scanBytes_false e hb 0 _ { report with blocks := report.blocks + 1 }
        (by rwa [Nat.zero_add]) (hreport.bytes_lt hb hlen)

theorem scanBlocks_done {start : Nat} (slots : List (Option Bytes)) {s : Scan}
    (hs : s.found ≠ []) : scanBlocks e false group start block slots s = .ok s := by
  induction slots generalizing block with
  | nil => rfl
  | cons slot slots ih =>
    cases slot with
    | none => exact ih
    | some content => rw [scanBlocks, Scan.isDone_false hs, if_pos rfl]

theorem scanBlocks_false {slots : List (Option Bytes)} {report : Report}
    (hslots : block + slots.length ≤ e.geometry.dataBlocks)
    (hreport : Bounded e.geometry block report) :
    (scanBlocks e false group (group * e.geometry.groupCapacity) block slots
        ⟨report, []⟩).bind Scan.verdict =
      (e.checkBlocks group block slots).map (report + ·) := by
  induction slots generalizing block report with
  | nil => rfl
  | cons slot slots ih =>
    rw [List.length_cons] at hslots
    cases slot with
    | none => exact ih (by omega) hreport.succ
    | some content =>
      have hdone : (Scan.mk report []).isDone false = false := rfl
      have hbind : scanBlocks e false group (group * e.geometry.groupCapacity) block
          (some content :: slots) ⟨report, []⟩ =
            (scanBlock e false group (group * e.geometry.groupCapacity) block content
              ⟨report, []⟩).bind
              (scanBlocks e false group (group * e.geometry.groupCapacity) (block + 1) slots) := by
        rw [scanBlocks, hdone]
        cases scanBlock e false group (group * e.geometry.groupCapacity) block content
          ⟨report, []⟩ with
        | error err => rfl
        | ok s => rfl
      rw [hbind, verdict_bind _ fun s hs => scanBlocks_done e slots hs,
        scanBlock_false e (by omega) hreport, Expectation.checkBlocks]
      cases hlength : e.checkLength content with
      | error err => rfl
      | ok _ =>
        have hlen := e.checkLength_eq_ok_iff.1 hlength
        cases e.checkBytes group block 0 content with
        | error err => rfl
        | ok _ =>
          refine (ih (by omega) (hreport.counted hlen)).trans ?_
          cases e.checkBlocks group (block + 1) slots with
          | error err => rfl
          | ok rest => exact congrArg Except.ok (counted_add ..)

end Blocks

/-! ## Groups -/

theorem scan_eq (all : Bool) (b : Buffers) : scan e all b = (e.checkShape b).bind fun _ =>
    scanBlocks e all b.group (b.group * e.geometry.groupCapacity) 0 b.data ⟨⟨1, 0, 0⟩, []⟩ := by
  rw [scan, groupStart, groupCapacity_eq, Expectation.checkShape]
  dsimp only
  by_cases hdata : e.geometry.dataBlocks < b.data.length
  · rw [if_pos hdata, if_pos hdata]
    rfl
  · rw [if_neg hdata, if_neg hdata]
    by_cases hstart : size ≤ b.group * e.geometry.groupCapacity
    · rw [mul_eq_error hstart, if_pos hstart]
      rfl
    · rw [mul_eq_ok (Nat.lt_of_not_le hstart), if_neg hstart]
      rfl

/-- The counts at the start of a pass. -/
theorem bounded_start (g : Geometry) : Bounded g 0 ⟨1, 0, 0⟩ := ⟨Nat.le_refl _, Nat.zero_le _⟩

/-- **Stopping at the first mismatch in words is exact.** -/
theorem checkGroup_eq (b : Buffers) : checkGroup e b = e.checkGroup b := by
  have hverdict : checkGroup e b = (scan e false b).bind Scan.verdict := by
    rw [checkGroup]
    rcases scan e false b with err | ⟨report, _ | ⟨m, found⟩⟩
    · rfl
    · rfl
    · rfl
  rw [hverdict, scan_eq, Expectation.checkGroup]
  cases hshape : e.checkShape b with
  | error err => rfl
  | ok _ =>
    have hdata := (e.checkShape_eq_ok_iff.1 hshape).1
    refine (scanBlocks_false e (by omega) (bounded_start _)).trans ?_
    cases e.checkBlocks b.group 0 b.data with
    | error err => rfl
    | ok report => rfl

/-- **Listing all mismatches in words is exact.** -/
theorem groupMismatches_eq (b : Buffers) : groupMismatches e b = e.groupMismatches b := by
  have hfound : groupMismatches e b = (scan e true b).map Scan.found := by
    rw [groupMismatches]
    cases scan e true b with
    | error err => rfl
    | ok s => rfl
  rw [hfound, scan_eq, Expectation.groupMismatches]
  cases hshape : e.checkShape b with
  | error err => rfl
  | ok _ =>
    have hdata := (e.checkShape_eq_ok_iff.1 hshape).1
    refine (scanBlocks_true e (by omega) (bounded_start _)).trans ?_
    dsimp only
    split
    · next err herr => exact congrArg (Except.map _) herr
    · next found hfound => exact congrArg (Except.map _) hfound

end Striping.Word
