import Striping.Proofs.Store.Contents

/-!
# Reading from an old answer

The groups that a store once named for a path stay readable as long as the path is not written again
or deleted. After that their ids hold no block, for ids are never given out twice (`Store.Gone`),
and reading from them fails at the first block. So an old answer gives the old content or an error,
and never other bytes (`Store.readGroups_later`).
-/

namespace Striping.Store

variable {s t : Store} {path : String} {held : Option Bytes} {content : Bytes}
  {first count : Nat} {calls : List Call}

/-! ## Ids that were given up -/

/-- The `count` ids from `first` on were given out and hold no block any more. -/
structure Gone (s : Store) (first count : Nat) : Prop where
  le_nextId : first + count ≤ s.nextId
  block_eq : ∀ id, first ≤ id → id < first + count → s.blocks.get? id = none

/-- Ids that were given up are not given out again. -/
theorem Gone.of_replaced (h : Gone s first count) (hr : Replaced s path held t) :
    Gone t first count where
  le_nextId := Nat.le_trans h.le_nextId hr.le_nextId
  block_eq id hle hlt := by
    by_cases hpath : s.ownedBy path id
    · exact hr.released id hpath
    · have hold := Nat.lt_of_lt_of_le hlt h.le_nextId
      rw [hr.block_eq id hpath, h.block_eq id hle hlt, Option.or_none]
      cases held with
      | none => rfl
      | some content =>
        exact s.geometry.keptAt_eq_none fun hrange => Nat.not_lt.2 hrange.1 hold

theorem Gone.of_touched (h : Gone s first count) (ht : Touched s none t) : Gone t first count where
  le_nextId := by
    rw [ht.nextId_eq]
    exact h.le_nextId
  block_eq id hle hlt := by
    rw [ht.block_eq id nofun]
    exact h.block_eq id hle hlt

theorem Gone.after (h : Gone s first count) {c : Call} (hc : c.Plain) :
    Gone (s.after c) first count := by
  rcases s.after_cases hc.1 with ⟨path, held, -, -, hr⟩ | ⟨-, ht⟩
  · exact h.of_replaced hr
  · rw [hc.2] at ht
    exact h.of_touched ht

theorem Gone.run (h : Gone s first count) (hcalls : ∀ c ∈ calls, c.Plain) :
    Gone (s.run calls) first count :=
  run_invariant (P := fun s => Gone s first count) (fun _ _ hc h => h.after hc)
    (permits_of_forall hcalls) h

/-- All ids of a file are given up when its path is written again or deleted. -/
theorem Intact.gone (h : Intact s path first content) (hr : Replaced s path held t) :
    Gone t first (s.geometry.idCount content.length) where
  le_nextId := Nat.le_trans h.stored.le_nextId hr.le_nextId
  block_eq id hle hlt := hr.released id ((h.stored.ownedBy_iff id).2 ⟨hle, hlt⟩)

/-! ## A file later in a run -/

theorem Intact.after (h : Intact s path first content) (hs : Consistent s) {c : Call}
    (hc : c.Plain) (hrev : ∀ held, s.revision c ≠ some (path, held)) :
    Intact (s.after c) path first content := by
  rcases s.after_cases hc.1 with ⟨other, held, hother, -, hr⟩ | ⟨-, ht⟩
  · exact h.of_replaced hs hr fun heq => hrev held (heq ▸ hother)
  · exact h.of_touched ht fun id hid => (s.spares_of_plain hc).2 id hid path

theorem Intact.gone_after (h : Intact s path first content) {c : Call} (hc : c.Plain)
    (hrev : s.revision c = some (path, held)) :
    Gone (s.after c) first (s.geometry.idCount content.length) := by
  rcases s.after_cases hc.1 with ⟨other, held', hother, -, hr⟩ | ⟨hnone, -⟩
  · rw [hrev, Option.some.injEq, Prod.mk.injEq] at hother
    obtain ⟨rfl, rfl⟩ := hother
    exact h.gone hr
  · exact nomatch hrev.symm.trans hnone

/-- **Later in a run, a file is intact or its ids are given up**, depending on whether its path was
revised. -/
theorem Intact.run (h : Intact s path first content) (hs : Consistent s)
    (hcalls : ∀ c ∈ calls, c.Plain) :
    (¬ Revises path s calls → Intact (s.run calls) path first content) ∧
      (Revises path s calls → Gone (s.run calls) first (s.geometry.idCount content.length)) := by
  induction calls generalizing s with
  | nil => exact ⟨fun _ => h, fun hrev => hrev.elim⟩
  | cons c rest ih =>
    have hc : c.Plain := hcalls c (.head _)
    have hrest : ∀ d ∈ rest, d.Plain := fun d hd => hcalls d (.tail _ hd)
    by_cases hrev : ∃ held, s.revision c = some (path, held)
    · obtain ⟨held, hheld⟩ := hrev
      exact ⟨fun hnot => absurd (.inl ⟨held, hheld⟩) hnot,
        fun _ => (h.gone_after hc hheld).run hrest⟩
    · have hnext := ih (h.after hs hc fun held hheld => hrev ⟨held, hheld⟩) (hs.after hc.1) hrest
      rw [s.geometry_after hc.1] at hnext
      exact ⟨fun hnot => hnext.1 (mt .inr hnot), fun hlater => hnext.2 (hlater.resolve_left hrev)⟩

/-- A file whose ids are given up is not read: its first block is missing. -/
theorem Gone.readGroups_eq {g : Geometry} {length : Nat} (h : Gone s first (g.idCount length))
    (hsize : first + g.idCount length ≤ Word.size) (hlen : length ≤ Bytes.maxLength)
    (hpos : 0 < g.groupCount length) :
    (s.readGroups g length (g.records first length)).1 =
      .error (.blockNotFound (g.groupId first 0)) := by
  have hwidth := g.groupId_add_width_le first hpos
  have hmissing : s.blocks.get? (g.groupId first 0) = none := by
    refine h.block_eq _ (Nat.le_add_right ..) ?_
    have := g.width_pos
    omega
  have hread : (g.groupRecord first length 0).readFrom s.blocks g 0 =
      .error (.blockNotFound (g.groupId first 0)) := by
    refine g.readFrom_groupRecord_of_missing (Nat.le_trans hwidth hsize) ?_ ?_ hmissing
    · exact g.start_add_groupCapacity_le hlen hpos
    · exact (g.groupLength_pos_iff length 0).2 hpos
  obtain ⟨rest, hrecords⟩ := g.exists_records_eq_cons first hpos
  rw [hrecords, readGroups_fst, fetchGroups_fst, List.zipIdx_cons]
  simp only [List.mapM_cons, hread]
  rfl

/-- Nothing is read from a file without bytes. -/
theorem readGroups_empty (s : Store) (g : Geometry) (first : Nat) :
    (s.readGroups g 0 (g.records first 0)).1 = .ok [] := by
  have hnone : g.records first 0 = [] := by simp [Geometry.records, Geometry.groupCount]
  rw [hnone]
  rfl

/-! ## Old answers -/

/-- **An old answer gives the old content or an error.** Let a store reached by writes, deletes and
reads hold content at a path, and name its length and groups. After any more such calls, reading
from this answer gives the content if the path was not revised since; if it was, the first block is
not found, unless the content is empty. -/
theorem readGroups_later (g : Geometry) (first : Nat) {calls later : List Call}
    (hcalls : ∀ c ∈ calls, c.Plain) (hlater : ∀ c ∈ later, c.Plain) {path : String}
    {content : Bytes} {length : Nat} {records : List GroupRecord}
    (hheld : (empty g first).contents (fun _ => none) calls path = some content)
    (hlength : ((empty g first).run calls).length path = .ok length)
    (hrecords : ((empty g first).run calls).groups path = .ok records) :
    let s := (empty g first).run calls
    let answer := ((s.run later).readGroups g length records).1
    (¬ Revises path s later → answer = .ok content) ∧
      (Revises path s later → content ≠ [] → ∃ record rest, records = record :: rest ∧
        answer = .error (.blockNotFound record.block.id)) ∧
      (Revises path s later → content = [] → answer = .ok []) := by
  intro s answer
  have hg : s.geometry = g := geometry_run_of_plain g first hcalls
  have hs : Holds s ((empty g first).contents (fun _ => none) calls) :=
    holds_run_of_plain g first hcalls
  have hpath := hs.holdsAt path
  rw [hheld] at hpath
  obtain ⟨id, hintact⟩ := hpath
  have hgroups := hintact.groups_eq
  rw [hg] at hgroups
  obtain rfl : length = content.length := Except.ok.inj (hlength.symm.trans hintact.length_eq)
  obtain rfl : records = g.records id content.length :=
    Except.ok.inj (hrecords.symm.trans hgroups)
  have hrun := hintact.run hs.consistent hlater
  rw [hg] at hrun
  have hgeometry : (s.run later).geometry = g :=
    (geometry_run (fun _ _ hc => hc.1) (permits_of_forall hlater)).trans hg
  refine ⟨fun hrev => ?_, fun hrev hne => ?_, fun hrev hnil => ?_⟩
  · have hread := (hrun.1 hrev).readGroups_eq (Nat.le_refl _)
    rwa [hgeometry, List.take_length] at hread
  · have hpos : 0 < g.groupCount content.length := by
      rw [g.lt_groupCount_iff, Nat.zero_mul]
      exact List.length_pos_iff.2 hne
    obtain ⟨rest, hrecords⟩ := g.exists_records_eq_cons id hpos
    exact ⟨_, rest, hrecords, (hrun.2 hrev).readGroups_eq (hg ▸ hintact.stored.le_size)
      hintact.stored.length_le hpos⟩
  · subst hnil
    exact readGroups_empty ..

/-- Two files are written, and then the first one again. -/
def answering : List Call := [.write "a" [1, 2, 3], .write "b" [4, 5]]

theorem readGroups_later_answering :
    (∀ c ∈ answering, c.Plain) ∧
      ((empty .small 1).contents (fun _ => none) answering "a" = some [1, 2, 3]) ∧
      ((empty .small 1).run answering).length "a" = .ok 3 ∧
      ∃ record, ((empty .small 1).run answering).groups "a" = .ok [record] ∧
        ((((empty .small 1).run answering).run [.delete "b", .delete "c"]).readGroups
          .small 3 [record]).1 = .ok [1, 2, 3] ∧
        ((((empty .small 1).run answering).run [.delete "b", .write "a" [6]]).readGroups
          .small 3 [record]).1 = .error (.blockNotFound record.block.id) := by
  have hcalls : ∀ c ∈ answering, c.Plain := by decide
  have hheld : (empty .small 1).contents (fun _ => none) answering "a" = some [1, 2, 3] := by
    decide +kernel
  have hlength : ((empty .small 1).run answering).length "a" = .ok 3 := by decide +kernel
  have hgroups : ((empty .small 1).run answering).groups "a" =
      .ok [Geometry.small.groupRecord 1 3 0] := by decide +kernel
  have hkept : ¬ Revises "a" ((empty .small 1).run answering) [.delete "b", .delete "c"] := by
    simp [Revises, revision]
  have hrev : Revises "a" ((empty .small 1).run answering) [.delete "b", .write "a" [6]] :=
    .inr (.inl ⟨some [6], by decide +kernel⟩)
  have hdelete : ∀ c ∈ [Call.delete "b", .delete "c"], c.Plain := by decide
  have hwrite : ∀ c ∈ [Call.delete "b", .write "a" [6]], c.Plain := by decide
  have hsame := (readGroups_later .small 1 hcalls hdelete hheld hlength hgroups).1 hkept
  obtain ⟨record, rest, hrecords, hgone⟩ :=
    (readGroups_later .small 1 hcalls hwrite hheld hlength hgroups).2.1 hrev (by decide)
  obtain ⟨rfl, -⟩ := List.cons.inj hrecords
  exact ⟨hcalls, hheld, hlength, _, hgroups, hsame, hgone⟩

end Striping.Store
