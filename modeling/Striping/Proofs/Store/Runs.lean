import Striping.Proofs.Fetching
import Striping.Proofs.Store.Effects

/-!
# Runs of calls on a store

A run is a list of calls, made one after the other on the store that the last one left. Beside it
goes the plain map of contents: a write or a delete that succeeds revises one path
(`Store.revision`), and every other call leaves the map as it is (`Store.contents`).

A call replaces the file at one path, or touches the block at one id at most (`Store.after_effect`).
An invariant of runs is shown for each of the two, and holds of all stores reached
(`Store.run_invariant`, `Store.run_refinement`).
-/

namespace Striping

/-- A call on a store. Looking up a file or the counts leaves the store as it is and is no call. -/
inductive Call where
  | write (path : String) (content : Bytes)
  | delete (path : String)
  | put (id : Nat) (content : Bytes)
  | corrupt (id offset : Nat) (value : UInt8)
  | drop (id : Nat)
  | read (id : Nat)
  | fetchGroup (g : Geometry) (group : Nat) (slots : List (Option Member))
  | fetchGroups (g : Geometry) (records : List GroupRecord)
  | readGroups (g : Geometry) (length : Nat) (records : List GroupRecord)

/-- The id whose block the call changes without a file. -/
def Call.target : Call → Option Nat
  | .put id _ | .corrupt id _ _ | .drop id => some id
  | _ => none

/-- The call neither puts nor drops a block by its id. -/
def Call.keepsBlocks : Call → Bool
  | .put .. | .drop _ => false
  | _ => true

/-- What the call writes to a path fits into a machine's memory. -/
def Call.Fits : Call → Prop
  | .write _ content => content.length ≤ Bytes.maxLength
  | _ => True

instance : DecidablePred Call.Fits
  | .write _ content => inferInstanceAs (Decidable (content.length ≤ Bytes.maxLength))
  | .delete _ | .put .. | .corrupt .. | .drop _ | .read _ | .fetchGroup .. | .fetchGroups ..
  | .readGroups .. => inferInstanceAs (Decidable True)

/-- The call leaves the blocks to the files: it writes, deletes or reads. -/
def Call.Plain (c : Call) : Prop := c.Fits ∧ c.target = none

instance : DecidablePred Call.Plain := fun c =>
  inferInstanceAs (Decidable (c.Fits ∧ c.target = none))

/-- What each path holds. -/
abbrev Contents := String → Option Bytes

namespace Store

/-- The store that a call leaves. -/
def after (s : Store) : Call → Store
  | .write path content => (s.write path content).2
  | .delete path => (s.delete path).2
  | .put id content => s.put id content
  | .corrupt id offset value => (s.corrupt id offset value).2
  | .drop id => (s.drop id).2
  | .read id => (s.read id).2
  | .fetchGroup g group slots => (s.fetchGroup g group slots).2
  | .fetchGroups g records => (s.fetchGroups g records).2
  | .readGroups g length records => (s.readGroups g length records).2

/-- The store that a run leaves. -/
def run (s : Store) (calls : List Call) : Store := calls.foldl after s

/-- Each call of a run is allowed in the store on which it is made. -/
def Permits (allowed : Store → Call → Prop) : Store → List Call → Prop
  | _, [] => True
  | s, c :: rest => allowed s c ∧ Permits allowed (s.after c) rest

/-- The path that a call revises, and what the path holds from then on: calls that fail revise no
path. -/
def revision (s : Store) : Call → Option (String × Option Bytes)
  | .write path content =>
    if (s.write path content).1.isOk then some (path, some content) else none
  | .delete path => if (s.delete path).1.isOk then some (path, none) else none
  | _ => none

/-- What the paths hold after a call. -/
def contentsAfter (s : Store) (held : Contents) (c : Call) : Contents :=
  match s.revision c with
  | none => held
  | some (path, content) => Function.update held path content

/-- What the paths hold after a run: each what its last successful write gave it, unless it was
deleted since. -/
def contents (s : Store) (held : Contents) : List Call → Contents
  | [] => held
  | c :: rest => (s.after c).contents (s.contentsAfter held c) rest

/-- A call of the run revises the path. -/
def Revises (path : String) : Store → List Call → Prop
  | _, [] => False
  | s, c :: rest => (∃ content, s.revision c = some (path, content)) ∨ Revises path (s.after c) rest

/-! ## Steps -/

/-- What a path is given fits into a machine's memory. -/
def Fits (held : Option Bytes) : Prop := ∀ content, held = some content →
  content.length ≤ Bytes.maxLength

/-- Files and ids are as they were, and so is every block but the one at the target. -/
structure Touched (s : Store) (target : Option Nat) (t : Store) : Prop where
  geometry_eq : t.geometry = s.geometry
  nextId_eq : t.nextId = s.nextId
  files_eq : t.files = s.files
  block_eq : ∀ id, target ≠ some id → t.blocks.get? id = s.blocks.get? id

theorem OnlyRead.touched {s t : Store} (h : OnlyRead s t) (target : Option Nat) :
    Touched s target t := by
  rw [OnlyRead] at h
  rw [h]
  exact ⟨rfl, rfl, rfl, fun _ _ => rfl⟩

theorem touched_put (s : Store) (id : Nat) (content : Bytes) :
    Touched s (some id) (s.put id content) where
  geometry_eq := rfl
  nextId_eq := rfl
  files_eq := rfl
  block_eq other h := by rw [put, FiniteMap.get?_insert, if_neg fun ho => h (congrArg some ho.symm)]

theorem touched_corrupt (s : Store) (id offset : Nat) (value : UInt8) :
    Touched s (some id) (s.corrupt id offset value).2 := by
  rw [corrupt]
  cases s.blocks.get? id with
  | none => exact (OnlyRead.refl s).touched _
  | some content =>
    dsimp only
    split
    · exact (OnlyRead.refl s).touched _
    · refine ⟨rfl, rfl, rfl, fun other h => ?_⟩
      rw [FiniteMap.get?_insert, if_neg fun ho => h (congrArg some ho.symm)]

theorem touched_drop (s : Store) (id : Nat) : Touched s (some id) (s.drop id).2 where
  geometry_eq := rfl
  nextId_eq := rfl
  files_eq := rfl
  block_eq other h := by rw [drop, FiniteMap.get?_erase, if_neg fun ho => h (congrArg some ho.symm)]

/-- **What a call does**: it replaces the content of one path, or touches no more than its
target. -/
theorem after_effect (s : Store) (c : Call) :
    (∃ path content, s.revision c = some (path, content) ∧ Replaced s path content (s.after c)) ∨
      s.revision c = none ∧ Touched s c.target (s.after c) := by
  cases c with
  | write path content =>
    rcases s.write_cases path content with ⟨t, hw, ht⟩ | ⟨-, hw⟩
    · exact .inl ⟨path, some content, by simp only [revision, hw]; rfl, by rwa [after, hw]⟩
    · refine .inr ⟨by simp only [revision, hw]; rfl, ?_⟩
      rw [after, hw]
      exact (OnlyRead.refl s).touched _
  | delete path =>
    rcases s.delete_cases path with ⟨t, hd, -, ht⟩ | ⟨-, hd⟩
    · exact .inl ⟨path, none, by simp only [revision, hd]; rfl, by rwa [after, hd]⟩
    · refine .inr ⟨by simp only [revision, hd]; rfl, ?_⟩
      rw [after, hd]
      exact (OnlyRead.refl s).touched _
  | put id content => exact .inr ⟨rfl, s.touched_put id content⟩
  | corrupt id offset value => exact .inr ⟨rfl, s.touched_corrupt id offset value⟩
  | drop id => exact .inr ⟨rfl, s.touched_drop id⟩
  | read id => exact .inr ⟨rfl, (s.onlyRead_read id).touched _⟩
  | fetchGroup g group slots => exact .inr ⟨rfl, (s.onlyRead_fetchGroup g group slots).touched _⟩
  | fetchGroups g records => exact .inr ⟨rfl, (s.onlyRead_fetchGroups g records).touched _⟩
  | readGroups g length records =>
    exact .inr ⟨rfl, (s.onlyRead_readGroups g length records).touched _⟩

/-- A path is given what the call writes. -/
theorem fits_of_revision {s : Store} {c : Call} {path : String} {content : Option Bytes}
    (h : c.Fits) (hrev : s.revision c = some (path, content)) : Fits content := by
  cases c with
  | write =>
    obtain ⟨-, hpair⟩ := Option.ite_none_right_eq_some.1 hrev
    cases hpair
    intro _ hcontent
    rwa [← Option.some.inj hcontent]
  | delete =>
    obtain ⟨-, hpair⟩ := Option.ite_none_right_eq_some.1 hrev
    cases hpair
    nofun
  | put | corrupt | drop | read | fetchGroup | fetchGroups | readGroups => cases hrev

/-- The same of a call that fits into a machine's memory: so does what it gives a path. -/
theorem after_cases (s : Store) {c : Call} (h : c.Fits) :
    (∃ path content, s.revision c = some (path, content) ∧ Fits content ∧
        Replaced s path content (s.after c)) ∨
      s.revision c = none ∧ Touched s c.target (s.after c) := by
  rcases s.after_effect c with ⟨path, content, hrev, hr⟩ | ht
  · exact .inl ⟨path, content, hrev, fits_of_revision h hrev, hr⟩
  · exact .inr ht

/-- No call changes the layout. -/
theorem geometry_after (s : Store) {c : Call} (h : c.Fits) :
    (s.after c).geometry = s.geometry := by
  rcases s.after_cases h with ⟨_, _, -, -, hr⟩ | ⟨-, hr⟩
  · exact hr.geometry_eq
  · exact hr.geometry_eq

/-- Corrupting a byte keeps the length of its block. -/
theorem map_length_corrupt (s : Store) (id offset : Nat) (value : UInt8) (other : Nat) :
    ((s.corrupt id offset value).2.blocks.get? other).map List.length =
      (s.blocks.get? other).map List.length := by
  rw [corrupt]
  cases h : s.blocks.get? id with
  | none => rfl
  | some content =>
    dsimp only
    split
    · rfl
    · rw [FiniteMap.get?_insert]
      split
      · next ho => simp [ho, h]
      · rfl

/-! ## Runs -/

variable {allowed : Store → Call → Prop}

theorem permits_of_forall {p : Call → Prop} {s : Store} {calls : List Call}
    (h : ∀ c ∈ calls, p c) : Permits (fun _ => p) s calls := by
  induction calls generalizing s with
  | nil => trivial
  | cons c rest ih => exact ⟨h c (.head _), ih fun d hd => h d (.tail _ hd)⟩

theorem Permits.mono {allowed' : Store → Call → Prop} (h : ∀ s c, allowed s c → allowed' s c)
    {s : Store} {calls : List Call} (hcalls : Permits allowed s calls) :
    Permits allowed' s calls := by
  induction calls generalizing s with
  | nil => trivial
  | cons c rest ih => exact ⟨h s c hcalls.1, ih hcalls.2⟩

/-- What each allowed call preserves holds of the store that a run leaves. -/
theorem run_invariant {P : Store → Prop}
    (hstep : ∀ s c, allowed s c → P s → P (s.after c)) {s : Store} {calls : List Call}
    (hcalls : Permits allowed s calls) (h : P s) : P (s.run calls) := by
  induction calls generalizing s with
  | nil => exact h
  | cons c rest ih => exact ih hcalls.2 (hstep s c hcalls.1 h)

/-- The same of what relates a store to the contents of its paths. -/
theorem run_refinement {P : Store → Contents → Prop}
    (hstep : ∀ s held c, allowed s c → P s held → P (s.after c) (s.contentsAfter held c))
    {s : Store} {held : Contents} {calls : List Call} (hcalls : Permits allowed s calls)
    (h : P s held) : P (s.run calls) (s.contents held calls) := by
  induction calls generalizing s held with
  | nil => exact h
  | cons c rest ih => exact ih hcalls.2 (hstep s held c hcalls.1 h)

theorem geometry_run (hfits : ∀ s c, allowed s c → c.Fits) {s : Store} {calls : List Call}
    (hcalls : Permits allowed s calls) : (s.run calls).geometry = s.geometry :=
  run_invariant (P := fun t => t.geometry = s.geometry)
    (fun t c hc ht => (t.geometry_after (hfits t c hc)).trans ht) hcalls rfl

end Store

end Striping
