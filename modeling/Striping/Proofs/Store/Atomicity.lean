import Striping.Proofs.Store.Contents

/-!
# Calls that fail

A call on a store fails for a stated reason only (`Store.failure_eq_some_iff`), and a call that fails
leaves the store as it is (`Store.after_eq_of_failure`). So in a run the failing calls can be left out
(`Store.run_successes`).

Which paths a store finds depends on the history of writes and deletes alone, whatever becomes of its
blocks: `Store.Tracks` is kept by every call, and with it the reasons are stated of the history
(`Store.atomic_run`).
-/

namespace Striping

/-- The call is a single operation of the store. Fetching takes several, and counts those that it
made before one failed. -/
def Call.isSingle : Call → Bool
  | .fetchGroup .. | .fetchGroups .. | .readGroups .. => false
  | _ => true

/-- The error of an answer. -/
def refusal? {α : Type} : Except Error α → Option Error
  | .error e => some e
  | .ok _ => none

theorem refusal?_eq_some_iff {α : Type} {x : Except Error α} {e : Error} :
    refusal? x = some e ↔ x = .error e := by
  cases x <;> simp [refusal?]

namespace Store

/-- The error that a call answers, if it fails. -/
def failure (s : Store) : Call → Option Error
  | .write path content => refusal? (s.write path content).1
  | .delete path => refusal? (s.delete path).1
  | .put .. | .drop _ => none
  | .corrupt id offset value => refusal? (s.corrupt id offset value).1
  | .read id => refusal? (s.read id).1
  | .fetchGroup g group slots => refusal? (s.fetchGroup g group slots).1
  | .fetchGroups g records => refusal? (s.fetchGroups g records).1
  | .readGroups g length records => refusal? (s.readGroups g length records).1

/-- Why a call fails on a store with layout `g` whose paths hold this. -/
inductive Refused (g : Geometry) (s : Store) (held : Contents) : Call → Error → Prop
  /-- Fewer ids are left than the content takes. -/
  | write {path : String} {content : Bytes}
      (h : Word.size ≤ s.nextId + g.groupCount content.length * g.width) :
      Refused g s held (.write path content)
        (.storage (.idsExhausted (g.groupCount content.length * g.width) s.nextId))
  /-- The path holds nothing. -/
  | delete {path : String} (h : held path = none) :
      Refused g s held (.delete path) (.fileNotFound path)
  /-- There is no block to corrupt. -/
  | corrupt {id offset : Nat} {value : UInt8} (h : s.blocks.get? id = none) :
      Refused g s held (.corrupt id offset value) (.blockNotFound id)
  /-- The block to corrupt ends before the offset. -/
  | offset {id offset : Nat} {value : UInt8} {block : Bytes} (h : s.blocks.get? id = some block)
      (ho : block.length ≤ offset) :
      Refused g s held (.corrupt id offset value) (.blockOffset offset block.length)
  /-- There is no block to read. -/
  | read {id : Nat} (h : s.blocks.get? id = none) :
      Refused g s held (.read id) (.blockNotFound id)

/-! ## Which paths are found -/

/-- The layout of the store is `g`, the next id is a word, and the store finds the paths that hold
something. -/
structure Tracks (g : Geometry) (s : Store) (held : Contents) : Prop where
  geometry_eq : s.geometry = g
  nextId_lt : s.nextId < Word.size
  isSome_iff : ∀ path, (s.files.get? path).isSome ↔ (held path).isSome

variable {g : Geometry} {s t : Store} {held : Contents} {c : Call} {e : Error}

theorem tracks_empty (g : Geometry) {first : Nat} (h : first < Word.size) :
    Tracks g (empty g first) fun _ => none :=
  ⟨rfl, h, fun _ => Iff.rfl⟩

/-- New ids are words. -/
theorem Replaced.nextId_lt {path : String} {content : Option Bytes} (h : Replaced s path content t)
    (hs : s.nextId < Word.size) : t.nextId < Word.size := by
  rw [h.nextId_eq]
  cases content with
  | none => exact hs
  | some content => exact h.room content rfl

/-- **Every call keeps track of the paths**, also one that puts or drops blocks of files. -/
theorem Tracks.after (h : Tracks g s held) (c : Call) :
    Tracks g (s.after c) (s.contentsAfter held c) := by
  rcases s.after_effect c with ⟨path, content, hrev, hr⟩ | ⟨hrev, ht⟩
  · refine ⟨hr.geometry_eq.trans h.geometry_eq, hr.nextId_lt h.nextId_lt, fun other => ?_⟩
    rw [contentsAfter, hrev]
    dsimp only
    by_cases hne : other = path
    · rw [hne, Function.update_self, hr.file_eq, Option.isSome_map]
    · rw [Function.update_of_ne hne, hr.other_file_eq other hne]
      exact h.isSome_iff other
  · refine ⟨ht.geometry_eq.trans h.geometry_eq, ht.nextId_eq ▸ h.nextId_lt, fun other => ?_⟩
    rw [contentsAfter, hrev, ht.files_eq]
    exact h.isSome_iff other

theorem Tracks.run (h : Tracks g s held) (calls : List Call) :
    Tracks g (s.run calls) (s.contents held calls) := by
  have hall : Permits (fun _ _ => True) s calls := permits_of_forall fun _ _ => trivial
  exact run_refinement (fun _ _ c _ hs => hs.after c) hall h

theorem Tracks.get?_eq_none_iff (h : Tracks g s held) (path : String) :
    s.files.get? path = none ↔ held path = none := by
  rw [← Option.not_isSome_iff_eq_none, h.isSome_iff, Option.not_isSome_iff_eq_none]

/-- A path is not found if it holds nothing. -/
theorem Tracks.file_eq_error_iff (h : Tracks g s held) (path : String) (e : Error) :
    s.file path = .error e ↔ held path = none ∧ e = .fileNotFound path := by
  rw [← h.get?_eq_none_iff, file]
  cases s.files.get? path <;> simp [eq_comm]

/-! ## One call -/

theorem failure_write (s : Store) (path : String) (content : Bytes) :
    s.failure (.write path content) =
      if Word.size ≤ s.nextId + s.geometry.idCount content.length then
        some (.storage (.idsExhausted (s.geometry.idCount content.length) s.nextId))
      else none := by
  rcases s.write_cases path content with ⟨t, hw, ht⟩ | ⟨hle, hw⟩
  · rw [failure, hw, if_neg (Nat.not_le_of_lt (ht.room content rfl))]
    rfl
  · rw [failure, hw, if_pos hle]
    rfl

theorem failure_delete (s : Store) (path : String) : s.failure (.delete path) =
    if s.files.get? path = none then some (.fileNotFound path) else none := by
  rcases s.delete_cases path with ⟨t, hd, hsome, -⟩ | ⟨hnone, hd⟩
  · rw [failure, hd, if_neg (Option.isSome_iff_ne_none.1 hsome)]
    rfl
  · rw [failure, hd, if_pos hnone]
    rfl

/-- **A call fails for a stated reason.** -/
theorem failure_eq_some_iff (h : Tracks g s held) (hc : c.isSingle) :
    s.failure c = some e ↔ Refused g s held c e := by
  cases c with
  | write path content =>
    rw [failure_write, h.geometry_eq, Option.ite_none_right_eq_some, Option.some.injEq]
    constructor
    · rintro ⟨hle, rfl⟩
      exact .write hle
    · intro hrefused
      cases hrefused with
      | write hle => exact ⟨hle, rfl⟩
  | delete path =>
    rw [failure_delete, Option.ite_none_right_eq_some, h.get?_eq_none_iff, Option.some.injEq]
    constructor
    · rintro ⟨hnone, rfl⟩
      exact .delete hnone
    · intro hrefused
      cases hrefused with
      | delete hnone => exact ⟨hnone, rfl⟩
  | put | drop => exact iff_of_false nofun nofun
  | corrupt id offset value =>
    rw [failure, refusal?_eq_some_iff, Store.corrupt]
    constructor
    · intro hfails
      split at hfails
      · next hnone =>
        cases hfails
        exact .corrupt hnone
      · next block hblock =>
        split at hfails
        · next ho =>
          cases hfails
          exact .offset hblock ho
        · cases hfails
    · intro hrefused
      cases hrefused with
      | corrupt hnone => rw [hnone]
      | offset hblock ho =>
        rw [hblock]
        dsimp only
        rw [if_pos ho]
  | read id =>
    rw [failure, refusal?_eq_some_iff, Store.read]
    constructor
    · intro hfails
      split at hfails
      · next hnone =>
        cases hfails
        exact .read hnone
      · cases hfails
    · intro hrefused
      cases hrefused with
      | read hnone => rw [hnone]
  | fetchGroup | fetchGroups | readGroups => cases hc

/-- **A call that fails leaves the store as it is**: files, blocks, ids and counts. -/
theorem after_eq_of_failure (hc : c.isSingle) (h : s.failure c = some e) : s.after c = s := by
  cases c with
  | write path content =>
    rcases s.write_cases path content with ⟨t, hw, -⟩ | ⟨-, hw⟩
    · rw [failure, hw] at h
      cases h
    · rw [after, hw]
  | delete path =>
    rcases s.delete_cases path with ⟨t, hd, -, -⟩ | ⟨-, hd⟩
    · rw [failure, hd] at h
      cases h
    · rw [after, hd]
  | put | drop => cases h
  | corrupt id offset value =>
    rw [failure, refusal?_eq_some_iff, Store.corrupt] at h
    rw [after, Store.corrupt]
    cases hblock : s.blocks.get? id with
    | none => rfl
    | some block =>
      rw [hblock] at h
      dsimp only at h ⊢
      by_cases ho : block.length ≤ offset
      · rw [if_pos ho]
      · rw [if_neg ho] at h
        cases h
  | read id =>
    rw [failure, refusal?_eq_some_iff, Store.read] at h
    rw [after, Store.read]
    cases hblock : s.blocks.get? id with
    | none => rfl
    | some block =>
      rw [hblock] at h
      cases h
  | fetchGroup | fetchGroups | readGroups => cases hc

/-- Content without bytes takes no ids, so that it can always be written. -/
theorem Tracks.failure_write_nil (h : Tracks g s held) (path : String) :
    s.failure (.write path []) = none := by
  have hcount : s.geometry.idCount ([] : Bytes).length = 0 := by
    rw [Geometry.idCount, Geometry.groupCount, List.length_nil, Nat.zero_div, Nat.zero_mod, if_pos rfl,
      Nat.zero_mul]
  rw [failure_write, hcount, Nat.add_zero, if_neg (Nat.not_le_of_lt h.nextId_lt)]

/-! ## Runs -/

/-- The calls of a run that do not fail. -/
def successes (s : Store) : List Call → List Call
  | [] => []
  | c :: rest =>
    if (s.failure c).isSome then s.successes rest else c :: (s.after c).successes rest

/-- **A run leaves the store that its successful calls leave.** -/
theorem run_successes {calls : List Call} (hcalls : ∀ c ∈ calls, c.isSingle) (s : Store) :
    s.run (s.successes calls) = s.run calls := by
  induction calls generalizing s with
  | nil => rfl
  | cons c rest ih =>
    have hrest : ∀ d ∈ rest, d.isSingle := fun d hd => hcalls d (.tail _ hd)
    change _ = (s.after c).run rest
    rw [successes]
    cases hfailure : s.failure c with
    | none => exact ih hrest (s.after c)
    | some e =>
      rw [after_eq_of_failure (hcalls c (.head _)) hfailure]
      exact ih hrest s

/-! ## The whole -/

/-- How a store with layout `g`, whose paths hold this, deals with what it cannot do. -/
structure Atomic (g : Geometry) (s : Store) (held : Contents) : Prop where
  /-- A call fails for a stated reason. -/
  failure_iff : ∀ c : Call, c.isSingle → ∀ e, s.failure c = some e ↔ Refused g s held c e
  /-- A path has a length if it holds something. -/
  length_iff : ∀ path e, s.length path = .error e ↔ held path = none ∧ e = .fileNotFound path
  /-- A path has groups if it holds something. -/
  groups_iff : ∀ path e, s.groups path = .error e ↔ held path = none ∧ e = .fileNotFound path
  /-- A call that fails changes nothing. -/
  after_eq : ∀ c : Call, c.isSingle → ∀ e, s.failure c = some e → s.after c = s
  /-- What can be read of a path can be read after a write to it failed. -/
  answers_after : ∀ path content e, s.failure (.write path content) = some e → ∀ old,
    Answers g s path old → Answers g (s.after (.write path content)) path old
  /-- After a write failed, a smaller one may succeed. -/
  exists_smaller : ∀ path content e, s.failure (.write path content) = some e →
    ∃ smaller : Bytes, smaller.length < content.length ∧
      (s.after (.write path content)).failure (.write path smaller) = none

theorem Tracks.atomic (h : Tracks g s held) : Atomic g s held where
  failure_iff _ hc _ := failure_eq_some_iff h hc
  length_iff path e := by
    rw [← h.file_eq_error_iff, length]
    cases s.file path <;> simp [Except.map]
  groups_iff path e := by
    rw [← h.file_eq_error_iff, groups]
    cases s.file path <;> simp [Except.map]
  after_eq _ hc _ := after_eq_of_failure hc
  answers_after path content e hfailure old hold := by
    rwa [after_eq_of_failure rfl hfailure]
  exists_smaller path content e hfailure := by
    have hnil := h.failure_write_nil path
    refine ⟨[], List.length_pos_iff.2 ?_, ?_⟩
    · rintro rfl
      cases hnil.symm.trans hfailure
    · rwa [after_eq_of_failure rfl hfailure]

/-- **Calls succeed or change nothing**, on every store that calls lead to, puts and drops of any
blocks included. A write fails exactly if the ids that its content takes would not all be words, a
delete or a look-up exactly if nothing was written to the path or it was deleted since, a corruption
or a read exactly if its block or its byte is not there. A store is left as it is by a call that
fails, and a run leaves the store that its successful calls leave. -/
theorem atomic_run (g : Geometry) {first : Nat} (hfirst : first < Word.size) (calls : List Call) :
    Atomic g ((empty g first).run calls) ((empty g first).contents (fun _ => none) calls) ∧
      ((∀ c ∈ calls, c.isSingle) →
        (empty g first).run ((empty g first).successes calls) = (empty g first).run calls) :=
  ⟨((tracks_empty g hfirst).run calls).atomic, fun hcalls => run_successes hcalls (empty g first)⟩

/-- Four ids are left, and a group takes three. Two writes fail, and so do a delete and a
corruption. -/
def exhausting : List Call :=
  [.write "a" [1, 2, 3], .write "b" [4], .put 7 [5], .write "a" [6], .delete "b", .corrupt 7 1 0,
    .drop 7]

theorem atomic_run_exhausting :
    Word.size - 4 < Word.size ∧ (∀ c ∈ exhausting, c.isSingle) ∧
      (empty .small (Word.size - 4)).run [.write "a" [1, 2, 3], .put 7 [5], .drop 7] =
        (empty .small (Word.size - 4)).run exhausting ∧
      ((empty .small (Word.size - 4)).run exhausting).failure (.write "a" [9]) =
        some (.storage (.idsExhausted 3 (Word.size - 1))) ∧
      Refused .small ((empty .small (Word.size - 4)).run exhausting)
        ((empty .small (Word.size - 4)).contents (fun _ => none) exhausting) (.write "a" [9])
        (.storage (.idsExhausted 3 (Word.size - 1))) ∧
      ((empty .small (Word.size - 4)).run exhausting).after (.write "a" [9]) =
        (empty .small (Word.size - 4)).run exhausting := by
  have hfirst : Word.size - 4 < Word.size := by decide
  have hsingle : ∀ c ∈ exhausting, c.isSingle := by decide
  have hsuccesses : (empty .small (Word.size - 4)).successes exhausting =
      [.write "a" [1, 2, 3], .put 7 [5], .drop 7] := by rfl
  have hfailure : ((empty .small (Word.size - 4)).run exhausting).failure (.write "a" [9]) =
      some (.storage (.idsExhausted 3 (Word.size - 1))) := by decide +kernel
  obtain ⟨h, hrun⟩ := atomic_run .small hfirst exhausting
  refine ⟨hfirst, hsingle, ?_, hfailure, (h.failure_iff _ rfl _).1 hfailure,
    h.after_eq _ rfl _ hfailure⟩
  rw [← hsuccesses]
  exact hrun hsingle

end Store

end Striping
