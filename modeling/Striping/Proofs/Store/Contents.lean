import Striping.Proofs.Store.Consistency

/-!
# A store refines a map from paths to bytes

Every path reads back what its last successful write gave it, and is not found if there was none or
the path was deleted since (`Store.answers_run`). This holds whatever else is written and deleted,
and also if blocks that belong to no file are put, corrupted or dropped in between.

The invariant is `Store.Holds`: the store is consistent, and the blocks of every file are there.
What becomes of one file's blocks in a step is said by `Store.Intact.of_replaced` and
`Store.Intact.of_touched`.
-/

namespace Striping.Store

/-! ## Intact files -/

/-- The path holds the content, in blocks with ids from `first` on. -/
structure Intact (s : Store) (path : String) (first : Nat) (content : Bytes) : Prop where
  stored : Stored s path first content.length
  kept : ∀ id block, s.geometry.keptAt first content id = some block →
    s.blocks.get? id = some block

variable {s t : Store} {path other : String} {held : Option Bytes} {content : Bytes} {first : Nat}
  {target : Option Nat}

theorem Intact.ownedBy (h : Intact s path first content) {id : Nat} {block : Bytes}
    (hk : s.geometry.keptAt first content id = some block) : s.ownedBy path id :=
  (h.stored.ownedBy_iff id).2 (s.geometry.owned_of_keptAt hk)

/-- A file stays intact while another path is written or deleted. -/
theorem Intact.of_replaced (h : Intact s other first content) (hs : Consistent s)
    (hr : Replaced s path held t) (hne : other ≠ path) : Intact t other first content where
  stored := hr.stored hne h.stored
  kept id block hk := by
    rw [hr.geometry_eq] at hk
    rw [hs.block_eq hr hne (h.ownedBy hk)]
    exact h.kept id block hk

/-- A file that is written is intact. -/
theorem intact_of_replaced (hs : Consistent s) (hr : Replaced s path (some content) t)
    (hlen : content.length ≤ Bytes.maxLength) : Intact t path s.nextId content where
  stored := hr.stored_self hlen
  kept id block hk := by
    rw [hr.geometry_eq] at hk
    exact hs.block_new hr hk

/-- A file stays intact while blocks of no concern to it are touched. -/
theorem Intact.of_touched (h : Intact s path first content) (ht : Touched s target t)
    (hforeign : ∀ id, target = some id → ¬ s.ownedBy path id) : Intact t path first content where
  stored := ht.stored h.stored
  kept id block hk := by
    rw [ht.geometry_eq] at hk
    rw [ht.block_eq id fun htarget => hforeign id htarget (h.ownedBy hk)]
    exact h.kept id block hk

/-! ## Reading an intact file -/

theorem Intact.groups_eq (h : Intact s path first content) :
    s.groups path = .ok (s.geometry.records first content.length) := by
  rw [groups, file, h.stored.file_eq]
  rfl

theorem Intact.length_eq (h : Intact s path first content) :
    s.length path = .ok content.length := by
  rw [length, file, h.stored.file_eq]
  rfl

/-- **An intact file is fetched as the columns of its content.** -/
theorem Intact.fetchGroups_eq (h : Intact s path first content) :
    (s.fetchGroups s.geometry (s.geometry.records first content.length)).1 =
      .ok (s.geometry.fileBuffers content) := by
  have hread : ∀ group ∈ List.range (s.geometry.groupCount content.length),
      (s.geometry.groupRecord first content.length group).readFrom s.blocks s.geometry group =
        .ok (s.geometry.buffers content group) := by
    intro group hg
    have hlt := List.mem_range.1 hg
    refine s.geometry.readFrom_groupRecord ?_ ?_ fun i hi hne => ?_
    · exact Nat.le_trans (s.geometry.groupId_add_width_le first hlt) h.stored.le_size
    · exact s.geometry.start_add_groupCapacity_le h.stored.length_le hlt
    · exact h.kept _ _ ((s.geometry.keptAt_eq_some_iff ..).2 ⟨group, hlt, i, hi, hne, rfl, rfl⟩)
  rw [fetchGroups_fst, Geometry.records, zipIdx_map_range, List.mapM_map]
  exact mapM_eq_ok hread

/-- **An intact file reads back its content**, and any prefix of it. -/
theorem Intact.readGroups_eq (h : Intact s path first content) {length : Nat}
    (hlen : length ≤ content.length) :
    (s.readGroups s.geometry length (s.geometry.records first content.length)).1 =
      .ok (content.take length) := by
  rw [readGroups_fst, h.fetchGroups_eq]
  exact s.geometry.joinGroups_buffers hlen

/-! ## The invariant -/

/-- What the path holds, if anything, is intact. -/
def HoldsAt (s : Store) (path : String) : Option Bytes → Prop
  | none => s.files.get? path = none
  | some content => ∃ first, Intact s path first content

/-- Each path holds what the map says. -/
structure Holds (s : Store) (held : Contents) : Prop where
  consistent : Consistent s
  holdsAt : ∀ path, HoldsAt s path (held path)

theorem HoldsAt.of_replaced (h : HoldsAt s other held) (hs : Consistent s) {new : Option Bytes}
    (hr : Replaced s path new t) (hne : other ≠ path) : HoldsAt t other held := by
  cases held with
  | none => exact (hr.other_file_eq other hne).trans h
  | some content =>
    obtain ⟨first, hi⟩ := h
    exact ⟨first, hi.of_replaced hs hr hne⟩

theorem holdsAt_of_replaced (hs : Consistent s) (hr : Replaced s path held t)
    (hfits : Fits held) : HoldsAt t path held := by
  cases held with
  | none => exact hr.file_eq
  | some content => exact ⟨s.nextId, intact_of_replaced hs hr (hfits content rfl)⟩

theorem HoldsAt.of_touched (h : HoldsAt s path held) (ht : Touched s target t)
    (hforeign : ∀ id, target = some id → ¬ s.ownedBy path id) : HoldsAt t path held := by
  cases held with
  | none =>
    rw [HoldsAt, ht.files_eq]
    exact h
  | some content =>
    obtain ⟨first, hi⟩ := h
    exact ⟨first, hi.of_touched ht hforeign⟩

theorem holds_empty (g : Geometry) (first : Nat) : Holds (empty g first) fun _ => none :=
  ⟨consistent_empty g first, fun _ => rfl⟩

/-- The call changes no block of a file but by writing or deleting the file. -/
def Spares (s : Store) (c : Call) : Prop :=
  c.Fits ∧ ∀ id, c.target = some id → ∀ path, ¬ s.ownedBy path id

/-- **Every call that spares the files keeps the contents.** -/
theorem Holds.after {held : Contents} (h : Holds s held) {c : Call} (hc : Spares s c) :
    Holds (s.after c) (s.contentsAfter held c) := by
  refine ⟨h.consistent.after hc.1, fun other => ?_⟩
  rcases s.after_cases hc.1 with ⟨path, new, hrev, hfits, hr⟩ | ⟨hrev, ht⟩
  · rw [contentsAfter, hrev]
    dsimp only
    by_cases hne : other = path
    · rw [hne, Function.update_self]
      exact holdsAt_of_replaced h.consistent hr hfits
    · rw [Function.update_of_ne hne]
      exact (h.holdsAt other).of_replaced h.consistent hr hne
  · rw [contentsAfter, hrev]
    exact (h.holdsAt other).of_touched ht fun id hid => hc.2 id hid other

theorem Holds.run {held : Contents} (h : Holds s held) {calls : List Call}
    (hcalls : Permits Spares s calls) : Holds (s.run calls) (s.contents held calls) :=
  run_refinement (fun _ _ _ hc hs => hs.after hc) hcalls h

theorem spares_of_plain (s : Store) {c : Call} (hc : c.Plain) : Spares s c :=
  ⟨hc.1, fun _ hid => nomatch hc.2.symm.trans hid⟩

/-- A store that writes, deletes and reads lead to holds the contents of its paths. -/
theorem holds_run_of_plain (g : Geometry) (first : Nat) {calls : List Call}
    (hcalls : ∀ c ∈ calls, c.Plain) :
    Holds ((empty g first).run calls) ((empty g first).contents (fun _ => none) calls) :=
  (holds_empty g first).run ((permits_of_forall hcalls).mono fun s _ hc => s.spares_of_plain hc)

theorem geometry_run_of_plain (g : Geometry) (first : Nat) {calls : List Call}
    (hcalls : ∀ c ∈ calls, c.Plain) : ((empty g first).run calls).geometry = g :=
  geometry_run (fun _ _ hc => hc.1) (permits_of_forall hcalls)

/-! ## The contents of reachable stores -/

/-- What the store answers for a path that holds this: its length and, read from the groups that the
store names, its bytes, or that there is no file. -/
def Answers (g : Geometry) (s : Store) (path : String) : Option Bytes → Prop
  | some content => s.length path = .ok content.length ∧
      ∃ records, s.groups path = .ok records ∧
        (s.readGroups g content.length records).1 = .ok content
  | none => s.length path = .error (.fileNotFound path) ∧
      s.groups path = .error (.fileNotFound path)

theorem HoldsAt.answers (h : HoldsAt s path held) : Answers s.geometry s path held := by
  cases held with
  | none =>
    rw [HoldsAt] at h
    rw [Answers, length, groups, file, h]
    exact ⟨rfl, rfl⟩
  | some content =>
    obtain ⟨first, hi⟩ := h
    refine ⟨hi.length_eq, _, hi.groups_eq, ?_⟩
    rw [hi.readGroups_eq (Nat.le_refl _), List.take_length]

/-- **A store refines a map from paths to bytes**: after any calls that spare the blocks of files,
it answers for every path as for what was last written to it. -/
theorem answers_run (g : Geometry) (first : Nat) {calls : List Call}
    (hcalls : Permits Spares (empty g first) calls) (path : String) :
    Answers g ((empty g first).run calls) path
      ((empty g first).contents (fun _ => none) calls path) := by
  have hg : ((empty g first).run calls).geometry = g := geometry_run (fun _ _ hc => hc.1) hcalls
  have h := (((holds_empty g first).run hcalls).holdsAt path).answers
  rwa [hg] at h

/-- A block of no file is put, and one path is written again after another was deleted. -/
def rewriting : List Call :=
  [.put 4 [0], .write "a" [1, 2, 3], .write "b" [4], .delete "b", .delete "c",
    .write "a" [5, 6, 7, 8, 9, 10, 11, 12, 13]]

theorem answers_run_rewriting :
    Permits Spares (empty .small 1) rewriting ∧
      Answers .small ((empty .small 1).run rewriting) "a"
        (some [5, 6, 7, 8, 9, 10, 11, 12, 13]) ∧
      Answers .small ((empty .small 1).run rewriting) "b" none := by
  have hput : Spares (empty .small 1) (.put 4 [0]) := by
    refine ⟨by decide, fun id hid path howned => ?_⟩
    obtain ⟨file, hfile, -⟩ := howned
    simp [empty] at hfile
  have hplain : ∀ c ∈ rewriting.tail, c.Plain := by decide
  have hcalls : Permits Spares (empty .small 1) rewriting :=
    ⟨hput, (permits_of_forall hplain).mono fun s _ hc => s.spares_of_plain hc⟩
  have ha : (empty .small 1).contents (fun _ => none) rewriting "a" =
      some [5, 6, 7, 8, 9, 10, 11, 12, 13] := by decide +kernel
  have hb : (empty .small 1).contents (fun _ => none) rewriting "b" = none := by decide +kernel
  refine ⟨hcalls, ?_, ?_⟩
  · rw [← ha]
    exact answers_run .small 1 hcalls "a"
  · rw [← hb]
    exact answers_run .small 1 hcalls "b"

end Striping.Store
