import Mathlib.Data.List.Induction
import Striping.FileTree

/-!
# Files that stay and files that are written

A path that resolves does so in any tree that has the same directories or more
(`FileTree.KeepsDirectories.resolve`). Making directories adds some where nothing was, and nothing
else (`FileTree.AddsDirectories`): every path that led to a file still leads to it, and there are no
new files. A file that is written is found at its path (`FileTree.find_of_write`).
-/

namespace Striping.FileTree

theorem entry?_insert (t : FileTree) {place : List String} (hplace : place ≠ []) (entry : Entry)
    (other : List String) :
    FileTree.entry? (t.insert place entry) other = if other = place then some entry else t.entry? other := by
  unfold FileTree.entry? insert
  by_cases h : other = []
  · rw [if_pos h, if_pos h, if_neg (h ▸ hplace.symm)]
  · rw [if_neg h, if_neg h, FiniteMap.get?_insert]

/-! ## Paths -/

/-- A path leads to a name in a directory if the names before lead to the directory. -/
theorem resolve_eq_ok_iff {t : FileTree} {path : String} {place : List String} {name : String} :
    t.resolve path = .ok (place, some name) ↔ ¬Path.limit < path.utf8ByteSize ∧
      t.enter (t.start path) (Path.names path).dropLast = .ok place ∧
      (Path.names path).getLast? = some name ∧ ¬(name = "." ∨ name = "..") := by
  unfold resolve
  dsimp only
  by_cases hlong : Path.limit < path.utf8ByteSize
  · simp only [hlong, if_true, not_true_eq_false, false_and]
    exact ⟨nofun, nofun⟩
  · simp only [hlong, if_false, not_false_eq_true, true_and]
    cases t.enter (t.start path) (Path.names path).dropLast with
    | error e => exact ⟨nofun, nofun⟩
    | ok place' =>
      cases (Path.names path).getLast? with
      | none => exact ⟨nofun, nofun⟩
      | some name' =>
        by_cases hstep : name' = "." ∨ name' = ".."
        · simp only [Except.map, hstep, if_true]
          refine ⟨nofun, fun h => ?_⟩
          rw [Option.some.inj h.2.1] at hstep
          exact absurd hstep h.2.2
        · simp only [Except.map, hstep, if_false]
          constructor
          · intro h
            cases h
            exact ⟨rfl, rfl, hstep⟩
          · rintro ⟨hplace, hname, -⟩
            cases hplace
            cases hname
            rfl

/-- The later tree has the directories of the earlier. -/
structure KeepsDirectories (t t' : FileTree) : Prop where
  here_eq : t'.here = t.here
  directory : ∀ place, t.entry? place = some .directory → t'.entry? place = some .directory

theorem start_eq_of_here_eq {t t' : FileTree} (h : t'.here = t.here) (path : String) :
    t'.start path = t.start path := by rw [start, start, h]

namespace KeepsDirectories

variable {t t' : FileTree}

theorem enter (h : KeepsDirectories t t') {place place' : List String} {names : List String}
    (henter : t.enter place names = .ok place') : t'.enter place names = .ok place' := by
  induction names generalizing place with
  | nil => exact henter
  | cons name names ih =>
    rw [FileTree.enter] at henter ⊢
    split at henter
    · cases henter
    · next hname =>
      rw [if_neg hname]
      split at henter
      · cases henter
      · cases henter
      · next hdirectory =>
        rw [h.directory _ hdirectory]
        exact ih henter

theorem resolve (h : KeepsDirectories t t') {path : String} {place : List String} {name : String}
    (hresolve : t.resolve path = .ok (place, some name)) :
    t'.resolve path = .ok (place, some name) := by
  obtain ⟨hlong, henter, hname⟩ := resolve_eq_ok_iff.1 hresolve
  rw [← start_eq_of_here_eq h.here_eq] at henter
  exact resolve_eq_ok_iff.2 ⟨hlong, h.enter henter, hname⟩

end KeepsDirectories

theorem find_eq_file_iff {t : FileTree} {path text : String} : t.find path = .file text ↔
    Path.endsInSlash path = false ∧ ∃ place name, t.resolve path = .ok (place, some name) ∧
      t.entry? (place ++ [name]) = some (.file text) := by
  unfold find
  constructor
  · intro h
    split at h
    · cases h
    · cases h
    · next place name hresolve =>
      split at h
      · cases h
      · cases h
      · next hentry =>
        split at h
        · cases h
        · next hslash =>
          cases h
          exact ⟨Bool.eq_false_iff.2 hslash, place, name, hresolve, hentry⟩
  · rintro ⟨hslash, place, name, hresolve, hentry⟩
    simp only [hresolve, hentry, hslash, Bool.false_eq_true, if_false]

/-! ## More directories -/

/-- The later tree has what the earlier has, and directories where the earlier has nothing. -/
structure AddsDirectories (t t' : FileTree) : Prop where
  here_eq : t'.here = t.here
  entry? : ∀ place, t'.entry? place = t.entry? place ∨
    t.entry? place = none ∧ t'.entry? place = some .directory

namespace AddsDirectories

variable {t t' t'' : FileTree}

theorem refl (t : FileTree) : AddsDirectories t t := ⟨rfl, fun _ => .inl rfl⟩

theorem trans (h : AddsDirectories t t') (h' : AddsDirectories t' t'') : AddsDirectories t t'' where
  here_eq := h'.here_eq.trans h.here_eq
  entry? place := by
    rcases h'.entry? place with hsame | ⟨hnone, hnew⟩
    · rw [hsame]
      exact h.entry? place
    · rcases h.entry? place with hsame | ⟨-, hdirectory⟩
      · exact .inr ⟨hsame ▸ hnone, hnew⟩
      · rw [hnone] at hdirectory
        cases hdirectory

theorem entry?_of_some (h : AddsDirectories t t') {place : List String} {entry : Entry}
    (hentry : t.entry? place = some entry) : t'.entry? place = some entry := by
  rcases h.entry? place with hsame | ⟨hnone, -⟩
  · rw [hsame, hentry]
  · rw [hentry] at hnone
    cases hnone

/-- **The files are the same.** -/
theorem file_iff (h : AddsDirectories t t') (place : List String) (text : String) :
    t'.entry? place = some (.file text) ↔ t.entry? place = some (.file text) := by
  refine ⟨fun hfile => ?_, h.entry?_of_some⟩
  rcases h.entry? place with hsame | ⟨-, hdirectory⟩
  · rw [← hsame, hfile]
  · rw [hfile] at hdirectory
    cases hdirectory

theorem keepsDirectories (h : AddsDirectories t t') : KeepsDirectories t t' where
  here_eq := h.here_eq
  directory _ := h.entry?_of_some

theorem find_eq_file (h : AddsDirectories t t') {path text : String}
    (hfind : t.find path = .file text) : t'.find path = .file text := by
  obtain ⟨hslash, place, name, hresolve, hentry⟩ := find_eq_file_iff.1 hfind
  exact find_eq_file_iff.2
    ⟨hslash, place, name, h.keepsDirectories.resolve hresolve, h.entry?_of_some hentry⟩

end AddsDirectories

/-! ## Paths that led nowhere -/

/-- Whatever is in the tree lies in a directory that is there. -/
def Rooted (t : FileTree) : Prop :=
  ∀ place name, t.entry? (place ++ [name]) ≠ none → t.entry? place = some .directory

theorem Rooted.directory_of_isPrefix {t : FileTree} (h : t.Rooted) {place place' : List String}
    (hle : place <+: place') (hdirectory : t.entry? place' = some .directory) :
    t.entry? place = some .directory := by
  obtain ⟨names, rfl⟩ := hle
  induction names using List.reverseRecOn with
  | nil => rwa [List.append_nil] at hdirectory
  | append_singleton names name ih =>
    rw [← List.append_assoc] at hdirectory
    exact ih (h _ name (hdirectory ▸ nofun))

/-- A path that never goes back leads further down. -/
theorem isPrefix_of_enter {t : FileTree} {place place' : List String} {names : List String}
    (hback : ".." ∉ names) (henter : t.enter place names = .ok place') : place <+: place' := by
  induction names generalizing place with
  | nil =>
    cases henter
    exact List.prefix_rfl
  | cons name names ih =>
    rw [List.mem_cons, not_or] at hback
    have hstep : place <+: step place name := by
      unfold step
      split
      · exact List.prefix_rfl
      · rw [if_neg (Ne.symm hback.1)]
        exact List.prefix_append _ _
    rw [enter] at henter
    split at henter
    · cases henter
    · split at henter
      · cases henter
      · cases henter
      · exact hstep.trans (ih hback.2 henter)

theorem Rooted.enter {t t' : FileTree} (h : t.Rooted) {place place' : List String}
    {names : List String} (hback : ".." ∉ names) (henter : t'.enter place names = .ok place')
    (hdirectory : t.entry? place' = some .directory) : t.enter place names = .ok place' := by
  induction names generalizing place with
  | nil => exact henter
  | cons name names ih =>
    rw [List.mem_cons, not_or] at hback
    rw [FileTree.enter] at henter ⊢
    split at henter
    · cases henter
    · next hname =>
      rw [if_neg hname]
      split at henter
      · cases henter
      · cases henter
      · rw [h.directory_of_isPrefix (isPrefix_of_enter hback.2 henter) hdirectory]
        exact ih hback.2 henter

/-- **A path that led nowhere leads to no file**, unless it goes back from a directory that was not
there. -/
theorem AddsDirectories.find_ne_file {t t' : FileTree} (h : AddsDirectories t t') (hrooted : t.Rooted)
    {path : String} (hback : ".." ∉ Path.names path) (hnothing : t.find path = .nothing)
    (text : String) : t'.find path ≠ .file text := by
  intro hfind
  obtain ⟨hslash, place, name, hresolve, hentry⟩ := find_eq_file_iff.1 hfind
  rw [h.file_iff] at hentry
  have hdirectory := hrooted place name (hentry ▸ nofun)
  obtain ⟨hlong, henter, hname⟩ := resolve_eq_ok_iff.1 hresolve
  rw [start_eq_of_here_eq h.here_eq] at henter
  have henter' := hrooted.enter (fun h => hback ((List.dropLast_sublist _).subset h)) henter hdirectory
  have hresolve' := resolve_eq_ok_iff.2 ⟨hlong, henter', hname⟩
  rw [find_eq_file_iff.2 ⟨hslash, place, name, hresolve', hentry⟩] at hnothing
  cases hnothing

/-! ## Making directories -/

theorem addsDirectories_makeDirectory (t : FileTree) (path : String) :
    AddsDirectories t (t.makeDirectory path).2 := by
  unfold makeDirectory
  split
  · exact .refl t
  · exact .refl t
  · next place name _ =>
    split
    · exact .refl t
    · split
      · exact .refl t
      · next hnone =>
        refine ⟨rfl, fun other => ?_⟩
        rw [entry?_insert t (List.append_ne_nil_of_right_ne_nil _ (List.cons_ne_nil _ _))]
        by_cases h : other = place ++ [name]
        · exact .inr ⟨h ▸ hnone, if_pos h⟩
        · exact .inl (if_neg h)

/-- The steps add directories to any tree, and nothing else. -/
def OnlyAdds {α : Type} (act : StateM FileTree α) : Prop := ∀ t, AddsDirectories t (act t).2

theorem OnlyAdds.pure {α : Type} (a : α) : OnlyAdds (Pure.pure a : StateM FileTree α) :=
  fun t => .refl t

theorem OnlyAdds.bind {α β : Type} {act : StateM FileTree α} {next : α → StateM FileTree β}
    (hact : OnlyAdds act) (hnext : ∀ a, OnlyAdds (next a)) : OnlyAdds (act >>= next) :=
  fun t => (hact t).trans (hnext _ _)

theorem onlyAdds_excuse (path : String) (e : PathError) : OnlyAdds (fileSystem.excuse path e) :=
  fun t => .refl t

/-- **Making directories leaves all files as they are**, whether it succeeds or not. -/
theorem onlyAdds_makeDirectories (paths : List String) :
    OnlyAdds (fileSystem.makeDirectories paths) := by
  induction paths with
  | nil => exact .pure _
  | cons path around ih =>
    have hmake : OnlyAdds (fileSystem.makeDirectory path) := fun t =>
      addsDirectories_makeDirectory t path
    unfold FileSystem.makeDirectories
    refine hmake.bind fun made => ?_
    split
    · exact .pure _
    · -- the directories around it come first
      refine ih.bind fun made => ?_
      split
      · exact .pure _
      · refine hmake.bind fun made => ?_
        split
        · exact .pure _
        · exact onlyAdds_excuse path _
    · exact onlyAdds_excuse path _

/-! ## Writing -/

/-- **A file that is written is found.** -/
theorem find_of_write {t t' : FileTree} {path text : String}
    (h : t.write path text = (.ok (), t')) : t'.find path = .file text := by
  unfold write at h
  split at h
  · cases h
  · cases h
  · next place name hresolve =>
    split at h
    · cases h
    · next hslash =>
      split at h
      · cases h
      · split at h
        · cases h
        · next hfree =>
          cases h
          have hplace : place ++ [name] ≠ [] :=
            List.append_ne_nil_of_right_ne_nil _ (List.cons_ne_nil _ _)
          have hkeeps : KeepsDirectories t (t.insert (place ++ [name]) (.file text)) := by
            refine ⟨rfl, fun other hdirectory => ?_⟩
            rw [entry?_insert t hplace, if_neg, hdirectory]
            rintro rfl
            exact hfree hdirectory
          refine find_eq_file_iff.2
            ⟨Bool.eq_false_iff.2 hslash, place, name, hkeeps.resolve hresolve, ?_⟩
          rw [entry?_insert t hplace, if_pos rfl]

theorem eq_of_write_eq_error {t t' : FileTree} {path text : String} {e : PathError}
    (h : t.write path text = (.error e, t')) : t' = t := by
  unfold write at h
  split at h
  · exact (congrArg Prod.snd h).symm
  · exact (congrArg Prod.snd h).symm
  · split at h
    · exact (congrArg Prod.snd h).symm
    · split at h
      · exact (congrArg Prod.snd h).symm
      · split at h
        · exact (congrArg Prod.snd h).symm
        · cases h

end Striping.FileTree
