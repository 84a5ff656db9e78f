import Striping.Command.Session
import Striping.Proofs.Files
import Striping.Proofs.Settings

/-!
# Initialization is all or nothing

A run that initializes either says that it made the settings file, and from then on the file alone
decides the settings of all runs that have none on their command lines, or it leaves every file as
it was (`Command.init_allOrNothing`). The file gives all five numbers, so no later environment
changes any of them: that the file is there with the text of the settings is what each later run
keeps (`Settled.perform`), and so all of them do (`Settled.allUse`).
-/

namespace Striping.Command

/-! ## Settings in effect -/

/-- The document at a path. A path that leads to nothing counts as an empty one. -/
def documentOf? : Found → Option Toml.Table
  | .nothing => some []
  | .unreadable _ => none
  | .file text => Toml.read text

/-- The settings in effect for a run, by what is at the path of its settings file and by what its
command line says. -/
def inEffect? (env : Environment) (found : Found) (o : Overrides) : Option Settings :=
  (documentOf? found).map fun t => Settings.effective env t o

/-- **A run works with the settings in effect.** -/
theorem inEffect?_of_settingsOf {env : Environment} {path : String} {found : Found} {s : Settings}
    (h : settingsOf env path found = .ok s) (o : Overrides) :
    inEffect? env found o = some (s.override o) := by
  cases found with
  | nothing =>
    cases h
    exact congrArg some (Settings.override_of_ofTable? rfl o).symm
  | unreadable e => cases h
  | file text =>
    unfold settingsOf at h
    dsimp only at h
    split at h
    · cases h
    · next hread =>
      cases h
      obtain ⟨t, ht, htable⟩ := Option.bind_eq_some_iff.1 hread
      rw [inEffect?, documentOf?, ht, Option.map_some, Settings.override_of_ofTable? htable]

/-! ## One run -/

section Run

variable {home : HomeLookup} {env : Environment} {args : List String} {r : Request}
  {path : String} {t : FileTree}

theorem run_eq_of_path?_none (hr : Request.ofArguments env args = .ok r)
    (hpath : r.path? home env = none) :
    run FileTree.fileSystem home env args t = (.failure "" .noHome, t) := by
  unfold run Request.perform
  rw [hr]
  dsimp only
  rw [hpath]
  rfl

theorem run_eq (hr : Request.ofArguments env args = .ok r) (hpath : r.path? home env = some path) :
    run FileTree.fileSystem home env args t =
      match settingsOf env path (t.find path) with
      | .error f => (.failure "" f, t)
      | .ok s => perform FileTree.fileSystem (s.override r.overrides) path r.task t := by
  unfold run Request.perform
  rw [hr]
  dsimp only
  rw [hpath]
  change (match settingsOf env path (t.find path) with
    | .error f => (return .failure "" f : StateM FileTree Outcome)
    | .ok s => perform FileTree.fileSystem (s.override r.overrides) path r.task) t = _
  cases settingsOf env path (t.find path) <;> rfl

end Run

/-! ## Saving -/

/-- What a run says that has made the settings file. -/
def createdReport (path : String) : Outcome := .success s!"✓ Created config file at {path}\n"

theorem failure_ne_createdReport (f : Failure) (path : String) :
    Outcome.failure "" f ≠ createdReport path := by
  rw [Outcome.failure]
  cases f.fault? with
  | none => exact fun h => by cases congrArg Outcome.status h
  | some fault => exact fun h => by cases congrArg Outcome.status h

/-- The run has not said that it made the settings file, and every file is as it was. -/
structure Spares (t : FileTree) (result : Outcome × FileTree) : Prop where
  unreported : ∀ path, result.1 ≠ createdReport path
  added : FileTree.AddsDirectories t result.2

/-- The file at the path has the text of the settings. -/
def Settled (s : Settings) (path : String) (t : FileTree) : Prop :=
  ∃ text, s.toText? = some text ∧ t.find path = .file text

theorem Spares.failure {t t' : FileTree} (f : Failure) (h : FileTree.AddsDirectories t t') :
    Spares t (.failure "" f, t') :=
  ⟨failure_ne_createdReport f, h⟩

theorem save_eq (s : Settings) (path : String) (t : FileTree) :
    save FileTree.fileSystem s path t =
      match FileTree.fileSystem.makeDirectories (Path.parents path) t with
      | (.error e, t₁) => (.failure "" (.noDirectory e), t₁)
      | (.ok (), t₁) =>
        match s.toText? with
        | none => (.failure "" .noText, t₁)
        | some text =>
          match t₁.write path text with
          | (.error e, t₂) => (.failure "" (.unwritable e), t₂)
          | (.ok (), t₂) => (createdReport path, t₂) := by
  simp only [save, bind, StateT.bind]
  cases FileTree.fileSystem.makeDirectories (Path.parents path) t with
  | mk made t₁ =>
    cases made with
    | error e => rfl
    | ok =>
      cases s.toText? with
      | none => rfl
      | some text =>
        have hwrite : FileTree.fileSystem.write path text t₁ = t₁.write path text := rfl
        dsimp only [StateT.bind]
        rw [hwrite]
        cases t₁.write path text with
        | mk written t₂ => cases written <;> rfl

/-- **Saving is all or nothing.** -/
theorem save_cases (s : Settings) (path : String) (t : FileTree) :
    (save FileTree.fileSystem s path t).1 = createdReport path ∧
      Settled s path (save FileTree.fileSystem s path t).2 ∨
    Spares t (save FileTree.fileSystem s path t) := by
  have hadds := FileTree.onlyAdds_makeDirectories (Path.parents path) t
  rw [save_eq]
  cases hmake : FileTree.fileSystem.makeDirectories (Path.parents path) t with
  | mk made t₁ =>
    rw [hmake] at hadds
    cases made with
    | error e => exact .inr (.failure _ hadds)
    | ok =>
      cases htext : s.toText? with
      | none => exact .inr (.failure _ hadds)
      | some text =>
        dsimp only
        cases hwrite : t₁.write path text with
        | mk written t₂ =>
          cases written with
          | error e =>
            rw [FileTree.eq_of_write_eq_error hwrite]
            exact .inr (.failure _ hadds)
          | ok => exact .inl ⟨rfl, text, htext, FileTree.find_of_write hwrite⟩

/-- The file system makes the directories that lead to the path, and takes any text there. -/
def Takes (t : FileTree) (path : String) : Prop :=
  let made := FileTree.fileSystem.makeDirectories (Path.parents path) t
  made.1 = .ok () ∧ ∀ text, (made.2.write path text).1 = .ok ()

/-- Settings with a text are saved where the file system takes them. -/
theorem save_of_takes {s : Settings} {path text : String} {t : FileTree} (h : Takes t path)
    (htext : s.toText? = some text) :
    (save FileTree.fileSystem s path t).1 = createdReport path := by
  obtain ⟨hmade, hwrites⟩ := h
  rw [save_eq]
  cases hmake : FileTree.fileSystem.makeDirectories (Path.parents path) t with
  | mk made t₁ =>
    rw [hmake] at hmade hwrites
    dsimp only at hmade hwrites
    subst hmade
    rw [htext]
    dsimp only
    have hwritten := hwrites text
    cases hwrite : t₁.write path text with
    | mk written t₂ =>
      rw [hwrite] at hwritten
      dsimp only at hwritten
      subst hwritten
      rfl

/-! ## Initializing -/

theorem alreadyThere_ne_createdReport (path path' : String) :
    Outcome.success s!"! Config file already exists at {path}\n  Use --force to overwrite\n"
      ≠ createdReport path' := fun h => by
  have hhead := congrArg (fun o : Outcome => o.output.toList.head?) h
  simp [createdReport, Outcome.success, toString] at hhead

theorem init_eq (s : Settings) (path : String) (force : Bool) (t : FileTree) :
    init FileTree.fileSystem s path force t =
      if (t.find path).isThere && !force then
        (.success s!"! Config file already exists at {path}\n  Use --force to overwrite\n", t)
      else
        match s.geometry, s.pattern with
        | .error e, _ => (.failure "" (.layout e), t)
        | .ok _, .error e => (.failure "" (.pattern e), t)
        | .ok _, .ok _ => save FileTree.fileSystem s path t := by
  simp only [init, bind, StateT.bind, FileTree.fileSystem]
  split
  · rfl
  · cases s.geometry <;> cases s.pattern <;> rfl

/-- What an initialization needs to write: a free path or the permission to write over a file, and
valid settings. -/
structure Allowed (s : Settings) (found : Found) (force : Bool) : Prop where
  free : found.isThere = true → force = true
  geometry : ∃ g, s.geometry = .ok g
  pattern : ∃ p, s.pattern = .ok p

/-- **Initializing is all or nothing**, for any settings. -/
theorem init_cases (s : Settings) (path : String) (force : Bool) (t : FileTree) :
    (init FileTree.fileSystem s path force t).1 = createdReport path ∧
      Allowed s (t.find path) force ∧
      Settled s path (init FileTree.fileSystem s path force t).2 ∨
    Spares t (init FileTree.fileSystem s path force t) := by
  rw [init_eq]
  split
  · exact .inr ⟨alreadyThere_ne_createdReport path, .refl t⟩
  · next hfree =>
    cases hgeometry : s.geometry with
    | error e => exact .inr (.failure _ (.refl t))
    | ok g =>
      cases hpattern : s.pattern with
      | error e => exact .inr (.failure _ (.refl t))
      | ok p =>
        refine (save_cases s path t).imp_left fun ⟨hreport, hsettled⟩ =>
          ⟨hreport, ⟨fun hthere => ?_, ⟨g, hgeometry⟩, ⟨p, hpattern⟩⟩, hsettled⟩
        simpa [hthere] using hfree

/-- Allowed settings with a text are written where the file system takes them. -/
theorem init_of_takes {s : Settings} {path text : String} {force : Bool} {t : FileTree}
    (h : Takes t path) (hallowed : Allowed s (t.find path) force) (htext : s.toText? = some text) :
    (init FileTree.fileSystem s path force t).1 = createdReport path := by
  obtain ⟨g, hgeometry⟩ := hallowed.geometry
  obtain ⟨p, hpattern⟩ := hallowed.pattern
  have hfree : ¬((t.find path).isThere && !force) = true := by
    rw [Bool.and_eq_true, not_and]
    intro hthere
    rw [hallowed.free hthere]
    exact nofun
  rw [init_eq, if_neg hfree, hgeometry, hpattern]
  exact save_of_takes h htext

/-! ## Later runs -/

/-- The arguments ask for a run with this path for its settings file, and with no settings on the
command line. -/
structure Follows (home : HomeLookup) (path : String) (env : Environment) (args : List String)
    (r : Request) : Prop where
  asked : Request.ofArguments env args = .ok r
  path_eq : r.path? home env = some path
  plain : r.overrides = ⟨none, none, none, none⟩

/-- A run with this path and without settings on its command line has these settings in effect, and
performs its task with them. -/
def Uses (home : HomeLookup) (s : Settings) (path : String) (env : Environment)
    (args : List String) (t : FileTree) : Prop :=
  ∃ r, Follows home path env args r ∧ inEffect? env (t.find path) r.overrides = some s ∧
    run FileTree.fileSystem home env args t = perform FileTree.fileSystem s path r.task t

/-- Each of several runs, one after the other, uses the settings. -/
def AllUse (home : HomeLookup) (s : Settings) (path : String) :
    List (Environment × List String) → FileTree → Prop
  | [], _ => True
  | (env, args) :: later, t =>
    Uses home s path env args t ∧
      AllUse home s path later (run FileTree.fileSystem home env args t).2

namespace Settled

variable {home : HomeLookup} {s : Settings} {path : String} {t t' : FileTree}

theorem settingsOf_eq (h : Settled s path t) (env : Environment) :
    settingsOf env path (t.find path) = .ok s := by
  obtain ⟨text, htext, hfind⟩ := h
  simp only [hfind, settingsOf, Settings.ofText?_of_toText? htext]

theorem uses (h : Settled s path t) {env : Environment} {args : List String} {r : Request}
    (hr : Follows home path env args r) : Uses home s path env args t := by
  have hsettings := h.settingsOf_eq env
  refine ⟨r, hr, ?_, ?_⟩
  · rw [inEffect?_of_settingsOf hsettings, hr.plain]
    rfl
  · rw [run_eq hr.asked hr.path_eq, hsettings, hr.plain]
    rfl

theorem of_addsDirectories (h : Settled s path t) (hadds : FileTree.AddsDirectories t t') :
    Settled s path t' :=
  h.imp fun _ h => ⟨h.1, hadds.find_eq_file h.2⟩

/-- **No task loses the settings.** An initialization without settings on its command line writes
the same text again. -/
theorem perform (h : Settled s path t) (task : Task) :
    Settled s path (perform FileTree.fileSystem s path task t).2 := by
  cases task with
  | init force =>
    rcases init_cases s path force t with ⟨-, -, hsettled⟩ | hspares
    · exact hsettled
    · exact h.of_addsDirectories hspares.added
  | _ => exact h

/-- **All later runs use the settings.** -/
theorem allUse (h : Settled s path t) {runs : List (Environment × List String)}
    (hruns : ∀ x ∈ runs, ∃ r, Follows home path x.1 x.2 r) : AllUse home s path runs t := by
  induction runs generalizing t with
  | nil => trivial
  | cons x runs ih =>
    obtain ⟨⟨r, hr⟩, hruns⟩ := List.forall_mem_cons.1 hruns
    obtain ⟨r', hr', heffect, hrun⟩ := h.uses hr
    refine ⟨⟨r', hr', heffect, hrun⟩, ih ?_ hruns⟩
    rw [hrun]
    exact h.perform r'.task

end Settled

/-! ## The whole -/

/-- The file has the settings, which are valid, and all later runs with the path and without settings
on their command lines have them in effect, whatever their environments are. -/
structure InForce (home : HomeLookup) (s : Settings) (path : String) (t : FileTree) : Prop where
  settled : Settled s path t
  geometry : ∃ g, s.geometry = .ok g
  pattern : ∃ p, s.pattern = .ok p
  later : ∀ t' : FileTree, t'.find path = t.find path →
    ∀ runs : List (Environment × List String), (∀ x ∈ runs, ∃ r, Follows home path x.1 x.2 r) →
      AllUse home s path runs t'

/-- What keeps an initialization from writing. -/
inductive Hindrance (env : Environment) (r : Request) (path : String) (found : Found)
    (force : Bool) : Prop where
  /-- The file is there, and may not be written over. -/
  | there (hthere : found.isThere = true) (hforce : force = false)
  /-- The older file cannot be read or gives no settings. -/
  | unread (f : Failure) (hread : settingsOf env path found = .error f)
  /-- The settings make no layout. -/
  | layout (s : Settings) (e : Error) (heffect : inEffect? env found r.overrides = some s)
    (hgeometry : s.geometry = .error e)
  /-- The settings make no pattern. -/
  | pattern (s : Settings) (e : Error) (heffect : inEffect? env found r.overrides = some s)
    (hpattern : s.pattern = .error e)
  /-- A number is no signed word. -/
  | large (s : Settings) (n : Nat) (heffect : inEffect? env found r.overrides = some s)
    (hmem : n ∈ s.numbers) (hlarge : 9223372036854775808 ≤ n)

/-- **A run that initializes is all or nothing**: it makes the file with the settings in effect, which
are valid, or it leaves every file as it was. -/
theorem run_cases {home : HomeLookup} {env : Environment} {args : List String} {r : Request}
    {force : Bool} (hr : Request.ofArguments env args = .ok r) (htask : r.task = .init force)
    (t : FileTree) :
    (∃ path s, r.path? home env = some path ∧ settingsOf env path (t.find path) = .ok s ∧
      (run FileTree.fileSystem home env args t).1 = createdReport path ∧
      Allowed (s.override r.overrides) (t.find path) force ∧
      Settled (s.override r.overrides) path (run FileTree.fileSystem home env args t).2) ∨
    Spares t (run FileTree.fileSystem home env args t) := by
  cases hpath : r.path? home env with
  | none =>
    rw [run_eq_of_path?_none hr hpath]
    exact .inr (.failure _ (.refl t))
  | some path =>
    rw [run_eq hr hpath]
    cases hsettings : settingsOf env path (t.find path) with
    | error f => exact .inr (.failure f (.refl t))
    | ok s =>
      dsimp only
      rw [htask]
      exact (init_cases _ path force t).imp_left fun h => ⟨path, s, rfl, hsettings, h⟩

theorem Settled.inForce (home : HomeLookup) {s : Settings} {path : String} {found : Found}
    {force : Bool} {t : FileTree} (h : Settled s path t) (hallowed : Allowed s found force) :
    InForce home s path t where
  settled := h
  geometry := hallowed.geometry
  pattern := hallowed.pattern
  later t' hfind _ hruns := by
    obtain ⟨text, htext, hfile⟩ := h
    exact Settled.allUse ⟨text, htext, hfind.trans hfile⟩ hruns

/-- What hinders an initialization is not there when one writes. -/
theorem Hindrance.elim {env : Environment} {r : Request} {path : String} {found : Found}
    {force : Bool} (h : Hindrance env r path found force) {s : Settings}
    (hsettings : settingsOf env path found = .ok s)
    (hallowed : Allowed (s.override r.overrides) found force) {t : FileTree}
    (hsettled : Settled (s.override r.overrides) path t) : False := by
  have heffect' := inEffect?_of_settingsOf hsettings r.overrides
  cases h with
  | there hthere hforce =>
    rw [hallowed.free hthere] at hforce
    cases hforce
  | unread f hread =>
    rw [hsettings] at hread
    cases hread
  | layout s' e heffect hgeometry =>
    cases heffect'.symm.trans heffect
    obtain ⟨g, hg⟩ := hallowed.geometry
    rw [hg] at hgeometry
    cases hgeometry
  | pattern s' e heffect hpattern =>
    cases heffect'.symm.trans heffect
    obtain ⟨p, hp⟩ := hallowed.pattern
    rw [hp] at hpattern
    cases hpattern
  | large s' n heffect hmem hlarge =>
    cases heffect'.symm.trans heffect
    obtain ⟨text, htext, -⟩ := hsettled
    exact absurd ((Settings.toText?_eq_some_iff.1 htext).1 n hmem) (Nat.not_lt_of_le hlarge)

/-- **Without a hindrance the file is made**, if the file system takes it. -/
theorem run_of_takes {home : HomeLookup} {env : Environment} {args : List String} {r : Request}
    {force : Bool} (hr : Request.ofArguments env args = .ok r) (htask : r.task = .init force)
    {path : String} (hpath : r.path? home env = some path) {t : FileTree}
    (hfree : ¬Hindrance env r path (t.find path) force) (h : Takes t path) :
    (run FileTree.fileSystem home env args t).1 = createdReport path := by
  rw [run_eq hr hpath]
  cases hsettings : settingsOf env path (t.find path) with
  | error f => exact absurd (.unread f hsettings) hfree
  | ok s =>
    have heffect := inEffect?_of_settingsOf hsettings r.overrides
    have hallowed : Allowed (s.override r.overrides) (t.find path) force := by
      refine ⟨fun hthere => ?_, ?_, ?_⟩
      · cases hforce : force with
        | false => exact absurd (.there hthere hforce) hfree
        | true => rfl
      · cases hgeometry : (s.override r.overrides).geometry with
        | error e => exact absurd (.layout _ e heffect hgeometry) hfree
        | ok g => exact ⟨g, rfl⟩
      · cases hpattern : (s.override r.overrides).pattern with
        | error e => exact absurd (.pattern _ e heffect hpattern) hfree
        | ok p => exact ⟨p, rfl⟩
    have htext : (s.override r.overrides).toText? =
        some (String.ofList ((s.override r.overrides).lines.flatMap Toml.Line.text)) := by
      refine Settings.toText?_eq_some_iff.2 ⟨fun n hn => ?_, String.toList_ofList⟩
      exact Nat.lt_of_not_le fun hlarge => hfree (.large _ n heffect hn hlarge)
    dsimp only
    rw [htask]
    exact init_of_takes h hallowed htext

/-- No file has come, changed or gone: whatever path led to a file still leads to it, and a path that
led nowhere leads to none, unless it goes back from a directory that was not there. -/
structure LeavesFiles (t t' : FileTree) : Prop where
  files : ∀ place text, t'.entry? place = some (.file text) ↔ t.entry? place = some (.file text)
  found : ∀ path text, t.find path = .file text → t'.find path = .file text
  absent : t.Rooted → ∀ path, ".." ∉ Path.names path → t.find path = .nothing →
    ∀ text, t'.find path ≠ .file text

theorem Spares.leavesFiles {t : FileTree} {result : Outcome × FileTree} (h : Spares t result) :
    LeavesFiles t result.2 :=
  ⟨h.added.file_iff, fun _ _ => h.added.find_eq_file, fun hrooted _ => h.added.find_ne_file hrooted⟩

/-- **Initializing is all or nothing, and what it writes is what later runs use.** A run that
initializes either says that it made the file, and then the settings in effect are valid and stay in
effect for all later runs with the same path and without settings on their command lines, in any
environments; or it says something else, and all files are as they were. The latter happens if the
file is there and may not be written over, if it gives no settings, and if a setting is invalid or
too large for a file; else the file is made, if the file system takes it. -/
theorem init_allOrNothing (home : HomeLookup) {env : Environment} {args : List String}
    {r : Request} {force : Bool} (hr : Request.ofArguments env args = .ok r)
    (htask : r.task = .init force) (t : FileTree) :
    let result := run FileTree.fileSystem home env args t
    ((∃ path s, r.path? home env = some path ∧ result.1 = createdReport path ∧
        inEffect? env (t.find path) r.overrides = some s ∧ InForce home s path result.2) ∨
      (∀ path, result.1 ≠ createdReport path) ∧ LeavesFiles t result.2) ∧
    ∀ path, r.path? home env = some path →
      (Hindrance env r path (t.find path) force →
        (∀ path', result.1 ≠ createdReport path') ∧ LeavesFiles t result.2) ∧
      (¬Hindrance env r path (t.find path) force → Takes t path →
        result.1 = createdReport path) := by
  intro result
  rcases run_cases hr htask t with
    ⟨path, s, hpath, hsettings, hreport, hallowed, hsettled⟩ | hspares
  · refine ⟨.inl ⟨path, _, hpath, hreport, inEffect?_of_settingsOf hsettings _,
      hsettled.inForce home hallowed⟩, fun path' hpath' =>
      ⟨fun hhindrance => ?_, run_of_takes hr htask hpath'⟩⟩
    cases hpath.symm.trans hpath'
    exact (hhindrance.elim hsettings hallowed hsettled).elim
  · have hrest := And.intro hspares.unreported hspares.leavesFiles
    exact ⟨.inr hrest, fun path' hpath' => ⟨fun _ => hrest, run_of_takes hr htask hpath'⟩⟩

/-- Two parity blocks of the environment and cells of eight bytes of the command line go into the
file, and stay in effect where the environment has changed, also where it has lost the variable of
the user's own directory, which the account still gives. -/
theorem init_allOrNothing_changing :
    let home : HomeLookup := .ofAccount (some "/h")
    let env : Environment := [("HOME", "/h"), ("STRIPE_PARITY_BLOCKS", "2")]
    let changed : Environment := [("HOME", "/h"), ("STRIPE_PARITY_BLOCKS", "7")]
    let homeless : Environment := [("STRIPE_CELL_SIZE", "1")]
    let args := ["config", "init", "--cell-size", "8"]
    Request.ofArguments env args = .ok ⟨none, ⟨some 8, none, none, none⟩, .init false⟩ ∧
      AllUse home ⟨8, 6, 2, 4, 29⟩ "/h/.stripelayout/config.toml"
        [(changed, ["config", "init", "--force"]), (homeless, ["locate", "7"])]
        (run FileTree.fileSystem home env args ⟨∅, []⟩).2 := by
  intro home env changed homeless args
  have hr : Request.ofArguments env args
      = .ok ⟨none, ⟨some 8, none, none, none⟩, .init false⟩ := by decide
  refine ⟨hr, ?_⟩
  rcases (init_allOrNothing home hr rfl ⟨∅, []⟩).1 with
    ⟨path, s, hpath, -, heffect, hinForce⟩ | ⟨hnot, -⟩
  · have hne : "/h" ≠ "" := by decide
    have hpath' : path = "/h/.stripelayout/config.toml" :=
      Option.some.inj (hpath.symm.trans (Request.path?_of_variable home rfl rfl hne))
    subst hpath'
    have hs : s = ⟨8, 6, 2, 4, 29⟩ := Option.some.inj (heffect.symm.trans (by decide))
    subst hs
    refine hinForce.later _ rfl _ ?_
    simp only [List.forall_mem_cons]
    exact ⟨⟨⟨none, ⟨none, none, none, none⟩, .init true⟩, by decide, rfl, rfl⟩,
      ⟨⟨none, ⟨none, none, none, none⟩, .locate [7]⟩, by decide, rfl, rfl⟩, nofun⟩
  · exact absurd (by decide +kernel) (hnot "/h/.stripelayout/config.toml")

end Striping.Command
