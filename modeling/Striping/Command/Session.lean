import Striping.Command.Arguments
import Striping.Command.Listing
import Striping.Command.Verification

/-!
# Runs of the program

A run reads its arguments, finds its settings and performs its task. It is written over the file
system that it uses and over the way to find the user's own directory: with `FileTree.fileSystem` it
is a function of the tree, which it returns changed.
-/

namespace Striping.Command

/-- The settings of the file at a path, given what was found there. -/
def settingsOf (env : Environment) (path : String) : Found → Except Failure Settings
  | .nothing => .ok (Settings.ofEnvironment env)
  | .unreadable e => .error (.unreadable path e)
  | .file text =>
    match Settings.ofText? text (Settings.ofEnvironment env) with
    | none => .error (.malformed path)
    | some settings => .ok settings

/-- The settings in words, and where they are kept. -/
def settingsText (g : Geometry) (s : Settings) (path : String) (found : Found) : String :=
  "\nstripelayout Configuration\n\n[striping]\n" ++
  s!"  cell_size = {g.cellSize}\n  data_blocks = {g.dataBlocks}\n" ++
  s!"  parity_blocks = {g.parityBlocks}\n  stripes_per_block = {g.stripesPerBlock}\n" ++
  s!"  # block capacity {g.blockCapacity} B, group capacity {g.groupCapacity} B\n\n" ++
  s!"[oracle]\n  modulus = {s.modulus}\n\nConfig file: {path}\n" ++
  if found.isThere then ""
  else "(not created yet) Run 'stripelayout config init' to create it\n"

/-- The outcome of what needs a layout. -/
def withGeometry (s : Settings) (f : Geometry → Outcome) : Outcome :=
  match s.geometry with
  | .error e => .failure "" (.layout e)
  | .ok g => f g

/-- The outcome of what needs a layout and a pattern. -/
def withPattern (s : Settings) (f : Geometry → Pattern → Outcome) : Outcome :=
  withGeometry s fun g =>
    match s.pattern with
    | .error e => .failure "" (.pattern e)
    | .ok p => f g p

section

variable {m : Type → Type} [Monad m] (fs : FileSystem m) (home : HomeLookup)

/-- Write settings to the file at a path. The directories that lead to it are made before it is known
whether the settings have a text. -/
def save (s : Settings) (path : String) : m Outcome := do
  match ← fs.makeDirectories (Path.parents path) with
  | .error e => return .failure "" (.noDirectory e)
  | .ok () =>
    match s.toText? with
    | none => return .failure "" .noText
    | some text =>
      match ← fs.write path text with
      | .error e => return .failure "" (.unwritable e)
      | .ok () => return .success s!"✓ Created config file at {path}\n"

/-- Write the settings to a file at a path, unless there is one. Settings that make no layout or no
pattern are not written. -/
def init (s : Settings) (path : String) (force : Bool) : m Outcome := do
  let found ← fs.find path
  if found.isThere && !force then
    return .success s!"! Config file already exists at {path}\n  Use --force to overwrite\n"
  else
    match s.geometry, s.pattern with
    | .error e, _ => return .failure "" (.layout e)
    | .ok _, .error e => return .failure "" (.pattern e)
    | .ok _, .ok _ => save fs s path

/-- Perform a task. -/
def perform (s : Settings) (path : String) : Task → m Outcome
  | .locate positions => return withGeometry s fun g => locate g positions
  | .split length id => return withGeometry s fun g => split g length id
  | .verify length all zeroed =>
    return withPattern s fun g p => (verify g p length all zeroed).outcome
  | .show => do
    let found ← fs.find path
    return withGeometry s fun g => .success (settingsText g s path found)
  | .path => return .success s!"{path}\n"
  | .init force => init fs s path force

/-- Perform what is asked for. -/
def Request.perform (env : Environment) (r : Request) : m Outcome := do
  match r.path? home env with
  | none => return .failure "" .noHome
  | some path =>
    match settingsOf env path (← fs.find path) with
    | .error f => return .failure "" f
    | .ok s => Command.perform fs (s.override r.overrides) path r.task

/-- The name and version of the program. -/
def versionText : String := "stripelayout 0.1.0\n"

/-- How the program is used. -/
def usageText : String :=
  "Usage: stripelayout [OPTIONS] <COMMAND>\n\n" ++
  "Commands:\n" ++
  "  locate <OFFSETS>...\n" ++
  "  split --group-bytes <N> [--block-id <N>]\n" ++
  "  verify --write-bytes <N> [--all-mismatches] [--corrupt <N>]...\n" ++
  "  config [show | path | init [--force]]\n\n" ++
  "Options:\n" ++
  "  --config <PATH>\n" ++
  "  --cell-size <N>, --data-blocks <N>, --parity-blocks <N>, --stripes-per-block <N>\n" ++
  "  --help, --version\n"

/-- The outcome of arguments that ask for no task. -/
def Stop.outcome : Stop → Outcome
  | .misuse => ⟨2, "", usageText⟩
  | .help => .success usageText
  | .version => .success versionText

/-- Run the program. -/
def run (env : Environment) (args : List String) : m Outcome :=
  match Request.ofArguments env args with
  | .error stop => return stop.outcome
  | .ok request => Request.perform fs home env request

end

end Striping.Command
