import Striping.FileTree
import Striping.Settings

/-!
# What a command line asks for

The tasks of the program, as data. `Striping.Command.Arguments` reads them from the arguments and
`Striping.Command.Session` performs them.

The settings file lies in the user's own directory, unless a request names another path. Finding that
directory is not the program's work: a `HomeLookup` is any way to do it that goes by the variable for
it where there is one.
-/

namespace Striping.Command

/-- What the program is to do. -/
inductive Task where
  /-- Tell where file positions are stored. -/
  | locate (positions : List Nat)
  /-- Tell how a group of `length` bytes, whose first block has this id, is split. -/
  | split (length id : Nat)
  /-- Write a generated file of `length` bytes, zero the bytes at some positions, and audit what is
  read back. `all` asks for all mismatches and not only for the first. -/
  | verify (length : Nat) (all : Bool) (zeroed : List Nat)
  /-- Show the settings. -/
  | show
  /-- Show the path of the settings file. -/
  | path
  /-- Write the settings to the settings file; `force` allows to write over an older one. -/
  | init (force : Bool)
  deriving DecidableEq, Repr

/-- A task, and the settings to do it with. -/
structure Request where
  /-- The path of the settings file, if it is not the usual one. -/
  file : Option String
  /-- The settings of the command line. -/
  overrides : Overrides
  /-- The task. -/
  task : Task
  deriving DecidableEq, Repr

/-- The variable of the settings file's path. -/
def fileName : String := "STRIPELAYOUT_CONFIG"

/-- The variable of the user's own directory. -/
def homeName : String := "HOME"

/-- A way to find the user's own directory. -/
structure HomeLookup where
  /-- The directory, if it is known. -/
  find? : Environment → Option String
  /-- The variable gives the directory, if it is set and not empty. What there is without it is left
  to the system. -/
  find?_of_variable : ∀ (env : Environment) (home : String),
    env.get? homeName = some home → home ≠ "" → find? env = some home

/-- The lookup that goes by the variable and else by the user's account, if that has a directory. -/
def HomeLookup.ofAccount (account : Option String) : HomeLookup where
  find? env := ((env.get? homeName).filter (· ≠ "")).or account
  find?_of_variable env home hget hne := by
    rw [hget, Option.filter_some, if_pos (decide_eq_true hne), Option.some_or]

/-- The path of the settings file. The usual one lies in the user's own directory, which has to be
known for it. -/
def Request.path? (home : HomeLookup) (r : Request) (env : Environment) : Option String :=
  match r.file with
  | some path => some path
  | none =>
    (home.find? env).map fun directory =>
      Path.join (Path.join directory ".stripelayout") "config.toml"

/-- With the variable set, the usual path is known whatever the lookup is. -/
theorem Request.path?_of_variable (home : HomeLookup) {r : Request} {env : Environment}
    {directory : String} (hfile : r.file = none) (hget : env.get? homeName = some directory)
    (hne : directory ≠ "") : r.path? home env =
      some (Path.join (Path.join directory ".stripelayout") "config.toml") := by
  rw [path?, hfile, home.find?_of_variable env directory hget hne]
  rfl

end Striping.Command
