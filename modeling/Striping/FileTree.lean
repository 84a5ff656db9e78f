import Striping.FiniteMap

/-!
# Files and directories

What a program may do with files (`FileSystem`), in any monad, and a tree of files and directories
to do it with (`FileTree`). Paths are texts with slashes; `Path.names` takes them apart. A path leads
from directory to directory, so each name before the last has to be there, even if the path goes
back from it.
-/

namespace Striping

/-- Why a path cannot be used. -/
inductive PathError where
  /-- There is nothing at the path. -/
  | missing
  /-- A file stands where a directory has to be. -/
  | notDirectory
  /-- A directory stands where a file has to be. -/
  | isDirectory
  /-- Something stands where a directory is to be made. -/
  | taken
  /-- The path, or a name in it, is longer than the system takes. -/
  | tooLong
  /-- Another cause, in words. -/
  | note (text : String)
  deriving DecidableEq, Repr

/-- The error in words, with the number that the system has for it. -/
def PathError.message : PathError → String
  | .missing => "No such file or directory (os error 2)"
  | .taken => "File exists (os error 17)"
  | .notDirectory => "Not a directory (os error 20)"
  | .isDirectory => "Is a directory (os error 21)"
  | .tooLong => "File name too long (os error 36)"
  | .note text => text

/-- What is at a path. -/
inductive Found where
  /-- Nothing, or nothing that can be reached. -/
  | nothing
  /-- A file. -/
  | file (text : String)
  /-- Something that cannot be read as a text. -/
  | unreadable (e : PathError)
  deriving DecidableEq, Repr

/-- Whether there is anything. -/
def Found.isThere : Found → Bool
  | .nothing => false
  | _ => true

/-- Whether it is a directory. -/
def Found.isDirectory (found : Found) : Bool := found = .unreadable .isDirectory

/-- What a program may do with files. -/
structure FileSystem (m : Type → Type) where
  /-- Look at a path. -/
  find : String → m Found
  /-- Make a directory inside one that is there. -/
  makeDirectory : String → m (Except PathError Unit)
  /-- Write a file. -/
  write : String → String → m (Except PathError Unit)

namespace FileSystem

variable {m : Type → Type} [Monad m] (fs : FileSystem m)

/-- The failure to make a directory, which is none if the directory is there all the same. -/
def excuse (path : String) (e : PathError) : m (Except PathError Unit) := do
  return if (← fs.find path).isDirectory then .ok () else .error e

/-- Make the first of some directories, of which each one is inside the next. Those around it are
made only if it cannot be made without them, and stay if it cannot be made with them either. -/
def makeDirectories : List String → m (Except PathError Unit)
  | [] => return .ok ()
  | path :: around => do
    match ← fs.makeDirectory path with
    | .ok () => return .ok ()
    | .error .missing =>
      match ← makeDirectories around with
      | .error e => return .error e
      | .ok () =>
        match ← fs.makeDirectory path with
        | .ok () => return .ok ()
        | .error e => fs.excuse path e
    | .error e => fs.excuse path e

end FileSystem

/-! ## Paths -/

namespace Path

/-- The most bytes of a name. -/
def nameLimit : Nat := 255

/-- The most bytes of a path. -/
def limit : Nat := 4095

/-- The pieces of a text between slashes. -/
def pieces : List Char → List (List Char)
  | [] => [[]]
  | c :: cs =>
    if c = '/' then [] :: pieces cs
    else
      match pieces cs with
      | [] => [[c]]
      | piece :: rest => (c :: piece) :: rest

/-- The names that a path leads through. -/
def names (path : String) : List String :=
  ((pieces path.toList).filter (· ≠ [])).map String.ofList

/-- Whether a path starts at the root. -/
def isAbsolute (path : String) : Bool := path.toList.head? == some '/'

/-- Whether a path can only lead to a directory, because a slash is its end. -/
def endsInSlash (path : String) : Bool := path.toList.getLast? == some '/'

/-- The path of a name in a directory. -/
def join (directory name : String) : String :=
  if endsInSlash directory then directory ++ name else directory ++ "/" ++ name

/-- Whether a text, of which the last character is given first, ends in a name that leads to another
place. A point stays in its place and counts only as the start of a path. -/
def endsInStep : List Char → Bool
  | [] => false
  | ['.'] => true
  | '.' :: '/' :: _ => false
  | c :: _ => c ≠ '/'

/-- The parts of a path up to the end of each of its steps, outermost first. The characters before,
the last one first, are `seen`. -/
def stems (seen : List Char) : List Char → List String
  | [] => if endsInStep seen then [String.ofList seen.reverse] else []
  | c :: cs =>
    if c = '/' ∧ endsInStep seen then String.ofList seen.reverse :: stems (c :: seen) cs
    else stems (c :: seen) cs

/-- The paths of the directories that lead to a path, innermost first. -/
def parents (path : String) : List String := (stems [] path.toList).dropLast.reverse

end Path

/-! ## Trees -/

/-- What a tree has at a place. -/
inductive Entry where
  /-- A directory. -/
  | directory
  /-- A file. -/
  | file (text : String)
  deriving DecidableEq, Repr

/-- Files and directories, by the names that lead to them from the root. -/
structure FileTree where
  /-- What the tree has below the root. -/
  entries : FiniteMap (List String) Entry
  /-- The directory in which relative paths start. -/
  here : List String

namespace FileTree

/-- What is at a place. -/
def entry? (t : FileTree) (place : List String) : Option Entry :=
  if place = [] then some .directory else t.entries.get? place

/-- Where a path starts. -/
def start (t : FileTree) (path : String) : List String :=
  if Path.isAbsolute path then [] else t.here

/-- The place of a name in the directory at a place. -/
def step (place : List String) (name : String) : List String :=
  if name = "." then place else if name = ".." then place.dropLast else place ++ [name]

/-- The place that names lead to, if all of them are names of directories. -/
def enter (t : FileTree) (place : List String) : List String → Except PathError (List String)
  | [] => .ok place
  | name :: rest =>
    if Path.nameLimit < name.utf8ByteSize then .error .tooLong
    else
      match t.entry? (step place name) with
      | none => .error .missing
      | some (.file _) => .error .notDirectory
      | some .directory => t.enter (step place name) rest

/-- The directory in which a path ends, and the name of what the path leads to. There is no name if
that is the directory itself. -/
def resolve (t : FileTree) (path : String) : Except PathError (List String × Option String) :=
  if Path.limit < path.utf8ByteSize then .error .tooLong
  else
    let names := Path.names path
    (t.enter (t.start path) names.dropLast).map fun place =>
      match names.getLast? with
      | none => (place, none)
      | some name =>
        if name = "." ∨ name = ".." then (step place name, none) else (place, some name)

/-- What is at a path. -/
def find (t : FileTree) (path : String) : Found :=
  match t.resolve path with
  | .error _ => .nothing
  | .ok (_, none) => .unreadable .isDirectory
  | .ok (place, some name) =>
    match t.entry? (place ++ [name]) with
    | none => .nothing
    | some .directory => .unreadable .isDirectory
    | some (.file text) => if Path.endsInSlash path then .nothing else .file text

/-- The tree with an entry at a place. -/
def insert (t : FileTree) (place : List String) (entry : Entry) : FileTree :=
  { t with entries := t.entries.insert place entry }

/-- Make a directory inside one that is there. -/
def makeDirectory (t : FileTree) (path : String) : Except PathError Unit × FileTree :=
  match t.resolve path with
  | .error e => (.error e, t)
  | .ok (_, none) => (.error .taken, t)
  | .ok (place, some name) =>
    if Path.nameLimit < name.utf8ByteSize then (.error .tooLong, t)
    else
      match t.entry? (place ++ [name]) with
      | some _ => (.error .taken, t)
      | none => (.ok (), t.insert (place ++ [name]) .directory)

/-- Write a file, over an older one if there is one. -/
def write (t : FileTree) (path text : String) : Except PathError Unit × FileTree :=
  match t.resolve path with
  | .error e => (.error e, t)
  | .ok (_, none) => (.error .isDirectory, t)
  | .ok (place, some name) =>
    if Path.endsInSlash path then (.error .isDirectory, t)
    else if Path.nameLimit < name.utf8ByteSize then (.error .tooLong, t)
    else
      match t.entry? (place ++ [name]) with
      | some .directory => (.error .isDirectory, t)
      | _ => (.ok (), t.insert (place ++ [name]) (.file text))

/-- The file system that is a tree. -/
def fileSystem : FileSystem (StateM FileTree) where
  find path := fun t => (t.find path, t)
  makeDirectory path := fun t => t.makeDirectory path
  write path text := fun t => t.write path text

end FileTree

end Striping
