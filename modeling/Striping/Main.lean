import Striping.Command.Session

/-!
# The program

Carries out a run with the files and the environment of the system. The user's account is not asked
for a directory.
-/

namespace Striping.Command

/-- A cause that the system gives by number and in words. -/
def numbered (code : UInt32) (details : String) : PathError := .note s!"{details} (os error {code})"

/-- What the system has against a path. The number of a cause comes with either sign. -/
def pathError : IO.Error → PathError
  | .noFileOrDirectory .. => .missing
  | .alreadyExists .. => .taken
  | .inappropriateType _ code _ =>
    if code = 21 ∨ code + 21 = 0 then .isDirectory else .notDirectory
  | .invalidArgument _ code details =>
    if code = 36 ∨ code + 36 = 0 then .tooLong else numbered code details
  | .permissionDenied _ code details => numbered code details
  | .userError _ => .note "stream did not contain valid UTF-8"
  | e => .note (toString e)

/-- An action, or what the system has against it. -/
def attempt (act : IO Unit) : IO (Except PathError Unit) := do
  try
    act
    return .ok ()
  catch e => return .error (pathError e)

/-- Look at a path. -/
def look (path : String) : IO Found := do
  try
    return .file (← IO.FS.readFile path)
  catch e =>
    match pathError e with
    | .missing | .notDirectory | .tooLong => return .nothing
    | e => return .unreadable e

/-- The files of the system. -/
def systemFiles : FileSystem IO where
  find := look
  makeDirectory path := attempt (IO.FS.createDir path)
  write path text := attempt (IO.FS.writeFile path text)

/-- The variables that a run looks at. -/
def variableNames : List String :=
  [fileName, homeName, Environment.cellSizeName, Environment.dataBlocksName,
    Environment.parityBlocksName, Environment.stripesPerBlockName, Environment.modulusName]

/-- The environment of the system. -/
def systemEnvironment : IO Environment :=
  variableNames.filterMapM fun name => return (← IO.getEnv name).map fun text => (name, text)

end Striping.Command

/-- Run the program on its arguments. -/
def main (args : List String) : IO UInt32 := do
  let outcome ← Striping.Command.run Striping.Command.systemFiles (.ofAccount none)
    (← Striping.Command.systemEnvironment) args
  IO.print outcome.output
  IO.eprint outcome.complaint
  return outcome.status.toUInt32
