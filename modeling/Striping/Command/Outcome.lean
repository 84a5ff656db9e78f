import Striping.Error
import Striping.FileTree

/-!
# Outcomes

What a run of the program leaves behind: an exit status and two texts. A failed run says why in its
second text; `Failure` has the causes.
-/

namespace Striping.Command

/-- Why a run fails. -/
inductive Failure where
  /-- An operation of the library was refused. -/
  | refused (e : Error)
  /-- The settings make no layout. -/
  | layout (e : Error)
  /-- The settings make no pattern. -/
  | pattern (e : Error)
  /-- The user's own directory is not known. -/
  | noHome
  /-- The settings file cannot be read. -/
  | unreadable (path : String) (e : PathError)
  /-- The settings file gives no settings. -/
  | malformed (path : String)
  /-- The directory of the settings file cannot be made. -/
  | noDirectory (e : PathError)
  /-- The settings have no text. -/
  | noText
  /-- The settings file cannot be written. -/
  | unwritable (e : PathError)
  /-- A located byte does not map back to its position. -/
  | inverse (position back : Nat)
  /-- A byte to zero lies behind the file. -/
  | pastEnd (position length : Nat)
  /-- A byte cannot be zeroed. -/
  | zeroing (position : Nat) (e : Error)
  /-- A group cannot be fetched. -/
  | fetching (group : Nat) (e : Error)
  /-- The file is not as long as what was written. -/
  | wrongLength (expected actual : Nat)
  /-- Bytes differ from what was written. -/
  | differing (count : Nat)
  deriving DecidableEq, Repr

namespace Failure

/-- What was attempted, where the cause alone does not tell. -/
def context? : Failure → Option String
  | .layout _ => some "Invalid striping configuration"
  | .pattern _ => some "Invalid oracle configuration"
  | .unreadable path _ => some s!"Failed to read config file {path}"
  | .malformed path => some s!"Failed to parse config file {path}"
  | .noDirectory _ => some "Failed to create config directory"
  | .noText => some "Failed to serialize config"
  | .unwritable _ => some "Failed to write config file"
  | .zeroing position _ => some s!"Failed to corrupt offset {position}"
  | .fetching group _ => some s!"Failed to fetch block group {group}"
  | _ => none

/-- The cause in words. -/
def cause : Failure → String
  | .refused e | .layout e | .pattern e | .zeroing _ e | .fetching _ e => e.message
  | .unreadable _ e | .noDirectory e | .unwritable e => e.message
  | .noHome => "Could not determine home directory"
  | .malformed _ => "the file gives no settings"
  | .noText => "a number is out of range"
  | .inverse position back => s!"layout inverse disagrees: {position} maps back to {back}"
  | .pastEnd position length => s!"corrupt offset {position} is past end of file ({length} bytes)"
  | .wrongLength expected actual => s!"File length error: expect={expected}, actual={actual}"
  | .differing count => s!"{count} bytes failed verification"

/-- The failure in words. -/
def message (f : Failure) : String :=
  match f.context? with
  | none => s!"Error: {f.cause}\n"
  | some context => s!"Error: {context}\n\nCaused by:\n    {f.cause}\n"

/-- The fault behind the failure, if there is one. -/
def fault? : Failure → Option Fault
  | .refused e | .layout e | .pattern e | .zeroing _ e | .fetching _ e => e.fault?
  | _ => none

end Failure

/-- What a run of the program leaves behind. -/
structure Outcome where
  /-- The exit status: 0 for success, 1 for a failure, 2 for arguments that are not understood, 101
  for a fault. -/
  status : Nat
  /-- The answer. -/
  output : String
  /-- What went wrong. -/
  complaint : String
  deriving DecidableEq, Repr

namespace Outcome

/-- The outcome of a run that succeeds. -/
def success (output : String) : Outcome := ⟨0, output, ""⟩

/-- The outcome of a run that a fault breaks off after some output. -/
def abort (output : String) (fault : Fault) : Outcome := ⟨101, output, s!"{fault.message}\n"⟩

/-- The outcome of a run that fails after some output. A fault is no failure to tell of: it breaks
the run off. -/
def failure (output : String) (f : Failure) : Outcome :=
  match f.fault? with
  | none => ⟨1, output, f.message⟩
  | some fault => abort output fault

end Outcome

end Striping.Command
