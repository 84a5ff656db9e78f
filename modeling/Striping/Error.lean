import Striping.Record
import Striping.Word

/-!
# Errors

Every refusal of the library is a value of `Error` that carries its cause as data;
`Error.message` puts it into words. An error `isLayoutViolation` when the caller's coordinates or
metadata do not fit the layout.
-/

namespace Striping

/-- A byte that read back different from what the pattern asks for. -/
structure Mismatch where
  /-- The group's index in the file. -/
  group : Nat
  /-- The stripe's index in the block. -/
  stripe : Nat
  /-- The data block's index in the group. -/
  block : Nat
  /-- The byte's offset in its cell. -/
  inCell : Nat
  /-- The byte's offset in its block. -/
  inBlock : Nat
  /-- The byte's position in the file. -/
  position : Nat
  /-- The byte that belongs there. -/
  expected : UInt8
  /-- The byte that was read. -/
  actual : UInt8
  deriving DecidableEq, Repr

/-- The mismatch in words. -/
def Mismatch.message (m : Mismatch) : String :=
  s!"unexpected byte {m.actual}, expect {m.expected}. Block group index is {m.group}, " ++
  s!"stripe index is {m.stripe}, cell index is {m.block}, byte index is {m.inCell} " ++
  s!"(file offset {m.position})"

/-- Coordinates or metadata that do not fit the layout. -/
inductive LayoutCause where
  /-- A group is said to hold more bytes than its blocks can. -/
  | groupTooLong (length capacity : Nat)
  /-- A byte of the group would lie at a position that is not a word. -/
  | unaddressable (group : Nat)
  /-- A data block that the group's bytes reach into was not retrieved. -/
  | missingBlock (group block : Nat)
  /-- A group does not start where its place in the file says. -/
  | misplaced (group start expected : Nat)
  /-- The id of a block of the group is not a word. -/
  | idOverflow (index : Nat) (group : BlockRecord)
  /-- The start of a block of the group is not a word. -/
  | startOverflow (index : Nat) (group : BlockRecord)
  deriving DecidableEq, Repr

/-- The layout's complaint in words. -/
def LayoutCause.message : LayoutCause → String
  | .groupTooLong length capacity => s!"group length {length} exceeds group capacity {capacity}"
  | .unaddressable group => s!"group {group} is beyond addressable range"
  | .missingBlock group block => s!"group {group} is missing data block {block}"
  | .misplaced group start expected => s!"group {group} starts at {start}, expected {expected}"
  | .idOverflow index group => s!"block id of index {index} in group {group.label} overflows"
  | .startOverflow index group => s!"start offset of index {index} in group {group.label} overflows"

/-- Parameters or metadata that no layout allows. -/
inductive ConfigurationCause where
  /-- Cells without bytes. -/
  | zeroCellSize
  /-- Groups without data blocks. -/
  | zeroDataBlocks
  /-- Blocks without cells. -/
  | zeroStripes
  /-- More blocks in a group than an index byte can number. -/
  | tooWide (width : Nat)
  /-- A group's capacity is not a word. -/
  | tooLarge
  /-- A pattern's modulus that does not give bytes from one to 255. -/
  | modulus (value : Nat)
  /-- A group record with different numbers of sites and of indices. -/
  | ragged (group : BlockRecord) (sites indices : Nat)
  deriving DecidableEq, Repr

/-- The widest group: an index byte tells this many blocks apart. -/
abbrev maxWidth : Nat := 256

/-- The configuration's complaint in words. -/
def ConfigurationCause.message : ConfigurationCause → String
  | .zeroCellSize => "cell_size must be > 0"
  | .zeroDataBlocks => "data_blocks must be > 0"
  | .zeroStripes => "stripes_per_block must be > 0"
  | .tooWide width => s!"group width {width} exceeds {maxWidth}"
  | .tooLarge => "group capacity overflows u64"
  | .modulus value => s!"oracle modulus must be in 1..=255, got {value}"
  | .ragged group sites indices =>
    s!"group {group.label} has {sites} locations but {indices} block indices"

/-- What a store cannot do. -/
inductive StorageCause where
  /-- Fewer than `count` ids are left from `next` on. -/
  | idsExhausted (count next : Nat)
  deriving DecidableEq, Repr

/-- The store's complaint in words. -/
def StorageCause.message : StorageCause → String
  | .idsExhausted count next =>
    s!"block id space exhausted: cannot allocate {count} ids from {next}"

/-- Why an operation was refused. -/
inductive Error where
  /-- A block index outside the group. -/
  | blockIndex (index limit : Nat)
  /-- An offset outside its block. -/
  | blockOffset (offset capacity : Nat)
  /-- Another violation of the layout. -/
  | layout (cause : LayoutCause)
  /-- A byte is not the expected one. -/
  | mismatch (m : Mismatch)
  /-- Content is longer or shorter than it should be. -/
  | length (expected actual : Nat)
  /-- The store holds no block of this id. -/
  | blockNotFound (id : Nat)
  /-- The store holds no file of this path. -/
  | fileNotFound (path : String)
  /-- The store cannot do what is asked. -/
  | storage (cause : StorageCause)
  /-- Parameters or metadata are not allowed. -/
  | configuration (cause : ConfigurationCause)
  /-- A machine step had no answer. -/
  | fault (cause : Fault)
  deriving DecidableEq, Repr

namespace Error

/-- The error in words. -/
def message : Error → String
  | .blockIndex index limit => s!"Layout violation: block index {index} outside [0, {limit})"
  | .blockOffset offset capacity =>
    s!"Layout violation: offset {offset} outside block capacity {capacity}"
  | .layout cause => "Layout violation: " ++ cause.message
  | .mismatch m => "Verification mismatch: " ++ m.message
  | .length expected actual => s!"Length mismatch: expected {expected}, actual {actual}"
  | .blockNotFound id => s!"Block not found: {id}"
  | .fileNotFound path => s!"File not found: {path}"
  | .storage cause => "Storage error: " ++ cause.message
  | .configuration cause => "Configuration error: " ++ cause.message
  | .fault cause => cause.message

/-- Whether the caller's coordinates or metadata do not fit the layout. -/
def isLayoutViolation : Error → Bool
  | .blockIndex .. | .blockOffset .. | .layout _ => true
  | _ => false

/-- The mismatch that a failed check found. -/
def mismatch? : Error → Option Mismatch
  | .mismatch m => some m
  | _ => none

/-- The fault, if a machine step had no answer. -/
def fault? : Error → Option Fault
  | .fault cause => some cause
  | _ => none

end Error

end Striping
