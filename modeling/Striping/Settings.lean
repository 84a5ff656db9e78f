import Striping.Environment
import Striping.Toml.Document

/-!
# Settings

The numbers that a run of the program works with: the parameters of the layout and the modulus of
the pattern. Each comes from an option of the command line, else from the settings file, else from
the environment, else it has a fixed default. They may break the rules of `Geometry.make` and
`Pattern.make` until `Settings.geometry` and `Settings.pattern` apply these.
-/

namespace Striping

/-- The numbers that a run of the program works with. -/
structure Settings where
  /-- The bytes of a cell. -/
  cellSize : Nat
  /-- The data blocks of a group. -/
  dataBlocks : Nat
  /-- The parity blocks of a group. -/
  parityBlocks : Nat
  /-- The cells of a block. -/
  stripesPerBlock : Nat
  /-- The modulus of the pattern. -/
  modulus : Nat
  deriving DecidableEq, Repr

/-- The parameters of the layout that the command line sets. -/
structure Overrides where
  /-- The bytes of a cell. -/
  cellSize : Option Nat
  /-- The data blocks of a group. -/
  dataBlocks : Option Nat
  /-- The parity blocks of a group. -/
  parityBlocks : Option Nat
  /-- The cells of a block. -/
  stripesPerBlock : Option Nat
  deriving DecidableEq, Repr

namespace Settings

/-! ## Where settings come from -/

/-- The settings of a run without a settings file. -/
def ofEnvironment (env : Environment) : Settings where
  cellSize := env.cellSize
  dataBlocks := env.dataBlocks
  parityBlocks := env.parityBlocks
  stripesPerBlock := env.stripesPerBlock
  modulus := env.modulus

/-- The number that a value of a settings file stands for. -/
def number? : Toml.Tree → Option Nat
  | .scalar (.integer n) => if 0 ≤ n then some n.toNat else none
  | _ => none

/-- A number of a section: the value of its key in a table, or the value at its place in an array,
and the default where there is none. A date or time counts as an empty table. -/
def field? (place : Nat) (key : String) (default : Nat) : Option Toml.Tree → Option Nat
  | none => some default
  | some (.table _ entries) =>
    match entries.lookup key with
    | none => some default
    | some value => number? value
  | some (.array items) =>
    match items[place]? with
    | none => some default
    | some value => number? value
  | some (.scalar .moment) => some default
  | some _ => none

/-- The settings that a document gives, with defaults for what it does not mention. -/
def ofTable? (t : Toml.Table) (defaults : Settings) : Option Settings := do
  let layout := t.lookup "striping"
  let cellSize ← field? 0 "cell_size" defaults.cellSize layout
  let dataBlocks ← field? 1 "data_blocks" defaults.dataBlocks layout
  let parityBlocks ← field? 2 "parity_blocks" defaults.parityBlocks layout
  let stripesPerBlock ← field? 3 "stripes_per_block" defaults.stripesPerBlock layout
  let modulus ← field? 0 "modulus" defaults.modulus (t.lookup "oracle")
  return { cellSize, dataBlocks, parityBlocks, stripesPerBlock, modulus }

/-- The settings that the text of a settings file gives. -/
def ofText? (text : String) (defaults : Settings) : Option Settings :=
  (Toml.read text).bind fun t => ofTable? t defaults

/-- The settings with those of the command line in place of their own. -/
def override (s : Settings) (o : Overrides) : Settings :=
  { s with
    cellSize := o.cellSize.getD s.cellSize
    dataBlocks := o.dataBlocks.getD s.dataBlocks
    parityBlocks := o.parityBlocks.getD s.parityBlocks
    stripesPerBlock := o.stripesPerBlock.getD s.stripesPerBlock }

/-! ## What settings are for -/

variable (s : Settings)

/-- The layout that the settings ask for. -/
def geometry : Except Error Geometry :=
  Geometry.make s.cellSize s.dataBlocks s.parityBlocks s.stripesPerBlock

/-- The pattern that the settings ask for. -/
def pattern : Except Error Pattern := Pattern.make s.modulus

/-- The numbers of the settings. -/
def numbers : List Nat :=
  [s.cellSize, s.dataBlocks, s.parityBlocks, s.stripesPerBlock, s.modulus]

/-- A settings file that gives these settings. Its numbers are signed words, so settings with a
larger one have none. -/
def toText? : Option String :=
  if s.numbers.all (· < Word.size / 2) then
    some <|
      s!"[striping]\ncell_size = {s.cellSize}\ndata_blocks = {s.dataBlocks}\n" ++
      s!"parity_blocks = {s.parityBlocks}\nstripes_per_block = {s.stripesPerBlock}\n\n" ++
      s!"[oracle]\nmodulus = {s.modulus}\n"
  else none

end Settings

end Striping
