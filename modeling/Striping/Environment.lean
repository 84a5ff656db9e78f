import Striping.Geometry
import Striping.Numeral
import Striping.Pattern

/-!
# Parameters from the environment

An environment gives text to names. A variable that is unset, or whose text is no numeral in range,
counts as its default, so only the rules of `Geometry.make` can refuse an environment.
-/

namespace Striping

/-- The variables that are set, with their texts. -/
abbrev Environment := List (String × String)

namespace Environment

/-- The text of a variable, if it is set. -/
def get? (env : Environment) (name : String) : Option String := env.lookup name

/-- The number below `size` in a variable, or the default. -/
def unsignedOr (env : Environment) (size : Nat) (name : String) (default : Nat) : Nat :=
  ((env.get? name).bind (Numeral.unsigned? size)).getD default

/-- The variable of the bytes of a cell. -/
def cellSizeName : String := "STRIPE_CELL_SIZE"

/-- The variable of the data blocks of a group. -/
def dataBlocksName : String := "STRIPE_DATA_BLOCKS"

/-- The variable of the parity blocks of a group. -/
def parityBlocksName : String := "STRIPE_PARITY_BLOCKS"

/-- The variable of the cells of a block. -/
def stripesPerBlockName : String := "STRIPE_STRIPES_PER_BLOCK"

/-- The variable of the pattern's modulus. -/
def modulusName : String := "STRIPE_ORACLE_MODULUS"

variable (env : Environment)

/-- The bytes of a cell. -/
def cellSize : Nat := env.unsignedOr Word.size cellSizeName Geometry.standard.cellSize

/-- The data blocks of a group. -/
def dataBlocks : Nat := env.unsignedOr Word.size dataBlocksName Geometry.standard.dataBlocks

/-- The parity blocks of a group. -/
def parityBlocks : Nat := env.unsignedOr Word.size parityBlocksName Geometry.standard.parityBlocks

/-- The cells of a block. -/
def stripesPerBlock : Nat :=
  env.unsignedOr Word.size stripesPerBlockName Geometry.standard.stripesPerBlock

/-- The pattern's modulus. -/
def modulus : Nat := env.unsignedOr Word.size modulusName Pattern.standard.modulus

end Environment

/-- The layout that the environment asks for. -/
def Geometry.ofEnvironment (env : Environment) : Except Error Geometry :=
  Geometry.make env.cellSize env.dataBlocks env.parityBlocks env.stripesPerBlock

end Striping
