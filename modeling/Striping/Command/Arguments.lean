import Striping.Command.Request
import Striping.Store

/-!
# Arguments

The grammar of the command line. Arguments are read from left to right, one level at a time: first
those of the program, then those of its command, then those of the command's own command. An option
is written `--name value`, `--name=value`, `-n value`, `-nvalue` or `-n=value`, letters without a
value may stand together, and behind `--` there are only operands. The options for settings are
known at every level, and the deepest level that gives one counts.

Reading arguments is the work of a general parser, to which the program only declares its options.
What is taken of it here is what it documents: the forms of an option above, at most one occurrence
of an option that is not declared as repeatable, words for numbers and any other text refused, help
and version as options that end the reading, and the environment's path of the settings file where
the command line gives none. What a refusal says is left out; all that counts of it is that no task
is performed.
-/

namespace Striping.Command

/-- What an option is about. -/
inductive Topic where
  | file
  | cellSize
  | dataBlocks
  | parityBlocks
  | stripesPerBlock
  | groupBytes
  | blockId
  | writeBytes
  | allMismatches
  | corrupt
  | force
  | help
  | version
  deriving DecidableEq, Repr

namespace Topic

/-- The name of an option. -/
def name : Topic → String
  | .file => "config"
  | .cellSize => "cell-size"
  | .dataBlocks => "data-blocks"
  | .parityBlocks => "parity-blocks"
  | .stripesPerBlock => "stripes-per-block"
  | .groupBytes => "group-bytes"
  | .blockId => "block-id"
  | .writeBytes => "write-bytes"
  | .allMismatches => "all-mismatches"
  | .corrupt => "corrupt"
  | .force => "force"
  | .help => "help"
  | .version => "version"

/-- The letter of an option, if it has one. -/
def letter? : Topic → Option Char
  | .groupBytes => some 'g'
  | .writeBytes => some 'w'
  | .allMismatches => some 'a'
  | .force => some 'f'
  | .help => some 'h'
  | .version => some 'V'
  | _ => none

/-- Whether an option has a value. -/
def isValued : Topic → Bool
  | .allMismatches | .force | .help | .version => false
  | _ => true

/-- Whether an option may come more than once at a level. -/
def isRepeatable : Topic → Bool
  | .corrupt => true
  | _ => false

/-- Whether a text can be the value of an option: a path that is not empty, or a word. -/
def accepts (topic : Topic) (value : String) : Bool :=
  match topic with
  | .file => value ≠ ""
  | topic => !topic.isValued || (Numeral.unsigned? Word.size value).isSome

/-- The options that are known at every level. -/
def shared : List Topic :=
  [.file, .cellSize, .dataBlocks, .parityBlocks, .stripesPerBlock, .help]

end Topic

/-- The levels of the command line. -/
inductive Level where
  | program
  | locate
  | split
  | verify
  | settings
  | show
  | path
  | init
  deriving DecidableEq, Repr

namespace Level

/-- The options of a level. -/
def topics : Level → List Topic
  | .program => .version :: Topic.shared
  | .split => .groupBytes :: .blockId :: Topic.shared
  | .verify => .writeBytes :: .allMismatches :: .corrupt :: Topic.shared
  | .init => .force :: Topic.shared
  | _ => Topic.shared

/-- The commands of a level. -/
def commands : Level → List (String × Level)
  | .program => [("locate", .locate), ("split", .split), ("verify", .verify), ("config", .settings)]
  | .settings => [("show", .show), ("path", .path), ("init", .init)]
  | _ => []

/-- The option of a name. -/
def ofName? (l : Level) (name : String) : Option Topic := l.topics.find? (·.name = name)

/-- The option of a letter. -/
def ofLetter? (l : Level) (c : Char) : Option Topic := l.topics.find? (·.letter? = some c)

end Level

/-- Why reading stops before the end. -/
inductive Stop where
  /-- The arguments are not of the grammar. -/
  | misuse
  /-- They ask for help. -/
  | help
  /-- They ask for the program's version. -/
  | version
  deriving DecidableEq, Repr

/-- What was read at one level. -/
structure Reading where
  /-- The level. -/
  level : Level
  /-- The options, with their values. -/
  options : List (Topic × String)
  /-- The operands. -/
  operands : List Nat
  deriving DecidableEq, Repr

/-- What the next argument can be. -/
inductive Next where
  /-- Anything. -/
  | any
  /-- The value of an option. -/
  | value (topic : Topic)
  /-- An operand. -/
  | operand
  deriving DecidableEq, Repr

namespace Reading

/-- Take an option with its value, or with an empty text if it has none. -/
def give (r : Reading) (topic : Topic) (value : String) : Except Stop Reading :=
  if topic = .help then .error .help
  else if topic = .version then .error .version
  else if (!topic.isRepeatable && (r.options.lookup topic).isSome) || !topic.accepts value then
    .error .misuse
  else .ok { r with options := r.options ++ [(topic, value)] }

/-- Take an operand. Only positions to locate are operands. -/
def operand (r : Reading) (arg : String) : Except Stop Reading :=
  match r.level, Numeral.unsigned? Word.size arg with
  | .locate, some n => .ok { r with operands := r.operands ++ [n] }
  | _, _ => .error .misuse

/-- Take options that are given by their letters. -/
def letters (r : Reading) : List Char → Except Stop (Reading × Next)
  | [] => .ok (r, .any)
  | c :: cs =>
    match r.level.ofLetter? c with
    | none => .error .misuse
    | some topic =>
      if topic.isValued then
        match cs with
        | [] => .ok (r, .value topic)
        | '=' :: cs => (r.give topic (String.ofList cs)).map fun r => (r, .any)
        | cs => (r.give topic (String.ofList cs)).map fun r => (r, .any)
      else
        match r.give topic "" with
        | .error stop => .error stop
        | .ok r => r.letters cs

/-- Take an option that is given by its name. -/
def named (r : Reading) (cs : List Char) : Except Stop (Reading × Next) :=
  match r.level.ofName? (String.ofList (cs.takeWhile (· ≠ '='))), cs.dropWhile (· ≠ '=') with
  | none, _ => .error .misuse
  | some topic, [] =>
    if topic.isValued then .ok (r, .value topic) else (r.give topic "").map fun r => (r, .any)
  | some topic, _ :: value =>
    if topic.isValued then (r.give topic (String.ofList value)).map fun r => (r, .any)
    else .error .misuse

/-- Take an argument that is neither a command nor the value of an option before it. -/
def argument (r : Reading) (arg : String) : Except Stop (Reading × Next) :=
  match arg.toList with
  | ['-', '-'] => .ok (r, .operand)
  | '-' :: '-' :: cs => r.named cs
  | '-' :: c :: cs => r.letters (c :: cs)
  | _ => (r.operand arg).map fun r => (r, .any)

end Reading

/-- Whether an argument cannot be the value of an option before it. -/
def isDashed (arg : String) : Bool :=
  match arg.toList with
  | '-' :: _ :: _ => true
  | _ => false

/-- Whether arguments name a command, one level after another. Help is a command of each level that
has others, and has none of its own. -/
def isCommand (l : Level) : List String → Bool
  | [] => true
  | arg :: args =>
    if arg = "help" ∧ l.commands ≠ [] then args = []
    else
      match l.commands.lookup arg with
      | none => false
      | some l => isCommand l args

/-- What the arguments from here on give at this level and at those below it. -/
def readLevels (r : Reading) (next : Next) : List String → Except Stop (List Reading)
  | [] =>
    match next with
    | .value _ => .error .misuse
    | _ => .ok [r]
  | arg :: args =>
    match next with
    | .value topic =>
      if isDashed arg then .error .misuse
      else
        match r.give topic arg with
        | .error stop => .error stop
        | .ok r => readLevels r .any args
    | .operand =>
      match r.operand arg with
      | .error stop => .error stop
      | .ok r => readLevels r .operand args
    | .any =>
      match r.level.commands.lookup arg with
      | some l => (readLevels ⟨l, [], []⟩ .any args).map (r :: ·)
      | none =>
        if arg = "help" ∧ r.level.commands ≠ [] then
          .error (if isCommand r.level args then .help else .misuse)
        else
          match r.argument arg with
          | .error stop => .error stop
          | .ok (r, next) => readLevels r next args

/-! ## What the levels ask for -/

/-- The value of an option at the deepest level that gives it. -/
def deepest? (levels : List Reading) (topic : Topic) : Option String :=
  levels.reverse.findSome? fun r => r.options.lookup topic

/-- The number of an option at the deepest level that gives it. -/
def deepestNumber? (levels : List Reading) (topic : Topic) : Option Nat :=
  (deepest? levels topic).bind (Numeral.unsigned? Word.size)

namespace Reading

variable (r : Reading)

/-- The number of an option. -/
def number? (topic : Topic) : Option Nat :=
  (r.options.lookup topic).bind (Numeral.unsigned? Word.size)

/-- The numbers of an option that may come more than once. -/
def numbers (topic : Topic) : List Nat :=
  r.options.filterMap fun (t, value) =>
    if t = topic then Numeral.unsigned? Word.size value else none

/-- Whether an option is given. -/
def has (topic : Topic) : Bool := (r.options.lookup topic).isSome

/-- The task of the deepest level. -/
def task? : Option Task :=
  match r.level with
  | .program => none
  | .locate => if r.operands = [] then none else some (.locate r.operands)
  | .split =>
    (r.number? .groupBytes).map fun length =>
      .split length ((r.number? .blockId).getD Store.firstId)
  | .verify =>
    (r.number? .writeBytes).map fun length =>
      .verify length (r.has .allMismatches) (r.numbers .corrupt)
  | .settings => some .show
  | .show => some .show
  | .path => some .path
  | .init => some (.init (r.has .force))

end Reading

/-- The path of the settings file: that of the command line, else that of the environment. The
latter may not be empty, unless no level has a use for it. -/
def file? (levels : List Reading) (env : Environment) : Except Stop (Option String) :=
  if env.get? fileName = some "" ∧ levels.any (!·.has .file) then .error .misuse
  else .ok ((deepest? levels .file).or (env.get? fileName))

/-- What the arguments ask for. -/
def Request.ofArguments (env : Environment) (args : List String) : Except Stop Request :=
  match readLevels ⟨.program, [], []⟩ .any args with
  | .error stop => .error stop
  | .ok levels =>
    match levels.getLast?.bind Reading.task?, file? levels env with
    | some task, .ok file =>
      .ok {
        file
        overrides := {
          cellSize := deepestNumber? levels .cellSize
          dataBlocks := deepestNumber? levels .dataBlocks
          parityBlocks := deepestNumber? levels .parityBlocks
          stripesPerBlock := deepestNumber? levels .stripesPerBlock }
        task }
    | _, _ => .error .misuse

end Striping.Command
