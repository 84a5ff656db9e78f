import Striping.Toml.Tree

/-!
# TOML documents

A document is read in two stages: `readStatements` takes its lines apart into statements, and
`Table.ofStatements` makes the table that the statements describe. `Toml.read` does both.
-/

namespace Striping.Toml

/-! ## Values -/

/-- How many brackets and braces may be open at a time. -/
def maxNesting : Nat := 79

/-- How many parts a key may have. -/
def maxParts : Nat := 79

/-- The items of an array, up to its closing bracket. A comma may stand behind the last. -/
def readItems (value : Reader Tree) : Nat → Reader (List Tree)
  | 0, _ => none
  | fuel + 1, cs =>
    (skipSpace cs).bind fun cs =>
      match cs with
      | ']' :: cs => some ([], cs)
      | cs =>
        (value cs).bind fun (item, cs) =>
          (skipSpace cs).bind fun cs =>
            match cs with
            | ']' :: cs => some ([item], cs)
            | ',' :: cs => (readItems value fuel cs).map fun (items, cs) => (item :: items, cs)
            | _ => none

/-- A key, an equals sign and a value, with blanks around them. -/
def readPair (value : Reader Tree) (cs : List Char) : Option ((List String × Tree) × List Char) :=
  (readKey maxParts cs).bind fun (key, cs) =>
    (skipChar '=' cs).bind fun cs =>
      (value (skipBlanks cs)).map fun (tree, cs) => ((key, tree), skipBlanks cs)

/-- One or more pairs with commas between them, up to a closing brace. -/
def readPairs (value : Reader Tree) : Nat → Reader (List (List String × Tree))
  | 0, _ => none
  | fuel + 1, cs =>
    (readPair value cs).bind fun (pair, cs) =>
      match cs with
      | '\x7d' :: cs => some ([pair], cs)
      | ',' :: cs => (readPairs value fuel cs).map fun (pairs, cs) => (pair :: pairs, cs)
      | _ => none

/-- A table written as one value, after its opening brace. -/
def readInline (value : Reader Tree) (cs : List Char) : Option (Tree × List Char) :=
  match skipBlanks cs with
  | '\x7d' :: cs => some (.table .inline [], cs)
  | cs =>
    (readPairs value (cs.length + 1) cs).bind fun (pairs, cs) =>
      (Table.assignAll [] pairs).map fun entries => (.table .inline entries, cs)

/-- A value in which at most `levels` brackets and braces are open at a time. -/
def readValue (levels : Nat) (cs : List Char) : Option (Tree × List Char) :=
  match levels, cs with
  | 0, '[' :: _ => none
  | 0, '\x7b' :: _ => none
  | levels + 1, '[' :: cs =>
    (readItems (readValue levels) (cs.length + 1) cs).map fun (items, cs) => (.array items, cs)
  | levels + 1, '\x7b' :: cs => readInline (readValue levels) cs
  | _, cs => (readScalar cs).map fun (s, cs) => (.scalar s, cs)

/-! ## Statements -/

/-- A line of a document that is not empty. -/
inductive Statement where
  /-- A value for a key. -/
  | pair (key : List String) (value : Tree)
  /-- The header of a table. -/
  | table (path : List String)
  /-- The header of one more table in a list of tables. -/
  | element (path : List String)

/-- One statement, without what is behind it on its line. -/
def readStatement (cs : List Char) : Option (Statement × List Char) :=
  match cs with
  | '[' :: '[' :: cs =>
    (readKey maxParts cs).bind fun (path, cs) =>
      match cs with
      | ']' :: ']' :: cs => some (.element path, cs)
      | _ => none
  | '[' :: cs =>
    (readKey maxParts cs).bind fun (path, cs) =>
      (skipChar ']' cs).map fun cs => (.table path, cs)
  | cs =>
    (readPair (readValue maxNesting) cs).map fun ((key, value), cs) => (.pair key value, cs)

/-- Whether nothing but blanks and a comment stands in front of the end of the line. -/
def isEmptyLine (cs : List Char) : Bool :=
  match skipBlanks cs with
  | '#' :: _ => true
  | '\n' :: _ => true
  | '\r' :: _ => true
  | _ => false

/-- The statements of at most `fuel` lines. -/
def readStatementsIn : Nat → List Char → Option (List Statement)
  | 0, _ => none
  | fuel + 1, cs =>
    match skipBlanks cs with
    | [] => some []
    | cs =>
      if isEmptyLine cs then (endLine cs).bind (readStatementsIn fuel)
      else
        (readStatement cs).bind fun (statement, cs) =>
          (endLine cs).bind fun cs =>
            (readStatementsIn fuel cs).map fun statements => statement :: statements

/-- The statements of a document. A byte order mark may stand in front of it. -/
def readStatements (cs : List Char) : Option (List Statement) :=
  match cs with
  | '\ufeff' :: cs => readStatementsIn (cs.length + 1) cs
  | cs => readStatementsIn (cs.length + 1) cs

/-- A header, and the pairs behind it. -/
structure Section where
  /-- The header's path. -/
  path : List String
  /-- Whether the header is that of one more table in a list of tables. -/
  isElement : Bool
  /-- The keys behind the header, with their values. -/
  pairs : List (List String × Tree)

/-- The pairs in front of the first header, and the sections from there on. -/
def sections (statements : List Statement) : List (List String × Tree) × List Section :=
  statements.foldr
    (fun statement (pairs, later) =>
      match statement with
      | .pair key value => ((key, value) :: pairs, later)
      | .table path => ([], ⟨path, false, pairs⟩ :: later)
      | .element path => ([], ⟨path, true, pairs⟩ :: later))
    ([], [])

/-- The table with what a section says. -/
def Table.add (t : Table) (s : Section) : Option Table :=
  if s.isElement then t.addElement s.pairs s.path else t.addSection s.pairs s.path

/-- The table that statements describe. -/
def Table.ofStatements (statements : List Statement) : Option Table :=
  let (pairs, later) := sections statements
  (Table.assignAll [] pairs).bind fun t => later.foldlM Table.add t

/-- The table that a text writes. -/
def read (text : String) : Option Table :=
  (readStatements text.toList).bind Table.ofStatements

end Striping.Toml
