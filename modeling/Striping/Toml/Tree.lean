import Striping.Toml.Lexeme

/-!
# Trees of TOML values

A document is a table: keys with values, in the order in which they came. No key gets two values,
and what may be added to a table depends on how the table came about (`Origin`).

* `Table.assign` gives a value to a key of several parts, and makes the tables in between.
* `Table.addSection` and `Table.addElement` make the table that a header names.
-/

namespace Striping.Toml

/-- How a table came about. -/
inductive Origin where
  /-- Its own header names it. -/
  | header
  /-- The header of a table inside it names it. -/
  | implied
  /-- A key of several parts leads through it. -/
  | dotted
  /-- It is written as one value. -/
  | inline
  deriving DecidableEq, Repr

/-- A value with its parts. -/
inductive Tree where
  /-- A value without parts. -/
  | scalar (s : Scalar)
  /-- A list of values. -/
  | array (items : List Tree)
  /-- A table. -/
  | table (origin : Origin) (entries : List (String × Tree))
  /-- A list of tables with headers of their own. Only the last can still grow. -/
  | tables (front : List (List (String × Tree))) (last : List (String × Tree))

/-- Keys with their values. -/
abbrev Table := List (String × Tree)

namespace Table

/-- The table with the value of a key replaced by what `f` makes of it. A new key comes last. -/
def change (t : Table) (key : String) (f : Option Tree → Option Tree) : Option Table :=
  match t with
  | [] => (f none).map fun tree => [(key, tree)]
  | (k, tree) :: rest =>
    if k = key then (f (some tree)).map fun tree => (k, tree) :: rest
    else (change rest key f).map ((k, tree) :: ·)

/-- Give a value to a key without one. -/
def place (value : Tree) : Option Tree → Option Tree
  | none => some value
  | some _ => none

/-- The table with a value for a key. A key of several parts leads through tables that such keys
made, and ends in one; on its way it may pass through tables that headers imply. -/
def assign (t : Table) (key : List String) (value : Tree) : Option Table :=
  match key with
  | [] => none
  | [name] => t.change name (place value)
  | name :: next :: rest =>
    t.change name fun
      | none => (assign [] (next :: rest) value).map (.table .dotted)
      | some (.table .dotted sub) => (assign sub (next :: rest) value).map (.table .dotted)
      | some (.table .implied sub) =>
        if rest = [] then none else (assign sub (next :: rest) value).map (.table .implied)
      | some (.tables front last) =>
        if rest = [] then none else (assign last (next :: rest) value).map (.tables front)
      | some _ => none

/-- The table with values for several keys, given from left to right. -/
def assignAll (t : Table) (pairs : List (List String × Tree)) : Option Table :=
  pairs.foldlM (fun t (key, value) => t.assign key value) t

/-- The table with what `f` makes of the value at the end of a header's path. Tables on the way are
made where they are missing. -/
def enter (t : Table) (path : List String) (f : Option Tree → Option Tree) : Option Table :=
  match path with
  | [] => none
  | [key] => t.change key f
  | key :: next :: rest =>
    t.change key fun
      | none => (enter [] (next :: rest) f).map (.table .implied)
      | some (.table .inline _) => none
      | some (.table origin sub) => (enter sub (next :: rest) f).map (.table origin)
      | some (.tables front last) => (enter last (next :: rest) f).map (.tables front)
      | some _ => none

/-- The table with a section: a table with a header, and the values behind the header. -/
def addSection (t : Table) (pairs : List (List String × Tree)) (path : List String) :
    Option Table :=
  t.enter path fun
    | none => (assignAll [] pairs).map (.table .header)
    | some (.table .implied sub) => (assignAll sub pairs).map (.table .header)
    | some _ => none

/-- The table with one more table in a list of tables, and the values behind its header. -/
def addElement (t : Table) (pairs : List (List String × Tree)) (path : List String) :
    Option Table :=
  t.enter path fun
    | none => (assignAll [] pairs).map (.tables [])
    | some (.tables front last) => (assignAll [] pairs).map (.tables (front ++ [last]))
    | some _ => none

end Table

end Striping.Toml
