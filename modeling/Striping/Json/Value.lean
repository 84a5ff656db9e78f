import Striping.Record

/-!
# Values in JSON, and how they are written

A `Value` is what a record of the library looks like in JSON. `Value.write` is its only written
form: no blanks, the members of an object in the order of the record, and in strings only the
escapes that JSON asks for.
-/

namespace Striping.Json

/-- A value with a written form. -/
inductive Value where
  /-- A natural number. -/
  | number (n : Nat)
  /-- A text. -/
  | text (s : String)
  /-- A string of bytes, written as an array of numbers. -/
  | bytes (bs : Bytes)
  /-- One of several names. -/
  | choice (name : String)
  /-- An array. -/
  | list (items : List Value)
  /-- An object. -/
  | record (members : List (String × Value))
  deriving Repr

/-- The hexadecimal digits of a control character's second half. -/
def lowHex (c : Char) : Char := Nat.digitChar (c.toNat % 16)

/-- The written form of a character in a string. -/
def writeChar (c : Char) : List Char :=
  if c = '"' then ['\\', '"']
  else if c = '\\' then ['\\', '\\']
  else if c = '\x08' then ['\\', 'b']
  else if c = '\t' then ['\\', 't']
  else if c = '\n' then ['\\', 'n']
  else if c = '\x0c' then ['\\', 'f']
  else if c = '\r' then ['\\', 'r']
  else if c.toNat < 0x20 then ['\\', 'u', '0', '0', Nat.digitChar (c.toNat / 16), lowHex c]
  else [c]

/-- The written form of a string. -/
def writeString (s : String) : List Char := '"' :: s.toList.flatMap writeChar ++ ['"']

/-- The written form of a number. -/
def writeNumber (n : Nat) : List Char := Nat.toDigits 10 n

/-- Pieces in a row with commas between them. -/
def commas : List (List Char) → List Char
  | [] => []
  | [piece] => piece
  | piece :: next :: rest => piece ++ ',' :: commas (next :: rest)

/-- Pieces in brackets. -/
def writeArray (pieces : List (List Char)) : List Char := '[' :: commas pieces ++ [']']

/-- Members in braces. -/
def writeObject (members : List (String × List Char)) : List Char :=
  '{' :: commas (members.map fun (key, value) => writeString key ++ ':' :: value) ++ ['}']

mutual

/-- The written form of a value. -/
def Value.write : Value → List Char
  | .number n => writeNumber n
  | .text s => writeString s
  | .bytes bs => writeArray (bs.map fun b => writeNumber b.toNat)
  | .choice name => writeString name
  | .list items => writeArray (writeItems items)
  | .record members => writeObject (writeMembers members)

/-- The written forms of several values. -/
def writeItems : List Value → List (List Char)
  | [] => []
  | v :: vs => v.write :: writeItems vs

/-- The written forms of the values of several members. -/
def writeMembers : List (String × Value) → List (String × List Char)
  | [] => []
  | (key, v) :: ms => (key, v.write) :: writeMembers ms

end

end Striping.Json
