import Striping.Json.Skip
import Striping.Json.Value

/-!
# Reading JSON by shape

A `Shape` says what a text has to describe, and `Shape.read` reads it from left to right, so that
the first flaw wins. An object's members may come in any order, with unknown keys between them; an
object may also be written as an array of its members' values. Strings of bytes may be written as
text, and a choice as an object with one key and no value.
-/

namespace Striping.Json

/-- The form of a value. -/
inductive Shape where
  /-- A natural number below a bound. -/
  | number (bound : Nat)
  /-- A text. -/
  | text
  /-- A string of bytes. -/
  | bytes
  /-- One of several names. -/
  | choice (names : List String)
  /-- Any number of values of one form. -/
  | list (item : Shape)
  /-- A value of its own form for each key. -/
  | record (members : List (String × Shape))
  deriving Repr

/-- The flaw of a text whose next value is of another kind than the wanted one. A number or a string
is read to its end first. -/
def unexpected : List Char → Flaw
  | [] => .early
  | '[' :: _ => .unfit
  | '{' :: _ => .unfit
  | 'n' :: cs => judge (skipLiteral ['u', 'l', 'l'] cs)
  | 't' :: cs => judge (skipLiteral ['r', 'u', 'e'] cs)
  | 'f' :: cs => judge (skipLiteral ['a', 'l', 's', 'e'] cs)
  | '"' :: cs => judge (readString cs)
  | c :: cs => if startsNumber c then judge (readNumber (c :: cs)) else .malformed
where
  /-- The flaw inside the value, or that it is of the wrong kind. -/
  judge {α : Type} : Except Flaw α → Flaw
  | .error f => f
  | .ok _ => .unfit

/-- A natural number below a bound. -/
def readNat (bound : Nat) (cs : List Char) : Except Flaw (Nat × List Char) :=
  match skipBlanks cs with
  | [] => .error .early
  | c :: cs =>
    if startsNumber c then
      match readNumber (c :: cs) with
      | .error f => .error f
      | .ok (n, cs) =>
        match n.toNat? with
        | none => .error .unfit
        | some n => if n < bound then .ok (n, cs) else .error .unfit
    else .error (unexpected (c :: cs))

/-- A text. -/
def readText (cs : List Char) : Except Flaw (String × List Char) :=
  match skipBlanks cs with
  | '"' :: cs => readString cs
  | cs => .error (unexpected cs)

/-! ## Arrays -/

/-- Where the next item of an array starts, unless the array ends. After the first item, a comma
comes before each. -/
def nextItem (first : Bool) (cs : List Char) : Except Flaw (Option (List Char)) :=
  match skipBlanks cs with
  | [] => .error .early
  | ']' :: _ => .ok none
  | c :: cs =>
    if first then .ok (some (c :: cs))
    else if c = ',' then
      match skipBlanks cs with
      | ']' :: _ => .error .malformed
      | cs => .ok (some cs)
    else .error .malformed

/-- The text after the bracket that closes an array. -/
def closeArray (cs : List Char) : Except Flaw (List Char) :=
  match skipBlanks cs with
  | [] => .error .early
  | ']' :: cs => .ok cs
  | _ => .error .malformed

/-- The items of an array and its closing bracket, in at most `fuel` steps. -/
def readItems {α : Type} (item : Reader α) : Nat → Bool → Reader (List α)
  | 0, _, _ => .error .early
  | fuel + 1, first, cs =>
    match nextItem first cs with
    | .error f => .error f
    | .ok none => (closeArray cs).map fun cs => ([], cs)
    | .ok (some cs) =>
      match item cs with
      | .error f => .error f
      | .ok (a, cs) => (readItems item fuel false cs).map fun (as, cs) => (a :: as, cs)

/-- An array of any length. -/
def readArray {α : Type} (item : Reader α) (cs : List Char) : Except Flaw (List α × List Char) :=
  match skipBlanks cs with
  | '[' :: cs => readItems item (cs.length + 1) true cs
  | cs => .error (unexpected cs)

/-- A string of bytes, as an array of numbers or as text. -/
def readBytes (cs : List Char) : Except Flaw (Bytes × List Char) :=
  match skipBlanks cs with
  | '"' :: cs => readRawString cs
  | cs => (readArray (readNat 256) cs).map fun (ns, cs) => (ns.map UInt8.ofNat, cs)

/-! ## Choices -/

/-- One of several names. -/
def readName (names : List String) (cs : List Char) : Except Flaw (String × List Char) :=
  match readText cs with
  | .error f => .error f
  | .ok (name, cs) => if name ∈ names then .ok (name, cs) else .error .unfit

/-- One of several names, as the key of an object: without a quote it is no key of any kind. -/
def readKeyName (names : List String) (cs : List Char) : Except Flaw (String × List Char) :=
  match skipBlanks cs with
  | [] => .error .early
  | '"' :: cs => readName names ('"' :: cs)
  | _ => .error .malformed

/-- The text after a value that has to be null. -/
def readNull (cs : List Char) : Except Flaw (List Char) :=
  match skipBlanks cs with
  | 'n' :: cs => skipLiteral ['u', 'l', 'l'] cs
  | cs => .error (unexpected cs)

/-- The text after the brace that closes an object. -/
def closeObject (cs : List Char) : Except Flaw (List Char) :=
  match skipBlanks cs with
  | [] => .error .early
  | '}' :: cs => .ok cs
  | _ => .error .malformed

/-- A choice: a name, or an object whose one key is the name and whose value is null. -/
def readChoice (names : List String) (cs : List Char) : Except Flaw (String × List Char) :=
  match skipBlanks cs with
  | [] => .error .early
  | '"' :: cs => readName names ('"' :: cs)
  | '{' :: cs =>
    match readKeyName names cs with
    | .error f => .error f
    | .ok (name, cs) =>
      match skipColon cs with
      | .error f => .error f
      | .ok cs =>
        match readNull cs with
        | .error f => .error f
        | .ok cs => (closeObject cs).map fun cs => (name, cs)
  | _ => .error .malformed

/-! ## Objects -/

/-- The values of an object that is written as an array, and its closing bracket. -/
def readPositional : Bool → List (String × Reader Value) → Reader (List (String × Value))
  | _, [], cs => (closeArray cs).map fun cs => ([], cs)
  | first, (key, value) :: rest, cs =>
    match nextItem first cs with
    | .error f => .error f
    | .ok none => .error .unfit
    | .ok (some cs) =>
      match value cs with
      | .error f => .error f
      | .ok (v, cs) => (readPositional false rest cs).map fun (vs, cs) => ((key, v) :: vs, cs)

/-- The text after the opening quote of the next key, unless the object ends. After the first
member, a comma comes before each. -/
def nextKey (first : Bool) (cs : List Char) : Except Flaw (Option (List Char)) :=
  match skipBlanks cs with
  | [] => .error .early
  | '}' :: _ => .ok none
  | c :: cs =>
    if first then if c = '"' then .ok (some cs) else .error .malformed
    else if c = ',' then
      match skipBlanks cs with
      | [] => .error .early
      | '"' :: cs => .ok (some cs)
      | _ => .error .malformed
    else .error .malformed

/-- The values of all keys, in the order of the keys. -/
def arrange (keys : List String) (found : List (String × Value)) :
    Except Flaw (List (String × Value)) :=
  keys.mapM fun key =>
    match found.lookup key with
    | none => .error .unfit
    | some v => .ok (key, v)

/-- The members of an object and its closing brace, in at most `fuel` steps. A second value for a
key is refused as soon as the key is read. -/
def readMembers (members : List (String × Reader Value)) :
    Nat → Bool → List (String × Value) → Reader (List (String × Value))
  | 0, _, _, _ => .error .early
  | fuel + 1, first, found, cs =>
    match nextKey first cs with
    | .error f => .error f
    | .ok none =>
      match arrange (members.map Prod.fst) found with
      | .error f => .error f
      | .ok vs => (closeObject cs).map fun cs => (vs, cs)
    | .ok (some cs) =>
      match readString cs with
      | .error f => .error f
      | .ok (key, cs) =>
        match members.lookup key with
        | none =>
          match skipColon cs with
          | .error f => .error f
          | .ok cs =>
            match skipValue cs with
            | .error f => .error f
            | .ok cs => readMembers members fuel false found cs
        | some value =>
          if (found.lookup key).isSome then .error .unfit
          else
            match skipColon cs with
            | .error f => .error f
            | .ok cs =>
              match value cs with
              | .error f => .error f
              | .ok (v, cs) => readMembers members fuel false ((key, v) :: found) cs

/-- An object, or an array of its values. -/
def readRecord (members : List (String × Reader Value)) (cs : List Char) :
    Except Flaw (List (String × Value) × List Char) :=
  match skipBlanks cs with
  | '[' :: cs => readPositional true members cs
  | '{' :: cs => readMembers members (cs.length + 1) true [] cs
  | cs => .error (unexpected cs)

mutual

/-- A value of the shape. -/
def Shape.read : Shape → Reader Value
  | .number bound, cs => (readNat bound cs).map fun (n, cs) => (.number n, cs)
  | .text, cs => (readText cs).map fun (s, cs) => (.text s, cs)
  | .bytes, cs => (readBytes cs).map fun (bs, cs) => (.bytes bs, cs)
  | .choice names, cs => (readChoice names cs).map fun (name, cs) => (.choice name, cs)
  | .list item, cs => (readArray item.read cs).map fun (vs, cs) => (.list vs, cs)
  | .record members, cs => (readRecord (memberReaders members) cs).map fun (ms, cs) => (.record ms, cs)

/-- The readers of the members of an object. -/
def memberReaders : List (String × Shape) → List (String × Reader Value)
  | [] => []
  | (key, shape) :: rest => (key, shape.read) :: memberReaders rest

end

end Striping.Json
