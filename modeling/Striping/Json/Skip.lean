import Striping.Json.Lexeme

/-!
# Passing over JSON values

The values of unknown keys are passed over. They have to be JSON, but less is asked of them than of
values that are read: surrogates need no partner, and numbers may be of any size. Inside a number,
the end of the text counts as a malformed number.
-/

namespace Striping.Json

/-- The text after an escape, after the backslash. -/
def skipEscape : List Char → Except Flaw (List Char)
  | [] => .error .early
  | 'u' :: cs => (readUnit cs).map Prod.snd
  | c :: cs => if (shortEscape? c).isSome then .ok cs else .error .malformed

/-- The text after the closing quote of a string. -/
def skipBody : Nat → List Char → Except Flaw (List Char)
  | 0, _ => .error .early
  | _ + 1, [] => .error .early
  | fuel + 1, c :: cs =>
    if c = '"' then .ok cs
    else if c = '\\' then
      match skipEscape cs with
      | .error f => .error f
      | .ok cs => skipBody fuel cs
    else if c.toNat < 0x20 then .error .malformed
    else skipBody fuel cs

/-- The text after a string, after its opening quote. -/
def skipString (cs : List Char) : Except Flaw (List Char) := skipBody (cs.length + 1) cs

/-- The text after a number. -/
def skipNumber (cs : List Char) : Except Flaw (List Char) :=
  let found := match cs with
    | '-' :: cs => readUnsigned true cs
    | cs => readUnsigned false cs
  match found with
  | .error _ => .error .malformed
  | .ok (_, cs) => .ok cs

/-- The text after a colon. -/
def skipColon (cs : List Char) : Except Flaw (List Char) :=
  match skipBlanks cs with
  | [] => .error .early
  | ':' :: cs => .ok cs
  | _ => .error .malformed

mutual

/-- The text after a value, in at most `fuel` nested steps. -/
def skipValueIn : Nat → List Char → Except Flaw (List Char)
  | 0, _ => .error .early
  | fuel + 1, cs =>
    match skipBlanks cs with
    | [] => .error .early
    | 'n' :: cs => skipLiteral ['u', 'l', 'l'] cs
    | 't' :: cs => skipLiteral ['r', 'u', 'e'] cs
    | 'f' :: cs => skipLiteral ['a', 'l', 's', 'e'] cs
    | '"' :: cs => skipString cs
    | '[' :: cs =>
      match skipBlanks cs with
      | [] => .error .early
      | ']' :: cs => .ok cs
      | cs => skipItemsIn fuel cs
    | '{' :: cs =>
      match skipBlanks cs with
      | [] => .error .early
      | '}' :: cs => .ok cs
      | cs => skipMembersIn fuel cs
    | c :: cs => if startsNumber c then skipNumber (c :: cs) else .error .malformed

/-- The text after the items of an array, of which there is at least one. -/
def skipItemsIn : Nat → List Char → Except Flaw (List Char)
  | 0, _ => .error .early
  | fuel + 1, cs =>
    match skipValueIn fuel cs with
    | .error f => .error f
    | .ok cs =>
      match skipBlanks cs with
      | [] => .error .early
      | ',' :: cs => skipItemsIn fuel cs
      | ']' :: cs => .ok cs
      | _ => .error .malformed

/-- The text after the members of an object, of which there is at least one. -/
def skipMembersIn : Nat → List Char → Except Flaw (List Char)
  | 0, _ => .error .early
  | fuel + 1, cs =>
    match skipBlanks cs with
    | [] => .error .early
    | '"' :: cs =>
      match skipString cs with
      | .error f => .error f
      | .ok cs =>
        match skipColon cs with
        | .error f => .error f
        | .ok cs =>
          match skipValueIn fuel cs with
          | .error f => .error f
          | .ok cs =>
            match skipBlanks cs with
            | [] => .error .early
            | ',' :: cs => skipMembersIn fuel cs
            | '}' :: cs => .ok cs
            | _ => .error .malformed
    | _ => .error .malformed

end

/-- The text after a value. Every second step of the recursion passes over a character. -/
def skipValue (cs : List Char) : Except Flaw (List Char) := skipValueIn (2 * cs.length + 2) cs

end Striping.Json
