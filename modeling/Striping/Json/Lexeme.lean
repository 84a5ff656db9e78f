import Striping.Word

/-!
# Lexemes of JSON text

The parts of JSON that are read character by character: blanks, literal names, numbers, and the
inside of strings. A reader takes the characters that are left and gives a value with those that
remain, or the first `Flaw` on the way.

* `Flaw.early`: the text ends inside a value.
* `Flaw.malformed`: the text is not JSON.
* `Flaw.unfit`: the text is JSON, but not of the wanted form.
-/

namespace Striping.Json

/-- What is wrong with a text. -/
inductive Flaw where
  /-- The text ends inside a value. -/
  | early
  /-- The text is not JSON. -/
  | malformed
  /-- The text is JSON, but not of the wanted form. -/
  | unfit
  deriving DecidableEq, Repr

/-- A value of type `α`, read from the front of a text, and the rest of the text. -/
abbrev Reader (α : Type) := List Char → Except Flaw (α × List Char)

/-- The four blanks of JSON. -/
def isBlank (c : Char) : Bool := c == ' ' || c == '\n' || c == '\t' || c == '\r'

/-- The text without the blanks in front. -/
def skipBlanks (cs : List Char) : List Char := cs.dropWhile isBlank

/-- The text after the rest of a literal name. -/
def skipLiteral : List Char → List Char → Except Flaw (List Char)
  | [], cs => .ok cs
  | _ :: _, [] => .error .early
  | l :: ls, c :: cs => if c = l then skipLiteral ls cs else .error .malformed

/-! ## Numbers -/

/-- A number as it is written. -/
structure Number where
  /-- Whether a minus sign comes first. -/
  negative : Bool
  /-- The digits before the point. -/
  whole : List Char
  /-- The digits after the point. -/
  fraction : Option (List Char)
  /-- The exponent: whether it is negative, and its digits. -/
  exponent : Option (Bool × List Char)
  deriving DecidableEq, Repr

/-- Whether a number can start with this character. -/
def startsNumber (c : Char) : Bool := c == '-' || c.isDigit

/-- One digit or more. -/
def readDigits : Reader (List Char)
  | [] => .error .early
  | c :: cs =>
    if c.isDigit then .ok (c :: cs.takeWhile Char.isDigit, cs.dropWhile Char.isDigit)
    else .error .malformed

/-- The digits before the point: a zero stands alone. -/
def readWhole (cs : List Char) : Except Flaw (List Char × List Char) :=
  match readDigits cs with
  | .error f => .error f
  | .ok ('0' :: _ :: _, _) => .error .malformed
  | .ok found => .ok found

/-- A point and the digits after it, if there is a point. -/
def readFraction : Reader (Option (List Char))
  | '.' :: cs => (readDigits cs).map fun (digits, rest) => (some digits, rest)
  | cs => .ok (none, cs)

/-- The sign of an exponent, if there is one: whether it is negative. -/
def readSign : List Char → Bool × List Char
  | '+' :: cs => (false, cs)
  | '-' :: cs => (true, cs)
  | cs => (false, cs)

/-- The mark of an exponent, its sign and its digits, if there is a mark. -/
def readExponent : Reader (Option (Bool × List Char))
  | [] => .ok (none, [])
  | c :: cs =>
    if c = 'e' ∨ c = 'E' then
      let (negative, cs) := readSign cs
      (readDigits cs).map fun (digits, rest) => (some (negative, digits), rest)
    else .ok (none, c :: cs)

/-- A number after its sign. -/
def readUnsigned (negative : Bool) (cs : List Char) : Except Flaw (Number × List Char) :=
  match readWhole cs with
  | .error f => .error f
  | .ok (whole, cs) =>
    match readFraction cs with
    | .error f => .error f
    | .ok (fraction, cs) =>
      match readExponent cs with
      | .error f => .error f
      | .ok (exponent, cs) => .ok ({ negative, whole, fraction, exponent }, cs)

/-- The digits that still fit a 64-bit significand, taken from the left, and how many they are. -/
def significand (s : Nat) : List Char → Nat × Nat
  | [] => (s, 0)
  | c :: cs =>
    let next := s * 10 + (c.toNat - '0'.toNat)
    if next < Word.size then
      let (s, taken) := significand next cs
      (s, taken + 1)
    else (s, 0)

/-- Whether the number rounds to an infinite value in double precision. Digits behind the
significand count as zeros; a significand that is not scaled up is a word, and so is finite. -/
def Number.isHuge (n : Number) : Bool :=
  let (s, taken) := significand 0 n.whole
  let (s, shift) : Nat × Int :=
    match n.fraction with
    | none => (s, (n.whole.length - taken : Nat))
    | some digits =>
      let (s, kept) := significand s digits
      (s, ((n.whole.length - taken : Nat) : Int) - (kept : Int))
  let exponent : Int :=
    match n.exponent with
    | none => 0
    | some (negative, digits) =>
      let value : Int := Nat.ofDigitChars 10 digits 0
      if negative then -value else value
  let scale := shift + exponent
  s != 0 && decide (0 < scale) &&
    (decide (308 < scale) || (Float.ofNat s * Float.ofScientific 1 false scale.toNat).isInf)

/-- A number that is finite in double precision. -/
def readNumber (cs : List Char) : Except Flaw (Number × List Char) :=
  let found := match cs with
    | '-' :: cs => readUnsigned true cs
    | cs => readUnsigned false cs
  match found with
  | .error f => .error f
  | .ok (n, cs) => if n.isHuge then .error .malformed else .ok (n, cs)

/-- The number, if it is written as a natural number. -/
def Number.toNat? (n : Number) : Option Nat :=
  if n.negative || n.fraction.isSome || n.exponent.isSome then none
  else some (Nat.ofDigitChars 10 n.whole 0)

/-! ## Strings -/

/-- The value of a hexadecimal digit, in either case. -/
def hexDigit? (c : Char) : Option Nat :=
  if c.isDigit then some (c.toNat - '0'.toNat)
  else if 'a' ≤ c ∧ c ≤ 'f' then some (c.toNat - 'a'.toNat + 10)
  else if 'A' ≤ c ∧ c ≤ 'F' then some (c.toNat - 'A'.toNat + 10)
  else none

/-- The value of four hexadecimal digits. -/
def hexUnit? (a b c d : Char) : Option Nat :=
  match hexDigit? a, hexDigit? b, hexDigit? c, hexDigit? d with
  | some a, some b, some c, some d => some (((a * 16 + b) * 16 + c) * 16 + d)
  | _, _, _, _ => none

/-- The four hexadecimal digits of an escape. The text ends early only where fewer than four bytes
are left. -/
def readUnit (cs : List Char) : Except Flaw (Nat × List Char) :=
  let wrong : Flaw := if (String.ofList cs).utf8ByteSize < 4 then .early else .malformed
  match cs with
  | a :: b :: c :: d :: rest =>
    match hexUnit? a b c d with
    | some n => .ok (n, rest)
    | none => .error wrong
  | _ => .error wrong

/-- The first half of a surrogate pair. -/
def isHigh (n : Nat) : Bool := 0xD800 ≤ n && n ≤ 0xDBFF

/-- The second half of a surrogate pair. -/
def isLow (n : Nat) : Bool := 0xDC00 ≤ n && n ≤ 0xDFFF

/-- The character of a surrogate pair. -/
def pairChar (high low : Nat) : Char :=
  Char.ofNat ((high - 0xD800) * 0x400 + (low - 0xDC00) + 0x10000)

/-- The character that a one-letter escape stands for. -/
def shortEscape? : Char → Option Char
  | '"' => some '"'
  | '\\' => some '\\'
  | '/' => some '/'
  | 'b' => some '\x08'
  | 'f' => some '\x0c'
  | 'n' => some '\n'
  | 'r' => some '\r'
  | 't' => some '\t'
  | _ => none

/-- The second half of a surrogate pair, which has to follow the first as an escape. -/
def readLow : Reader Nat
  | [] => .error .early
  | ['\\'] => .error .early
  | '\\' :: 'u' :: cs =>
    match readUnit cs with
    | .error f => .error f
    | .ok (n, cs) => if isLow n then .ok (n, cs) else .error .malformed
  | _ => .error .malformed

/-- The character of an escape, after the backslash. Surrogates come in pairs. -/
def readEscape : Reader Char
  | [] => .error .early
  | 'u' :: cs =>
    match readUnit cs with
    | .error f => .error f
    | .ok (n, cs) =>
      if isLow n then .error .malformed
      else if isHigh n then (readLow cs).map fun (low, cs) => (pairChar n low, cs)
      else .ok (Char.ofNat n, cs)
  | c :: cs =>
    match shortEscape? c with
    | some e => .ok (e, cs)
    | none => .error .malformed

/-- The inside of a string up to its closing quote, in at most `fuel` steps. -/
def readBody : Nat → Reader (List Char)
  | 0, _ => .error .early
  | _ + 1, [] => .error .early
  | fuel + 1, c :: cs =>
    if c = '"' then .ok ([], cs)
    else if c = '\\' then
      match readEscape cs with
      | .error f => .error f
      | .ok (e, cs) => (readBody fuel cs).map fun (found, rest) => (e :: found, rest)
    else if c.toNat < 0x20 then .error .malformed
    else (readBody fuel cs).map fun (found, rest) => (c :: found, rest)

/-- A string, after its opening quote. -/
def readString (cs : List Char) : Except Flaw (String × List Char) :=
  (readBody (cs.length + 1) cs).map fun (found, rest) => (String.ofList found, rest)

/-! ## Strings as bytes -/

/-- The three bytes of a code unit that stands alone in a surrogate's place. -/
def loneBytes (n : Nat) : List UInt8 :=
  [UInt8.ofNat (0xE0 + n / 4096), UInt8.ofNat (0x80 + n / 64 % 64), UInt8.ofNat (0x80 + n % 64)]

/-- The bytes of an escape, after the backslash. A surrogate outside a pair stands for itself. -/
def readRawEscape : Reader (List UInt8)
  | [] => .error .early
  | 'u' :: cs =>
    match readUnit cs with
    | .error f => .error f
    | .ok (n, cs) =>
      if isHigh n then
        match readLow cs with
        | .ok (low, cs) => .ok (String.utf8EncodeChar (pairChar n low), cs)
        | .error _ => .ok (loneBytes n, cs)
      else if isLow n then .ok (loneBytes n, cs)
      else .ok (String.utf8EncodeChar (Char.ofNat n), cs)
  | c :: cs =>
    match shortEscape? c with
    | some e => .ok (String.utf8EncodeChar e, cs)
    | none => .error .malformed

/-- The bytes inside a string up to its closing quote, control characters included. -/
def readRawBody : Nat → Reader (List UInt8)
  | 0, _ => .error .early
  | _ + 1, [] => .error .early
  | fuel + 1, c :: cs =>
    if c = '"' then .ok ([], cs)
    else if c = '\\' then
      match readRawEscape cs with
      | .error f => .error f
      | .ok (bytes, cs) => (readRawBody fuel cs).map fun (found, rest) => (bytes ++ found, rest)
    else
      (readRawBody fuel cs).map fun (found, rest) => (String.utf8EncodeChar c ++ found, rest)

/-- A string's bytes, after its opening quote. -/
def readRawString (cs : List Char) : Except Flaw (List UInt8 × List Char) :=
  readRawBody (cs.length + 1) cs

end Striping.Json
