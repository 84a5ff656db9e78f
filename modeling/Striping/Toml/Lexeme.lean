import Striping.Numeral
import Striping.Word

/-!
# Lexemes of TOML text

The parts of TOML that are read character by character: blanks, comments, strings, keys, and the
scalar values. A reader takes the characters that are left and gives a value with those that remain,
or nothing where the text is not TOML.
-/

namespace Striping.Toml

/-- A value read from the front of a text, and the rest of the text. -/
abbrev Reader (α : Type) := List Char → Option (α × List Char)

/-- A value without parts. -/
inductive Scalar where
  /-- A string. -/
  | text (s : String)
  /-- A whole number of 64 bits. -/
  | integer (n : Int)
  /-- A number with a fraction or an exponent. -/
  | float
  /-- True or false. -/
  | boolean (b : Bool)
  /-- A date, a time, or both. -/
  | moment
  deriving DecidableEq, Repr

/-! ## Blanks and comments -/

/-- A blank inside a line. -/
def isBlank (c : Char) : Bool := c == ' ' || c == '\t'

/-- The text without the blanks in front. -/
def skipBlanks (cs : List Char) : List Char := cs.dropWhile isBlank

/-- A character that may stand in a comment or in a string on one line. -/
def isPlain (c : Char) : Bool := c == '\t' || (0x20 ≤ c.toNat && c.toNat != 0x7f)

/-- The text after the end of a line, if the line ends here. -/
def lineBreak? : List Char → Option (List Char)
  | '\n' :: cs => some cs
  | '\r' :: '\n' :: cs => some cs
  | _ => none

/-- The text without the comment in front. -/
def skipComment : List Char → List Char
  | '#' :: cs => cs.dropWhile isPlain
  | cs => cs

/-- The text after blanks, a comment, and the end of the line or of the text. -/
def endLine (cs : List Char) : Option (List Char) :=
  match skipComment (skipBlanks cs) with
  | [] => some []
  | cs => lineBreak? cs

/-- The text after blanks, comments and line ends, in at most `fuel` steps. A comment has to end
with its line. -/
def skipSpaceIn : Nat → List Char → Option (List Char)
  | 0, cs => some cs
  | fuel + 1, cs =>
    match skipBlanks cs with
    | '#' :: cs => (lineBreak? (cs.dropWhile isPlain)).bind (skipSpaceIn fuel)
    | cs =>
      match lineBreak? cs with
      | some cs => skipSpaceIn fuel cs
      | none => some cs

/-- The text after blanks, comments and line ends. -/
def skipSpace (cs : List Char) : Option (List Char) := skipSpaceIn (cs.length + 1) cs

/-! ## Strings -/

/-- The value of a digit in a base of at most sixteen, in either case. -/
def digit? (base : Nat) (c : Char) : Option Nat :=
  let value :=
    if c.isDigit then some (c.toNat - '0'.toNat)
    else if 'a' ≤ c ∧ c ≤ 'f' then some (c.toNat - 'a'.toNat + 10)
    else if 'A' ≤ c ∧ c ≤ 'F' then some (c.toNat - 'A'.toNat + 10)
    else none
  value.filter (· < base)

/-- The number that digits of a base write. -/
def ofDigits? (base : Nat) (cs : List Char) : Option Nat :=
  cs.foldl (fun n c => n.bind fun n => (digit? base c).map fun d => n * base + d) (some 0)

/-- The character whose code point is written by the next `count` hexadecimal digits. -/
def readCode (count : Nat) (cs : List Char) : Option (Char × List Char) :=
  if (cs.take count).length = count then
    (ofDigits? 16 (cs.take count)).bind fun n =>
      if h : n.isValidChar then some (Char.ofNatAux n h, cs.drop count) else none
  else none

/-- The character of an escape, after the backslash. -/
def readEscape : Reader Char
  | 'b' :: cs => some ('\x08', cs)
  | 't' :: cs => some ('\t', cs)
  | 'n' :: cs => some ('\n', cs)
  | 'f' :: cs => some ('\x0c', cs)
  | 'r' :: cs => some ('\r', cs)
  | '"' :: cs => some ('"', cs)
  | '\\' :: cs => some ('\\', cs)
  | 'u' :: cs => readCode 4 cs
  | 'U' :: cs => readCode 8 cs
  | _ => none

/-- The inside of a string on one line, up to the closing quote. -/
def readBasic : Nat → Reader (List Char)
  | 0, _ => none
  | _ + 1, [] => none
  | fuel + 1, c :: cs =>
    if c = '"' then some ([], cs)
    else if c = '\\' then
      (readEscape cs).bind fun (e, cs) => (readBasic fuel cs).map fun (s, cs) => (e :: s, cs)
    else if isPlain c then (readBasic fuel cs).map fun (s, cs) => (c :: s, cs)
    else none

/-- The inside of a string without escapes on one line, up to the closing quote. -/
def readLiteral (cs : List Char) : Option (List Char × List Char) :=
  match cs.dropWhile fun c => isPlain c && c != '\'' with
  | '\'' :: rest => some (cs.takeWhile fun c => isPlain c && c != '\'', rest)
  | _ => none

/-- The quotes in front that belong to a string of several lines, and the text after its end, if
the string ends with them: three quotes end it, and up to two more may come before. -/
def closing? (quote : Char) (cs : List Char) : Option (List Char × List Char) :=
  let run := min (cs.takeWhile (· == quote)).length 5
  if 3 ≤ run then some (List.replicate (run - 3) quote, cs.drop run) else none

/-- The text without the blanks and line ends in front. -/
def skipBreaks : List Char → List Char
  | '\r' :: '\n' :: cs => skipBreaks cs
  | c :: cs => if isBlank c || c == '\n' then skipBreaks cs else c :: cs
  | [] => []

/-- The text after a backslash that joins lines: the blanks and line ends behind it, at least one of
the latter. -/
def skipJoint (cs : List Char) : Option (List Char) :=
  (lineBreak? (skipBlanks cs)).map skipBreaks

/-- The inside of a string of several lines, up to its closing quotes. -/
def readLines (escapes : Bool) (quote : Char) : Nat → Reader (List Char)
  | 0, _ => none
  | _ + 1, [] => none
  | fuel + 1, c :: cs =>
    match closing? quote (c :: cs) with
    | some found => some found
    | none =>
      if escapes ∧ c = '\\' then
        match skipJoint cs with
        | some cs => readLines escapes quote fuel cs
        | none =>
          (readEscape cs).bind fun (e, cs) =>
            (readLines escapes quote fuel cs).map fun (s, cs) => (e :: s, cs)
      else
        match lineBreak? (c :: cs) with
        | some cs => (readLines escapes quote fuel cs).map fun (s, cs) => ('\n' :: s, cs)
        | none =>
          if isPlain c then
            (readLines escapes quote fuel cs).map fun (s, cs) => (c :: s, cs)
          else none

/-- A string of several lines, after its opening quotes; a line end right behind them does not
count. -/
def readBlock (escapes : Bool) (quote : Char) (cs : List Char) : Option (List Char × List Char) :=
  let cs := (lineBreak? cs).getD cs
  readLines escapes quote (cs.length + 1) cs

/-- A string of any kind. -/
def readString : Reader String
  | '"' :: '"' :: '"' :: cs => (readBlock true '"' cs).map fun (s, cs) => (String.ofList s, cs)
  | '\'' :: '\'' :: '\'' :: cs =>
    (readBlock false '\'' cs).map fun (s, cs) => (String.ofList s, cs)
  | '"' :: cs => (readBasic (cs.length + 1) cs).map fun (s, cs) => (String.ofList s, cs)
  | '\'' :: cs => (readLiteral cs).map fun (s, cs) => (String.ofList s, cs)
  | _ => none

/-! ## Keys -/

/-- A character of a key without quotes. -/
def isBare (c : Char) : Bool := c.isAlphanum || c == '_' || c == '-'

/-- One part of a key. -/
def readKeyPart : Reader String
  | '"' :: cs => (readBasic (cs.length + 1) cs).map fun (s, cs) => (String.ofList s, cs)
  | '\'' :: cs => (readLiteral cs).map fun (s, cs) => (String.ofList s, cs)
  | cs =>
    match cs.takeWhile isBare with
    | [] => none
    | name => some (String.ofList name, cs.dropWhile isBare)

/-- A key: parts with points and blanks between them, in at most `fuel` parts. -/
def readKey : Nat → Reader (List String)
  | 0, _ => none
  | fuel + 1, cs =>
    (readKeyPart (skipBlanks cs)).bind fun (part, cs) =>
      match skipBlanks cs with
      | '.' :: cs => (readKey fuel cs).map fun (parts, cs) => (part :: parts, cs)
      | cs => some ([part], cs)

/-! ## Numbers -/

/-- Digits of a base, with single underscores between them. -/
def readDigitsIn (base : Nat) : Nat → Reader (List Char)
  | 0, _ => none
  | _ + 1, [] => none
  | fuel + 1, c :: cs =>
    if (digit? base c).isNone then none
    else
      match cs with
      | '_' :: cs => (readDigitsIn base fuel cs).map fun (ds, cs) => (c :: ds, cs)
      | cs =>
        if (cs.head?.bind (digit? base)).isSome then
          (readDigitsIn base fuel cs).map fun (ds, cs) => (c :: ds, cs)
        else some ([c], cs)

/-- Digits of a base, with single underscores between them. -/
def readDigits (base : Nat) (cs : List Char) : Option (List Char × List Char) :=
  readDigitsIn base (cs.length + 1) cs

/-- The sign in front of a number: whether it is negative. -/
def readSign : List Char → Bool × List Char
  | '+' :: cs => (false, cs)
  | '-' :: cs => (true, cs)
  | cs => (false, cs)

/-- Decimal digits of which the first is no zero, unless it stands alone. -/
def readWhole : Reader (List Char)
  | '0' :: cs => some (['0'], cs)
  | cs => readDigits 10 cs

/-- The 64-bit signed number with this sign and size. -/
def signed? (negative : Bool) (n : Nat) : Option Int :=
  if negative then if n ≤ Word.size / 2 then some (-(n : Int)) else none
  else if n < Word.size / 2 then some (n : Int) else none

/-- A whole number of another base, after the two characters that name it. -/
def readBased (base : Nat) (cs : List Char) : Option (Scalar × List Char) :=
  (readDigits base cs).bind fun (ds, cs) =>
    ((ofDigits? base ds).bind (signed? false)).map fun n => (.integer n, cs)

/-- A whole number. -/
def readInteger : Reader Scalar
  | '0' :: 'x' :: cs => readBased 16 cs
  | '0' :: 'o' :: cs => readBased 8 cs
  | '0' :: 'b' :: cs => readBased 2 cs
  | cs =>
    let (negative, cs) := readSign cs
    (readWhole cs).bind fun (ds, cs) =>
      (signed? negative (Nat.ofDigitChars 10 ds 0)).map fun n => (.integer n, cs)

/-- The digits after a point, if there is a point. -/
def readFraction : Reader (Option (List Char))
  | '.' :: cs => (readDigits 10 cs).map fun (ds, cs) => (some ds, cs)
  | cs => some (none, cs)

/-- The exponent, if there is one. -/
def readExponent : Reader (Option Int)
  | [] => some (none, [])
  | c :: cs =>
    if c = 'e' ∨ c = 'E' then
      let (negative, cs) := readSign cs
      (readDigits 10 cs).map fun (ds, cs) =>
        let n : Int := Nat.ofDigitChars 10 ds 0
        (some (if negative then -n else n), cs)
    else some (none, c :: cs)

/-- Whether `m * 10 ^ e` rounds to an infinite value in double precision, `m` having `count`
digits. -/
def isHuge (m count : Nat) (e : Int) : Bool :=
  m != 0 && decide (308 ≤ (count : Int) + e) &&
    (decide (400 ≤ (count : Int) + e) ||
      decide ((Nat.pow 2 1024 - Nat.pow 2 970) * Nat.pow 10 (-e).toNat ≤ m * Nat.pow 10 e.toNat))

/-- A number with a fraction or an exponent. Only positive numbers may not be infinite. -/
def readFloat (cs : List Char) : Option (Scalar × List Char) :=
  let (negative, cs) := readSign cs
  (readWhole cs).bind fun (whole, cs) =>
    (readFraction cs).bind fun (fraction, cs) =>
      (readExponent cs).bind fun (exponent, cs) =>
        if fraction.isNone && exponent.isNone then none
        else
          let ds := whole ++ fraction.getD []
          let e := exponent.getD 0 - (fraction.getD []).length
          let significant := ds.dropWhile (· == '0')
          if !negative && isHuge (Nat.ofDigitChars 10 ds 0) significant.length e then none
          else some (.float, cs)

/-- An infinite number, or none. -/
def readSpecial (cs : List Char) : Option (Scalar × List Char) :=
  match (readSign cs).2 with
  | 'i' :: 'n' :: 'f' :: cs => some (.float, cs)
  | 'n' :: 'a' :: 'n' :: cs => some (.float, cs)
  | _ => none

/-! ## Dates and times -/

/-- A number of exactly `count` digits, between two bounds. -/
def readFixed (count low high : Nat) (cs : List Char) : Option (Nat × List Char) :=
  let ds := cs.take count
  if ds.length = count ∧ ds.all Char.isDigit then
    let n := Nat.ofDigitChars 10 ds 0
    if low ≤ n ∧ n ≤ high then some (n, cs.drop count) else none
  else none

/-- The text after one given character. -/
def skipChar (c : Char) : List Char → Option (List Char)
  | [] => none
  | d :: cs => if c = d then some cs else none

/-- The days of a month. -/
def daysIn (year month : Nat) : Nat :=
  if month = 2 then
    if year % 4 = 0 ∧ (year % 100 ≠ 0 ∨ year % 400 = 0) then 29 else 28
  else if month = 4 ∨ month = 6 ∨ month = 9 ∨ month = 11 then 30
  else 31

/-- The text after a date. -/
def skipDate (cs : List Char) : Option (List Char) := do
  let (year, cs) ← readFixed 4 0 9999 cs
  let cs ← skipChar '-' cs
  let (month, cs) ← readFixed 2 1 12 cs
  let cs ← skipChar '-' cs
  let (_, cs) ← readFixed 2 1 (daysIn year month) cs
  return cs

/-- The text after the fraction of a second, if there is one. -/
def skipFraction (cs : List Char) : List Char :=
  match cs with
  | '.' :: d :: rest => if d.isDigit then rest.dropWhile Char.isDigit else cs
  | cs => cs

/-- The text after a time of day. -/
def skipTime (cs : List Char) : Option (List Char) := do
  let (_, cs) ← readFixed 2 0 23 cs
  let cs ← skipChar ':' cs
  let (_, cs) ← readFixed 2 0 59 cs
  let cs ← skipChar ':' cs
  let (_, cs) ← readFixed 2 0 60 cs
  return skipFraction cs

/-- The text after the offset of a time, if there is one. -/
def skipOffset (cs : List Char) : Option (List Char) :=
  match cs with
  | 'Z' :: cs => some cs
  | 'z' :: cs => some cs
  | c :: rest =>
    if c = '+' ∨ c = '-' then do
      let (_, cs) ← readFixed 2 0 23 rest
      let cs ← skipChar ':' cs
      let (_, cs) ← readFixed 2 0 59 cs
      return cs
    else some cs
  | [] => some []

/-- The text after the mark between a date and a time, and the time. -/
def skipClock : List Char → Option (List Char)
  | [] => none
  | c :: cs =>
    if c = 'T' ∨ c = 't' ∨ c = ' ' then (skipTime cs).bind skipOffset else none

/-- A date, a time, or both. -/
def readMoment (cs : List Char) : Option (Scalar × List Char) :=
  match skipDate cs with
  | some cs => some (.moment, (skipClock cs).getD cs)
  | none => (skipTime cs).map fun cs => (.moment, cs)

/-! ## Scalars -/

/-- A value without parts. Of the forms that start alike, the first that fits is taken. -/
def readScalar (cs : List Char) : Option (Scalar × List Char) :=
  match cs with
  | '"' :: _ => (readString cs).map fun (s, cs) => (.text s, cs)
  | '\'' :: _ => (readString cs).map fun (s, cs) => (.text s, cs)
  | 't' :: 'r' :: 'u' :: 'e' :: cs => some (.boolean true, cs)
  | 'f' :: 'a' :: 'l' :: 's' :: 'e' :: cs => some (.boolean false, cs)
  | cs => readMoment cs <|> readFloat cs <|> readSpecial cs <|> readInteger cs

end Striping.Toml
