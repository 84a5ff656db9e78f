/-!
# Decimal numerals

Reading the numbers of environment variables and of arguments: an optional plus sign and one or more
of the digits 0 to 9, leading zeros allowed, with a value in range.
-/

namespace Striping.Numeral

/-- The value of a non-empty run of digits. -/
def digits? (cs : List Char) : Option Nat :=
  if cs ≠ [] ∧ cs.all Char.isDigit then some (Nat.ofDigitChars 10 cs 0) else none

/-- The number below `size` that the text writes. -/
def unsigned? (size : Nat) (text : String) : Option Nat :=
  let value := match text.toList with
    | '+' :: cs => digits? cs
    | cs => digits? cs
  value.filter (· < size)

end Striping.Numeral
