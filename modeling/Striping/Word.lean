/-!
# 64-bit words

Positions, lengths and ids are natural numbers below `Word.size`. The operations here are the ones
that a machine carries out on them: each gives the exact result or a `Fault`, never a wrapped
number.

* `Word.add`, `Word.sub`, `Word.mul` fail where the exact result is not a word.
* `Word.div`, `Word.mod` fail where the divisor is zero.
* `Word.reserve` fails where no piece of memory is as long as what is asked for.
-/

namespace Striping

/-- Why a machine step has no answer. -/
inductive Fault where
  /-- The exact result is not a 64-bit word. -/
  | overflow
  /-- The divisor is zero. -/
  | divisionByZero
  /-- A slice reaches past the end of its buffer. -/
  | outOfBounds
  /-- No piece of memory has so many bytes. -/
  | capacity
  deriving DecidableEq, Repr

/-- The fault in words. -/
def Fault.message : Fault → String
  | .overflow => "arithmetic overflow"
  | .divisionByZero => "division by zero"
  | .outOfBounds => "slice out of bounds"
  | .capacity => "capacity overflow"

/-- The longest content that a machine holds in one piece: its offsets are signed words. -/
abbrev Bytes.maxLength : Nat := 9223372036854775807

namespace Word

/-- The number of 64-bit words: every word is below it. -/
abbrev size : Nat := 18446744073709551616

/-- The sum, if it is a word. -/
def add (a b : Nat) : Except Fault Nat :=
  if a + b < size then .ok (a + b) else .error .overflow

/-- The difference, if the first number is the larger. -/
def sub (a b : Nat) : Except Fault Nat :=
  if b ≤ a then .ok (a - b) else .error .overflow

/-- The product, if it is a word. -/
def mul (a b : Nat) : Except Fault Nat :=
  if a * b < size then .ok (a * b) else .error .overflow

/-- The quotient by a positive number. -/
def div (a b : Nat) : Except Fault Nat :=
  if b = 0 then .error .divisionByZero else .ok (a / b)

/-- The remainder by a positive number. -/
def mod (a b : Nat) : Except Fault Nat :=
  if b = 0 then .error .divisionByZero else .ok (a % b)

/-- Take a piece of memory for `length` bytes. That the machine has none left is not considered. -/
def reserve (length : Nat) : Except Fault Unit :=
  if length ≤ Bytes.maxLength then .ok () else .error .capacity

theorem add_eq_ok {a b : Nat} (h : a + b < size) : add a b = .ok (a + b) := by
  simp only [add, h, if_true]

theorem add_eq_error {a b : Nat} (h : size ≤ a + b) : add a b = .error .overflow := by
  simp only [add, Nat.not_lt_of_le h, if_false]

theorem sub_eq_ok {a b : Nat} (h : b ≤ a) : sub a b = .ok (a - b) := by
  simp only [sub, h, if_true]

theorem mul_eq_ok {a b : Nat} (h : a * b < size) : mul a b = .ok (a * b) := by
  simp only [mul, h, if_true]

theorem mul_eq_error {a b : Nat} (h : size ≤ a * b) : mul a b = .error .overflow := by
  simp only [mul, Nat.not_lt_of_le h, if_false]

theorem div_eq_ok {a b : Nat} (h : 0 < b) : div a b = .ok (a / b) := by
  simp only [div, Nat.ne_of_gt h, if_false]

theorem mod_eq_ok {a b : Nat} (h : 0 < b) : mod a b = .ok (a % b) := by
  simp only [mod, Nat.ne_of_gt h, if_false]

theorem reserve_eq_ok {length : Nat} (h : length ≤ Bytes.maxLength) : reserve length = .ok () :=
  if_pos h

theorem reserve_eq_error {length : Nat} (h : Bytes.maxLength < length) :
    reserve length = .error .capacity :=
  if_neg (Nat.not_le_of_lt h)

end Word

end Striping
