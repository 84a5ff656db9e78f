import Striping.Error

/-!
# Byte patterns

The content of generated files: the byte at position `p` is `p % modulus + 1`. No byte of a pattern
is zero (`Pattern.byteAt_ne_zero`), so content is never mistaken for padding.
-/

namespace Striping

/-- A repeating byte pattern, keyed by the position in the file. -/
structure Pattern where
  /-- The length of the period. -/
  modulus : Nat
  /-- The period is not empty. -/
  modulus_pos : 0 < modulus
  /-- Every value of the pattern is a byte. -/
  modulus_le : modulus ≤ 255
  deriving Repr

namespace Pattern

instance : DecidableEq Pattern := fun p q =>
  if h : p.modulus = q.modulus then isTrue (by cases p; cases q; cases h; rfl)
  else isFalse fun e => h (congrArg modulus e)

/-- The pattern with this modulus, which has to lie between 1 and 255. -/
def make (modulus : Nat) : Except Error Pattern :=
  if h : 0 < modulus ∧ modulus ≤ 255 then .ok ⟨modulus, h.1, h.2⟩
  else .error (.configuration (.modulus modulus))

/-- The pattern of period 29. -/
def standard : Pattern := ⟨29, by decide, by decide⟩

variable (p : Pattern)

/-- The byte at a file position. -/
def byteAt (position : Nat) : UInt8 := UInt8.ofNat (position % p.modulus + 1)

/-- The `length` bytes from position `start` on. -/
def range (start length : Nat) : Bytes :=
  (List.range length).map fun i => p.byteAt (start + i)

/-- The content of a file of `length` bytes. -/
def generate (length : Nat) : Bytes := p.range 0 length

/-- The content of a file of `length` bytes, generated into memory that is reserved for it. -/
def produce (length : Nat) : Except Fault Bytes :=
  match Word.reserve length with
  | .error fault => .error fault
  | .ok () => .ok (p.generate length)

theorem produce_eq_ok {length : Nat} (h : length ≤ Bytes.maxLength) :
    p.produce length = .ok (p.generate length) := by
  rw [produce, Word.reserve_eq_ok h]

theorem produce_eq_error {length : Nat} (h : Bytes.maxLength < length) :
    p.produce length = .error .capacity := by
  rw [produce, Word.reserve_eq_error h]

theorem toNat_byteAt (position : Nat) : (p.byteAt position).toNat = position % p.modulus + 1 := by
  have h := Nat.mod_lt position p.modulus_pos
  have h' := p.modulus_le
  simp only [byteAt, UInt8.toNat_ofNat']
  omega

theorem byteAt_ne_zero (position : Nat) : p.byteAt position ≠ 0 := by
  intro h
  have := p.toNat_byteAt position
  rw [h] at this
  simp at this

@[simp] theorem length_range (start length : Nat) : (p.range start length).length = length := by
  simp [range]

@[simp] theorem length_generate (length : Nat) : (p.generate length).length = length := by
  simp [generate]

theorem getElem?_generate (length pos : Nat) :
    (p.generate length)[pos]? = if pos < length then some (p.byteAt pos) else none := by
  by_cases h : pos < length
  · simp [generate, range, h]
  · simp [generate, range, h]

end Pattern

end Striping
