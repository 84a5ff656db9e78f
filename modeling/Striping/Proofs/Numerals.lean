import Striping.Numeral

/-!
# Written numbers

The decimal digits of a number, as they stand in a text: all of them are digits, the first is no
zero unless it stands alone (`head_toDigits`), and a reader that takes digits for as long as there
are any takes exactly them (`takeWhile_append_of_stop`, `dropWhile_append_of_stop`).
-/

namespace Striping

/-- The text does not go on with such a character. -/
def Stops (p : Char → Bool) (rest : List Char) : Prop := ∀ c ∈ rest.head?, p c = false

/-- Texts that start with characters of different kinds differ. -/
theorem cons_ne_cons {p : Char → Bool} {c d : Char} {cs cs' : List Char} (hc : p c = true)
    (hd : p d = false) : c :: cs ≠ d :: cs' := by
  intro h
  rw [(List.cons.inj h).1, hd] at hc
  cases hc

theorem takeWhile_append_of_stop {p : Char → Bool} {cs rest : List Char}
    (hcs : ∀ c ∈ cs, p c = true) (hrest : Stops p rest) : (cs ++ rest).takeWhile p = cs := by
  rw [List.takeWhile_append_of_pos hcs]
  cases rest with
  | nil => exact List.append_nil cs
  | cons c rest => rw [List.takeWhile_cons, hrest c rfl, if_neg nofun, List.append_nil]

theorem dropWhile_append_of_stop {p : Char → Bool} {cs rest : List Char}
    (hcs : ∀ c ∈ cs, p c = true) (hrest : Stops p rest) : (cs ++ rest).dropWhile p = rest := by
  rw [List.dropWhile_append_of_pos hcs]
  cases rest with
  | nil => rfl
  | cons c rest => rw [List.dropWhile_cons, hrest c rfl, if_neg nofun]

theorem isDigit_of_mem_digits {n : Nat} : ∀ c ∈ Nat.toDigits 10 n, c.isDigit = true :=
  fun _ hc => Nat.isDigit_of_mem_toDigits (by decide) (by decide) hc

/-- **A written number starts with a zero only if it is zero.** -/
theorem head_toDigits (n : Nat) : Nat.toDigits 10 n = ['0'] ∨
    ∃ c cs, Nat.toDigits 10 n = c :: cs ∧ c.isDigit = true ∧ c ≠ '0' := by
  induction n using Nat.base_induction 10 (by decide) with
  | single m hm =>
    rw [Nat.toDigits_of_lt_base hm]
    rcases Nat.eq_zero_or_pos m with rfl | hpos
    · exact .inl rfl
    · have hne : m.digitChar ≠ '0' := fun h => Nat.ne_of_gt hpos (Nat.digitChar_eq_zero.1 h)
      exact .inr ⟨_, [], rfl, by simpa [Nat.isDigit_digitChar] using hm, hne⟩
  | digit m k hk hm ih =>
    rw [← Nat.toDigits_append_toDigits (by decide) hm hk]
    rcases ih with hzero | ⟨c, cs, hcons, hdigit, hne⟩
    · -- a number that is written as a zero is zero
      have := congrArg (fun ds => Nat.ofDigitChars 10 ds 0) hzero
      rw [Nat.ofDigitChars_ten_toDigits] at this
      exact absurd this (Nat.ne_of_gt hm)
    · exact .inr ⟨c, cs ++ Nat.toDigits 10 k, by rw [hcons, List.cons_append], hdigit, hne⟩

theorem exists_head_toDigits (n : Nat) :
    ∃ c cs, Nat.toDigits 10 n = c :: cs ∧ c.isDigit = true := by
  rcases head_toDigits n with hzero | ⟨c, cs, hcons, hdigit, -⟩
  · exact ⟨'0', [], hzero, rfl⟩
  · exact ⟨c, cs, hcons, hdigit⟩

end Striping
