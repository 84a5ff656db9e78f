import Striping.Json.Shape
import Striping.Proofs.Numerals

/-!
# Numbers and strings read back

A number below the bound of its reader and a string of any characters read back from their written
forms (`readNat_writeNumber`, `readText_writeString`). Behind a number the text has to go on as a
compact text does (`Closes`), for a digit, a point or an exponent there would be read as part of the
number; a string ends with its own quote.
-/

namespace Striping.Json

/-- The text ends, or goes on with what may stand behind a value in a compact text. -/
def Closes (rest : List Char) : Prop := ∀ c ∈ rest.head?, c = ',' ∨ c = ']' ∨ c = '}'

theorem closes_nil : Closes [] := nofun

theorem closes_comma (rest : List Char) : Closes (',' :: rest) :=
  fun _ hc => .inl (Option.some.inj hc).symm

theorem Closes.stops {p : Char → Bool} {rest : List Char} (h : Closes rest) (hcomma : p ',' = false)
    (hbracket : p ']' = false) (hbrace : p '}' = false) : Stops p rest := by
  intro c hc
  rcases h c hc with rfl | rfl | rfl
  · exact hcomma
  · exact hbracket
  · exact hbrace

theorem skipBlanks_cons {c : Char} (h : isBlank c = false) (cs : List Char) :
    skipBlanks (c :: cs) = c :: cs := by
  rw [skipBlanks, List.dropWhile_cons, h, if_neg nofun]

theorem isBlank_of_isDigit {c : Char} (h : c.isDigit = true) : isBlank c = false := by
  rw [Bool.eq_false_iff]
  intro hblank
  simp only [isBlank, Bool.or_eq_true, beq_iff_eq] at hblank
  rcases hblank with ((rfl | rfl) | rfl) | rfl <;> cases h

/-! ## Numbers -/

theorem readDigits_append {ds rest : List Char} (hne : ds ≠ []) (hds : ∀ c ∈ ds, c.isDigit = true)
    (hrest : Stops Char.isDigit rest) : readDigits (ds ++ rest) = .ok (ds, rest) := by
  cases ds with
  | nil => exact absurd rfl hne
  | cons d ds =>
    obtain ⟨hd, hds⟩ := List.forall_mem_cons.1 hds
    rw [List.cons_append, readDigits, if_pos hd, takeWhile_append_of_stop hds hrest,
      dropWhile_append_of_stop hds hrest]

theorem readWhole_append (n : Nat) {rest : List Char} (hrest : Stops Char.isDigit rest) :
    readWhole (Nat.toDigits 10 n ++ rest) = .ok (Nat.toDigits 10 n, rest) := by
  rw [readWhole, readDigits_append Nat.toDigits_ne_nil isDigit_of_mem_digits hrest]
  rcases head_toDigits n with hzero | ⟨c, cs, hcons, -, hne⟩
  · rw [hzero]
    rfl
  · rw [hcons]
    split
    · next h => cases h
    · next h =>
      cases h
      exact absurd rfl hne
    · next h => rw [← h]

theorem readFraction_of_closes {rest : List Char} (h : Closes rest) :
    readFraction rest = .ok (none, rest) := by
  cases rest with
  | nil => rfl
  | cons c rest => rcases h c rfl with rfl | rfl | rfl <;> rfl

theorem readExponent_of_closes {rest : List Char} (h : Closes rest) :
    readExponent rest = .ok (none, rest) := by
  cases rest with
  | nil => rfl
  | cons c rest => rcases h c rfl with rfl | rfl | rfl <;> rfl

/-- A significand takes all digits if they write a word. -/
theorem significand_eq {s : Nat} {ds : List Char} (h : Nat.ofDigitChars 10 ds s < Word.size) :
    significand s ds = (Nat.ofDigitChars 10 ds s, ds.length) := by
  induction ds generalizing s with
  | nil => rw [significand, Nat.ofDigitChars_nil, List.length_nil]
  | cons d ds ih =>
    rw [Nat.ofDigitChars_cons, Nat.mul_comm] at h
    -- the digits that are left only make the number larger
    have hnext : s * 10 + (d.toNat - '0'.toNat) < Word.size := by
      rw [Nat.ofDigitChars_eq_ofDigitChars_zero] at h
      have := Nat.le_mul_of_pos_left (s * 10 + (d.toNat - '0'.toNat))
        (Nat.pow_pos (n := ds.length) (show 0 < 10 by decide))
      omega
    rw [significand, if_pos hnext, ih h, Nat.ofDigitChars_cons, Nat.mul_comm 10 s, List.length_cons]

/-- The number that is written by these digits alone. -/
def wholeNumber (n : Nat) : Number := ⟨false, Nat.toDigits 10 n, none, none⟩

theorem toNat?_wholeNumber (n : Nat) : (wholeNumber n).toNat? = some n :=
  congrArg some Nat.ofDigitChars_ten_toDigits

theorem isHuge_wholeNumber {n : Nat} (h : n < Word.size) : (wholeNumber n).isHuge = false := by
  have hsignificand : significand 0 (Nat.toDigits 10 n) = (n, (Nat.toDigits 10 n).length) := by
    rw [significand_eq (by rwa [Nat.ofDigitChars_ten_toDigits]), Nat.ofDigitChars_ten_toDigits]
  simp [Number.isHuge, wholeNumber, hsignificand]

theorem readNumber_append {n : Nat} (hn : n < Word.size) {rest : List Char} (hrest : Closes rest) :
    readNumber (Nat.toDigits 10 n ++ rest) = .ok (wholeNumber n, rest) := by
  have hunsigned : readUnsigned false (Nat.toDigits 10 n ++ rest) = .ok (wholeNumber n, rest) := by
    rw [readUnsigned, readWhole_append n (hrest.stops rfl rfl rfl)]
    simp only [readFraction_of_closes hrest, readExponent_of_closes hrest]
    rfl
  obtain ⟨c, cs, hcons, hdigit⟩ := exists_head_toDigits n
  have hminus : c ≠ '-' := fun h => by cases (h ▸ hdigit : '-'.isDigit = true)
  rw [hcons, List.cons_append] at hunsigned ⊢
  unfold readNumber
  split
  · next h => exact absurd (List.cons.inj h).1 hminus
  · rw [hunsigned]
    simp only [isHuge_wholeNumber hn, Bool.false_eq_true, if_false]

/-- **A number below the bound reads back.** -/
theorem readNat_writeNumber {bound n : Nat} (hbound : bound ≤ Word.size) (hn : n < bound)
    {rest : List Char} (hrest : Closes rest) :
    readNat bound (writeNumber n ++ rest) = .ok (n, rest) := by
  have hnumber := readNumber_append (Nat.lt_of_lt_of_le hn hbound) hrest
  obtain ⟨c, cs, hcons, hdigit⟩ := exists_head_toDigits n
  rw [hcons, List.cons_append] at hnumber
  have hstarts : startsNumber c = true := by rw [startsNumber, hdigit, Bool.or_true]
  rw [readNat, writeNumber, hcons, List.cons_append, skipBlanks_cons (isBlank_of_isDigit hdigit)]
  simp only [hstarts, if_true, hnumber, toNat?_wholeNumber, hn]

/-! ## Strings -/

theorem hexUnit?_control : ∀ n < 0x20,
    hexUnit? '0' '0' (Nat.digitChar (n / 16)) (Nat.digitChar (n % 16)) = some n := by decide

/-- The escape of a control character stands for it. -/
theorem readEscape_control {c : Char} (h : c.toNat < 0x20) (cs : List Char) :
    readEscape ('u' :: '0' :: '0' :: Nat.digitChar (c.toNat / 16) :: lowHex c :: cs) =
      .ok (c, cs) := by
  have hlow : isLow c.toNat = false := by
    simp only [isLow, Bool.and_eq_false_iff, decide_eq_false_iff_not]
    omega
  have hhigh : isHigh c.toNat = false := by
    simp only [isHigh, Bool.and_eq_false_iff, decide_eq_false_iff_not]
    omega
  simp only [readEscape, readUnit, lowHex, hexUnit?_control c.toNat h, hlow, hhigh,
    Bool.false_eq_true, if_false, Char.ofNat_toNat]

/-- **The written form of a character is read as the character.** -/
theorem readBody_writeChar (fuel : Nat) (c : Char) (cs : List Char) :
    readBody (fuel + 1) (writeChar c ++ cs) =
      (readBody fuel cs).map fun (found, rest) => (c :: found, rest) := by
  by_cases hquote : c = '"'
  · subst hquote
    rfl
  by_cases hslash : c = '\\'
  · subst hslash
    rfl
  by_cases hb : c = '\x08'
  · subst hb
    rfl
  by_cases ht : c = '\t'
  · subst ht
    rfl
  by_cases hn : c = '\n'
  · subst hn
    rfl
  by_cases hf : c = '\x0c'
  · subst hf
    rfl
  by_cases hr : c = '\r'
  · subst hr
    rfl
  simp only [writeChar, hquote, hslash, hb, ht, hn, hf, hr, if_false]
  by_cases hcontrol : c.toNat < 0x20
  · rw [if_pos hcontrol]
    simp only [List.cons_append, List.nil_append, readBody, readEscape_control hcontrol]
    rfl
  · rw [if_neg hcontrol]
    simp only [List.cons_append, List.nil_append, readBody, hquote, hslash, hcontrol, if_false]

theorem readBody_append (s : List Char) {fuel : Nat} (hfuel : s.length < fuel) (rest : List Char) :
    readBody fuel (s.flatMap writeChar ++ '"' :: rest) = .ok (s, rest) := by
  induction s generalizing fuel with
  | nil =>
    cases fuel with
    | zero => cases hfuel
    | succ fuel => rfl
  | cons c s ih =>
    cases fuel with
    | zero => cases hfuel
    | succ fuel =>
      rw [List.flatMap_cons, List.append_assoc, readBody_writeChar,
        ih (Nat.lt_of_succ_lt_succ hfuel)]
      rfl

theorem length_le_flatMap_writeChar (s : List Char) :
    s.length ≤ (s.flatMap writeChar).length := by
  have hchar : ∀ c, 1 ≤ (writeChar c).length := by
    intro c
    unfold writeChar
    repeat' split
    all_goals simp
  induction s with
  | nil => exact Nat.le_refl 0
  | cons c s ih =>
    have := hchar c
    rw [List.flatMap_cons, List.length_append, List.length_cons]
    omega

/-- The inside of a written string is read up to its closing quote. -/
theorem readString_append (s : String) (rest : List Char) :
    readString (s.toList.flatMap writeChar ++ '"' :: rest) = .ok (s, rest) := by
  have := length_le_flatMap_writeChar s.toList
  rw [readString, readBody_append s.toList (by rw [List.length_append]; omega)]
  exact congrArg (fun s => Except.ok (s, rest)) String.ofList_toList

theorem writeString_append (s : String) (rest : List Char) :
    writeString s ++ rest = '"' :: (s.toList.flatMap writeChar ++ '"' :: rest) := by
  simp only [writeString, List.cons_append, List.append_assoc, List.nil_append]

/-- **A text reads back.** -/
theorem readText_writeString (s : String) (rest : List Char) :
    readText (writeString s ++ rest) = .ok (s, rest) := by
  rw [writeString_append, readText, skipBlanks_cons rfl]
  exact readString_append s rest

end Striping.Json
