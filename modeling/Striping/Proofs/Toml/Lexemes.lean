import Striping.Proofs.Numerals
import Striping.Toml.Lexeme

/-!
# Numbers and keys read back

A signed word without a sign reads back from its digits at the end of a line
(`readScalar_digits`). Dates, times and floats start as it does, and are tried first: each needs a
character that is neither a digit nor the end of the line. A key without quotes reads back up to the
first character that it cannot have (`readKey_bare`).
-/

namespace Striping.Toml

theorem skipBlanks_cons {c : Char} (h : isBlank c = false) (cs : List Char) :
    skipBlanks (c :: cs) = c :: cs := by
  rw [skipBlanks, List.dropWhile_cons, h, if_neg nofun]

theorem skipBlanks_blank (cs : List Char) : skipBlanks (' ' :: cs) = skipBlanks cs := rfl

/-! ## Digits at the end of a line -/

/-- The text goes on with digits up to the end of the line. -/
def EndsInDigits (cs : List Char) : Prop :=
  ∃ ds rest, cs = ds ++ '\n' :: rest ∧ ∀ c ∈ ds, c.isDigit = true

theorem isSome_digit?_of_isDigit {c : Char} (h : c.isDigit = true) :
    (digit? 10 c).isSome = true := by
  have hle : c.toNat ≤ '9'.toNat := by
    rw [Char.isDigit, Bool.and_eq_true, decide_eq_true_iff, decide_eq_true_iff] at h
    exact h.2
  have hlt : c.toNat - '0'.toNat < 10 := by
    change c.toNat ≤ 57 at hle
    change c.toNat - 48 < 10
    omega
  simp only [digit?, h, if_true, Option.filter_some, hlt, decide_true, Option.isSome_some]

theorem readDigitsIn_append {ds rest : List Char} (hne : ds ≠ []) (hds : ∀ c ∈ ds, c.isDigit = true)
    {fuel : Nat} (hfuel : ds.length ≤ fuel) :
    readDigitsIn 10 fuel (ds ++ '\n' :: rest) = some (ds, '\n' :: rest) := by
  induction ds generalizing fuel with
  | nil => exact absurd rfl hne
  | cons c ds ih =>
    obtain ⟨hc, hds⟩ := List.forall_mem_cons.1 hds
    have hnone : (digit? 10 c).isNone = false := by
      rw [← Option.not_isSome, isSome_digit?_of_isDigit hc, Bool.not_true]
    cases fuel with
    | zero => cases hfuel
    | succ fuel =>
      rw [List.cons_append]
      unfold readDigitsIn
      rw [hnone, if_neg nofun]
      cases ds with
      | nil => rfl
      | cons d ds =>
        have hd := hds d (.head _)
        specialize ih nofun hds (Nat.le_of_succ_le_succ hfuel)
        rw [List.cons_append] at ih ⊢
        split
        · next h => exact absurd h (cons_ne_cons hd rfl)
        · rw [List.head?_cons, Option.bind_some, isSome_digit?_of_isDigit hd, if_pos rfl, ih]
          rfl

theorem readWhole_digits (n : Nat) (rest : List Char) :
    readWhole (Nat.toDigits 10 n ++ '\n' :: rest) = some (Nat.toDigits 10 n, '\n' :: rest) := by
  rcases head_toDigits n with hzero | ⟨c, cs, hcons, -, hne⟩
  · rw [hzero]
    rfl
  · have hread : readDigits 10 (Nat.toDigits 10 n ++ '\n' :: rest)
        = some (Nat.toDigits 10 n, '\n' :: rest) := by
      refine readDigitsIn_append Nat.toDigits_ne_nil isDigit_of_mem_digits ?_
      rw [List.length_append]
      omega
    rw [hcons, List.cons_append] at hread ⊢
    unfold readWhole
    split
    · next h => exact absurd (List.cons.inj h).1 hne
    · exact hread

theorem readSign_of_isDigit {c : Char} (h : c.isDigit = true) (cs : List Char) :
    readSign (c :: cs) = (false, c :: cs) := by
  unfold readSign
  split
  · next hplus => exact absurd hplus (cons_ne_cons h rfl)
  · next hminus => exact absurd hminus (cons_ne_cons h rfl)
  · rfl

theorem readSign_digits (n : Nat) (rest : List Char) :
    readSign (Nat.toDigits 10 n ++ rest) = (false, Nat.toDigits 10 n ++ rest) := by
  obtain ⟨c, cs, hcons, hdigit⟩ := exists_head_toDigits n
  rw [hcons, List.cons_append, readSign_of_isDigit hdigit]

/-! ## Forms that start alike -/

theorem EndsInDigits.drop {cs : List Char} (h : EndsInDigits cs) {count : Nat}
    (hdigits : ∀ c ∈ cs.take count, c.isDigit = true) : EndsInDigits (cs.drop count) := by
  obtain ⟨ds, rest, rfl, hds⟩ := h
  rcases Nat.lt_or_ge ds.length count with hlt | hle
  · have hmem : '\n' ∈ (ds ++ '\n' :: rest).take count := by
      rw [List.take_append, List.mem_append]
      obtain ⟨k, hk⟩ := Nat.exists_eq_succ_of_ne_zero (Nat.sub_ne_zero_of_lt hlt)
      exact .inr (hk ▸ .head _)
    exact absurd (hdigits _ hmem) nofun
  · rw [List.drop_append_of_le_length hle]
    exact ⟨ds.drop count, rest, rfl, fun c hc => hds c (List.mem_of_mem_drop hc)⟩

theorem EndsInDigits.of_readFixed {cs rest : List Char} (h : EndsInDigits cs)
    {count low high n : Nat} (hread : readFixed count low high cs = some (n, rest)) :
    EndsInDigits rest := by
  unfold readFixed at hread
  dsimp only at hread
  split at hread
  · next hfixed =>
    split at hread
    · cases hread
      exact h.drop fun c hc => List.all_eq_true.1 hfixed.2 c hc
    · cases hread
  · cases hread

theorem EndsInDigits.skipChar_eq_none {cs : List Char} (h : EndsInDigits cs) {c : Char}
    (hdigit : c.isDigit = false) (hbreak : c ≠ '\n') : skipChar c cs = none := by
  obtain ⟨ds, rest, rfl, hds⟩ := h
  cases ds with
  | nil => rw [List.nil_append, skipChar, if_neg hbreak]
  | cons d ds =>
    rw [List.cons_append, skipChar, if_neg]
    rintro rfl
    rw [hds c (.head _)] at hdigit
    cases hdigit

theorem EndsInDigits.readMoment_eq_none {cs : List Char} (h : EndsInDigits cs) :
    readMoment cs = none := by
  have hdate : skipDate cs = none := by
    unfold skipDate
    cases hyear : readFixed 4 0 9999 cs with
    | none => rfl
    | some found =>
      have hstop := (h.of_readFixed hyear).skipChar_eq_none (c := '-') rfl (by decide)
      simp only [Option.bind_eq_bind, Option.bind_some, hstop, Option.bind_none]
  have htime : skipTime cs = none := by
    unfold skipTime
    cases hhour : readFixed 2 0 23 cs with
    | none => rfl
    | some found =>
      have hstop := (h.of_readFixed hhour).skipChar_eq_none (c := ':') rfl (by decide)
      simp only [Option.bind_eq_bind, Option.bind_some, hstop, Option.bind_none]
  rw [readMoment, hdate, htime]
  rfl

theorem readFloat_digits (n : Nat) (rest : List Char) :
    readFloat (Nat.toDigits 10 n ++ '\n' :: rest) = none := by
  have hfraction : readFraction ('\n' :: rest) = some (none, '\n' :: rest) := rfl
  have hexponent : readExponent ('\n' :: rest) = some (none, '\n' :: rest) := rfl
  unfold readFloat
  rw [readSign_digits]
  simp only [readWhole_digits, Option.bind_some, hfraction, hexponent, Option.isNone_none,
    Bool.and_true, if_true]

theorem readSpecial_digits (n : Nat) (rest : List Char) :
    readSpecial (Nat.toDigits 10 n ++ rest) = none := by
  obtain ⟨c, cs, hcons, hdigit⟩ := exists_head_toDigits n
  rw [readSpecial, readSign_digits, hcons, List.cons_append]
  split
  · next h => exact absurd h (cons_ne_cons hdigit rfl)
  · next h => exact absurd h (cons_ne_cons hdigit rfl)
  · rfl

theorem readInteger_digits {n : Nat} (hn : n < Word.size / 2) (rest : List Char) :
    readInteger (Nat.toDigits 10 n ++ '\n' :: rest) = some (.integer n, '\n' :: rest) := by
  have hsign := readSign_digits n ('\n' :: rest)
  have hwhole := readWhole_digits n rest
  have hvalue := Nat.ofDigitChars_ten_toDigits (n := n)
  have hsigned : signed? false n = some (n : Int) := if_pos hn
  rcases head_toDigits n with hzero | ⟨c, cs, hcons, -, hne⟩
  · rw [hzero] at hvalue ⊢
    rw [← hvalue]
    rfl
  · rw [hcons, List.cons_append] at hsign hwhole ⊢
    rw [hcons] at hvalue
    unfold readInteger
    -- a number of another base starts with a zero
    split
    · next h => exact absurd (List.cons.inj h).1 hne
    · next h => exact absurd (List.cons.inj h).1 hne
    · next h => exact absurd (List.cons.inj h).1 hne
    · simp only [hsign, hwhole, Option.bind_some, hvalue, hsigned, Option.map_some]

/-- **A signed word reads back from its digits** at the end of a line. -/
theorem readScalar_digits {n : Nat} (hn : n < Word.size / 2) (rest : List Char) :
    readScalar (Nat.toDigits 10 n ++ '\n' :: rest) = some (.integer n, '\n' :: rest) := by
  have hends : EndsInDigits (Nat.toDigits 10 n ++ '\n' :: rest) :=
    ⟨_, _, rfl, isDigit_of_mem_digits⟩
  have hfirst : (readMoment (Nat.toDigits 10 n ++ '\n' :: rest)
      <|> readFloat (Nat.toDigits 10 n ++ '\n' :: rest)
      <|> readSpecial (Nat.toDigits 10 n ++ '\n' :: rest)
      <|> readInteger (Nat.toDigits 10 n ++ '\n' :: rest)) = some (.integer n, '\n' :: rest) := by
    rw [hends.readMoment_eq_none, readFloat_digits, readSpecial_digits, readInteger_digits hn]
    rfl
  obtain ⟨c, cs, hcons, hdigit⟩ := exists_head_toDigits n
  rw [hcons, List.cons_append] at hfirst ⊢
  unfold readScalar
  split
  · next h => exact absurd h (cons_ne_cons hdigit rfl)
  · next h => exact absurd h (cons_ne_cons hdigit rfl)
  · next h => exact absurd h (cons_ne_cons hdigit rfl)
  · next h => exact absurd h (cons_ne_cons hdigit rfl)
  · exact hfirst

/-! ## Keys -/

/-- The text is a key that needs no quotes. -/
def IsBareKey (name : List Char) : Prop := name ≠ [] ∧ ∀ c ∈ name, isBare c = true

theorem IsBareKey.exists_head {name : List Char} (h : IsBareKey name) :
    ∃ c cs, name = c :: cs ∧ isBare c = true := by
  obtain ⟨hne, hbare⟩ := h
  cases name with
  | nil => exact absurd rfl hne
  | cons c cs => exact ⟨c, cs, rfl, hbare c (.head _)⟩

theorem readKeyPart_bare {name rest : List Char} (h : IsBareKey name) (hrest : Stops isBare rest) :
    readKeyPart (name ++ rest) = some (String.ofList name, rest) := by
  have htake := takeWhile_append_of_stop h.2 hrest
  have hdrop := dropWhile_append_of_stop h.2 hrest
  obtain ⟨c, cs, rfl, hc⟩ := h.exists_head
  rw [List.cons_append] at htake hdrop ⊢
  unfold readKeyPart
  split
  · next hquote => exact absurd hquote (cons_ne_cons hc rfl)
  · next hquote => exact absurd hquote (cons_ne_cons hc rfl)
  · rw [htake, hdrop]

theorem isBlank_of_isBare {c : Char} (h : isBare c = true) : isBlank c = false := by
  rw [Bool.eq_false_iff]
  intro hblank
  simp only [isBlank, Bool.or_eq_true, beq_iff_eq] at hblank
  rcases hblank with rfl | rfl <;> cases h

theorem skipBlanks_bare {name : List Char} (h : IsBareKey name) (rest : List Char) :
    skipBlanks (name ++ rest) = name ++ rest := by
  obtain ⟨c, cs, rfl, hc⟩ := h.exists_head
  exact skipBlanks_cons (isBlank_of_isBare hc) _

/-- **A key without quotes reads back** where no other part of a key follows. -/
theorem readKey_bare {name : List Char} (h : IsBareKey name) (rest : List Char)
    (hrest : Stops isBare rest) (hdot : (skipBlanks rest).head? ≠ some '.') {fuel : Nat}
    (hfuel : 0 < fuel) :
    readKey fuel (name ++ rest) = some ([String.ofList name], skipBlanks rest) := by
  cases fuel with
  | zero => cases hfuel
  | succ fuel =>
    rw [readKey, skipBlanks_bare h, readKeyPart_bare h hrest, Option.bind_some]
    dsimp only
    split
    · next hrest => exact absurd (congrArg List.head? hrest) hdot
    · rfl

end Striping.Toml
