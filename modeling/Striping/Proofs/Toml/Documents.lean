import Striping.Proofs.Toml.Lexemes
import Striping.Toml.Document

/-!
# Documents of numbers read back

A document of headers, numbered keys and blank lines (`Line`) reads back as the statements of its
lines (`readStatements_lines`). The induction is on the lines, with one step for each kind
(`readStatementsIn_header`, `readStatementsIn_number`, `readStatementsIn_blank`).
-/

namespace Striping.Toml

/-- A line of a document that gives numbers to keys. -/
inductive Line where
  /-- The header of a table. -/
  | header (name : String)
  /-- A key with its number. -/
  | number (key : String) (n : Nat)
  /-- A line without content. -/
  | blank

namespace Line

/-- The characters of a line, with those that end it. -/
def text : Line → List Char
  | header name => '[' :: (name.toList ++ [']', '\n'])
  | number key n => key.toList ++ ' ' :: '=' :: ' ' :: (Nat.toDigits 10 n ++ ['\n'])
  | blank => ['\n']

/-- What a line states. -/
def statement? : Line → Option Statement
  | header name => some (.table [name])
  | number key n => some (.pair [key] (.scalar (.integer n)))
  | blank => none

/-- The line's names need no quotes, and its number is a signed word. -/
def Plain : Line → Prop
  | header name => IsBareKey name.toList
  | number key n => IsBareKey key.toList ∧ n < Word.size / 2
  | blank => True

end Line

/-! ## One line -/

theorem endLine_break (cs : List Char) : endLine ('\n' :: cs) = some cs := rfl

theorem isEmptyLine_cons {c : Char} (hblank : isBlank c = false) (hcomment : c ≠ '#')
    (hfeed : c ≠ '\n') (hreturn : c ≠ '\r') (cs : List Char) : isEmptyLine (c :: cs) = false := by
  unfold isEmptyLine
  rw [skipBlanks_cons hblank]
  split
  · next h => exact absurd (List.cons.inj h).1 hcomment
  · next h => exact absurd (List.cons.inj h).1 hfeed
  · next h => exact absurd (List.cons.inj h).1 hreturn
  · rfl

theorem readStatementsIn_blank (fuel : Nat) (cs : List Char) :
    readStatementsIn (fuel + 1) ('\n' :: cs) = readStatementsIn fuel cs := rfl

/-- A line with a statement adds the statement. -/
theorem readStatementsIn_statement {c : Char} {cs rest : List Char} {statement : Statement}
    (hblank : isBlank c = false) (hempty : isEmptyLine (c :: cs) = false)
    (hread : readStatement (c :: cs) = some (statement, '\n' :: rest)) (fuel : Nat) :
    readStatementsIn (fuel + 1) (c :: cs)
      = (readStatementsIn fuel rest).map (statement :: ·) := by
  rw [readStatementsIn, skipBlanks_cons hblank]
  dsimp only
  rw [hempty, if_neg nofun, hread, Option.bind_some]
  dsimp only
  rw [endLine_break, Option.bind_some]

theorem readStatementsIn_header {name : String} (h : IsBareKey name.toList) (fuel : Nat)
    (rest : List Char) :
    readStatementsIn (fuel + 1) ((Line.header name).text ++ rest)
      = (readStatementsIn fuel rest).map (.table [name] :: ·) := by
  have hkey := readKey_bare h (']' :: '\n' :: rest)
    (fun c hc => by cases hc; rfl) nofun (show 0 < maxParts by decide)
  rw [String.ofList_toList] at hkey
  refine readStatementsIn_statement rfl rfl ?_ fuel
  obtain ⟨c, cs, hcons, hc⟩ := h.exists_head
  have happend : name.toList ++ [']', '\n'] ++ rest = name.toList ++ ']' :: '\n' :: rest := by
    rw [List.append_assoc]
    rfl
  change readStatement ('[' :: (name.toList ++ [']', '\n'] ++ rest)) = _
  rw [happend]
  rw [hcons, List.cons_append] at hkey ⊢
  unfold readStatement
  split
  · next h => exact absurd (List.cons.inj h).2 (cons_ne_cons hc rfl)
  · next h =>
    rw [← (List.cons.inj h).2, hkey, Option.bind_some]
    rfl
  · next hnot => exact absurd rfl (hnot _)

theorem readValue_number {n : Nat} (hn : n < Word.size / 2) (levels : Nat) (rest : List Char) :
    readValue levels (Nat.toDigits 10 n ++ '\n' :: rest)
      = some (.scalar (.integer n), '\n' :: rest) := by
  have hscalar := readScalar_digits hn rest
  obtain ⟨c, cs, hcons, hdigit⟩ := exists_head_toDigits n
  rw [hcons, List.cons_append] at hscalar ⊢
  unfold readValue
  -- no array and no table starts with a digit
  split
  · next h => exact absurd h (cons_ne_cons hdigit rfl)
  · next h => exact absurd h (cons_ne_cons hdigit rfl)
  · next h => exact absurd h (cons_ne_cons hdigit rfl)
  · next h => exact absurd h (cons_ne_cons hdigit rfl)
  · rw [hscalar]
    rfl

theorem skipBlanks_number (n : Nat) (rest : List Char) :
    skipBlanks (Nat.toDigits 10 n ++ rest) = Nat.toDigits 10 n ++ rest := by
  obtain ⟨c, cs, hcons, hdigit⟩ := exists_head_toDigits n
  have hbare : isBare c = true := by
    rw [isBare, Char.isAlphanum, hdigit, Bool.or_true, Bool.true_or, Bool.true_or]
  rw [hcons, List.cons_append, skipBlanks_cons (isBlank_of_isBare hbare)]

theorem readPair_number {key : List Char} (h : IsBareKey key) {n : Nat} (hn : n < Word.size / 2)
    (levels : Nat) (rest : List Char) :
    readPair (readValue levels) (key ++ ' ' :: '=' :: ' ' :: (Nat.toDigits 10 n ++ '\n' :: rest))
      = some (([String.ofList key], .scalar (.integer n)), '\n' :: rest) := by
  have hkey := readKey_bare h (' ' :: '=' :: ' ' :: (Nat.toDigits 10 n ++ '\n' :: rest))
    (fun c hc => by cases hc; rfl) nofun (show 0 < maxParts by decide)
  have hequals : skipChar '=' (skipBlanks (' ' :: '=' :: ' ' :: (Nat.toDigits 10 n ++ '\n' :: rest)))
      = some (' ' :: (Nat.toDigits 10 n ++ '\n' :: rest)) := rfl
  rw [readPair, hkey, Option.bind_some]
  dsimp only
  rw [hequals, Option.bind_some, skipBlanks_blank, skipBlanks_number, readValue_number hn]
  rfl

theorem readStatementsIn_number {key : String} (h : IsBareKey key.toList) {n : Nat}
    (hn : n < Word.size / 2) (fuel : Nat) (rest : List Char) :
    readStatementsIn (fuel + 1) ((Line.number key n).text ++ rest)
      = (readStatementsIn fuel rest).map (.pair [key] (.scalar (.integer n)) :: ·) := by
  have hpair := readPair_number h hn maxNesting rest
  rw [String.ofList_toList] at hpair
  obtain ⟨c, cs, hcons, hc⟩ := h.exists_head
  have happend : (Line.number key n).text ++ rest
      = key.toList ++ ' ' :: '=' :: ' ' :: (Nat.toDigits 10 n ++ '\n' :: rest) := by
    simp only [Line.text, List.append_assoc, List.cons_append, List.nil_append]
  rw [happend]
  rw [hcons, List.cons_append] at hpair ⊢
  refine readStatementsIn_statement (isBlank_of_isBare hc) ?_ ?_ fuel
  · refine isEmptyLine_cons (isBlank_of_isBare hc) ?_ ?_ ?_ _
    all_goals
      rintro rfl
      cases hc
  · unfold readStatement
    split
    · next h => exact absurd h (cons_ne_cons hc rfl)
    · next h => exact absurd h (cons_ne_cons hc rfl)
    · rw [hpair]
      rfl

/-! ## All lines -/

theorem readStatementsIn_lines {lines : List Line} (h : ∀ line ∈ lines, line.Plain) {fuel : Nat}
    (hfuel : lines.length < fuel) :
    readStatementsIn fuel (lines.flatMap Line.text) = some (lines.filterMap Line.statement?) := by
  induction lines generalizing fuel with
  | nil =>
    cases fuel with
    | zero => cases hfuel
    | succ fuel => rfl
  | cons line lines ih =>
    obtain ⟨hline, hlines⟩ := List.forall_mem_cons.1 h
    cases fuel with
    | zero => cases hfuel
    | succ fuel =>
      have hrest := ih hlines (Nat.lt_of_succ_lt_succ hfuel)
      rw [List.flatMap_cons]
      cases line with
      | header name =>
        rw [readStatementsIn_header hline, hrest]
        rfl
      | number key n =>
        rw [readStatementsIn_number hline.1 hline.2, hrest]
        rfl
      | blank => exact (readStatementsIn_blank ..).trans hrest

theorem Line.Plain.exists_head {line : Line} (h : line.Plain) :
    ∃ c cs, line.text = c :: cs ∧ c ≠ '\ufeff' := by
  cases line with
  | header name => exact ⟨'[', _, rfl, by decide⟩
  | number key n =>
    obtain ⟨c, cs, hcons, hc⟩ := h.1.exists_head
    refine ⟨c, _, by rw [text, hcons, List.cons_append], ?_⟩
    rintro rfl
    cases hc
  | blank => exact ⟨'\n', [], rfl, by decide⟩

theorem length_le_lines {lines : List Line} (h : ∀ line ∈ lines, line.Plain) :
    lines.length ≤ (lines.flatMap Line.text).length := by
  induction lines with
  | nil => exact Nat.le_refl 0
  | cons line lines ih =>
    obtain ⟨hline, hlines⟩ := List.forall_mem_cons.1 h
    obtain ⟨c, cs, hcons, -⟩ := hline.exists_head
    have := ih hlines
    rw [List.flatMap_cons, hcons, List.length_append, List.length_cons, List.length_cons]
    omega

/-- **A document of plain lines reads back** as what its lines state. -/
theorem readStatements_lines {lines : List Line} (h : ∀ line ∈ lines, line.Plain) :
    readStatements (lines.flatMap Line.text) = some (lines.filterMap Line.statement?) := by
  have hread := readStatementsIn_lines h (Nat.lt_succ_of_le (length_le_lines h))
  unfold readStatements
  split
  · next hmark =>
    cases lines with
    | nil => cases hmark
    | cons line lines =>
      obtain ⟨c, cs, hcons, hne⟩ := (h line (.head _)).exists_head
      rw [List.flatMap_cons, hcons, List.cons_append] at hmark
      exact absurd (List.cons.inj hmark).1 hne
  · exact hread

end Striping.Toml
