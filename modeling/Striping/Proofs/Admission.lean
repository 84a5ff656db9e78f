import Striping.Environment
import Striping.Proofs.Json.RoundTrip

/-!
# Which layouts are admitted

Five rules say in exact numbers which four parameters make a layout (`Geometry.Usable`), and the
first that is broken is the reason to refuse them (`Geometry.Breaks`). An answer follows the rules if
it is the layout of these numbers or that reason (`Geometry.Admits`).

`Geometry.make` checks the rules one after the other, but sums the width of a group in words before
it compares it. Where the sum is no word (`Geometry.Overflows`) the answer is a fault and not the
reason; everywhere else it follows the rules (`Geometry.make_gates`). The numbers of an environment
and those of a text in JSON are words and take the same way, so nothing else is admitted through
them (`Geometry.layouts_gated`).
-/

namespace Striping.Geometry

section Rules

variable (cellSize dataBlocks parityBlocks stripesPerBlock : Nat)

/-- The rules for the numbers of a layout. -/
structure Usable : Prop where
  cellSize_pos : 0 < cellSize
  dataBlocks_pos : 0 < dataBlocks
  stripesPerBlock_pos : 0 < stripesPerBlock
  width_le : dataBlocks + parityBlocks ≤ maxWidth
  capacity_lt : cellSize * stripesPerBlock * dataBlocks < Word.size

/-- The first rule that the numbers break. -/
inductive Breaks : ConfigurationCause → Prop
  | cellSize (h : cellSize = 0) : Breaks .zeroCellSize
  | dataBlocks (hc : 0 < cellSize) (h : dataBlocks = 0) : Breaks .zeroDataBlocks
  | stripes (hc : 0 < cellSize) (hd : 0 < dataBlocks) (h : stripesPerBlock = 0) :
    Breaks .zeroStripes
  | width (hc : 0 < cellSize) (hd : 0 < dataBlocks) (hs : 0 < stripesPerBlock)
    (h : maxWidth < dataBlocks + parityBlocks) : Breaks (.tooWide (dataBlocks + parityBlocks))
  | capacity (hc : 0 < cellSize) (hd : 0 < dataBlocks) (hs : 0 < stripesPerBlock)
    (hw : dataBlocks + parityBlocks ≤ maxWidth)
    (h : Word.size ≤ cellSize * stripesPerBlock * dataBlocks) : Breaks .tooLarge

/-- The numbers are words. -/
structure NumbersInWords : Prop where
  cellSize_lt : cellSize < Word.size
  dataBlocks_lt : dataBlocks < Word.size
  parityBlocks_lt : parityBlocks < Word.size
  stripesPerBlock_lt : stripesPerBlock < Word.size

/-- The answer follows the rules: it is the layout of these numbers if they keep all rules, and the
first rule that they break otherwise. -/
structure Admits (answer : Except Error Geometry) : Prop where
  ok_iff : (∃ g, answer = .ok g) ↔
    Usable cellSize dataBlocks parityBlocks stripesPerBlock
  numbers : ∀ g, answer = .ok g → g.cellSize = cellSize ∧ g.dataBlocks = dataBlocks ∧
    g.parityBlocks = parityBlocks ∧ g.stripesPerBlock = stripesPerBlock
  error_iff : ∀ e, answer = .error e ↔
    ∃ cause, Breaks cellSize dataBlocks parityBlocks stripesPerBlock cause ∧
      e = .configuration cause

/-- The width of a group comes to be summed, and the sum is no word. -/
structure Overflows : Prop where
  cellSize_pos : 0 < cellSize
  dataBlocks_pos : 0 < dataBlocks
  stripesPerBlock_pos : 0 < stripesPerBlock
  size_le : Word.size ≤ dataBlocks + parityBlocks

/-- The answer follows the rules but for a sum that is no word, which is a fault. -/
structure Gates (answer : Except Error Geometry) : Prop where
  admits_iff : Admits cellSize dataBlocks parityBlocks stripesPerBlock answer ↔
    ¬ Overflows cellSize dataBlocks parityBlocks stripesPerBlock
  fault : Overflows cellSize dataBlocks parityBlocks stripesPerBlock →
    answer = .error (.fault .overflow)

end Rules

variable {c d p s : Nat} {cause cause' : ConfigurationCause}

/-! ## The rules -/

theorem Breaks.not_usable (h : Breaks c d p s cause) : ¬ Usable c d p s := by
  rintro ⟨hc, hd, hs, hw, hg⟩
  cases h <;> omega

/-- There is one first rule. -/
theorem Breaks.unique (h : Breaks c d p s cause) (h' : Breaks c d p s cause') : cause = cause' := by
  cases h <;> cases h' <;> first | rfl | omega

/-- Numbers that break no rule keep all. -/
theorem usable_or_breaks (c d p s : Nat) : Usable c d p s ∨ ∃ cause, Breaks c d p s cause := by
  rcases Nat.eq_zero_or_pos c with hc | hc
  · exact .inr ⟨_, .cellSize hc⟩
  rcases Nat.eq_zero_or_pos d with hd | hd
  · exact .inr ⟨_, .dataBlocks hc hd⟩
  rcases Nat.eq_zero_or_pos s with hs | hs
  · exact .inr ⟨_, .stripes hc hd hs⟩
  rcases Nat.lt_or_ge maxWidth (d + p) with hw | hw
  · exact .inr ⟨_, .width hc hd hs hw⟩
  rcases Nat.lt_or_ge (c * s * d) Word.size with hg | hg
  · exact .inl ⟨hc, hd, hs, hw, hg⟩
  · exact .inr ⟨_, .capacity hc hd hs hw hg⟩

/-! ## The check -/

theorem make_of_usable (h : Usable c d p s) : ∃ g, make c d p s = .ok g ∧
    g.cellSize = c ∧ g.dataBlocks = d ∧ g.parityBlocks = p ∧ g.stripesPerBlock = s := by
  let g : Geometry := ⟨c, d, p, s, h.cellSize_pos, h.dataBlocks_pos, h.stripesPerBlock_pos,
    h.width_le, h.capacity_lt⟩
  exact ⟨g, g.make_self, rfl, rfl, rfl, rfl⟩

theorem make_of_overflows (h : Overflows c d p s) : make c d p s = .error (.fault .overflow) := by
  rw [make, dif_neg (Nat.ne_of_gt h.cellSize_pos), dif_neg (Nat.ne_of_gt h.dataBlocks_pos),
    dif_neg (Nat.ne_of_gt h.stripesPerBlock_pos), Word.add_eq_error h.size_le]

/-- With positive numbers and a sum that is a word, the last two rules decide. -/
theorem make_of_pos (hc : 0 < c) (hd : 0 < d) (hs : 0 < s) (hsum : d + p < Word.size) :
    make c d p s =
      if hw : d + p ≤ maxWidth then
        if hg : c * s * d < Word.size then .ok ⟨c, d, p, s, hc, hd, hs, hw, hg⟩
        else .error (.configuration .tooLarge)
      else .error (.configuration (.tooWide (d + p))) := by
  rw [make, dif_neg (Nat.ne_of_gt hc), dif_neg (Nat.ne_of_gt hd), dif_neg (Nat.ne_of_gt hs),
    Word.add_eq_ok hsum]

/-- The rules are checked in their order, and the width is known by its sum if that is a word. -/
theorem make_of_breaks (h : Breaks c d p s cause) (hsum : ¬ Overflows c d p s) :
    make c d p s = .error (.configuration cause) := by
  have hlt (hc : 0 < c) (hd : 0 < d) (hs : 0 < s) : d + p < Word.size :=
    Nat.lt_of_not_le fun hle => hsum ⟨hc, hd, hs, hle⟩
  cases h with
  | cellSize hc => rw [make, dif_pos hc]
  | dataBlocks hc hd => rw [make, dif_neg (Nat.ne_of_gt hc), dif_pos hd]
  | stripes hc hd hs =>
    rw [make, dif_neg (Nat.ne_of_gt hc), dif_neg (Nat.ne_of_gt hd), dif_pos hs]
  | width hc hd hs hw =>
    rw [make_of_pos hc hd hs (hlt hc hd hs), dif_neg (Nat.not_le_of_lt hw)]
  | capacity hc hd hs hw hg =>
    rw [make_of_pos hc hd hs (hlt hc hd hs), dif_pos hw, dif_neg (Nat.not_lt_of_le hg)]

theorem make_admits (hsum : ¬ Overflows c d p s) : Admits c d p s (make c d p s) := by
  rcases usable_or_breaks c d p s with husable | ⟨cause, hbreaks⟩
  · obtain ⟨g, hmake, hnumbers⟩ := make_of_usable husable
    rw [hmake]
    refine ⟨iff_of_true ⟨g, rfl⟩ husable, ?_, fun e => iff_of_false nofun ?_⟩
    · rintro _ ⟨⟩
      exact hnumbers
    · rintro ⟨cause, hbreaks, -⟩
      exact hbreaks.not_usable husable
  · rw [make_of_breaks hbreaks hsum]
    refine ⟨iff_of_false nofun hbreaks.not_usable, nofun, fun e => ⟨?_, ?_⟩⟩
    · rintro ⟨⟩
      exact ⟨cause, hbreaks, rfl⟩
    · rintro ⟨cause', hbreaks', rfl⟩
      rw [hbreaks.unique hbreaks']

/-- **The check follows the rules unless the width of a group cannot be summed.** -/
theorem make_gates (c d p s : Nat) : Gates c d p s (make c d p s) where
  admits_iff := by
    refine ⟨fun hadmits hsum => ?_, make_admits⟩
    obtain ⟨cause, -, hcause⟩ := (hadmits.error_iff _).1 (make_of_overflows hsum)
    cases hcause
  fault := make_of_overflows

/-- The rules are not followed for all words: as many data blocks as a word can count leave no room
for a parity block. -/
theorem make_not_admits : ¬ ∀ c d p s, NumbersInWords c d p s → Admits c d p s (make c d p s) := by
  intro h
  have hwords : NumbersInWords 1 (Word.size - 1) 1 1 := ⟨by decide, by decide, by decide, by decide⟩
  have hsum : Overflows 1 (Word.size - 1) 1 1 := ⟨by decide, by decide, by decide, by decide⟩
  exact (make_gates 1 (Word.size - 1) 1 1).admits_iff.1 (h _ _ _ _ hwords) hsum

end Geometry

/-! ## Numbers from an environment -/

namespace Environment

/-- The number of a variable is in range if its default is. -/
theorem unsignedOr_lt (env : Environment) {size default : Nat} (name : String)
    (h : default < size) : env.unsignedOr size name default < size := by
  rw [unsignedOr]
  cases hvalue : (env.get? name).bind (Numeral.unsigned? size) with
  | none => exact h
  | some n =>
    obtain ⟨text, -, htext⟩ := Option.bind_eq_some_iff.1 hvalue
    exact of_decide_eq_true (Option.filter_eq_some_iff.1 htext).2

theorem numbersInWords (env : Environment) : Geometry.NumbersInWords env.cellSize env.dataBlocks
    env.parityBlocks env.stripesPerBlock where
  cellSize_lt := env.unsignedOr_lt _ (by decide)
  dataBlocks_lt := env.unsignedOr_lt _ (by decide)
  parityBlocks_lt := env.unsignedOr_lt _ (by decide)
  stripesPerBlock_lt := env.unsignedOr_lt _ (by decide)

end Environment

/-! ## Numbers from a text -/

namespace Json

variable {c d p s : Nat}

theorem fits_layoutValue_iff : (shape Geometry).Fits (layoutValue c d p s) ↔
    Geometry.NumbersInWords c d p s := by
  constructor
  · rintro ⟨-, hc, -, hd, -, hp, -, hs, -⟩
    exact ⟨hc, hd, hp, hs⟩
  · rintro ⟨hc, hd, hp, hs⟩
    exact ⟨rfl, hc, rfl, hd, rfl, hp, rfl, hs, trivial⟩

theorem exists_of_fits_number {bound : Nat} {v : Value} (h : (Shape.number bound).Fits v) :
    ∃ n, v = .number n ∧ n < bound := by
  cases v with
  | number n => exact ⟨n, rfl, h⟩
  | _ => cases h

/-- The first member of an object that fits, if it has to be a number. -/
theorem exists_of_fitMembers_cons {key : String} {bound : Nat} {members : List (String × Shape)}
    {ms : List (String × Value)} (h : FitMembers ((key, .number bound) :: members) ms) :
    ∃ n rest, ms = (key, .number n) :: rest ∧ n < bound ∧ FitMembers members rest := by
  cases ms with
  | nil => cases h
  | cons m rest =>
    obtain ⟨rfl, hfits, hrest⟩ := h
    obtain ⟨n, hn, hlt⟩ := exists_of_fits_number hfits
    exact ⟨n, rest, by rw [← hn], hlt, hrest⟩

/-- The values of the shape are those of four words. -/
theorem exists_layoutValue {v : Value} (h : (shape Geometry).Fits v) :
    ∃ c d p s, v = layoutValue c d p s ∧ Geometry.NumbersInWords c d p s := by
  cases v with
  | record ms =>
    obtain ⟨c, _, rfl, hc, h⟩ := exists_of_fitMembers_cons h
    obtain ⟨d, _, rfl, hd, h⟩ := exists_of_fitMembers_cons h
    obtain ⟨p, _, rfl, hp, h⟩ := exists_of_fitMembers_cons h
    obtain ⟨s, ms, rfl, hs, h⟩ := exists_of_fitMembers_cons h
    cases ms with
    | nil => exact ⟨c, d, p, s, rfl, hc, hd, hp, hs⟩
    | cons m ms => cases h
  | _ => cases h

/-- A text from which four numbers are read is answered as the numbers are, unless they make a
layout and something follows them. -/
theorem decode_of_read {text : String} {rest : List Char}
    (h : (shape Geometry).read text.toList = .ok (layoutValue c d p s, rest)) :
    decode Geometry text = (Geometry.make c d p s).mapError .rule ∨
      decode Geometry text = .error (.flaw .malformed) ∧ skipBlanks rest ≠ [] := by
  have hvalue : ofValue (layoutValue c d p s) = (Geometry.make c d p s).mapError Refusal.rule := rfl
  rw [decode, h]
  dsimp only
  rw [hvalue]
  cases Geometry.make c d p s with
  | error e => exact .inl rfl
  | ok g =>
    by_cases hblank : skipBlanks rest = []
    · exact .inl (if_pos hblank)
    · exact .inr ⟨if_neg hblank, hblank⟩

/-- **A text is flawed or is answered as its numbers are.** -/
theorem decode_geometry_cases (text : String) :
    (∃ f, decode Geometry text = .error (.flaw f)) ∨
    ∃ c d p s rest, Geometry.NumbersInWords c d p s ∧
      (shape Geometry).read text.toList = .ok (layoutValue c d p s, rest) ∧
        decode Geometry text = (Geometry.make c d p s).mapError .rule := by
  cases hread : (shape Geometry).read text.toList with
  | error f =>
    refine .inl ⟨f, ?_⟩
    rw [decode, hread]
  | ok read =>
    obtain ⟨v, rest⟩ := read
    have hfits := Shape.fits_of_read faithful_geometry.sound _ _ _ hread
    obtain ⟨c, d, p, s, rfl, hwords⟩ := exists_layoutValue hfits
    rcases decode_of_read hread with hmake | ⟨hflaw, -⟩
    · exact .inr ⟨c, d, p, s, rest, hwords, rfl, hmake⟩
    · exact .inl ⟨_, hflaw⟩

/-- Any four words are answered from the text that writes them. -/
theorem decode_layoutValue (h : Geometry.NumbersInWords c d p s) :
    decode Geometry (String.ofList (layoutValue c d p s).write) =
      (Geometry.make c d p s).mapError .rule := by
  have hread : (shape Geometry).read (String.ofList (layoutValue c d p s).write).toList =
      .ok (layoutValue c d p s, []) := by
    rw [String.toList_ofList, ← List.append_nil (layoutValue c d p s).write]
    exact Shape.read_write faithful_geometry.sound (fits_layoutValue_iff.2 h) [] closes_nil
  rcases decode_of_read hread with hmake | ⟨-, hblank⟩
  · exact hmake
  · exact absurd rfl hblank

end Json

/-! ## All ways to a layout -/

namespace Geometry

/-- **All ways to a layout lead through the same gate.** Numbers are admitted by the rules unless the
width of a group comes to be summed and is no word, which is a fault. The numbers of an environment
are words and are admitted in this way. So are those of a text, if it has no flaw, and every four
words can come from a text. A layout that got through has no more data blocks than blocks in a group,
and a byte can number these. -/
theorem layouts_gated (c d p s : Nat) (env : Environment) (text : String) (g : Geometry) :
    Gates c d p s (make c d p s) ∧
    (NumbersInWords env.cellSize env.dataBlocks env.parityBlocks env.stripesPerBlock ∧
      Gates env.cellSize env.dataBlocks env.parityBlocks env.stripesPerBlock
        (ofEnvironment env)) ∧
    ((∃ f, Json.decode Geometry text = .error (.flaw f)) ∨
      ∃ c d p s rest answer, NumbersInWords c d p s ∧
        (Json.shape Geometry).read text.toList = .ok (Json.layoutValue c d p s, rest) ∧
          Json.decode Geometry text = answer.mapError .rule ∧ Gates c d p s answer) ∧
    (NumbersInWords c d p s → ∃ answer,
      Json.decode Geometry (String.ofList (Json.layoutValue c d p s).write) =
        answer.mapError .rule ∧ Gates c d p s answer) ∧
    g.dataBlocks ≤ g.width ∧ g.width ≤ maxWidth := by
  refine ⟨make_gates .., ⟨env.numbersInWords, make_gates ..⟩, ?_,
    fun h => ⟨_, Json.decode_layoutValue h, make_gates ..⟩, Nat.le_add_right .., g.width_le⟩
  rcases Json.decode_geometry_cases text with hflaw | ⟨c, d, p, s, rest, hwords, hread, hmake⟩
  · exact .inl hflaw
  · exact .inr ⟨c, d, p, s, rest, _, hwords, hread, hmake, make_gates c d p s⟩

/-- A width of 257 is refused with the reason, a width that is no word with a fault. -/
theorem layouts_gated_wide :
    (NumbersInWords 1 256 1 1 ∧
      Json.decode Geometry (String.ofList (Json.layoutValue 1 256 1 1).write) =
        .error (.rule (.configuration (.tooWide 257)))) ∧
      Overflows 1 (Word.size - 1) 1 1 ∧
        make 1 (Word.size - 1) 1 1 = .error (.fault .overflow) := by
  have hwords : NumbersInWords 1 256 1 1 := ⟨by decide, by decide, by decide, by decide⟩
  have hsum : Overflows 1 (Word.size - 1) 1 1 := ⟨by decide, by decide, by decide, by decide⟩
  obtain ⟨-, -, -, hdecode, -⟩ := layouts_gated 1 256 1 1 [] "" standard
  obtain ⟨answer, hanswer, hgates⟩ := hdecode hwords
  have hadmits : Admits 1 256 1 1 answer :=
    hgates.admits_iff.2 fun h => absurd h.size_le (by decide)
  have hwide : answer = .error (.configuration (.tooWide 257)) := (hadmits.error_iff _).2
    ⟨_, .width (by decide) (by decide) (by decide) (by decide), rfl⟩
  rw [hwide] at hanswer
  obtain ⟨hmake, -⟩ := layouts_gated 1 (Word.size - 1) 1 1 [] "" standard
  exact ⟨⟨hwords, hanswer⟩, hsum, hmake.fault hsum⟩

end Geometry

end Striping
