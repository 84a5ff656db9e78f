import Striping.Proofs.Json.Writing

/-!
# What is read is of the shape

Whatever a shape reads is a value of the shape (`Shape.fits_of_read`): numbers are below their
bounds, choices are among the names, and an object has all its members in the order of the shape,
however they came in the text and whatever stood between them. Members are collected as they come
(`collected_of_readMembers`), and put in order at the end.
-/

namespace Striping.Json

/-- Whatever the reader reads has a property. -/
def Yields {α : Type} (r : Reader α) (P : α → Prop) : Prop :=
  ∀ cs a rest, r cs = .ok (a, rest) → P a

/-- A reader's answer, sent on by a function, is one of the reader's answers. -/
theorem exists_of_map_eq_ok {α β : Type} {x : Except Flaw (α × List Char)}
    {f : α × List Char → β × List Char} {y : β × List Char} (h : x.map f = .ok y) :
    ∃ a rest, x = .ok (a, rest) ∧ f (a, rest) = y := by
  cases x with
  | error e => cases h
  | ok x => exact ⟨x.1, x.2, rfl, Except.ok.inj h⟩

/-! ## Numbers and choices -/

theorem yields_readNat (bound : Nat) : Yields (readNat bound) (· < bound) := by
  intro cs n rest h
  unfold readNat at h
  split at h
  · cases h
  · split at h
    · split at h
      · cases h
      · split at h
        · cases h
        · split at h
          · next hlt =>
            cases h
            exact hlt
          · cases h
    · cases h

theorem yields_readName (names : List String) : Yields (readName names) (· ∈ names) := by
  intro cs name rest h
  unfold readName at h
  split at h
  · cases h
  · split at h
    · next hmem =>
      cases h
      exact hmem
    · cases h

theorem yields_readKeyName (names : List String) : Yields (readKeyName names) (· ∈ names) := by
  intro cs name rest h
  unfold readKeyName at h
  split at h
  · cases h
  · exact yields_readName names _ _ _ h
  · cases h

theorem yields_readChoice (names : List String) : Yields (readChoice names) (· ∈ names) := by
  intro cs name rest h
  unfold readChoice at h
  split at h
  · cases h
  · exact yields_readName names _ _ _ h
  · split at h
    · cases h
    · next hname =>
      split at h
      · cases h
      · split at h
        · cases h
        · next hnull =>
          cases hclose : closeObject _ with
          | error f =>
            rw [hclose] at h
            cases h
          | ok cs =>
            rw [hclose] at h
            cases h
            exact yields_readKeyName names _ _ _ hname
  · cases h

/-! ## Arrays -/

theorem yields_readItems {α : Type} {item : Reader α} {P : α → Prop} (hitem : Yields item P)
    (fuel : Nat) (first : Bool) : Yields (readItems item fuel first) fun as => ∀ a ∈ as, P a := by
  induction fuel generalizing first with
  | zero =>
    intro cs as rest h
    cases h
  | succ fuel ih =>
    intro cs as rest h
    unfold readItems at h
    split at h
    · cases h
    · cases hclose : closeArray cs with
      | error f =>
        rw [hclose] at h
        cases h
      | ok cs =>
        rw [hclose] at h
        cases h
        nofun
    · split at h
      · cases h
      · next a _ ha =>
        obtain ⟨as, _, has, hcons⟩ := exists_of_map_eq_ok h
        cases hcons
        exact List.forall_mem_cons.2 ⟨hitem _ _ _ ha, ih false _ _ _ has⟩

theorem yields_readArray {α : Type} {item : Reader α} {P : α → Prop} (hitem : Yields item P) :
    Yields (readArray item) fun as => ∀ a ∈ as, P a := by
  intro cs as rest h
  unfold readArray at h
  split at h
  · exact yields_readItems hitem _ _ _ _ _ h
  · cases h

/-! ## Objects -/

section Objects

variable {readers : List (String × Reader Value)}

/-- The member is of the reader's key, and the reader has read its value. -/
def Accepts (r : String × Reader Value) (m : String × Value) : Prop :=
  m.1 = r.1 ∧ ∃ cs rest, r.2 cs = .ok (m.2, rest)

/-- Values in an array are those of the members in their order. -/
theorem accepts_of_readPositional {first : Bool} {cs rest : List Char}
    {ms : List (String × Value)} (h : readPositional first readers cs = .ok (ms, rest)) :
    List.Forall₂ Accepts readers ms := by
  induction readers generalizing first cs ms with
  | nil =>
    unfold readPositional at h
    cases hclose : closeArray cs with
    | error f =>
      rw [hclose] at h
      cases h
    | ok cs =>
      rw [hclose] at h
      cases h
      exact .nil
  | cons r readers ih =>
    unfold readPositional at h
    split at h
    · cases h
    · cases h
    · split at h
      · cases h
      · next hv =>
        obtain ⟨ms, _, hms, hcons⟩ := exists_of_map_eq_ok h
        cases hcons
        exact .cons ⟨rfl, _, _, hv⟩ (ih hms)

/-- Each member that was found has been read by the reader of its key. -/
def Collected (readers : List (String × Reader Value)) (found : List (String × Value)) : Prop :=
  ∀ m ∈ found, ∃ r, readers.lookup m.1 = some r ∧ ∃ cs rest, r cs = .ok (m.2, rest)

theorem mem_of_lookup_eq_some {key : String} {v : Value} {found : List (String × Value)}
    (h : found.lookup key = some v) : (key, v) ∈ found := by
  obtain ⟨before, after, rfl, -⟩ := List.lookup_eq_some_iff.1 h
  exact List.mem_append_right _ (.head _)

/-- **Members that come in any order are all found**, and put in the order of the readers. -/
theorem accepts_of_arrange {found ms : List (String × Value)} (hfound : Collected readers found)
    (hnodup : (readers.map Prod.fst).Nodup)
    (h : arrange (readers.map Prod.fst) found = .ok ms) : List.Forall₂ Accepts readers ms := by
  unfold arrange at h
  rw [mapM_eq_ok_iff, List.forall₂_map_left_iff] at h
  have hreaders : ∀ r ∈ readers, readers.lookup r.1 = some r.2 := fun r hr =>
    (lookup_eq_some_iff_mem hnodup r.1 r.2).2 hr
  refine ((List.forall₂_and_left _ _).2 ⟨hreaders, h⟩).imp ?_
  rintro ⟨key, r⟩ m ⟨hreader, hm⟩
  dsimp only at hreader hm
  split at hm
  · cases hm
  · next v hv =>
    cases hm
    obtain ⟨r', hreader', hread⟩ := hfound _ (mem_of_lookup_eq_some hv)
    cases hreader.symm.trans hreader'
    exact ⟨rfl, hread⟩

/-- **Whatever stands between the members**, an object that is read has all of them. -/
theorem accepts_of_readMembers (hnodup : (readers.map Prod.fst).Nodup) {fuel : Nat} {first : Bool}
    {found ms : List (String × Value)} {cs rest : List Char} (hfound : Collected readers found)
    (h : readMembers readers fuel first found cs = .ok (ms, rest)) :
    List.Forall₂ Accepts readers ms := by
  induction fuel generalizing first found cs with
  | zero => cases h
  | succ fuel ih =>
    unfold readMembers at h
    split at h
    · cases h
    · -- the object ends
      split at h
      · cases h
      · next harrange =>
        cases hclose : closeObject cs with
        | error f =>
          rw [hclose] at h
          cases h
        | ok cs =>
          rw [hclose] at h
          cases h
          exact accepts_of_arrange hfound hnodup harrange
    · split at h
      · cases h
      · split at h
        · -- an unknown key
          split at h
          · cases h
          · split at h
            · cases h
            · exact ih hfound h
        · next hreader =>
          split at h
          · cases h
          · split at h
            · cases h
            · split at h
              · cases h
              · next hv =>
                exact ih (List.forall_mem_cons.2 ⟨⟨_, hreader, _, _, hv⟩, hfound⟩) h

theorem accepts_of_readRecord (hnodup : (readers.map Prod.fst).Nodup)
    {ms : List (String × Value)} {cs rest : List Char}
    (h : readRecord readers cs = .ok (ms, rest)) : List.Forall₂ Accepts readers ms := by
  unfold readRecord at h
  split at h
  · exact accepts_of_readPositional h
  · exact accepts_of_readMembers hnodup (fun m hm => absurd hm List.not_mem_nil) h
  · cases h

end Objects

/-! ## Values of a shape -/

theorem keys_memberReaders (members : List (String × Shape)) :
    (memberReaders members).map Prod.fst = members.map Prod.fst := by
  induction members with
  | nil => rfl
  | cons s members ih => rw [memberReaders, List.map_cons, ih, List.map_cons]

mutual

/-- **What a shape reads is a value of the shape.** -/
theorem Shape.fits_of_read : ∀ {shape : Shape}, shape.Sound → Yields shape.read shape.Fits
  | .number bound, _, cs, v, rest, h => by
    rw [Shape.read] at h
    obtain ⟨n, _, hn, hv⟩ := exists_of_map_eq_ok h
    cases hv
    exact yields_readNat bound _ _ _ hn
  | .text, _, cs, v, rest, h => by
    rw [Shape.read] at h
    obtain ⟨s, _, -, hv⟩ := exists_of_map_eq_ok h
    cases hv
    trivial
  | .bytes, _, cs, v, rest, h => by
    rw [Shape.read] at h
    obtain ⟨bs, _, -, hv⟩ := exists_of_map_eq_ok h
    cases hv
    trivial
  | .choice names, _, cs, v, rest, h => by
    rw [Shape.read] at h
    obtain ⟨name, _, hname, hv⟩ := exists_of_map_eq_ok h
    cases hv
    exact yields_readChoice names _ _ _ hname
  | .list item, hsound, cs, v, rest, h => by
    rw [Shape.read] at h
    obtain ⟨vs, _, hvs, hv⟩ := exists_of_map_eq_ok h
    cases hv
    have hitem : Yields item.read item.Fits := Shape.fits_of_read hsound
    exact yields_readArray hitem _ _ _ hvs
  | .record members, hsound, cs, v, rest, h => by
    rw [Shape.read] at h
    obtain ⟨ms, _, hms, hv⟩ := exists_of_map_eq_ok h
    cases hv
    have hnodup := hsound.1
    rw [← keys_memberReaders] at hnodup
    exact fitMembers_of_accepts hsound.2 (accepts_of_readRecord hnodup hms)

/-- Members that were read by the readers of their keys are members of their shapes. -/
theorem fitMembers_of_accepts : ∀ {members : List (String × Shape)} {ms : List (String × Value)},
    SoundMembers members → List.Forall₂ Accepts (memberReaders members) ms →
      FitMembers members ms
  | [], ms, _, h => by
    cases h
    trivial
  | (key, shape) :: members, ms, hsound, h => by
    rw [memberReaders] at h
    cases h with
    | cons hm hms =>
      obtain ⟨hkey, _, _, hread⟩ := hm
      exact ⟨hkey, Shape.fits_of_read hsound.1 _ _ _ hread, fitMembers_of_accepts hsound.2 hms⟩

end

end Striping.Json
