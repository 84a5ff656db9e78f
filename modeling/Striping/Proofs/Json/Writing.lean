import Striping.Proofs.FiniteMaps
import Striping.Proofs.Json.Lexemes
import Striping.Proofs.Traversal

/-!
# Written values read back

A value that fits a shape reads back from its written form (`Shape.read_write`), whatever closes the
text behind it. The induction is on the shape; the lists and the objects in between are handled by
readers of any kind that take the written forms of their items (`TakesBack`), one item or member at
a time (`readItems_append`, `readMembers_append`).
-/

namespace Striping.Json

/-! ## Shapes and their values -/

mutual

/-- The shape bounds its numbers by words, and no key of an object comes twice. -/
def Shape.Sound : Shape → Prop
  | .number bound => bound ≤ Word.size
  | .text => True
  | .bytes => True
  | .choice _ => True
  | .list item => item.Sound
  | .record members => (members.map Prod.fst).Nodup ∧ SoundMembers members

/-- The shapes of several members are sound. -/
def SoundMembers : List (String × Shape) → Prop
  | [] => True
  | (_, shape) :: rest => shape.Sound ∧ SoundMembers rest

end

mutual

/-- The value is of the shape. -/
def Shape.Fits : Shape → Value → Prop
  | .number bound, .number n => n < bound
  | .text, .text _ => True
  | .bytes, .bytes _ => True
  | .choice names, .choice name => name ∈ names
  | .list item, .list vs => ∀ v ∈ vs, item.Fits v
  | .record members, .record vs => FitMembers members vs
  | _, _ => False

/-- The members have the keys in their order, each with a value of its shape. -/
def FitMembers : List (String × Shape) → List (String × Value) → Prop
  | [], [] => True
  | (key, shape) :: members, m :: ms => m.1 = key ∧ shape.Fits m.2 ∧ FitMembers members ms
  | _, _ => False

end

/-! ## Readers of written forms -/

/-- The reader takes this text for the value, whatever closes it. -/
def TakesBack {α : Type} (r : Reader α) (text : List Char) (a : α) : Prop :=
  ∀ rest, Closes rest → r (text ++ rest) = .ok (a, rest)

/-- The text starts as a value does: with no blank, and not with the end of an array. -/
def Opens (text : List Char) : Prop := ∃ c cs, text = c :: cs ∧ isBlank c = false ∧ c ≠ ']'

theorem opens_writeNumber (n : Nat) : Opens (writeNumber n) := by
  obtain ⟨c, cs, hcons, hdigit⟩ := exists_head_toDigits n
  refine ⟨c, cs, hcons, isBlank_of_isDigit hdigit, ?_⟩
  rintro rfl
  cases hdigit

theorem Value.opens_write (v : Value) : Opens v.write := by
  cases v with
  | number n => exact opens_writeNumber n
  | text s => exact ⟨'"', _, rfl, rfl, by decide⟩
  | bytes bs => exact ⟨'[', _, rfl, rfl, by decide⟩
  | choice name => exact ⟨'"', _, rfl, rfl, by decide⟩
  | list items => exact ⟨'[', _, rfl, rfl, by decide⟩
  | record members => exact ⟨'{', _, rfl, rfl, by decide⟩

theorem commas_cons (piece : List Char) (pieces : List (List Char)) :
    commas (piece :: pieces) = piece ++ pieces.flatMap (',' :: ·) := by
  induction pieces generalizing piece with
  | nil => exact (List.append_nil piece).symm
  | cons next pieces ih => rw [commas, ih, List.flatMap_cons, List.cons_append]

/-- Behind a piece come a comma and the next piece, or what closes the whole. -/
theorem closes_pieces {α : Type} (piece : α → List Char) (as : List α) {close : Char}
    (hclose : close = ']' ∨ close = '}') (rest : List Char) :
    Closes (as.flatMap (fun a => ',' :: piece a) ++ close :: rest) := by
  cases as with
  | nil =>
    intro c hc
    rw [← Option.some.inj hc]
    exact .inr hclose
  | cons a as => exact closes_comma _

theorem length_le_pieces {α : Type} (piece : α → List Char) (as : List α) :
    as.length ≤ (as.flatMap fun a => ',' :: piece a).length := by
  induction as with
  | nil => exact Nat.le_refl 0
  | cons a as ih =>
    rw [List.flatMap_cons, List.length_append, List.length_cons, List.length_cons]
    omega

/-! ## Arrays -/

section Arrays

variable {α : Type} {item : Reader α} {write : α → List Char}

theorem nextItem_first {text : List Char} (h : Opens text) (rest : List Char) :
    nextItem true (text ++ rest) = .ok (some (text ++ rest)) := by
  obtain ⟨c, cs, rfl, hblank, hbracket⟩ := h
  rw [List.cons_append, nextItem, skipBlanks_cons hblank]
  split
  · next h => cases h
  · next h => exact absurd (List.cons.inj h).1 hbracket
  · next h =>
    cases h
    rfl

theorem nextItem_comma {text : List Char} (h : Opens text) (rest : List Char) :
    nextItem false (',' :: (text ++ rest)) = .ok (some (text ++ rest)) := by
  obtain ⟨c, cs, rfl, hblank, hbracket⟩ := h
  have hskip : skipBlanks (c :: (cs ++ rest)) = c :: (cs ++ rest) := skipBlanks_cons hblank _
  rw [List.cons_append, nextItem, skipBlanks_cons rfl]
  split
  · next h => cases h
  · next h => cases h
  · next h =>
    cases h
    simp only [Bool.false_eq_true, if_false, if_true, hskip]
    split
    · next h => exact absurd (List.cons.inj h).1 hbracket
    · rfl

/-- The items behind the first one are read up to the bracket. -/
theorem readItems_append {as : List α} (hitem : ∀ a ∈ as, TakesBack item (write a) a)
    (hopens : ∀ a ∈ as, Opens (write a)) {fuel : Nat} (hfuel : as.length < fuel)
    (rest : List Char) :
    readItems item fuel false (as.flatMap (fun a => ',' :: write a) ++ ']' :: rest) =
      .ok (as, rest) := by
  induction as generalizing fuel with
  | nil =>
    cases fuel with
    | zero => cases hfuel
    | succ fuel => rfl
  | cons a as ih =>
    obtain ⟨ha, has⟩ := List.forall_mem_cons.1 hitem
    obtain ⟨hopen, hopens⟩ := List.forall_mem_cons.1 hopens
    cases fuel with
    | zero => cases hfuel
    | succ fuel =>
      rw [List.flatMap_cons, List.cons_append, List.cons_append, List.append_assoc, readItems,
        nextItem_comma hopen]
      simp only [ha _ (closes_pieces write as (.inl rfl) rest),
        ih has hopens (Nat.lt_of_succ_lt_succ hfuel)]
      rfl

/-- **A written array reads back**, if its items do. -/
theorem readArray_writeArray {as : List α} (hitem : ∀ a ∈ as, TakesBack item (write a) a)
    (hopens : ∀ a ∈ as, Opens (write a)) (rest : List Char) :
    readArray item (writeArray (as.map write) ++ rest) = .ok (as, rest) := by
  have hlength : ∀ cs : List Char, (cs ++ ']' :: rest).length = cs.length + rest.length + 1 := by
    intro cs
    rw [List.length_append, List.length_cons, Nat.add_assoc]
  simp only [writeArray, List.cons_append, List.append_assoc, List.nil_append]
  rw [readArray, skipBlanks_cons rfl]
  cases as with
  | nil => rfl
  | cons a as =>
    obtain ⟨ha, has⟩ := List.forall_mem_cons.1 hitem
    obtain ⟨hopen, hopens⟩ := List.forall_mem_cons.1 hopens
    have hfuel := length_le_pieces write as
    rw [List.map_cons, commas_cons, List.flatMap_map, List.append_assoc]
    change readItems item _ true _ = _
    rw [readItems, nextItem_first hopen]
    simp only [ha _ (closes_pieces write as (.inl rfl) rest)]
    rw [readItems_append has hopens]
    · rfl
    · rw [List.length_append, hlength]
      omega

end Arrays

/-- **A string of bytes reads back.** -/
theorem readBytes_write (bs : Bytes) (rest : List Char) :
    readBytes ((Value.bytes bs).write ++ rest) = .ok (bs, rest) := by
  have hitem : ∀ n ∈ bs.map UInt8.toNat, TakesBack (readNat 256) (writeNumber n) n := by
    intro n hn rest hrest
    obtain ⟨b, -, rfl⟩ := List.mem_map.1 hn
    exact readNat_writeNumber (by decide) b.toNat_lt hrest
  have harray := readArray_writeArray hitem (fun n _ => opens_writeNumber n) rest
  rw [List.map_map] at harray
  have hwrite : (Value.bytes bs).write = writeArray (bs.map (writeNumber ∘ UInt8.toNat)) := by
    rw [Value.write]
    rfl
  rw [hwrite]
  -- the text starts with a bracket, so it is not read as a string
  have hbytes : readBytes (writeArray (bs.map (writeNumber ∘ UInt8.toNat)) ++ rest) =
      (readArray (readNat 256) (writeArray (bs.map (writeNumber ∘ UInt8.toNat)) ++ rest)).map
        fun found => (found.1.map UInt8.ofNat, found.2) := rfl
  rw [hbytes, harray]
  have hback : (bs.map UInt8.toNat).map UInt8.ofNat = bs := by
    rw [List.map_map]
    exact (List.map_congr_left fun b _ => UInt8.ofNat_toNat).trans (List.map_id bs)
  simp only [Except.map, hback]

/-- **A choice reads back.** -/
theorem readChoice_write {names : List String} {name : String} (h : name ∈ names)
    (rest : List Char) : readChoice names (writeString name ++ rest) = .ok (name, rest) := by
  have htext := readText_writeString name rest
  rw [writeString_append] at htext ⊢
  rw [readChoice, skipBlanks_cons rfl]
  simp only [readName, htext, h, if_true]

/-! ## Objects -/

/-- The written form of a member. -/
def writeMember (m : String × Value) : List Char := writeString m.1 ++ ':' :: m.2.write

theorem writeItems_eq (vs : List Value) : writeItems vs = vs.map Value.write := by
  induction vs with
  | nil => rfl
  | cons v vs ih => rw [writeItems, ih, List.map_cons]

theorem write_record (ms : List (String × Value)) :
    (Value.record ms).write = '{' :: commas (ms.map writeMember) ++ ['}'] := by
  have hmembers : (writeMembers ms).map (fun m => writeString m.1 ++ ':' :: m.2) =
      ms.map writeMember := by
    induction ms with
    | nil => rfl
    | cons m ms ih => rw [writeMembers, List.map_cons, ih, List.map_cons, writeMember]
  rw [← hmembers, Value.write]
  rfl

theorem exists_of_mem_right {α β : Type} {R : α → β → Prop} {xs : List α} {ys : List β}
    (h : List.Forall₂ R xs ys) {y : β} (hy : y ∈ ys) : ∃ x ∈ xs, R x y := by
  induction h with
  | nil => cases hy
  | cons hxy _ ih =>
    rcases List.mem_cons.1 hy with rfl | hy
    · exact ⟨_, .head _, hxy⟩
    · obtain ⟨x, hx, hR⟩ := ih hy
      exact ⟨x, .tail _ hx, hR⟩

/-- The keys are those of members found, so the members can be put in the order of the keys. -/
theorem arrange_eq {ms found : List (String × Value)} (h : ∀ m ∈ ms, found.lookup m.1 = some m.2) :
    arrange (ms.map Prod.fst) found = .ok ms := by
  rw [arrange, mapM_eq_ok_iff, List.forall₂_map_left_iff, List.forall₂_same]
  intro m hm
  rw [h m hm]

section Objects

variable {readers : List (String × Reader Value)}

/-- Reading one member: its key is known and new, and its value is taken back. -/
theorem readMembers_member {first : Bool} {found : List (String × Value)} {m : String × Value}
    {r : Reader Value} {cs rest : List Char} (fuel : Nat)
    (hkey : nextKey first cs =
      .ok (some (m.1.toList.flatMap writeChar ++ '"' :: ':' :: (m.2.write ++ rest))))
    (hreader : readers.lookup m.1 = some r) (hnew : found.lookup m.1 = none)
    (hvalue : TakesBack r m.2.write m.2) (hrest : Closes rest) :
    readMembers readers (fuel + 1) first found cs =
      readMembers readers fuel false (m :: found) rest := by
  have hcolon : ∀ cs, skipColon (':' :: cs) = .ok cs := fun _ => rfl
  rw [readMembers, hkey]
  simp only [readString_append, hreader, hnew, Option.isSome_none, Bool.false_eq_true, if_false,
    hcolon, hvalue rest hrest]

theorem writeMember_append (m : String × Value) (rest : List Char) : writeMember m ++ rest =
    '"' :: (m.1.toList.flatMap writeChar ++ '"' :: ':' :: (m.2.write ++ rest)) := by
  rw [writeMember, List.append_assoc, List.cons_append, writeString_append]

theorem nextKey_first (m : String × Value) (rest : List Char) :
    nextKey true (writeMember m ++ rest) =
      .ok (some (m.1.toList.flatMap writeChar ++ '"' :: ':' :: (m.2.write ++ rest))) := by
  rw [writeMember_append]
  rfl

theorem nextKey_comma (m : String × Value) (rest : List Char) :
    nextKey false (',' :: (writeMember m ++ rest)) =
      .ok (some (m.1.toList.flatMap writeChar ++ '"' :: ':' :: (m.2.write ++ rest))) := by
  rw [writeMember_append]
  rfl

/-- The members from `todo` on are read up to the brace, behind those that are `done`. -/
theorem readMembers_append {done todo : List (String × Value)}
    (hkeys : readers.map Prod.fst = (done ++ todo).map Prod.fst)
    (hnodup : ((done ++ todo).map Prod.fst).Nodup)
    (hread : ∀ m ∈ todo, ∃ r, readers.lookup m.1 = some r ∧ TakesBack r m.2.write m.2)
    {fuel : Nat} (hfuel : todo.length < fuel) (rest : List Char) :
    readMembers readers fuel false done.reverse
        (todo.flatMap (fun m => ',' :: writeMember m) ++ '}' :: rest) =
      .ok (done ++ todo, rest) := by
  induction todo generalizing done fuel with
  | nil =>
    cases fuel with
    | zero => cases hfuel
    | succ fuel =>
      rw [List.append_nil] at hkeys hnodup ⊢
      have hnodup' : (done.reverse.map Prod.fst).Nodup := by
        rwa [List.map_reverse, List.nodup_reverse]
      have harrange : arrange (done.map Prod.fst) done.reverse = .ok done := arrange_eq fun m hm =>
        (lookup_eq_some_iff_mem hnodup' m.1 m.2).2 (List.mem_reverse.2 hm)
      have hend : nextKey false ('}' :: rest) = .ok none := rfl
      rw [List.flatMap_nil, List.nil_append, readMembers, hend, hkeys]
      simp only [harrange]
      rfl
  | cons m todo ih =>
    obtain ⟨⟨r, hreader, hvalue⟩, hread⟩ := List.forall_mem_cons.1 hread
    have hnew : done.reverse.lookup m.1 = none := by
      rw [List.lookup_eq_none_iff]
      intro m' hm'
      rw [List.map_append, List.map_cons, List.nodup_append] at hnodup
      have hne := hnodup.2.2 m'.1 (List.mem_map_of_mem (List.mem_reverse.1 hm')) m.1 (.head _)
      simpa using hne.symm
    cases fuel with
    | zero => cases hfuel
    | succ fuel =>
      rw [List.flatMap_cons, List.cons_append, List.cons_append, List.append_assoc,
        readMembers_member fuel (nextKey_comma m _) hreader hnew hvalue
          (closes_pieces writeMember todo (.inr rfl) rest)]
      have hdone : m :: done.reverse = (done ++ [m]).reverse := by
        rw [List.reverse_append, List.reverse_singleton, List.singleton_append]
      have happend : done ++ m :: todo = (done ++ [m]) ++ todo := by
        rw [List.append_assoc, List.singleton_append]
      rw [happend] at hkeys hnodup ⊢
      rw [hdone]
      exact ih hkeys hnodup hread (Nat.lt_of_succ_lt_succ hfuel)

/-- **A written object reads back**, if its values do. -/
theorem readRecord_write {ms : List (String × Value)}
    (hms : List.Forall₂ (fun r m => r.1 = m.1 ∧ TakesBack r.2 m.2.write m.2) readers ms)
    (hnodup : (ms.map Prod.fst).Nodup) (rest : List Char) :
    readRecord readers ((Value.record ms).write ++ rest) = .ok (ms, rest) := by
  have hkeys : readers.map Prod.fst = ms.map Prod.fst := by
    rw [← List.forall₂_eq_eq_eq, List.forall₂_map_left_iff, List.forall₂_map_right_iff]
    exact hms.imp fun _ _ h => h.1
  have hread : ∀ m ∈ ms, ∃ r, readers.lookup m.1 = some r ∧ TakesBack r m.2.write m.2 := by
    intro m hm
    obtain ⟨⟨key, r⟩, hr, rfl, htakes⟩ := exists_of_mem_right hms hm
    exact ⟨r, (lookup_eq_some_iff_mem (hkeys ▸ hnodup) _ r).2 hr, htakes⟩
  simp only [write_record, List.cons_append, List.append_assoc, List.nil_append]
  rw [readRecord, skipBlanks_cons rfl]
  change readMembers readers _ true [] _ = _
  cases ms with
  | nil =>
    rw [List.map_eq_nil_iff.1 hkeys]
    rfl
  | cons m ms =>
    obtain ⟨⟨r, hreader, hvalue⟩, hrest⟩ := List.forall_mem_cons.1 hread
    have hfuel := length_le_pieces writeMember ms
    rw [List.map_cons, commas_cons, List.flatMap_map, List.append_assoc,
      readMembers_member _ (nextKey_first m _) hreader rfl hvalue
        (closes_pieces writeMember ms (.inr rfl) rest)]
    change readMembers readers _ false [m].reverse _ = .ok ([m] ++ ms, rest)
    refine readMembers_append hkeys hnodup hrest ?_ rest
    rw [List.length_append, List.length_append, List.length_cons]
    omega

end Objects

/-! ## Values of a shape -/

theorem fitMembers_iff {members : List (String × Shape)} {ms : List (String × Value)} :
    FitMembers members ms ↔ List.Forall₂ (fun s m => m.1 = s.1 ∧ s.2.Fits m.2) members ms := by
  induction members generalizing ms with
  | nil => cases ms <;> simp [FitMembers]
  | cons s members ih => cases ms <;> simp [FitMembers, ih, and_assoc]

theorem FitMembers.keys_eq {members : List (String × Shape)} {ms : List (String × Value)}
    (h : FitMembers members ms) : ms.map Prod.fst = members.map Prod.fst := by
  rw [eq_comm, ← List.forall₂_eq_eq_eq, List.forall₂_map_left_iff, List.forall₂_map_right_iff]
  exact (fitMembers_iff.1 h).imp fun _ _ h => h.1.symm

mutual

/-- **A value of a shape reads back from its written form.** -/
theorem Shape.read_write : ∀ {shape : Shape} {v : Value}, shape.Sound → shape.Fits v →
    TakesBack shape.read v.write v
  | .number bound, .number n, hsound, hfits, rest, hrest => by
    rw [Shape.read, Value.write, readNat_writeNumber hsound hfits hrest]
    rfl
  | .text, .text s, _, _, rest, _ => by
    rw [Shape.read, Value.write, readText_writeString]
    rfl
  | .bytes, .bytes bs, _, _, rest, _ => by
    rw [Shape.read, readBytes_write]
    rfl
  | .choice names, .choice name, _, hfits, rest, _ => by
    rw [Shape.read, Value.write, readChoice_write hfits]
    rfl
  | .list item, .list vs, hsound, hfits, rest, _ => by
    have hitem : ∀ v ∈ vs, TakesBack item.read v.write v := fun v hv =>
      Shape.read_write hsound (hfits v hv)
    rw [Shape.read, Value.write, writeItems_eq,
      readArray_writeArray hitem fun v _ => v.opens_write]
    rfl
  | .record members, .record ms, hsound, hfits, rest, _ => by
    rw [Shape.read, readRecord_write (memberReaders_write hsound.2 hfits)
      (hfits.keys_eq ▸ hsound.1)]
    rfl

/-- The readers of the members of an object take their values back. -/
theorem memberReaders_write : ∀ {members : List (String × Shape)} {ms : List (String × Value)},
    SoundMembers members → FitMembers members ms →
      List.Forall₂ (fun r m => r.1 = m.1 ∧ TakesBack r.2 m.2.write m.2) (memberReaders members) ms
  | [], [], _, _ => .nil
  | (_, _) :: _, _ :: _, hsound, hfits =>
    .cons ⟨hfits.1.symm, Shape.read_write hsound.1 hfits.2.1⟩
      (memberReaders_write hsound.2 hfits.2.2)

end

end Striping.Json
