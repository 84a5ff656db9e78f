import Striping.Json.Codec
import Striping.Proofs.Json.Reading

/-!
# Records written and read

Each record of the library reads back from its written form, and whatever is read can be written and
read again (`Faithful.roundTrips`). What a type has to provide for this is that its elements have
values of its shape and come back from them (`Faithful`). Layouts and patterns that are read are
those that their numbers make: a text cannot get round `Geometry.make` and `Pattern.make`
(`decode_geometry_eq_ok_iff`, `decode_pattern_eq_ok_iff`).
-/

namespace Striping

/-! ## Numbers of records -/

/-- The numbers of a coordinate are words. -/
structure Coordinate.InWords (c : Coordinate) : Prop where
  group_lt : c.group < Word.size
  block_lt : c.block < Word.size
  stripe_lt : c.stripe < Word.size
  inCell_lt : c.inCell < Word.size
  inBlock_lt : c.inBlock < Word.size

/-- The numbers of a block's record are words. -/
structure BlockRecord.InWords (b : BlockRecord) : Prop where
  id_lt : b.id < Word.size
  length_lt : b.length < Word.size
  stamp_lt : b.stamp < Word.size

/-- The numbers of a group's record are words. -/
structure GroupRecord.InWords (r : GroupRecord) : Prop where
  block : r.block.InWords
  start_lt : r.start < Word.size

/-- The numbers of a member's record are words. -/
structure Member.InWords (m : Member) : Prop where
  block : m.block.InWords
  start_lt : m.start < Word.size
  index_lt : m.index < Word.size

/-! ## Values that pass their own check -/

theorem Geometry.make_self (g : Geometry) :
    make g.cellSize g.dataBlocks g.parityBlocks g.stripesPerBlock = .ok g := by
  have hwidth := g.width_le
  have hadd : Word.add g.dataBlocks g.parityBlocks = .ok (g.dataBlocks + g.parityBlocks) :=
    Word.add_eq_ok (by simp only [maxWidth, Word.size] at *; omega)
  rw [make, dif_neg (Nat.ne_of_gt g.cellSize_pos), dif_neg (Nat.ne_of_gt g.dataBlocks_pos),
    dif_neg (Nat.ne_of_gt g.stripesPerBlock_pos), hadd]
  dsimp only
  rw [dif_pos hwidth, dif_pos g.capacity_lt]

theorem Pattern.make_self (p : Pattern) : make p.modulus = .ok p :=
  dif_pos ⟨p.modulus_pos, p.modulus_le⟩

namespace Json

/-! ## Types that read back -/

/-- What a type provides to read back: its elements have values of its shape, which bounds their
numbers by words, and are what these values stand for. -/
structure Faithful (α : Type) [Coded α] (Ranged : α → Prop) : Prop where
  sound : (shape α).Sound
  fits : ∀ a, Ranged a → (shape α).Fits (toValue a)
  ofValue_toValue : ∀ a : α, ofValue (toValue a) = .ok a
  ranged : ∀ v (a : α), (shape α).Fits v → ofValue v = .ok a → Ranged a

/-- Elements in range read back from their written forms, and whatever is read is in range, so that
it reads back from its written form too. -/
structure RoundTrips (α : Type) [Coded α] (Ranged : α → Prop) : Prop where
  decode_encode : ∀ a : α, Ranged a → decode α (encode a) = .ok a
  decode_again : ∀ text a, decode α text = .ok a → Ranged a ∧ decode α (encode a) = .ok a

/-- A text is read if it has a value of the shape with nothing but blanks behind it, and the value
stands for an element. -/
theorem decode_eq_ok_iff {α : Type} [Coded α] {text : String} {a : α} :
    decode α text = .ok a ↔ ∃ v rest, (shape α).read text.toList = .ok (v, rest) ∧
      ofValue v = .ok a ∧ skipBlanks rest = [] := by
  unfold decode
  constructor
  · intro h
    split at h
    · cases h
    · next v rest hread =>
      split at h
      · cases h
      · next hvalue =>
        split at h
        · next hblank =>
          cases h
          exact ⟨v, rest, hread, hvalue, hblank⟩
        · cases h
  · rintro ⟨v, rest, hread, hvalue, hblank⟩
    simp only [hread, hvalue, hblank, if_true]

theorem Faithful.roundTrips {α : Type} [Coded α] {Ranged : α → Prop} (h : Faithful α Ranged) :
    RoundTrips α Ranged := by
  have hback : ∀ a : α, Ranged a → decode α (encode a) = .ok a := by
    intro a ha
    have hread := Shape.read_write h.sound (h.fits a ha) [] closes_nil
    rw [List.append_nil] at hread
    refine decode_eq_ok_iff.2 ⟨toValue a, [], ?_, h.ofValue_toValue a, rfl⟩
    rw [encode, String.toList_ofList]
    exact hread
  refine ⟨hback, fun text a hdecode => ?_⟩
  obtain ⟨v, rest, hread, hvalue, -⟩ := decode_eq_ok_iff.1 hdecode
  have ha := h.ranged v a (Shape.fits_of_read h.sound _ _ _ hread) hvalue
  exact ⟨ha, hback a ha⟩

/-- A computation in steps succeeds if its first step does, and the later ones with what it gives. -/
theorem exists_of_bind_eq_ok {ε α β : Type} {x : Except ε α} {f : α → Except ε β} {b : β}
    (h : x >>= f = .ok b) : ∃ a, x = .ok a ∧ f a = .ok b := by
  cases x with
  | error e => cases h
  | ok a => exact ⟨a, rfl, h⟩

/-! ## The records -/

section Records

attribute [local simp] Shape.Sound SoundMembers Shape.Fits FitMembers shape toValue word

theorem faithful_geometry : Faithful Geometry fun _ => True where
  sound := by simp
  fits g _ := by
    have hcell := Nat.le_mul_of_pos_right g.cellSize g.stripesPerBlock_pos
    have hstripes := Nat.le_mul_of_pos_left g.stripesPerBlock g.cellSize_pos
    have hblock := g.blockCapacity_lt
    have hwidth := g.width_le
    simp only [Geometry.blockCapacity, maxWidth, Word.size] at hblock hwidth
    simp [Word.size]
    omega
  ofValue_toValue g := congrArg (Except.mapError Refusal.rule) g.make_self
  ranged _ _ _ _ := trivial

theorem faithful_pattern : Faithful Pattern fun _ => True where
  sound := by simp
  fits p _ := by
    have := p.modulus_le
    simp [Word.size]
    omega
  ofValue_toValue p := congrArg (Except.mapError Refusal.rule) p.make_self
  ranged _ _ _ _ := trivial

theorem faithful_role : Faithful Role fun _ => True where
  sound := by simp
  fits r _ := by cases r <;> simp [roleName]
  ofValue_toValue r := by cases r <;> rfl
  ranged _ _ _ _ := trivial

theorem faithful_coordinate : Faithful Coordinate Coordinate.InWords where
  sound := by simp
  fits c h := by simp [h.group_lt, h.block_lt, h.stripe_lt, h.inCell_lt, h.inBlock_lt]
  ofValue_toValue _ := rfl
  ranged v c hfits h := by
    simp only [ofValue] at h
    split at h
    · cases h
      obtain ⟨-, hgroup, -, hblock, -, hstripe, -, hcell, -, hoffset, -⟩ := hfits
      exact ⟨hgroup, hblock, hstripe, hcell, hoffset⟩
    · cases h

theorem faithful_blockRecord : Faithful BlockRecord BlockRecord.InWords where
  sound := by simp
  fits b h := by simp [h.id_lt, h.length_lt, h.stamp_lt]
  ofValue_toValue _ := rfl
  ranged v b hfits h := by
    simp only [ofValue] at h
    split at h
    · cases h
      obtain ⟨-, -, -, hid, -, hlength, -, hstamp, -⟩ := hfits
      exact ⟨hid, hlength, hstamp⟩
    · cases h

theorem faithful_site : Faithful Site fun _ => True where
  sound := by simp
  fits s _ := by simp
  ofValue_toValue _ := rfl
  ranged _ _ _ _ := trivial

theorem faithful_token : Faithful Token fun _ => True where
  sound := by simp
  fits t _ := by simp
  ofValue_toValue _ := rfl
  ranged _ _ _ _ := trivial

theorem indices_back (indices : List UInt8) :
    (indices.map fun i => Value.number i.toNat).mapM indexOfValue = .ok indices := by
  rw [mapM_eq_ok_iff, List.forall₂_map_left_iff, List.forall₂_same]
  intro i _
  exact congrArg Except.ok UInt8.ofNat_toNat

theorem sites_back (sites : List Site) :
    (sites.map toValue).mapM (ofValue (α := Site)) = .ok sites := by
  rw [mapM_eq_ok_iff, List.forall₂_map_left_iff, List.forall₂_same]
  exact fun s _ => faithful_site.ofValue_toValue s

theorem faithful_groupRecord : Faithful GroupRecord GroupRecord.InWords where
  sound := by simp [Word.size]
  fits r h := by
    have hblock := faithful_blockRecord.fits r.block h.block
    have hsites := fun s (_ : s ∈ r.sites) => faithful_site.fits s trivial
    have hindices := fun i (_ : i ∈ r.indices) => i.toNat_lt
    have htoken := faithful_token.fits r.token trivial
    refine ⟨rfl, hblock, rfl, h.start_lt, rfl, ?_, rfl, ?_, rfl, htoken, trivial⟩
    · exact List.forall_mem_map.2 hsites
    · exact List.forall_mem_map.2 hindices
  ofValue_toValue r := by
    have hblock := faithful_blockRecord.ofValue_toValue r.block
    have htoken := faithful_token.ofValue_toValue r.token
    change ((do
      let block ← ofValue (toValue r.block)
      let sites ← (r.sites.map toValue).mapM ofValue
      let indices ← (r.indices.map fun i => Value.number i.toNat).mapM indexOfValue
      let token ← ofValue (toValue r.token)
      return { block, start := r.start, sites, indices, token }) : Except Refusal GroupRecord) = _
    rw [hblock, sites_back, indices_back, htoken]
    rfl
  ranged v r hfits h := by
    simp only [ofValue] at h
    split at h
    · obtain ⟨block, hblock, h⟩ := exists_of_bind_eq_ok h
      obtain ⟨sites, -, h⟩ := exists_of_bind_eq_ok h
      obtain ⟨indices, -, h⟩ := exists_of_bind_eq_ok h
      obtain ⟨token, -, h⟩ := exists_of_bind_eq_ok h
      cases h
      exact ⟨faithful_blockRecord.ranged _ _ hfits.2.1 hblock, hfits.2.2.2.1⟩
    · cases h

theorem faithful_member : Faithful Member Member.InWords where
  sound := by simp
  fits m h := by
    have hblock := faithful_blockRecord.fits m.block h.block
    have hsite := faithful_site.fits m.site trivial
    have htoken := faithful_token.fits m.token trivial
    have hrole := faithful_role.fits m.role trivial
    exact ⟨rfl, hblock, rfl, h.start_lt, rfl, hsite, rfl, htoken, rfl, h.index_lt, rfl, hrole,
      trivial⟩
  ofValue_toValue m := by
    have hblock := faithful_blockRecord.ofValue_toValue m.block
    have hsite := faithful_site.ofValue_toValue m.site
    have htoken := faithful_token.ofValue_toValue m.token
    have hrole := faithful_role.ofValue_toValue m.role
    change ((do
      let block ← ofValue (toValue m.block)
      let site ← ofValue (toValue m.site)
      let token ← ofValue (toValue m.token)
      let role ← ofValue (toValue m.role)
      return { block, start := m.start, site, token, index := m.index, role }) :
        Except Refusal Member) = _
    rw [hblock, hsite, htoken, hrole]
    rfl
  ranged v m hfits h := by
    simp only [ofValue] at h
    split at h
    · obtain ⟨block, hblock, h⟩ := exists_of_bind_eq_ok h
      obtain ⟨site, -, h⟩ := exists_of_bind_eq_ok h
      obtain ⟨token, -, h⟩ := exists_of_bind_eq_ok h
      obtain ⟨role, -, h⟩ := exists_of_bind_eq_ok h
      cases h
      obtain ⟨-, hblock', -, hstart, -, -, -, -, -, hindex, -⟩ := hfits
      exact ⟨faithful_blockRecord.ranged _ _ hblock' hblock, hstart, hindex⟩
    · cases h

/-! ## Checks on the way back -/

/-- The value of a layout with these numbers, whether or not there is such a layout. -/
def layoutValue (cellSize dataBlocks parityBlocks stripesPerBlock : Nat) : Value :=
  .record [("cell_size", .number cellSize), ("data_blocks", .number dataBlocks),
    ("parity_blocks", .number parityBlocks), ("stripes_per_block", .number stripesPerBlock)]

/-- The value of a pattern with this modulus, whether or not there is such a pattern. -/
def patternValue (modulus : Nat) : Value := .record [("modulus", .number modulus)]

theorem mapError_eq_ok_iff {ε ε' α : Type} {f : ε → ε'} {x : Except ε α} {a : α} :
    x.mapError f = .ok a ↔ x = .ok a := by
  cases x <;> simp [Except.mapError]

/-- **A text is a layout only if its numbers make one.** -/
theorem decode_geometry_eq_ok_iff {text : String} {g : Geometry} :
    decode Geometry text = .ok g ↔ ∃ c d p s rest,
      (shape Geometry).read text.toList = .ok (layoutValue c d p s, rest) ∧
        Geometry.make c d p s = .ok g ∧ skipBlanks rest = [] := by
  rw [decode_eq_ok_iff]
  constructor
  · rintro ⟨v, rest, hread, hvalue, hblank⟩
    have hfits := Shape.fits_of_read faithful_geometry.sound _ _ _ hread
    simp only [ofValue] at hvalue
    split at hvalue
    · next key₁ c key₂ d key₃ p key₄ s =>
      obtain ⟨rfl, -, rfl, -, rfl, -, rfl, -⟩ := hfits
      exact ⟨c, d, p, s, rest, hread, mapError_eq_ok_iff.1 hvalue, hblank⟩
    · cases hvalue
  · rintro ⟨c, d, p, s, rest, hread, hmake, hblank⟩
    exact ⟨layoutValue c d p s, rest, hread, mapError_eq_ok_iff.2 hmake, hblank⟩

/-- **A text is a pattern only if its number makes one.** -/
theorem decode_pattern_eq_ok_iff {text : String} {p : Pattern} :
    decode Pattern text = .ok p ↔ ∃ m rest,
      (shape Pattern).read text.toList = .ok (patternValue m, rest) ∧
        Pattern.make m = .ok p ∧ skipBlanks rest = [] := by
  rw [decode_eq_ok_iff]
  constructor
  · rintro ⟨v, rest, hread, hvalue, hblank⟩
    have hfits := Shape.fits_of_read faithful_pattern.sound _ _ _ hread
    simp only [ofValue] at hvalue
    split at hvalue
    · next key m =>
      obtain ⟨rfl, -⟩ := hfits
      exact ⟨m, rest, hread, mapError_eq_ok_iff.1 hvalue, hblank⟩
    · cases hvalue
  · rintro ⟨m, rest, hread, hmake, hblank⟩
    exact ⟨patternValue m, rest, hread, mapError_eq_ok_iff.2 hmake, hblank⟩

end Records

/-! ## The whole -/

/-- **Reading undoes writing for all records, and no text gets round a check.** Layouts, patterns,
roles, coordinates, blocks, sites, tokens, groups and members read back from their written forms,
whatever their texts, bytes and words are. What is read from any text is in range and reads back
too. A layout or a pattern is read only where its numbers pass the check that makes it. -/
theorem records_roundTrip :
    RoundTrips Geometry (fun _ => True) ∧ RoundTrips Pattern (fun _ => True) ∧
    RoundTrips Role (fun _ => True) ∧ RoundTrips Coordinate Coordinate.InWords ∧
    RoundTrips BlockRecord BlockRecord.InWords ∧ RoundTrips Site (fun _ => True) ∧
    RoundTrips Token (fun _ => True) ∧ RoundTrips GroupRecord GroupRecord.InWords ∧
    RoundTrips Member Member.InWords ∧
    (∀ text g, decode Geometry text = .ok g ↔ ∃ c d p s rest,
      (shape Geometry).read text.toList = .ok (layoutValue c d p s, rest) ∧
        Geometry.make c d p s = .ok g ∧ skipBlanks rest = []) ∧
    (∀ text p, decode Pattern text = .ok p ↔ ∃ m rest,
      (shape Pattern).read text.toList = .ok (patternValue m, rest) ∧
        Pattern.make m = .ok p ∧ skipBlanks rest = []) ∧
    (∀ g : Geometry,
      Geometry.make g.cellSize g.dataBlocks g.parityBlocks g.stripesPerBlock = .ok g) ∧
    ∀ p : Pattern, Pattern.make p.modulus = .ok p ∧ 1 ≤ p.modulus ∧ p.modulus ≤ 255 :=
  ⟨faithful_geometry.roundTrips, faithful_pattern.roundTrips, faithful_role.roundTrips,
    faithful_coordinate.roundTrips, faithful_blockRecord.roundTrips, faithful_site.roundTrips,
    faithful_token.roundTrips, faithful_groupRecord.roundTrips, faithful_member.roundTrips,
    fun _ _ => decode_geometry_eq_ok_iff, fun _ _ => decode_pattern_eq_ok_iff, Geometry.make_self,
    fun p => ⟨p.make_self, p.modulus_pos, p.modulus_le⟩⟩

/-- A group whose texts need every kind of escape, and whose numbers are the least and the largest. -/
def awkwardGroup : GroupRecord where
  block := { pool := "\"\\/\n\t\x00\x1f\x7f", id := 18446744073709551615, length := 0, stamp := 0 }
  start := 18446744073709551615
  sites := [{ node := "", address := "é 日 😀" }, { node := "]", address := "," }]
  indices := [0, 255]
  token := ⟨[0, 34, 92, 255]⟩

theorem records_roundTrip_awkward : decode GroupRecord (encode awkwardGroup) = .ok awkwardGroup :=
  records_roundTrip.2.2.2.2.2.2.2.1.decode_encode awkwardGroup
    ⟨⟨by decide, by decide, by decide⟩, by decide⟩

end Json

end Striping
