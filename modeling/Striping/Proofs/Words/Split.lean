import Striping.Proofs.Records
import Striping.Proofs.Words.Layout
import Striping.Split.Words

/-!
# Splitting in words is exact

A listed block passes the same checks in words (`Word.member_eq`). The pass over the listed blocks
keeps in each slot the first block of its index (`Word.put_slots`, `Word.fill_slots`), so it ends
with the slots of the exact version (`Word.split_eq`).
-/

namespace Striping

/-- The slots in which these blocks are put. -/
def Geometry.slots (g : Geometry) (ms : List Member) : List (Option Member) :=
  (List.range g.width).map fun i => ms.find? (·.index == i)

namespace Word

variable (g : Geometry) (record : GroupRecord)

theorem member_eq (site : Site) (index : Nat) :
    member g record site index = record.member g site index := by
  simp only [member, GroupRecord.member, bind, Except.bind, pure, Except.pure, throw, throwThe,
    MonadExceptOf.throw, blockLength_eq]
  cases g.role index with
  | error e => rfl
  | ok role =>
    dsimp only
    cases g.blockLength record.block.length index with
    | error e => rfl
    | ok length =>
      dsimp only
      rcases Nat.lt_or_ge (record.block.id + index) size with hid | hid
      · rw [add_eq_ok hid, if_neg (Nat.not_le_of_lt hid)]
        dsimp only
        -- a product that is no word leads past the last start, too
        rcases Nat.lt_or_ge (index * g.cellSize) size with hmul | hmul
        · rw [mul_eq_ok hmul]
          dsimp only
          rcases Nat.lt_or_ge (record.start + index * g.cellSize) size with hstart | hstart
          · rw [add_eq_ok hstart, if_neg (Nat.not_le_of_lt hstart)]
          · rw [add_eq_error hstart, if_pos hstart]
        · rw [mul_eq_error hmul, if_pos (Nat.le_add_left_of_le hmul)]
      · rw [add_eq_error hid, if_pos hid]

variable {g}

/-- **Putting a block keeps the first of each index.** -/
theorem put_slots {m : Member} (h : m.index < g.width) (ms : List Member) :
    put m (g.slots ms) = .ok (g.slots (ms ++ [m])) := by
  have hget : (g.slots ms)[m.index]? = some (ms.find? (·.index == m.index)) :=
    getElem?_map_range_eq_some.2 ⟨h, rfl⟩
  unfold put
  rw [hget]
  cases hfind : ms.find? (·.index == m.index) with
  | none =>
    refine congrArg Except.ok (List.ext_getElem (by simp [Geometry.slots]) fun i hi _ => ?_)
    rw [List.getElem_set]
    simp only [Geometry.slots, List.getElem_map, List.getElem_range, List.find?_append]
    split
    · next heq => simp [← heq, hfind]
    · next hne => simp [hne]
  | some first =>
    -- behind `first` the block is not found, so appending it changes no slot
    refine congrArg Except.ok (List.map_congr_left fun i _ => ?_)
    rw [List.find?_append]
    by_cases hi : m.index = i
    · rw [← hi, hfind, Option.some_or]
    · simp [hi]

variable {record}

/-- **The pass keeps the first block of each index**: from the slots of the blocks `ms` it goes on
to those of `ms` and all that follow, or to the first refusal. -/
theorem fill_slots (pairs : List (Site × UInt8)) (ms : List Member) :
    fill g record pairs (g.slots ms) =
      match pairs.mapM fun x => record.member g x.1 x.2.toNat with
      | .error e => .error e
      | .ok rest => .ok (g.slots (ms ++ rest)) := by
  induction pairs generalizing ms with
  | nil => exact congrArg (fun ms => Except.ok (g.slots ms)) (List.append_nil ms).symm
  | cons x rest ih =>
    rw [fill, member_eq]
    cases hm : record.member g x.1 x.2.toNat with
    | error e => rw [mapM_cons_error (x := x) hm]
    | ok m =>
      obtain ⟨hdescribes, rfl⟩ := GroupRecord.member_eq_ok_iff.1 hm
      dsimp only
      rw [put_slots hdescribes.index_lt, mapM_cons_ok (x := x) hm]
      dsimp only
      rw [ih]
      cases rest.mapM fun x => record.member g x.1 x.2.toNat with
      | error e => rfl
      | ok members => simp [Except.map]

variable (g record)

/-- **Splitting in words is exact.** -/
theorem split_eq : split g record = record.split g := by
  have hempty : List.replicate g.width none = g.slots [] := by simp [Geometry.slots]
  rw [split, GroupRecord.split, hempty, fill_slots]
  rfl

end Word

end Striping
