import Mathlib
import Striping.Proofs.Toml.Documents
import Striping.Settings

/-!
# Settings, source by source

The settings of a run are, number by number, what the first source that has the number says: the
command line, the document of the settings file, the environment, and at last a fixed default
(`Settings.effective`, `Settings.override_of_ofTable?`). The text that `Settings.toText?` writes
gives all five numbers, so it reads back as the same settings whatever the defaults are
(`Settings.ofText?_of_toText?`).
-/

namespace Striping

/-- The number below the size of a word in a variable, if there is one. -/
def Environment.number? (env : Environment) (name : String) : Option Nat :=
  (env.get? name).bind (Numeral.unsigned? Word.size)

namespace Settings

/-! ## Sources -/

/-- What a document has for a number of a section: the value of its key in a table, or the value at
its place in an array. -/
def mention? (t : Toml.Table) (name : String) (place : Nat) (key : String) : Option Toml.Tree :=
  match t.lookup name with
  | some (.table _ entries) => entries.lookup key
  | some (.array items) => items[place]?
  | _ => none

/-- The number that a document gives for a key of a section. -/
def given? (t : Toml.Table) (name : String) (place : Nat) (key : String) : Option Nat :=
  (mention? t name place key).bind number?

/-- The number of the first source that has one. -/
def choose (option key env : Option Nat) (default : Nat) : Nat :=
  ((option.or key).or env).getD default

/-- The settings of a run, number by number: what the command line says, else what the document
says, else what the environment says, else the default. The command line has no option for the
modulus. -/
def effective (env : Environment) (t : Toml.Table) (o : Overrides) : Settings where
  cellSize := choose o.cellSize (given? t "striping" 0 "cell_size")
    (env.number? Environment.cellSizeName) 65536
  dataBlocks := choose o.dataBlocks (given? t "striping" 1 "data_blocks")
    (env.number? Environment.dataBlocksName) 6
  parityBlocks := choose o.parityBlocks (given? t "striping" 2 "parity_blocks")
    (env.number? Environment.parityBlocksName) 3
  stripesPerBlock := choose o.stripesPerBlock (given? t "striping" 3 "stripes_per_block")
    (env.number? Environment.stripesPerBlockName) 4
  modulus := choose none (given? t "oracle" 0 "modulus")
    (env.number? Environment.modulusName) 29

theorem field?_eq_some {t : Toml.Table} {name : String} {place : Nat} {key : String}
    {default n : Nat} (h : field? place key default (t.lookup name) = some n) :
    n = (given? t name place key).getD default := by
  unfold given? mention?
  cases hsection : t.lookup name with
  | none =>
    rw [hsection] at h
    exact (Option.some.inj h).symm
  | some tree =>
    rw [hsection] at h
    cases tree with
    | scalar s =>
      cases s with
      | moment => exact (Option.some.inj h).symm
      | _ => cases h
    | array items =>
      simp only [field?] at h
      split at h
      · next hitem => simp only [hitem, Option.bind_none, Option.getD_none, Option.some.inj h]
      · next hitem => simp only [hitem, Option.bind_some, h, Option.getD_some]
    | table origin entries =>
      simp only [field?] at h
      split at h
      · next hentry => simp only [hentry, Option.bind_none, Option.getD_none, Option.some.inj h]
      · next hentry => simp only [hentry, Option.bind_some, h, Option.getD_some]
    | tables front last => cases h

theorem getD_eq_choose (option key env : Option Nat) (default : Nat) :
    option.getD (key.getD (env.getD default)) = choose option key env default := by
  cases option <;> cases key <;> rfl

/-- **Settings that are read are those of their sources**, each number from the first that has it. -/
theorem override_of_ofTable? {env : Environment} {t : Toml.Table} {s : Settings}
    (h : ofTable? t (ofEnvironment env) = some s) (o : Overrides) :
    s.override o = effective env t o := by
  unfold ofTable? at h
  simp only [Option.bind_eq_bind, Option.bind_eq_some_iff, Option.pure_def, Option.some.injEq] at h
  obtain ⟨cellSize, hcell, dataBlocks, hdata, parityBlocks, hparity, stripesPerBlock, hstripes,
    modulus, hmodulus, rfl⟩ := h
  rw [field?_eq_some hcell, field?_eq_some hdata, field?_eq_some hparity, field?_eq_some hstripes,
    field?_eq_some hmodulus]
  simp only [override, effective, ← getD_eq_choose]
  rfl

/-! ## Settings in a text -/

/-- The lines of a settings file. -/
def lines (s : Settings) : List Toml.Line :=
  [.header "striping", .number "cell_size" s.cellSize, .number "data_blocks" s.dataBlocks,
    .number "parity_blocks" s.parityBlocks, .number "stripes_per_block" s.stripesPerBlock, .blank,
    .header "oracle", .number "modulus" s.modulus]

theorem toText?_eq_some_iff {s : Settings} {text : String} : s.toText? = some text ↔
    (∀ n ∈ s.numbers, n < Word.size / 2) ∧ text.toList = s.lines.flatMap Toml.Line.text := by
  have htext : s.toText? = if s.numbers.all (· < Word.size / 2) then
      some (String.ofList (s.lines.flatMap Toml.Line.text)) else none := by
    unfold toText?
    congr 2
    simp [lines, Toml.Line.text, String.ext_iff, toString]
  rw [htext]
  split
  · next hall =>
    rw [Option.some.injEq, String.ext_iff, String.toList_ofList, eq_comm]
    exact (and_iff_right fun n hn => of_decide_eq_true (List.all_eq_true.1 hall n hn)).symm
  · next hall =>
    refine ⟨fun h => (by cases h), fun h => absurd ?_ hall⟩
    exact List.all_eq_true.2 fun n hn => decide_eq_true (h.1 n hn)

theorem plain_lines {s : Settings} (h : ∀ n ∈ s.numbers, n < Word.size / 2) :
    ∀ line ∈ s.lines, line.Plain := by
  simp only [numbers, List.forall_mem_cons] at h
  obtain ⟨hcell, hdata, hparity, hstripes, hmodulus, -⟩ := h
  simp only [lines, List.forall_mem_cons, Toml.Line.Plain]
  refine ⟨?_, ⟨?_, hcell⟩, ⟨?_, hdata⟩, ⟨?_, hparity⟩, ⟨?_, hstripes⟩, trivial, ?_, ⟨?_, hmodulus⟩,
    nofun⟩
  all_goals exact ⟨nofun, List.all_eq_true.1 rfl⟩

theorem read_of_toText? {s : Settings} {text : String} (h : s.toText? = some text) :
    Toml.read text = some [
      ("striping", .table .header [
        ("cell_size", .scalar (.integer s.cellSize)),
        ("data_blocks", .scalar (.integer s.dataBlocks)),
        ("parity_blocks", .scalar (.integer s.parityBlocks)),
        ("stripes_per_block", .scalar (.integer s.stripesPerBlock))]),
      ("oracle", .table .header [("modulus", .scalar (.integer s.modulus))])] := by
  obtain ⟨hlt, htext⟩ := toText?_eq_some_iff.1 h
  rw [Toml.read, htext, Toml.readStatements_lines (plain_lines hlt), Option.bind_some]
  have hsections : Toml.sections (s.lines.filterMap Toml.Line.statement?) = ([], [
      ⟨["striping"], false, [
        (["cell_size"], .scalar (.integer s.cellSize)),
        (["data_blocks"], .scalar (.integer s.dataBlocks)),
        (["parity_blocks"], .scalar (.integer s.parityBlocks)),
        (["stripes_per_block"], .scalar (.integer s.stripesPerBlock))]⟩,
      ⟨["oracle"], false, [(["modulus"], .scalar (.integer s.modulus))]⟩]) := rfl
  rw [Toml.Table.ofStatements, hsections]
  simp [Toml.Table.add, Toml.Table.addSection, Toml.Table.enter, Toml.Table.assignAll,
    Toml.Table.assign, Toml.Table.change, Toml.Table.place]

/-- **The text of settings reads back as the settings**, whatever the defaults are. -/
theorem ofText?_of_toText? {s : Settings} {text : String} (h : s.toText? = some text)
    (defaults : Settings) : ofText? text defaults = some s := by
  rw [ofText?, read_of_toText? h, Option.bind_some]
  simp [ofTable?, field?, number?, List.lookup]

end Settings

end Striping
