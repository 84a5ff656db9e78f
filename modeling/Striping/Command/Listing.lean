import Striping.Command.Outcome
import Striping.Split

/-!
# Listings

Two listings of a layout: where file positions are stored (`locate`), and the blocks of a group
(`split`).
-/

namespace Striping.Command

/-- The text with blanks in front, `width` characters in all if it has fewer. -/
def alignRight (width : Nat) (text : String) : String :=
  String.ofList (List.replicate (width - text.length) ' ') ++ text

/-! ## Positions -/

/-- A line of the listing of positions. -/
def positionLine (position group block stripe inCell inBlock : String) : String :=
  "  ".intercalate [alignRight 14 position, alignRight 6 group, alignRight 5 block,
    alignRight 6 stripe, alignRight 8 inCell, alignRight 10 inBlock] ++ "\n"

/-- The head of the listing of positions. -/
def positionsHead (g : Geometry) : String :=
  s!"Layout: cell {g.cellSize} B, {g.dataBlocks} data + {g.parityBlocks} parity, " ++
  s!"{g.stripesPerBlock} stripes/block\n\n" ++
  positionLine "offset" "group" "block" "stripe" "in cell" "in block"

/-- The coordinate of a position, which has to map back to the position. -/
def locateChecked (g : Geometry) (position : Nat) : Except Failure Coordinate :=
  let c := g.locate position
  match g.fileOffset c.group c.block c.inBlock with
  | .error e => .error (.refused e)
  | .ok back => if back = position then .ok c else .error (.inverse position back)

/-- The lines of positions behind what is listed already, up to the first failure. -/
def listPositions (g : Geometry) (listed : String) : List Nat → Outcome
  | [] => .success listed
  | position :: rest =>
    match locateChecked g position with
    | .error f => .failure listed f
    | .ok c =>
      let line := positionLine (toString position) (toString c.group) (toString c.block)
        (toString c.stripe) (toString c.inCell) (toString c.inBlock)
      listPositions g (listed ++ line) rest

/-- List where positions are stored. -/
def locate (g : Geometry) (positions : List Nat) : Outcome :=
  listPositions g (positionsHead g) positions

/-! ## Blocks -/

/-- The record of a group of which all blocks have sites. -/
def fullGroup (g : Geometry) (length id : Nat) : GroupRecord where
  block := { pool := "BP-cli", id, length, stamp := 1 }
  start := 0
  sites := (List.range g.width).map fun i => ⟨s!"node-{i}", s!"127.0.0.1:{9866 + i}"⟩
  indices := (List.range g.width).map UInt8.ofNat
  token := ⟨[]⟩

/-- The line of a block. -/
def memberLine (m : Member) : String :=
  let role := match m.role with
    | .data => "data  "
    | .parity => "parity"
  s!"  [{alignRight 3 (toString m.index)}] {role} {m.block.label}  " ++
  s!"{alignRight 10 (toString m.block.length)} bytes  start {m.start}\n"

/-- List the blocks of a group of `length` bytes whose first block has this id. -/
def split (g : Geometry) (length first : Nat) : Outcome :=
  match (fullGroup g length first).split g with
  | .error e => .failure "" (.refused e)
  | .ok members =>
    .success (s!"Block group of {length} bytes\n\n" ++
      String.join ((members.filterMap id).map memberLine))

end Striping.Command
