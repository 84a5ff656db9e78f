import Striping.Error

/-!
# The geometry of a striped layout

A file is cut into groups, a group into `dataBlocks + parityBlocks` blocks, and a block into
`stripesPerBlock` cells of `cellSize` bytes. `Geometry.make` accepts the usable quadruples: all that
a value of type `Geometry` promises is checked there, in a fixed order.
-/

namespace Striping

/-- The parameters of a layout, fixed when a file is created. -/
structure Geometry where
  /-- The bytes of a cell. -/
  cellSize : Nat
  /-- The data blocks of a group. -/
  dataBlocks : Nat
  /-- The parity blocks of a group. -/
  parityBlocks : Nat
  /-- The cells of a block. -/
  stripesPerBlock : Nat
  /-- A cell holds a byte. -/
  cellSize_pos : 0 < cellSize
  /-- A group holds a data block. -/
  dataBlocks_pos : 0 < dataBlocks
  /-- A block holds a cell. -/
  stripesPerBlock_pos : 0 < stripesPerBlock
  /-- A byte can number the blocks of a group. -/
  width_le : dataBlocks + parityBlocks ≤ maxWidth
  /-- The bytes of a group are counted by a word. -/
  capacity_lt : cellSize * stripesPerBlock * dataBlocks < Word.size
  deriving DecidableEq, Repr

namespace Geometry

/-- The layout with these parameters, or the first rule that they break. The width is summed in
words before it is compared. -/
def make (cellSize dataBlocks parityBlocks stripesPerBlock : Nat) : Except Error Geometry :=
  if hc : cellSize = 0 then .error (.configuration .zeroCellSize)
  else if hd : dataBlocks = 0 then .error (.configuration .zeroDataBlocks)
  else if hs : stripesPerBlock = 0 then .error (.configuration .zeroStripes)
  else match Word.add dataBlocks parityBlocks with
    | .error fault => .error (.fault fault)
    | .ok width =>
      if hw : dataBlocks + parityBlocks ≤ maxWidth then
        if hg : cellSize * stripesPerBlock * dataBlocks < Word.size then
          .ok {
            cellSize, dataBlocks, parityBlocks, stripesPerBlock
            cellSize_pos := Nat.pos_of_ne_zero hc
            dataBlocks_pos := Nat.pos_of_ne_zero hd
            stripesPerBlock_pos := Nat.pos_of_ne_zero hs
            width_le := hw
            capacity_lt := hg }
        else .error (.configuration .tooLarge)
      else .error (.configuration (.tooWide width))

/-- Six data and three parity blocks of four cells of 64 KiB. -/
def standard : Geometry where
  cellSize := 65536
  dataBlocks := 6
  parityBlocks := 3
  stripesPerBlock := 4
  cellSize_pos := by decide
  dataBlocks_pos := by decide
  stripesPerBlock_pos := by decide
  width_le := by decide
  capacity_lt := by decide

/-- A layout for examples: groups of two data blocks and a parity block, each of two cells of two
bytes. -/
def small : Geometry where
  cellSize := 2
  dataBlocks := 2
  parityBlocks := 1
  stripesPerBlock := 2
  cellSize_pos := by decide
  dataBlocks_pos := by decide
  stripesPerBlock_pos := by decide
  width_le := by decide
  capacity_lt := by decide

/-- A layout for examples: a group is one cell, of one byte more than a piece of memory holds. -/
def huge : Geometry where
  cellSize := 9223372036854775808
  dataBlocks := 1
  parityBlocks := 0
  stripesPerBlock := 1
  cellSize_pos := by decide
  dataBlocks_pos := by decide
  stripesPerBlock_pos := by decide
  width_le := by decide
  capacity_lt := by decide

variable (g : Geometry)

/-- The blocks of a group, parity included. -/
def width : Nat := g.dataBlocks + g.parityBlocks

/-- The bytes of a full block. -/
def blockCapacity : Nat := g.cellSize * g.stripesPerBlock

/-- The file bytes of a full stripe, one cell from each data block. -/
def stripeCapacity : Nat := g.cellSize * g.dataBlocks

/-- The file bytes of a full group. -/
def groupCapacity : Nat := g.blockCapacity * g.dataBlocks

theorem blockCapacity_pos : 0 < g.blockCapacity :=
  Nat.mul_pos g.cellSize_pos g.stripesPerBlock_pos

theorem stripeCapacity_pos : 0 < g.stripeCapacity :=
  Nat.mul_pos g.cellSize_pos g.dataBlocks_pos

theorem groupCapacity_pos : 0 < g.groupCapacity :=
  Nat.mul_pos g.blockCapacity_pos g.dataBlocks_pos

theorem groupCapacity_lt : g.groupCapacity < Word.size :=
  g.capacity_lt

theorem blockCapacity_le : g.blockCapacity ≤ g.groupCapacity :=
  Nat.le_mul_of_pos_right _ g.dataBlocks_pos

theorem groupCapacity_eq : g.groupCapacity = g.stripesPerBlock * g.stripeCapacity := by
  simp only [groupCapacity, blockCapacity, stripeCapacity]
  rw [Nat.mul_comm g.cellSize, Nat.mul_assoc]

theorem stripeCapacity_le : g.stripeCapacity ≤ g.groupCapacity := by
  rw [g.groupCapacity_eq]
  exact Nat.le_mul_of_pos_left _ g.stripesPerBlock_pos

theorem blockCapacity_lt : g.blockCapacity < Word.size :=
  Nat.lt_of_le_of_lt g.blockCapacity_le g.groupCapacity_lt

theorem stripeCapacity_lt : g.stripeCapacity < Word.size :=
  Nat.lt_of_le_of_lt g.stripeCapacity_le g.groupCapacity_lt

end Geometry

end Striping
