import Striping.Json.Shape
import Striping.Layout
import Striping.Pattern

/-!
# Records of the library in JSON

Each type has a shape, a way into `Value` and a way back. Layouts and patterns are checked on the way
back as they are when they are made from numbers: reading cannot get round the rules of
`Geometry.make` and `Pattern.make`.
-/

namespace Striping.Json

/-- Why a text was not read. -/
inductive Refusal where
  /-- The text has a flaw. -/
  | flaw (f : Flaw)
  /-- The numbers in the text break a rule of the type. -/
  | rule (e : Error)
  deriving DecidableEq, Repr

/-- A type with a form in JSON. -/
class Coded (α : Type) where
  /-- The shape of the type. -/
  shape : Shape
  /-- A value of the shape for each element of the type. -/
  toValue : α → Value
  /-- The element that a value of the shape stands for. Values of other shapes stand for none. -/
  ofValue : Value → Except Refusal α

export Coded (shape toValue ofValue)

/-- The refusal of a value that is not of the shape. -/
def misshapen {α : Type} : Except Refusal α := .error (.flaw .unfit)

/-- The element that a text describes. Only blanks may follow. -/
def decode (α : Type) [Coded α] (text : String) : Except Refusal α :=
  match (shape α).read text.toList with
  | .error f => .error (.flaw f)
  | .ok (v, rest) =>
    match ofValue v with
    | .error r => .error r
    | .ok a => if skipBlanks rest = [] then .ok a else .error (.flaw .malformed)

/-- The written form of an element. -/
def encode {α : Type} [Coded α] (a : α) : String := String.ofList (toValue a).write

/-- A 64-bit number. -/
def word : Shape := .number Word.size

instance : Coded Geometry where
  shape := .record [
    ("cell_size", word), ("data_blocks", word), ("parity_blocks", word),
    ("stripes_per_block", word)]
  toValue g := .record [
    ("cell_size", .number g.cellSize), ("data_blocks", .number g.dataBlocks),
    ("parity_blocks", .number g.parityBlocks), ("stripes_per_block", .number g.stripesPerBlock)]
  ofValue
    | .record [(_, .number c), (_, .number d), (_, .number p), (_, .number s)] =>
      (Geometry.make c d p s).mapError .rule
    | _ => misshapen

instance : Coded Pattern where
  shape := .record [("modulus", word)]
  toValue p := .record [("modulus", .number p.modulus)]
  ofValue
    | .record [(_, .number m)] => (Pattern.make m).mapError .rule
    | _ => misshapen

/-- The name of a role. -/
def roleName : Role → String
  | .data => "Data"
  | .parity => "Parity"

instance : Coded Role where
  shape := .choice ["Data", "Parity"]
  toValue r := .choice (roleName r)
  ofValue
    | .choice "Data" => .ok .data
    | .choice "Parity" => .ok .parity
    | _ => misshapen

instance : Coded Coordinate where
  shape := .record [
    ("group", word), ("block", word), ("stripe", word), ("offset_in_cell", word),
    ("offset_in_block", word)]
  toValue c := .record [
    ("group", .number c.group), ("block", .number c.block), ("stripe", .number c.stripe),
    ("offset_in_cell", .number c.inCell), ("offset_in_block", .number c.inBlock)]
  ofValue
    | .record [(_, .number group), (_, .number block), (_, .number stripe), (_, .number inCell),
        (_, .number inBlock)] =>
      .ok { group, block, stripe, inCell, inBlock }
    | _ => misshapen

instance : Coded BlockRecord where
  shape := .record [
    ("pool_id", .text), ("block_id", word), ("num_bytes", word), ("generation_stamp", word)]
  toValue b := .record [
    ("pool_id", .text b.pool), ("block_id", .number b.id), ("num_bytes", .number b.length),
    ("generation_stamp", .number b.stamp)]
  ofValue
    | .record [(_, .text pool), (_, .number id), (_, .number length), (_, .number stamp)] =>
      .ok { pool, id, length, stamp }
    | _ => misshapen

instance : Coded Site where
  shape := .record [("node_id", .text), ("xfer_addr", .text)]
  toValue s := .record [("node_id", .text s.node), ("xfer_addr", .text s.address)]
  ofValue
    | .record [(_, .text node), (_, .text address)] => .ok { node, address }
    | _ => misshapen

instance : Coded Token where
  shape := .bytes
  toValue t := .bytes t.bytes
  ofValue
    | .bytes bs => .ok ⟨bs⟩
    | _ => misshapen

/-- The index byte that a number stands for. -/
def indexOfValue : Value → Except Refusal UInt8
  | .number n => .ok (UInt8.ofNat n)
  | _ => misshapen

instance : Coded GroupRecord where
  shape := .record [
    ("block", shape BlockRecord), ("start_offset", word), ("locations", .list (shape Site)),
    ("block_indices", .list (.number 256)), ("token", shape Token)]
  toValue r := .record [
    ("block", toValue r.block), ("start_offset", .number r.start),
    ("locations", .list (r.sites.map toValue)),
    ("block_indices", .list (r.indices.map fun i => .number i.toNat)), ("token", toValue r.token)]
  ofValue
    | .record [(_, block), (_, .number start), (_, .list sites), (_, .list indices),
        (_, token)] => do
      let block ← ofValue block
      let sites ← sites.mapM ofValue
      let indices ← indices.mapM indexOfValue
      let token ← ofValue token
      return { block, start, sites, indices, token }
    | _ => misshapen

instance : Coded Member where
  shape := .record [
    ("block", shape BlockRecord), ("start_offset", word), ("location", shape Site),
    ("token", shape Token), ("index_in_group", word), ("role", shape Role)]
  toValue m := .record [
    ("block", toValue m.block), ("start_offset", .number m.start), ("location", toValue m.site),
    ("token", toValue m.token), ("index_in_group", .number m.index), ("role", toValue m.role)]
  ofValue
    | .record [(_, block), (_, .number start), (_, site), (_, token), (_, .number index),
        (_, role)] => do
      let block ← ofValue block
      let site ← ofValue site
      let token ← ofValue token
      let role ← ofValue role
      return { block, start, site, token, index, role }
    | _ => misshapen

end Striping.Json
