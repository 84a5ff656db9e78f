/-!
# Records of blocks and groups

What a location service says about stored content. A group of blocks is described by one record:
the id and stamp of its first block, the group's length in bytes, and the sites that hold its
blocks. Splitting it (`Striping.Split`) gives one `Member` for each block that has a site.
-/

namespace Striping

/-- The content of a block or of a file. -/
abbrev Bytes := List UInt8

/-- What a block of a group holds: the file's own bytes, or redundancy. -/
inductive Role where
  | data
  | parity
  deriving DecidableEq, Repr

/-- A block's identity and length. -/
structure BlockRecord where
  /-- The storage pool that the block lives in. -/
  pool : String
  /-- The block's id, unique in its pool. -/
  id : Nat
  /-- The bytes that the block holds. -/
  length : Nat
  /-- The generation stamp. -/
  stamp : Nat
  deriving DecidableEq, Repr

/-- A block's name in messages: pool, id and stamp. -/
def BlockRecord.label (b : BlockRecord) : String :=
  s!"{b.pool}:blk_{b.id}_{b.stamp}"

/-- A storage node that holds a block. -/
structure Site where
  /-- The node's name. -/
  node : String
  /-- The address that blocks are fetched from. -/
  address : String
  deriving DecidableEq, Repr

/-- An access token, shown to the storage node and not interpreted. -/
structure Token where
  /-- The token's bytes. -/
  bytes : Bytes
  deriving DecidableEq, Repr

/-- A group of blocks, represented by its first block. -/
structure GroupRecord where
  /-- The first block; its length is the number of file bytes in the whole group. -/
  block : BlockRecord
  /-- The file position of the group's first byte. -/
  start : Nat
  /-- The sites of the group's blocks. -/
  sites : List Site
  /-- The index in the group of the block at each site. -/
  indices : List UInt8
  /-- The token for every block of the group. -/
  token : Token
  deriving DecidableEq, Repr

/-- One block of a group, with all that is needed to fetch it. -/
structure Member where
  /-- The block; its length is what the layout puts into it. -/
  block : BlockRecord
  /-- The file position of the block's first cell. -/
  start : Nat
  /-- The site that holds the block. -/
  site : Site
  /-- The token to show there. -/
  token : Token
  /-- The block's index in the group. -/
  index : Nat
  /-- Whether the block holds data or parity. -/
  role : Role
  deriving DecidableEq, Repr

end Striping
