import Striping.FiniteMap
import Striping.Stripe

/-!
# A store of blocks in memory

The store stripes written files into blocks and answers where they are. Every group takes as many
consecutive ids as it has blocks, parity included, though only data blocks that are not empty are
kept. Ids are never given out twice. What is read and written is counted in words that start again
at zero behind the last one.

Every operation returns its answer together with the store that it leaves behind, failures included.
-/

namespace Striping

/-- What the store knows of a file. -/
structure StoredFile where
  /-- The file's length. -/
  length : Nat
  /-- The file's groups, in file order. -/
  groups : List GroupRecord
  deriving DecidableEq, Repr

/-- A store of blocks, and the files in it. -/
structure Store where
  /-- The layout of the files. -/
  geometry : Geometry
  /-- The content of blocks, by id. -/
  blocks : FiniteMap Nat Bytes
  /-- The files, by path. -/
  files : FiniteMap String StoredFile
  /-- The next id to give out. -/
  nextId : Nat
  /-- How many blocks were read. -/
  reads : UInt64
  /-- How many blocks were written. -/
  writes : UInt64
  /-- How many bytes the reads gave. -/
  bytesRead : UInt64

/-- Counts of a store's content and use. -/
structure Stats where
  /-- The blocks that are kept. -/
  blockCount : Nat
  /-- The bytes in them. -/
  bytesStored : Nat
  /-- The blocks read. -/
  reads : Nat
  /-- The blocks written. -/
  writes : Nat
  /-- The bytes read. -/
  bytesRead : Nat
  deriving DecidableEq, Repr

/-- The pool that all blocks of a store belong to. -/
def Store.pool : String := "BP-memory"

/-- The generation stamp of all blocks of a store. -/
def Store.stamp : Nat := 1001

/-- The first id that a store gives out, unless told otherwise. -/
def Store.firstId : Nat := 1048576

/-- The site of the data block at an index, the same in every group. -/
def Store.site (index : Nat) : Site :=
  ⟨s!"memory-node-{index}", s!"127.0.0.1:{9866 + index}"⟩

/-- The token of the group whose first block has this id. -/
def Store.token (id : Nat) : Token := ⟨s!"token-{id}".toUTF8.toList⟩

namespace Geometry

variable (g : Geometry)

/-- The id of the first block of a group, for a file whose ids start at `first`. -/
def groupId (first group : Nat) : Nat := first + group * g.width

/-- The record of a group of a file of `length` bytes whose ids start at `first`. -/
def groupRecord (first length group : Nat) : GroupRecord where
  block := {
    pool := Store.pool
    id := g.groupId first group
    length := g.groupLength length group
    stamp := Store.stamp }
  start := group * g.groupCapacity
  sites := (List.range g.dataBlocks).map Store.site
  indices := (List.range g.dataBlocks).map UInt8.ofNat
  token := Store.token (g.groupId first group)

/-- The blocks of a striped file that hold anything, with their ids. -/
def numbered (first : Nat) (groups : List (List Bytes)) : List (Nat × Bytes) :=
  groups.zipIdx.flatMap fun (blocks, group) =>
    (blocks.zipIdx.filter fun (content, _) => !content.isEmpty).map fun (content, index) =>
      (g.groupId first group + index, content)

end Geometry

namespace Store

/-- A store without blocks that gives out ids from `first` on. -/
def empty (g : Geometry) (first : Nat) : Store where
  geometry := g
  blocks := ∅
  files := ∅
  nextId := first
  reads := 0
  writes := 0
  bytesRead := 0

/-- Take `count` ids; the answer is the first of them. -/
def allocate (s : Store) (count : Nat) : Except Error Nat × Store :=
  if s.nextId + count < Word.size then
    (.ok s.nextId, { s with nextId := s.nextId + count })
  else (.error (.storage (.idsExhausted count s.nextId)), s)

/-- Whether an id belongs to one of the groups. -/
def owns (g : Geometry) (groups : List GroupRecord) (id : Nat) : Bool :=
  groups.any fun group => group.block.id ≤ id && id < group.block.id + g.width

/-- Give up the blocks of a file. -/
def release (s : Store) (file : StoredFile) : Store :=
  { s with blocks := s.blocks.eraseWhere (owns s.geometry file.groups) }

/-- Keep content for a path in place of what the path held. The answer is the number of groups. -/
def write (s : Store) (path : String) (content : Bytes) : Except Error Nat × Store :=
  match s.geometry.scatterFile content with
  | .error e => (.error e, s)
  | .ok striped =>
    match s.allocate (striped.length * s.geometry.width) with
    | (.error e, s) => (.error e, s)
    | (.ok first, s) =>
      let kept := s.geometry.numbered first striped
      let groups := (List.range striped.length).map (s.geometry.groupRecord first content.length)
      let previous := s.files.get? path
      let s := { s with
        blocks := s.blocks.insertAll kept
        files := s.files.insert path ⟨content.length, groups⟩
        writes := s.writes + .ofNat kept.length }
      (.ok striped.length, (previous.map s.release).getD s)

/-- The file at a path. -/
def file (s : Store) (path : String) : Except Error StoredFile :=
  match s.files.get? path with
  | none => .error (.fileNotFound path)
  | some file => .ok file

/-- The length of a file. -/
def length (s : Store) (path : String) : Except Error Nat := (s.file path).map (·.length)

/-- The groups of a file, in file order. -/
def groups (s : Store) (path : String) : Except Error (List GroupRecord) :=
  (s.file path).map (·.groups)

/-- Remove a file and its blocks. -/
def delete (s : Store) (path : String) : Except Error Unit × Store :=
  match s.file path with
  | .error e => (.error e, s)
  | .ok file => (.ok (), { s with files := s.files.erase path }.release file)

/-- Keep content for an id in place of what the id held. -/
def put (s : Store) (id : Nat) (content : Bytes) : Store :=
  { s with blocks := s.blocks.insert id content, writes := s.writes + 1 }

/-- Replace one byte of a block. -/
def corrupt (s : Store) (id offset : Nat) (value : UInt8) : Except Error Unit × Store :=
  match s.blocks.get? id with
  | none => (.error (.blockNotFound id), s)
  | some content =>
    if content.length ≤ offset then (.error (.blockOffset offset content.length), s)
    else (.ok (), { s with blocks := s.blocks.insert id (content.set offset value) })

/-- Lose a block; the answer says whether there was one. -/
def drop (s : Store) (id : Nat) : Bool × Store :=
  (s.blocks.contains id, { s with blocks := s.blocks.erase id })

/-- Read a block. -/
def read (s : Store) (id : Nat) : Except Error Bytes × Store :=
  match s.blocks.get? id with
  | none => (.error (.blockNotFound id), s)
  | some content =>
    (.ok content, { s with
      reads := s.reads + 1
      bytesRead := s.bytesRead + .ofNat content.length })

/-- The store in counts. -/
def stats (s : Store) : Stats where
  blockCount := s.blocks.size
  bytesStored := s.blocks.total List.length
  reads := s.reads.toNat
  writes := s.writes.toNat
  bytesRead := s.bytesRead.toNat

end Store

end Striping
