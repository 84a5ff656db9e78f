import Striping.Split
import Striping.Store
import Striping.Stripe.Words

/-!
# Fetching files from a store

A group is split into its members and each is read from the store, in order of the index, up to the
first failure. A member of length zero is not read. `Store.fetchGroups` gives the buffers of every
group of a file, `Store.readContent` the file's bytes. `Store.readGroups` is the latter with memory
left aside.
-/

namespace Striping.Store

/-- Read one block; what the store holds has to be as long as the record says. -/
def fetchMember (s : Store) (m : Member) : Except Error (Nat × Bytes) × Store :=
  if m.block.length = 0 then (.ok (m.index, []), s)
  else
    match s.read m.block.id with
    | (.error e, s) => (.error e, s)
    | (.ok content, s) =>
      if content.length = m.block.length then (.ok (m.index, content), s)
      else (.error (.length m.block.length content.length), s)

/-- Read blocks from left to right. -/
def fetchMembers (s : Store) : List Member → Except Error (List (Nat × Bytes)) × Store
  | [] => (.ok [], s)
  | m :: rest =>
    match s.fetchMember m with
    | (.error e, s) => (.error e, s)
    | (.ok found, s) =>
      match s.fetchMembers rest with
      | (.error e, s) => (.error e, s)
      | (.ok others, s) => (.ok (found :: others), s)

/-- The buffers of group `group`, with slots for the layout `g`. -/
def fetchGroup (s : Store) (g : Geometry) (group : Nat) (members : List (Option Member)) :
    Except Error Buffers × Store :=
  match s.fetchMembers (members.filterMap id) with
  | (.error e, s) => (.error e, s)
  | (.ok found, s) => ((Buffers.empty g group).insertAll found, s)

/-- The buffers of the groups from index `group` on. Each has to start where its index says. -/
def fetchFrom (s : Store) (g : Geometry) : Nat → List GroupRecord →
    Except Error (List Buffers) × Store
  | _, [] => (.ok [], s)
  | group, record :: rest =>
    if record.start ≠ group * g.groupCapacity then
      (.error (.layout (.misplaced group record.start (group * g.groupCapacity))), s)
    else
      match record.split g with
      | .error e => (.error e, s)
      | .ok members =>
        match s.fetchGroup g group members with
        | (.error e, s) => (.error e, s)
        | (.ok buffers, s) =>
          match s.fetchFrom g (group + 1) rest with
          | (.error e, s) => (.error e, s)
          | (.ok others, s) => (.ok (buffers :: others), s)

/-- The buffers of all groups of a file. -/
def fetchGroups (s : Store) (g : Geometry) (groups : List GroupRecord) :
    Except Error (List Buffers) × Store :=
  s.fetchFrom g 0 groups

/-- The first `length` bytes of a file, which has to be that long. -/
def joinGroups (g : Geometry) (length : Nat) (groups : List Buffers) : Except Error Bytes :=
  match groups.mapM fun b => g.gather b (g.groupLength length b.group) with
  | .error e => .error e
  | .ok pieces =>
    let content := pieces.flatten
    if content.length = length then .ok content else .error (.length length content.length)

/-- Read the first `length` bytes of a file, memory left aside. -/
def readGroups (s : Store) (g : Geometry) (length : Nat) (groups : List GroupRecord) :
    Except Error Bytes × Store :=
  match s.fetchGroups g groups with
  | (.error e, s) => (.error e, s)
  | (.ok buffers, s) => (joinGroups g length buffers, s)

/-- The first `length` bytes of a file, joined in memory that is reserved for them. -/
def assembleGroups (g : Geometry) (length : Nat) (groups : List Buffers) : Except Error Bytes :=
  match Word.reserve length with
  | .error fault => .error (.fault fault)
  | .ok () =>
    match groups.mapM fun b => Word.assemble g b (g.groupLength length b.group) with
    | .error e => .error e
    | .ok pieces =>
      let content := pieces.flatten
      if content.length = length then .ok content else .error (.length length content.length)

/-- Read the first `length` bytes of a file. Its groups are fetched first. -/
def readContent (s : Store) (g : Geometry) (length : Nat) (groups : List GroupRecord) :
    Except Error Bytes × Store :=
  match s.fetchGroups g groups with
  | (.error e, s) => (.error e, s)
  | (.ok buffers, s) => (assembleGroups g length buffers, s)

end Striping.Store
