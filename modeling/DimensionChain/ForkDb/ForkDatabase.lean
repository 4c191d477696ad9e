import DimensionChain.Base.Outcome
import DimensionChain.ForkDb.ForkMultiIndex

/-!
# The fork database

`fork_database.cpp` function by function. The database runs together with the listener of
its irreversible signal: a slot may change the state around the database and may throw,
and an exception leaves `prune` and `add` where it was thrown.
-/

namespace DimensionChain

def SignedBlock.blockNum {Key Sig : Type} (b : SignedBlock Key Sig) : Nat :=
  b.toBlockHeader.blockNum

def SignedBlock.id {Key Sig : Type} (C : Crypto Key Sig) (b : SignedBlock Key Sig) : BlockId :=
  b.toBlockHeader.id C

/-- The head is `none` before the first `set`, and when `*begin()` is taken of an empty
index. -/
structure ForkDatabase (Key Sig : Type) where
  index : ForkMultiIndex Key Sig
  head : Option (BlockData Key Sig)

structure Hosted (Key Sig : Type) (ε : Type) where
  forkDb : ForkDatabase Key Sig
  env : ε

abbrev Slot (Key Sig ε : Type) :=
  BlockData Key Sig → Hosted Key Sig ε → Attempt (Hosted Key Sig ε)

namespace ForkDatabase
variable {Key Sig ε : Type}

def getBlock (db : ForkDatabase Key Sig) (id : BlockId) : Option (BlockState Key Sig) :=
  db.index.find? id

/-- `remove_queue` from its next entry on: every id is erased and its children are queued. -/
def removeQueue : Nat → List BlockId → ForkMultiIndex Key Sig → ForkMultiIndex Key Sig
  | 0, _, idx => idx
  | _ + 1, [], idx => idx
  | fuel + 1, id :: queue, idx =>
    removeQueue fuel (queue ++ (idx.erase id).children id) (idx.erase id)

def remove (db : ForkDatabase Key Sig) (id : BlockId) : ForkDatabase Key Sig :=
  let index := removeQueue (db.index.size + 1) [id] db.index
  { index := index, head := index.byLibBlockNum.head? }

/-- The last loop of `prune`. The iterator is moved on before its block is removed, and the block
that it stands at then can be removed too: the next round reads an erased node. -/
def removeLevel (num : Nat) :
    Nat → Option BlockId → ForkDatabase Key Sig → Attempt (ForkDatabase Key Sig)
  | 0, _, db => .ok db
  | _ + 1, none, db => .ok db
  | fuel + 1, some id, db =>
    match db.getBlock id with
    | none => .throw ⟨.undefined, "erased node of the index"⟩ db
    | some b =>
      if b.blockNum = num then removeLevel num fuel (db.index.next? id) (db.remove id) else .ok db

/-- Callers pass blocks of the index only, so the flag is that of the index. -/
def markInCurrentChain (db : ForkDatabase Key Sig) (h : BlockData Key Sig) (flag : Bool) :
    Result (ForkDatabase Key Sig) :=
  match db.index.find? h.id with
  | none => .error ⟨.forkDbBlockNotFound, "could not find block in fork database"⟩
  | some b =>
    if b.inCurrentChain = flag then .ok db
    else .ok { db with index := db.index.setInCurrentChain h.id flag }

def setValidity (db : ForkDatabase Key Sig) (h : BlockData Key Sig) (valid : Bool) :
    ForkDatabase Key Sig :=
  if valid then { db with index := db.index.setValidated h.id } else db.remove h.id

/-- `set`: the block is inserted before its id is checked. -/
def set (C : Crypto Key Sig) (db : ForkDatabase Key Sig) (s : BlockState Key Sig) :
    Attempt (ForkDatabase Key Sig) :=
  let inserted := db.index.insert s
  let db' := { db with index := inserted.getD db.index }
  (Outcome.require (s.id = s.header.toBlockHeader.id C) ⟨.forkDatabase,
    "block state id ($\x7bid\x7d) is different from block state header id ($\x7bhid\x7d)"⟩ db').andThen
    fun db' =>
  (Outcome.require (inserted.isSome = true) ⟨.forkDatabase,
    "unable to insert block state, duplicate state detected"⟩ db').andThen fun db' =>
  match db'.head with
  | none => .ok { db' with head := some s.toBlockData }
  | some h =>
    if h.blockNum < s.blockNum then .ok { db' with head := some s.toBlockData } else .ok db'

def getBlockInCurrentChainByNum (db : ForkDatabase Key Sig) (n : Nat) :
    Option (BlockState Key Sig) :=
  -- `lower_bound( n )` on the number alone
  match db.index.byBlockNum.find? fun b => n ≤ b.blockNum with
  | none => none
  | some b => if b.blockNum ≠ n ∨ b.inCurrentChain ≠ true then none else some b

/-- One of the first two loops of `fetch_branch_from`: the blocks above number `stop`, and
the block that the loop ends at. -/
def walkDown (db : ForkDatabase Key Sig) (stop : Nat) :
    Nat → BlockData Key Sig →
      Result (List (BlockData Key Sig) × BlockData Key Sig)
  | 0, b => if stop < b.blockNum then .error ⟨.undefined, "endless loop"⟩ else .ok ([], b)
  | fuel + 1, b =>
    if stop < b.blockNum then
      match db.getBlock b.prev with
      | none => .error ⟨.forkDbBlockNotFound, "block $\x7bid\x7d does not exist"⟩
      | some p => do
        let (branch, last) ← db.walkDown stop fuel p.toBlockData
        pure (b :: branch, last)
    else .ok ([], b)

def walkDownBoth (db : ForkDatabase Key Sig) :
    Nat → BlockData Key Sig → BlockData Key Sig →
      Result (List (BlockData Key Sig) × List (BlockData Key Sig))
  | 0, _, _ => .error ⟨.undefined, "endless loop"⟩
  | fuel + 1, a, b =>
    if a.prev ≠ b.prev then
      match db.getBlock a.prev, db.getBlock b.prev with
      | some p, some q => do
        let (first, second) ← db.walkDownBoth fuel p.toBlockData q.toBlockData
        pure (a :: first, b :: second)
      | _, _ => .error ⟨.forkDbBlockNotFound, "either block $\x7bfid\x7d or $\x7bsid\x7d does not exist"⟩
    else .ok ([a], [b])

def fetchBranchFrom (db : ForkDatabase Key Sig) (first second : BlockId) :
    Result (List (BlockData Key Sig) × List (BlockData Key Sig)) :=
  match db.getBlock first, db.getBlock second with
  | some a, some b => do
    let (firstBranch, a') ← db.walkDown b.blockNum db.index.size a.toBlockData
    let (secondBranch, b') ← db.walkDown a'.blockNum db.index.size b.toBlockData
    let (first, second) ← db.walkDownBoth db.index.size a' b'
    pure (firstBranch ++ first, secondBranch ++ second)
  | _, _ => .error ⟨.undefined, "null block state"⟩

end ForkDatabase

namespace Hosted
variable {Key Sig ε : Type}

def setIndex (w : Hosted Key Sig ε) (index : ForkMultiIndex Key Sig) : Hosted Key Sig ε :=
  { w with forkDb := { w.forkDb with index := index } }

def withForkDb (w : Hosted Key Sig ε) : Attempt (ForkDatabase Key Sig) → Attempt (Hosted Key Sig ε)
  | .ok db => .ok { w with forkDb := db }
  | .throw e db => .throw e { w with forkDb := db }

/-- `prune` without its first loop: `h` is signalled and erased, and the other blocks of its
number are removed with everything built on them. -/
def pruneLevel (slot : Slot Key Sig ε) (h : BlockData Key Sig) (w : Hosted Key Sig ε) :
    Attempt (Hosted Key Sig ε) :=
  (if (w.forkDb.getBlock h.id).isSome then
    (slot h w).andThen fun w => .ok (w.setIndex (w.forkDb.index.erase h.id))
  else .ok w).andThen fun w =>
    w.withForkDb (w.forkDb.removeLevel h.blockNum (w.forkDb.index.size + 1)
      ((w.forkDb.index.byBlockNum.find? fun b => h.blockNum ≤ b.blockNum).map fun b => b.id))

/-- The first loop of `prune`. The recursive call is on the first block, below which there is
nothing left to loop over. -/
def pruneBelow (slot : Slot Key Sig ε) (num : Nat) :
    Nat → Hosted Key Sig ε → Attempt (Hosted Key Sig ε)
  | 0, w => .ok w
  | fuel + 1, w =>
    match w.forkDb.index.byBlockNum.head? with
    | none => .ok w
    | some b =>
      if b.blockNum < num then
        (pruneLevel slot b.toBlockData w).andThen (pruneBelow slot num fuel)
      else .ok w

def prune (slot : Slot Key Sig ε) (h : BlockData Key Sig) (w : Hosted Key Sig ε) :
    Attempt (Hosted Key Sig ε) :=
  (pruneBelow slot h.blockNum w.forkDb.index.size w).andThen (pruneLevel slot h)

def chooseHead (w : Hosted Key Sig ε) : Hosted Key Sig ε :=
  { w with forkDb := { w.forkDb with head := w.forkDb.index.byLibBlockNum.head? } }

/-- The last part of `add`: the oldest block is pruned when the head says that it is
irreversible. -/
def settle (slot : Slot Key Sig ε) (w : Hosted Key Sig ε) : Attempt (Hosted Key Sig ε) :=
  match w.forkDb.head, w.forkDb.index.byBlockNum.head? with
  | some head, some oldest =>
    if oldest.blockNum < head.dposIrreversibleBlocknum then prune slot oldest.toBlockData w
    else .ok w
  | _, _ => .ok w

def validatePrevious (n : BlockState Key Sig) (skipValidatePrevious : Bool)
    (w : Hosted Key Sig ε) : Attempt (Hosted Key Sig ε) :=
  if skipValidatePrevious then .ok w
  else
    match n.block with
    | none => .throw ⟨.undefined, "null block"⟩ w
    | some block =>
      Outcome.require ((w.forkDb.getBlock block.previous).isSome = true)
        ⟨.unlinkableBlock, "unlinkable block"⟩ w

def add (slot : Slot Key Sig ε) (n : BlockState Key Sig) (skipValidatePrevious : Bool)
    (w : Hosted Key Sig ε) : Attempt (Hosted Key Sig ε) :=
  (Outcome.require (w.forkDb.head.isSome = true) ⟨.forkDbBlockNotFound, "no head block set"⟩
    w).andThen fun w =>
  (validatePrevious n skipValidatePrevious w).andThen fun w =>
  match w.forkDb.index.insert n with
  | none => .throw ⟨.forkDatabase, "duplicate block added?"⟩ w
  | some index => settle slot (w.setIndex index).chooseHead

/-- `close` writes the blocks and the head to the file and then prunes the oldest block if it
is irreversible. The blocks are written in the order of the hashed index, which is left open. -/
def close (slot : Slot Key Sig ε) (w : Hosted Key Sig ε) : Attempt (Hosted Key Sig ε) :=
  (match w.forkDb.head, w.forkDb.index.byBlockNum.head? with
  | some head, some oldest =>
    if oldest.blockNum ≤ head.dposIrreversibleBlocknum then prune slot oldest.toBlockData w
    else .ok w
  | _, _ => .ok w).andThen fun w => .ok (w.setIndex .empty)

end Hosted

def ForkDatabase.ofGenesis {Key Sig : Type} (g : BlockState Key Sig) :
    ForkDatabase Key Sig where
  index := (ForkMultiIndex.empty.insert g).getD .empty
  head := some g.toBlockData

/-- The constructor of the fork database, reading the file that `close` left: the blocks in
some order, and the id of the head. -/
def ForkDatabase.open {Key Sig : Type} (C : Crypto Key Sig) (blocks : List (BlockState Key Sig))
    (headId : BlockId) : Attempt (ForkDatabase Key Sig) :=
  (Outcome.forEach (fun s db => ForkDatabase.set C db s) blocks
    { index := .empty, head := none }).andThen fun db =>
  .ok { db with head := (db.getBlock headId).map BlockState.toBlockData }

end DimensionChain
