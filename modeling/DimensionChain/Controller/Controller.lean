import DimensionChain.Base.FlatMap
import DimensionChain.ForkDb.ForkDatabase

/-!
# The controller

Pushing, applying, popping and committing blocks as in `controller.cpp`, with the fork database,
the reversible blocks, the block log and the undo stack of the chain database. Executing the
contents of a block is not modelled; whether it fails is a parameter.
-/

namespace DimensionChain

structure Database where
  revision : Nat
  undoStack : Nat
  deriving DecidableEq, Repr

namespace Database

def startUndoSession (db : Database) : Database := ⟨db.revision + 1, db.undoStack + 1⟩

def undo (db : Database) : Database :=
  if db.undoStack = 0 then db else ⟨db.revision - 1, db.undoStack - 1⟩

def commit (db : Database) (revision : Nat) : Database :=
  { db with undoStack := min db.undoStack (db.revision - revision) }

end Database

structure BlockLog (Key Sig : Type) where
  firstBlockNum : Nat
  blocks : List (SignedBlock Key Sig)

namespace BlockLog
variable {Key Sig : Type}

def head (log : BlockLog Key Sig) : Option (SignedBlock Key Sig) := log.blocks.getLast?

def append (log : BlockLog Key Sig) (b : SignedBlock Key Sig) : Result (BlockLog Key Sig) :=
  if log.blocks.length = sub32 b.blockNum log.firstBlockNum then
    .ok { log with blocks := log.blocks ++ [b] }
  else .error ⟨.blockLogAppendFail, "Append to index file occuring at wrong position."⟩

def readBlockByNum (C : Crypto Key Sig) (log : BlockLog Key Sig) (blockNum : Nat) :
    Result (Option (SignedBlock Key Sig)) :=
  match log.head with
  | none => .ok none
  | some head =>
    if blockNum ≤ numFromId (head.id C) ∧ log.firstBlockNum ≤ blockNum then
      match log.blocks[blockNum - log.firstBlockNum]? with
      | none => .error ⟨.undefined, "read past the end of the index"⟩
      | some b =>
        if b.blockNum = blockNum then .ok (some b)
        else .error ⟨.reversibleBlocks, "Wrong block was read from block log."⟩
    else .ok none

end BlockLog

structure ChainState (Key Sig : Type) where
  head : BlockData Key Sig
  reversibleBlocks : FlatMap Nat (SignedBlock Key Sig)
  blog : BlockLog Key Sig
  db : Database
  readMode : DbReadMode

abbrev Controller (Key Sig : Type) := Hosted Key Sig (ChainState Key Sig)

def BlockStatus.skipDbSessions (s : BlockStatus) : Bool := s = .irreversible

namespace Controller
variable {Key Sig : Type} (C : Crypto Key Sig) (fails : SignedBlock Key Sig → Bool)

/-- `reversible_blocks.create` with its unique key. -/
def createReversible (num : Nat) (block : SignedBlock Key Sig) (c : Controller Key Sig) :
    Attempt (Controller Key Sig) :=
  match c.env.reversibleBlocks.find? num with
  | some _ => .throw ⟨.uniqueness, uniquenessViolated⟩ c
  | none => .ok { c with env := { c.env with
      reversibleBlocks := c.env.reversibleBlocks.set num block } }

/-- `apply_block`. An exception aborts the pending block, so nothing has changed then. -/
def applyBlock (block : Option (SignedBlock Key Sig)) (s : BlockStatus) (c : Controller Key Sig) :
    Attempt (Controller Key Sig) :=
  match block with
  | none => .throw ⟨.undefined, "null block"⟩ c
  | some b =>
    (Outcome.require (b.blockExtensions.length = 0)
      ⟨.blockValidate, "no supported extensions"⟩ c).andThen fun c =>
    (Outcome.require (s.skipDbSessions = true ∨ c.env.db.revision = c.env.head.blockNum)
      ⟨.database, "db revision is not on par with head block"⟩ c).andThen fun c =>
    (Outcome.require (fails b = false) ⟨.blockValidate, "block fails to apply"⟩ c).andThen fun c =>
    (createReversible (u32 (c.env.head.blockNum + 1)) b c).andThen fun c =>
    .ok { c with env := { c.env with
      db := if s.skipDbSessions then c.env.db else c.env.db.startUndoSession } }

def popBlock (c : Controller Key Sig) : Attempt (Controller Key Sig) :=
  match c.forkDb.getBlock c.env.head.prev with
  | none => .throw ⟨.blockValidate, "attempt to pop beyond last irreversible block"⟩ c
  | some prev =>
    let c := { c with env := { c.env with
      reversibleBlocks := c.env.reversibleBlocks.erase c.env.head.blockNum } }
    (Outcome.require (c.env.readMode = .speculative → c.env.head.block.isSome = true)
      ⟨.blockValidate, "attempting to pop a block that was sparsely loaded from a snapshot"⟩
      c).andThen fun c =>
    .ok { c with env := { c.env with head := prev.toBlockData, db := c.env.db.undo } }

def markInCurrentChain (b : BlockData Key Sig) (flag : Bool) (c : Controller Key Sig) :
    Attempt (Controller Key Sig) :=
  match c.forkDb.markInCurrentChain b flag with
  | .error e => .throw e c
  | .ok db => .ok { c with forkDb := db }

def setValidity (b : BlockData Key Sig) (valid : Bool) (c : Controller Key Sig) :
    Controller Key Sig :=
  { c with forkDb := c.forkDb.setValidity b valid }

def setHead (b : BlockData Key Sig) (c : Controller Key Sig) : Controller Key Sig :=
  { c with env := { c.env with head := b } }

def appendToBlog (s : BlockData Key Sig) (c : Controller Key Sig) : Result Bool :=
  match c.env.blog.head with
  | none =>
    if s.block.isSome then do
      eosAssert (s.blockNum = c.env.blog.firstBlockNum) .blockLog
        "block log has no blocks and is appending the wrong first block.  Expected $\x7bexpected\x7d, but received: $\x7bactual\x7d"
      pure true
    else do
      eosAssert (s.blockNum = sub32 c.env.blog.firstBlockNum 1) .blockLog
        "block log has no blocks and is not properly set up to start after the snapshot"
      pure false
  | some logHead =>
    if logHead.blockNum < s.blockNum then do
      eosAssert (s.blockNum - 1 = logHead.blockNum) .unlinkableBlock "unlinkable block"
      match s.block with
      | none => .error ⟨.undefined, "null block"⟩
      | some block =>
        eosAssert (block.previous = logHead.id C) .unlinkableBlock
          "irreversible doesn't link to block log head"
        pure true
    else pure false

def dropReversible (num : Nat) (m : FlatMap Nat (SignedBlock Key Sig)) :
    FlatMap Nat (SignedBlock Key Sig) :=
  ⟨m.entries.filter fun e => num < e.1, m.sorted.sublist (List.filter_sublist.map _)⟩

/-- The part of `on_irreversible` that only a node in irreversible mode runs. -/
def applyIrreversible (s : BlockData Key Sig) (c : Controller Key Sig) :
    Attempt (Controller Key Sig) :=
  (if s.blockNum = c.env.head.blockNum + 1 then
    (applyBlock fails s.block .complete c).andThen fun c => .ok (setHead s c)
  else
    Outcome.require (c.env.head.blockNum = 1) ⟨.blockValidate,
      "Attempting to re-apply an irreversible block that was not the implied genesis block"⟩
      c).andThen fun c =>
  (markInCurrentChain c.env.head true c).andThen fun c =>
  .ok (setValidity c.env.head true c)

def onIrreversible : Slot Key Sig (ChainState Key Sig) := fun s c =>
  match appendToBlog C s c with
  | .error e => .throw e c
  | .ok append =>
    let c : Controller Key Sig := { c with env := { c.env with db := c.env.db.commit s.blockNum } }
    let appended := match append, s.block with
      | true, some block => c.env.blog.append block
      | _, _ => .ok c.env.blog
    match appended with
    | .error e => .throw e c
    | .ok blog =>
      let c : Controller Key Sig := { c with env := { c.env with
        blog := blog
        reversibleBlocks := dropReversible s.blockNum c.env.reversibleBlocks } }
      if s.block.isSome = true ∧ c.env.readMode = .irreversible then applyIrreversible fails s c
      else .ok c

def leave (b : BlockData Key Sig) (c : Controller Key Sig) : Attempt (Controller Key Sig) :=
  (markInCurrentChain b false c).andThen popBlock

def branchStatus (b : BlockData Key Sig) (c : Controller Key Sig) : BlockStatus :=
  if (c.forkDb.getBlock b.id).any (fun s => s.validated) then .validated else .complete

def enter (b : BlockData Key Sig) (c : Controller Key Sig) : Attempt (Controller Key Sig) :=
  (applyBlock fails b.block (branchStatus b c) c).andThen fun c =>
  (markInCurrentChain b true (setHead b c)).andThen fun c => .ok (setValidity b true c)

def reenter (b : BlockData Key Sig) (c : Controller Key Sig) : Attempt (Controller Key Sig) :=
  (applyBlock fails b.block .validated c).andThen fun c => markInCurrentChain b true (setHead b c)

def requireForkPoint (second : List (BlockData Key Sig)) (message : String)
    (c : Controller Key Sig) : Attempt (Controller Key Sig) :=
  Outcome.require (some c.env.head.id = second.getLast?.map fun b => b.prev)
    ⟨.forkDatabase, message⟩ c

/-- The way back from a branch whose block `b` has failed after the blocks `applied`, newest
first: the exception `e` is thrown again at the end. -/
def switchBack (e : ChainException) (b : BlockData Key Sig)
    (applied second : List (BlockData Key Sig)) (c : Controller Key Sig) :
    Attempt (Controller Key Sig) :=
  (Outcome.forEach leave applied (setValidity b false c)).andThen fun c =>
  (requireForkPoint second
    "loss of sync between fork_db and chainbase during fork switch reversal" c).andThen fun c =>
  (Outcome.forEach (reenter fails) second.reverse c).andThen fun c => .throw e c

def enterBranch (second : List (BlockData Key Sig)) :
    List (BlockData Key Sig) → List (BlockData Key Sig) → Controller Key Sig →
      Attempt (Controller Key Sig)
  | [], _, c => .ok c
  | b :: todo, applied, c =>
    match enter fails b c with
    | .ok c => enterBranch second todo (b :: applied) c
    | .throw e c => switchBack fails e b applied second c

def maybeSwitchForks (s : BlockStatus) (c : Controller Key Sig) : Attempt (Controller Key Sig) :=
  match c.forkDb.head with
  | none => .throw ⟨.undefined, "null block state"⟩ c
  | some newHead =>
    if newHead.prev = c.env.head.id then
      ((applyBlock fails newHead.block s c).andThen fun c =>
        (markInCurrentChain newHead true c).andThen fun c =>
        .ok (setHead newHead (setValidity newHead true c))).handle fun e c =>
      .throw e (setValidity newHead false c)
    else if newHead.id ≠ c.env.head.id then
      match c.forkDb.fetchBranchFrom newHead.id c.env.head.id with
      | .error e => .throw e c
      | .ok (first, second) =>
        (Outcome.forEach leave second c).andThen fun c =>
        (requireForkPoint second
          "loss of sync between fork_db and chainbase during fork switch" c).andThen fun c =>
        enterBranch fails second first.reverse [] c
    else .ok c

def pushBlock (n : BlockState Key Sig) (c : Controller Key Sig) : Attempt (Controller Key Sig) :=
  (Hosted.add (onIrreversible C fails) n false c).andThen fun c =>
  if c.env.readMode ≠ .irreversible then maybeSwitchForks fails .complete c else .ok c

/-- `start_block` and `commit_block( true )` for a block `n` that the node has produced. The
undo session is open while the block is added; an exception takes it back. -/
def commitBlock (n : BlockState Key Sig) (c : Controller Key Sig) : Attempt (Controller Key Sig) :=
  (Outcome.require (c.env.db.revision = c.env.head.blockNum)
    ⟨.database, "db revision is not on par with head block"⟩ c).andThen fun c =>
  let pending : BlockState Key Sig := { n with validated := true, inCurrentChain := true }
  let c : Controller Key Sig := { c with env := { c.env with db := c.env.db.startUndoSession } }
  ((Hosted.add (onIrreversible C fails) pending true c).andThen fun c =>
    match c.forkDb.head, n.block with
    | some head, some block =>
      (Outcome.require (head.id = n.id) ⟨.forkDatabase,
        "committed block did not become the new head in fork database"⟩
        (setHead head c)).andThen fun c => createReversible n.blockNum block c
    | _, _ => .throw ⟨.undefined, "null block state"⟩ c).handle fun e c =>
  .throw e { c with env := { c.env with db := c.env.db.undo } }

def fetchBlockByNumber (blockNum : Nat) (c : Controller Key Sig) :
    Result (Option (SignedBlock Key Sig)) :=
  match (c.forkDb.getBlockInCurrentChainByNum blockNum).bind fun b => b.block with
  | some block => .ok (some block)
  | none => c.env.blog.readBlockByNum C blockNum

def fetchBlockById (id : BlockId) (c : Controller Key Sig) :
    Result (Option (SignedBlock Key Sig)) :=
  match (c.forkDb.getBlock id).bind fun b => b.block with
  | some block => .ok (some block)
  | none => do
    let block ← fetchBlockByNumber C (numFromId id) c
    pure (block.filter fun b => b.id C = id)

def getBlockIdForNum (blockNum : Nat) (c : Controller Key Sig) : Result BlockId :=
  match c.forkDb.getBlockInCurrentChainByNum blockNum with
  | some b => .ok b.id
  | none => do
    match ← c.env.blog.readBlockByNum C blockNum with
    | none => .error ⟨.unknownBlock, "Could not find block: $\x7bblock\x7d"⟩
    | some block => pure (block.id C)

def lastIrreversibleBlockNum (c : Controller Key Sig) : Nat :=
  max c.env.head.bftIrreversibleBlocknum c.env.head.dposIrreversibleBlocknum

/-- A node that starts with one block state: `initialize_fork_db` and `blog.reset`, for a first
block of any number. -/
def initial (g : BlockState Key Sig) (block : SignedBlock Key Sig) (mode : DbReadMode) :
    Controller Key Sig where
  forkDb := .ofGenesis g
  env :=
    { head := g.toBlockData
      reversibleBlocks := .empty
      blog := ⟨g.blockNum, [block]⟩
      db := ⟨g.blockNum, 0⟩
      readMode := mode }

def resetLog (block : Option (SignedBlock Key Sig)) : Result (BlockLog Key Sig) :=
  match block with
  | none => .ok ⟨1, []⟩
  | some block => BlockLog.append ⟨1, []⟩ block

def requireReversible (c : Controller Key Sig) : Attempt (Controller Key Sig) :=
  match c.env.reversibleBlocks.entries.getLast? with
  | some last =>
    Outcome.require (last.1 = c.env.head.blockNum) ⟨.forkDatabase,
      "reversible block database is inconsistent with fork database, replay blockchain"⟩ c
  | none =>
    Outcome.require (∀ logHead ∈ c.env.blog.head, logHead.blockNum = c.env.head.blockNum)
      ⟨.forkDatabase,
        "fork database exists but reversible block database does not, replay blockchain"⟩ c

def undoTo (num : Nat) : Nat → Database → Database
  | 0, db => db
  | fuel + 1, db => if num < db.revision then undoTo num fuel db.undo else db

/-- `init` without a snapshot. A block log ahead of the head is replayed, which is not
modelled. -/
def init (c : Controller Key Sig) : Attempt (Controller Key Sig) :=
  let log := match c.env.blog.head with
    | none => resetLog c.env.head.block
    | some _ => .ok c.env.blog
  match log with
  | .error e => .throw e c
  | .ok blog =>
    (Outcome.require (∀ logHead ∈ c.env.blog.head, logHead.blockNum ≤ c.env.head.blockNum)
      ⟨.undefined, "replay"⟩ { c with env := { c.env with blog := blog } }).andThen fun c =>
    (requireReversible c).andThen fun c =>
    (Outcome.require (c.env.head.blockNum ≤ c.env.db.revision) ⟨.forkDatabase,
      "fork database is inconsistent with shared memory"⟩ c).andThen fun c =>
    .ok { c with env := { c.env with
      db := undoTo c.env.head.blockNum c.env.db.revision c.env.db } }

/-- The constructor, `startup` and `init` over the files of a closed node: the blocks of the
fork database file in some order and its head id, with the other stores as they were left. -/
def reopen (blocks : List (BlockState Key Sig)) (headId : BlockId) (left : ChainState Key Sig) :
    Attempt (Controller Key Sig) :=
  match ForkDatabase.open C blocks headId with
  | .throw e db => .throw e ⟨db, left⟩
  | .ok db =>
    match db.head with
    | none => .throw ⟨.undefined, "null block state"⟩ ⟨db, left⟩
    | some head => init ⟨db, { left with head := head }⟩

/-- The destructor: the fork database is closed while the signal is still connected. -/
def close (c : Controller Key Sig) : Attempt (Controller Key Sig) :=
  Hosted.close (onIrreversible C fails) c

end Controller

end DimensionChain
