import DimensionChain.Base.RecordLog
import DimensionChain.Controller.Controller

/-!
# The files of the block log

`block_log` at the level of its two files. `blocks.log` starts with a version, the number of the
first block, the genesis state and a totem; then come the packed blocks, each followed by its
position. `blocks.index` has the positions. A stream in append mode writes at the end, so a file
is its bytes. How blocks and the genesis state are packed is a parameter.
-/

namespace DimensionChain

structure BlockFiles (Block : Type) where
  head : Option Block := none
  headId : BlockId := default
  blockFile : Bytes := []
  indexFile : Bytes := []
  genesisWrittenToBlockLog : Bool := false
  version : Nat := 0
  firstBlockNum : Nat := 0

structure LogFormat (Key Sig Block Genesis : Type) where
  genesis : Codec Genesis
  block : Codec Block
  signed : Block → SignedBlock Key Sig

namespace BlockFiles

def npos : Nat := 2 ^ 64 - 1

def minSupportedVersion : Nat := 1

def maxSupportedVersion : Nat := 2

def stream {α : Type} : Option α → Result α
  | some a => .ok a
  | none => .error ⟨.streamFailure, "basic_ios::clear: iostream error"⟩

variable {Key Sig Block Genesis : Type} (C : Crypto Key Sig) (F : LogFormat Key Sig Block Genesis)

def append (log : BlockFiles Block) (b : Block) : Result (BlockFiles Block) := do
  eosAssert (log.genesisWrittenToBlockLog = true) .blockLogAppendFail
    "Cannot append to block log until the genesis is first written"
  let pos := log.blockFile.length
  eosAssert (log.indexFile.length = 8 * sub32 (F.signed b).blockNum log.firstBlockNum) .blockLogAppendFail
    "Append to index file occuring at wrong position."
  pure { log with
    blockFile := log.blockFile ++ (F.block.pack b ++ Bytes.ofWord 8 pos)
    indexFile := log.indexFile ++ Bytes.ofWord 8 pos
    head := some b
    headId := (F.signed b).id C }

/-- The files without blocks, marked with a version that is not valid. The head stays what it
was. -/
def writeGenesis (log : BlockFiles Block) (gs : Genesis) (firstBlockNum : Nat) :
    BlockFiles Block :=
  { log with
    blockFile := Bytes.ofWord 4 0 ++ (Bytes.ofWord 4 firstBlockNum ++ (F.genesis.pack gs ++
      Bytes.ofWord 8 npos))
    indexFile := []
    genesisWrittenToBlockLog := true
    version := 0
    firstBlockNum := firstBlockNum }

def setVersion (log : BlockFiles Block) : BlockFiles Block :=
  { log with
    blockFile := Bytes.ofWord 4 maxSupportedVersion ++ log.blockFile.drop 4
    version := maxSupportedVersion }

def reset (log : BlockFiles Block) (gs : Genesis) (firstBlock : Option Block)
    (firstBlockNum : Nat) : Result (BlockFiles Block) := do
  let log := log.writeGenesis F gs firstBlockNum
  let log ←
    match firstBlock with
    | none => pure log
    | some b => log.append C F b
  pure log.setVersion

def readBlock (log : BlockFiles Block) (pos : Nat) : Result (Block × Nat) := do
  let (b, rest) ← stream (F.block.unpack (log.blockFile.drop pos))
  pure (b, log.blockFile.length - rest.length + 8)

def readHead (log : BlockFiles Block) : Result (Option Block) :=
  if log.blockFile.length ≤ 8 then pure none
  else do
    let pos ← stream (log.blockFile.readWord (log.blockFile.length - 8) 8)
    if pos ≠ npos then do
      let (b, _) ← log.readBlock F pos
      pure (some b)
    else pure none

def getBlockPos (log : BlockFiles Block) (blockNum : Nat) : Result Nat :=
  if log.head.isSome ∧ blockNum ≤ numFromId log.headId ∧ log.firstBlockNum ≤ blockNum then
    stream (log.indexFile.readWord (8 * (blockNum - log.firstBlockNum)) 8)
  else pure npos

def readBlockByNum (log : BlockFiles Block) (blockNum : Nat) : Result (Option Block) := do
  let pos ← log.getBlockPos blockNum
  if pos ≠ npos then do
    let (b, _) ← log.readBlock F pos
    eosAssert ((F.signed b).blockNum = blockNum) .reversibleBlocks "Wrong block was read from block log."
    pure (some b)
  else pure none

/-- The loop of `construct_index` over the blocks of the stream. Each round reads a position, so
the length of the file is enough for the number of rounds. -/
def indexLoop (endPos : Nat) : Nat → Nat → Bytes → Bytes → Result Bytes
  | 0, _, _, _ => .error ⟨.undefined, "the loop does not end"⟩
  | rounds + 1, pos, input, index =>
    if pos < endPos then do
      let (_, input) ← stream (F.block.unpack input)
      let pos ← stream (input.readWord 0 8)
      indexLoop endPos rounds pos (input.drop 8) (index ++ Bytes.ofWord 8 pos)
    else pure index

def constructIndex (log : BlockFiles Block) : Result (BlockFiles Block) := do
  let endPos ← stream (log.blockFile.readWord (log.blockFile.length - 8) 8)
  let pos := if log.version = 1 then 4 else 8
  let (_, input) ← stream (F.genesis.unpack (log.blockFile.drop pos))
  let input ←
    if log.version > 1 then do
      -- skip the totem
      let _ ← stream (input.readWord 0 8)
      pure (input.drop 8)
    else pure input
  let index ← indexLoop F endPos (log.blockFile.length + 1) pos input []
  pure { log with indexFile := index }

def openVersion (log : BlockFiles Block) : Result (BlockFiles Block) := do
  let version ← stream (log.blockFile.readWord 0 4)
  eosAssert (version > 0) .blockLog "Block log was not setup properly"
  eosAssert (minSupportedVersion ≤ version ∧ version ≤ maxSupportedVersion)
    .blockLogUnsupportedVersion "Unsupported version of block log. Block log version is $\x7bversion\x7d while code supports version(s) [$\x7bmin\x7d,$\x7bmax\x7d]"
  if version > 1 then do
    let firstBlockNum ← stream (log.blockFile.readWord 4 4)
    eosAssert (firstBlockNum > 0) .blockLog
      "Block log is malformed, first recorded block number is 0 but must be greater than or equal to 1"
    pure { log with
      genesisWrittenToBlockLog := true, version := version, firstBlockNum := firstBlockNum }
  else pure { log with genesisWrittenToBlockLog := true, version := version, firstBlockNum := 1 }

/-- An index that ends with another position than the log is built anew. -/
def openIndex (log : BlockFiles Block) : Result (BlockFiles Block) :=
  if log.indexFile.length = 0 then log.constructIndex F
  else do
    let blockPos ← stream (log.blockFile.readWord (log.blockFile.length - 8) 8)
    let indexPos ← stream (log.indexFile.readWord (log.indexFile.length - 8) 8)
    if blockPos < indexPos then log.constructIndex F
    else if blockPos > indexPos then log.constructIndex F
    else pure log

def openFiles (blockFile indexFile : Bytes) : Result (BlockFiles Block) :=
  if blockFile.length = 0 then pure {}
  else do
    let log ← openVersion { blockFile := blockFile, indexFile := indexFile }
    match ← log.readHead F with
    | none => .error ⟨.undefined, "the head is a null pointer"⟩
    | some b => openIndex F { log with head := some b, headId := (F.signed b).id C }

def appendAll (log : BlockFiles Block) :
    List Block → Result (BlockFiles Block)
  | [] => pure log
  | b :: bs => do
    let log ← log.append C F b
    appendAll log bs

end BlockFiles

end DimensionChain
