import DimensionChain.Base.Outcome
import DimensionChain.Base.RecordLog
import DimensionChain.Chain.Types

/-!
# The log of the state history plugin

`state_history_log` at the level of its two files. An entry is a header, in its layout in memory,
and a payload; the log has the entries, each followed by its position, and the index has the
positions. Numbers are fixed-width words. A read past the end of a file gives undefined data.
-/

namespace DimensionChain

open Bytes

structure StateHistoryLogHeader where
  blockNum : Nat := 0
  blockId : BlockId := default
  payloadSize : Nat := 0
  version : Nat := 0
  deriving DecidableEq, Repr

namespace StateHistoryLogHeader

/-- The size of a header. The id is aligned to eight bytes, and so is the end; the bytes between
are zero. -/
def size : Nat := 56

def encode (h : StateHistoryLogHeader) : Bytes :=
  ofWord 4 h.blockNum ++ (ofWord 4 0 ++ (ofWord 8 h.blockId.hash0.toNat ++
    (ofWord 8 h.blockId.hash1.toNat ++ (ofWord 8 h.blockId.hash2.toNat ++
      (ofWord 8 h.blockId.hash3.toNat ++ (ofWord 8 h.payloadSize ++
        (ofWord 1 h.version ++ ofWord 7 0)))))))

def field (bytes : Bytes) (pos width : Nat) : Nat := toWord ((bytes.drop pos).take width)

def decode (bytes : Bytes) : StateHistoryLogHeader where
  blockNum := field bytes 0 4
  blockId := ⟨UInt64.ofNat (field bytes 8 8), UInt64.ofNat (field bytes 16 8),
    UInt64.ofNat (field bytes 24 8), UInt64.ofNat (field bytes 32 8)⟩
  payloadSize := field bytes 40 8
  version := field bytes 48 1

end StateHistoryLogHeader

def u64 (n : Nat) : Nat := n % 18446744073709551616

structure StateHistoryLog where
  log : Bytes := []
  index : Bytes := []
  beginBlock : Nat := 0
  endBlock : Nat := 0
  lastBlockId : BlockId := default
  deriving DecidableEq, Repr

namespace StateHistoryLog

def read {α : Type} : Option α → Result α
  | some a => .ok a
  | none => .error ⟨.undefined, "read past the end of the file"⟩

def readHeader (log : Bytes) (pos : Nat) : Result StateHistoryLogHeader := do
  let bytes ← read (log.readAt pos StateHistoryLogHeader.size)
  pure (.decode bytes)

def getPos (s : StateHistoryLog) (blockNum : Nat) : Result Nat :=
  read (s.index.readWord (8 * sub32 blockNum s.beginBlock) 8)

def getEntry (s : StateHistoryLog) (blockNum : Nat) : Result (StateHistoryLogHeader × Bytes) := do
  eosAssert (s.beginBlock ≤ blockNum ∧ blockNum < s.endBlock) .plugin "read non-existing block in $\x7bname\x7d.log"
  let pos ← s.getPos blockNum
  let header ← readHeader s.log pos
  pure (header, s.log.drop (pos + StateHistoryLogHeader.size))

def getBlockId (s : StateHistoryLog) (blockNum : Nat) : Result BlockId := do
  let (header, _) ← s.getEntry blockNum
  pure header.blockId

def truncate (s : StateHistoryLog) (blockNum : Nat) : Result StateHistoryLog :=
  if blockNum ≤ s.beginBlock then
    .ok { s with log := [], index := [], beginBlock := 0, endBlock := 0 }
  else do
    let pos ← s.getPos blockNum
    pure { s with
      log := s.log.take pos
      index := s.index.take (8 * sub32 blockNum s.beginBlock)
      endBlock := blockNum }

def checkEntry (s : StateHistoryLog) (header : StateHistoryLogHeader) (prevId : BlockId) :
    Result Unit := do
  eosAssert (s.beginBlock = s.endBlock ∨ header.blockNum ≤ s.endBlock) .plugin "missed a block in $\x7bname\x7d.log"
  if s.beginBlock ≠ s.endBlock ∧ s.beginBlock < header.blockNum then
    if header.blockNum = s.endBlock then
      eosAssert (prevId = s.lastBlockId) .plugin "missed a fork change in $\x7bname\x7d.log"
    else do
      let prev ← s.getBlockId (header.blockNum - 1)
      eosAssert (prevId = prev) .plugin "missed a fork change in $\x7bname\x7d.log"

def writeEntry (s : StateHistoryLog) (header : StateHistoryLogHeader) (prevId : BlockId)
    (payload : Bytes) : Attempt StateHistoryLog :=
  match s.checkEntry header prevId with
  | .error e => .throw e s
  | .ok _ =>
    match if header.blockNum < s.endBlock then s.truncate header.blockNum else .ok s with
    | .error e => .throw e s
    | .ok s =>
      let pos := s.log.length
      let log := s.log ++ (header.encode ++ payload)
      if log.length = u64 (pos + StateHistoryLogHeader.size + header.payloadSize) then
        .ok {
          log := log ++ ofWord 8 pos
          index := s.index ++ ofWord 8 pos
          beginBlock := if s.beginBlock = s.endBlock then header.blockNum else s.beginBlock
          endBlock := u32 (header.blockNum + 1)
          lastBlockId := header.blockId }
      else .throw ⟨.plugin, "wrote payload with incorrect size to $\x7bname\x7d.log"⟩ { s with log := log }

/-- The last entry of the log. `none` is a corrupt log. -/
def getLastBlock (s : StateHistoryLog) (size : Nat) : Result (Option StateHistoryLog) := do
  let suffix ← read (s.log.readWord (size - 8) 8)
  if suffix > size ∨ u64 (suffix + StateHistoryLogHeader.size) > size then pure none
  else do
    let header ← readHeader s.log suffix
    if u64 (suffix + StateHistoryLogHeader.size + header.payloadSize + 8) ≠ size then pure none
    else if s.beginBlock ≥ u32 (header.blockNum + 1) then pure none
    else pure (some { s with
      endBlock := u32 (header.blockNum + 1)
      lastBlockId := header.blockId })

def soundPrefix (log : Bytes) (size : Nat) : Nat → Nat → Result Nat
  | 0, _ => .error ⟨.undefined, "the loop does not end"⟩
  | rounds + 1, pos =>
    if pos + StateHistoryLogHeader.size > size then pure pos
    else do
      let header ← readHeader log pos
      if header.payloadSize > size ∨
          pos + StateHistoryLogHeader.size + header.payloadSize + 8 > size then pure pos
      else do
        let suffix ← read (log.readWord (pos + StateHistoryLogHeader.size + header.payloadSize) 8)
        if suffix ≠ pos then pure pos
        else soundPrefix log size rounds (pos + StateHistoryLogHeader.size + header.payloadSize + 8)

def recoverBlocks (s : StateHistoryLog) (size : Nat) : Result StateHistoryLog := do
  let pos ← soundPrefix s.log size (size + 1) 0
  match ← getLastBlock { s with log := s.log.take pos } pos with
  | none => .error ⟨.plugin, "recover $\x7bname\x7d.log failed"⟩
  | some s => pure s

def openLog (log : Bytes) : Result StateHistoryLog :=
  if log.length ≥ StateHistoryLogHeader.size then do
    let header ← readHeader log 0
    eosAssert (header.version = 0 ∧
      u64 (StateHistoryLogHeader.size + header.payloadSize + 8) ≤ log.length) .plugin "corrupt $\x7bname\x7d.log (1)"
    let s : StateHistoryLog :=
      { log := log, beginBlock := header.blockNum, lastBlockId := header.blockId }
    match ← s.getLastBlock log.length with
    | none => s.recoverBlocks log.length
    | some s => pure s
  else do
    eosAssert (log.length = 0) .plugin "corrupt $\x7bname\x7d.log (5)"
    pure { log := log }

def indexLoop (log : Bytes) : Nat → Nat → Bytes → Result Bytes
  | 0, _, _ => .error ⟨.undefined, "the loop does not end"⟩
  | rounds + 1, pos, index =>
    if pos < log.length then do
      eosAssert (pos + StateHistoryLogHeader.size ≤ log.length) .plugin "corrupt $\x7bname\x7d.log (6)"
      let header ← readHeader log pos
      let suffixPos := u64 (pos + StateHistoryLogHeader.size + header.payloadSize)
      eosAssert (u64 (suffixPos + 8) ≤ log.length) .plugin "corrupt $\x7bname\x7d.log (7)"
      let suffix ← read (log.readWord suffixPos 8)
      eosAssert (suffix = pos) .plugin "corrupt $\x7bname\x7d.log (8)"
      indexLoop log rounds (u64 (suffixPos + 8)) (index ++ ofWord 8 pos)
    else pure index

def openIndex (s : StateHistoryLog) (index : Bytes) : Result StateHistoryLog :=
  if index.length = 8 * sub32 s.endBlock s.beginBlock then pure { s with index := index }
  else do
    let index ← indexLoop s.log (s.log.length + 1) 0 []
    pure { s with index := index }

def openFiles (log index : Bytes) : Result StateHistoryLog := do
  let s ← openLog log
  s.openIndex index

end StateHistoryLog

structure WriteRequest where
  blockNum : Nat
  blockId : BlockId
  prevId : BlockId
  payload : Bytes
  blockNum_lt : blockNum < 2 ^ 32
  deriving DecidableEq, Repr

def WriteRequest.header (r : WriteRequest) : StateHistoryLogHeader :=
  { blockNum := r.blockNum, blockId := r.blockId, payloadSize := r.payload.length }

end DimensionChain
