import DimensionChain.Base.FlatMap
import DimensionChain.Base.OrderStatistic
import DimensionChain.Chain.Merkle

/-!
# The header state machine

The functions of `block_header_state.cpp`. The confirmation counters are bytes, the numbers of
blocks are unsigned 32-bit values. `setConfirmed` runs its loop from the newest entry backwards,
so the loop is a recursion over the reversed vector.
-/

namespace DimensionChain

namespace Config

/-- The name `eonio` in base 32. -/
def systemAccountName : AccountName := 6135848828059779072

def producerRepetitions : Nat := 12

def maxProducers : Nat := 125

def maximumTrackedDposConfirmations : Nat := 1024

def blockIntervalMs : Nat := 500

def blockTimestampEpoch : Nat := 946684800000

end Config

def blockTime (slot : Nat) : Int := (slot * Config.blockIntervalMs + Config.blockTimestampEpoch) * 1000

lemma blockTime_lt {a b : Nat} (h : a < b) : blockTime a < blockTime b := by
  unfold blockTime Config.blockIntervalMs
  omega

structure BlockHeaderState (Key Sig : Type) where
  id : BlockId := default
  blockNum : Nat := 0
  header : SignedBlockHeader Key Sig
  dposProposedIrreversibleBlocknum : Nat := 0
  dposIrreversibleBlocknum : Nat := 0
  bftIrreversibleBlocknum : Nat := 0
  pendingScheduleLibNum : Nat := 0
  pendingScheduleHash : Digest := default
  pendingSchedule : ProducerSchedule Key := {}
  activeSchedule : ProducerSchedule Key := {}
  blockrootMerkle : IncrementalMerkle := {}
  producerToLastProduced : FlatMap AccountName Nat := .empty
  producerToLastImpliedIrb : FlatMap AccountName Nat := .empty
  blockSigningKey : Key
  confirmCount : List Nat := []
  confirmations : List (HeaderConfirmation Sig) := []

instance {Key Sig : Type} [Inhabited Key] [Inhabited Sig] :
    Inhabited (BlockHeaderState Key Sig) :=
  ⟨{ header := default, blockSigningKey := default }⟩

/-- The `required_confs` of a schedule: two thirds, one half or one third of the
producers, plus one. Any other consensus type keeps the two-thirds default. -/
def ProducerSchedule.requiredConfs {Key : Type} (s : ProducerSchedule Key) : Nat :=
  if s.consensusType = 0 then s.producers.length * 2 / 3 + 1
  else if s.consensusType = 1 then s.producers.length / 2 + 1
  else if s.consensusType = 2 then s.producers.length / 3 + 1
  else s.producers.length * 2 / 3 + 1

/-- The loop of `set_confirmed` over the counters, newest first: `blocksToConfirm` is
counted down and `j` is the distance from the head block. A counter that reaches zero
ends the loop, and it and everything older are dropped. -/
def confirmBack : List Nat → Nat → Nat → List Nat × Option Nat
  | [], _, _ => ([], none)
  | e :: es, 0, _ => (e :: es, none)
  | e :: es, blocksToConfirm + 1, j =>
    let e' := (e + 255) % 256
    if e' = 0 then ([], some j)
    else
      let (rest, hit) := confirmBack es blocksToConfirm (j + 1)
      (e' :: rest, hit)

namespace BlockHeaderState
variable {Key Sig : Type} [Inhabited Key] [Inhabited Sig]

/-- `none` is the division by zero of an empty schedule. -/
def getScheduledProducer (s : BlockHeaderState Key Sig) (slot : Nat) : Option (ProducerKey Key) :=
  let index := slot % (s.activeSchedule.producers.length * Config.producerRepetitions)
  if s.activeSchedule.producers.length = 0 then none
  else s.activeSchedule.producers[index / Config.producerRepetitions]?

def calcDposLastIrreversible (s : BlockHeaderState Key Sig) : Nat :=
  let blocknums := s.producerToLastImpliedIrb.values
  if blocknums.length = 0 then 0
  else OrderStatistic.nthSmallest blocknums ((blocknums.length - 1) / 3) 0

/-- The confirmation counters grown by one, without the oldest at the tracking maximum. -/
def growConfirmCount (s : BlockHeaderState Key Sig) : List Nat :=
  if s.confirmCount.length < Config.maximumTrackedDposConfirmations then
    s.confirmCount ++ [s.activeSchedule.requiredConfs % 256]
  else s.confirmCount.drop 1 ++ [s.activeSchedule.requiredConfs % 256]

def template (C : Crypto Key Sig) (s : BlockHeaderState Key Sig) (slot : Nat)
    (prokey : ProducerKey Key) : BlockHeaderState Key Sig :=
  let implied := s.producerToLastImpliedIrb.set prokey.producerName
    s.dposProposedIrreversibleBlocknum
  let result : BlockHeaderState Key Sig :=
    { header :=
        { timestamp := slot
          previous := s.id
          scheduleVersion := s.activeSchedule.version
          consensusType := s.activeSchedule.consensusType
          producer := prokey.producerName
          producerSignature := default }
      blockSigningKey := prokey.blockSigningKey
      pendingScheduleLibNum := s.pendingScheduleLibNum
      pendingScheduleHash := s.pendingScheduleHash
      blockNum := u32 (s.blockNum + 1)
      producerToLastProduced :=
        s.producerToLastProduced.set prokey.producerName (u32 (s.blockNum + 1))
      blockrootMerkle := s.blockrootMerkle.append C s.id
      activeSchedule := s.activeSchedule
      pendingSchedule := s.pendingSchedule
      dposProposedIrreversibleBlocknum := s.dposProposedIrreversibleBlocknum
      bftIrreversibleBlocknum := s.bftIrreversibleBlocknum
      producerToLastImpliedIrb := implied
      confirmCount := s.growConfirmCount }
  { result with dposIrreversibleBlocknum := result.calcDposLastIrreversible }

def generateNext (C : Crypto Key Sig) (s : BlockHeaderState Key Sig) (slot : Nat) :
    Result (BlockHeaderState Key Sig) := do
  let slot ←
    if slot ≠ 0 then do
      eosAssert (slot > s.header.timestamp) .blockValidate "next block must be in the future"
      pure slot
    else pure (u32 (s.header.timestamp + 1))
  match s.getScheduledProducer slot with
  | none => .error ⟨.undefined, "empty producer schedule"⟩
  | some prokey => pure (s.template C slot prokey)

def zeroedBlock (s : BlockHeaderState Key Sig) (numPrevBlocks : Nat) : Option Nat :=
  (confirmBack s.confirmCount.reverse (numPrevBlocks + 1) 0).2.map (sub32 s.blockNum)

def setConfirmed (s : BlockHeaderState Key Sig) (numPrevBlocks : Nat) :
    BlockHeaderState Key Sig :=
  { s with
    header := { s.header with confirmed := numPrevBlocks }
    confirmCount := (confirmBack s.confirmCount.reverse (numPrevBlocks + 1) 0).1.reverse
    dposProposedIrreversibleBlocknum :=
      (s.zeroedBlock numPrevBlocks).getD s.dposProposedIrreversibleBlocknum }

/-- One of the two loops of `maybe_promote_pending`: the producers of the new schedule keep
their entry of the old map, the others start at `lib`. -/
def reselect (producers : List (ProducerKey Key)) (old : FlatMap AccountName Nat) (lib : Nat) :
    FlatMap AccountName Nat :=
  producers.foldl (fun m pro =>
    m.set pro.producerName ((old.find? pro.producerName).getD lib)) .empty

def promotesPending (s : BlockHeaderState Key Sig) : Bool :=
  s.pendingSchedule.producers.length ≠ 0 ∧ s.dposIrreversibleBlocknum ≥ s.pendingScheduleLibNum

def maybePromotePending (s : BlockHeaderState Key Sig) : BlockHeaderState Key Sig × Bool :=
  if s.promotesPending then
    ({ s with
        activeSchedule := s.pendingSchedule
        -- a moved-from schedule keeps its version and consensus type
        pendingSchedule := { s.pendingSchedule with producers := [] }
        producerToLastProduced :=
          (reselect s.pendingSchedule.producers s.producerToLastProduced
            s.dposIrreversibleBlocknum).set s.header.producer s.blockNum
        producerToLastImpliedIrb :=
          reselect s.pendingSchedule.producers s.producerToLastImpliedIrb
            s.dposIrreversibleBlocknum }, true)
  else (s, false)

def setNewProducers (C : Crypto Key Sig) (s : BlockHeaderState Key Sig)
    (pending : ProducerSchedule Key) : Result (BlockHeaderState Key Sig) := do
  eosAssert (pending.version = u32 (s.activeSchedule.version + 1)) .producerSchedule
    "wrong producer schedule version specified"
  eosAssert (s.pendingSchedule.producers.length = 0) .producerSchedule
    "cannot set new pending producers until last pending is confirmed"
  pure { s with
    header := { s.header with newProducers := some pending }
    pendingScheduleHash := C.scheduleDigest pending
    pendingSchedule := pending
    pendingScheduleLibNum := s.blockNum }

def sigDigest (C : Crypto Key Sig) (s : BlockHeaderState Key Sig) : Digest :=
  C.pairDigest (C.pairDigest (C.headerDigest s.header.toBlockHeader) s.blockrootMerkle.getRoot)
    s.pendingScheduleHash

def signee (C : Crypto Key Sig) (s : BlockHeaderState Key Sig) : Result Key :=
  match C.recoverKey s.header.producerSignature (s.sigDigest C) with
  | none => .error ⟨.crypto, "unable to recover public key from signature"⟩
  | some key => .ok key

def verifySignee [DecidableEq Key] (s : BlockHeaderState Key Sig) (key : Key) : Result Unit :=
  eosAssert (s.blockSigningKey = key) .wrongSigningKey "block not signed by expected key"

/-- The double-confirm test of `next`: the producer's last block lies before the range
that the header confirms. The subtraction is unsigned. -/
def doubleConfirmOk (s : BlockHeaderState Key Sig) (blockNum : Nat) (producer : AccountName)
    (confirmed : Nat) : Bool :=
  match s.producerToLastProduced.find? producer with
  | none => true
  | some last => last < sub32 blockNum confirmed

/-- The two roots and the signature are taken from the header, then the id is computed. -/
def copyHeader (C : Crypto Key Sig) (result : BlockHeaderState Key Sig)
    (h : SignedBlockHeader Key Sig) : BlockHeaderState Key Sig :=
  let header : SignedBlockHeader Key Sig :=
    { result.header with
      actionMroot := h.actionMroot
      transactionMroot := h.transactionMroot
      producerSignature := h.producerSignature }
  { result with header := header, id := header.toBlockHeader.id C }

/-- What `next` does after the checks on the template: confirmations, promotion, the new
pending schedule and the fields copied from the header. -/
def adopt (C : Crypto Key Sig) (result : BlockHeaderState Key Sig)
    (h : SignedBlockHeader Key Sig) : Result (BlockHeaderState Key Sig) := do
  let (result, wasPendingPromoted) := (result.setConfirmed h.confirmed).maybePromotePending
  let result ←
    match h.newProducers with
    | none => pure result
    | some sch => do
      eosAssert (wasPendingPromoted = false) .producerSchedule
        "cannot set pending producer schedule in the same block in which pending was promoted to active"
      result.setNewProducers C sch
  pure (result.copyHeader C h)

def next [DecidableEq Key] (C : Crypto Key Sig) (s : BlockHeaderState Key Sig)
    (h : SignedBlockHeader Key Sig) (skipValidateSignee : Bool) :
    Result (BlockHeaderState Key Sig) := do
  eosAssert (h.timestamp ≠ 0) .blockValidate ""
  eosAssert (h.headerExtensions.length = 0) .blockValidate "no supported extensions"
  eosAssert (h.timestamp > s.header.timestamp) .blockValidate "block must be later in time"
  eosAssert (h.previous = s.id) .unlinkableBlock "block must link to current state"
  let result ← s.generateNext C h.timestamp
  eosAssert (result.header.producer = h.producer) .wrongProducer "wrong producer specified"
  eosAssert (result.header.scheduleVersion = h.scheduleVersion) .producerSchedule
    "schedule_version in signed block is corrupted"
  eosAssert (s.doubleConfirmOk result.blockNum h.producer h.confirmed) .producerDoubleConfirm
    "producer $\x7bprod\x7d double-confirming known range"
  let result ← result.adopt C h
  if !skipValidateSignee then do
    let key ← result.signee C
    result.verifySignee key
  pure result

end BlockHeaderState

def initialSchedule {Key : Type} (initialKey : Key) : ProducerSchedule Key :=
  { version := 0, consensusType := 0, producers := [⟨Config.systemAccountName, initialKey⟩] }

def genesisHeaderState {Key Sig : Type} [Inhabited Key] [Inhabited Sig] (C : Crypto Key Sig)
    (initialTimestamp : Nat) (chainId : Digest) (initialSchedule : ProducerSchedule Key) :
    BlockHeaderState Key Sig :=
  let header : SignedBlockHeader Key Sig :=
    { timestamp := initialTimestamp, actionMroot := chainId, producerSignature := default }
  { header := header
    activeSchedule := initialSchedule
    pendingSchedule := initialSchedule
    pendingScheduleHash := C.scheduleDigest initialSchedule
    id := header.toBlockHeader.id C
    blockNum := header.toBlockHeader.blockNum
    blockSigningKey := default }

/-- A concrete interface for running the model: a header digest is its slot and consensus
type, and a signature is the signing key itself. -/
def plainCrypto : Crypto Nat Nat where
  headerDigest h := ⟨0, UInt64.ofNat h.timestamp, UInt64.ofNat h.consensusType.toNat, 0⟩
  scheduleDigest s := ⟨0, UInt64.ofNat s.version, 0, 0⟩
  pairDigest a b := ⟨a.hash0 + b.hash0, a.hash1 + b.hash1, a.hash2 + b.hash2, a.hash3 + b.hash3⟩
  recoverKey sig _ := some sig

end DimensionChain
