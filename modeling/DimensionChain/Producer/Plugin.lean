import DimensionChain.Chain.PendingBlock

/-!
# The producer plugin

For each producer the plugin keeps a watermark, the number of the last block that it is known to
have confirmed. `onBlock` is called for every block that the controller accepts, `startBlock`
begins a block on the head, and `produceBlock` finishes it. The controller is its head state and
the pending block; the clock, the database and the signature are inputs.
-/

namespace DimensionChain

inductive PendingBlockMode where
  | producing | speculating
  deriving DecidableEq, Repr

structure ProducerConfig (Key : Type) where
  producers : List AccountName
  signatureProviders : List Key
  startTime : Int

structure ProducerState (Key Sig : Type) where
  lastSignedBlockTime : Int := 0
  lastSignedBlockNum : Nat := 0
  producerWatermarks : FlatMap AccountName Nat := .empty
  pendingBlockMode : PendingBlockMode := .speculating
  head : BlockHeaderState Key Sig
  pending : Option (BlockHeaderState Key Sig) := none

structure StartInput (Key : Type) where
  /-- The clock, in microseconds. -/
  now : Int
  productionEnabled : Bool := true
  pauseProduction : Bool := false
  irreversibleTooOld : Bool := false
  readMode : DbReadMode := .speculative
  gpo : GlobalProperty Key := {}
  /-- The database of the controller does not start the block. -/
  fails : Bool := false

structure ProduceInput (Sig : Type) where
  actionDigests : List Digest
  trxDigests : List Digest
  signature : Sig
  /-- The controller does not finalize, sign or commit the block. -/
  fails : Bool := false

namespace ProducerState
variable {Key Sig : Type} [DecidableEq Key] [Inhabited Key] [Inhabited Sig]
  (C : Crypto Key Sig) (config : ProducerConfig Key)

/-- The slot that a point of time, in microseconds, is converted to: the difference to the epoch is
unsigned, and 32 bits of the quotient are kept. -/
def slotOf (time : Int) : Nat :=
  u32 (((time.tdiv 1000 - Config.blockTimestampEpoch) % 2 ^ 64).toNat / Config.blockIntervalMs)

/-- A block is regarded when its slot is after those of the last signed block and of the start. -/
def regards (s : ProducerState Key Sig) (bsp : BlockHeaderState Key Sig) : Bool :=
  slotOf s.lastSignedBlockTime < bsp.header.timestamp ∧
    slotOf config.startTime < bsp.header.timestamp ∧ s.lastSignedBlockNum < bsp.blockNum

/-- A local producer that is active but not the producer of the block confirms the block. -/
def confirms (bsp : BlockHeaderState Key Sig) (producer : AccountName) : Bool :=
  match bsp.activeSchedule.producers.find? fun k => k.producerName = producer with
  | none => false
  | some k => producer ≠ bsp.header.producer ∧ k.blockSigningKey ∈ config.signatureProviders

def newProducers (bsp : BlockHeaderState Key Sig) : List AccountName :=
  -- the slot after the last one does not exist
  if bsp.header.timestamp + 1 < 4294967296 then
    match bsp.generateNext C (bsp.header.timestamp + 1) with
    | .error _ => []
    | .ok newBs =>
      let (newBs, promoted) := newBs.maybePromotePending
      if promoted ∧ bsp.activeSchedule.version ≠ newBs.activeSchedule.version then
        newBs.activeSchedule.names.filter fun p =>
          p ∈ config.producers ∧ p ∉ bsp.activeSchedule.names
      else []
  else []

def confirmBlock (s : ProducerState Key Sig) (bsp : BlockHeaderState Key Sig) :
    ProducerState Key Sig :=
  if config.producers.any (confirms config bsp) then
    { s with
      lastSignedBlockTime := blockTime bsp.header.timestamp
      lastSignedBlockNum := bsp.blockNum }
  else s

def setWatermarks (s : ProducerState Key Sig) (producers : List AccountName) (blockNum : Nat) :
    ProducerState Key Sig :=
  { s with
    producerWatermarks := producers.foldl (fun m p => m.set p blockNum) s.producerWatermarks }

def onBlock (s : ProducerState Key Sig) (bsp : BlockHeaderState Key Sig) : ProducerState Key Sig :=
  if s.regards config bsp then
    (s.confirmBlock config bsp).setWatermarks (newProducers C config bsp) bsp.blockNum
  else s

/-- The next slot after the clock and the head that leaves at least a tenth of its length. -/
def calculatePendingBlockTime (s : ProducerState Key Sig) (now : Int) : Int :=
  let base := max now (blockTime s.head.header.timestamp)
  let time := base + (500000 - base % 500000)
  if time - now < 50000 then time + 500000 else time

def pendingSlot (s : ProducerState Key Sig) (input : StartInput Key) : Nat :=
  slotOf (s.calculatePendingBlockTime input.now)

def startMode (s : ProducerState Key Sig) (input : StartInput Key) (scheduled : ProducerKey Key) :
    PendingBlockMode :=
  if input.productionEnabled = false then .speculating
  else if scheduled.producerName ∉ config.producers then .speculating
  else if scheduled.blockSigningKey ∉ config.signatureProviders then .speculating
  else if input.pauseProduction then .speculating
  else if input.irreversibleTooOld then .speculating
  else
    match s.producerWatermarks.find? scheduled.producerName with
    | none => .producing
    | some watermark =>
      if watermark ≥ u32 (s.head.blockNum + 1) then .speculating else .producing

def blocksToConfirm (s : ProducerState Key Sig) (producer : AccountName) : Nat :=
  match s.producerWatermarks.find? producer with
  | none => 0
  | some watermark =>
    if watermark < s.head.blockNum then min 65535 (sub32 s.head.blockNum watermark % 65536) else 0

def startPending (s : ProducerState Key Sig) (input : StartInput Key) (confirm : Nat) :
    Option (BlockHeaderState Key Sig) :=
  if input.fails then none
  else
    match s.head.startBlock C (s.pendingSlot input) confirm input.readMode .incomplete input.gpo with
    | .error _ => none
    | .ok (p, _) => some p

def startBlock (s : ProducerState Key Sig) (input : StartInput Key) :
    Result (ProducerState Key Sig) :=
  if input.readMode = .readOnly then .ok s
  else
    match s.head.getScheduledProducer (s.pendingSlot input) with
    | none => .error ⟨.undefined, "empty producer schedule"⟩
    | some scheduled =>
      match s.startMode config input scheduled with
      | .speculating =>
        -- a pending block of an earlier start is left where it is
        if input.now - blockTime s.head.header.timestamp > 5000000 then .ok { s with
          pendingBlockMode := .speculating }
        else .ok { s with
          pendingBlockMode := .speculating
          pending := s.startPending C input 0 }
      | .producing =>
        let pending := s.startPending C input (s.blocksToConfirm scheduled.producerName)
        if ∃ p ∈ pending, p.blockSigningKey ≠ scheduled.blockSigningKey then
          .ok { s with pendingBlockMode := .speculating, pending := pending }
        else .ok { s with pendingBlockMode := .producing, pending := pending }

def produced (s : ProducerState Key Sig) (input : ProduceInput Sig) :
    Option (BlockHeaderState Key Sig) :=
  match s.pendingBlockMode, s.pending with
  | .producing, some p =>
    if p.blockSigningKey ∈ config.signatureProviders ∧ input.fails = false then
      some ((p.finalizeBlock C input.actionDigests input.trxDigests).signBlock input.signature)
    else none
  | _, _ => none

/-- The committed block is the new head, and `on_block` hears of it before the watermark of its
producer is set. A block that is not finished is aborted. -/
def produceBlock (s : ProducerState Key Sig) (input : ProduceInput Sig) : ProducerState Key Sig :=
  match s.produced C config input with
  | none => { s with pending := none }
  | some b =>
    ({ s with head := b, pending := none }.onBlock C config b).setWatermarks [b.header.producer]
      b.blockNum

end ProducerState

/-- What happens to a producer plugin. Between its own calls the controller accepts blocks, and
its head changes. -/
inductive ProducerEvent (Key Sig : Type) where
  | accepted (bsp : BlockHeaderState Key Sig)
  | headChanged (head : BlockHeaderState Key Sig)
  | startBlock (input : StartInput Key)
  | produceBlock (input : ProduceInput Sig)

namespace ProducerState
variable {Key Sig : Type} [DecidableEq Key] [Inhabited Key] [Inhabited Sig]

def step (C : Crypto Key Sig) (config : ProducerConfig Key) (s : ProducerState Key Sig) :
    ProducerEvent Key Sig → Result (ProducerState Key Sig)
  | .accepted bsp => .ok (s.onBlock C config bsp)
  | .headChanged head => .ok { s with head := head, pending := none }
  | .startBlock input => s.startBlock C config input
  | .produceBlock input => .ok (s.produceBlock C config input)

end ProducerState

end DimensionChain
