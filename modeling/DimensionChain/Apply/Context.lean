import DimensionChain.Auth.NativeActions
import DimensionChain.Base.Accepts
import DimensionChain.Controller.Modes

/-!
# The apply context

What a running action can do to the chain database through `apply_context`: store, change and
remove rows, send inline actions, schedule and cancel deferred transactions; and the delaying and
retiring of transactions. Every object that is stored is billed to an account. A row is named by
its table and key instead of an iterator. The size and the id of a transaction are the fields of
`TransactionCodec`, since its serialization comes from a library.
-/

namespace DimensionChain

open Config

namespace Config

def billableAlignment : Nat := 16

def overheadPerRowPerIndexRamBytes : Nat := 32

def transactionIdNetUsage : Nat := 32

def billableSize (value : Nat) : Nat :=
  (value + billableAlignment - 1) / billableAlignment * billableAlignment

def tableIdBillableSize : Nat := billableSize (44 + overheadPerRowPerIndexRamBytes * 2)

def keyValueBillableSize : Nat := billableSize (32 + 8 + 4 + overheadPerRowPerIndexRamBytes * 2)

def generatedTransactionBillableSize : Nat :=
  billableSize (96 + 4 + overheadPerRowPerIndexRamBytes * 5)

end Config

def Auth.ActionData.account {Key : Type} : Auth.ActionData Key → AccountName
  | .other account _ => account
  | _ => systemAccountName

namespace Apply

open Auth

/-- An action as it is sent. `bytes` is its serialized data, of which the checks read what `data`
has. -/
structure SentAction (Key : Type) extends Action Key where
  bytes : List UInt8 := []
  deriving DecidableEq

structure Transaction (Key : Type) where
  expiration : UInt32 := 0
  refBlockNum : Nat := 0
  refBlockPrefix : Nat := 0
  maxNetUsageWords : Nat := 0
  maxCpuUsageMs : Nat := 0
  delaySec : Nat := 0
  contextFreeActions : List (SentAction Key) := []
  actions : List (SentAction Key)
  transactionExtensions : List (Nat × List UInt8) := []
  deriving DecidableEq

/-- `fc::raw::pack_size` and the hash of the packed transaction. What is packed came from the
memory of a contract or from a block, whose sizes are 32-bit numbers. -/
structure TransactionCodec (Key : Type) where
  packSize : Transaction Key → Nat
  packSize_lt : ∀ trx, packSize trx < 4294967296
  id : Transaction Key → Digest

namespace Transaction
variable {Key : Type}

def setReferenceBlock (trx : Transaction Key) (referenceBlock : BlockId) : Transaction Key :=
  { trx with
    refBlockNum := (endianReverseU32 referenceBlock.hash0.toUInt32).toNat % 65536
    refBlockPrefix := referenceBlock.hash1.toNat % 4294967296 }

def firstAuthorizor (trx : Transaction Key) : AccountName :=
  match trx.actions.flatMap (·.authorization) with
  | [] => 0
  | auth :: _ => auth.actor

end Transaction

structure TableIdObject where
  id : Nat
  payer : AccountName
  count : Nat
  deriving DecidableEq, Repr

structure KeyValueObject where
  payer : AccountName
  value : List UInt8
  deriving DecidableEq, Repr

structure GeneratedTransactionObject (Key : Type) where
  trxId : Digest
  payer : AccountName
  delayUntil : Int
  expiration : Int
  published : Int
  packedTrx : Transaction Key
  deriving DecidableEq

def GeneratedTransactionObject.billedSize {Key : Type} (codec : TransactionCodec Key)
    (gto : GeneratedTransactionObject Key) : Int :=
  generatedTransactionBillableSize + codec.packSize gto.packedTrx

def senderIdOf (trxId : Digest) : Nat :=
  (transactionIdToSenderId trxId).1.toNat * 2 ^ 64 + (transactionIdToSenderId trxId).2.toNat

structure Objects (Key : Type) where
  tables : FlatMap (AccountName ×ₗ Nat ×ₗ Nat) TableIdObject := .empty
  nextTableId : Nat := 0
  keyValues : FlatMap (Nat ×ₗ Nat) KeyValueObject := .empty
  generatedTransactions : FlatMap (AccountName ×ₗ Nat) (GeneratedTransactionObject Key) := .empty
  ramUsage : FlatMap AccountName Nat := .empty

structure ApplyState (Key : Type) extends Objects Key where
  netUsage : Nat := 0
  validateRamUsage : FlatMap AccountName Unit := .empty
  inlineActions : List (SentAction Key) := []

structure ChainState (Key : Type) where
  authorization : AuthorizationDb Key
  pendingBlockTime : Int
  headBlockId : BlockId
  basePerTransactionNetUsage : Nat := 12
  deferredTrxExpirationWindow : Nat := 600
  maxTransactionLifetime : Nat := 3600
  /-- The id of the last block with the given low 16 bits of its number. -/
  blockSummaries : Nat → BlockId := fun _ => default

structure TransactionContext where
  published : Int
  enforceWhiteblacklist : Bool := true
  eagerNetLimit : Nat
  netLimitDueToBlock : Bool := true
  netLimitDueToGreylist : Bool := false
  deriving DecidableEq, Repr

structure ApplyContext (Key : Type) where
  control : Control
  chain : ChainState Key
  trxContext : TransactionContext
  receiver : AccountName
  act : Action Key
  privileged : Bool := false

variable {Key : Type}

def addPendingRamUsage (usage : FlatMap AccountName Nat) (account : AccountName) (ramDelta : Int) :
    Result (FlatMap AccountName Nat) :=
  if ramDelta = 0 then .ok usage
  else
    match usage.find? account with
    | none => .error ⟨.outOfRange, "unknown key"⟩
    | some ram => do
      eosAssert (ramDelta ≤ 0 ∨ ramDelta ≤ 2 ^ 64 - 1 - (ram : Int)) .transaction
        "Ram usage delta would overflow UINT64_MAX"
      eosAssert (0 ≤ ramDelta ∨ -ramDelta ≤ ram) .transaction
        "Ram usage delta would underflow UINT64_MAX"
      pure (usage.set account (ram + ramDelta).toNat)

def flatSet (names : List AccountName) : List AccountName :=
  (names.foldl (fun m a => m.set a ()) (FlatMap.empty : FlatMap AccountName Unit)).entries.map
    Prod.fst

namespace ApplyState

def addRamUsage (account : AccountName) (ramDelta : Int) (s : ApplyState Key) :
    Result (ApplyState Key) := do
  let ramUsage ← addPendingRamUsage s.ramUsage account ramDelta
  pure { s with
    ramUsage := ramUsage
    validateRamUsage :=
      if 0 < ramDelta then s.validateRamUsage.set account () else s.validateRamUsage }

def tableKey (code scope table : Nat) : AccountName ×ₗ Nat ×ₗ Nat := toLex (code, toLex (scope, table))

def getRow (s : ApplyState Key) (code scope table id : Nat) :
    Result (TableIdObject × KeyValueObject) :=
  match s.tables.find? (tableKey code scope table) with
  | none => .error ⟨.tableOperationNotPermitted, "dereference of deleted object"⟩
  | some tab =>
    match s.keyValues.find? (toLex (tab.id, id)) with
    | none => .error ⟨.tableOperationNotPermitted, "dereference of deleted object"⟩
    | some obj => .ok (tab, obj)

def createGeneratedTransaction (sender : AccountName) (senderId : Nat)
    (gto : GeneratedTransactionObject Key) (s : ApplyState Key) : Result (ApplyState Key) := do
  eosAssert ((s.generatedTransactions.find? (toLex (sender, senderId))).isNone ∧
      ∀ e ∈ s.generatedTransactions.entries, e.2.trxId ≠ gto.trxId) .uniqueness uniquenessViolated
  pure { s with
    generatedTransactions := s.generatedTransactions.set (toLex (sender, senderId)) gto }

def deferred (s : ApplyState Key) : List GeneratedTransaction :=
  s.generatedTransactions.entries.map fun e =>
    { trxId := e.2.trxId
      sender := (ofLex e.1).1
      authorizations := e.2.packedTrx.actions.map (·.authorization)
      delayUntil := e.2.delayUntil
      published := e.2.published }

end ApplyState

namespace ApplyContext

section Database
variable (c : ApplyContext Key)

def updateDbUsage (payer : AccountName) (delta : Int) (s : ApplyState Key) :
    Result (ApplyState Key) := do
  ifThen (0 < delta ∧ ¬ (c.privileged ∨ payer = c.receiver)) do
    eosAssert (c.control.isRamBillingInNotifyAllowed ∨ c.receiver = c.act.data.account)
      .subjectiveBlockProduction "Cannot charge RAM to other accounts during notify."
    requireAuthorization c.act.authorization payer
  s.addRamUsage payer delta

def findOrCreateTable (code scope table : Nat) (payer : AccountName) (s : ApplyState Key) :
    Result (TableIdObject × ApplyState Key) :=
  match s.tables.find? (ApplyState.tableKey code scope table) with
  | some tab => .ok (tab, s)
  | none => do
    let s ← c.updateDbUsage payer tableIdBillableSize s
    let tab : TableIdObject := ⟨s.nextTableId, payer, 0⟩
    pure (tab, { s with
      tables := s.tables.set (ApplyState.tableKey code scope table) tab
      nextTableId := s.nextTableId + 1 })

def removeTable (code scope table : Nat) (tab : TableIdObject) (s : ApplyState Key) :
    Result (ApplyState Key) := do
  let s ← c.updateDbUsage tab.payer (-(tableIdBillableSize : Int)) s
  pure { s with tables := s.tables.erase (ApplyState.tableKey code scope table) }

def dbStoreI64 (scope table : Nat) (payer : AccountName) (id : Nat) (buffer : List UInt8)
    (s : ApplyState Key) : Result (ApplyState Key) := do
  let (tab, s) ← c.findOrCreateTable c.receiver scope table payer s
  eosAssert (payer ≠ 0) .invalidTablePayer "must specify a valid account to pay for new record"
  eosAssert (s.keyValues.find? (toLex (tab.id, id))).isNone .uniqueness uniquenessViolated
  c.updateDbUsage payer (buffer.length + keyValueBillableSize)
    { s with
      keyValues := s.keyValues.set (toLex (tab.id, id)) ⟨payer, buffer⟩
      tables := s.tables.set (ApplyState.tableKey c.receiver scope table)
        { tab with count := u32 (tab.count + 1) } }

def rebill (oldPayer payer : AccountName) (oldSize newSize : Int) (s : ApplyState Key) :
    Result (ApplyState Key) :=
  if oldPayer ≠ payer then do
    let s ← c.updateDbUsage oldPayer (-oldSize) s
    c.updateDbUsage payer newSize s
  else if oldSize ≠ newSize then c.updateDbUsage oldPayer (newSize - oldSize) s
  else .ok s

def dbUpdateI64 (code scope table id : Nat) (payer : AccountName) (buffer : List UInt8)
    (s : ApplyState Key) : Result (ApplyState Key) := do
  let (tab, obj) ← s.getRow code scope table id
  eosAssert (code = c.receiver) .tableAccessViolation "db access violation"
  let payer := if payer = 0 then obj.payer else payer
  let s ← c.rebill obj.payer payer (obj.value.length + keyValueBillableSize)
    (buffer.length + keyValueBillableSize) s
  pure { s with keyValues := s.keyValues.set (toLex (tab.id, id)) ⟨payer, buffer⟩ }

def dbRemoveI64 (code scope table id : Nat) (s : ApplyState Key) : Result (ApplyState Key) := do
  let (tab, obj) ← s.getRow code scope table id
  eosAssert (code = c.receiver) .tableAccessViolation "db access violation"
  let s ← c.updateDbUsage obj.payer (-(obj.value.length + keyValueBillableSize : Int)) s
  let tab : TableIdObject := { tab with count := sub32 tab.count 1 }
  let s : ApplyState Key := { s with
    tables := s.tables.set (ApplyState.tableKey code scope table) tab
    keyValues := s.keyValues.erase (toLex (tab.id, id)) }
  if tab.count = 0 then c.removeTable code scope table tab s else pure s

end Database

section Transactions
variable (codec : TransactionCodec Key) (c : ApplyContext Key)

def checkNetUsage (netUsage : Nat) : Result Unit :=
  if ¬ c.control.skipTrxChecks ∧ c.trxContext.eagerNetLimit < netUsage then
    if c.trxContext.netLimitDueToBlock then
      .error ⟨.blockNetUsageExceeded,
        "not enough space left in block: $\x7bnet_usage\x7d > $\x7bnet_limit\x7d"⟩
    else if c.trxContext.netLimitDueToGreylist then
      .error ⟨.greylistNetUsageExceeded,
        "greylisted transaction net usage is too high: $\x7bnet_usage\x7d > $\x7bnet_limit\x7d"⟩
    else
      .error ⟨.txNetUsageExceeded,
        "transaction net usage is too high: $\x7bnet_usage\x7d > $\x7bnet_limit\x7d"⟩
  else .ok ()

def addNetUsage (u : Nat) (s : ApplyState Key) : Result (ApplyState Key) := do
  let netUsage := (s.netUsage + u) % 2 ^ 64
  c.checkNetUsage netUsage
  pure { s with netUsage := netUsage }

def checkReferenced (kind : ExceptionKind) (actorMessage permissionMessage : String)
    (auth : PermissionLevel) : Result Unit := do
  eosAssert (c.chain.authorization.findAccount auth.actor).isSome kind actorMessage
  let permission ← c.chain.authorization.findPermission auth
  eosAssert permission.isSome kind permissionMessage

def validateReferencedAccounts (trx : Transaction Key) (enforceActorWhitelistBlacklist : Bool) :
    Result Unit := do
  trx.contextFreeActions.forM fun a => do
    eosAssert (c.chain.authorization.findAccount a.data.account).isSome .transaction
      "action's code account '$\x7baccount\x7d' does not exist"
    eosAssert (a.authorization.length = 0) .transaction
      "context-free actions cannot have authorizations"
  trx.actions.forM fun a => do
    eosAssert (c.chain.authorization.findAccount a.data.account).isSome .transaction
      "action's code account '$\x7baccount\x7d' does not exist"
    a.authorization.forM (c.checkReferenced .transaction
      "action's authorizing actor '$\x7baccount\x7d' does not exist"
      "action's authorizations include a non-existent permission: \x7bpermission\x7d")
  eosAssert (∃ a ∈ trx.actions, a.authorization ≠ []) .txNoAuths
    "transaction must have at least one authorization"
  ifThen enforceActorWhitelistBlacklist
    (c.control.checkActorList <| flatSet ((trx.actions.flatMap (·.authorization)).map (·.actor)))

/-- An exception of the database library, which `catch (const fc::exception&)` lets through. -/
def isStdException (e : ChainException) : Bool := e.kind = .outOfRange ∨ e.kind = .uniqueness

/-- A failed authorization of what a contract sends only to itself is an error of the producer
alone. -/
def bypassSelf (sendToSelf : Bool) (message unexpected : String) (x : Result Unit) : Result Unit :=
  match x with
  | .ok () => .ok ()
  | .error e =>
    if ¬ sendToSelf then .error e
    else if c.control.isProducingBlock then
      .error ⟨.subjectiveBlockProduction, if isStdException e then unexpected else message⟩
    else .ok ()

def authorizationDb (s : ApplyState Key) : AuthorizationDb Key :=
  { c.chain.authorization with generatedTransactions := s.deferred }

variable [DecidableEq Key]

/-- The authorizations of the running action that an action to itself may use again. -/
def inheritedAuthorizations (a : SentAction Key) : Finset PermissionLevel :=
  if a.data.account = c.receiver ∧ c.receiver = c.act.data.account ∧ c.control.isProducingBlock then
    (a.authorization.filter (· ∈ c.act.authorization)).toFinset
  else ∅

def checkInlineAuthorization (a : SentAction Key) (s : ApplyState Key) : Result Unit :=
  ifThen (¬ c.control.skipAuthCheck ∧ ¬ c.privileged) <|
    c.bypassSelf (a.data.account = c.receiver)
      "Authorization failure with inline action sent to self"
      "Unexpected exception occurred validating inline action sent to self"
      ((c.authorizationDb s).checkAuthorization [a.toAction] ∅ {⟨c.receiver, eosioCodeName⟩}
        (c.chain.pendingBlockTime - c.trxContext.published) false (c.inheritedAuthorizations a))

def executeInline (a : SentAction Key) (s : ApplyState Key) : Result (ApplyState Key) := do
  eosAssert (c.chain.authorization.findAccount a.data.account).isSome .actionValidate
    "inline action's code account $\x7baccount\x7d does not exist"
  a.authorization.forM (c.checkReferenced .actionValidate
    "inline action's authorizing actor $\x7baccount\x7d does not exist"
    "inline action's authorizations include a non-existent permission: $\x7bpermission\x7d")
  ifThen (c.trxContext.enforceWhiteblacklist ∧ c.control.isProducingBlock)
    (c.control.checkActorList <| flatSet (a.authorization.map (·.actor)))
  c.checkInlineAuthorization a s
  pure { s with inlineActions := s.inlineActions ++ [a] }

def checkDeferredAuthorization (payer : AccountName) (trx : Transaction Key) (s : ApplyState Key) :
    Result Unit :=
  ifThen (¬ c.control.skipAuthCheck ∧ ¬ c.privileged) do
    ifThen (payer ≠ c.receiver) (requireAuthorization c.act.authorization payer)
    c.bypassSelf (∀ a ∈ trx.actions, a.data.account = c.receiver)
      "Authorization failure with sent deferred transaction consisting only of actions to self"
      "Unexpected exception occurred validating sent deferred transaction consisting only of actions to self"
      ((c.authorizationDb s).checkAuthorization (trx.actions.map (·.toAction)) ∅
        {⟨c.receiver, eosioCodeName⟩} (seconds trx.delaySec) false ∅)

def published (payer : AccountName) (trxId : Digest) (trx : Transaction Key) (delay : Int) :
    GeneratedTransactionObject Key :=
  { trxId := trxId
    payer := payer
    published := c.chain.pendingBlockTime
    delayUntil := c.chain.pendingBlockTime + delay
    expiration := c.chain.pendingBlockTime + delay + seconds c.chain.deferredTrxExpirationWindow
    packedTrx := trx }

/-- The object under the id of the sender. One that exists keeps its transaction id, and nothing
is refunded for it. -/
def storeDeferred (senderId : Nat) (payer : AccountName) (trx : Transaction Key)
    (replaceExisting : Bool) (s : ApplyState Key) : Result (ApplyState Key) :=
  match s.generatedTransactions.find? (toLex (c.receiver, senderId)) with
  | some gtx => do
    eosAssert (replaceExisting = true) .deferredTxDuplicate
      "deferred transaction with the same sender_id and payer already exists"
    eosAssert (c.control.isProducingBlock = false) .subjectiveBlockProduction
      "Replacing a deferred transaction is temporarily disabled."
    pure { s with
      generatedTransactions := s.generatedTransactions.set (toLex (c.receiver, senderId))
        (c.published payer gtx.trxId trx (seconds trx.delaySec)) }
  | none =>
    s.createGeneratedTransaction c.receiver senderId
      (c.published payer (codec.id trx) trx (seconds trx.delaySec))

/-- The transaction that is stored for one that is sent: it expires in the next second and refers
to the head block. -/
def deferredTransaction (trx : Transaction Key) : Transaction Key :=
  ({ trx with expiration := .ofNat ((c.chain.pendingBlockTime + 999999) / 1000000).toNat } :
    Transaction Key).setReferenceBlock c.chain.headBlockId

def scheduleDeferredTransaction (senderId : Nat) (payer : AccountName) (trx : Transaction Key)
    (replaceExisting : Bool) (s : ApplyState Key) : Result (ApplyState Key) := do
  eosAssert (trx.contextFreeActions.length = 0) .cfaInsideGeneratedTx
    "context free actions are not currently allowed in generated transactions"
  let trx := c.deferredTransaction trx
  c.validateReferencedAccounts trx (c.trxContext.enforceWhiteblacklist ∧ c.control.isProducingBlock ∧
    ¬ c.control.senderAvoidsWhitelistBlacklistEnforcement c.receiver)
  let s ← c.addNetUsage (c.chain.basePerTransactionNetUsage + transactionIdNetUsage) s
  c.checkDeferredAuthorization payer trx s
  let s ← c.storeDeferred codec senderId payer trx replaceExisting s
  eosAssert (c.control.isRamBillingInNotifyAllowed ∨ c.receiver = c.act.data.account ∨
      c.receiver = payer ∨ c.privileged) .subjectiveBlockProduction
    "Cannot charge RAM to other accounts during notify."
  s.addRamUsage payer (generatedTransactionBillableSize + u32 (codec.packSize trx))

end Transactions

variable (codec : TransactionCodec Key) (c : ApplyContext Key)

def cancelDeferredTransaction (senderId : Nat) (sender : AccountName) (s : ApplyState Key) :
    Result (Bool × ApplyState Key) :=
  match s.generatedTransactions.find? (toLex (sender, senderId)) with
  | none => .ok (false, s)
  | some gto => do
    let s ← s.addRamUsage gto.payer (-gto.billedSize codec)
    pure (true, { s with
      generatedTransactions := s.generatedTransactions.erase (toLex (sender, senderId)) })

/-- The net usage of retiring a transaction, unless its own delay has charged it. -/
def chargeRetirement (trx : Transaction Key) (s : ApplyState Key) : Result (ApplyState Key) :=
  if trx.delaySec = 0 then
    c.addNetUsage (c.chain.basePerTransactionNetUsage + transactionIdNetUsage) s
  else .ok s

/-- `transaction_context::schedule_transaction`, for an input transaction with a delay. -/
def scheduleTransaction (trx : Transaction Key) (delay : Int) (s : ApplyState Key) :
    Result (ApplyState Key) := do
  let s ← c.chargeRetirement trx s
  let gto := c.published trx.firstAuthorizor (codec.id trx) trx delay
  let s ← s.createGeneratedTransaction 0 (senderIdOf gto.trxId) gto
  s.addRamUsage gto.payer (generatedTransactionBillableSize + u32 (codec.packSize trx))

def removeScheduledTransaction (key : AccountName ×ₗ Nat) (gto : GeneratedTransactionObject Key)
    (s : ApplyState Key) : Result (ApplyState Key) := do
  let ramUsage ← addPendingRamUsage s.ramUsage gto.payer (-gto.billedSize codec)
  pure { s with
    ramUsage := ramUsage
    generatedTransactions := s.generatedTransactions.erase key }

/-- `push_scheduled_transaction` until the transaction is executed or has expired. -/
def pushScheduledTransaction (trxId : Digest) (s : ApplyState Key) : Result (ApplyState Key) :=
  match s.generatedTransactions.entries.find? fun e => e.2.trxId = trxId with
  | none => .error ⟨.unknownTransaction, "unknown transaction"⟩
  | some (key, gto) => do
    let s ← removeScheduledTransaction codec key gto s
    eosAssert (gto.delayUntil ≤ c.chain.pendingBlockTime) .transaction
      "this transaction isn't ready"
    pure s

end ApplyContext

inductive Request (Key : Type) where
  | dbStoreI64 (scope table : Nat) (payer : AccountName) (id : Nat) (buffer : List UInt8)
  | dbUpdateI64 (code scope table id : Nat) (payer : AccountName) (buffer : List UInt8)
  | dbRemoveI64 (code scope table id : Nat)
  | scheduleDeferredTransaction (senderId : Nat) (payer : AccountName) (trx : Transaction Key)
      (replaceExisting : Bool)
  | cancelDeferredTransaction (senderId : Nat) (sender : AccountName)
  | scheduleTransaction (trx : Transaction Key) (delay : Int)
  | pushScheduledTransaction (trxId : Digest)

/-- A request, the context in which it is made, and what its transaction has gathered before. -/
structure Call (Key : Type) where
  context : ApplyContext Key
  request : Request Key
  netUsage : Nat := 0
  validateRamUsage : FlatMap AccountName Unit := .empty
  inlineActions : List (SentAction Key) := []

section Requests
variable [DecidableEq Key] (codec : TransactionCodec Key)

def Call.perform (call : Call Key) (s : ApplyState Key) : Result (ApplyState Key) :=
  match call.request with
  | .dbStoreI64 scope table payer id buffer => call.context.dbStoreI64 scope table payer id buffer s
  | .dbUpdateI64 code scope table id payer buffer =>
    call.context.dbUpdateI64 code scope table id payer buffer s
  | .dbRemoveI64 code scope table id => call.context.dbRemoveI64 code scope table id s
  | .scheduleDeferredTransaction senderId payer trx replaceExisting =>
    call.context.scheduleDeferredTransaction codec senderId payer trx replaceExisting s
  | .cancelDeferredTransaction senderId sender => do
    let (_, s) ← ApplyContext.cancelDeferredTransaction codec senderId sender s
    pure s
  | .scheduleTransaction trx delay => call.context.scheduleTransaction codec trx delay s
  | .pushScheduledTransaction trxId => call.context.pushScheduledTransaction codec trxId s

def Call.run (call : Call Key) (s : Objects Key) : Result (Objects Key) := do
  let s ← call.perform codec
    { s with
      netUsage := call.netUsage
      validateRamUsage := call.validateRamUsage
      inlineActions := call.inlineActions }
  pure s.toObjects

end Requests

def delayCodec : TransactionCodec Nat where
  packSize := fun _ => 100
  packSize_lt := fun _ => by decide
  id := fun trx => ⟨trx.expiration.toUInt64, UInt64.ofNat trx.delaySec, 0, 0⟩

def contract : AccountName := 10

def contractContext (status : BlockStatus) : ApplyContext Nat where
  control := { blockStatus := status }
  chain :=
    { authorization :=
        { accounts := [{ name := contract }]
          permissions := [⟨1, 0, contract, activeName, ⟨1, [⟨7, 1⟩], [], []⟩⟩]
          nextPermissionId := 2 }
      pendingBlockTime := 1000000000
      headBlockId := default }
  trxContext := { published := 1000000000, eagerNetLimit := 1000 }
  receiver := contract
  act := ⟨[⟨contract, activeName⟩], .other contract 1⟩

def toItself (delaySec : Nat) : Transaction Nat :=
  { delaySec := delaySec
    actions := [{ authorization := [⟨contract, activeName⟩], data := .other contract 2 }] }

end Apply

end DimensionChain
