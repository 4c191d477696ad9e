import DimensionChain.Apply.Context
import DimensionChain.Base.Steps

/-!
# Deduplication of transactions

The id of an input transaction is recorded with its expiration when the transaction is applied.
Starting a block removes the expired records, and an expired transaction is rejected, so that an
id is either on record or rejected. The two comparisons are of different resolution: a block has a
slot of half a second, an expiration is a second.
-/

namespace DimensionChain.Deduplication

open Auth Apply

/-- The table of transaction objects in the order of its index by expiration; the key of an
object is its expiration and its own id. -/
structure TransactionIndex where
  byExpiration : FlatMap (Nat ×ₗ Nat) Digest
  nextId : Nat
  fresh : ∀ e ∈ byExpiration.entries, (ofLex e.1).2 < nextId

namespace TransactionIndex

def empty : TransactionIndex := ⟨.empty, 0, fun _ he => nomatch he⟩

def clearExpired (now : Int) (index : TransactionIndex) : TransactionIndex where
  byExpiration := index.byExpiration.dropWhile fun e => seconds (ofLex e.1).1 < now
  nextId := index.nextId
  fresh := fun e he => index.fresh e (FlatMap.mem_of_mem_dropWhile he)

def insert (id : Digest) (expire : Nat) (index : TransactionIndex) : TransactionIndex where
  byExpiration := index.byExpiration.set (toLex (expire, index.nextId)) id
  nextId := index.nextId + 1
  fresh := by
    intro e he
    rcases (FlatMap.mem_set e).mp he with rfl | ⟨he, _⟩
    · exact Nat.lt_succ_self _
    · exact Nat.lt_succ_of_lt (index.fresh e he)

def recordTransaction (id : Digest) (expire : Nat) (index : TransactionIndex) :
    Result TransactionIndex := do
  eosAssert (∀ e ∈ index.byExpiration.entries, e.2 ≠ id) .txDuplicate
    "duplicate transaction $\x7bid\x7d"
  pure (index.insert id expire)

def Records (index : TransactionIndex) (id : Digest) (expire : Nat) : Prop :=
  ∃ e ∈ index.byExpiration.entries, (ofLex e.1).1 = expire ∧ e.2 = id

variable {index index' : TransactionIndex} {id : Digest} {expire : Nat}

lemma Records.clearExpired {now : Int} (h : index.Records id expire)
    (hnow : now ≤ seconds expire) : (index.clearExpired now).Records id expire := by
  obtain ⟨e, he, hexpire, hid⟩ := h
  refine ⟨e, FlatMap.mem_dropWhile he ?_, hexpire, hid⟩
  rw [hexpire]
  apply decide_eq_false
  omega

lemma records_insert : (index.insert id expire).Records id expire :=
  ⟨(toLex (expire, index.nextId), id), (FlatMap.mem_set _).mpr (.inl rfl), rfl, rfl⟩

lemma Records.insert {id' : Digest} {expire' : Nat} (h : index.Records id expire) :
    (index.insert id' expire').Records id expire := by
  obtain ⟨e, he, hexpire, hid⟩ := h
  refine ⟨e, (FlatMap.mem_set e).mpr (.inr ⟨he, ?_⟩), hexpire, hid⟩
  -- the id of the new object is not in use
  rintro heq
  have hlt := index.fresh e he
  rw [heq] at hlt
  exact lt_irrefl _ hlt

lemma recordTransaction_ok (h : index.recordTransaction id expire = .ok index') :
    index' = index.insert id expire ∧ ¬ ∃ expire', index.Records id expire' := by
  unfold recordTransaction at h
  simp only [bind_ok_iff, eosAssert_ok_iff, exists_const] at h
  obtain ⟨hnew, h⟩ := h
  cases h
  refine ⟨rfl, ?_⟩
  rintro ⟨expire', e, he, _, hid⟩
  exact hnew e he hid

end TransactionIndex

structure Node where
  readMode : DbReadMode
  replayHeadTime : Option Int := none

structure State (Key : Type) where
  slot : Nat
  control : Control
  transactions : TransactionIndex := .empty
  objects : Objects Key := {}

/-- An input transaction, the keys that signed it, the context in which it is applied, and what
comes of parts that are not modelled: the limits on its usage, and the requests that its actions
make. -/
structure InputTransaction (Key : Type) where
  trx : Transaction Key
  signingKeys : Finset Key
  context : ApplyContext Key
  limits : Result Unit := .ok ()
  calls : List (Call Key) := []

inductive Event (Key : Type) where
  | startBlock (when : Nat) (control : Control)
  | pushTransaction (input : InputTransaction Key)
  | pushScheduledTransaction (trxId : Digest) (context : ApplyContext Key) (calls : List (Call Key))

variable {Key : Type}

def validateExpiration (chain : ChainState Key) (trx : Transaction Key) : Result Unit := do
  eosAssert (chain.pendingBlockTime ≤ seconds trx.expiration.toNat) .expiredTx
    "transaction has expired, expiration is $\x7btrx.expiration\x7d and pending block time is $\x7bpending_block_time\x7d"
  eosAssert (seconds trx.expiration.toNat ≤ chain.pendingBlockTime + seconds chain.maxTransactionLifetime)
    .txExpTooFar
    "Transaction expiration is too far in the future relative to the reference time of $\x7breference_time\x7d, expiration is $\x7btrx.expiration\x7d and the maximum transaction lifetime is $\x7bmax_til_exp\x7d seconds"

def verifyReferenceBlock (trx : Transaction Key) (referenceBlock : BlockId) : Bool :=
  trx.refBlockNum = (trx.setReferenceBlock referenceBlock).refBlockNum ∧
    trx.refBlockPrefix = (trx.setReferenceBlock referenceBlock).refBlockPrefix

def validateTapos (chain : ChainState Key) (trx : Transaction Key) : Result Unit :=
  eosAssert (verifyReferenceBlock trx (chain.blockSummaries (trx.refBlockNum % 65536)))
    .invalidRefBlock
    "Transaction's reference block did not match. Is this transaction from a different fork?"

namespace State

def contextIn (s : State Key) (c : ApplyContext Key) : ApplyContext Key :=
  { c with
    control := s.control
    chain := { c.chain with pendingBlockTime := blockTime s.slot } }

/-- The start of a block, as far as it concerns the records. A node that is not speculative leaves
them alone when it starts a block of its own. -/
def startBlock (node : Node) (when : Nat) (control : Control) (s : State Key) : State Key :=
  { s with
    slot := when
    control := control
    transactions :=
      if node.readMode = .speculative ∨ control.blockStatus ≠ .incomplete then
        s.transactions.clearExpired (blockTime when)
      else s.transactions }

def initForInputTrx (codec : TransactionCodec Key) (input : InputTransaction Key)
    (skipRecording : Bool) (s : State Key) : Result TransactionIndex := do
  ifThen (¬ s.control.skipTrxChecks) do
    validateExpiration (s.contextIn input.context).chain input.trx
    validateTapos (s.contextIn input.context).chain input.trx
    (s.contextIn input.context).validateReferencedAccounts input.trx
      (input.context.trxContext.enforceWhiteblacklist ∧ s.control.isProducingBlock)
  input.limits
  if skipRecording then pure s.transactions
  else s.transactions.recordTransaction (codec.id input.trx) input.trx.expiration.toNat

variable [DecidableEq Key] {event : Event Key}

def perform (codec : TransactionCodec Key) (calls : List (Call Key)) (objects : Objects Key) :
    Result (Objects Key) :=
  calls.foldlM (fun objects call => call.run codec objects) objects

def exec (codec : TransactionCodec Key) (input : InputTransaction Key) (s : State Key) :
    Result (Objects Key) :=
  if input.trx.delaySec = 0 then perform codec input.calls s.objects
  else do
    let applied ← (s.contextIn input.context).scheduleTransaction codec input.trx
      (seconds input.trx.delaySec) { s.objects with }
    pure applied.toObjects

/-- An input transaction. Outside of the speculative mode a node takes back what it applies to a
block of its own. -/
def pushTransaction (node : Node) (codec : TransactionCodec Key) (input : InputTransaction Key)
    (s : State Key) : Result (State Key) := do
  let transactions ← s.initForInputTrx codec input
    (node.replayHeadTime.any fun time => seconds input.trx.expiration.toNat ≤ time)
  ifThen (¬ s.control.skipAuthCheck)
    (((s.contextIn input.context).authorizationDb { s.objects with }).checkAuthorization
      (input.trx.actions.map (·.toAction)) input.signingKeys ∅ (seconds input.trx.delaySec) false ∅)
  let objects ← s.exec codec input
  pure (if node.readMode ≠ .speculative ∧ s.control.isProducingBlock then s
    else { s with transactions := transactions, objects := objects })

def pushScheduledTransaction (codec : TransactionCodec Key) (trxId : Digest)
    (c : ApplyContext Key) (calls : List (Call Key)) (s : State Key) : Result (State Key) := do
  let retired ← (s.contextIn c).pushScheduledTransaction codec trxId { s.objects with }
  let objects ← perform codec calls retired.toObjects
  pure { s with objects := objects }

def apply (node : Node) (codec : TransactionCodec Key) (s : State Key) :
    Event Key → Result (State Key)
  | .startBlock when control => .ok (s.startBlock node when control)
  | .pushTransaction input => s.pushTransaction node codec input
  | .pushScheduledTransaction trxId c calls => s.pushScheduledTransaction codec trxId c calls

/-- The block that an event belongs to becomes part of the chain: it has a later time than the
one before, and it is not a block that a node only reads from. -/
def Applied (node : Node) (s : State Key) : Event Key → Prop
  | .startBlock when control =>
    s.slot < when ∧ (node.readMode = .speculative ∨ control.blockStatus ≠ .incomplete)
  | _ => node.readMode = .speculative ∨ s.control.blockStatus ≠ .incomplete

def Step (node : Node) (codec : TransactionCodec Key) (s : State Key) (event : Event Key)
    (s' : State Key) : Prop :=
  s.Applied node event ∧ s.apply node codec event = .ok s'

section Runs
variable {node : Node} {codec : TransactionCodec Key} {s s' t : State Key}
  {input : InputTransaction Key} {slot₀ : Nat}

lemma pushTransaction_ok (hreplay : node.replayHeadTime = none)
    (happlied : node.readMode = .speculative ∨ s.control.blockStatus ≠ .incomplete)
    (h : s.pushTransaction node codec input = .ok s') : s'.slot = s.slot ∧
      s.transactions.recordTransaction (codec.id input.trx) input.trx.expiration.toNat =
        .ok s'.transactions ∧
      (s.control.skipTrxChecks = false → blockTime s.slot ≤ seconds input.trx.expiration.toNat) := by
  unfold pushTransaction initForInputTrx at h
  rw [hreplay] at h
  simp only [bind_ok_iff] at h
  obtain ⟨transactions, ⟨_, hchecks, _, _, hrecord⟩, _, _, objects, _, h⟩ := h
  have hkept : ¬ (node.readMode ≠ .speculative ∧ s.control.isProducingBlock = true) := by
    rintro ⟨hread, hproducing⟩
    have hstatus : s.control.blockStatus = .incomplete := of_decide_eq_true hproducing
    rcases happlied with happlied | happlied
    · exact hread happlied
    · exact happlied hstatus
  rw [if_neg hkept] at h
  cases h
  refine ⟨rfl, hrecord, ?_⟩
  intro hskip
  unfold ifThen at hchecks
  rw [if_pos (by simp [hskip])] at hchecks
  obtain ⟨_, hexpiration, _⟩ := bind_ok_iff.mp hchecks
  obtain ⟨_, hnow, _⟩ := bind_ok_iff.mp hexpiration
  exact eosAssert_ok_iff.mp hnow

lemma pushScheduledTransaction_ok {trxId : Digest} {c : ApplyContext Key} {calls : List (Call Key)}
    (h : s.pushScheduledTransaction codec trxId c calls = .ok s') :
    s'.slot = s.slot ∧ s'.transactions = s.transactions := by
  unfold pushScheduledTransaction at h
  simp only [bind_ok_iff] at h
  obtain ⟨_, _, _, _, h⟩ := h
  cases h
  exact ⟨rfl, rfl⟩

/-- Since a block with slot `slot₀`, a transaction has been on record, or a later block has found
it expired. -/
def Known (slot₀ : Nat) (id : Digest) (expire : Nat) (s : State Key) : Prop :=
  s.transactions.Records id expire ∨ seconds expire < blockTime s.slot ∧ slot₀ < s.slot

lemma Known.step {id : Digest} {expire : Nat}
    (hreplay : node.replayHeadTime = none) (hslot : slot₀ ≤ s.slot) (h : s.Known slot₀ id expire)
    (hstep : Step node codec s event s') : slot₀ ≤ s'.slot ∧ s'.Known slot₀ id expire := by
  obtain ⟨happlied, happly⟩ := hstep
  cases event with
  | startBlock when control =>
    cases happly
    obtain ⟨hwhen, hclear⟩ := happlied
    have hlater : slot₀ < when := lt_of_le_of_lt hslot hwhen
    refine ⟨hlater.le, ?_⟩
    rcases h with hrecords | ⟨hexpired, _⟩
    · by_cases hexpired : seconds expire < blockTime when
      · exact .inr ⟨hexpired, hlater⟩
      refine .inl ?_
      unfold startBlock
      rw [if_pos hclear]
      exact hrecords.clearExpired (not_lt.mp hexpired)
    · exact .inr ⟨hexpired.trans (blockTime_lt hwhen), hlater⟩
  | pushTransaction input =>
    obtain ⟨hsame, hrecord, _⟩ := pushTransaction_ok hreplay happlied happly
    obtain ⟨hinsert, _⟩ := TransactionIndex.recordTransaction_ok hrecord
    unfold Known
    rw [hsame, hinsert]
    exact ⟨hslot, h.imp_left TransactionIndex.Records.insert⟩
  | pushScheduledTransaction trxId c calls =>
    obtain ⟨hsame, htransactions⟩ := pushScheduledTransaction_ok happly
    unfold Known
    rw [hsame, htransactions]
    exact ⟨hslot, h⟩

/-- Where an input transaction is applied again, it has expired and that is not checked, in a block
later than the first. -/
lemma Known.again (hreplay : node.replayHeadTime = none)
    (h : s.Known slot₀ (codec.id input.trx) input.trx.expiration.toNat)
    (hstep : Step node codec s (.pushTransaction input) s') :
    s.control.skipTrxChecks = true ∧ slot₀ < s.slot ∧
      seconds input.trx.expiration.toNat < blockTime s.slot := by
  obtain ⟨_, hrecord, hchecked⟩ := pushTransaction_ok hreplay hstep.1 hstep.2
  obtain ⟨_, hnew⟩ := TransactionIndex.recordTransaction_ok hrecord
  rcases h with hrecords | ⟨hexpired, hlater⟩
  · exact absurd ⟨_, hrecords⟩ hnew
  · refine ⟨?_, hlater, hexpired⟩
    by_contra hskip
    exact absurd (hchecked (Bool.eq_false_iff.mpr hskip)) (not_le.mpr hexpired)

/-- No input transaction is applied twice along a chain: one that has the id of an earlier one is
in a later block than that, has expired, and is in a block whose transactions are not checked. -/
theorem input_not_applied_twice (hreplay : node.replayHeadTime = none)
    (hids : ∀ trx trx', codec.id trx = codec.id trx' → trx.expiration = trx'.expiration)
    {es : List (State Key × Event Key × State Key)} (hrun : Steps (Step node codec) s es t) :
    es.Pairwise fun e e' => ∀ input input', e.2.1 = .pushTransaction input →
      e'.2.1 = .pushTransaction input' → codec.id input.trx = codec.id input'.trx →
        e'.1.control.skipTrxChecks = true ∧ e.1.slot < e'.1.slot ∧
          seconds input'.trx.expiration.toNat < blockTime e'.1.slot := by
  apply (hrun.pairwise (P := fun e s => ∀ input, e.2.1 = .pushTransaction input →
    e.1.slot ≤ s.slot ∧ s.Known e.1.slot (codec.id input.trx) input.trx.expiration.toNat) _ _ _).1
  · intro s event t hstep input heq
    dsimp only at heq
    subst heq
    obtain ⟨hsame, hrecord, _⟩ := pushTransaction_ok hreplay hstep.1 hstep.2
    obtain ⟨hinsert, _⟩ := TransactionIndex.recordTransaction_ok hrecord
    refine ⟨hsame.ge, .inl ?_⟩
    rw [hinsert]
    exact TransactionIndex.records_insert
  · intro e s event t hknown hstep input heq
    obtain ⟨hslot, hknown⟩ := hknown input heq
    exact hknown.step hreplay hslot hstep
  intro e s event t hknown hstep input input' heq heq' hid
  dsimp only at heq'
  subst heq'
  obtain ⟨_, hknown⟩ := hknown input heq
  rw [hid, hids _ _ hid] at hknown
  exact hknown.again hreplay hstep

end Runs

instance (node : Node) (s : State Key) : ∀ event, Decidable (s.Applied node event)
  | .startBlock _ _ => inferInstanceAs (Decidable (_ ∧ _))
  | .pushTransaction _ => inferInstanceAs (Decidable (_ ∨ _))
  | .pushScheduledTransaction _ _ _ => inferInstanceAs (Decidable (_ ∨ _))

def step? (node : Node) (codec : TransactionCodec Key) (s : State Key) (event : Event Key) :
    Option (State Key) :=
  if s.Applied node event then (s.apply node codec event).toOption else none

lemma step_of_step? {node : Node} {codec : TransactionCodec Key} {s s' : State Key}
    (h : step? node codec s event = some s') : Step node codec s event s' :=
  ok_of_guarded h

def speculative : Node := { readMode := .speculative }

def lightValidation : Control := { blockStatus := .complete, blockValidationMode := .light }

/-- A transaction that expires with slot 10 and is signed by the key of the contract. -/
def expiring (delaySec : Nat) : InputTransaction Nat :=
  { trx := { toItself delaySec with expiration := 946684805 }
    signingKeys := {7}
    context := contractContext .complete }

def chainStart (control : Control) : State Nat :=
  { slot := 0, control := control, objects := { ramUsage := FlatMap.empty.set contract 0 } }

def expiredAgain : List (Event Nat) :=
  [.startBlock 10 lightValidation, .pushTransaction (expiring 0),
    .startBlock 12 lightValidation, .pushTransaction (expiring 0)]

def delayedThenRetired : List (Event Nat) :=
  [.startBlock 10 { blockStatus := .complete }, .pushTransaction (expiring 60),
    .startBlock 200 { blockStatus := .complete },
    .pushScheduledTransaction (delayCodec.id (expiring 60).trx) (contractContext .complete) []]

lemma replays_succeed :
    (Steps.replay (step? speculative delayCodec) (chainStart lightValidation) expiredAgain).isSome ∧
      (Steps.replay (step? speculative delayCodec) (chainStart { blockStatus := .complete })
        delayedThenRetired).isSome := by
  decide +kernel

/-- A light validator applies a transaction again when its record has expired, and a delayed
transaction is applied under its own id when it is due. -/
theorem same_id_applied_again :
    (∃ es t, Steps (Step speculative delayCodec) (chainStart lightValidation) es t ∧
        es.map (fun e => e.2.1) =
          [.startBlock 10 lightValidation, .pushTransaction (expiring 0),
            .startBlock 12 lightValidation, .pushTransaction (expiring 0)]) ∧
      ∃ es t, Steps (Step speculative delayCodec) (chainStart { blockStatus := .complete }) es t ∧
        es.map (fun e => e.2.1) =
          [.startBlock 10 { blockStatus := .complete }, .pushTransaction (expiring 60),
            .startBlock 200 { blockStatus := .complete },
            .pushScheduledTransaction (delayCodec.id (expiring 60).trx)
              (contractContext .complete) []] := by
  constructor
  · obtain ⟨t, hreplay⟩ := Option.isSome_iff_exists.mp replays_succeed.1
    obtain ⟨es, hrun, hlabels⟩ := Steps.of_replay step_of_step? hreplay
    exact ⟨es, t, hrun, hlabels⟩
  · obtain ⟨t, hreplay⟩ := Option.isSome_iff_exists.mp replays_succeed.2
    obtain ⟨es, hrun, hlabels⟩ := Steps.of_replay step_of_step? hreplay
    exact ⟨es, t, hrun, hlabels⟩

lemma delayCodec_expiration (trx trx' : Transaction Nat)
    (h : delayCodec.id trx = delayCodec.id trx') : trx.expiration = trx'.expiration :=
  UInt32.toUInt64_inj.mp (congrArg Digest.hash0 h)

theorem input_not_applied_twice_light : ∃ es t,
    Steps (Step speculative delayCodec) (chainStart lightValidation) es t ∧
      es.map (fun e => e.2.1) = expiredAgain ∧
      es.Pairwise fun e e' => ∀ input input', e.2.1 = .pushTransaction input →
        e'.2.1 = .pushTransaction input' → delayCodec.id input.trx = delayCodec.id input'.trx →
          e'.1.control.skipTrxChecks = true ∧ e.1.slot < e'.1.slot ∧
            seconds input'.trx.expiration.toNat < blockTime e'.1.slot := by
  obtain ⟨t, hreplay⟩ := Option.isSome_iff_exists.mp replays_succeed.1
  obtain ⟨es, hrun, hlabels⟩ := Steps.of_replay step_of_step? hreplay
  exact ⟨es, t, hrun, hlabels, input_not_applied_twice rfl delayCodec_expiration hrun⟩

end State

end DimensionChain.Deduplication
