import DimensionChain.System.Bandwidth

/-!
# Governance nodes, proposals and producers

Stakes of governance nodes, proposals, votes on them and their execution, which registers and
unregisters producers. Left out are the payers of memory, the space that is reserved for a
schedule and the size of the last schedule.
-/

namespace DimensionChain.System

open List

def maxPrimaryKey : Nat := 2 ^ 64 - 2

def votePeriod : Time := 2 * 3600

def execPeriod : Time := 24 * 3600 * 3

def ProducerInfo.deactivate {Key : Type} [Inhabited Key] (info : ProducerInfo Key) :
    ProducerInfo Key :=
  { info with producerKey := default, isActive := false }

namespace SystemState
variable {Key : Type}

section Voting
variable (s : SystemState Key)

def turnVote (info : ProposalInfo) (yea : Bool) (weight : Int64) : ProposalInfo :=
  if yea then
    { info with totalNays := info.totalNays - weight, totalYeas := info.totalYeas + weight }
  else { info with totalNays := info.totalNays + weight, totalYeas := info.totalYeas - weight }

/-- The stake of a voter as `voteproposal` reads it, without a check that there is a row. -/
def stakedOf (env : Env) (voterName : AccountName) : Int64 :=
  match s.voters.find? voterName with
  | none => env.endStaked
  | some v => v.staked

def voteproposal (env : Env) (voterName : AccountName) (proposalId : Nat) (yea : Bool) :
    Result (SystemState Key) := do
  requireAuth env voterName
  let proposalVoting ← getRow s.proposals proposalId "proposal not exist"
  eosioAssert (env.now < proposalVoting.voteEndTime) "proposal vote time has elapsed"
  let pvoteWeight := stakeToProposalVotes (s.stakedOf env voterName)
  let recorded := s.propvote.set (toLex (proposalId, voterName)) ⟨yea, env.now⟩
  match s.propvote.find? (toLex (proposalId, voterName)) with
  | some voteInfo =>
    if yea ≠ voteInfo.vote then
      pure { s with
        propvote := recorded
        proposals := s.proposals.set proposalId (turnVote proposalVoting yea pvoteWeight) }
    else pure s
  | none =>
    pure { s with
      propvote := recorded
      proposals := s.proposals.set proposalId (addWeight proposalVoting yea pvoteWeight) }

def availablePrimaryKey : Result Nat := do
  let next :=
    match s.proposals.entries.getLast? with
    | none => 0
    | some (pk, _) => if maxPrimaryKey ≤ pk then maxPrimaryKey else pk + 1
  eosioAssert (next < maxPrimaryKey) "next primary key in table is at autoincrement limit"
  pure next

def newProposalInfo (now : Time) (owner account : AccountName) (blockHeight : Nat)
    (type consensusType : Int64) : ProposalInfo where
  owner := owner
  account := account
  startTime := now
  voteEndTime := u32 (now + votePeriod)
  execEndTime := u32 (u32 (now + votePeriod) + execPeriod)
  execTime := 0
  blockHeight := blockHeight
  type := type
  isSatisfy := false
  isExec := false
  consensusType := consensusType
  totalYeas := 0
  totalNays := 0
  totalStaked := 0

def newproposal (env : Env) (owner account : AccountName) (blockHeight : Nat)
    (type consensusType : Int64) : Result (SystemState Key) := do
  requireAuth env owner
  let _ ← getRow s.gnode owner "only governance node can new proposal"
  eosioAssert (type = 1 → owner = account) "can not add other account to bp"
  eosioAssert (type = 3 → consensusType = 0 ∨ consensusType = 1 ∨ consensusType = 2)
    "consensus_type must be one of 0, 1, 2"
  let s := s.send owner Config.propAccount s.gstate.newProposalFee "transfer 1.5000 EON to new proposal"
  let id ← s.availablePrimaryKey
  pure { s with
    proposals :=
      s.proposals.set id (newProposalInfo env.now owner account blockHeight type consensusType)
    gstate.proposalNum := s.gstate.proposalNum + 1 }

end Voting

section Producers
variable (s : SystemState Key)

def regproducer [DecidableEq Key] [Inhabited Key] (env : Env) (producer : AccountName)
    (producerKey : Key) (url : List UInt8) (location : Nat) : Result (SystemState Key) := do
  eosioAssert (url.length < 512) "url too long"
  eosioAssert (producerKey ≠ default) "public key should not be the default value"
  requireAuth env producer
  pure { s with producers := s.producers.set producer ⟨producerKey, true, url, location⟩ }

def unregprod [Inhabited Key] (env : Env) (producer : AccountName) : Result (SystemState Key) := do
  requireAuth env producer
  let prod ← getRow s.producers producer "producer not found"
  pure { s with producers := s.producers.set producer prod.deactivate }

def rmvproducer [Inhabited Key] (env : Env) (producer : AccountName) :
    Result (SystemState Key) := do
  requireAuth env Config.systemAccountName
  let prod ← getRow s.producers producer "producer not found"
  pure { s with producers := s.producers.set producer prod.deactivate }

/-- The rows that become the schedule, as long as there are fewer than the counted ones. -/
def topProducers (limit : Int) :
    List (AccountName × ProducerInfo Key) → List (AccountName × ProducerInfo Key) →
      List (AccountName × ProducerInfo Key)
  | [], top => top
  | row :: rows, top =>
    if (top.length : Int) < limit then
      topProducers limit rows (if row.2.isActive then top ++ [row] else top)
    else top

def updateElectedProducers : List (AccountName × Key) :=
  let top := topProducers s.gstate.producerNum s.producers.entries []
  (top.insertionSort fun a b => a.1 ≤ b.1).map fun row => (row.1, row.2.producerKey)

def addElectedProducers [DecidableEq Key] [Inhabited Key] (env : Env) (newProducer : AccountName) :
    Result (SystemState Key) := do
  let gnd ← getRow s.gnode newProducer "account not in _gnode"
  s.regproducer env newProducer gnd.producerKey gnd.url gnd.location

def removeElectedProducers [Inhabited Key] (env : Env) (removeProducer : AccountName) :
    Result (SystemState Key) :=
  s.unregprod env removeProducer

end Producers

section Execution
variable (s : SystemState Key)

def getProducersSize : Nat := s.producers.size % 2 ^ 16

/-- The votes for a proposal exceed those against it by more than a tenth of all. -/
def Satisfies (prop : ProposalInfo) : Prop :=
  s.gstate.totalProposalStake / 10 < prop.totalYeas - prop.totalNays

instance (prop : ProposalInfo) : Decidable (s.Satisfies prop) :=
  inferInstanceAs (Decidable (_ < _))

def execAdd [DecidableEq Key] [Inhabited Key] (env : Env) (account : AccountName) :
    Result (SystemState Key) := do
  let gnd ← getRow s.gnode account "account not in _gnode"
  let s ← s.addElectedProducers env account
  pure { s with
    gstate.producerNum := s.gstate.producerNum + 1
    gnode := s.gnode.set account { gnd with isBp := true } }

def execRemove [Inhabited Key] (env : Env) (account : AccountName) : Result (SystemState Key) := do
  let gnd ← getRow s.gnode account "account not in _gnode"
  let s ← s.removeElectedProducers env account
  pure { s with
    gstate.producerNum := s.gstate.producerNum - 1
    gnode := s.gnode.set account { gnd with isBp := false } }

def execSwitch (consensusType : Int64) : SystemState Key :=
  { s with consensusTypes := s.consensusTypes ++ [consensusType] }

def carryOut [DecidableEq Key] [Inhabited Key] (env : Env) (prop : ProposalInfo) :
    Result (SystemState Key) :=
  if ¬s.Satisfies prop then pure s
  else if prop.type = 1 then s.execAdd env prop.account
  else if prop.type = 2 then s.execRemove env prop.account
  else if prop.type = 3 then pure (s.execSwitch prop.consensusType)
  else pure s

def execproposal [DecidableEq Key] [Inhabited Key] (env : Env) (owner : AccountName)
    (proposalId : Nat) : Result (SystemState Key) := do
  requireAuth env owner
  let _ ← getRow s.gnode owner "only governance node can exec proposal"
  let prop ← getRow s.proposals proposalId "proposal_id not in _proposals"
  eosioAssert (7 < s.getProducersSize → prop.voteEndTime < env.now) "proposal not end"
  eosioAssert (env.now < prop.execEndTime) "proposal execution time has elapsed"
  eosioAssert (prop.isExec = false) "proposal has been executed"
  let satisfied := decide (s.Satisfies prop ∧ (prop.type = 1 ∨ prop.type = 2 ∨ prop.type = 3))
  let s ← s.carryOut env prop
  pure { s with
    proposals := s.proposals.set proposalId { prop with
      isSatisfy := prop.isSatisfy || satisfied
      isExec := true
      execTime := env.now
      totalStaked := s.gstate.totalProposalStake } }

end Execution

variable (s : SystemState Key)

def staketognode (env : Env) (payer owner : AccountName) (producerKey : Key) (url : List UInt8)
    (location : Nat) : Result (SystemState Key) := do
  requireAuth env payer
  eosioAssert (s.gnode.find? owner = none) "account already in _gnode"
  let fee := s.gstate.stakeToGnodeFee
  let s := s.send payer Config.bpstkAccount fee "stake 1.0000 EON to governance node"
  pure { s with
    gnode := s.gnode.set owner
      { payer := payer, bpStaked := fee, stakeTime := env.now, isBp := false, status := 0
        producerKey := producerKey, url := url, location := location } }

def checkOpenProposals (env : Env) (owner : AccountName) :
    List (Nat × ProposalInfo) → Result Unit
  | [] => pure ()
  | (_, info) :: rest =>
    if info.voteEndTime ≤ env.now then checkOpenProposals env owner rest
    else do
      eosioAssert (info.owner ≠ owner) "proposal owner is equal owner"
      eosioAssert (info.account ≠ owner) "proposal account is equal owner"
      checkOpenProposals env owner rest

def byVendTime : List (Nat × ProposalInfo) :=
  s.proposals.entries.insertionSort fun a b => a.2.voteEndTime ≤ b.2.voteEndTime

def unstakegnode (env : Env) (owner : AccountName) : Result (SystemState Key) := do
  requireAuth env owner
  let gnd ← getRow s.gnode owner "account not in _gnode"
  eosioAssert (gnd.isBp = false) "account is bp, can not unstake"
  checkOpenProposals env owner s.byVendTime
  let s := { s with gnode := s.gnode.erase owner }
  pure (s.send Config.bpstkAccount gnd.payer gnd.bpStaked "unstake goverance node refund")

def updategnode (env : Env) (owner : AccountName) (producerKey : Key) (url : List UInt8)
    (location : Nat) : Result (SystemState Key) := do
  requireAuth env owner
  let gnd ← getRow s.gnode owner "account not in _gnode"
  eosioAssert (gnd.isBp = false) "can not unstake, this account is bp now"
  pure { s with
    gnode := s.gnode.set owner
      { gnd with producerKey := producerKey, url := url, location := location } }

end SystemState

inductive SystemAction (Key : Type) where
  | delegatebw (source receiver : AccountName) (netQuantity cpuQuantity : Asset) (transfer : Bool)
  | undelegatebw (source receiver : AccountName) (netQuantity cpuQuantity : Asset)
  | refund (owner : AccountName)
  | newproposal (owner account : AccountName) (blockHeight : Nat) (type consensusType : Int64)
  | voteproposal (voterName : AccountName) (proposalId : Nat) (yea : Bool)
  | execproposal (owner : AccountName) (proposalId : Nat)
  | staketognode (payer owner : AccountName) (producerKey : Key) (url : List UInt8) (location : Nat)
  | unstakegnode (owner : AccountName)
  | updategnode (owner : AccountName) (producerKey : Key) (url : List UInt8) (location : Nat)
  | rmvproducer (producer : AccountName)

def SystemState.apply {Key : Type} [DecidableEq Key] [Inhabited Key] (s : SystemState Key)
    (env : Env) : SystemAction Key → Result (SystemState Key)
  | .delegatebw source receiver net cpu transfer => s.delegatebw env source receiver net cpu transfer
  | .undelegatebw source receiver net cpu => s.undelegatebw env source receiver net cpu
  | .refund owner => s.refund env owner
  | .newproposal owner account blockHeight type consensusType =>
    s.newproposal env owner account blockHeight type consensusType
  | .voteproposal voterName proposalId yea => s.voteproposal env voterName proposalId yea
  | .execproposal owner proposalId => s.execproposal env owner proposalId
  | .staketognode payer owner producerKey url location =>
    s.staketognode env payer owner producerKey url location
  | .unstakegnode owner => s.unstakegnode env owner
  | .updategnode owner producerKey url location => s.updategnode env owner producerKey url location
  | .rmvproducer producer => s.rmvproducer env producer

/-- The states of the contract after actions in a row, from its start: each at a time that is not
before the last one, and each in a state that allows it. -/
inductive Run {Key : Type} [DecidableEq Key] [Inhabited Key]
    (allowed : SystemState Key → SystemAction Key → Prop) : SystemState Key → Time → Prop where
  | start (t : Time) : Run allowed {} t
  | step {s s' : SystemState Key} {t : Time} {env : Env} {action : SystemAction Key}
      (hrun : Run allowed s t) (htime : t ≤ env.now) (hallowed : allowed s action)
      (happly : s.apply env action = .ok s') : Run allowed s' env.now

section Replay
variable {Key : Type} [DecidableEq Key] [Inhabited Key]
  (allowed : SystemState Key → SystemAction Key → Prop) [∀ s action, Decidable (allowed s action)]

def replay : SystemState Key → Time → List (Env × SystemAction Key) → Option (SystemState Key × Time)
  | s, t, [] => some (s, t)
  | s, t, (env, action) :: rest =>
    if t ≤ env.now ∧ allowed s action then
      match s.apply env action with
      | .ok s' => replay s' env.now rest
      | .error _ => none
    else none

variable {allowed}

lemma run_of_replay {s s' : SystemState Key} {t t' : Time} {steps : List (Env × SystemAction Key)}
    (hrun : Run allowed s t) (h : replay allowed s t steps = some (s', t')) : Run allowed s' t' := by
  induction steps generalizing s t with
  | nil =>
    cases h
    exact hrun
  | cons step rest ih =>
    rw [replay] at h
    by_cases hstep : t ≤ step.1.now ∧ allowed s step.2
    · rw [if_pos hstep] at h
      cases happly : s.apply step.1 step.2 with
      | error e =>
        rw [happly] at h
        cases h
      | ok s₁ =>
        rw [happly] at h
        exact ih (.step hrun hstep.1 hstep.2 happly) h
    · rw [if_neg hstep] at h
      cases h

end Replay

namespace SystemState
variable {Key : Type} {s s' : SystemState Key} {env : Env} {location : Nat}

/-- What `voteproposal` can do: nothing to a vote that stays, turn a vote, or cast a new one. -/
inductive Balloted (s : SystemState Key) (env : Env) (voterName : AccountName) (proposalId : Nat)
    (yea : Bool) (info : ProposalInfo) : SystemState Key → Prop where
  | kept (voteInfo : ProposalVoteInfo)
      (hvote : s.propvote.find? (toLex (proposalId, voterName)) = some voteInfo)
      (hsame : voteInfo.vote = yea) : Balloted s env voterName proposalId yea info s
  | turned (voteInfo : ProposalVoteInfo)
      (hvote : s.propvote.find? (toLex (proposalId, voterName)) = some voteInfo)
      (hturn : voteInfo.vote = !yea) :
      Balloted s env voterName proposalId yea info { s with
        propvote := s.propvote.set (toLex (proposalId, voterName)) ⟨yea, env.now⟩
        proposals := s.proposals.set proposalId
          (turnVote info yea (stakeToProposalVotes (s.stakedOf env voterName))) }
  | cast (hvote : s.propvote.find? (toLex (proposalId, voterName)) = none) :
      Balloted s env voterName proposalId yea info { s with
        propvote := s.propvote.set (toLex (proposalId, voterName)) ⟨yea, env.now⟩
        proposals := s.proposals.set proposalId
          (addWeight info yea (stakeToProposalVotes (s.stakedOf env voterName))) }

lemma voteproposal_ok {voterName : AccountName} {proposalId : Nat} {yea : Bool}
    (h : s.voteproposal env voterName proposalId yea = .ok s') :
    voterName ∈ env.auths ∧ ∃ info, s.proposals.find? proposalId = some info ∧
      env.now < info.voteEndTime ∧ Balloted s env voterName proposalId yea info s' := by
  simp only [voteproposal, bind_ok_iff, requireAuth_ok_iff, getRow_ok_iff, eosioAssert_ok_iff] at h
  obtain ⟨_, hauth, info, hinfo, _, hopen, h⟩ := h
  refine ⟨hauth, info, hinfo, hopen, ?_⟩
  cases hvote : s.propvote.find? (toLex (proposalId, voterName)) with
  | none =>
    simp only [hvote] at h
    cases h
    exact .cast hvote
  | some voteInfo =>
    simp only [hvote] at h
    by_cases hturn : yea ≠ voteInfo.vote
    · rw [if_pos hturn] at h
      cases h
      exact .turned voteInfo hvote (Bool.eq_not_of_ne hturn.symm)
    · rw [if_neg hturn] at h
      cases h
      exact .kept voteInfo hvote (not_not.mp hturn).symm

lemma availablePrimaryKey_ok {id : Nat} (h : s.availablePrimaryKey = .ok id) :
    ∀ pk info, s.proposals.find? pk = some info → pk < id := by
  intro pk info hpk
  obtain ⟨_, hlimit, h⟩ := bind_ok_iff.mp h
  cases h
  have hlimit := eosioAssert_ok_iff.mp hlimit
  have hmem := FlatMap.find?_eq_some.mp hpk
  cases hlast : s.proposals.entries.getLast? with
  | none =>
    rw [List.getLast?_eq_none_iff.mp hlast] at hmem
    cases hmem
  | some last =>
    obtain ⟨front, hentries⟩ := List.getLast?_eq_some_iff.mp hlast
    have hsorted := s.proposals.sorted
    rw [hentries, map_append, pairwise_append] at hsorted
    have hle : pk ≤ last.1 := by
      rw [hentries, mem_append, mem_singleton] at hmem
      rcases hmem with hfront | rfl
      · have hfst : pk ∈ front.map Prod.fst := mem_map.mpr ⟨_, hfront, rfl⟩
        exact (hsorted.2.2 pk hfst last.1 (by simp)).le
      · exact le_rfl
    simp only [hlast] at hlimit ⊢
    by_cases hmax : maxPrimaryKey ≤ last.1
    · rw [if_pos hmax] at hlimit
      omega
    · rw [if_neg hmax]
      omega

lemma newproposal_ok {owner account : AccountName} {blockHeight : Nat} {type consensusType : Int64}
    (h : s.newproposal env owner account blockHeight type consensusType = .ok s') :
    ∃ id transfers, (∀ pk info, s.proposals.find? pk = some info → pk < id) ∧
      s' = { s with
        transfers := transfers
        proposals := s.proposals.set id
          (newProposalInfo env.now owner account blockHeight type consensusType)
        gstate.proposalNum := s.gstate.proposalNum + 1 } := by
  simp only [newproposal, bind_ok_iff] at h
  obtain ⟨_, -, _, -, _, -, _, -, id, hid, h⟩ := h
  cases h
  exact ⟨id, _, availablePrimaryKey_ok hid, rfl⟩

variable {producerKey : Key} {url : List UInt8}

lemma staketognode_ok {payer owner : AccountName}
    (h : s.staketognode env payer owner producerKey url location = .ok s') :
    s.gnode.find? owner = none ∧ ∃ row transfers, row.isBp = false ∧
      s' = { s with transfers := transfers, gnode := s.gnode.set owner row } := by
  obtain ⟨_, h⟩ := ok_after h
  obtain ⟨_, hnone, h⟩ := bind_ok_iff.mp h
  cases h
  exact ⟨eosioAssert_ok_iff.mp hnone, _, _, rfl, rfl⟩

variable {owner : AccountName}

lemma updategnode_ok (h : s.updategnode env owner producerKey url location = .ok s') :
    ∃ gnd row, s.gnode.find? owner = some gnd ∧ row.isBp = gnd.isBp ∧
      s' = { s with gnode := s.gnode.set owner row } := by
  simp only [updategnode, bind_ok_iff] at h
  obtain ⟨_, -, gnd, hgnd, _, -, h⟩ := h
  cases h
  exact ⟨gnd, { gnd with producerKey := producerKey, url := url, location := location },
    getRow_ok_iff.mp hgnd, rfl, rfl⟩

lemma checkOpenProposals_ok_iff {rows : List (Nat × ProposalInfo)} :
    checkOpenProposals env owner rows = .ok () ↔
      ∀ e ∈ rows, env.now < e.2.voteEndTime → e.2.owner ≠ owner ∧ e.2.account ≠ owner := by
  induction rows with
  | nil => simp [checkOpenProposals, pure, Except.pure]
  | cons e rest ih =>
    rw [checkOpenProposals, forall_mem_cons]
    by_cases hopen : e.2.voteEndTime ≤ env.now
    · rw [if_pos hopen, ih]
      simp [not_lt.mpr hopen]
    · rw [if_neg hopen]
      simp [bind_ok_iff, ih, not_le.mp hopen, and_assoc]

lemma mem_byVendTime {e : Nat × ProposalInfo} : e ∈ s.byVendTime ↔ e ∈ s.proposals.entries := by
  unfold byVendTime
  rw [mem_insertionSort]

lemma unstakegnode_ok_iff : s.unstakegnode env owner = .ok s' ↔
      owner ∈ env.auths ∧ ∃ gnd, s.gnode.find? owner = some gnd ∧ gnd.isBp = false ∧
        (∀ id info, s.proposals.find? id = some info → env.now < info.voteEndTime →
          info.owner ≠ owner ∧ info.account ≠ owner) ∧
        s' = { s with gnode := s.gnode.erase owner }.send Config.bpstkAccount gnd.payer gnd.bpStaked
          "unstake goverance node refund" := by
  have hopen : checkOpenProposals env owner s.byVendTime = .ok () ↔
      ∀ id info, s.proposals.find? id = some info → env.now < info.voteEndTime →
        info.owner ≠ owner ∧ info.account ≠ owner := by
    simp only [checkOpenProposals_ok_iff, mem_byVendTime, Prod.forall, FlatMap.find?_eq_some]
  unfold unstakegnode
  simp only [bind_ok_iff, eosioAssert_ok_iff, requireAuth_ok_iff, exists_const,
    getRow_ok_iff, hopen, pure, Except.pure, Except.ok.injEq]
  constructor
  · rintro ⟨hauth, gnd, hgnd, hbp, hnone, rfl⟩
    exact ⟨hauth, gnd, hgnd, hbp, hnone, rfl⟩
  · rintro ⟨hauth, gnd, hgnd, hbp, hnone, rfl⟩
    exact ⟨hauth, gnd, hgnd, hbp, hnone, rfl⟩

lemma rmvproducer_ok [Inhabited Key] {producer : AccountName}
    (h : s.rmvproducer env producer = .ok s') : ∃ prod, s.producers.find? producer = some prod ∧
      s' = { s with producers := s.producers.set producer prod.deactivate } := by
  obtain ⟨_, h⟩ := ok_after h
  obtain ⟨prod, hprod, h⟩ := bind_ok_iff.mp h
  cases h
  exact ⟨prod, getRow_ok_iff.mp hprod, rfl⟩

variable [DecidableEq Key] [Inhabited Key] {account : AccountName} {prop : ProposalInfo}
  {proposalId : Nat}

/-- A producer can be registered with the key and the address of its governance node. -/
def Registrable (gnd : GoveranceNodeInfo Key) : Prop := gnd.url.length < 512 ∧ gnd.producerKey ≠ default

instance (gnd : GoveranceNodeInfo Key) : Decidable (Registrable gnd) :=
  inferInstanceAs (Decidable (_ ∧ _))

inductive Carried (s : SystemState Key) (env : Env) (prop : ProposalInfo) : SystemState Key → Prop where
  | nothing (hnot : ¬(s.Satisfies prop ∧ (prop.type = 1 ∨ prop.type = 2 ∨ prop.type = 3))) :
      Carried s env prop s
  | added (gnd : GoveranceNodeInfo Key) (hsat : s.Satisfies prop) (htype : prop.type = 1)
      (hgnd : s.gnode.find? prop.account = some gnd) (hreg : Registrable gnd)
      (hauth : prop.account ∈ env.auths) :
      Carried s env prop { s with
        producers := s.producers.set prop.account ⟨gnd.producerKey, true, gnd.url, gnd.location⟩
        gstate.producerNum := s.gstate.producerNum + 1
        gnode := s.gnode.set prop.account { gnd with isBp := true } }
  | removed (gnd : GoveranceNodeInfo Key) (prod : ProducerInfo Key) (hsat : s.Satisfies prop)
      (htype : prop.type = 2) (hgnd : s.gnode.find? prop.account = some gnd)
      (hprod : s.producers.find? prop.account = some prod) (hauth : prop.account ∈ env.auths) :
      Carried s env prop { s with
        producers := s.producers.set prop.account prod.deactivate
        gstate.producerNum := s.gstate.producerNum - 1
        gnode := s.gnode.set prop.account { gnd with isBp := false } }
  | switched (hsat : s.Satisfies prop) (htype : prop.type = 3) :
      Carried s env prop (s.execSwitch prop.consensusType)

lemma execAdd_ok_iff : s.execAdd env account = .ok s' ↔
      ∃ gnd, s.gnode.find? account = some gnd ∧ Registrable gnd ∧ account ∈ env.auths ∧
        s' = { s with
          producers := s.producers.set account ⟨gnd.producerKey, true, gnd.url, gnd.location⟩
          gstate.producerNum := s.gstate.producerNum + 1
          gnode := s.gnode.set account { gnd with isBp := true } } := by
  unfold execAdd addElectedProducers regproducer Registrable
  simp only [bind_ok_iff, eosioAssert_ok_iff, requireAuth_ok_iff, exists_const,
    getRow_ok_iff, pure, Except.pure, Except.ok.injEq]
  constructor
  · rintro ⟨gnd, hgnd, _, ⟨gnd', hgnd', hurl, hkey, hauth, rfl⟩, rfl⟩
    rw [hgnd] at hgnd'
    cases hgnd'
    exact ⟨gnd, hgnd, ⟨hurl, hkey⟩, hauth, rfl⟩
  · rintro ⟨gnd, hgnd, ⟨hurl, hkey⟩, hauth, rfl⟩
    exact ⟨gnd, hgnd, _, ⟨gnd, hgnd, hurl, hkey, hauth, rfl⟩, rfl⟩

omit [DecidableEq Key] in
lemma execRemove_ok_iff : s.execRemove env account = .ok s' ↔
      ∃ gnd prod, s.gnode.find? account = some gnd ∧ s.producers.find? account = some prod ∧
        account ∈ env.auths ∧
        s' = { s with
          producers := s.producers.set account prod.deactivate
          gstate.producerNum := s.gstate.producerNum - 1
          gnode := s.gnode.set account { gnd with isBp := false } } := by
  unfold execRemove removeElectedProducers unregprod
  simp only [bind_ok_iff, requireAuth_ok_iff, exists_const, getRow_ok_iff, pure,
    Except.pure, Except.ok.injEq]
  constructor
  · rintro ⟨gnd, hgnd, _, ⟨hauth, prod, hprod, rfl⟩, rfl⟩
    exact ⟨gnd, prod, hgnd, hprod, hauth, rfl⟩
  · rintro ⟨gnd, prod, hgnd, hprod, hauth, rfl⟩
    exact ⟨gnd, hgnd, _, ⟨hauth, prod, hprod, rfl⟩, rfl⟩

lemma carryOut_ok (h : s.carryOut env prop = .ok s') : Carried s env prop s' := by
  unfold carryOut at h
  by_cases hsat : s.Satisfies prop
  · rw [if_neg (not_not.mpr hsat)] at h
    by_cases hadd : prop.type = 1
    · rw [if_pos hadd] at h
      obtain ⟨gnd, hgnd, hreg, hauth, rfl⟩ := execAdd_ok_iff.mp h
      exact .added gnd hsat hadd hgnd hreg hauth
    rw [if_neg hadd] at h
    by_cases hremove : prop.type = 2
    · rw [if_pos hremove] at h
      obtain ⟨gnd, prod, hgnd, hprod, hauth, rfl⟩ := execRemove_ok_iff.mp h
      exact .removed gnd prod hsat hremove hgnd hprod hauth
    rw [if_neg hremove] at h
    by_cases hswitch : prop.type = 3
    · rw [if_pos hswitch] at h
      cases h
      exact .switched hsat hswitch
    rw [if_neg hswitch] at h
    cases h
    exact .nothing fun hdo => hdo.2.elim hadd (Or.rec hremove hswitch)
  · rw [if_pos hsat] at h
    cases h
    exact .nothing fun hdo => hsat hdo.1

def executed (s : SystemState Key) (env : Env) (prop : ProposalInfo) : ProposalInfo :=
  { prop with
    isSatisfy := prop.isSatisfy ||
      decide (s.Satisfies prop ∧ (prop.type = 1 ∨ prop.type = 2 ∨ prop.type = 3))
    isExec := true
    execTime := env.now
    totalStaked := s.gstate.totalProposalStake }

omit [DecidableEq Key] in
lemma Carried.keeps (h : Carried s env prop s') :
    s'.voters = s.voters ∧ s'.propvote = s.propvote ∧ s'.proposals = s.proposals ∧
      s'.gstate.totalProposalStake = s.gstate.totalProposalStake ∧
      s'.gstate.proposalNum = s.gstate.proposalNum := by
  cases h <;> exact ⟨rfl, rfl, rfl, rfl, rfl⟩

lemma execproposal_ok_iff : s.execproposal env owner proposalId = .ok s' ↔
      owner ∈ env.auths ∧ (∃ gnd, s.gnode.find? owner = some gnd) ∧
        ∃ prop, s.proposals.find? proposalId = some prop ∧
          (7 < s.getProducersSize → prop.voteEndTime < env.now) ∧ env.now < prop.execEndTime ∧
          prop.isExec = false ∧ ∃ s₁, s.carryOut env prop = .ok s₁ ∧
            s' = { s₁ with proposals := s.proposals.set proposalId (s.executed env prop) } := by
  unfold execproposal
  simp only [bind_ok_iff, eosioAssert_ok_iff, requireAuth_ok_iff, exists_const,
    getRow_ok_iff, pure, Except.pure, Except.ok.injEq]
  constructor
  · rintro ⟨hauth, gnd, hgnd, prop, hprop, hend, hwindow, hexec, s₁, hcarry, rfl⟩
    obtain ⟨-, -, hproposals, htotal, -⟩ := (carryOut_ok hcarry).keeps
    refine ⟨hauth, ⟨gnd, hgnd⟩, prop, hprop, hend, hwindow, hexec, s₁, hcarry, ?_⟩
    rw [hproposals, htotal]
    rfl
  rintro ⟨hauth, ⟨gnd, hgnd⟩, prop, hprop, hend, hwindow, hexec, s₁, hcarry, rfl⟩
  obtain ⟨-, -, hproposals, htotal, -⟩ := (carryOut_ok hcarry).keeps
  refine ⟨hauth, gnd, hgnd, prop, hprop, hend, hwindow, hexec, s₁, hcarry, ?_⟩
  rw [hproposals, htotal]
  rfl

lemma execproposal_ok (h : s.execproposal env owner proposalId = .ok s') :
    ∃ prop s₁, s.proposals.find? proposalId = some prop ∧ Carried s env prop s₁ ∧
      s' = { s₁ with proposals := s.proposals.set proposalId (s.executed env prop) } := by
  obtain ⟨-, -, prop, hprop, -, -, -, s₁, hcarry, rfl⟩ := execproposal_ok_iff.mp h
  exact ⟨prop, s₁, hprop, carryOut_ok hcarry, rfl⟩

end SystemState

end DimensionChain.System
