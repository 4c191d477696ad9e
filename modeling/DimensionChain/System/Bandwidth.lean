import DimensionChain.System.State

/-!
# Staking for bandwidth

`changebw` in the order of its blocks: the delegation, the totals of the receiver, the refund and
the deferred transaction for it, and the stake of the voter. Each block changes its own tables
only; `StakeChange` says what becomes of these.
-/

namespace DimensionChain.System

open Asset DimensionChain.Config System.Config

def refundDelay : Time := 3 * 24 * 3600

def minProposalStake : Int64 := 1000000

def DelegatedBandwidth.change (netDelta cpuDelta : Int64) :
    Option DelegatedBandwidth → Result DelegatedBandwidth
  | none => pure ⟨netDelta, cpuDelta⟩
  | some dbo => do
    let net ← addAmount dbo.netWeight netDelta
    let cpu ← addAmount dbo.cpuWeight cpuDelta
    pure ⟨net, cpu⟩

def UserResources.change (netDelta cpuDelta : Int64) :
    Option UserResources → Result UserResources
  | none => pure ⟨netDelta, cpuDelta, 0⟩
  | some tot => do
    let net ← addAmount tot.netWeight netDelta
    let cpu ← addAmount tot.cpuWeight cpuDelta
    pure ⟨net, cpu, tot.ramBytes⟩

namespace SystemState
variable {Key : Type}

section Changebw
variable (s : SystemState Key)

def changeDelband (source receiver : AccountName) (netDelta cpuDelta : Int64) :
    Result (SystemState Key) := do
  let row ←
    DelegatedBandwidth.change netDelta cpuDelta (s.delband.find? (toLex (source, receiver)))
  eosioAssert (0 ≤ row.netWeight) "insufficient staked net bandwidth"
  eosioAssert (0 ≤ row.cpuWeight) "insufficient staked cpu bandwidth"
  pure { s with
    delband :=
      if row.netWeight = 0 ∧ row.cpuWeight = 0 then s.delband.erase (toLex (source, receiver))
      else s.delband.set (toLex (source, receiver)) row }

def changeTotals (receiver : AccountName) (netDelta cpuDelta : Int64) :
    Result (SystemState Key) := do
  let row ← UserResources.change netDelta cpuDelta (s.userres.find? receiver)
  eosioAssert (0 ≤ row.netWeight) "insufficient staked total net bandwidth"
  eosioAssert (0 ≤ row.cpuWeight) "insufficient staked total cpu bandwidth"
  let s ← s.setResourceLimits receiver row.ramBytes row.netWeight row.cpuWeight
  pure { s with
    userres :=
      if row.netWeight = 0 ∧ row.cpuWeight = 0 ∧ row.ramBytes = 0 then s.userres.erase receiver
      else s.userres.set receiver row }

/-- A balance is taken from a refund: what is left of the refund, and of the balance. -/
def settle (amount balance : Int64) : Result (Int64 × Int64) := do
  let rest ← subAmount amount balance
  if rest < 0 then pure (0, -rest) else pure (rest, 0)

/-- The refund request after a change, with what is left of both balances and whether the
refund needs a deferred transaction. -/
def changeRequest (env : Env) (source receiver : AccountName) (netBalance cpuBalance : Int64)
    (transfer : Bool) : Result (FlatMap AccountName RefundRequest × Int64 × Int64 × Bool) := do
  let isUndelegating := netBalance + cpuBalance < 0
  let isDelegatingToSelf := transfer = false ∧ source = receiver
  if isDelegatingToSelf ∨ isUndelegating then
    match s.refunds.find? source with
    | some req =>
      let requestTime := if netBalance < 0 ∨ cpuBalance < 0 then env.now else req.requestTime
      let (netAmount, netBalance) ← settle req.netAmount netBalance
      let (cpuAmount, cpuBalance) ← settle req.cpuAmount cpuBalance
      eosioAssert (0 ≤ netAmount) "negative net refund amount"
      eosioAssert (0 ≤ cpuAmount) "negative cpu refund amount"
      if netAmount = 0 ∧ cpuAmount = 0 then
        pure (s.refunds.erase source, netBalance, cpuBalance, false)
      else
        pure (s.refunds.set source ⟨requestTime, netAmount, cpuAmount⟩, netBalance, cpuBalance, true)
    | none =>
      if netBalance < 0 ∨ cpuBalance < 0 then
        let request : RefundRequest :=
          ⟨env.now, if netBalance < 0 then -netBalance else 0,
            if cpuBalance < 0 then -cpuBalance else 0⟩
        pure (s.refunds.set source request, if netBalance < 0 then 0 else netBalance,
          if cpuBalance < 0 then 0 else cpuBalance, true)
      else pure (s.refunds, netBalance, cpuBalance, false)
  else pure (s.refunds, netBalance, cpuBalance, false)

/-- The refund, its deferred transaction, and the transfer of what is not refunded. None of
these is for the stake of the account that holds the stakes. -/
def changeRefund (env : Env) (sourceStakeFrom source receiver : AccountName)
    (netDelta cpuDelta : Int64) (transfer : Bool) : Result (SystemState Key) :=
  if Config.stakeAccount = sourceStakeFrom then pure s
  else do
    let (refunds, netBalance, cpuBalance, needDeferredTrx) ←
      s.changeRequest env source receiver netDelta cpuDelta transfer
    let deferredRefunds :=
      if needDeferredTrx then s.deferredRefunds.set source (env.now + refundDelay)
      else s.deferredRefunds.erase source
    let transferAmount ← addAmount netBalance cpuBalance
    pure { s with
      refunds := refunds
      deferredRefunds := deferredRefunds
      transfers :=
        if 0 < transferAmount then
          s.transfers ++ [⟨sourceStakeFrom, Config.stakeAccount, ⟨transferAmount, Config.coreSymbol⟩,
            "stake bandwidth"⟩]
        else s.transfers }

def maxClaimable : Int64 := 1000000000000

def changeVoter (env : Env) (source : AccountName) (totalUpdate : Int64) :
    Result (SystemState Key) := do
  let staked :=
    match s.voters.find? source with
    | none => totalUpdate
    | some v => v.staked + totalUpdate
  eosioAssert (0 ≤ staked) "stake for voting cannot be negative"
  eosioAssert (source = b1Account → maxClaimable - env.claimable ≤ staked)
    "b1 can only claim their tokens over 10 years"
  pure { s with voters := s.voters.set source ⟨staked⟩ }

def changebw (env : Env) (source receiver : AccountName) (netDelta cpuDelta : Int64)
    (transfer : Bool) : Result (SystemState Key) := do
  requireAuth env source
  eosioAssert (netDelta ≠ 0 ∨ cpuDelta ≠ 0) "should stake non-zero amount"
  let totalUpdate ← addAmount netDelta cpuDelta
  eosioAssert (netDelta.abs ≤ totalUpdate.abs ∧ cpuDelta.abs ≤ totalUpdate.abs)
    "net and cpu deltas cannot be opposite signs"
  let sourceStakeFrom := source
  let source := if transfer then receiver else source
  let s ← s.changeDelband source receiver netDelta cpuDelta
  let s ← s.changeTotals receiver netDelta cpuDelta
  let s ← s.changeRefund env sourceStakeFrom source receiver netDelta cpuDelta transfer
  s.changeVoter env source totalUpdate

def voterWeight (account : AccountName) : Int64 :=
  match s.voters.find? account with
  | none => 0
  | some v => stakeToProposalVotes v.staked

def addWeight (info : ProposalInfo) (vote : Bool) (weight : Int64) : ProposalInfo :=
  if vote then { info with totalYeas := info.totalYeas + weight }
  else { info with totalNays := info.totalNays + weight }

def updateProposalVote (env : Env) (voterName : AccountName) (weight : Int64) (id : Nat)
    (info : ProposalInfo) : ProposalInfo :=
  if info.voteEndTime ≤ env.now then info
  else
    match s.propvote.find? (toLex (id, voterName)) with
    | none => info
    | some voteInfo => addWeight info voteInfo.vote weight

def updateProposalVotes (env : Env) (voterName : AccountName) (weight : Int64) : SystemState Key :=
  if s.gstate.proposalNum = 0 then s
  else { s with proposals := s.proposals.mapVal (s.updateProposalVote env voterName weight) }

def reweigh (env : Env) (account : AccountName) (weight : Int64) : SystemState Key :=
  if weight = 0 then s
  else
    let s := s.updateProposalVotes env account weight
    { s with gstate.totalProposalStake := s.gstate.totalProposalStake + weight }

def delegatebw (env : Env) (source receiver : AccountName) (netQuantity cpuQuantity : Asset)
    (transfer : Bool) : Result (SystemState Key) := do
  cpuQuantity.requireCore
  eosioAssert (0 ≤ cpuQuantity.amount) "must stake a positive amount"
  netQuantity.requireCore
  eosioAssert (0 ≤ netQuantity.amount) "must stake a positive amount"
  let quantity ← addAmount netQuantity.amount cpuQuantity.amount
  eosioAssert (0 < quantity) "must stake a positive amount"
  eosioAssert (transfer = false ∨ source ≠ receiver)
    "cannot use transfer flag if delegating to self"
  let changeAccount := if transfer then receiver else source
  let pvoteWeightOld := s.voterWeight changeAccount
  let s ← s.changebw env source receiver netQuantity.amount cpuQuantity.amount transfer
  let pvoteWeightNew := s.voterWeight changeAccount
  pure (s.reweigh env changeAccount (pvoteWeightNew - pvoteWeightOld))

def undelegatebw (env : Env) (source receiver : AccountName) (netQuantity cpuQuantity : Asset) :
    Result (SystemState Key) := do
  cpuQuantity.requireCore
  eosioAssert (0 ≤ cpuQuantity.amount) "must unstake a positive amount"
  netQuantity.requireCore
  eosioAssert (0 ≤ netQuantity.amount) "must unstake a positive amount"
  let quantity ← addAmount cpuQuantity.amount netQuantity.amount
  eosioAssert (0 < quantity) "must unstake a positive amount"
  eosioAssert (minProposalStake ≤ s.gstate.totalProposalStake)
    "cannot undelegate bandwidth until the chain is activated (at least 1 000 000)"
  let pvoteWeightOld := s.voterWeight source
  let s ← s.changebw env source receiver (-netQuantity.amount) (-cpuQuantity.amount) false
  let pvoteWeightNew := s.voterWeight source
  pure (s.reweigh env source (pvoteWeightNew - pvoteWeightOld))

def refund (env : Env) (owner : AccountName) : Result (SystemState Key) := do
  requireAuth env owner
  let req ← getRow s.refunds owner "refund request not found"
  eosioAssert (u32 (req.requestTime + refundDelay) ≤ env.now) "refund is not available yet"
  let amount ← addAmount req.netAmount req.cpuAmount
  pure { s.send stakeAccount owner amount "unstake" with refunds := s.refunds.erase owner }

end Changebw

variable {s s' : SystemState Key} {source receiver : AccountName} {net cpu : Int64} {env : Env}
  {transfer : Bool} {payer : AccountName}

lemma changeDelband_ok (h : s.changeDelband source receiver net cpu = .ok s') :
    ∃ row, DelegatedBandwidth.change net cpu (s.delband.find? (toLex (source, receiver))) = .ok row ∧
      0 ≤ row.netWeight ∧ 0 ≤ row.cpuWeight ∧
      s' = { s with
        delband :=
          if row.netWeight = 0 ∧ row.cpuWeight = 0 then s.delband.erase (toLex (source, receiver))
          else s.delband.set (toLex (source, receiver)) row } := by
  simp only [changeDelband, bind_ok_iff] at h
  obtain ⟨row, hrow, _, hnet, _, hcpu, h⟩ := h
  cases h
  exact ⟨row, hrow, eosioAssert_ok_iff.mp hnet, eosioAssert_ok_iff.mp hcpu, rfl⟩

lemma changeTotals_ok {receiver : AccountName} (h : s.changeTotals receiver net cpu = .ok s') :
    ∃ row, UserResources.change net cpu (s.userres.find? receiver) = .ok row ∧
      0 ≤ row.netWeight ∧ 0 ≤ row.cpuWeight ∧
      s' = { s with
        resourceLimits := s.resourceLimits.set receiver ⟨row.ramBytes, row.netWeight, row.cpuWeight⟩
        userres :=
          if row.netWeight = 0 ∧ row.cpuWeight = 0 ∧ row.ramBytes = 0 then s.userres.erase receiver
          else s.userres.set receiver row } := by
  simp only [changeTotals, bind_ok_iff] at h
  obtain ⟨row, hrow, _, hnet, _, hcpu, s₁, hlimits, h⟩ := h
  obtain rfl := setResourceLimits_ok hlimits
  cases h
  exact ⟨row, hrow, eosioAssert_ok_iff.mp hnet, eosioAssert_ok_iff.mp hcpu, rfl⟩

/-- What becomes of the refund request of an account, with what is left of the balances. -/
inductive RequestChange (s : SystemState Key) (env : Env) (source receiver : AccountName)
    (net cpu : Int64) (transfer : Bool) (refunds : FlatMap AccountName RefundRequest) :
    Int64 → Int64 → Bool → Prop where
  | other : ¬(transfer = false ∧ source = receiver) → ¬net + cpu < 0 → refunds = s.refunds →
      RequestChange s env source receiver net cpu transfer refunds net cpu false
  | absent : s.refunds.find? source = none → ¬(net < 0 ∨ cpu < 0) → refunds = s.refunds →
      RequestChange s env source receiver net cpu transfer refunds net cpu false
  | created : s.refunds.find? source = none → net < 0 ∨ cpu < 0 →
      refunds = s.refunds.set source
        ⟨env.now, if net < 0 then -net else 0, if cpu < 0 then -cpu else 0⟩ →
      RequestChange s env source receiver net cpu transfer refunds (if net < 0 then 0 else net)
        (if cpu < 0 then 0 else cpu) true
  | settled (req : RefundRequest) (netAmount cpuAmount netBalance cpuBalance : Int64) (need : Bool) :
      (transfer = false ∧ source = receiver) ∨ net + cpu < 0 →
      s.refunds.find? source = some req → settle req.netAmount net = .ok (netAmount, netBalance) →
      settle req.cpuAmount cpu = .ok (cpuAmount, cpuBalance) →
      refunds = (if netAmount = 0 ∧ cpuAmount = 0 then s.refunds.erase source
        else s.refunds.set source
          ⟨if net < 0 ∨ cpu < 0 then env.now else req.requestTime, netAmount, cpuAmount⟩) →
      (need = false ↔ netAmount = 0 ∧ cpuAmount = 0) →
      RequestChange s env source receiver net cpu transfer refunds netBalance cpuBalance need

lemma changeRequest_ok {net cpu netBalance cpuBalance : Int64}
    {transfer need : Bool} {refunds : FlatMap AccountName RefundRequest}
    (h : s.changeRequest env source receiver net cpu transfer =
      .ok (refunds, netBalance, cpuBalance, need)) :
    s.RequestChange env source receiver net cpu transfer refunds netBalance cpuBalance need := by
  unfold changeRequest at h
  by_cases hrefund : (transfer = false ∧ source = receiver) ∨ net + cpu < 0
  · rw [if_pos hrefund] at h
    cases hreq : s.refunds.find? source with
    | none =>
      rw [hreq] at h
      by_cases hneg : net < 0 ∨ cpu < 0
      · rw [if_pos hneg] at h
        cases h
        exact .created hreq hneg rfl
      · rw [if_neg hneg] at h
        cases h
        exact .absent hreq hneg rfl
    | some req =>
      rw [hreq] at h
      obtain ⟨⟨netAmount, netBalance'⟩, hnet, h⟩ := bind_ok_iff.mp h
      obtain ⟨⟨cpuAmount, cpuBalance'⟩, hcpu, h⟩ := bind_ok_iff.mp h
      obtain ⟨_, h⟩ := ok_after h
      obtain ⟨_, h⟩ := ok_after h
      by_cases hzero : netAmount = 0 ∧ cpuAmount = 0
      · rw [if_pos hzero] at h
        cases h
        exact .settled req netAmount cpuAmount _ _ _ hrefund hreq hnet hcpu (if_pos hzero).symm
          ⟨fun _ => hzero, fun _ => rfl⟩
      rw [if_neg hzero] at h
      cases h
      refine .settled req netAmount cpuAmount _ _ _ hrefund hreq hnet hcpu (if_neg hzero).symm ?_
      exact ⟨fun h => absurd h (by decide), fun h => absurd h hzero⟩
  rw [if_neg hrefund] at h
  cases h
  rw [not_or] at hrefund
  exact .other hrefund.1 hrefund.2 rfl

inductive RefundChange (s : SystemState Key) (env : Env) (payer source receiver : AccountName)
    (net cpu : Int64) (transfer : Bool) (s' : SystemState Key) : Prop where
  | kept : stakeAccount = payer → s'.refunds = s.refunds →
      s'.deferredRefunds = s.deferredRefunds → s'.transfers = s.transfers →
      RefundChange s env payer source receiver net cpu transfer s'
  | changed (netBalance cpuBalance amount : Int64) (needDeferredTrx : Bool) :
      stakeAccount ≠ payer →
      s.changeRequest env source receiver net cpu transfer =
        .ok (s'.refunds, netBalance, cpuBalance, needDeferredTrx) →
      s'.deferredRefunds = (if needDeferredTrx then s.deferredRefunds.set source (env.now + refundDelay)
        else s.deferredRefunds.erase source) →
      addAmount netBalance cpuBalance = .ok amount →
      s'.transfers = (if 0 < amount then
          s.transfers ++ [⟨payer, stakeAccount, ⟨amount, coreSymbol⟩, "stake bandwidth"⟩]
        else s.transfers) →
      RefundChange s env payer source receiver net cpu transfer s'

lemma changeRefund_ok (h : s.changeRefund env payer source receiver net cpu transfer = .ok s') :
    s.RefundChange env payer source receiver net cpu transfer s' ∧ s' = { s with
        refunds := s'.refunds, deferredRefunds := s'.deferredRefunds, transfers := s'.transfers } := by
  rw [changeRefund] at h
  by_cases hstake : stakeAccount = payer
  · rw [if_pos hstake] at h
    cases h
    exact ⟨.kept hstake rfl rfl rfl, rfl⟩
  rw [if_neg hstake] at h
  obtain ⟨⟨refunds, netBalance, cpuBalance, needDeferredTrx⟩, hrequest, h⟩ := bind_ok_iff.mp h
  obtain ⟨amount, hamount, h⟩ := bind_ok_iff.mp h
  cases h
  exact ⟨.changed netBalance cpuBalance amount needDeferredTrx hstake hrequest rfl hamount rfl, rfl⟩

lemma changeVoter_ok {source : AccountName} {total : Int64}
    (h : s.changeVoter env source total = .ok s') :
    ∃ staked, staked = ((s.voters.find? source).map VoterInfo.staked).getD 0 + total ∧ 0 ≤ staked ∧
      s' = { s with voters := s.voters.set source ⟨staked⟩ } := by
  obtain ⟨_, hnonneg, h⟩ := bind_ok_iff.mp h
  obtain ⟨_, h⟩ := ok_after h
  cases h
  refine ⟨_, ?_, eosioAssert_ok_iff.mp hnonneg, rfl⟩
  cases s.voters.find? source with
  | none => exact (zero_add total).symm
  | some v => rfl

structure StakeChange (s : SystemState Key) (env : Env) (payer source receiver : AccountName)
    (net cpu : Int64) (transfer : Bool) (s' : SystemState Key) : Prop where
  delband : ∃ row,
    DelegatedBandwidth.change net cpu (s.delband.find? (toLex (source, receiver))) = .ok row ∧
      0 ≤ row.netWeight ∧ 0 ≤ row.cpuWeight ∧
      s'.delband =
        if row.netWeight = 0 ∧ row.cpuWeight = 0 then s.delband.erase (toLex (source, receiver))
        else s.delband.set (toLex (source, receiver)) row
  totals : ∃ row, UserResources.change net cpu (s.userres.find? receiver) = .ok row ∧
    0 ≤ row.netWeight ∧ 0 ≤ row.cpuWeight ∧
    s'.resourceLimits = s.resourceLimits.set receiver ⟨row.ramBytes, row.netWeight, row.cpuWeight⟩ ∧
    s'.userres =
      if row.netWeight = 0 ∧ row.cpuWeight = 0 ∧ row.ramBytes = 0 then s.userres.erase receiver
      else s.userres.set receiver row
  refund : s.RefundChange env payer source receiver net cpu transfer s'
  voter : ∃ staked, staked = ((s.voters.find? source).map VoterInfo.staked).getD 0 + (net + cpu) ∧
    0 ≤ staked ∧ s'.voters = s.voters.set source ⟨staked⟩
  frame : s' = { s with
    delband := s'.delband, userres := s'.userres, resourceLimits := s'.resourceLimits
    refunds := s'.refunds, deferredRefunds := s'.deferredRefunds, transfers := s'.transfers
    voters := s'.voters }

lemma stakeChange_of_changebw (h : s.changebw env source receiver net cpu transfer = .ok s') :
    s.StakeChange env source (if transfer then receiver else source) receiver net cpu transfer s' := by
  simp only [changebw, bind_ok_iff] at h
  obtain ⟨_, -, _, -, total, htotal, _, -, s₁, h₁, s₂, h₂, s₃, h₃, hvoter⟩ := h
  obtain ⟨-, rfl⟩ := addAmount_ok_iff.mp htotal
  obtain ⟨dbo, hdbo, hnet, hcpu, rfl⟩ := changeDelband_ok h₁
  obtain ⟨tot, htot, hnet', hcpu', rfl⟩ := changeTotals_ok h₂
  obtain ⟨hrefund, hframe⟩ := changeRefund_ok h₃
  rw [hframe] at hvoter
  obtain ⟨staked, hstaked, hnonneg, rfl⟩ := changeVoter_ok hvoter
  refine ⟨⟨dbo, hdbo, hnet, hcpu, rfl⟩, ⟨tot, htot, hnet', hcpu', rfl, rfl⟩, ?_,
    ⟨staked, hstaked, hnonneg, rfl⟩, rfl⟩
  cases hrefund with
  | kept hstake hrefunds hdeferred htransfers => exact .kept hstake hrefunds hdeferred htransfers
  | changed nb cb amount need hstake hrequest hdeferred hamount htransfers =>
    exact .changed nb cb amount need hstake hrequest hdeferred hamount htransfers

/-- What staking leaves alone: everything but the stakes, and among these all but one. -/
structure Restaked (s s' : SystemState Key) (account : AccountName) : Prop where
  voters : ∃ staked, s'.voters = s.voters.set account ⟨staked⟩
  producers : s'.producers = s.producers
  gnode : s'.gnode = s.gnode
  proposals : s'.proposals = s.proposals
  propvote : s'.propvote = s.propvote
  gstate : s'.gstate = s.gstate

lemma StakeChange.restaked (h : s.StakeChange env payer source receiver net cpu transfer s') :
    s.Restaked s' source := by
  obtain ⟨staked, -, -, hvoters⟩ := h.voter
  have hframe := h.frame
  refine ⟨⟨staked, hvoters⟩, ?_, ?_, ?_, ?_, ?_⟩ <;> rw [hframe]

structure Deltas (net cpu : Int64) : Prop where
  sign : (0 ≤ net.toInt ∧ 0 ≤ cpu.toInt ∧ 0 < net.toInt + cpu.toInt) ∨
    (net.toInt ≤ 0 ∧ cpu.toInt ≤ 0 ∧ net.toInt + cpu.toInt < 0)
  low : -(2 ^ 62 - 1) ≤ net.toInt + cpu.toInt
  high : net.toInt + cpu.toInt ≤ 2 ^ 62 - 1

lemma deltas_of_sum {a b sum : Int64} (ha : 0 ≤ a) (hb : 0 ≤ b) (hsum : addAmount a b = .ok sum)
    (hpos : 0 < sum) : Deltas a b ∧ 0 < a.toInt + b.toInt := by
  obtain ⟨hrange, rfl⟩ := addAmount_ok_iff.mp hsum
  rw [amountInRange_iff] at hrange
  have ha' : 0 ≤ a.toInt := Int64.le_iff_toInt_le.mp ha
  have hb' : 0 ≤ b.toInt := Int64.le_iff_toInt_le.mp hb
  have hpos' : 0 < (a + b).toInt := Int64.lt_iff_toInt_lt.mp hpos
  have hexact := toInt_add_of_nonneg ha' hb' hpos'.le
  rw [hexact] at hpos' hrange
  exact ⟨⟨.inl ⟨ha', hb', hpos'⟩, hrange.1, hrange.2⟩, hpos'⟩

variable (h : Deltas net cpu) {owner : AccountName}
include h

lemma Deltas.inRange : Asset.AmountInRange net ∧ Asset.AmountInRange cpu := by
  obtain ⟨hsign, hlow, hhigh⟩ := h
  rw [amountInRange_iff, amountInRange_iff]
  omega

lemma Deltas.neg : Deltas (-net) (-cpu) := by
  have hnet := toInt_neg_of_inRange h.inRange.1
  have hcpu := toInt_neg_of_inRange h.inRange.2
  obtain ⟨hsign, hlow, hhigh⟩ := h
  refine ⟨?_, ?_, ?_⟩ <;> rw [hnet, hcpu] <;> omega

lemma Deltas.toInt_add : (net + cpu).toInt = net.toInt + cpu.toInt :=
  toInt_add_of_inRange h.inRange.1 h.inRange.2

omit h

lemma stakeChange_of_delegatebw {net cpu : Asset}
    (h : s.delegatebw env source receiver net cpu transfer = .ok s') :
    Deltas net.amount cpu.amount ∧ 0 < net.amount.toInt + cpu.amount.toInt ∧
      ∃ s₁, s.StakeChange env source (if transfer then receiver else source) receiver net.amount
          cpu.amount transfer s₁ ∧ s' = s₁.reweigh env (if transfer then receiver else source)
          (s₁.voterWeight (if transfer then receiver else source) -
            s.voterWeight (if transfer then receiver else source)) := by
  simp only [delegatebw, bind_ok_iff] at h
  obtain ⟨_, -, _, hcpu, _, -, _, hnet, quantity, hquantity, _, hpos, _, -, s₁, h₁, h⟩ := h
  cases h
  obtain ⟨hdeltas, hsum⟩ := deltas_of_sum (eosioAssert_ok_iff.mp hnet) (eosioAssert_ok_iff.mp hcpu)
    hquantity (eosioAssert_ok_iff.mp hpos)
  exact ⟨hdeltas, hsum, s₁, stakeChange_of_changebw h₁, rfl⟩

lemma stakeChange_of_undelegatebw {net cpu : Asset}
    (h : s.undelegatebw env source receiver net cpu = .ok s') :
    Deltas (-net.amount) (-cpu.amount) ∧ (-net.amount).toInt + (-cpu.amount).toInt < 0 ∧
      ∃ s₁, s.StakeChange env source source receiver (-net.amount) (-cpu.amount) false s₁ ∧
        s' = s₁.reweigh env source (s₁.voterWeight source - s.voterWeight source) := by
  simp only [undelegatebw, bind_ok_iff] at h
  obtain ⟨_, -, _, hcpu, _, -, _, hnet, quantity, hquantity, _, hpos, _, -, s₁, h₁, h⟩ := h
  cases h
  have hquantity' : addAmount net.amount cpu.amount = .ok quantity := by
    rw [addAmount_ok_iff] at hquantity ⊢
    rw [Int64.add_comm]
    exact hquantity
  obtain ⟨hdeltas, hsum⟩ := deltas_of_sum (eosioAssert_ok_iff.mp hnet) (eosioAssert_ok_iff.mp hcpu)
    hquantity' (eosioAssert_ok_iff.mp hpos)
  refine ⟨hdeltas.neg, ?_, s₁, stakeChange_of_changebw h₁, rfl⟩
  rw [toInt_neg_of_inRange hdeltas.inRange.1, toInt_neg_of_inRange hdeltas.inRange.2]
  omega

lemma delegatebw_ok {net cpu : Asset}
    (h : s.delegatebw env source receiver net cpu transfer = .ok s') :
    ∃ account s₁, s.Restaked s₁ account ∧
      s' = s₁.reweigh env account (s₁.voterWeight account - s.voterWeight account) := by
  obtain ⟨-, -, s₁, hchange, rfl⟩ := stakeChange_of_delegatebw h
  exact ⟨_, s₁, hchange.restaked, rfl⟩

lemma undelegatebw_ok {net cpu : Asset} (h : s.undelegatebw env source receiver net cpu = .ok s') :
    ∃ account s₁, s.Restaked s₁ account ∧
      s' = s₁.reweigh env account (s₁.voterWeight account - s.voterWeight account) := by
  obtain ⟨-, -, s₁, hchange, rfl⟩ := stakeChange_of_undelegatebw h
  exact ⟨source, s₁, hchange.restaked, rfl⟩

lemma reweigh_eq (s : SystemState Key) (env : Env) (account : AccountName) (weight : Int64) :
    ∃ proposals, s.reweigh env account weight = { s with
      proposals := proposals
      gstate.totalProposalStake := s.gstate.totalProposalStake + weight } := by
  unfold reweigh updateProposalVotes
  by_cases hweight : weight = 0
  · rw [if_pos hweight, hweight, add_zero]
    exact ⟨s.proposals, rfl⟩
  rw [if_neg hweight]
  by_cases hnum : s.gstate.proposalNum = 0
  · rw [if_pos hnum]
    exact ⟨s.proposals, rfl⟩
  · rw [if_neg hnum]
    exact ⟨_, rfl⟩

lemma reweigh_frame {account : AccountName} {weight : Int64}
    (h : s' = s.reweigh env account weight) : ∃ proposals total,
      s' = { s with proposals := proposals, gstate.totalProposalStake := total } := by
  obtain ⟨proposals, heq⟩ := s.reweigh_eq env account weight
  exact ⟨proposals, _, h.trans heq⟩

lemma refund_cases (h : s.refund env owner = .ok s') :
    owner ∈ env.auths ∧ ∃ req amount, s.refunds.find? owner = some req ∧
      addAmount req.netAmount req.cpuAmount = .ok amount ∧
      s' = { s.send stakeAccount owner amount "unstake" with
        refunds := s.refunds.erase owner } := by
  simp only [refund, bind_ok_iff] at h
  obtain ⟨_, hauth, req, hreq, _, -, amount, hamount, h⟩ := h
  cases h
  exact ⟨requireAuth_ok_iff.mp hauth, req, amount, getRow_ok_iff.mp hreq, hamount, rfl⟩

lemma refund_ok (h : s.refund env owner = .ok s') :
    ∃ refunds transfers, s' = { s with refunds := refunds, transfers := transfers } := by
  obtain ⟨-, req, amount, -, -, rfl⟩ := refund_cases h
  exact ⟨_, _, rfl⟩

end SystemState

end DimensionChain.System
