import DimensionChain.System.Contracts

/-!
# The ledger of stakes

One row per delegation, and three places that have to agree with the rows: the stake of the voter
who owns them, the totals of the account that receives them, and the limits that were set for it.
No addition of the contract wraps, since the amounts of a delegation are in the range of assets
and the stake of a voter is checked not to be negative.
-/

namespace DimensionChain.System

open FlatMap Int64 Asset SystemState UserResources

def UserResources.limits (res : UserResources) : ResourceLimits :=
  ⟨res.ramBytes, res.netWeight, res.cpuWeight⟩

namespace SystemState
variable {Key : Type} {amount : Int64}

section Sums
variable (s : SystemState Key)

def staked (account : AccountName) : Int :=
  ((s.voters.find? account).map fun v => v.staked.toInt).getD 0

def netWeight (account : AccountName) : Int :=
  ((s.userres.find? account).map fun res => res.netWeight.toInt).getD 0

def cpuWeight (account : AccountName) : Int :=
  ((s.userres.find? account).map fun res => res.cpuWeight.toInt).getD 0

def delegatedFrom (account : AccountName) : Int :=
  s.delband.total fun k d =>
    if (ofLex k).1 = account then d.netWeight.toInt + d.cpuWeight.toInt else 0

def netDelegatedTo (account : AccountName) : Int :=
  s.delband.total fun k d => if (ofLex k).2 = account then d.netWeight.toInt else 0

def cpuDelegatedTo (account : AccountName) : Int :=
  s.delband.total fun k d => if (ofLex k).2 = account then d.cpuWeight.toInt else 0

end Sums

def Weight (amount : Int64) : Prop := 0 ≤ amount.toInt ∧ amount.toInt ≤ 2 ^ 62 - 1

lemma weight_zero : Weight 0 := ⟨le_rfl, by decide⟩

lemma Weight.inRange (h : Weight amount) : Asset.AmountInRange amount := by
  unfold Weight at h
  rw [amountInRange_iff]
  omega

lemma weight_of_inRange (h : Asset.AmountInRange amount) (hnonneg : 0 ≤ amount) : Weight amount :=
  ⟨le_iff_toInt_le.mp hnonneg, (amountInRange_iff.mp h).2⟩

structure Consistent (s : SystemState Key) : Prop where
  row : ∀ k d, s.delband.find? k = some d →
    Weight d.netWeight ∧ Weight d.cpuWeight ∧ ¬(d.netWeight = 0 ∧ d.cpuWeight = 0)
  total : ∀ r res, s.userres.find? r = some res → Weight res.netWeight ∧ Weight res.cpuWeight
  voter : ∀ f v, s.voters.find? f = some v → 0 ≤ v.staked.toInt
  staked : ∀ f, s.staked f = s.delegatedFrom f
  net : ∀ r, s.netWeight r = s.netDelegatedTo r
  cpu : ∀ r, s.cpuWeight r = s.cpuDelegatedTo r
  unset : ∀ r, s.resourceLimits.find? r = none → s.userres.find? r = none
  limits : ∀ r l, s.resourceLimits.find? r = some l →
    l = ((s.userres.find? r).map limits).getD ⟨0, 0, 0⟩

/-- Every delegation has two weights that are not both zero. -/
def Weighed (s : SystemState Key) : Prop :=
  ∀ k d, s.delband.find? k = some d →
    Weight d.netWeight ∧ Weight d.cpuWeight ∧ ¬(d.netWeight = 0 ∧ d.cpuWeight = 0)

section Rows
variable {net cpu : Int64}

lemma delegation_exact {old : Option DelegatedBandwidth} {row : DelegatedBandwidth}
    (hold : ∀ d ∈ old, Asset.AmountInRange d.netWeight ∧ Asset.AmountInRange d.cpuWeight)
    (hd : Deltas net cpu) (h : DelegatedBandwidth.change net cpu old = .ok row) :
    (Asset.AmountInRange row.netWeight ∧ Asset.AmountInRange row.cpuWeight) ∧
      row.netWeight.toInt = (old.map fun d => d.netWeight.toInt).getD 0 + net.toInt ∧
      row.cpuWeight.toInt = (old.map fun d => d.cpuWeight.toInt).getD 0 + cpu.toInt := by
  cases old with
  | none =>
    cases h
    exact ⟨hd.inRange, (zero_add _).symm, (zero_add _).symm⟩
  | some d =>
    obtain ⟨net', hnet, h⟩ := bind_ok_iff.mp h
    obtain ⟨cpu', hcpu, h⟩ := bind_ok_iff.mp h
    cases h
    obtain ⟨hdnet, hdcpu⟩ := hold d rfl
    obtain ⟨hrange, hexact⟩ := addAmount_exact hdnet hd.inRange.1 hnet
    obtain ⟨hrange', hexact'⟩ := addAmount_exact hdcpu hd.inRange.2 hcpu
    exact ⟨⟨hrange, hrange'⟩, hexact, hexact'⟩

lemma UserResources.change_weights {old : Option UserResources} {row : UserResources}
    (h : change net cpu old = .ok row) :
    DelegatedBandwidth.change net cpu (old.map fun res => ⟨res.netWeight, res.cpuWeight⟩) =
      .ok ⟨row.netWeight, row.cpuWeight⟩ := by
  cases old with
  | none =>
    cases h
    rfl
  | some res =>
    obtain ⟨net', hnet, h⟩ := bind_ok_iff.mp h
    obtain ⟨cpu', hcpu, h⟩ := bind_ok_iff.mp h
    cases h
    exact bind_ok_iff.mpr ⟨_, hnet, bind_ok_iff.mpr ⟨_, hcpu, rfl⟩⟩

end Rows

section Stake
variable {s s' : SystemState Key} {env : Env} {payer source receiver : AccountName}
  {net cpu : Int64} {transfer : Bool}
  (h : s.StakeChange env payer source receiver net cpu transfer s')
include h

lemma StakeChange.delegations (hd : Deltas net cpu) (hrow : s.Weighed) :
    s'.Weighed ∧ ∀ (q : AccountName × AccountName → Prop) [DecidablePred q],
        s'.delband.total (fun k d => if q (ofLex k) then d.netWeight.toInt else 0) =
            s.delband.total (fun k d => if q (ofLex k) then d.netWeight.toInt else 0) +
              (if q (source, receiver) then net.toInt else 0) ∧
          s'.delband.total (fun k d => if q (ofLex k) then d.cpuWeight.toInt else 0) =
            s.delband.total (fun k d => if q (ofLex k) then d.cpuWeight.toInt else 0) +
              (if q (source, receiver) then cpu.toInt else 0) := by
  obtain ⟨row, hchange, hnet, hcpu, hdelband⟩ := h.delband
  obtain ⟨⟨hnetRange, hcpuRange⟩, hnetExact, hcpuExact⟩ := delegation_exact
    (fun d hmem => ⟨(hrow _ d hmem).1.inRange, (hrow _ d hmem).2.1.inRange⟩) hd hchange
  unfold Weighed
  rw [hdelband]
  refine ⟨forall_store hrow fun hzero => ?_, fun q _ => ⟨?_, ?_⟩⟩
  · exact ⟨weight_of_inRange hnetRange hnet, weight_of_inRange hcpuRange hcpu, hzero⟩
  · rw [total_store_if _ _ _ (fun k => q (ofLex k))
      (fun d : DelegatedBandwidth => d.netWeight.toInt) (fun hzero => by rw [hzero.1]; rfl),
      hnetExact, add_sub_cancel_left]
    rfl
  rw [total_store_if _ _ _ (fun k => q (ofLex k))
    (fun d : DelegatedBandwidth => d.cpuWeight.toInt) (fun hzero => by rw [hzero.2]; rfl),
    hcpuExact, add_sub_cancel_left]
  rfl

omit h in
lemma delegatedFrom_eq (s : SystemState Key) (account : AccountName) : s.delegatedFrom account =
      s.delband.total (fun k d => if (ofLex k).1 = account then d.netWeight.toInt else 0) +
        s.delband.total (fun k d => if (ofLex k).1 = account then d.cpuWeight.toInt else 0) := by
  unfold delegatedFrom total
  rw [← List.sum_map_add]
  congr 1
  apply List.map_congr_left
  intro e _
  dsimp only
  split
  · rfl
  · rfl

/-- The stake of the owner after a change: exact, since it would be negative if it had wrapped. -/
lemma StakeChange.staked
    (hd : Deltas net cpu) (hvoter : ∀ f v, s.voters.find? f = some v → 0 ≤ v.staked.toInt) :
    (∀ f v, s'.voters.find? f = some v → 0 ≤ v.staked.toInt) ∧
      ∀ f, s'.staked f = s.staked f + if f = source then net.toInt + cpu.toInt else 0 := by
  obtain ⟨staked, hstaked, hnonneg, hvoters⟩ := h.voter
  have hnonneg' : 0 ≤ staked.toInt := le_iff_toInt_le.mp hnonneg
  have hexact : staked.toInt = s.staked source + (net.toInt + cpu.toInt) := by
    have hsum := hd.toInt_add
    obtain ⟨-, hlow, hhigh⟩ := hd
    unfold SystemState.staked
    cases hold : s.voters.find? source with
    | none =>
      rw [hold] at hstaked
      rw [hstaked, ← hsum]
      exact (congrArg Int64.toInt (zero_add (net + cpu))).trans (zero_add _).symm
    | some v =>
      have hv := hvoter source v hold
      have hlt := toInt_lt v.staked
      rw [hold] at hstaked
      change staked = v.staked + (net + cpu) at hstaked
      change _ = v.staked.toInt + _
      rw [hstaked, toInt_add, hsum, Int.bmod_def] at hnonneg'
      rw [hstaked, toInt_add, hsum, Int.bmod_def]
      split at hnonneg' <;> split <;> omega
  refine ⟨?_, fun f => ?_⟩
  · rw [hvoters]
    exact forall_set hvoter hnonneg'
  unfold SystemState.staked at hexact ⊢
  rw [hvoters, lookup_set]
  by_cases hf : f = source
  · rw [if_pos hf, if_pos hf, hf]
    exact hexact
  · rw [if_neg hf, if_neg hf, add_zero]

lemma StakeChange.weights (hd : Deltas net cpu)
    (htotal : ∀ r res, s.userres.find? r = some res → Weight res.netWeight ∧ Weight res.cpuWeight) :
    (∀ r res, s'.userres.find? r = some res → Weight res.netWeight ∧ Weight res.cpuWeight) ∧
      (∀ r, s'.netWeight r = s.netWeight r + if r = receiver then net.toInt else 0) ∧
      ∀ r, s'.cpuWeight r = s.cpuWeight r + if r = receiver then cpu.toInt else 0 := by
  obtain ⟨row, hchange, hnet, hcpu, -, huserres⟩ := h.totals
  have hold : ∀ d ∈ (s.userres.find? receiver).map fun res =>
      (⟨res.netWeight, res.cpuWeight⟩ : DelegatedBandwidth),
      Asset.AmountInRange d.netWeight ∧ Asset.AmountInRange d.cpuWeight := by
    rintro _ hmem
    obtain ⟨res, hres, rfl⟩ := Option.map_eq_some_iff.mp hmem
    exact ⟨(htotal _ res hres).1.inRange, (htotal _ res hres).2.inRange⟩
  obtain ⟨⟨hnetRange, hcpuRange⟩, hnetExact, hcpuExact⟩ :=
    delegation_exact hold hd (UserResources.change_weights hchange)
  rw [Option.map_map] at hnetExact hcpuExact
  unfold netWeight cpuWeight
  rw [huserres]
  refine ⟨forall_store htotal fun _ => ?_, fun r => ?_, fun r => ?_⟩
  · exact ⟨weight_of_inRange hnetRange hnet, weight_of_inRange hcpuRange hcpu⟩
  · rw [lookup_store (fun res : UserResources => res.netWeight.toInt)
      (fun hzero => by rw [hzero.1]; rfl)]
    by_cases hreceiver : r = receiver
    · rw [if_pos hreceiver, if_pos hreceiver, hreceiver, hnetExact]
      rfl
    · rw [if_neg hreceiver, if_neg hreceiver, add_zero]
  rw [lookup_store (fun res : UserResources => res.cpuWeight.toInt)
    (fun hzero => by rw [hzero.2.1]; rfl)]
  by_cases hreceiver : r = receiver
  · rw [if_pos hreceiver, if_pos hreceiver, hreceiver, hcpuExact]
    rfl
  · rw [if_neg hreceiver, if_neg hreceiver, add_zero]

lemma StakeChange.limits (hunset : ∀ r, s.resourceLimits.find? r = none → s.userres.find? r = none)
    (hlimits : ∀ r l, s.resourceLimits.find? r = some l →
      l = ((s.userres.find? r).map limits).getD ⟨0, 0, 0⟩) :
    (∀ r, s'.resourceLimits.find? r = none → s'.userres.find? r = none) ∧
      ∀ r l, s'.resourceLimits.find? r = some l →
        l = ((s'.userres.find? r).map limits).getD ⟨0, 0, 0⟩ := by
  obtain ⟨row, -, -, -, hset, huserres⟩ := h.totals
  rw [hset, huserres]
  refine ⟨fun r hr => ?_, fun r l hr => ?_⟩
  · rw [find?_set] at hr
    split at hr
    · cases hr
    · rename_i hreceiver
      rw [find?_store, if_neg hreceiver]
      exact hunset r hr
  rw [find?_set] at hr
  rw [find?_store]
  by_cases hreceiver : r = receiver
  · rw [if_pos hreceiver] at hr
    cases hr
    rw [if_pos hreceiver]
    split
    · rename_i hzero
      obtain ⟨hnet, hcpu, hram⟩ := hzero
      rw [hnet, hcpu, hram]
      rfl
    · rfl
  · rw [if_neg hreceiver] at hr
    rw [if_neg hreceiver]
    exact hlimits r l hr

omit h

lemma Consistent.stakeChange (h : s.Consistent) (hd : Deltas net cpu)
    (hchange : s.StakeChange env payer source receiver net cpu transfer s') : s'.Consistent := by
  obtain ⟨hrow, hsums⟩ := hchange.delegations hd h.row
  obtain ⟨hvoter, hstaked⟩ := hchange.staked hd h.voter
  obtain ⟨htotal, hnet, hcpu⟩ := hchange.weights hd h.total
  obtain ⟨hunset, hlimits⟩ := hchange.limits h.unset h.limits
  refine ⟨hrow, htotal, hvoter, fun f => ?_, fun r => ?_, fun r => ?_, hunset, hlimits⟩
  · obtain ⟨hnetSum, hcpuSum⟩ := hsums fun k => k.1 = f
    rw [hstaked, h.staked, delegatedFrom_eq, delegatedFrom_eq, hnetSum, hcpuSum]
    by_cases hf : f = source
    · rw [if_pos hf, if_pos hf.symm, if_pos hf.symm]
      omega
    · rw [if_neg hf, if_neg (Ne.symm hf), if_neg (Ne.symm hf)]
      omega
  · unfold netDelegatedTo
    rw [hnet, h.net, (hsums fun k => k.2 = r).1]
    by_cases hr : r = receiver
    · rw [if_pos hr, if_pos hr.symm]
      rfl
    · rw [if_neg hr, if_neg (Ne.symm hr)]
      rfl
  unfold cpuDelegatedTo
  rw [hcpu, h.cpu, (hsums fun k => k.2 = r).2]
  by_cases hr : r = receiver
  · rw [if_pos hr, if_pos hr.symm]
    rfl
  · rw [if_neg hr, if_neg (Ne.symm hr)]
    rfl

end Stake

variable {s s' : SystemState Key} (h : s.Consistent) {env : Env} {p : Pricing}
include h

lemma Consistent.congr (hvoters : s'.voters = s.voters)
    (hdelband : s'.delband = s.delband) (huserres : s'.userres = s.userres)
    (hlimits : s'.resourceLimits = s.resourceLimits) : s'.Consistent := by
  have hstaked : ∀ f, s'.staked f = s.staked f := by
    intro f
    unfold SystemState.staked
    rw [hvoters]
  have hnet : ∀ r, s'.netWeight r = s.netWeight r := by
    intro r
    unfold SystemState.netWeight
    rw [huserres]
  have hcpu : ∀ r, s'.cpuWeight r = s.cpuWeight r := by
    intro r
    unfold cpuWeight
    rw [huserres]
  refine ⟨?_, ?_, ?_, fun f => ?_, fun r => ?_, fun r => ?_, ?_, ?_⟩
  · rw [hdelband]
    exact h.row
  · rw [huserres]
    exact h.total
  · rw [hvoters]
    exact h.voter
  · rw [hstaked, h.staked]
    unfold delegatedFrom
    rw [hdelband]
  · rw [hnet, h.net]
    unfold netDelegatedTo
    rw [hdelband]
  · rw [hcpu, h.cpu]
    unfold cpuDelegatedTo
    rw [hdelband]
  · rw [hlimits, huserres]
    exact h.unset
  · rw [hlimits, huserres]
    exact h.limits

lemma Consistent.changeRam {account : AccountName} {res : UserResources}
    {bytes : Int64} (hres : res = (s.userres.find? account).getD ⟨0, 0, 0⟩)
    (hvoters : s'.voters = s.voters) (hdelband : s'.delband = s.delband)
    (huserres : s'.userres = s.userres.set account { res with ramBytes := bytes })
    (hlimits : s'.resourceLimits =
      s.resourceLimits.set account ⟨bytes, res.netWeight, res.cpuWeight⟩) : s'.Consistent := by
  have hfind : ∀ r, s'.userres.find? r =
      if r = account then some { res with ramBytes := bytes } else s.userres.find? r := by
    intro r
    rw [huserres, find?_set]
  have hweight : Weight res.netWeight ∧ Weight res.cpuWeight := by
    rw [hres]
    cases hold : s.userres.find? account with
    | none => exact ⟨weight_zero, weight_zero⟩
    | some old => exact h.total account old hold
  have hold : res.netWeight.toInt = s.netWeight account ∧ res.cpuWeight.toInt = s.cpuWeight account := by
    unfold netWeight cpuWeight
    rw [hres]
    cases s.userres.find? account with
    | none => exact ⟨rfl, rfl⟩
    | some old => exact ⟨rfl, rfl⟩
  have hsame : ∀ r, s'.netWeight r = s.netWeight r ∧ s'.cpuWeight r = s.cpuWeight r := by
    intro r
    unfold netWeight cpuWeight at hold ⊢
    rw [huserres, lookup_set, lookup_set]
    by_cases hr : r = account
    · rw [if_pos hr, if_pos hr, hr]
      exact hold
    · rw [if_neg hr, if_neg hr]
      exact ⟨rfl, rfl⟩
  refine ⟨?_, ?_, ?_, fun f => ?_, fun r => ?_, fun r => ?_, fun r hr => ?_,
    fun r l hr => ?_⟩
  · rw [hdelband]
    exact h.row
  · rw [huserres]
    exact forall_set h.total hweight
  · rw [hvoters]
    exact h.voter
  · unfold SystemState.staked delegatedFrom
    rw [hvoters, hdelband]
    exact h.staked f
  · rw [(hsame r).1, h.net]
    unfold netDelegatedTo
    rw [hdelband]
  · rw [(hsame r).2, h.cpu]
    unfold cpuDelegatedTo
    rw [hdelband]
  · rw [hlimits, find?_set] at hr
    split at hr
    · cases hr
    · rename_i hne
      rw [hfind, if_neg hne]
      exact h.unset r hr
  rw [hlimits, find?_set] at hr
  rw [hfind]
  split at hr
  · rename_i heq
    rw [if_pos heq]
    cases hr
    rfl
  · rename_i hne
    rw [if_neg hne]
    exact h.limits r l hr

lemma Consistent.refund {owner : AccountName}
    (hok : s.refund env owner = .ok s') : s'.Consistent := by
  obtain ⟨refunds, transfers, rfl⟩ := refund_ok hok
  exact h.congr rfl rfl rfl rfl

lemma Consistent.buyram {payer receiver : AccountName}
    {quant : Asset} (hok : s.buyram p env payer receiver quant = .ok s') : s'.Consistent := by
  obtain ⟨market, market', bytesOut, res, -, -, -, hres, rfl⟩ := buyram_ok hok
  exact h.changeRam hres rfl rfl rfl rfl

lemma Consistent.newaccount {creator newact : AccountName}
    (hok : s.newaccount creator newact = .ok s') : s'.Consistent := by
  obtain ⟨hnone, namebids, rfl⟩ := newaccount_frame hok
  have hres : (⟨0, 0, 0⟩ : UserResources) = (s.userres.find? newact).getD ⟨0, 0, 0⟩ := by
    rw [hnone]
    rfl
  exact h.changeRam hres rfl rfl rfl rfl

lemma Consistent.reweigh (env : Env) (account : AccountName) (weight : Int64) :
    (s.reweigh env account weight).Consistent := by
  obtain ⟨proposals, heq⟩ := s.reweigh_eq env account weight
  rw [heq]
  exact h.congr rfl rfl rfl rfl

lemma Consistent.resource {action : ResourceAction}
    (hok : s.resource p env action = .ok s') : s'.Consistent := by
  cases action with
  | delegatebw source receiver net cpu transfer =>
    obtain ⟨hd, -, s₁, hchange, rfl⟩ := stakeChange_of_delegatebw hok
    exact (h.stakeChange hd hchange).reweigh _ _ _
  | undelegatebw source receiver net cpu =>
    obtain ⟨hd, -, s₁, hchange, rfl⟩ := stakeChange_of_undelegatebw hok
    exact (h.stakeChange hd hchange).reweigh _ _ _
  | refund owner => exact h.refund hok
  | deferredRefund owner =>
    obtain ⟨s₁, hrefund, rfl⟩ := deferredRefund_ok hok
    exact (h.refund hrefund).congr rfl rfl rfl rfl
  | buyram payer receiver quant => exact h.buyram hok
  | buyrambytes payer receiver bytes =>
    obtain ⟨market, market', eosout, -, -, hbuy⟩ := buyrambytes_ok hok
    exact h.buyram hbuy
  | sellram account bytes =>
    obtain ⟨market, market', tokensOut, res, -, -, -, hrow, -, rfl⟩ := sellram_ok hok
    have hres : res = (s.userres.find? account).getD ⟨0, 0, 0⟩ := by
      rw [hrow]
      rfl
    exact h.changeRam hres rfl rfl rfl rfl
  | setram maxRamSize =>
    obtain ⟨market, -, rfl⟩ := setram_ok hok
    exact h.congr rfl rfl rfl rfl
  | newaccount creator newact => exact h.newaccount hok

omit h

lemma consistent_start : ({} : SystemState Key).Consistent where
  row _ _ h := by cases h
  total _ _ h := by cases h
  voter _ _ h := by cases h
  staked _ := rfl
  net _ := rfl
  cpu _ := rfl
  unset _ _ := rfl
  limits _ _ h := by cases h

end SystemState

namespace ContractState
variable {Key : Type} {c c' : ContractState Key} {p : Pricing}

lemma consistent_step {label : Call × ResourceAction} (h : c.system.Consistent)
    (hstep : Step p c label c') : c'.system.Consistent := by
  obtain ⟨s, hconstruct, hact, -, -⟩ := exec_ok hstep.2
  have hs : s.Consistent := by
    rw [(constructed_ok hconstruct).1]
    exact h.congr rfl rfl rfl rfl
  exact hs.resource hact

/-- After every run of actions on resources the stake of each voter, the totals of each account
and the limits set for it are what the delegations sum up to, and each delegation is of amounts
that are not negative and not both zero. -/
theorem stake_ledger_consistent {token : Token.TokenState} {now : Time}
    {es : List (ContractState Key × (Call × ResourceAction) × ContractState Key)}
    (hrun : Steps (Step p) ⟨{}, token, now⟩ es c) :
    (∀ f, c.system.staked f = c.system.delegatedFrom f) ∧
      (∀ r, c.system.netWeight r = c.system.netDelegatedTo r ∧
        c.system.cpuWeight r = c.system.cpuDelegatedTo r) ∧
      (∀ r l, c.system.resourceLimits.find? r = some l →
        l = ((c.system.userres.find? r).map limits).getD ⟨0, 0, 0⟩) ∧
      (∀ r, c.system.resourceLimits.find? r = none → c.system.userres.find? r = none) ∧
      ∀ k d, c.system.delband.find? k = some d →
        0 ≤ d.netWeight.toInt ∧ 0 ≤ d.cpuWeight.toInt ∧ ¬(d.netWeight = 0 ∧ d.cpuWeight = 0) := by
  have h : c.system.Consistent :=
    hrun.invariant (Q := fun c => c.system.Consistent) consistent_step consistent_start
  refine ⟨h.staked, fun r => ⟨h.net r, h.cpu r⟩, h.limits, h.unset, fun k d hk => ?_⟩
  obtain ⟨hnet, hcpu, hne⟩ := h.row k d hk
  exact ⟨hnet.1, hcpu.1, hne⟩

/-- A stake for oneself, one for another account that keeps it, a part of the first one back, and
memory that is bought and sold in part. -/
def stakingSteps : List (Call × ResourceAction) :=
  [(callAt 1 staker, .delegatebw staker staker (coreTokens 1000000000000) (coreTokens 5) false),
    (callAt 2 staker, .delegatebw staker friend (coreTokens 0) (coreTokens 70) true),
    (callAt 3 staker, .undelegatebw staker staker (coreTokens 400) (coreTokens 5)),
    (callAt 4 staker, .buyram staker friend (coreTokens 1000)),
    (callAt 5 friend, .sellram friend 200)]

lemma stakingSteps_replay :
    (Steps.replay (step? evenPricing) (⟨{}, heldBy staker 2000000000000, 0⟩ : ContractState Nat)
        stakingSteps).map (fun c => (c.system.staked staker, c.system.staked friend,
        (c.system.resourceLimits.find? friend).map fun l => (l.ramBytes, l.netWeight, l.cpuWeight))) =
    some (999999999600, 70, some (795, 0, 70)) := by
  decide +kernel

theorem stake_ledger_consistent_staked : ∃ c : ContractState Nat, ∃ es,
    Steps (Step evenPricing) ⟨{}, heldBy staker 2000000000000, 0⟩ es c ∧
      es.map (fun e => e.2.1) = stakingSteps ∧ c.system.staked staker = 999999999600 ∧
      c.system.delegatedFrom staker = 999999999600 ∧
      c.system.netDelegatedTo friend = c.system.netWeight friend := by
  obtain ⟨c, hreplay, hlast⟩ := Option.map_eq_some_iff.mp stakingSteps_replay
  obtain ⟨es, hrun, hlabels⟩ := Steps.of_replay step_of_step? hreplay
  obtain ⟨hstaked, hweights, -⟩ := stake_ledger_consistent hrun
  have hstake : c.system.staked staker = 999999999600 := congrArg Prod.fst hlast
  exact ⟨c, es, hrun, hlabels, hstake, (hstaked staker).symm.trans hstake,
    (hweights friend).1.symm⟩

end ContractState

end DimensionChain.System
