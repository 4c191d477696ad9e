import DimensionChain.System.Ledger
import DimensionChain.Token.Conservation

/-!
# What the stake account holds

The tokens behind the delegations and behind the pending refunds are all owned by one account. A
delegation to oneself takes from a pending refund first, net and cpu apart, and only the rest is
transferred; whichever case applies, the balance of the stake account moves by what the
delegations and the refunds move together. Its own actions are left out, since it stakes without a
transfer.
-/

namespace DimensionChain.System

open FlatMap Option Asset SystemState DimensionChain.Symbol DimensionChain.Config System.Config

def refunding (refunds : FlatMap AccountName RefundRequest) : Int :=
  refunds.total fun _ req => req.netAmount.toInt + req.cpuAmount.toInt

def RefundRequest.Due (req : RefundRequest) : Prop :=
  SystemState.Weight req.netAmount ∧ SystemState.Weight req.cpuAmount ∧
    ¬(req.netAmount = 0 ∧ req.cpuAmount = 0)

namespace SystemState
variable {Key : Type} {x : Int64}

def delegated (s : SystemState Key) : Int :=
  s.delband.total fun _ d => d.netWeight.toInt + d.cpuWeight.toInt

def held (s : SystemState Key) : Int := s.delegated + refunding s.refunds

lemma split_exact (hx : Asset.AmountInRange x) :
    Weight (if x < 0 then -x else 0) ∧ Weight (if x < 0 then 0 else x) ∧
      (if x < 0 then -x else 0).toInt - (if x < 0 then 0 else x).toInt = -x.toInt := by
  have hneg := toInt_neg_of_inRange hx
  rw [amountInRange_iff] at hx
  by_cases hlt : x < 0
  · have hlt' : x.toInt < 0 := Int64.lt_iff_toInt_lt.mp hlt
    simp only [if_pos hlt]
    refine ⟨?_, weight_zero, ?_⟩
    · unfold Weight
      omega
    · rw [hneg]
      exact sub_zero _
  have hle : 0 ≤ x.toInt := by
    rw [Int64.lt_iff_toInt_lt] at hlt
    exact not_lt.mp hlt
  simp only [if_neg hlt]
  refine ⟨weight_zero, ⟨hle, hx.2⟩, ?_⟩
  exact zero_sub _

lemma split_ne_zero (hx : Asset.AmountInRange x) (hlt : x < 0) : (if x < 0 then -x else 0) ≠ 0 := by
  rw [if_pos hlt]
  intro hzero
  have hneg := toInt_neg_of_inRange hx
  have hlt' : x.toInt < 0 := Int64.lt_iff_toInt_lt.mp hlt
  rw [hzero] at hneg
  change 0 = _ at hneg
  omega

lemma settle_exact {amount balance amount' balance' : Int64} (ha : Weight amount)
    (hb : Asset.AmountInRange balance) (h : settle amount balance = .ok (amount', balance')) :
    Weight amount' ∧ Weight balance' ∧
      amount'.toInt - balance'.toInt = amount.toInt - balance.toInt := by
  obtain ⟨rest, hrest, h⟩ := bind_ok_iff.mp h
  obtain ⟨hrange, hexact⟩ := subAmount_exact ha.inRange hb hrest
  have hneg := toInt_neg_of_inRange hrange
  rw [amountInRange_iff] at hrange
  by_cases hlt : rest < 0
  · have hlt' : rest.toInt < 0 := Int64.lt_iff_toInt_lt.mp hlt
    rw [if_pos hlt] at h
    cases h
    refine ⟨weight_zero, ?_, ?_⟩
    · unfold Weight
      omega
    · change 0 - _ = _
      omega
  have hle : 0 ≤ rest.toInt := by
    rw [Int64.lt_iff_toInt_lt] at hlt
    exact not_lt.mp hlt
  rw [if_neg hlt] at h
  cases h
  refine ⟨⟨hle, hrange.2⟩, weight_zero, ?_⟩
  change _ - 0 = _
  omega

lemma Deltas.weights {net cpu : Int64} (h : Deltas net cpu) (hpos : 0 ≤ net.toInt + cpu.toInt) :
    Weight net ∧ Weight cpu := by
  obtain ⟨hsign, -, hhigh⟩ := h
  unfold Weight
  omega

def AllDue (refunds : FlatMap AccountName RefundRequest) : Prop :=
  ∀ owner req, refunds.find? owner = some req → req.Due

section Request
variable {s s' : SystemState Key} {env : Env} {source receiver : AccountName}
  {net cpu netBalance cpuBalance : Int64} {transfer need : Bool}
  {refunds : FlatMap AccountName RefundRequest}

lemma RequestChange.exact
    (h : s.RequestChange env source receiver net cpu transfer refunds netBalance cpuBalance need)
    (hd : Deltas net cpu) (hdue : AllDue s.refunds) :
    AllDue refunds ∧ Weight netBalance ∧ Weight cpuBalance ∧
      refunding refunds - refunding s.refunds =
        netBalance.toInt + cpuBalance.toInt - (net.toInt + cpu.toInt) := by
  cases h with
  | other _ hsum hsame =>
    have hpos : 0 ≤ net.toInt + cpu.toInt := by
      rw [Int64.lt_iff_toInt_lt, hd.toInt_add] at hsum
      exact not_lt.mp hsum
    obtain ⟨hnet, hcpu⟩ := hd.weights hpos
    rw [hsame]
    exact ⟨hdue, hnet, hcpu, by omega⟩
  | absent _ hneg hsame =>
    have hpos : 0 ≤ net.toInt + cpu.toInt := by
      rw [not_or, Int64.lt_iff_toInt_lt, Int64.lt_iff_toInt_lt] at hneg
      exact add_nonneg (not_lt.mp hneg.1) (not_lt.mp hneg.2)
    obtain ⟨hnet, hcpu⟩ := hd.weights hpos
    rw [hsame]
    exact ⟨hdue, hnet, hcpu, by omega⟩
  | created hnone hneg hset =>
    obtain ⟨hnet, hnetRest, hnetExact⟩ := split_exact hd.inRange.1
    obtain ⟨hcpu, hcpuRest, hcpuExact⟩ := split_exact hd.inRange.2
    refine ⟨?_, hnetRest, hcpuRest, ?_⟩
    · rw [hset]
      apply forall_set hdue
      refine ⟨hnet, hcpu, ?_⟩
      rintro ⟨hnetZero, hcpuZero⟩
      rcases hneg with hlt | hlt
      · exact split_ne_zero hd.inRange.1 hlt hnetZero
      · exact split_ne_zero hd.inRange.2 hlt hcpuZero
    unfold refunding
    rw [hset, total_set_sub, hnone]
    simp only [map_none, getD_none, sub_zero]
    omega
  | settled req netAmount cpuAmount nb cb need' _ hreq hnet hcpu hstore _ =>
    obtain ⟨hreqNet, hreqCpu, -⟩ := hdue source req hreq
    obtain ⟨hnetWeight, hnetRest, hnetExact⟩ := settle_exact hreqNet hd.inRange.1 hnet
    obtain ⟨hcpuWeight, hcpuRest, hcpuExact⟩ := settle_exact hreqCpu hd.inRange.2 hcpu
    refine ⟨?_, hnetRest, hcpuRest, ?_⟩
    · rw [hstore]
      exact forall_store hdue fun hzero => ⟨hnetWeight, hcpuWeight, hzero⟩
    unfold refunding
    rw [hstore, total_store _ _ _ _ ?_, hreq]
    · simp only [map_some, getD_some]
      omega
    · rintro ⟨hnetZero, hcpuZero⟩
      rw [hnetZero, hcpuZero]
      rfl

end Request

variable {s s' : SystemState Key} {env : Env} {payer source receiver : AccountName}
  {net cpu : Int64} {transfer : Bool}
  (h : s.StakeChange env payer source receiver net cpu transfer s')
include h

lemma StakeChange.delegated (hd : Deltas net cpu) (hrow : s.Weighed) :
    s'.delegated = s.delegated + (net.toInt + cpu.toInt) := by
  have hsplit : ∀ t : SystemState Key, t.delegated =
      t.delband.total (fun _ d => if True then d.netWeight.toInt else 0) +
        t.delband.total (fun _ d => if True then d.cpuWeight.toInt else 0) := by
    unfold SystemState.delegated FlatMap.total
    simp
  obtain ⟨hnet, hcpu⟩ := (h.delegations hd hrow).2 fun _ => True
  rw [hsplit, hsplit, hnet, hcpu, if_pos trivial, if_pos trivial]
  omega

lemma StakeChange.held
    (hd : Deltas net cpu) (hpayer : payer ≠ stakeAccount) (hempty : s.transfers = [])
    (hrow : s.Weighed) (hdue : AllDue s.refunds) : AllDue s'.refunds ∧
      ((s'.held = s.held ∧ s'.transfers = []) ∨ ∃ amount : Int64, s'.held = s.held + amount.toInt ∧
          s'.transfers =
            [⟨payer, stakeAccount, ⟨amount, coreSymbol⟩, "stake bandwidth"⟩]) := by
  have hdelegated := h.delegated hd hrow
  cases h.refund with
  | kept hstake => exact absurd hstake.symm hpayer
  | changed nb cb amount need hstake hrequest hdeferred hamount htransfers =>
    obtain ⟨hdue', hnb, hcb, hrefunding⟩ := (changeRequest_ok hrequest).exact hd hdue
    obtain ⟨-, hexact⟩ := addAmount_exact hnb.inRange hcb.inRange hamount
    have hheld : s'.held = s.held + amount.toInt := by
      unfold SystemState.held
      omega
    refine ⟨hdue', ?_⟩
    rw [hempty] at htransfers
    by_cases hpos : 0 < amount
    · rw [if_pos hpos] at htransfers
      exact .inr ⟨amount, hheld, htransfers⟩
    rw [if_neg hpos] at htransfers
    refine .inl ⟨?_, htransfers⟩
    rw [Int64.lt_iff_toInt_lt] at hpos
    have hle : amount.toInt ≤ 0 := not_lt.mp hpos
    have hnonneg : 0 ≤ amount.toInt := by
      rw [hexact]
      exact add_nonneg hnb.1 hcb.1
    omega

omit h

lemma refund_held {owner : AccountName} (hok : s.refund env owner = .ok s')
    (hempty : s.transfers = []) (hdue : AllDue s.refunds) :
    AllDue s'.refunds ∧ s'.delband = s.delband ∧
      ∃ amount : Int64, 0 < amount.toInt ∧ Asset.AmountInRange amount ∧
        s'.held = s.held - amount.toInt ∧
        s'.transfers = [⟨stakeAccount, owner, ⟨amount, coreSymbol⟩, "unstake"⟩] := by
  obtain ⟨-, req, amount, hreq, hamount, rfl⟩ := refund_cases hok
  obtain ⟨hnet, hcpu, hne⟩ := hdue owner req hreq
  obtain ⟨hrange, hexact⟩ := addAmount_exact hnet.inRange hcpu.inRange hamount
  refine ⟨forall_erase hdue, rfl, amount, ?_, hrange, ?_, ?_⟩
  · rw [hexact]
    have hnonzero : req.netAmount.toInt ≠ 0 ∨ req.cpuAmount.toInt ≠ 0 := by
      by_contra hboth
      rw [not_or, not_not, not_not] at hboth
      exact hne ⟨Int64.toInt_inj.mp hboth.1, Int64.toInt_inj.mp hboth.2⟩
    unfold Weight at hnet hcpu
    omega
  · change s.delegated + refunding (s.refunds.erase owner) = s.delegated + refunding s.refunds - _
    unfold refunding
    rw [total_erase_sub, hreq, hexact]
    simp only [map_some, getD_some]
    omega
  · change s.transfers ++ _ = _
    rw [hempty]
    rfl

end SystemState

def ResourceAction.ByOthers : ResourceAction → Prop
  | .delegatebw source _ _ _ _ => source ≠ stakeAccount
  | .undelegatebw source _ _ _ => source ≠ stakeAccount
  | .refund owner => owner ≠ stakeAccount
  | .deferredRefund owner => owner ≠ stakeAccount
  | _ => False

namespace ContractState
variable {Key : Type} {c c' : ContractState Key} {p : Pricing}

def stakeBalance (c : ContractState Key) : Int :=
  c.token.balance stakeAccount (Symbol.name coreSymbol)

structure Custody (base : Int) (c : ContractState Key) : Prop where
  conserved : c.token.Conserved
  row : ∀ k d, c.system.delband.find? k = some d →
    SystemState.Weight d.netWeight ∧ SystemState.Weight d.cpuWeight ∧
      ¬(d.netWeight = 0 ∧ d.cpuWeight = 0)
  due : ∀ o req, c.system.refunds.find? o = some req → req.Due
  balance : c.stakeBalance = base + c.system.held
  core : c.system.held ≠ 0 → ∃ st, c.token.stats.find? (Symbol.name coreSymbol) = some st ∧
    st.supply.symbol = coreSymbol

variable {isAccount : AccountName → Bool} {s s₁ : SystemState Key} {base : Int}
  {label : Call × ResourceAction} {owner : AccountName} {env : Env}

lemma runInline_single {token token' : Token.TokenState}
    {sender receiver : AccountName} {amount : Int64} {memo : String} (h : token.Conserved)
    (hok : Token.TokenState.runInline isAccount
      [⟨sender, receiver, ⟨amount, coreSymbol⟩, memo⟩] token = .ok token') :
    token'.Conserved ∧ (∃ st, token'.stats.find? (Symbol.name coreSymbol) = some st ∧
        st.supply.symbol = coreSymbol) ∧ sender ≠ receiver ∧
      ∀ q, token'.balance q (Symbol.name coreSymbol) =
        token.balance q (Symbol.name coreSymbol) - (if q = sender then amount.toInt else 0) +
          (if q = receiver then amount.toInt else 0) := by
  obtain ⟨t₁, htransfer, hnil⟩ := bind_ok_iff.mp hok
  cases hnil
  obtain ⟨hstats, hconserved⟩ := h.transfer htransfer
  obtain ⟨hne, -, -, hbalance⟩ := h.balance_transfer htransfer
  obtain ⟨-, -, -, ⟨st, hm⟩, -, -⟩ := Token.TokenState.transfer_ok_iff.mp htransfer
  refine ⟨hconserved, ⟨st, ?_, hm.symbol.symm⟩, hne, fun q => ?_⟩
  · rw [hstats]
    exact hm.stat
  · have hq := hbalance q (name coreSymbol)
    simpa only [and_true] using hq

variable (h : c.Custody base) (hs : s = { c.system with transfers := [], rammarket := s.rammarket })
include h hs

lemma Custody.before :
    s.Weighed ∧ AllDue s.refunds ∧ s.held = c.system.held ∧ s.transfers = [] := by
  rw [hs]
  exact ⟨h.row, h.due, rfl, rfl⟩

section After
variable (hdelband : c'.system.delband = s₁.delband) (hrefunds : c'.system.refunds = s₁.refunds)
  (htransfers : c'.system.transfers = s₁.transfers)
  (hinline : Token.TokenState.runInline isAccount c'.system.transfers c.token = .ok c'.token)
include hdelband hrefunds htransfers hinline

lemma Custody.stakeChange {payer source receiver : AccountName} {net cpu : Int64}
    {transfer : Bool} (hchange : s.StakeChange env payer source receiver net cpu transfer s₁)
    (hd : SystemState.Deltas net cpu) (hpayer : payer ≠ stakeAccount) : c'.Custody base := by
  obtain ⟨hrow, hdue, hheld, hempty⟩ := h.before hs
  have hheld' : c'.system.held = s₁.held := by
    unfold held delegated
    rw [hdelband, hrefunds]
  obtain ⟨hdue', hcases⟩ := hchange.held hd hpayer hempty hrow hdue
  rw [htransfers] at hinline
  refine ⟨?_, ?_, ?_, ?_, ?_⟩
  · exact (h.conserved.runInline hinline).2
  · rw [hdelband]
    exact (hchange.delegations hd hrow).1
  · rw [hrefunds]
    exact hdue'
  · unfold stakeBalance
    rcases hcases with ⟨hsame, hnone⟩ | ⟨amount, hmore, hone⟩
    · rw [hnone] at hinline
      have htoken : c.token = c'.token := Except.ok.inj hinline
      rw [← htoken, hheld', hsame, hheld]
      exact h.balance
    rw [hone] at hinline
    obtain ⟨-, -, -, hbalance⟩ := runInline_single h.conserved hinline
    have hbase := h.balance
    unfold stakeBalance at hbase
    rw [hbalance, if_neg hpayer.symm, if_pos rfl, hbase, hheld', hmore, hheld]
    omega
  intro hpos
  rcases hcases with ⟨hsame, hnone⟩ | ⟨amount, hmore, hone⟩
  · rw [hnone] at hinline
    have htoken : c.token = c'.token := Except.ok.inj hinline
    rw [hheld', hsame, hheld] at hpos
    rw [← htoken]
    exact h.core hpos
  · rw [hone] at hinline
    exact (runInline_single h.conserved hinline).2.1

lemma Custody.refund (hok : s.refund env owner = .ok s₁) : c'.Custody base := by
  obtain ⟨-, hdue, hheld, hempty⟩ := h.before hs
  obtain ⟨hdue', hsame, amount, -, -, hless, hone⟩ := refund_held hok hempty hdue
  have hheld' : c'.system.held = s₁.held := by
    unfold held delegated
    rw [hdelband, hrefunds]
  rw [htransfers, hone] at hinline
  obtain ⟨hconserved, hcore, hne, hbalance⟩ := runInline_single h.conserved hinline
  refine ⟨hconserved, ?_, ?_, ?_, fun _ => hcore⟩
  · rw [hdelband, hsame, hs]
    exact h.row
  · rw [hrefunds]
    exact hdue'
  have hbase := h.balance
  unfold stakeBalance at hbase ⊢
  rw [hbalance, if_pos rfl, if_neg hne, hbase, hheld', hless, hheld]
  omega

end After

omit hs

lemma Custody.step (hothers : label.2.ByOthers) (hstep : Step p c label c') : c'.Custody base := by
  obtain ⟨call, action⟩ := label
  obtain ⟨s, hconstruct, hact, hinline, -⟩ := exec_ok hstep.2
  have hs := (constructed_ok hconstruct).1
  cases action with
  | delegatebw source receiver net cpu transfer =>
    obtain ⟨hd, -, s₁, hchange, heq⟩ := stakeChange_of_delegatebw hact
    obtain ⟨proposals, total, heq⟩ := reweigh_frame heq
    exact h.stakeChange hs (by rw [heq]) (by rw [heq]) (by rw [heq]) hinline hchange hd hothers
  | undelegatebw source receiver net cpu =>
    obtain ⟨hd, -, s₁, hchange, heq⟩ := stakeChange_of_undelegatebw hact
    obtain ⟨proposals, total, heq⟩ := reweigh_frame heq
    exact h.stakeChange hs (by rw [heq]) (by rw [heq]) (by rw [heq]) hinline hchange hd hothers
  | refund owner => exact h.refund hs rfl rfl rfl hinline hact
  | deferredRefund owner =>
    obtain ⟨s₁, hrefund, heq⟩ := deferredRefund_ok hact
    exact h.refund hs (by rw [heq]) (by rw [heq]) (by rw [heq]) hinline hrefund
  | buyram => exact hothers.elim
  | buyrambytes => exact hothers.elim
  | sellram => exact hothers.elim
  | setram => exact hothers.elim
  | newaccount => exact hothers.elim

omit h

lemma held_nonneg (hrow : s.Weighed) (hdue : AllDue s.refunds) : 0 ≤ s.held := by
  have hdelegated : ∀ k (d : DelegatedBandwidth), s.delband.find? k = some d →
      0 ≤ d.netWeight.toInt + d.cpuWeight.toInt := by
    intro k d hk
    exact add_nonneg (hrow k d hk).1.1 (hrow k d hk).2.1.1
  have hrefunding : ∀ o (req : RefundRequest), s.refunds.find? o = some req →
      0 ≤ req.netAmount.toInt + req.cpuAmount.toInt := by
    intro o req ho
    exact add_nonneg (hdue o req ho).1.1 (hdue o req ho).2.1.1
  exact add_nonneg (total_nonneg hdelegated) (total_nonneg hrefunding)

lemma Custody.pays (h : c.Custody base) (hbase : 0 ≤ base) {call : Call}
    (howner : owner ≠ stakeAccount)
    (hconstruct : c.constructed = .ok s) (hok : s.refund call.env owner = .ok s₁) :
    ∃ token, Token.TokenState.runInline call.isAccount s₁.transfers c.token = .ok token := by
  obtain ⟨hrow, hdue, hheld, hempty⟩ := h.before (constructed_ok hconstruct).1
  obtain ⟨hdue', hsame, amount, hpos, hrange, hless, hone⟩ := refund_held hok hempty hdue
  have hrow' : s₁.Weighed := by
    unfold SystemState.Weighed
    rw [hsame]
    exact hrow
  -- what remains to be held is not negative, so the amount is a part of what is held
  have hrest := held_nonneg hrow' hdue'
  have hbalance := h.balance
  unfold stakeBalance at hbalance
  obtain ⟨st, hst, hsymbol⟩ := h.core (by omega)
  have hm : c.token.Movable ⟨amount, coreSymbol⟩ st :=
    ⟨hst, ⟨hrange, coreSymbol_isValid⟩, Int64.lt_iff_toInt_lt.mpr hpos, hsymbol.symm⟩
  have hauth := call.authorized owner (refund_cases hok).1
  have hmemo : "unstake".utf8ByteSize ≤ 256 := by decide
  have hcover : amount.toInt ≤
      c.token.balance stakeAccount (name coreSymbol) := by omega
  have hpaid : ∃ token, c.token.transfer ⟨[stakeAccount], call.isAccount⟩
      ⟨stakeAccount, owner, ⟨amount, coreSymbol⟩, "unstake"⟩ = .ok token :=
    h.conserved.transfer_succeeds howner.symm (List.mem_singleton_self _) hauth hm hmemo hcover
  obtain ⟨token, htransfer⟩ := hpaid
  refine ⟨token, ?_⟩
  rw [hone]
  exact bind_ok_iff.mpr ⟨token, htransfer, rfl⟩

lemma custody_start {token : Token.TokenState} (h : token.Conserved) (now : Time) :
    (⟨{}, token, now⟩ : ContractState Key).Custody
      (token.balance stakeAccount (Symbol.name coreSymbol)) where
  conserved := h
  row _ _ hk := by cases hk
  due _ _ ho := by cases ho
  balance := (add_zero _).symm
  core hheld := absurd rfl hheld

/-- Along every run of staking and refunding that the stake account does not initiate, its
balance moves with what it has to hold. So it always covers that, and whenever the system
contract allows a refund, the transfer of it succeeds. -/
theorem stake_custody {token : Token.TokenState} {now : Time}
    {ts : List (Token.TokenState × (Token.Env × Token.TokenAction) × Token.TokenState)}
    {es : List (ContractState Key × (Call × ResourceAction) × ContractState Key)}
    (htoken : Steps Token.TokenState.Step {} ts token)
    (hrun : Steps (fun c label c' => label.2.ByOthers ∧ Step p c label c') ⟨{}, token, now⟩ es c) :
    (∀ e ∈ es, e.2.2.stakeBalance - e.1.stakeBalance = e.2.2.system.held - e.1.system.held) ∧
      c.system.held ≤ c.stakeBalance ∧
      ∀ (call : Call) (owner : AccountName) (s s₁ : SystemState Key), owner ≠ stakeAccount →
        c.constructed = .ok s → s.refund call.env owner = .ok s₁ →
        ∃ c', c.exec p call (.refund owner) = .ok c' := by
  have hconserved := Token.TokenState.conserved_of_steps htoken
  have hbase : 0 ≤ token.balance stakeAccount (name coreSymbol) :=
    hconserved.balance_nonneg _ _
  have hend : c.Custody (token.balance stakeAccount (name coreSymbol)) :=
    hrun.invariant (fun h hstep => h.step hstep.1 hstep.2) (custody_start hconserved now)
  refine ⟨fun e he => ?_, ?_, fun call owner s s₁ howner hconstruct hok => ?_⟩
  · obtain ⟨hbefore, hothers, hstep⟩ := hrun.forall_mem
      (Q := Custody (token.balance stakeAccount (name coreSymbol)))
      (fun h hstep => h.step hstep.1 hstep.2) (custody_start hconserved now) e he
    rw [(hbefore.step hothers hstep).balance, hbefore.balance]
    omega
  · rw [hend.balance]
    omega
  obtain ⟨paid, hpaid⟩ := hend.pays hbase howner hconstruct hok
  refine ⟨⟨s₁, paid, call.env.now⟩, ?_⟩
  refine bind_ok_iff.mpr ⟨s, hconstruct, ?_⟩
  refine bind_ok_iff.mpr ⟨s₁, hok, ?_⟩
  exact bind_ok_iff.mpr ⟨paid, hpaid, rfl⟩

def fundingSteps : List (Token.Env × Token.TokenAction) :=
  [(⟨[Token.selfAccount], fun _ => true⟩, .create staker (coreTokens 4000000000000)),
    (⟨[staker], fun _ => true⟩, .issue staker (coreTokens 2000000000000) "")]

/-- A stake that is taken back in part, a new stake that takes from the refund, and the refund. -/
def refundingSteps : List (Call × ResourceAction) :=
  [(callAt 1 staker, .delegatebw staker staker (coreTokens 1000000000000) (coreTokens 50) false),
    (callAt 2 staker, .undelegatebw staker staker (coreTokens 400) (coreTokens 50)),
    (callAt 3 staker, .delegatebw staker staker (coreTokens 0) (coreTokens 60) false)]

instance : (action : ResourceAction) → Decidable action.ByOthers
  | .delegatebw source _ _ _ _ => inferInstanceAs (Decidable (source ≠ stakeAccount))
  | .undelegatebw source _ _ _ => inferInstanceAs (Decidable (source ≠ stakeAccount))
  | .refund owner => inferInstanceAs (Decidable (owner ≠ stakeAccount))
  | .deferredRefund owner => inferInstanceAs (Decidable (owner ≠ stakeAccount))
  | .buyram _ _ _ => .isFalse id
  | .buyrambytes _ _ _ => .isFalse id
  | .sellram _ _ => .isFalse id
  | .setram _ => .isFalse id
  | .newaccount _ _ => .isFalse id

def others? (p : Pricing) (c : ContractState Key) (label : Call × ResourceAction) :
    Option (ContractState Key) :=
  if label.2.ByOthers then c.step? p label else none

lemma byOthers_of_others? (h : c.others? p label = some c') :
    label.2.ByOthers ∧ Step p c label c' := by
  unfold others? at h
  by_cases hothers : label.2.ByOthers
  · rw [if_pos hothers] at h
    exact ⟨hothers, step_of_step? h⟩
  · rw [if_neg hothers] at h
    cases h

lemma refundingSteps_replay :
    ((Steps.replay (fun t label => (Token.TokenState.apply t label.1 label.2).toOption) {}
        fundingSteps).bind fun token =>
      (Steps.replay (others? evenPricing) (⟨{}, token, 0⟩ : ContractState Nat)
        refundingSteps).bind fun c => c.constructed.toOption.bind fun s =>
          (s.refund (callAt 300000 staker).env staker).toOption.map fun s₁ =>
            (c.stakeBalance, c.system.held, s₁.held)) =
      some (1000000000060, 1000000000060, 999999999660) := by
  decide +kernel

/-- The refund of the rest is paid. -/
theorem stake_custody_refunded : ∃ token, ∃ c c' : ContractState Nat, ∃ ts es,
    Steps Token.TokenState.Step {} ts token ∧ ts.map (fun e => e.2.1) = fundingSteps ∧
    Steps (fun c label c' => label.2.ByOthers ∧ Step evenPricing c label c') ⟨{}, token, 0⟩ es c ∧
    es.map (fun e => e.2.1) = refundingSteps ∧ c.stakeBalance = 1000000000060 ∧
    c.system.held ≤ c.stakeBalance ∧
    c.exec evenPricing (callAt 300000 staker) (.refund staker) = .ok c' := by
  obtain ⟨token, htoken, h⟩ := bind_eq_some_iff.mp refundingSteps_replay
  obtain ⟨c, hreplay, h⟩ := bind_eq_some_iff.mp h
  obtain ⟨s, hconstruct, h⟩ := bind_eq_some_iff.mp h
  obtain ⟨s₁, hrefund, hlast⟩ := map_eq_some_iff.mp h
  obtain ⟨ts, hfunding, hfunded⟩ := Steps.of_replay ok_of_toOption htoken
  obtain ⟨es, hrun, hlabels⟩ := Steps.of_replay byOthers_of_others? hreplay
  obtain ⟨-, hcovered, hpays⟩ := stake_custody hfunding hrun
  obtain ⟨c', hexec⟩ := hpays (callAt 300000 staker) staker s s₁ (by decide)
    (ok_of_toOption hconstruct) (ok_of_toOption hrefund)
  exact ⟨token, c, c', ts, es, hfunding, hfunded, hrun, hlabels, congrArg Prod.fst hlast, hcovered,
    hexec⟩

end ContractState

end DimensionChain.System
