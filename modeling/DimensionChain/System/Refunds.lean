import DimensionChain.System.Contracts

/-!
# Refunds and their deferred transactions

Every change of the stake of an account cancels its deferred refund, and schedules a new one only
if the change went through the refund. A stake for another account, or one that another account
gives away with its tokens, cancels the transaction and leaves the refund. That is the only way in
which a pending refund loses its schedule.
-/

namespace DimensionChain.System

open FlatMap

namespace SystemState
variable {Key : Type} {owner : AccountName}

/-- Each pending refund has a deferred transaction, not before the end of the delay. -/
def Scheduled (s : SystemState Key) : Prop :=
  ∀ owner req, s.refunds.find? owner = some req →
    ∃ delayUntil, s.deferredRefunds.find? owner = some delayUntil ∧
      req.requestTime + refundDelay ≤ delayUntil

/-- No pending refund was requested later than at the given time. -/
def RequestedBy (s : SystemState Key) (now : Time) : Prop :=
  ∀ owner req, s.refunds.find? owner = some req → req.requestTime ≤ now

/-- An action that does not cancel the transaction of a refund which it leaves pending: a stake by
the stake account, for oneself, or for an account without a pending refund. -/
def KeepsRefund (s : SystemState Key) : ResourceAction → Prop
  | .delegatebw source receiver _ _ transfer =>
    source = Config.stakeAccount ∨ (transfer = false ∧ source = receiver) ∨
      s.refunds.find? (if transfer then receiver else source) = none
  | _ => True

section Request
variable {s s' : SystemState Key} {env : Env} {source receiver : AccountName}
  {net cpu netBalance cpuBalance : Int64} {transfer need : Bool}
  {refunds : FlatMap AccountName RefundRequest}
  (h : s.RequestChange env source receiver net cpu transfer refunds netBalance cpuBalance need)
include h

lemma RequestChange.find?_of_ne
    (hne : owner ≠ source) : refunds.find? owner = s.refunds.find? owner := by
  cases h with
  | other _ _ hsame => rw [hsame]
  | absent _ _ hsame => rw [hsame]
  | created _ _ hset => rw [hset, find?_set, if_neg hne]
  | settled _ _ _ _ _ _ _ _ _ _ hstore _ => rw [hstore, find?_store, if_neg hne]

lemma RequestChange.requestTime_le
    (hages : s.RequestedBy env.now) {req : RefundRequest} (hreq : refunds.find? source = some req) :
    req.requestTime ≤ env.now := by
  cases h with
  | other _ _ hsame | absent _ _ hsame =>
    rw [hsame] at hreq
    exact hages source req hreq
  | created _ _ hset =>
    rw [hset, find?_set, if_pos rfl] at hreq
    cases hreq
    exact le_rfl
  | settled old _ _ _ _ _ _ hold _ _ hstore _ =>
    rw [hstore, find?_store, if_pos rfl] at hreq
    split at hreq
    · cases hreq
    cases hreq
    split
    · exact le_rfl
    · exact hages source old hold

lemma RequestChange.need_or :
    (need = true ∧ ((transfer = false ∧ source = receiver) ∨ net + cpu < 0 ∨
        s.refunds.find? source = none)) ∨
      (need = false ∧ refunds.find? source = none ∧ ((transfer = false ∧ source = receiver) ∨
        net + cpu < 0 ∨ s.refunds.find? source = none)) ∨
      (need = false ∧ refunds = s.refunds ∧ ¬(transfer = false ∧ source = receiver) ∧
        ¬net + cpu < 0) := by
  cases h with
  | other hself hsum hsame => exact .inr (.inr ⟨rfl, hsame, hself, hsum⟩)
  | absent hnone _ hsame =>
    refine .inr (.inl ⟨rfl, ?_, .inr (.inr hnone)⟩)
    rw [hsame]
    exact hnone
  | created hnone _ _ => exact .inl ⟨rfl, .inr (.inr hnone)⟩
  | settled _ netAmount cpuAmount _ _ _ hthrough _ _ _ hstore hneed =>
    have hcond : (transfer = false ∧ source = receiver) ∨ net + cpu < 0 ∨
        s.refunds.find? source = none := by
      rcases hthrough with hself | hsum
      · exact .inl hself
      · exact .inr (.inl hsum)
    cases need with
    | true => exact .inl ⟨rfl, hcond⟩
    | false =>
      refine .inr (.inl ⟨rfl, ?_, hcond⟩)
      rw [hstore, find?_store, if_pos rfl, if_pos (hneed.mp rfl)]

omit h

lemma RequestChange.scheduled_iff
    (h : s.RequestChange env source receiver net cpu transfer s'.refunds netBalance cpuBalance need)
    (hdeferred : s'.deferredRefunds =
      if need then s.deferredRefunds.set source (env.now + refundDelay)
      else s.deferredRefunds.erase source)
    (hscheduled : s.Scheduled) (hages : s.RequestedBy env.now) :
    s'.Scheduled ↔ (transfer = false ∧ source = receiver) ∨ net + cpu < 0 ∨
      s.refunds.find? source = none := by
  -- the other accounts keep their refunds and their transactions
  have hothers : ∀ owner, owner ≠ source →
      s'.deferredRefunds.find? owner = s.deferredRefunds.find? owner := by
    intro owner hne
    rw [hdeferred]
    cases need with
    | true => rw [if_pos rfl, find?_set, if_neg hne]
    | false => rw [if_neg (by decide), find?_erase, if_neg hne]
  have hkept : (∀ req, s'.refunds.find? source = some req →
      ∃ delayUntil, s'.deferredRefunds.find? source = some delayUntil ∧
        req.requestTime + refundDelay ≤ delayUntil) → s'.Scheduled := by
    intro hsource owner req hreq
    by_cases hne : owner = source
    · rw [hne] at hreq ⊢
      exact hsource req hreq
    · rw [h.find?_of_ne hne] at hreq
      rw [hothers owner hne]
      exact hscheduled owner req hreq
  rcases h.need_or with ⟨hneed, hcond⟩ | ⟨hneed, hnone, hcond⟩ | ⟨hneed, hsame, hself, hsum⟩
  · refine iff_of_true (hkept fun req hreq => ?_) hcond
    refine ⟨env.now + refundDelay, ?_, ?_⟩
    · rw [hdeferred, hneed, if_pos rfl, find?_set, if_pos rfl]
    · exact Nat.add_le_add_right (h.requestTime_le hages hreq) refundDelay
  · refine iff_of_true (hkept fun req hreq => ?_) hcond
    rw [hnone] at hreq
    cases hreq
  constructor
  · intro hscheduled'
    refine .inr (.inr ?_)
    by_contra hsome
    obtain ⟨req, hreq⟩ := Option.ne_none_iff_exists'.mp hsome
    rw [← hsame] at hreq
    obtain ⟨delayUntil, hfound, -⟩ := hscheduled' source req hreq
    rw [hdeferred, hneed, if_neg (by decide), find?_erase, if_pos rfl] at hfound
    cases hfound
  rintro (hcond | hcond | hnone)
  · exact absurd hcond hself
  · exact absurd hcond hsum
  · refine hkept fun req hreq => ?_
    rw [hsame, hnone] at hreq
    cases hreq

end Request

variable {s s' : SystemState Key} {env : Env} {payer source receiver : AccountName}
  {action : ResourceAction} {net cpu : Int64} {transfer : Bool}

lemma Scheduled.congr (h : s.Scheduled) (hrefunds : s'.refunds = s.refunds)
    (hdeferred : s'.deferredRefunds = s.deferredRefunds) : s'.Scheduled := by
  unfold Scheduled
  rw [hrefunds, hdeferred]
  exact h

lemma StakeChange.scheduled_iff (h : s.StakeChange env payer source receiver net cpu transfer s')
    (hscheduled : s.Scheduled) (hages : s.RequestedBy env.now) :
    s'.Scheduled ↔ payer = Config.stakeAccount ∨ (transfer = false ∧ source = receiver) ∨
      net + cpu < 0 ∨ s.refunds.find? source = none := by
  cases h.refund with
  | kept hstake hrefunds hdeferred _ =>
    exact iff_of_true (hscheduled.congr hrefunds hdeferred) (.inl hstake.symm)
  | changed nb cb amount need hstake hrequest hdeferred _ _ =>
    rw [(changeRequest_ok hrequest).scheduled_iff hdeferred hscheduled hages]
    constructor
    · exact .inr
    · rintro (hpayer | hcond)
      · exact absurd hpayer.symm hstake
      · exact hcond

lemma StakeChange.requestedBy (h : s.StakeChange env payer source receiver net cpu transfer s')
    (hages : s.RequestedBy env.now) : s'.RequestedBy env.now := by
  intro owner req hreq
  cases h.refund with
  | kept _ hrefunds _ _ =>
    rw [hrefunds] at hreq
    exact hages owner req hreq
  | changed nb cb amount need _ hrequest _ _ _ =>
    have hchange := changeRequest_ok hrequest
    by_cases hne : owner = source
    · rw [hne] at hreq
      exact hchange.requestTime_le hages hreq
    · rw [hchange.find?_of_ne hne] at hreq
      exact hages owner req hreq

lemma refund_scheduled (hok : s.refund env owner = .ok s') (hages : s.RequestedBy env.now) :
    s'.refunds.find? owner = none ∧ s'.RequestedBy env.now ∧ (s.Scheduled → s'.Scheduled) := by
  obtain ⟨-, req, amount, -, -, rfl⟩ := refund_cases hok
  have hfind : ∀ o, (s.refunds.erase owner).find? o = if o = owner then none else s.refunds.find? o :=
    fun o => find?_erase _ _ _
  refine ⟨(hfind owner).trans (if_pos rfl), fun o r ho => ?_, fun hscheduled o r ho => ?_⟩
  · rw [hfind] at ho
    split at ho
    · cases ho
    · exact hages o r ho
  rw [hfind] at ho
  split at ho
  · cases ho
  · exact hscheduled o r ho

lemma scheduled_of_frame (hkeeps : s.KeepsRefund action)
    (hrefunds : s'.refunds = s.refunds) (hdeferred : s'.deferredRefunds = s.deferredRefunds)
    (hages : s.RequestedBy env.now) :
    s'.RequestedBy env.now ∧ (s.Scheduled → (s'.Scheduled ↔ s.KeepsRefund action)) := by
  refine ⟨?_, fun hscheduled => iff_of_true (hscheduled.congr hrefunds hdeferred) hkeeps⟩
  unfold RequestedBy
  rw [hrefunds]
  exact hages

lemma resource_scheduled_iff {p : Pricing}
    (hok : s.resource p env action = .ok s') (hages : s.RequestedBy env.now) :
    s'.RequestedBy env.now ∧ (s.Scheduled → (s'.Scheduled ↔ s.KeepsRefund action)) := by
  cases action with
  | delegatebw source receiver net cpu transfer =>
    obtain ⟨hd, hpos, s₁, hchange, heq⟩ := stakeChange_of_delegatebw hok
    obtain ⟨proposals, total, rfl⟩ := reweigh_frame heq
    have hsum : ¬net.amount + cpu.amount < 0 := by
      rw [Int64.lt_iff_toInt_lt, hd.toInt_add]
      exact not_lt.mpr hpos.le
    have hself : transfer = false ∧ (if transfer then receiver else source) = receiver ↔
        transfer = false ∧ source = receiver := by
      cases transfer with
      | true => simp
      | false => simp
    refine ⟨hchange.requestedBy hages, fun hscheduled =>
      (hchange.scheduled_iff hscheduled hages).trans ?_⟩
    rw [hself]
    constructor
    · rintro (hpayer | hsame | hneg | hnone)
      · exact .inl hpayer
      · exact .inr (.inl hsame)
      · exact absurd hneg hsum
      · exact .inr (.inr hnone)
    rintro (hpayer | hsame | hnone)
    · exact .inl hpayer
    · exact .inr (.inl hsame)
    · exact .inr (.inr (.inr hnone))
  | undelegatebw source receiver net cpu =>
    obtain ⟨hd, hneg, s₁, hchange, heq⟩ := stakeChange_of_undelegatebw hok
    obtain ⟨proposals, total, rfl⟩ := reweigh_frame heq
    have hsum : -net.amount + -cpu.amount < 0 := by
      rw [Int64.lt_iff_toInt_lt, hd.toInt_add]
      exact hneg
    refine ⟨hchange.requestedBy hages, fun hscheduled => iff_of_true ?_ trivial⟩
    exact (hchange.scheduled_iff hscheduled hages).mpr (.inr (.inr (.inl hsum)))
  | refund owner =>
    obtain ⟨-, hages', hkept⟩ := refund_scheduled hok hages
    exact ⟨hages', fun hscheduled => iff_of_true (hkept hscheduled) trivial⟩
  | deferredRefund owner =>
    obtain ⟨s₁, hrefund, rfl⟩ := deferredRefund_ok hok
    obtain ⟨hnone, hages', hkept⟩ := refund_scheduled hrefund hages
    refine ⟨hages', fun hscheduled => iff_of_true (fun o r ho => ?_) trivial⟩
    have hne : o ≠ owner := by
      rintro rfl
      rw [hnone] at ho
      cases ho
    rw [find?_erase, if_neg hne]
    exact hkept hscheduled o r ho
  | buyram payer receiver quant =>
    obtain ⟨_, _, _, _, -, -, -, -, rfl⟩ := buyram_ok hok
    exact scheduled_of_frame trivial rfl rfl hages
  | buyrambytes payer receiver bytes =>
    obtain ⟨_, _, eosout, -, -, hbuy⟩ := buyrambytes_ok hok
    obtain ⟨_, _, _, _, -, -, -, -, rfl⟩ := buyram_ok hbuy
    exact scheduled_of_frame trivial rfl rfl hages
  | sellram account bytes =>
    obtain ⟨_, _, _, _, -, -, -, -, -, rfl⟩ := sellram_ok hok
    exact scheduled_of_frame trivial rfl rfl hages
  | setram maxRamSize =>
    obtain ⟨_, -, rfl⟩ := setram_ok hok
    exact scheduled_of_frame trivial rfl rfl hages
  | newaccount creator newact =>
    obtain ⟨-, namebids, rfl⟩ := newaccount_frame hok
    exact scheduled_of_frame trivial rfl rfl hages

end SystemState

namespace ContractState
variable {Key : Type} {c c' : ContractState Key} {p : Pricing}

lemma step_scheduled_iff {label : Call × ResourceAction} (hstep : Step p c label c')
    (hages : c.system.RequestedBy c.now) : c'.system.RequestedBy c'.now ∧
      (c.system.Scheduled → (c'.system.Scheduled ↔ c.system.KeepsRefund label.2)) := by
  obtain ⟨s, hconstruct, hact, -, hnow⟩ := exec_ok hstep.2
  have hs := (constructed_ok hconstruct).1
  have hages' : s.RequestedBy label.1.env.now := by
    rw [hs]
    exact fun o req ho => (hages o req ho).trans hstep.1
  have hsame : (s.Scheduled ↔ c.system.Scheduled) ∧
      (s.KeepsRefund label.2 ↔ c.system.KeepsRefund label.2) := by
    rw [hs]
    refine ⟨.rfl, ?_⟩
    cases label.2 <;> exact .rfl
  rw [hnow, ← hsame.1, ← hsame.2]
  exact SystemState.resource_scheduled_iff hact hages'

lemma requestedBy_start (token : Token.TokenState) (now : Time) :
    (⟨{}, token, now⟩ : ContractState Key).system.RequestedBy now := by
  intro owner req hreq
  cases hreq

lemma scheduled_start (token : Token.TokenState) (now : Time) :
    (⟨{}, token, now⟩ : ContractState Key).system.Scheduled := by
  intro owner req hreq
  cases hreq

/-- The refunds are scheduled in every state of a run exactly when no step of it is a stake for
others, or given away to others, of an account with a pending refund. The same holds of each
step that is taken in a state where the refunds are scheduled. -/
theorem refunds_scheduled_iff {token : Token.TokenState} {now : Time}
    {es : List (ContractState Key × (Call × ResourceAction) × ContractState Key)}
    (hrun : Steps (Step p) ⟨{}, token, now⟩ es c) :
    ((∀ e ∈ es, e.2.2.system.Scheduled) ↔ ∀ e ∈ es, e.1.system.KeepsRefund e.2.1.2) ∧
      ∀ label c', c.system.Scheduled → Step p c label c' →
        (c'.system.Scheduled ↔ c.system.KeepsRefund label.2) := by
  have hages : c.system.RequestedBy c.now :=
    hrun.invariant (Q := fun c => c.system.RequestedBy c.now)
      (fun h hstep => (step_scheduled_iff hstep h).1) (requestedBy_start token now)
  refine ⟨?_, fun label c' hscheduled hstep => (step_scheduled_iff hstep hages).2 hscheduled⟩
  exact hrun.throughout_iff (Q := fun c => c.system.RequestedBy c.now)
    (P := fun c => c.system.Scheduled) (C := fun c label => c.system.KeepsRefund label.2)
    (fun h hstep => (step_scheduled_iff hstep h).1)
    (fun h hscheduled hstep => (step_scheduled_iff hstep h).2 hscheduled)
    (requestedBy_start token now) (scheduled_start token now)

def unstakeThenStakeFor (receiver : AccountName) : List (Call × ResourceAction) :=
  [(callAt 1 staker, .delegatebw staker staker (coreTokens 1000000000000) (coreTokens 0) false),
    (callAt 2 staker, .undelegatebw staker staker (coreTokens 400) (coreTokens 0)),
    (callAt 3 staker, .delegatebw staker receiver (coreTokens 1) (coreTokens 0) false)]

lemma unstakeThenStakeFor_replay :
    (Steps.replay (step? evenPricing) (⟨{}, heldBy staker 2000000000000, 0⟩ : ContractState Nat)
        (unstakeThenStakeFor friend)).map (fun c => (c.system.refunds.find? staker,
          c.system.deferredRefunds.find? staker)) = some (some ⟨2, 400, 0⟩, none) ∧
    (Steps.replay (step? evenPricing) (⟨{}, heldBy staker 2000000000000, 0⟩ : ContractState Nat)
        (unstakeThenStakeFor staker)).map (fun c => (c.system.refunds.find? staker,
          c.system.deferredRefunds.find? staker)) = some (some ⟨2, 399, 0⟩, some 259203) := by
  decide +kernel

/-- A stake for a friend cancels the payout of one's own refund, which stays pending. -/
theorem refund_loses_schedule : ∃ c : ContractState Nat, ∃ es req,
    Steps (Step evenPricing) ⟨{}, heldBy staker 2000000000000, 0⟩ es c ∧
      c.system.refunds.find? staker = some req ∧ c.system.deferredRefunds.find? staker = none := by
  obtain ⟨c, hreplay, hlast⟩ := Option.map_eq_some_iff.mp unstakeThenStakeFor_replay.1
  obtain ⟨es, hrun, -⟩ := Steps.of_replay step_of_step? hreplay
  exact ⟨c, es, ⟨2, 400, 0⟩, hrun, congrArg Prod.fst hlast, congrArg Prod.snd hlast⟩

/-- A stake for oneself takes from the refund and schedules the rest anew. -/
theorem refunds_scheduled_restaked : ∃ c : ContractState Nat, ∃ es,
    Steps (Step evenPricing) ⟨{}, heldBy staker 2000000000000, 0⟩ es c ∧
      es.map (fun e => e.2.1) = unstakeThenStakeFor staker ∧
      (∀ e ∈ es, e.2.2.system.Scheduled) ∧ c.system.refunds.find? staker = some ⟨2, 399, 0⟩ := by
  obtain ⟨c, hreplay, hlast⟩ := Option.map_eq_some_iff.mp unstakeThenStakeFor_replay.2
  obtain ⟨es, hrun, hlabels⟩ := Steps.of_replay step_of_step? hreplay
  refine ⟨c, es, hrun, hlabels, (refunds_scheduled_iff hrun).1.mpr fun e he => ?_,
    congrArg Prod.fst hlast⟩
  have hlabel : e.2.1 ∈ unstakeThenStakeFor staker := by
    rw [← hlabels]
    exact List.mem_map_of_mem he
  rcases List.mem_cons.mp hlabel with heq | hlabel
  · rw [heq]
    exact .inr (.inl ⟨rfl, rfl⟩)
  rcases List.mem_cons.mp hlabel with heq | hlabel
  · rw [heq]
    exact trivial
  · rw [List.mem_singleton.mp hlabel]
    exact .inr (.inl ⟨rfl, rfl⟩)

end ContractState

end DimensionChain.System
