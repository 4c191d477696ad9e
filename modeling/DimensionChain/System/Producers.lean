import DimensionChain.System.Tally

/-!
# Elected producers

What the actions do to the producers, to the marks of the governance nodes and to the number of
producers. The number follows the active rows as long as each change of a row turns it, and the
mark of a governance node follows the row of its producer as long as the row changes through
proposals only.
-/

namespace DimensionChain.System.SystemState

open List FlatMap

variable {Key : Type} {s s' : SystemState Key} {env : Env} {account : AccountName} {id : Nat}
  {prop : ProposalInfo} {owner : AccountName} {t : Time}

def isActive (s : SystemState Key) (account : AccountName) : Bool :=
  (s.producers.find? account).any fun row => row.isActive

def isBp (s : SystemState Key) (account : AccountName) : Bool :=
  (s.gnode.find? account).any fun gnd => gnd.isBp

def activeCount (s : SystemState Key) : Nat := s.producers.entries.countP fun e => e.2.isActive

lemma isActive_iff : s.isActive account = true ↔
      ∃ row, s.producers.find? account = some row ∧ row.isActive = true := by
  unfold isActive
  rw [Option.any_eq_true]

lemma isBp_iff :
    s.isBp account = true ↔ ∃ gnd, s.gnode.find? account = some gnd ∧ gnd.isBp = true := by
  unfold isBp
  rw [Option.any_eq_true]

section Rows
variable {row : ProducerInfo Key}

lemma isActive_set (h : s'.producers = s.producers.set account row) (other : AccountName) :
    s'.isActive other = if other = account then row.isActive else s.isActive other := by
  unfold isActive
  rw [h, find?_set]
  split <;> rfl

lemma isBp_set {gnd : GoveranceNodeInfo Key} (h : s'.gnode = s.gnode.set account gnd)
    (other : AccountName) : s'.isBp other = if other = account then gnd.isBp else s.isBp other := by
  unfold isBp
  rw [h, find?_set]
  split <;> rfl

lemma isBp_erase (h : s'.gnode = s.gnode.erase account) (other : AccountName) :
    s'.isBp other = if other = account then false else s.isBp other := by
  unfold isBp
  rw [h, find?_erase]
  split <;> rfl

lemma activeCount_set (h : s'.producers = s.producers.set account row) :
    s'.activeCount + (s.isActive account).toNat = s.activeCount + row.isActive.toNat := by
  have hcount := s.producers.countP_set_add account row fun e => e.2.isActive
  rw [← h] at hcount
  unfold activeCount isActive
  cases hold : (s.producers.find? account).any fun old => old.isActive <;>
    cases hnew : row.isActive <;> simp [hold, hnew] at hcount ⊢ <;> exact hcount

end Rows

/-- The action leaves the producers alone: no removal by the system account, and no proposal that
adds or removes a producer. -/
def Quiet (s : SystemState Key) : SystemAction Key → Prop
  | .execproposal _ id =>
    ∀ prop ∈ s.proposals.find? id, ¬(s.Satisfies prop ∧ (prop.type = 1 ∨ prop.type = 2))
  | .rmvproducer _ => False
  | _ => True

/-- What an action can do to the producers and to the marks of the governance nodes. -/
inductive OfficeStep (s s' : SystemState Key) : SystemAction Key → Prop where
  | quiet {action : SystemAction Key} (hproducers : s'.producers = s.producers)
      (hbp : ∀ account, s'.isBp account = s.isBp account)
      (hnum : s'.gstate.producerNum = s.gstate.producerNum) (hquiet : s.Quiet action) :
      OfficeStep s s' action
  | added {owner : AccountName} {id : Nat} {prop : ProposalInfo} {row : ProducerInfo Key}
      {gnd : GoveranceNodeInfo Key}
      (hprop : s.proposals.find? id = some prop) (hsat : s.Satisfies prop) (htype : prop.type = 1)
      (hproducers : s'.producers = s.producers.set prop.account row) (hrow : row.isActive = true)
      (hgnode : s'.gnode = s.gnode.set prop.account gnd) (hgnd : gnd.isBp = true)
      (hnum : s'.gstate.producerNum = s.gstate.producerNum + 1) :
      OfficeStep s s' (.execproposal owner id)
  | removed {owner : AccountName} {id : Nat} {prop : ProposalInfo} {row : ProducerInfo Key}
      {gnd : GoveranceNodeInfo Key}
      (hprop : s.proposals.find? id = some prop) (hsat : s.Satisfies prop) (htype : prop.type = 2)
      (hproducers : s'.producers = s.producers.set prop.account row) (hrow : row.isActive = false)
      (hgnode : s'.gnode = s.gnode.set prop.account gnd) (hgnd : gnd.isBp = false)
      (hnum : s'.gstate.producerNum = s.gstate.producerNum - 1) :
      OfficeStep s s' (.execproposal owner id)
  | rmv {producer : AccountName} {row : ProducerInfo Key}
      (hproducers : s'.producers = s.producers.set producer row) (hrow : row.isActive = false)
      (hbp : ∀ account, s'.isBp account = s.isBp account)
      (hnum : s'.gstate.producerNum = s.gstate.producerNum) : OfficeStep s s' (.rmvproducer producer)

lemma isBp_congr (h : s'.gnode = s.gnode) (account : AccountName) :
    s'.isBp account = s.isBp account := by
  unfold isBp
  rw [h]

section Inversion

variable {action : SystemAction Key} {s₁ : SystemState Key}

lemma OfficeStep.restake {weight : Int64} (h : s.Restaked s₁ account) (hquiet : s.Quiet action) :
    OfficeStep s (s₁.reweigh env account weight) action := by
  obtain ⟨proposals, heq⟩ := s₁.reweigh_eq env account weight
  have hnum : s₁.gstate.producerNum = s.gstate.producerNum := by rw [h.gstate]
  rw [heq]
  exact .quiet h.producers (isBp_congr h.gnode) hnum hquiet

lemma Balloted.officeStep {voter : AccountName} {yea : Bool} {info : ProposalInfo}
    (h : Balloted s env voter id yea info s') : OfficeStep s s' (.voteproposal voter id yea) := by
  cases h <;> exact .quiet rfl (fun _ => rfl) rfl trivial

lemma Carried.officeStep [Inhabited Key]
    {proposals : FlatMap Nat ProposalInfo} (hprop : s.proposals.find? id = some prop)
    (h : Carried s env prop s₁) :
    OfficeStep s { s₁ with proposals := proposals } (.execproposal owner id) := by
  have hquiet : ¬(s.Satisfies prop ∧ (prop.type = 1 ∨ prop.type = 2)) →
      s.Quiet (.execproposal owner id) := by
    intro hnot found hfound
    rw [hprop] at hfound
    cases hfound
    exact hnot
  cases h with
  | nothing hnot =>
    refine .quiet rfl (fun _ => rfl) rfl (hquiet fun hdo => hnot ⟨hdo.1, ?_⟩)
    exact hdo.2.imp_right .inl
  | added gnd hsat htype hgnd hreg hauth =>
    exact .added hprop hsat htype rfl rfl rfl rfl rfl
  | removed gnd prod hsat htype hgnd hprod hauth =>
    exact .removed hprop hsat htype rfl rfl rfl rfl rfl
  | switched hsat htype =>
    refine .quiet rfl (fun _ => rfl) rfl (hquiet fun hdo => ?_)
    rw [htype] at hdo
    exact absurd hdo.2 (by decide)

lemma apply_officeStep [DecidableEq Key] [Inhabited Key] (h : s.apply env action = .ok s') :
    OfficeStep s s' action := by
  cases action with
  | delegatebw =>
    obtain ⟨account, s₁, hrestaked, rfl⟩ := delegatebw_ok h
    exact .restake hrestaked trivial
  | undelegatebw =>
    obtain ⟨account, s₁, hrestaked, rfl⟩ := undelegatebw_ok h
    exact .restake hrestaked trivial
  | refund =>
    obtain ⟨refunds, transfers, rfl⟩ := refund_ok h
    exact .quiet rfl (fun _ => rfl) rfl trivial
  | newproposal =>
    obtain ⟨id, transfers, -, rfl⟩ := newproposal_ok h
    exact .quiet rfl (fun _ => rfl) rfl trivial
  | voteproposal =>
    obtain ⟨-, info, -, -, hballot⟩ := voteproposal_ok h
    exact hballot.officeStep
  | execproposal =>
    obtain ⟨prop, s₁, hprop, hcarried, rfl⟩ := execproposal_ok h
    exact hcarried.officeStep hprop
  | staketognode payer owner =>
    obtain ⟨hnone, row, transfers, hrow, rfl⟩ := staketognode_ok h
    refine .quiet rfl (fun account => ?_) rfl trivial
    refine (isBp_set rfl account).trans ?_
    split
    · rename_i heq
      rw [hrow, heq, isBp, hnone]
      rfl
    · rfl
  | unstakegnode owner =>
    obtain ⟨-, gnd, hgnd, hbp, -, rfl⟩ := unstakegnode_ok_iff.mp h
    refine .quiet rfl (fun account => ?_) rfl trivial
    refine (isBp_erase rfl account).trans ?_
    split
    · rename_i heq
      rw [heq, isBp, hgnd]
      exact hbp.symm
    · rfl
  | updategnode owner =>
    obtain ⟨gnd, row, hgnd, hrow, rfl⟩ := updategnode_ok h
    refine .quiet rfl (fun account => ?_) rfl trivial
    refine (isBp_set rfl account).trans ?_
    split
    · rename_i heq
      rw [heq, isBp, hgnd]
      exact hrow
    · rfl
  | rmvproducer producer =>
    obtain ⟨prod, -, rfl⟩ := rmvproducer_ok h
    exact .rmv rfl rfl (fun _ => rfl) rfl

end Inversion

lemma topProducers_eq {limit : Int} {rows top : List (AccountName × ProducerInfo Key)}
    (h : (top.length + rows.countP fun e => e.2.isActive : Int) ≤ limit) :
    topProducers limit rows top = top ++ rows.filter fun e => e.2.isActive := by
  induction rows generalizing top with
  | nil => simp [topProducers]
  | cons row rows ih =>
    rw [topProducers, filter_cons]
    rw [countP_cons] at h
    cases hactive : row.2.isActive with
    | true =>
      rw [hactive, if_pos rfl] at h
      have hlt : (top.length : Int) < limit := by omega
      have hnext : ((top ++ [row]).length + rows.countP fun e => e.2.isActive : Int) ≤ limit := by
        rw [length_append, length_singleton]
        omega
      rw [if_pos hlt, if_pos rfl, if_pos rfl, ih hnext, append_assoc]
      rfl
    | false =>
      rw [hactive, if_neg Bool.false_ne_true] at h
      rw [if_neg Bool.false_ne_true, if_neg Bool.false_ne_true]
      by_cases hlt : (top.length : Int) < limit
      · rw [if_pos hlt, ih h]
      · -- the counted rows are reached, so nothing active is left
        have hnone : rows.countP (fun e => e.2.isActive) = 0 := by omega
        rw [if_neg hlt, filter_eq_nil_iff.mpr (countP_eq_zero.mp hnone), append_nil]

lemma mem_updateElectedProducers (h : (s.activeCount : Int) ≤ s.gstate.producerNum)
    (owner : AccountName) (key : Key) : (owner, key) ∈ s.updateElectedProducers ↔
      ∃ row, s.producers.find? owner = some row ∧ row.isActive = true ∧ row.producerKey = key := by
  have htop : topProducers s.gstate.producerNum s.producers.entries [] =
      s.producers.entries.filter fun e => e.2.isActive := by
    refine topProducers_eq ?_
    rw [length_nil]
    unfold activeCount at h
    omega
  unfold updateElectedProducers
  rw [htop, mem_map]
  simp only [mem_insertionSort, mem_filter, Prod.mk.injEq, Prod.exists]
  constructor
  · rintro ⟨a, row, ⟨hmem, hactive⟩, rfl, rfl⟩
    exact ⟨row, find?_eq_some.mpr hmem, hactive, rfl⟩
  · rintro ⟨row, hrow, hactive, rfl⟩
    exact ⟨owner, row, ⟨find?_eq_some.mp hrow, hactive⟩, rfl, rfl⟩

/-- The number of producers is that of the active rows, and the schedule that is proposed has
exactly these. -/
def Elected (s : SystemState Key) : Prop :=
  s.gstate.producerNum = s.activeCount ∧
    ∀ owner key, (owner, key) ∈ s.updateElectedProducers ↔
      ∃ row, s.producers.find? owner = some row ∧ row.isActive = true ∧ row.producerKey = key

lemma elected_iff : s.Elected ↔ s.gstate.producerNum = s.activeCount := by
  constructor
  · exact And.left
  · intro h
    exact ⟨h, mem_updateElectedProducers h.ge⟩

section Count

/-- A satisfied proposal to add finds its account inactive, one to remove finds it active, and the
system account removes no active producer. -/
def TurnsRow (s : SystemState Key) : SystemAction Key → Prop
  | .execproposal _ id => ∀ prop ∈ s.proposals.find? id, s.Satisfies prop →
    (prop.type = 1 → s.isActive prop.account = false) ∧
      (prop.type = 2 → s.isActive prop.account = true)
  | .rmvproducer producer => s.isActive producer = false
  | _ => True

instance (s : SystemState Key) (action : SystemAction Key) : Decidable (s.TurnsRow action) := by
  induction action using SystemAction.casesOn <;> dsimp only [TurnsRow] <;> infer_instance

variable {action : SystemAction Key}

lemma Quiet.turnsRow (h : s.Quiet action) : s.TurnsRow action := by
  cases action with
  | execproposal owner id =>
    intro prop hprop hsat
    have hnot := h prop hprop
    exact ⟨fun htype => absurd ⟨hsat, .inl htype⟩ hnot, fun htype => absurd ⟨hsat, .inr htype⟩ hnot⟩
  | rmvproducer => exact h.elim
  | _ => trivial

lemma turnsRow_execproposal (hprop : s.proposals.find? id = some prop) (hsat : s.Satisfies prop) :
    s.TurnsRow (.execproposal owner id) ↔ (prop.type = 1 → s.isActive prop.account = false) ∧
        (prop.type = 2 → s.isActive prop.account = true) := by
  constructor
  · intro h
    exact h prop hprop hsat
  intro h found hfound _
  rw [hprop] at hfound
  cases hfound
  exact h

lemma OfficeStep.elected_iff (h : OfficeStep s s' action)
    (helected : s.Elected) : s'.Elected ↔ s.TurnsRow action := by
  have hcount := helected.1
  rw [SystemState.elected_iff]
  cases h with
  | quiet hproducers hbp hnum hquiet =>
    have hsame : s'.activeCount = s.activeCount := by
      unfold activeCount
      rw [hproducers]
    rw [hnum, hsame]
    exact iff_of_true hcount hquiet.turnsRow
  | added hprop hsat htype hproducers hrow hgnode hgnd hnum
  | removed hprop hsat htype hproducers hrow hgnode hgnd hnum =>
    have hset := activeCount_set hproducers
    rw [turnsRow_execproposal hprop hsat, htype, hnum, hcount]
    rw [hrow] at hset
    cases hactive : s.isActive _ <;> simp [hactive] at hset ⊢ <;> omega
  | rmv hproducers hrow hbp hnum =>
    have hset := activeCount_set hproducers
    rw [hrow] at hset
    change _ ↔ s.isActive _ = false
    cases hactive : s.isActive _ <;> simp [hactive] at hset ⊢ <;> omega

variable [DecidableEq Key] [Inhabited Key]

lemma elected_of_run (h : Run TurnsRow s t) : s.Elected := by
  induction h with
  | start t => exact SystemState.elected_iff.mpr rfl
  | step _ _ hturns happly ih => exact ((apply_officeStep happly).elected_iff ih).mpr hturns

/-- Runs in which every action turns the row that it counts keep the number of producers and
propose exactly the active ones, and the first action that does not turn it breaks the number. -/
theorem producer_num_counts_active :
    (∀ (s : SystemState Key) (t : Time), Run TurnsRow s t → s.Elected) ∧
      ∀ (s s' : SystemState Key) (env : Env) (action : SystemAction Key), s.Elected →
        s.apply env action = .ok s' → (s'.Elected ↔ s.TurnsRow action) := by
  constructor
  · intro s t h
    exact elected_of_run h
  · intro s s' env action helected happly
    exact (apply_officeStep happly).elected_iff helected

end Count

/-- An account stakes, becomes a governance node, and makes itself a producer by a proposal. -/
def electSteps : List (Env × SystemAction Nat) :=
  [(⟨100, [alice], 0, 0⟩, .delegatebw alice alice (coreAsset 1000000) (coreAsset 0) false),
    (⟨100, [alice], 0, 0⟩, .staketognode alice alice 7 [] 0),
    (⟨101, [alice], 0, 0⟩, .newproposal alice alice 0 1 0),
    (⟨102, [alice], 0, 0⟩, .voteproposal alice 0 true),
    (⟨103, [alice], 0, 0⟩, .execproposal alice 0)]

def electAgainSteps : List (Env × SystemAction Nat) :=
  electSteps ++
    [(⟨104, [alice], 0, 0⟩, .newproposal alice alice 0 1 0),
      (⟨105, [alice], 0, 0⟩, .voteproposal alice 1 true),
      (⟨106, [alice], 0, 0⟩, .execproposal alice 1)]

def bob : AccountName := Name.stringToName ['b', 'o', 'b']

def removeTwiceSteps : List (Env × SystemAction Nat) :=
  electSteps ++
    [(⟨104, [bob], 0, 0⟩, .staketognode bob bob 8 [] 0),
      (⟨104, [bob], 0, 0⟩, .newproposal bob bob 0 1 0),
      (⟨105, [alice], 0, 0⟩, .voteproposal alice 1 true),
      (⟨106, [bob], 0, 0⟩, .execproposal bob 1),
      (⟨107, [alice], 0, 0⟩, .newproposal alice alice 0 2 0),
      (⟨107, [alice], 0, 0⟩, .newproposal alice alice 0 2 0),
      (⟨108, [alice], 0, 0⟩, .voteproposal alice 2 true),
      (⟨108, [alice], 0, 0⟩, .voteproposal alice 3 true),
      (⟨109, [alice], 0, 0⟩, .execproposal alice 2),
      (⟨109, [alice], 0, 0⟩, .execproposal alice 3)]

lemma electAgainSteps_replay : (replay (fun _ _ => True) {} 100 electAgainSteps).map (fun last =>
      (last.1.gstate.producerNum, last.1.activeCount)) = some (2, 1) := by
  decide +kernel

lemma removeTwiceSteps_replay : (replay (fun _ _ => True) {} 100 removeTwiceSteps).map (fun last =>
      (last.1.gstate.producerNum, last.1.isActive bob, last.1.updateElectedProducers)) =
    some (0, true, []) := by
  decide +kernel

/-- A producer that is elected twice counts as two, and one that is removed twice counts as minus
one: an active producer is then left out of the schedule. -/
theorem producer_num_drifts :
    (∃ (s : SystemState Nat) (t : Time), Run (fun _ _ => True) s t ∧ s.gstate.producerNum = 2 ∧
      s.activeCount = 1) ∧
    ∃ (s : SystemState Nat) (t : Time), Run (fun _ _ => True) s t ∧ s.gstate.producerNum = 0 ∧
      s.isActive bob = true ∧ s.updateElectedProducers = [] := by
  constructor
  · obtain ⟨⟨s, t⟩, hreplay, hlast⟩ := Option.map_eq_some_iff.mp electAgainSteps_replay
    obtain ⟨hnum, hcount⟩ := Prod.mk.inj hlast
    exact ⟨s, t, run_of_replay (.start 100) hreplay, hnum, hcount⟩
  obtain ⟨⟨s, t⟩, hreplay, hlast⟩ := Option.map_eq_some_iff.mp removeTwiceSteps_replay
  obtain ⟨hnum, hrest⟩ := Prod.mk.inj hlast
  obtain ⟨hactive, hschedule⟩ := Prod.mk.inj hrest
  exact ⟨s, t, run_of_replay (.start 100) hreplay, hnum, hactive, hschedule⟩

lemma electSteps_replay : (replay TurnsRow {} 100 electSteps).map (fun last =>
      (last.1.gstate.producerNum, last.1.updateElectedProducers)) = some (1, [(alice, 7)]) := by
  decide +kernel

theorem producer_num_counts_active_once : ∃ (s : SystemState Nat) (t : Time),
    Run TurnsRow s t ∧ s.gstate.producerNum = 1 ∧ s.updateElectedProducers = [(alice, 7)] ∧
      s.Elected := by
  obtain ⟨⟨s, t⟩, hreplay, hlast⟩ := Option.map_eq_some_iff.mp electSteps_replay
  obtain ⟨hnum, hproducers⟩ := Prod.mk.inj hlast
  have hrun := run_of_replay (.start 100) hreplay
  exact ⟨s, t, hrun, hnum, hproducers, producer_num_counts_active.1 s t hrun⟩

/-- The marks of the governance nodes agree with the producers, no active producer can withdraw
its stake, and an inactive one can once no open proposal is by it or about it. -/
def Locked (s : SystemState Key) : Prop :=
  (∀ account, (∃ gnd, s.gnode.find? account = some gnd ∧ gnd.isBp = true) ↔
    ∃ row, s.producers.find? account = some row ∧ row.isActive = true) ∧
  (∀ env account row, s.producers.find? account = some row → row.isActive = true →
    ∀ s', s.unstakegnode env account ≠ .ok s') ∧
  ∀ env account gnd, s.gnode.find? account = some gnd → s.isActive account = false →
    account ∈ env.auths →
    (∀ id info, s.proposals.find? id = some info → env.now < info.voteEndTime →
      info.owner ≠ account ∧ info.account ≠ account) →
    ∃ s', s.unstakegnode env account = .ok s'

lemma locked_iff : s.Locked ↔ ∀ account, s.isBp account = s.isActive account := by
  have hiff : ∀ account, (∃ gnd, s.gnode.find? account = some gnd ∧ gnd.isBp = true) ↔
      s.isBp account = true := fun account => isBp_iff.symm
  have hactive : ∀ account, (∃ row, s.producers.find? account = some row ∧ row.isActive = true) ↔
      s.isActive account = true := fun account => isActive_iff.symm
  constructor
  · intro h account
    apply Bool.eq_iff_iff.mpr
    rw [← hiff, ← hactive]
    exact h.1 account
  intro h
  refine ⟨fun account => ?_, fun env account row hrow hon s' hok => ?_,
    fun env account gnd hgnd hoff hauth hopen => ?_⟩
  · rw [hiff, hactive, h]
  · obtain ⟨-, gnd, hgnd, hbp, -⟩ := unstakegnode_ok_iff.mp hok
    have hmark := h account
    rw [isActive_iff.mpr ⟨row, hrow, hon⟩, isBp, hgnd] at hmark
    exact absurd (hbp.symm.trans hmark) Bool.false_ne_true
  · have hmark := h account
    rw [hoff, isBp, hgnd] at hmark
    exact ⟨_, unstakegnode_ok_iff.mpr ⟨hauth, gnd, hgnd, hmark, hopen, rfl⟩⟩

def SparesActive (s : SystemState Key) : SystemAction Key → Prop
  | .rmvproducer producer => s.isActive producer = false
  | _ => True

instance (s : SystemState Key) (action : SystemAction Key) : Decidable (s.SparesActive action) := by
  induction action using SystemAction.casesOn <;> dsimp only [SparesActive] <;> infer_instance

variable {action : SystemAction Key}

lemma Quiet.sparesActive (h : s.Quiet action) : s.SparesActive action := by
  cases action with
  | rmvproducer => exact h.elim
  | _ => trivial

lemma OfficeStep.locked_iff (h : OfficeStep s s' action)
    (hlocked : s.Locked) : s'.Locked ↔ s.SparesActive action := by
  rw [SystemState.locked_iff] at hlocked ⊢
  cases h with
  | quiet hproducers hbp hnum hquiet =>
    refine iff_of_true (fun account => ?_) hquiet.sparesActive
    rw [hbp, hlocked, isActive, isActive, hproducers]
  | added hprop hsat htype hproducers hrow hgnode hgnd hnum
  | removed hprop hsat htype hproducers hrow hgnode hgnd hnum =>
    refine iff_of_true (fun account => ?_) trivial
    rw [isBp_set hgnode, isActive_set hproducers, hgnd, hrow, hlocked]
  | @rmv producer row hproducers hrow hbp hnum =>
    constructor
    · intro hagree
      have hmark := hagree producer
      rw [hbp, hlocked, isActive_set hproducers, if_pos rfl, hrow] at hmark
      exact hmark
    intro hoff account
    rw [hbp, hlocked, isActive_set hproducers, hrow]
    split
    · rename_i heq
      rw [heq, hoff]
    · rfl

variable [DecidableEq Key] [Inhabited Key]

lemma locked_of_run (h : Run SparesActive s t) : s.Locked := by
  induction h with
  | start t => exact SystemState.locked_iff.mpr fun _ => rfl
  | step _ _ hspares happly ih => exact ((apply_officeStep happly).locked_iff ih).mpr hspares

/-- Runs in which the system account removes no active producer keep the marks of the governance
nodes and with them the lock of their stakes, and the first such removal breaks them. -/
theorem stake_locked_while_active :
    (∀ (s : SystemState Key) (t : Time), Run SparesActive s t → s.Locked) ∧
      ∀ (s s' : SystemState Key) (env : Env) (action : SystemAction Key), s.Locked →
        s.apply env action = .ok s' → (s'.Locked ↔ s.SparesActive action) := by
  constructor
  · intro s t h
    exact locked_of_run h
  · intro s s' env action hlocked happly
    exact (apply_officeStep happly).locked_iff hlocked

def removeSteps : List (Env × SystemAction Nat) :=
  electSteps ++ [(⟨104, [Config.systemAccountName], 0, 0⟩, .rmvproducer alice)]

lemma removeSteps_replay : (replay (fun _ _ => True) {} 100 removeSteps).map (fun last =>
      (last.1.isBp alice, last.1.isActive alice)) = some (true, false) := by
  decide +kernel

/-- The stake of a producer that was removed stays locked. -/
theorem stake_locked_after_removal : ∃ (s : SystemState Nat) (t : Time),
    Run (fun _ _ => True) s t ∧ s.isActive alice = false ∧
      (∀ env s', s.unstakegnode env alice ≠ .ok s') ∧ ¬s.Locked := by
  obtain ⟨⟨s, t⟩, hreplay, hlast⟩ := Option.map_eq_some_iff.mp removeSteps_replay
  obtain ⟨hbp, hactive⟩ := Prod.mk.inj hlast
  refine ⟨s, t, run_of_replay (.start 100) hreplay, hactive, fun env s' hok => ?_, fun hlocked => ?_⟩
  · obtain ⟨-, gnd, hgnd, hoff, -⟩ := unstakegnode_ok_iff.mp hok
    obtain ⟨gnd', hgnd', hon⟩ := isBp_iff.mp hbp
    rw [hgnd] at hgnd'
    cases hgnd'
    exact absurd (hoff.symm.trans hon) Bool.false_ne_true
  · have hmark := locked_iff.mp hlocked alice
    rw [hbp, hactive] at hmark
    exact absurd hmark (by decide)

lemma electSteps_spares :
    (replay SparesActive {} 100 electSteps).map (fun last => last.1.isActive alice) = some true := by
  decide +kernel

theorem stake_locked_while_active_elected : ∃ (s : SystemState Nat) (t : Time),
    Run SparesActive s t ∧ s.isActive alice = true ∧ s.Locked := by
  obtain ⟨⟨s, t⟩, hreplay, hactive⟩ := Option.map_eq_some_iff.mp electSteps_spares
  have hrun := run_of_replay (.start 100) hreplay
  exact ⟨s, t, hrun, hactive, stake_locked_while_active.1 s t hrun⟩

end DimensionChain.System.SystemState
