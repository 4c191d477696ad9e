import DimensionChain.Chain.ProposedSchedule
import DimensionChain.System.Governance

/-!
# The switch of the consensus

A proposal of type 3 calls the host function `set_consensus_type` and does not look at what it
returns. The function refuses while a schedule that was proposed in an earlier block waits to
become pending; the proposal is marked as executed all the same, and is never executed again.
-/

namespace DimensionChain.System

open ProposedSchedule

namespace SystemState
variable {Key : Type} [DecidableEq Key]

def callConsensusTypes (x : ProposedSchedule.Context Key) :
    List Int64 → GlobalProperty Key → GlobalProperty Key
  | [], gpo => gpo
  | ct :: rest, gpo =>
    callConsensusTypes x rest (setConsensusType x gpo ct.toInt).2

def execproposalOnChain [Inhabited Key] (s : SystemState Key) (x : ProposedSchedule.Context Key)
    (gpo : GlobalProperty Key) (env : Env) (owner : AccountName) (proposalId : Nat) :
    Result (SystemState Key × GlobalProperty Key) := do
  let s ← { s with consensusTypes := [] }.execproposal env owner proposalId
  pure (s, callConsensusTypes x s.consensusTypes gpo)

def Carries (gpo : GlobalProperty Key) (ct : Int64) : Prop :=
  gpo.proposedScheduleBlockNum ≠ none ∧ gpo.proposedSchedule.consensusType = ct.toInt

variable {s s' : SystemState Key} {x : ProposedSchedule.Context Key} {gpo gpo' : GlobalProperty Key}

omit [DecidableEq Key] in
lemma carries_setConsensusType_iff {ct : Int64} :
    Carries (setConsensusType x gpo ct.toInt).2 ct ↔
      proposedEarlier x gpo = false ∨ Carries gpo ct := by
  unfold setConsensusType
  cases hearlier : proposedEarlier x gpo with
  | true =>
    exact ⟨.inr, fun h => h.resolve_left (by decide)⟩
  | false =>
    exact iff_of_true ⟨Option.some_ne_none _, rfl⟩ (.inl rfl)

variable [Inhabited Key] {owner : AccountName} {prop : ProposalInfo} {env : Env} {id : Nat}

lemma execproposalOnChain_ok (hprop : s.proposals.find? id = some prop) (htype : prop.type = 3)
    (hok : s.execproposalOnChain x gpo env owner id = .ok (s', gpo')) :
    s'.proposals.find? id = some (s.executed env prop) ∧ ((¬s.Satisfies prop ∧ gpo' = gpo) ∨
        s.Satisfies prop ∧
          gpo' = (setConsensusType x gpo prop.consensusType.toInt).2) := by
  obtain ⟨s₂, hexec, hpair⟩ := bind_ok_iff.mp hok
  obtain ⟨rfl, rfl⟩ : s₂ = s' ∧ callConsensusTypes x s₂.consensusTypes gpo = gpo' := by
    simpa only [pure, Except.pure, Except.ok.injEq, Prod.mk.injEq] using hpair
  obtain ⟨prop', s₁, hprop', hcarried, hs₂⟩ := execproposal_ok hexec
  rw [hprop] at hprop'
  cases hprop'
  have hrow : s₂.proposals.find? id = some (s.executed env prop) := by
    rw [hs₂]
    exact (FlatMap.find?_set _ _ _ _).trans (if_pos rfl)
  refine ⟨hrow, ?_⟩
  cases hcarried with
  | nothing hnot =>
    refine .inl ⟨fun hsat => hnot ⟨hsat, .inr (.inr htype)⟩, ?_⟩
    rw [hs₂]
    rfl
  | added _ _ hadd => exact absurd (hadd.symm.trans htype) (by decide)
  | removed _ _ _ hremove => exact absurd (hremove.symm.trans htype) (by decide)
  | switched hsat _ =>
    refine .inr ⟨hsat, ?_⟩
    rw [hs₂]
    rfl

/-- A switch that was executed is on the chain exactly when it was called for and no schedule of
an earlier block was waiting, or the schedule that was waiting had the type already. -/
theorem switch_carried_iff {env : Env} {owner : AccountName} {id : Nat} {prop prop' : ProposalInfo}
    (hprop : s.proposals.find? id = some prop) (htype : prop.type = 3)
    (hok : s.execproposalOnChain x gpo env owner id = .ok (s', gpo'))
    (hafter : s'.proposals.find? id = some prop') :
    Carries gpo' prop'.consensusType ↔
      (s.Satisfies prop ∧ proposedEarlier x gpo = false) ∨
        Carries gpo prop.consensusType := by
  obtain ⟨hrow, hcases⟩ := execproposalOnChain_ok hprop htype hok
  rw [hrow] at hafter
  cases hafter
  change Carries gpo' prop.consensusType ↔ _
  rcases hcases with ⟨hnot, rfl⟩ | ⟨hsat, rfl⟩
  · exact ⟨.inr, fun h => h.resolve_left fun hcalled => hnot hcalled.1⟩
  rw [carries_setConsensusType_iff]
  constructor
  · rintro (hfree | hcarries)
    · exact .inl ⟨hsat, hfree⟩
    · exact .inr hcarries
  · rintro (⟨-, hfree⟩ | hcarries)
    · exact .inl hfree
    · exact .inr hcarries

lemma execproposalOnChain_of_executed
    (hprop : s.proposals.find? id = some prop) (hexec : prop.isExec = true)
    (r : SystemState Key × GlobalProperty Key) : s.execproposalOnChain x gpo env owner id ≠ .ok r := by
  intro hok
  obtain ⟨s₂, hagain, -⟩ := bind_ok_iff.mp hok
  obtain ⟨-, -, prop', hprop', -, -, hnot, -⟩ := execproposal_ok_iff.mp hagain
  rw [hprop] at hprop'
  cases hprop'
  rw [hexec] at hnot
  cases hnot

def switcher : AccountName := Name.stringToName ['n', 'o', 'd', 'e']

def switchProposal : ProposalInfo :=
  { newProposalInfo 100 switcher switcher 0 3 1 with totalYeas := 20 }

def switchState : SystemState Nat :=
  { gnode := FlatMap.empty.set switcher ⟨switcher, 10000, 1, false, 0, 7, [], 0⟩
    proposals := FlatMap.empty.set 0 switchProposal
    gstate := { totalProposalStake := 20 } }

def switchContext : ProposedSchedule.Context Nat := ⟨9, {}, ⟨1, 0, [⟨switcher, 7⟩]⟩⟩

/-- What an account sees of the execution: the marks of the proposal and the proposed schedule. -/
def switchOutcome (gpo : GlobalProperty Nat) : Option (Option (Bool × Bool) × Option Nat × Int) :=
  ((switchState.execproposalOnChain switchContext gpo ⟨200, [switcher], 0, 0⟩ switcher
    0).toOption).map fun r =>
      ((r.1.proposals.find? 0).map fun prop => (prop.isSatisfy, prop.isExec),
        r.2.proposedScheduleBlockNum, r.2.proposedSchedule.consensusType)

lemma switchOutcome_eq :
    switchOutcome ⟨some 8, ⟨2, 0, [⟨switcher, 8⟩]⟩⟩ = some (some (true, true), some 8, 0) ∧
      switchOutcome {} = some (some (true, true), some 9, 1) := by
  decide +kernel

lemma switch_of_outcome {gpo : GlobalProperty Nat} {num : Option Nat} {ct : Int}
    (h : switchOutcome gpo = some (some (true, true), num, ct)) :
    ∃ s' gpo' prop', switchState.execproposalOnChain switchContext gpo ⟨200, [switcher], 0, 0⟩
        switcher 0 = .ok (s', gpo') ∧ s'.proposals.find? 0 = some prop' ∧
      (prop'.isSatisfy = true ∧ prop'.isExec = true) ∧ gpo'.proposedSchedule.consensusType = ct := by
  obtain ⟨⟨s', gpo'⟩, hok, hseen⟩ := Option.map_eq_some_iff.mp h
  obtain ⟨hmarks, hproposed⟩ := Prod.mk.inj hseen
  obtain ⟨prop', hprop', hboth⟩ := Option.map_eq_some_iff.mp hmarks
  obtain ⟨hsatisfy, hexec⟩ := Prod.mk.inj hboth
  exact ⟨s', gpo', prop', ok_of_toOption hok, hprop', ⟨hsatisfy, hexec⟩, (Prod.mk.inj hproposed).2⟩

/-- A schedule from the block before is waiting: the switch is executed, is not on the chain, and
is not executed again. -/
theorem switch_lost : ∃ (gpo : GlobalProperty Nat) (s' : SystemState Nat) (gpo' : GlobalProperty Nat)
    (prop' : ProposalInfo),
    switchState.execproposalOnChain switchContext gpo ⟨200, [switcher], 0, 0⟩ switcher 0 =
        .ok (s', gpo') ∧
      s'.proposals.find? 0 = some prop' ∧ (prop'.isSatisfy = true ∧ prop'.isExec = true) ∧
      ¬Carries gpo' prop'.consensusType ∧ ∀ env owner (x : ProposedSchedule.Context Nat) gpo r,
        s'.execproposalOnChain x gpo env owner 0 ≠ .ok r := by
  obtain ⟨s', gpo', prop', hok, hprop', hdone, hct⟩ := switch_of_outcome switchOutcome_eq.1
  have hrow : s'.proposals.find? 0 =
      some (switchState.executed ⟨200, [switcher], 0, 0⟩ switchProposal) :=
    (execproposalOnChain_ok rfl rfl hok).1
  refine ⟨_, s', gpo', prop', hok, hprop', hdone, fun hcarries => ?_,
    fun env owner x gpo r => execproposalOnChain_of_executed hprop' hdone.2 r⟩
  rw [hrow] at hprop'
  cases hprop'
  have hone := hcarries.2
  rw [hct] at hone
  exact absurd hone (by decide)

/-- No schedule is waiting. -/
theorem switch_carried_alone :
    ∃ (s' : SystemState Nat) (gpo' : GlobalProperty Nat) (prop' : ProposalInfo),
      switchState.execproposalOnChain switchContext {} ⟨200, [switcher], 0, 0⟩ switcher 0 =
          .ok (s', gpo') ∧
        s'.proposals.find? 0 = some prop' ∧ (prop'.isSatisfy = true ∧ prop'.isExec = true) ∧
        Carries gpo' prop'.consensusType := by
  obtain ⟨s', gpo', prop', hok, hprop', hdone, -⟩ := switch_of_outcome switchOutcome_eq.2
  refine ⟨s', gpo', prop', hok, hprop', hdone, (switch_carried_iff rfl rfl hok hprop').mpr (.inl ?_)⟩
  exact ⟨by decide +kernel, rfl⟩

end SystemState

end DimensionChain.System
