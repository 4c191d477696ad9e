import DimensionChain.System.Producers

/-!
# Who executes a proposal

Two calls of `execproposal` that differ in the signer only. The actions for producers that the
execution calls ask for the authority of the account that the proposal is about, so the calls
agree when both signers or neither are this account, or when the calls do not come so far.
-/

namespace DimensionChain.System.SystemState

variable {Key : Type} [DecidableEq Key] [Inhabited Key] {s s₁ s₂ : SystemState Key} {env : Env}
  {prop : ProposalInfo} {id : Nat}

def execSigned (s : SystemState Key) (env : Env) (signer : AccountName) (proposalId : Nat) :
    Result (SystemState Key) :=
  s.execproposal { env with auths := [signer] } signer proposalId

lemma carryOut_unique {env₁ env₂ : Env} (h₁ : s.carryOut env₁ prop = .ok s₁)
    (h₂ : s.carryOut env₂ prop = .ok s₂) : s₁ = s₂ := by
  unfold carryOut at h₁ h₂
  by_cases hsat : s.Satisfies prop
  · rw [if_neg (not_not.mpr hsat)] at h₁ h₂
    by_cases hadd : prop.type = 1
    · rw [if_pos hadd, execAdd_ok_iff] at h₁ h₂
      obtain ⟨gnd₁, hgnd₁, -, -, rfl⟩ := h₁
      obtain ⟨gnd₂, hgnd₂, -, -, rfl⟩ := h₂
      rw [hgnd₁] at hgnd₂
      cases hgnd₂
      rfl
    rw [if_neg hadd] at h₁ h₂
    by_cases hremove : prop.type = 2
    · rw [if_pos hremove, execRemove_ok_iff] at h₁ h₂
      obtain ⟨gnd₁, prod₁, hgnd₁, hprod₁, -, rfl⟩ := h₁
      obtain ⟨gnd₂, prod₂, hgnd₂, hprod₂, -, rfl⟩ := h₂
      rw [hgnd₁] at hgnd₂
      rw [hprod₁] at hprod₂
      cases hgnd₂
      cases hprod₂
      rfl
    rw [if_neg hremove] at h₁ h₂
    by_cases hswitch : prop.type = 3
    · rw [if_pos hswitch] at h₁ h₂
      cases h₁
      cases h₂
      rfl
    rw [if_neg hswitch] at h₁ h₂
    cases h₁
    cases h₂
    rfl
  rw [if_pos hsat] at h₁ h₂
  cases h₁
  cases h₂
  rfl

lemma execSigned_unique {g h : AccountName} (h₁ : s.execSigned env g id = .ok s₁)
    (h₂ : s.execSigned env h id = .ok s₂) : s₁ = s₂ := by
  obtain ⟨-, -, prop₁, hprop₁, -, -, -, t₁, hcarry₁, rfl⟩ := execproposal_ok_iff.mp h₁
  obtain ⟨-, -, prop₂, hprop₂, -, -, -, t₂, hcarry₂, rfl⟩ := execproposal_ok_iff.mp h₂
  rw [hprop₁] at hprop₂
  cases hprop₂
  rw [carryOut_unique hcarry₁ hcarry₂]
  rfl

/-- A proposal that can be executed: it is there and not executed yet, the time is in its window,
it is of a known type and has the votes, and its account is a governance node and, for a removal,
a producer. -/
structure Executable (s : SystemState Key) (env : Env) (id : Nat) (prop : ProposalInfo)
    (gnd : GoveranceNodeInfo Key) : Prop where
  found : s.proposals.find? id = some prop
  fresh : prop.isExec = false
  ended : 7 < s.getProducersSize → prop.voteEndTime < env.now
  window : env.now < prop.execEndTime
  type : prop.type = 1 ∨ prop.type = 2 ∨ prop.type = 3
  satisfied : s.Satisfies prop
  node : s.gnode.find? prop.account = some gnd
  producer : prop.type = 2 → ∃ row, s.producers.find? prop.account = some row

namespace Executable
variable {gnd : GoveranceNodeInfo Key}

lemma carryOut_iff (hexec : s.Executable env id prop gnd) (env' : Env) :
    (∃ s', s.carryOut env' prop = .ok s') ↔
      prop.type = 3 ∨ prop.account ∈ env'.auths ∧ (prop.type = 1 → Registrable gnd) := by
  unfold carryOut
  rw [if_neg (not_not.mpr hexec.satisfied)]
  rcases hexec.type with htype | htype | htype
  · rw [htype, if_pos rfl]
    simp only [execAdd_ok_iff, hexec.node, Option.some.injEq]
    constructor
    · rintro ⟨s', gnd', rfl, hreg, hauth, -⟩
      exact .inr ⟨hauth, fun _ => hreg⟩
    · rintro (hthree | ⟨hauth, hreg⟩)
      · exact absurd hthree (by decide)
      · exact ⟨_, gnd, rfl, hreg trivial, hauth, rfl⟩
  · obtain ⟨row, hrow⟩ := hexec.producer htype
    rw [htype, if_neg (by decide), if_pos rfl]
    simp only [execRemove_ok_iff, hexec.node, hrow, Option.some.injEq]
    constructor
    · rintro ⟨s', gnd', row', rfl, rfl, hauth, -⟩
      exact .inr ⟨hauth, fun hone => absurd hone (by decide)⟩
    · rintro (hthree | ⟨hauth, -⟩)
      · exact absurd hthree (by decide)
      · exact ⟨_, gnd, row, rfl, rfl, hauth, rfl⟩
  · rw [htype, if_neg (by decide), if_neg (by decide), if_pos rfl]
    exact iff_of_true ⟨_, rfl⟩ (.inl rfl)

/-- A governance node can execute a proposal alone if it only switches the consensus, or is about
the node itself and registers it with a proper key and address. -/
lemma signed_iff (hexec : s.Executable env id prop gnd) {g : AccountName}
    (hg : ∃ node, s.gnode.find? g = some node) : (∃ s', s.execSigned env g id = .ok s') ↔
      prop.type = 3 ∨ prop.account = g ∧ (prop.type = 1 → Registrable gnd) := by
  have hcarry := hexec.carryOut_iff { env with auths := [g] }
  rw [List.mem_singleton] at hcarry
  rw [← hcarry]
  constructor
  · rintro ⟨s', hs'⟩
    obtain ⟨-, -, prop', hprop', -, -, -, t, ht, -⟩ := execproposal_ok_iff.mp hs'
    rw [hexec.found] at hprop'
    cases hprop'
    exact ⟨t, ht⟩
  · rintro ⟨t, ht⟩
    exact ⟨_, execproposal_ok_iff.mpr ⟨List.mem_singleton_self g, hg, prop, hexec.found, hexec.ended,
      hexec.window, hexec.fresh, t, ht, rfl⟩⟩

end Executable

/-- The calls of two signers succeed together, with the same producers, governance nodes and
global state. -/
def SameForSigners (s : SystemState Key) (env : Env) (g h : AccountName) (id : Nat) : Prop :=
  ((∃ s', s.execSigned env g id = .ok s') ↔ ∃ s', s.execSigned env h id = .ok s') ∧
    ∀ s₁ s₂, s.execSigned env g id = .ok s₁ → s.execSigned env h id = .ok s₂ →
      s₁.producers = s₂.producers ∧ s₁.gnode = s₂.gnode ∧ s₁.gstate = s₂.gstate

/-- Two governance nodes execute a proposal alike exactly if it switches the consensus, or both of
them or neither is its account, or its account cannot be registered in any case. -/
theorem execproposal_same_for_signers_iff {gnd : GoveranceNodeInfo Key}
    (hexec : s.Executable env id prop gnd) {g h : AccountName}
    (hg : ∃ node, s.gnode.find? g = some node) (hh : ∃ node, s.gnode.find? h = some node) :
    s.SameForSigners env g h id ↔ prop.type = 3 ∨ (g = prop.account ↔ h = prop.account) ∨
        (prop.type = 1 ∧ ¬Registrable gnd) := by
  have hresult : ∀ s₁ s₂, s.execSigned env g id = .ok s₁ → s.execSigned env h id = .ok s₂ →
      s₁.producers = s₂.producers ∧ s₁.gnode = s₂.gnode ∧ s₁.gstate = s₂.gstate := by
    intro s₁ s₂ h₁ h₂
    rw [execSigned_unique h₁ h₂]
    exact ⟨rfl, rfl, rfl⟩
  unfold SameForSigners
  rw [and_iff_left hresult, hexec.signed_iff hg, hexec.signed_iff hh, eq_comm (a := g),
    eq_comm (a := h)]
  by_cases hthree : prop.type = 3
  · exact iff_of_true (iff_of_true (.inl hthree) (.inl hthree)) (.inl hthree)
  by_cases hreg : prop.type = 1 → Registrable gnd
  · have hnot : ¬(prop.type = 1 ∧ ¬Registrable gnd) := fun hbad => hbad.2 (hreg hbad.1)
    simp [hthree, hnot, and_iff_left hreg]
  have hbad : prop.type = 1 ∧ ¬Registrable gnd := Classical.not_imp.mp hreg
  have hfails : ∀ a, ¬(prop.type = 3 ∨ prop.account = a ∧ (prop.type = 1 → Registrable gnd)) := by
    rintro a (hswitch | ⟨-, hproper⟩)
    · exact hthree hswitch
    · exact hreg hproper
  exact iff_of_true (iff_of_false (hfails g) (hfails h)) (.inr (.inr hbad))

/-- One governance node proposes to remove another, which is a producer, and has the votes. -/
def removalSteps : List (Env × SystemAction Nat) :=
  electSteps ++
    [(⟨104, [bob], 0, 0⟩, .staketognode bob bob 8 [] 0),
      (⟨105, [bob], 0, 0⟩, .newproposal bob alice 0 2 0),
      (⟨106, [alice], 0, 0⟩, .voteproposal alice 1 true)]

def removal : ProposalInfo where
  owner := bob
  account := alice
  startTime := 105
  voteEndTime := 7305
  execEndTime := 266505
  execTime := 0
  blockHeight := 0
  type := 2
  isSatisfy := false
  isExec := false
  consensusType := 0
  totalYeas := 1
  totalNays := 0
  totalStaked := 0

def aliceNode : GoveranceNodeInfo Nat := ⟨alice, 10000, 100, true, 0, 7, [], 0⟩

def bobNode : GoveranceNodeInfo Nat := ⟨bob, 10000, 104, false, 0, 8, [], 0⟩

set_option synthInstance.maxSize 512 in
lemma removalSteps_replay : (replay (fun _ _ => True) {} 100 removalSteps).map (fun last =>
      (last.1.proposals.find? 1, last.1.gnode.find? alice, last.1.gnode.find? bob,
        last.1.isActive alice, last.1.gstate.totalProposalStake, last.1.getProducersSize)) =
    some (some removal, some aliceNode, some bobNode, true, 1, 1) := by
  decide +kernel

lemma removal_executable : ∃ (s : SystemState Nat) (t : Time), Run (fun _ _ => True) s t ∧
    s.Executable ⟨106, [], 0, 0⟩ 1 removal aliceNode ∧ s.gnode.find? alice = some aliceNode ∧
      s.gnode.find? bob = some bobNode := by
  obtain ⟨⟨s, t⟩, hreplay, hlast⟩ := Option.map_eq_some_iff.mp removalSteps_replay
  simp only [Prod.mk.injEq] at hlast
  obtain ⟨hprop, halice, hbob, hproducer, hstake, hsize⟩ := hlast
  refine ⟨s, t, run_of_replay (.start 100) hreplay, ?_, halice, hbob⟩
  constructor
  · exact hprop
  · rfl
  · intro hmany
    rw [hsize] at hmany
    exact absurd hmany (by decide)
  · decide
  · exact .inr (.inl rfl)
  · unfold Satisfies
    rw [hstake]
    decide
  · exact halice
  · intro _
    obtain ⟨row, hrow, -⟩ := isActive_iff.mp hproducer
    exact ⟨row, hrow⟩

/-- The removal that one governance node cannot execute, and the producer to be removed can. -/
theorem removal_needs_signature : ∃ (s : SystemState Nat) (t : Time),
    Run (fun _ _ => True) s t ∧ s.Executable ⟨106, [], 0, 0⟩ 1 removal aliceNode ∧
      (∃ node, s.gnode.find? bob = some node) ∧ (∃ node, s.gnode.find? alice = some node) ∧
      (∀ s', s.execSigned ⟨106, [], 0, 0⟩ bob 1 ≠ .ok s') ∧
      ∃ s', s.execSigned ⟨106, [], 0, 0⟩ alice 1 = .ok s' := by
  obtain ⟨s, t, hrun, hexec, halice, hbob⟩ := removal_executable
  refine ⟨s, t, hrun, hexec, ⟨_, hbob⟩, ⟨_, halice⟩, fun s' hs' => ?_, ?_⟩
  · rcases (hexec.signed_iff ⟨_, hbob⟩).mp ⟨s', hs'⟩ with hthree | ⟨hother, -⟩
    · exact absurd hthree (by decide)
    · exact absurd hother (by decide)
  · exact (hexec.signed_iff ⟨_, halice⟩).mpr (.inr ⟨rfl, fun hone => absurd hone (by decide)⟩)

theorem execproposal_same_for_signers_iff_removal : ∃ s : SystemState Nat,
    s.Executable ⟨106, [], 0, 0⟩ 1 removal aliceNode ∧
      ¬s.SameForSigners ⟨106, [], 0, 0⟩ bob alice 1 := by
  obtain ⟨s, t, -, hexec, halice, hbob⟩ := removal_executable
  refine ⟨s, hexec, fun hsame => ?_⟩
  have hcond := (execproposal_same_for_signers_iff hexec ⟨_, hbob⟩ ⟨_, halice⟩).mp hsame
  revert hcond
  decide +kernel

end DimensionChain.System.SystemState
