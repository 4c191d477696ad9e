import DimensionChain.System.Governance

/-!
# Tallies of the proposals

The total of the proposal stake and the tallies of the open proposals are kept by differences:
a change of stake adds the change of the voter's weight, a vote adds or moves the weight. Along
every run they are the sums over the stakes as they are now.
-/

namespace DimensionChain.System

open FlatMap Option

def ProposalInfo.votes (info : ProposalInfo) (side : Bool) : Int64 :=
  if side then info.totalYeas else info.totalNays

/-- A 64-bit number keeps a sum: it is the sum as it wraps, and the sum itself if that fits. -/
def Keeps (x : Int64) (sum : Int) : Prop :=
  x = wrapInt64 sum ∧ (-2 ^ 63 ≤ sum → sum < 2 ^ 63 → x.toInt = sum)

lemma keeps_wrapInt64 {x : Int64} {sum : Int} (h : x = wrapInt64 sum) : Keeps x sum := by
  refine ⟨h, fun hlow hhigh => ?_⟩
  rw [h]
  exact toInt_wrapInt64 hlow hhigh

namespace SystemState
variable {Key : Type} {s s' : SystemState Key} {env : Env} (info : ProposalInfo)
include info

lemma votes_addWeight (vote side : Bool) (weight : Int64) :
    (addWeight info vote weight).votes side = info.votes side + if vote = side then weight else 0 := by
  cases vote <;> cases side <;> simp [addWeight, ProposalInfo.votes]

lemma votes_turnVote (yea side : Bool) (weight : Int64) : (turnVote info yea weight).votes side =
      info.votes side + if yea = side then weight else -weight := by
  cases yea <;> cases side <;> simp [turnVote, ProposalInfo.votes, sub_eq_add_neg]

lemma addWeight_zero (vote : Bool) : addWeight info vote 0 = info := by
  cases vote <;> simp [addWeight]

lemma voteEndTime_addWeight (vote : Bool) (weight : Int64) :
    (addWeight info vote weight).voteEndTime = info.voteEndTime := by
  cases vote <;> rfl

lemma voteEndTime_turnVote (yea : Bool) (weight : Int64) :
    (turnVote info yea weight).voteEndTime = info.voteEndTime := by
  cases yea <;> rfl

omit info

lemma voterWeight_eq (account : AccountName) : s.voterWeight account =
      ((s.voters.find? account).map fun v => stakeToProposalVotes v.staked).getD 0 := by
  unfold voterWeight
  cases s.voters.find? account <;> rfl

def ballots (s : SystemState Key) (id : Nat) (side : Bool) : Int64 :=
  s.propvote.total fun k v =>
    if (ofLex k).1 = id ∧ v.vote = side then s.voterWeight (ofLex k).2 else 0

lemma ballots_congr (hvoters : s'.voters = s.voters) (hpropvote : s'.propvote = s.propvote)
    (id : Nat) (side : Bool) : s'.ballots id side = s.ballots id side := by
  unfold ballots voterWeight
  rw [hpropvote, hvoters]

/-- The tallies are the sums over the stakes, for the proposals that are open at the time. -/
structure Tallied (s : SystemState Key) (t : Time) : Prop where
  total : s.gstate.totalProposalStake = s.voters.total fun _ v => stakeToProposalVotes v.staked
  counted : 0 ≤ s.gstate.proposalNum
  empty : s.gstate.proposalNum = 0 → ∀ id, s.proposals.find? id = none
  voted : ∀ id voter v, s.propvote.find? (toLex (id, voter)) = some v →
    ∃ info, s.proposals.find? id = some info
  tally : ∀ id info, s.proposals.find? id = some info → t < info.voteEndTime →
    ∀ side, info.votes side = s.ballots id side

namespace Tallied
variable {t : Time}

lemma start (t : Time) : Tallied ({} : SystemState Key) t where
  total := rfl
  counted := le_rfl
  empty := fun _ _ => rfl
  voted := fun _ _ _ h => nomatch h
  tally := fun _ _ h => nomatch h

lemma mono (h : s.Tallied t) {t' : Time} (ht : t ≤ t') : s.Tallied t' where
  total := h.total
  counted := h.counted
  empty := h.empty
  voted := h.voted
  tally := fun id info hinfo hopen => h.tally id info hinfo (ht.trans_lt hopen)

lemma congr (h : s.Tallied t) (hvoters : s'.voters = s.voters) (hpropvote : s'.propvote = s.propvote)
    (hproposals : s'.proposals = s.proposals)
    (htotal : s'.gstate.totalProposalStake = s.gstate.totalProposalStake)
    (hnum : s'.gstate.proposalNum = s.gstate.proposalNum) : s'.Tallied t := by
  constructor
  · rw [htotal, hvoters]
    exact h.total
  · rw [hnum]
    exact h.counted
  · rw [hnum, hproposals]
    exact h.empty
  · rw [hpropvote, hproposals]
    exact h.voted
  intro id info hinfo hopen side
  rw [ballots_congr hvoters hpropvote]
  rw [hproposals] at hinfo
  exact h.tally id info hinfo hopen side

end Tallied

section Restake
variable {account : AccountName} (h : s.Restaked s' account)
include h

lemma Restaked.voterWeight_of_ne {other : AccountName}
    (hne : other ≠ account) : s'.voterWeight other = s.voterWeight other := by
  obtain ⟨staked, hvoters⟩ := h.voters
  unfold voterWeight
  rw [hvoters, find?_set, if_neg hne]

lemma Restaked.total : (s'.voters.total fun _ v => stakeToProposalVotes v.staked) =
      (s.voters.total fun _ v => stakeToProposalVotes v.staked) +
        (s'.voterWeight account - s.voterWeight account) := by
  obtain ⟨staked, hvoters⟩ := h.voters
  rw [hvoters, total_set_sub, voterWeight_eq, voterWeight_eq, hvoters, find?_set,
    if_pos rfl]
  rfl

lemma Restaked.ballots (id : Nat) (side : Bool) : s'.ballots id side = s.ballots id side +
      ((s.propvote.find? (toLex (id, account))).map fun v =>
        if v.vote = side then s'.voterWeight account - s.voterWeight account else 0).getD 0 := by
  unfold SystemState.ballots
  rw [h.propvote, total_change s.propvote (toLex (id, account)) (f := fun k v =>
    if (ofLex k).1 = id ∧ v.vote = side then s.voterWeight (ofLex k).2 else 0)]
  · congr 3
    funext v
    by_cases hside : v.vote = side <;> simp [hside]
  intro q v hq
  by_cases hid : (ofLex q).1 = id ∧ v.vote = side
  · have hne : (ofLex q).2 ≠ account := by
      intro heq
      apply hq
      rw [← hid.1, ← heq]
      rfl
    rw [if_pos hid, if_pos hid, h.voterWeight_of_ne hne]
  · rw [if_neg hid, if_neg hid]

omit h

/-- A change of zero is not written, and no proposal is looked for when none has been counted:
both leave what the update would have left. -/
lemma find?_reweigh (hempty : s.gstate.proposalNum = 0 → ∀ id, s.proposals.find? id = none)
    (env : Env) (account : AccountName) (weight : Int64) (id : Nat) :
    (s.reweigh env account weight).proposals.find? id =
      (s.proposals.find? id).map (s.updateProposalVote env account weight id) := by
  unfold reweigh
  by_cases hweight : weight = 0
  · have hsame : s.updateProposalVote env account weight id = fun info => info := by
      funext info
      unfold updateProposalVote
      rw [hweight]
      split
      · rfl
      · split
        · rfl
        · exact addWeight_zero info _
    rw [if_pos hweight, hsame, map_id']
  rw [if_neg hweight]
  unfold updateProposalVotes
  by_cases hnum : s.gstate.proposalNum = 0
  · rw [if_pos hnum, hempty hnum]
    rfl
  · rw [if_neg hnum]
    exact find?_mapVal _ _ _

lemma votes_updateProposalVote {weight : Int64} {id : Nat} {info : ProposalInfo}
    (hopen : env.now < info.voteEndTime) (side : Bool) :
    (s.updateProposalVote env account weight id info).votes side = info.votes side +
      ((s.propvote.find? (toLex (id, account))).map fun v =>
        if v.vote = side then weight else 0).getD 0 := by
  unfold updateProposalVote
  rw [if_neg (not_le.mpr hopen)]
  cases s.propvote.find? (toLex (id, account)) with
  | none => exact (add_zero _).symm
  | some v => exact votes_addWeight info v.vote side weight

lemma voteEndTime_updateProposalVote (weight : Int64) (id : Nat) (info : ProposalInfo) :
    (s.updateProposalVote env account weight id info).voteEndTime = info.voteEndTime := by
  unfold updateProposalVote
  split
  · rfl
  · split
    · rfl
    · exact voteEndTime_addWeight info _ weight

lemma Tallied.restake {t : Time} (h : s.Tallied t) (ht : t ≤ env.now) {s₁ : SystemState Key}
    (hrestaked : s.Restaked s₁ account) :
    (s₁.reweigh env account (s₁.voterWeight account - s.voterWeight account)).Tallied env.now := by
  have hempty : s₁.gstate.proposalNum = 0 → ∀ id, s₁.proposals.find? id = none := by
    rw [hrestaked.gstate, hrestaked.proposals]
    exact h.empty
  have hfind := find?_reweigh hempty env account (s₁.voterWeight account - s.voterWeight account)
  rw [hrestaked.proposals] at hfind
  obtain ⟨proposals, heq⟩ :=
    s₁.reweigh_eq env account (s₁.voterWeight account - s.voterWeight account)
  rw [heq] at hfind ⊢
  constructor
  · rw [hrestaked.total, hrestaked.gstate, h.total]
  · rw [hrestaked.gstate]
    exact h.counted
  · intro hzero id
    rw [hrestaked.gstate] at hzero
    rw [hfind, h.empty hzero]
    rfl
  · intro id voter v hv
    rw [hrestaked.propvote] at hv
    obtain ⟨info, hinfo⟩ := h.voted id voter v hv
    exact ⟨_, by rw [hfind, hinfo]; rfl⟩
  intro id info' hinfo' hopen side
  rw [hfind] at hinfo'
  obtain ⟨info, hinfo, rfl⟩ := map_eq_some_iff.mp hinfo'
  rw [voteEndTime_updateProposalVote] at hopen
  refine Eq.trans ?_ (ballots_congr (s := s₁) rfl rfl id side).symm
  rw [hrestaked.ballots, votes_updateProposalVote hopen, hrestaked.propvote,
    h.tally id info hinfo (ht.trans_lt hopen)]

end Restake

section Vote
variable {voter : AccountName} {id : Nat} {t : Time} {row : ProposalVoteInfo}

lemma Tallied.amend (h : s.Tallied t) {info info' : ProposalInfo}
    (hinfo : s.proposals.find? id = some info) (hend : info'.voteEndTime = info.voteEndTime)
    (hvoters : s'.voters = s.voters) (hproposals : s'.proposals = s.proposals.set id info')
    (hgstate : s'.gstate = s.gstate)
    (hvoted : ∀ id' voter v, s'.propvote.find? (toLex (id', voter)) = some v →
      id' = id ∨ ∃ old, s.propvote.find? (toLex (id', voter)) = some old)
    (hown : ∀ side, info'.votes side = info.votes side + (s'.ballots id side - s.ballots id side))
    (hother : ∀ id' side, id' ≠ id → s'.ballots id' side = s.ballots id' side) : s'.Tallied t := by
  have hkept : ∀ pk, (∃ old, s.proposals.find? pk = some old) →
      ∃ new, s'.proposals.find? pk = some new := by
    rintro pk ⟨old, hold⟩
    rw [hproposals, find?_set]
    split
    · exact ⟨info', rfl⟩
    · exact ⟨old, hold⟩
  constructor
  · rw [hgstate, hvoters]
    exact h.total
  · rw [hgstate]
    exact h.counted
  · intro hzero
    rw [hgstate] at hzero
    rw [h.empty hzero id] at hinfo
    cases hinfo
  · intro id' voter' v hv
    apply hkept
    rcases hvoted id' voter' v hv with rfl | ⟨old, hold⟩
    · exact ⟨info, hinfo⟩
    · exact h.voted id' voter' old hold
  intro id' new hnew hopen side
  rw [hproposals, find?_set] at hnew
  by_cases heq : id' = id
  · subst heq
    rw [if_pos rfl] at hnew
    cases hnew
    rw [hend] at hopen
    rw [hown, h.tally id' info hinfo hopen, add_sub_cancel]
  · rw [if_neg heq] at hnew
    rw [hother id' side heq]
    exact h.tally id' new hnew hopen side

lemma ballots_recorded (hvoters : s'.voters = s.voters)
    (hpropvote : s'.propvote = s.propvote.set (toLex (id, voter)) row) (id' : Nat) (side : Bool) :
    s'.ballots id' side = s.ballots id' side +
      ((if id = id' ∧ row.vote = side then s.voterWeight voter else 0) -
        ((s.propvote.find? (toLex (id, voter))).map fun v =>
          if id = id' ∧ v.vote = side then s.voterWeight voter else 0).getD 0) := by
  unfold ballots voterWeight
  rw [hpropvote, hvoters, total_set_sub]
  rfl

lemma Tallied.recorded (h : s.Tallied t) {info info' : ProposalInfo}
    (hinfo : s.proposals.find? id = some info) (hend : info'.voteEndTime = info.voteEndTime)
    (hvotes : ∀ side, info'.votes side = info.votes side +
      ((if row.vote = side then s.voterWeight voter else 0) -
        ((s.propvote.find? (toLex (id, voter))).map fun v =>
          if v.vote = side then s.voterWeight voter else 0).getD 0)) :
    { s with
      propvote := s.propvote.set (toLex (id, voter)) row
      proposals := s.proposals.set id info' }.Tallied t := by
  refine h.amend hinfo hend rfl rfl rfl ?_ (fun side => ?_) (fun id' side hne => ?_)
  · intro id' voter' v hv
    rw [find?_set] at hv
    by_cases heq : toLex (id', voter') = toLex (id, voter)
    · exact .inl (Prod.mk.inj (toLex.injective heq)).1
    · rw [if_neg heq] at hv
      exact .inr ⟨v, hv⟩
  · rw [hvotes]
    congr 1
    symm
    refine sub_eq_of_eq_add' (Eq.trans (ballots_recorded (s := s) (by rfl) (by rfl) id side) ?_)
    simp
  · have hother : ∀ vote, ¬(id = id' ∧ vote = side) := fun _ hid => hne hid.1.symm
    refine Eq.trans (ballots_recorded (s := s) (by rfl) (by rfl) id' side) ?_
    cases s.propvote.find? (toLex (id, voter)) <;> simp [hother]

lemma Tallied.balloted (h : s.Tallied t) {yea : Bool} {info : ProposalInfo} {row : VoterInfo}
    (hrow : s.voters.find? voter = some row) (hinfo : s.proposals.find? id = some info)
    (hballot : Balloted s env voter id yea info s') : s'.Tallied t := by
  have hweight : stakeToProposalVotes (s.stakedOf env voter) = s.voterWeight voter := by
    unfold stakedOf voterWeight
    rw [hrow]
  cases hballot with
  | kept => exact h
  | turned voteInfo hvote hturn =>
    refine h.recorded hinfo (voteEndTime_turnVote info yea _) fun side => ?_
    rw [votes_turnVote, hvote, hweight, map_some, getD_some, hturn]
    cases yea <;> cases side <;> simp
  | cast hvote =>
    refine h.recorded hinfo (voteEndTime_addWeight info yea _) fun side => ?_
    rw [votes_addWeight, hvote, hweight]
    simp

end Vote

section Steps
variable {t : Time} {id : Nat}

lemma Tallied.proposed (h : s.Tallied t) {info : ProposalInfo}
    {transfers : List Transfer} (hid : ∀ pk old, s.proposals.find? pk = some old → pk < id)
    (hzero : ∀ side, info.votes side = 0) :
    { s with
      transfers := transfers
      proposals := s.proposals.set id info
      gstate.proposalNum := s.gstate.proposalNum + 1 }.Tallied t := by
  have hnone : ∀ voter, s.propvote.find? (toLex (id, voter)) = none := by
    intro voter
    cases hv : s.propvote.find? (toLex (id, voter)) with
    | none => rfl
    | some v =>
      obtain ⟨old, hold⟩ := h.voted id voter v hv
      exact absurd (hid id old hold) (lt_irrefl id)
  constructor
  · exact h.total
  · exact Int.le_add_one h.counted
  · intro hnum
    have hcounted := h.counted
    change s.gstate.proposalNum + 1 = 0 at hnum
    omega
  · intro id' voter v hv
    obtain ⟨old, hold⟩ := h.voted id' voter v hv
    refine ⟨old, ?_⟩
    rw [find?_set, if_neg (hid id' old hold).ne]
    exact hold
  intro id' new hnew hopen side
  rw [find?_set] at hnew
  by_cases heq : id' = id
  · -- nobody has voted on a proposal that was not there
    rw [if_pos heq] at hnew
    cases hnew
    rw [hzero, heq]
    symm
    refine total_eq_zero fun k v hk => if_neg ?_
    rintro ⟨hfst, -⟩
    have hkey : k = toLex (id, (ofLex k).2) := by
      rw [← hfst]
      rfl
    rw [hkey, hnone] at hk
    cases hk
  · rw [if_neg heq] at hnew
    exact h.tally id' new hnew hopen side

lemma Tallied.executed (h : s.Tallied t) {info info' : ProposalInfo}
    (hinfo : s.proposals.find? id = some info) (hend : info'.voteEndTime = info.voteEndTime)
    (hvotes : ∀ side, info'.votes side = info.votes side) :
    { s with proposals := s.proposals.set id info' }.Tallied t := by
  have hsame : ∀ id' side, ballots { s with proposals := s.proposals.set id info' } id' side =
      s.ballots id' side := ballots_congr rfl rfl
  refine h.amend hinfo hend rfl rfl rfl (fun id' voter v hv => .inr ⟨v, hv⟩) (fun side => ?_)
    (fun id' side _ => hsame id' side)
  rw [hsame, sub_self, add_zero, hvotes]

def VoterHasRow (s : SystemState Key) : SystemAction Key → Prop
  | .voteproposal voterName _ _ => (s.voters.find? voterName).isSome = true
  | _ => True

instance (s : SystemState Key) (action : SystemAction Key) : Decidable (s.VoterHasRow action) := by
  induction action using SystemAction.casesOn <;> dsimp only [VoterHasRow] <;> infer_instance

variable [DecidableEq Key] [Inhabited Key]

lemma Tallied.apply {action : SystemAction Key} (h : s.Tallied t) (ht : t ≤ env.now)
    (hvoter : s.VoterHasRow action) (happly : s.apply env action = .ok s') : s'.Tallied env.now := by
  cases action with
  | delegatebw =>
    obtain ⟨account, s₁, hrestaked, rfl⟩ := delegatebw_ok happly
    exact h.restake ht hrestaked
  | undelegatebw =>
    obtain ⟨account, s₁, hrestaked, rfl⟩ := undelegatebw_ok happly
    exact h.restake ht hrestaked
  | refund =>
    obtain ⟨refunds, transfers, rfl⟩ := refund_ok happly
    exact (h.mono ht).congr rfl rfl rfl rfl rfl
  | newproposal =>
    obtain ⟨id, transfers, hid, rfl⟩ := newproposal_ok happly
    refine (h.mono ht).proposed hid fun side => ?_
    cases side <;> rfl
  | voteproposal =>
    obtain ⟨row, hrow⟩ := isSome_iff_exists.mp hvoter
    obtain ⟨-, info, hinfo, -, hballot⟩ := voteproposal_ok happly
    exact (h.mono ht).balloted hrow hinfo hballot
  | execproposal =>
    obtain ⟨prop, s₁, hprop, hcarried, rfl⟩ := execproposal_ok happly
    obtain ⟨hvoters, hpropvote, hproposals, htotal, hnum⟩ := hcarried.keeps
    have h₁ := (h.mono ht).congr hvoters hpropvote hproposals htotal hnum
    rw [← hproposals] at hprop ⊢
    exact h₁.executed hprop rfl fun side => rfl
  | staketognode =>
    obtain ⟨-, row, transfers, -, rfl⟩ := staketognode_ok happly
    exact (h.mono ht).congr rfl rfl rfl rfl rfl
  | unstakegnode =>
    obtain ⟨-, gnd, -, -, -, rfl⟩ := unstakegnode_ok_iff.mp happly
    exact (h.mono ht).congr rfl rfl rfl rfl rfl
  | updategnode =>
    obtain ⟨gnd, row, -, -, rfl⟩ := updategnode_ok happly
    exact (h.mono ht).congr rfl rfl rfl rfl rfl
  | rmvproducer =>
    obtain ⟨prod, -, rfl⟩ := rmvproducer_ok happly
    exact (h.mono ht).congr rfl rfl rfl rfl rfl

lemma tallied_of_run (h : Run VoterHasRow s t) : s.Tallied t := by
  induction h with
  | start t => exact .start t
  | step _ htime hvoter happly ih => exact ih.apply htime hvoter happly

end Steps

section Sums
variable [DecidableEq Key] [Inhabited Key] {t : Time}

def stakeVotes (s : SystemState Key) (account : AccountName) : Int :=
  ((s.voters.find? account).map fun v => (stakeToProposalVotes v.staked).toInt).getD 0

omit [DecidableEq Key] [Inhabited Key] in
lemma wrapInt64_stakeVotes (account : AccountName) :
    wrapInt64 (s.stakeVotes account) = s.voterWeight account := by
  unfold stakeVotes voterWeight
  cases s.voters.find? account with
  | none => rfl
  | some v => exact wrapInt64_toInt _

/-- The total is the sum of the votes of all stakes, and the tallies of an open proposal are the
sums over the accounts whose recorded vote is on its side, with the stakes that they have now. -/
theorem tallies_follow_stakes (h : Run VoterHasRow s t) : Keeps s.gstate.totalProposalStake
        (s.voters.total fun _ v => (stakeToProposalVotes v.staked).toInt) ∧
      ∀ id info, s.proposals.find? id = some info → t < info.voteEndTime →
        Keeps info.totalYeas (s.propvote.total fun k v =>
          if (ofLex k).1 = id ∧ v.vote = true then s.stakeVotes (ofLex k).2 else 0) ∧
        Keeps info.totalNays (s.propvote.total fun k v =>
          if (ofLex k).1 = id ∧ v.vote = false then s.stakeVotes (ofLex k).2 else 0) := by
  have htallied := tallied_of_run h
  have hballots : ∀ id side, s.ballots id side = wrapInt64 (s.propvote.total fun k v =>
      if (ofLex k).1 = id ∧ v.vote = side then s.stakeVotes (ofLex k).2 else 0) := by
    intro id side
    rw [map_total]
    refine total_congr fun k v _ => ?_
    rw [apply_ite wrapInt64, wrapInt64_stakeVotes, map_zero]
  constructor
  · apply keeps_wrapInt64
    rw [map_total, htallied.total]
    exact total_congr fun _ _ _ => (wrapInt64_toInt _).symm
  intro id info hinfo hopen
  have htally := htallied.tally id info hinfo hopen
  exact ⟨keeps_wrapInt64 ((htally true).trans (hballots id true)),
    keeps_wrapInt64 ((htally false).trans (hballots id false))⟩

end Sums

section WithoutStake
variable {voterName : AccountName} {proposalId : Nat} {yea : Bool} {info : ProposalInfo}

lemma turnVote_zero (info : ProposalInfo) (vote : Bool) : turnVote info vote 0 = info := by
  unfold turnVote
  cases vote <;> simp

def SameTallies (s s' : SystemState Key) : Prop :=
  ∀ id side, (s'.proposals.find? id).map (·.votes side) = (s.proposals.find? id).map (·.votes side)

lemma exists_voteproposal (yea : Bool) (hauth : voterName ∈ env.auths)
    (hinfo : s.proposals.find? proposalId = some info) (hopen : env.now < info.voteEndTime) :
    ∃ s', s.voteproposal env voterName proposalId yea = .ok s' := by
  simp only [voteproposal, bind_ok_iff, requireAuth_ok_iff, getRow_ok_iff, eosioAssert_ok_iff]
  cases s.propvote.find? (toLex (proposalId, voterName)) with
  | none => exact ⟨_, (), hauth, info, hinfo, (), hopen, rfl⟩
  | some voteInfo =>
    by_cases hturn : yea ≠ voteInfo.vote
    · exact ⟨_, (), hauth, info, hinfo, (), hopen, if_pos hturn⟩
    · exact ⟨_, (), hauth, info, hinfo, (), hopen, if_neg hturn⟩

lemma sameTallies_set_iff {info' : ProposalInfo} (hinfo : s.proposals.find? proposalId = some info)
    {votes : FlatMap (Nat ×ₗ AccountName) ProposalVoteInfo} :
    s.SameTallies { s with propvote := votes, proposals := s.proposals.set proposalId info' } ↔
      ∀ side, info'.votes side = info.votes side := by
  constructor
  · intro h side
    have hside := h proposalId side
    rw [hinfo, find?_set, if_pos rfl] at hside
    exact some.inj hside
  intro h id side
  rw [find?_set]
  split
  case isTrue heq => rw [heq, hinfo, map_some, map_some, h]
  case isFalse => rfl

/-- A vote without a row fails or leaves all tallies as they are if and only if it fails before the
row is looked up, repeats the recorded choice, or what is read in place of the row is worth
nothing. -/
theorem votes_without_stake (hnone : s.voters.find? voterName = none) :
    (∀ s', s.voteproposal env voterName proposalId yea = .ok s' → s.SameTallies s') ↔
      voterName ∉ env.auths ∨
      (∀ info, s.proposals.find? proposalId = some info → info.voteEndTime ≤ env.now) ∨
      (s.propvote.find? (toLex (proposalId, voterName))).map (·.vote) = some yea ∨
      stakeToProposalVotes env.endStaked = 0 := by
  have hweight : stakeToProposalVotes (s.stakedOf env voterName) =
      stakeToProposalVotes env.endStaked := by
    unfold stakedOf
    rw [hnone]
  constructor
  · intro hsame
    by_contra hnot
    simp only [not_or, not_not, not_forall, not_le] at hnot
    obtain ⟨hauth, ⟨info, hinfo, hopen⟩, hrepeat, hzero⟩ := hnot
    obtain ⟨s', hs'⟩ := exists_voteproposal yea hauth hinfo hopen
    have hkept := hsame s' hs'
    obtain ⟨-, info', hinfo', -, hballot⟩ := voteproposal_ok hs'
    obtain rfl : info = info' := some.inj (hinfo.symm.trans hinfo')
    cases hballot with
    | kept voteInfo hvote hsame =>
      rw [hvote, map_some, hsame] at hrepeat
      exact hrepeat rfl
    | turned voteInfo hvote hturn =>
      have hside := (sameTallies_set_iff hinfo).mp hkept yea
      rw [votes_turnVote, hweight, if_pos rfl] at hside
      exact hzero (add_eq_left.mp hside)
    | cast hvote =>
      have hside := (sameTallies_set_iff hinfo).mp hkept yea
      rw [votes_addWeight, hweight, if_pos rfl] at hside
      exact hzero (add_eq_left.mp hside)
  intro hcases s' h
  obtain ⟨hauth, info, hinfo, hopen, hballot⟩ := voteproposal_ok h
  have hlast := (hcases.resolve_left (not_not.mpr hauth)).resolve_left fun hclosed =>
    (hclosed info hinfo).not_gt hopen
  cases hballot with
  | kept => exact fun _ _ => rfl
  | turned voteInfo hvote hturn =>
    have hzero := hlast.resolve_left fun hrepeat => by
      rw [hvote, map_some, hturn] at hrepeat
      exact Bool.not_ne_self yea (some.inj hrepeat)
    refine (sameTallies_set_iff hinfo).mpr fun side => ?_
    rw [hweight, hzero, turnVote_zero]
  | cast hvote =>
    have hzero := hlast.resolve_left fun hrepeat => by
      rw [hvote] at hrepeat
      cases hrepeat
    refine (sameTallies_set_iff hinfo).mpr fun side => ?_
    rw [hweight, hzero, addWeight_zero]

end WithoutStake

def alice : AccountName := Name.stringToName ['a', 'l', 'i', 'c', 'e']

def coreAsset (amount : Int64) : Asset := ⟨amount, Config.coreSymbol⟩

/-- An account stakes, becomes a governance node, proposes itself as a producer and votes for
it, and then stakes more. -/
def votedSteps : List (Env × SystemAction Nat) :=
  [(⟨100, [alice], 0, 0⟩, .delegatebw alice alice (coreAsset 1000000) (coreAsset 0) false),
    (⟨100, [alice], 0, 0⟩, .staketognode alice alice 7 [] 0),
    (⟨101, [alice], 0, 0⟩, .newproposal alice alice 0 1 0),
    (⟨102, [alice], 0, 0⟩, .voteproposal alice 0 true),
    (⟨103, [alice], 0, 0⟩, .delegatebw alice alice (coreAsset 0) (coreAsset 10000000) false)]

lemma votedSteps_replay : (replay VoterHasRow {} 100 votedSteps).map (fun last =>
      (last.2, (last.1.proposals.find? 0).map fun info => (info.totalYeas, info.voteEndTime))) =
    some (103, some (12, 7301)) := by
  decide +kernel

/-- The tally of the proposal has followed the later stake. -/
theorem tallies_follow_stakes_voted : ∃ (s : SystemState Nat) (info : ProposalInfo), Run VoterHasRow s 103 ∧
    s.proposals.find? 0 = some info ∧ info.totalYeas = 12 ∧
      Keeps info.totalYeas (s.propvote.total fun k v =>
        if (ofLex k).1 = 0 ∧ v.vote = true then s.stakeVotes (ofLex k).2 else 0) := by
  obtain ⟨⟨s, t⟩, hreplay, hlast⟩ := map_eq_some_iff.mp votedSteps_replay
  obtain ⟨rfl, hproposal⟩ := Prod.mk.inj hlast
  obtain ⟨info, hinfo, hvalues⟩ := map_eq_some_iff.mp hproposal
  obtain ⟨hyeas, hend⟩ := Prod.mk.inj hvalues
  have hrun := run_of_replay (.start 100) hreplay
  have hopen : 103 < info.voteEndTime := by rw [hend]; decide
  exact ⟨s, info, hrun, hinfo, hyeas, ((tallies_follow_stakes hrun).2 0 info hinfo hopen).1⟩

def oneProposal : SystemState Nat :=
  { proposals := FlatMap.empty.set 0 (newProposalInfo 0 alice alice 0 1 0) }

/-- An account without a row votes with the weight of what is read in its place. -/
theorem vote_without_row_counts : oneProposal.voters.find? alice = none ∧
      okAnd (oneProposal.voteproposal ⟨100, [alice], 0, 10000000⟩ alice 0 true)
        (fun s => (s.proposals.find? 0).map ProposalInfo.totalYeas = some 11) = true := by
  decide +kernel

/-- The vote of the account is taken, at the weight 0. -/
theorem votes_without_stake_alice : ∃ s' : SystemState Nat,
    oneProposal.voteproposal ⟨100, [alice], 0, 0⟩ alice 0 true = .ok s' ∧
      oneProposal.SameTallies s' := by
  have hok : okAnd (oneProposal.voteproposal ⟨100, [alice], 0, 0⟩ alice 0 true) (fun _ => true) =
      true := by
    decide +kernel
  obtain ⟨s', hs', -⟩ := exists_ok_of_okAnd hok
  exact ⟨s', hs', (votes_without_stake rfl).mpr (.inr (.inr (.inr (by decide)))) s' hs'⟩

end SystemState

end DimensionChain.System
