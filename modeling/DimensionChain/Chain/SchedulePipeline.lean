import DimensionChain.Chain.ProposedSchedule
import DimensionChain.Chain.HeaderChain

/-!
# Proposed, pending and active schedule across blocks

A schedule is stored by the actions of one block, becomes pending in a later one and active in one
after that. Its version is computed when it is stored and checked when it becomes pending.
`ChainHead` is the head state, the global row and the revision of the database.
-/

namespace DimensionChain.SchedulePipeline

open BlockHeaderState ProposedSchedule

structure ChainHead (Key Sig : Type) where
  head : BlockHeaderState Key Sig
  gpo : GlobalProperty Key := {}
  revision : Nat

/-- A block as the pipeline sees it: what `start_block` is given, the calls of the two host
functions that its actions make, the digests and the signature. The block is applied in an
undo session of its own. -/
structure BlockInput (Key Sig : Type) where
  slot : Nat
  confirmBlockCount : Nat
  readMode : DbReadMode
  status : BlockStatus
  session : status ≠ .irreversible
  calls : List (Call Key)
  actionDigests : List Digest
  trxDigests : List Digest
  signature : Sig

section Calls
variable {Key : Type} [DecidableEq Key]

/-- The row after the actions of a block, whatever their calls return. -/
def runCalls (x : Context Key) (gpo : GlobalProperty Key) (calls : List (Call Key)) :
    GlobalProperty Key :=
  calls.foldl (fun g c => (c.run x g).2) gpo

def FollowsBase (x : Context Key) (gpo : GlobalProperty Key) : Prop :=
  gpo.proposedScheduleBlockNum ≠ none → gpo.proposedSchedule.version = x.base.version + 1

lemma run_row (x : Context Key) (gpo : GlobalProperty Key) (c : Call Key) : (c.run x gpo).2 = gpo ∨
      (c.run x gpo).2.proposedSchedule.version = u32 (x.base.version + 1) := by
  cases c with
  | consensusType ct =>
    unfold Call.run setConsensusType
    dsimp only
    split
    · exact .inl rfl
    · exact .inr rfl
  | proposedProducers ps =>
    unfold Call.run setProposedProducers
    dsimp only
    split
    · exact .inl rfl
    split
    · exact .inl rfl
    · split
      · exact .inl rfl
      · exact .inr rfl

lemma runCalls_followsBase {x : Context Key} {gpo : GlobalProperty Key}
    (hsmall : x.base.version + 1 < 2 ^ 32) (h : FollowsBase x gpo) (calls : List (Call Key)) :
    FollowsBase x (runCalls x gpo calls) := by
  induction calls generalizing gpo with
  | nil => exact h
  | cons c rest ih =>
    apply ih
    show FollowsBase x (c.run x gpo).2
    rcases run_row x gpo c with hsame | hnew
    · rw [hsame]
      exact h
    · intro _
      rw [hnew, u32_eq hsmall]

end Calls

section Moves
variable {Key Sig : Type}

/-- How one block moves the schedules: nothing, the pending one becomes active, or the
stored one becomes pending. The flag says whether the pending schedule was promoted. -/
inductive Moves (s p : BlockHeaderState Key Sig) (gpo : GlobalProperty Key) :
    GlobalProperty Key → Bool → Prop
  | stay (hwait : s.pendingSchedule.producers ≠ [] → s.pendingScheduleLibNum ≠ 0)
      (hactive : p.activeSchedule = s.activeSchedule)
      (hpending : p.pendingSchedule = s.pendingSchedule) : Moves s p gpo gpo false
  | promote (hne : s.pendingSchedule.producers ≠ []) (hactive : p.activeSchedule = s.pendingSchedule)
      (hpending : p.pendingSchedule.producers = []) : Moves s p gpo gpo true
  | announce (hstored : gpo.proposedScheduleBlockNum ≠ none)
      (hempty : s.pendingSchedule.producers = []) (hactive : p.activeSchedule = s.activeSchedule)
      (hpending : p.pendingSchedule = gpo.proposedSchedule) : Moves s p gpo {} false

variable {C : Crypto Key Sig} {gpo gpo' : GlobalProperty Key} {s p : BlockHeaderState Key Sig}

lemma promoteProposed_moves {s p r : BlockHeaderState Key Sig}
    (hwait : s.pendingSchedule.producers ≠ [] → s.pendingScheduleLibNum ≠ 0)
    (hactive : p.activeSchedule = s.activeSchedule)
    (hpending : p.pendingSchedule = s.pendingSchedule)
    (h : p.promoteProposed C false gpo = .ok (r, gpo')) : Moves s r gpo gpo' false := by
  unfold promoteProposed at h
  cases hn : gpo.proposedScheduleBlockNum with
  | none =>
    simp only [hn, Except.ok.injEq, Prod.mk.injEq] at h
    obtain ⟨rfl, rfl⟩ := h
    exact .stay hwait hactive hpending
  | some n =>
    simp only [hn] at h
    split at h
    · obtain ⟨q, hq, hr⟩ := bind_ok_iff.mp h
      obtain ⟨rfl, rfl⟩ := hr
      obtain ⟨-, hempty, rfl⟩ := setNewProducers_ok_iff.mp hq
      rw [hpending] at hempty
      exact .announce (by simp [hn]) (List.length_eq_zero_iff.mp hempty) hactive rfl
    · obtain ⟨rfl, rfl⟩ := h
      exact .stay hwait hactive hpending

lemma promoteProposed_promoted {p : BlockHeaderState Key Sig} :
    p.promoteProposed C true gpo = .ok (p, gpo) := by
  unfold promoteProposed
  cases gpo.proposedScheduleBlockNum with
  | none => rfl
  | some n => simp

lemma generateNext_origin [Inhabited Sig] (s : BlockHeaderState Key Sig) (slot : Nat) :
    (∃ slot' prokey, s.generateNext C slot = .ok (s.template C slot' prokey)) ∨
      ∃ e, s.generateNext C slot = .error e ∧ e.kind ≠ .producerSchedule := by
  unfold generateNext
  by_cases h0 : slot = 0
  · cases hp : s.getScheduledProducer (u32 (s.header.timestamp + 1)) with
    | none =>
      simp [h0, hp, pure, Except.pure, bind, Except.bind]
    | some prokey =>
      refine .inl ⟨u32 (s.header.timestamp + 1), prokey, ?_⟩
      simp [h0, hp, pure, Except.pure, bind, Except.bind]
  by_cases hlt : s.header.timestamp < slot
  · cases hp : s.getScheduledProducer slot with
    | none | some prokey =>
      simp [h0, hlt, hp, eosAssert, pure, Except.pure, bind, Except.bind]
  · simp [h0, hlt, eosAssert, bind, Except.bind]

def promotesIn [Inhabited Sig] (C : Crypto Key Sig) (s : BlockHeaderState Key Sig)
    (slot confirmed : Nat) : Bool :=
  match s.generateNext C slot with
  | .ok g => (g.setConfirmed confirmed).promotesPending
  | .error _ => false

lemma template_promotion [Inhabited Sig] (C : Crypto Key Sig) (s : BlockHeaderState Key Sig)
    (slot confirmed : Nat) (prokey : ProducerKey Key) (gpo : GlobalProperty Key) :
    let g := (s.template C slot prokey).setConfirmed confirmed
    (g.promotesPending = true ∧ g.maybePromotePending.2 = true ∧
        Moves s g.maybePromotePending.1 gpo gpo true) ∨
      (g.promotesPending = false ∧ g.maybePromotePending = (g, false) ∧
        (s.pendingSchedule.producers ≠ [] → s.pendingScheduleLibNum ≠ 0)) := by
  intro g
  have hsame : g.pendingSchedule = s.pendingSchedule := rfl
  have hnum : g.pendingScheduleLibNum = s.pendingScheduleLibNum := rfl
  rcases maybePromotePending_cases g with ⟨hp, hstay⟩ | ⟨hp, htrue, hactive, hpending, -, -⟩
  · refine .inr ⟨hp, hstay, ?_⟩
    intro hne hzero
    simp [promotesPending, hsame, hnum, hzero, hne] at hp
  · refine .inl ⟨hp, htrue, ?_⟩
    have hlen : s.pendingSchedule.producers.length ≠ 0 := (of_decide_eq_true hp).1
    exact Moves.promote (s := s) (fun hnil => hlen (by rw [hnil]; rfl)) hactive hpending

lemma startBlock_moves [Inhabited Sig] {s : BlockHeaderState Key Sig}
    (hversion : s.pendingSchedule.producers.length = 0 → gpo.proposedScheduleBlockNum ≠ none →
      gpo.proposedSchedule.version = u32 (s.activeSchedule.version + 1))
    (slot confirm : Nat) (readMode : DbReadMode) (status : BlockStatus) :
    (∃ p gpo', s.startBlock C slot confirm readMode status gpo = .ok (p, gpo') ∧
        Moves s p gpo gpo' (promotesIn C s slot confirm)) ∨
      ∃ e, s.startBlock C slot confirm readMode status gpo = .error e ∧
        e.kind ≠ .producerSchedule := by
  unfold startBlock promotesIn
  rcases generateNext_origin (C := C) s slot with ⟨slot', prokey, hg⟩ | ⟨e, he, hk⟩
  · refine .inl ?_
    rw [hg]
    simp only [bind, Except.bind]
    rcases template_promotion C s slot' confirm prokey gpo with ⟨hp, htrue, hmoves⟩ |
      ⟨hp, hstay, hwait⟩
    · rw [htrue, hp, promoteProposed_promoted]
      refine ⟨_, _, ?_, hmoves⟩
      split <;> rfl
    rw [hstay, hp]
    split
    · obtain ⟨p, gpo', hrun, -⟩ :
          ∃ p gpo', ((s.template C slot' prokey).setConfirmed confirm).promoteProposed C false
            gpo = .ok (p, gpo') ∧ _ :=
        promoteProposed_cases fun hempty _ hn => hversion hempty hn
      exact ⟨p, gpo', hrun, promoteProposed_moves hwait (p := (s.template C slot' prokey).setConfirmed confirm)
        rfl rfl hrun⟩
    · exact ⟨_, _, rfl, .stay hwait rfl rfl⟩
  · refine .inr ⟨e, ?_, hk⟩
    rw [he]
    rfl

lemma startBlock_blockNum [Inhabited Sig]
    {slot confirm : Nat} {readMode : DbReadMode} {status : BlockStatus}
    (h : s.startBlock C slot confirm readMode status gpo = .ok (p, gpo')) :
    p.blockNum = u32 (s.blockNum + 1) := by
  obtain ⟨g, hg, h⟩ := bind_ok_iff.mp h
  rcases generateNext_origin (C := C) s slot with ⟨slot', prokey, hg'⟩ | ⟨e, he, -⟩
  · rw [hg] at hg'
    cases hg'
    have hnum := (maybePromotePending_numbers ((s.template C slot' prokey).setConfirmed confirm)).1
    simp only at h hnum
    split at h
    · rw [(promoteProposed_keeps h).1, hnum]
      rfl
    · cases h
      exact hnum
  · rw [hg] at he
    cases he

/-- What holds of the three schedules after every block but the genesis: the pending one
follows the active one, the stored one follows the base, and there have been more blocks than
versions, so the 32-bit version cannot wrap before the block number does. -/
structure Disciplined (x : Context Key) (gpo : GlobalProperty Key) (revision : Nat) : Prop where
  active_ne : x.activeSchedule.producers ≠ []
  pending_next : x.pendingSchedule.producers ≠ [] →
    x.pendingSchedule.version = x.activeSchedule.version + 1
  proposed : FollowsBase x gpo
  small : x.base.version + 2 ≤ revision

lemma base_context (n : Nat) (p : BlockHeaderState Key Sig) :
    (context n p).base =
      if p.pendingSchedule.producers.length = 0 then p.activeSchedule else p.pendingSchedule := rfl

lemma Disciplined.moves {promoted : Bool} {n revision : Nat}
    (hd : Disciplined (context n s) gpo revision)
    (hm : Moves s p gpo gpo' promoted) :
    Disciplined (context n p) gpo' (revision + 1) ∧
      (promoted = false → p.activeSchedule = s.activeSchedule) ∧
      (promoted = true → p.activeSchedule = s.pendingSchedule ∧
        p.activeSchedule.version = s.activeSchedule.version + 1) := by
  obtain ⟨hne, hnext, hprop, hsmall⟩ := hd
  simp only [FollowsBase, base_context] at hprop hsmall
  cases hm with
  | stay hwait hactive hpending =>
    refine ⟨⟨?_, ?_, ?_, ?_⟩, fun _ => hactive, nofun⟩
    · simpa [context, hactive] using hne
    · simpa [context, hactive, hpending] using hnext
    · simpa [FollowsBase, base_context, hactive, hpending] using hprop
    · rw [base_context, hactive, hpending]
      omega
  | promote hpne hactive hpending =>
    have hlen : s.pendingSchedule.producers.length ≠ 0 := by simpa using hpne
    rw [if_neg hlen] at hprop hsmall
    have hstep := hnext hpne
    refine ⟨⟨?_, ?_, ?_, ?_⟩, nofun, fun _ => ⟨hactive, ?_⟩⟩
    · simpa [context, hactive] using hpne
    · intro hp
      exact absurd hpending hp
    · simpa [FollowsBase, base_context, hactive, hpending] using hprop
    · simp only [base_context, hpending, hactive, List.length_nil, if_true]
      omega
    · rw [hactive]
      exact hstep
  | announce hstored hempty hactive hpending =>
    have hver := hprop hstored
    simp only [hempty, List.length_nil, if_true] at hver hsmall
    refine ⟨⟨?_, ?_, ?_, ?_⟩, fun _ => hactive, nofun⟩
    · simpa [context, hactive] using hne
    · intro _
      simpa [context, hactive, hpending] using hver
    · exact fun h => absurd rfl h
    · simp only [base_context, hactive, hpending]
      split <;> omega

lemma Disciplined.calls [DecidableEq Key] {x : Context Key} {revision : Nat}
    (hd : Disciplined x gpo revision) (hrev : revision ≤ 2 ^ 32) (calls : List (Call Key)) :
    Disciplined x (runCalls x gpo calls) revision := by
  have hsmall := hd.small
  exact ⟨hd.active_ne, hd.pending_next,
    runCalls_followsBase (by omega) hd.proposed calls, hd.small⟩

end Moves

variable {Key Sig : Type} [Inhabited Key] [Inhabited Sig]

def genesis (C : Crypto Key Sig) (initialTimestamp : Nat) (chainId : Digest) (initialKey : Key) :
    ChainHead Key Sig where
  head := genesisHeaderState C initialTimestamp chainId (initialSchedule initialKey)
  revision := 1

def ChainHead.context (s : ChainHead Key Sig) : Context Key :=
  ProposedSchedule.context s.head.blockNum s.head

variable [DecidableEq Key] {b : BlockInput Key Sig} {s t : ChainHead Key Sig}

def applyBlock (C : Crypto Key Sig) (s : ChainHead Key Sig) (b : BlockInput Key Sig) :
    Result (ChainHead Key Sig) := do
  eosAssert (s.revision = s.head.blockNum) .database "db revision is not on par with head block"
  let (p, gpo) ← s.head.startBlock C b.slot b.confirmBlockCount b.readMode b.status s.gpo
  let gpo := runCalls (context s.head.blockNum p) gpo b.calls
  pure ⟨(p.finalizeBlock C b.actionDigests b.trxDigests).signBlock b.signature, gpo, s.revision + 1⟩

def Step (C : Crypto Key Sig) (s t : ChainHead Key Sig) : Prop :=
  ∃ b, applyBlock C s b = .ok t

omit [Inhabited Key] in
lemma applyBlock_cases {C : Crypto Key Sig} (h : applyBlock C s b = .ok t) :
    s.revision = s.head.blockNum ∧
      ∃ p gpo, s.head.startBlock C b.slot b.confirmBlockCount b.readMode b.status s.gpo =
          .ok (p, gpo) ∧
        t.head.activeSchedule = p.activeSchedule ∧ t.head.pendingSchedule = p.pendingSchedule ∧
        t.head.blockNum = p.blockNum ∧
        t.gpo = runCalls (context s.head.blockNum p) gpo b.calls ∧
        t.revision = s.revision + 1 := by
  obtain ⟨u, hu, h⟩ := bind_ok_iff.mp h
  obtain ⟨⟨p, gpo⟩, hp, h⟩ := bind_ok_iff.mp h
  simp only [pure, Except.pure, Except.ok.injEq] at h
  subst h
  exact ⟨eosAssert_ok_iff.mp hu, p, gpo, hp, rfl, rfl, rfl, rfl, rfl⟩

omit [Inhabited Key] [Inhabited Sig] [DecidableEq Key] in
lemma Disciplined.version {s : ChainHead Key Sig}
    (hd : Disciplined s.context s.gpo s.revision) (hrev : s.revision ≤ 2 ^ 32)
    (hempty : s.head.pendingSchedule.producers.length = 0)
    (hstored : s.gpo.proposedScheduleBlockNum ≠ none) :
    s.gpo.proposedSchedule.version = u32 (s.head.activeSchedule.version + 1) := by
  have hprop := hd.proposed hstored
  have hsmall := hd.small
  have hbase : s.context.base = s.head.activeSchedule := if_pos hempty
  rw [hbase] at hprop hsmall
  rw [u32_eq (by omega), hprop]

section Run
variable {C : Crypto Key Sig} {initialTimestamp : Nat} {chainId : Digest} {initialKey : Key}

omit [DecidableEq Key] in
lemma genesis_moves {p : BlockHeaderState Key Sig} {gpo : GlobalProperty Key} {promoted : Bool}
    (hm : Moves (genesis C initialTimestamp chainId initialKey).head p {} gpo promoted) (n : Nat) :
    promoted = true ∧ p.activeSchedule = initialSchedule initialKey ∧
      Disciplined (context n p) gpo 2 := by
  cases hm with
  | stay hwait _ _ =>
    exact absurd rfl (hwait (by simp [genesis, genesisHeaderState, initialSchedule]))
  | promote _ hactive hpending =>
    have hactive' : p.activeSchedule = initialSchedule initialKey := hactive
    refine ⟨rfl, hactive', ?_, ?_, ?_, ?_⟩
    · simp [context, hactive', initialSchedule]
    · intro hp
      exact absurd hpending hp
    · exact fun h => absurd rfl h
    · simp [base_context, hpending, hactive', initialSchedule]
  | announce hstored _ _ _ => exact absurd rfl hstored

/-- A state of the run: the genesis, or disciplined within the range of block numbers. -/
def Good (C : Crypto Key Sig) (initialTimestamp : Nat) (chainId : Digest) (initialKey : Key)
    (s : ChainHead Key Sig) : Prop :=
  s = genesis C initialTimestamp chainId initialKey ∨
    (Disciplined s.context s.gpo s.revision ∧ s.revision ≤ 2 ^ 32 ∧ s.head.blockNum < 2 ^ 32)

variable (hs : Good C initialTimestamp chainId initialKey s)
include hs

omit [DecidableEq Key] in
lemma Good.startBlock (slot confirm : Nat) (readMode : DbReadMode) (status : BlockStatus) :
    (∃ p gpo', s.head.startBlock C slot confirm readMode status s.gpo = .ok (p, gpo') ∧
        Moves s.head p s.gpo gpo' (promotesIn C s.head slot confirm)) ∨
      ∃ e, s.head.startBlock C slot confirm readMode status s.gpo = .error e ∧
        e.kind ≠ .producerSchedule := by
  apply startBlock_moves
  intro hempty hstored
  rcases hs with rfl | ⟨hd, hrev, -⟩
  · exact absurd rfl hstored
  · exact hd.version hrev hempty hstored

omit hs in
/-- A whole block keeps the state good; a promotion adds one to the version, but for the
one in the first block. -/
lemma Good.applyBlock
    (hs : Good C initialTimestamp chainId initialKey s) (h : applyBlock C s b = .ok t) :
    Good C initialTimestamp chainId initialKey t ∧
      (promotesIn C s.head b.slot b.confirmBlockCount = false →
        t.head.activeSchedule = s.head.activeSchedule) ∧
      (promotesIn C s.head b.slot b.confirmBlockCount = true →
        t.head.activeSchedule = s.head.pendingSchedule ∧
        (s ≠ genesis C initialTimestamp chainId initialKey →
          t.head.activeSchedule.version = s.head.activeSchedule.version + 1)) := by
  obtain ⟨hrev, p, gpo, hstart, hactive, hpending, hnum, hgpo, hrev'⟩ := applyBlock_cases h
  have hnumt : t.head.blockNum < 2 ^ 32 := by
    rw [hnum, startBlock_blockNum hstart]
    exact u32_lt _
  have hmoves : Moves s.head p s.gpo gpo (promotesIn C s.head b.slot b.confirmBlockCount) := by
    rcases hs.startBlock b.slot b.confirmBlockCount b.readMode b.status with
      ⟨p', gpo', hstart', hm⟩ | ⟨e, he, -⟩
    · rw [hstart] at hstart'
      cases hstart'
      exact hm
    · rw [hstart] at he
      cases he
  -- the context of the calls and that of the resulting state differ in the number only
  have hgood : ∀ r, Disciplined (ProposedSchedule.context s.head.blockNum p) gpo r → r ≤ 2 ^ 32 →
      t.revision = r → Good C initialTimestamp chainId initialKey t := by
    intro r hd hr hrt
    have hd' := hd.calls hr b.calls
    rw [← hgpo] at hd'
    refine .inr ⟨⟨?_, ?_, ?_, ?_⟩, hrt ▸ hr, hnumt⟩
    · simpa [ChainHead.context, ProposedSchedule.context, hactive] using hd'.active_ne
    · simpa [ChainHead.context, ProposedSchedule.context, hactive, hpending] using hd'.pending_next
    · simpa [ChainHead.context, FollowsBase, base_context, hactive, hpending] using hd'.proposed
    · simpa [ChainHead.context, base_context, hactive, hpending, hrt] using hd'.small
  rw [hactive]
  rcases hs with rfl | ⟨hd, hle, hlt⟩
  · obtain ⟨htrue, hinit, hd⟩ := genesis_moves hmoves
      (genesis C initialTimestamp chainId initialKey).head.blockNum
    rw [htrue]
    exact ⟨hgood 2 hd (by decide) hrev', nofun, fun _ => ⟨hinit, fun h => absurd rfl h⟩⟩
  obtain ⟨hd', hstay, hprom⟩ := hd.moves hmoves
  refine ⟨hgood (s.revision + 1) hd' (by omega) hrev', hstay, ?_⟩
  intro htrue
  exact ⟨(hprom htrue).1, fun _ => (hprom htrue).2⟩

omit hs in
lemma good_of_reach
    (hreach : Relation.ReflTransGen (Step C) (genesis C initialTimestamp chainId initialKey) s) :
    Good C initialTimestamp chainId initialKey s := by
  induction hreach with
  | refl => exact .inl rfl
  | tail _ hstep ih =>
    obtain ⟨b, hb⟩ := hstep
    exact (ih.applyBlock hb).1

omit [DecidableEq Key] in
lemma Good.followsBase : FollowsBase s.context s.gpo := by
  rcases hs with rfl | ⟨hd, -, -⟩
  · exact fun h => absurd rfl h
  · exact hd.proposed

omit [DecidableEq Key] in
lemma Good.active_ne : s.head.activeSchedule.producers ≠ [] := by
  rcases hs with rfl | ⟨hd, -, -⟩
  · simp [genesis, genesisHeaderState, initialSchedule]
  · exact hd.active_ne

omit hs

/-- In every state that blocks reach from the genesis, a stored schedule has the version after
the pending one, or after the active one when none is pending, so `set_new_producers` never
throws in `start_block`. The active schedule is never empty, and it changes only by promotion
of the pending one, which adds one to its version; only the promotion in the first block, where
the genesis schedule is both pending and active, leaves the version as it is. -/
theorem schedule_versions_follow {s : ChainHead Key Sig}
    (hreach : Relation.ReflTransGen (Step C) (genesis C initialTimestamp chainId initialKey) s) :
    (s.gpo.proposedScheduleBlockNum ≠ none → s.gpo.proposedSchedule.version =
          (if s.head.pendingSchedule.producers.length = 0 then s.head.activeSchedule
            else s.head.pendingSchedule).version + 1) ∧ (∀ slot confirm readMode status e,
        s.head.startBlock C slot confirm readMode status s.gpo = .error e →
          e.kind ≠ .producerSchedule) ∧ s.head.activeSchedule.producers ≠ [] ∧
      ∀ b t, applyBlock C s b = .ok t → (promotesIn C s.head b.slot b.confirmBlockCount = false →
          t.head.activeSchedule = s.head.activeSchedule) ∧
        (promotesIn C s.head b.slot b.confirmBlockCount = true →
          t.head.activeSchedule = s.head.pendingSchedule ∧
          (s ≠ genesis C initialTimestamp chainId initialKey →
            t.head.activeSchedule.version = s.head.activeSchedule.version + 1)) := by
  have hs := good_of_reach hreach
  refine ⟨hs.followsBase, ?_, hs.active_ne, fun b t h => (hs.applyBlock h).2⟩
  intro slot confirm readMode status e he
  rcases hs.startBlock slot confirm readMode status with ⟨p, gpo', hok, -⟩ | ⟨e', he', hk⟩
  · rw [he] at hok
    cases hok
  · rw [he] at he'
    cases he'
    exact hk

end Run

def firstBlock : BlockInput Nat Nat where
  slot := 2
  confirmBlockCount := 0
  readMode := .speculative
  status := .complete
  session := by decide
  calls := [.consensusType 1]
  actionDigests := []
  trxDigests := []
  signature := 0

def plainStart : ChainHead Nat Nat := genesis plainCrypto 1 default 7

/-- The first block promotes the genesis schedule over itself: a promotion that leaves the
version at zero. -/
theorem first_promotion_keeps_version : ∃ t, applyBlock plainCrypto plainStart firstBlock = .ok t ∧
      promotesIn plainCrypto plainStart.head firstBlock.slot firstBlock.confirmBlockCount = true ∧
      t.head.activeSchedule.version ≠ plainStart.head.activeSchedule.version + 1 := by
  obtain ⟨t, ht, hp⟩ := exists_ok_of_okAnd
    (x := applyBlock plainCrypto plainStart firstBlock)
    (p := fun t => promotesIn plainCrypto plainStart.head firstBlock.slot
        firstBlock.confirmBlockCount = true ∧
      t.head.activeSchedule.version ≠ plainStart.head.activeSchedule.version + 1)
    (by decide +kernel)
  exact ⟨t, ht, of_decide_eq_true hp⟩

theorem schedule_versions_follow_first : ∃ t, applyBlock plainCrypto plainStart firstBlock = .ok t ∧
      t.gpo.proposedScheduleBlockNum ≠ none ∧
      t.gpo.proposedSchedule.version = t.head.activeSchedule.version + 1 := by
  obtain ⟨t, ht, hp⟩ := exists_ok_of_okAnd
    (x := applyBlock plainCrypto plainStart firstBlock)
    (p := fun t => t.gpo.proposedScheduleBlockNum ≠ none ∧
      t.head.pendingSchedule.producers.length = 0)
    (by decide +kernel)
  obtain ⟨hstored, hempty⟩ := of_decide_eq_true hp
  have h := (schedule_versions_follow (.single ⟨firstBlock, ht⟩)).1 hstored
  rw [if_pos hempty] at h
  exact ⟨t, ht, hstored, h⟩

end DimensionChain.SchedulePipeline
