import DimensionChain.Base.Steps
import DimensionChain.Chain.HeaderChain
import DimensionChain.Producer.Plugin

/-!
# Local producers do not confirm a block twice

The watermark of a producer is never below a block that it has produced, as long as `on_block`
does not lower it: when a promotion brings a local producer in, its watermark becomes the number
of the current block. On another fork a lower number can take it back, and the producer then
confirms blocks again.
-/

namespace DimensionChain.ProducerState
open Option ProducerState

variable {Key Sig : Type} [DecidableEq Key] [Inhabited Sig]
  {C : Crypto Key Sig} {config : ProducerConfig Key} {s t : ProducerState Key Sig}
  {b : BlockHeaderState Key Sig}

def confirmedRange (b : BlockHeaderState Key Sig) : Set Nat :=
  Set.Icc (b.blockNum - b.header.confirmed) b.blockNum

variable (C config) in
def Produces (s : ProducerState Key Sig) (e : ProducerEvent Key Sig)
    (b : BlockHeaderState Key Sig) : Prop :=
  ∃ input, e = .produceBlock input ∧ s.produced C config input = some b

variable (C config) in
/-- The producers whose watermark `on_block` sets have none that is higher. -/
def Raises (s : ProducerState Key Sig) (bsp : BlockHeaderState Key Sig) : Prop :=
  s.regards config bsp = true → ∀ p ∈ newProducers C config bsp,
    ∀ watermark ∈ s.producerWatermarks.find? p, watermark ≤ bsp.blockNum

variable (C config) in
def KeepsWatermarks (s : ProducerState Key Sig) : ProducerEvent Key Sig → Prop
  | .accepted bsp => s.Raises C config bsp
  | .headChanged _ => True
  -- a block started for slot 0 would get the slot after that of the head
  | .startBlock input => s.pendingSlot input ≠ 0
  | .produceBlock input => ∀ b ∈ s.produced C config input, s.Raises C config b

/-- A block that was produced: the watermark of its producer covers it, and a block that the
same producer is building does not confirm it. -/
structure Covers (s : ProducerState Key Sig) (b : BlockHeaderState Key Sig) : Prop where
  watermark : ∃ w, s.producerWatermarks.find? b.header.producer = some w ∧ b.blockNum ≤ w
  pending : s.pendingBlockMode = .producing → ∀ p ∈ s.pending,
    p.header.producer = b.header.producer → b.blockNum < p.blockNum - p.header.confirmed

omit [DecidableEq Key] [Inhabited Sig] in
lemma find?_setWatermarks (producers : List AccountName) (blockNum : Nat) (q : AccountName) :
    (s.setWatermarks producers blockNum).producerWatermarks.find? q =
      if q ∈ producers then some blockNum else s.producerWatermarks.find? q := by
  unfold setWatermarks
  generalize s.producerWatermarks = m
  induction producers generalizing m with
  | nil => simp
  | cons p producers ih =>
    rw [List.foldl_cons, ih, FlatMap.find?_set]
    by_cases hq : q ∈ producers
    · simp [hq]
    · by_cases hqp : q = p
      · simp [hqp]
      · simp [hq, hqp]

omit [DecidableEq Key] [Inhabited Sig] in
lemma Covers.setWatermarks (h : s.Covers b) {producers : List AccountName} {blockNum : Nat}
    (hle : ∀ w, s.producerWatermarks.find? b.header.producer = some w →
      b.header.producer ∈ producers → b.blockNum ≤ w → b.blockNum ≤ blockNum) :
    (s.setWatermarks producers blockNum).Covers b := by
  obtain ⟨w, hw, hbw⟩ := h.watermark
  refine ⟨?_, h.pending⟩
  rw [find?_setWatermarks]
  split
  · rename_i hmem
    exact ⟨blockNum, rfl, hle w hw hmem hbw⟩
  · exact ⟨w, hw, hbw⟩

variable (C config) in
lemma onBlock_pending {bsp : BlockHeaderState Key Sig} :
    (s.onBlock C config bsp).pending = s.pending := by
  unfold onBlock setWatermarks confirmBlock
  split
  · split <;> rfl
  · rfl

lemma Covers.onBlock {b bsp : BlockHeaderState Key Sig} (h : s.Covers b)
    (hraises : s.Raises C config bsp) : (s.onBlock C config bsp).Covers b := by
  unfold ProducerState.onBlock
  split
  case isFalse => exact h
  case isTrue hregards =>
    have hconfirm : (s.confirmBlock config bsp).producerWatermarks = s.producerWatermarks ∧
        (s.confirmBlock config bsp).Covers b := by
      unfold confirmBlock
      split
      · exact ⟨rfl, h.watermark, h.pending⟩
      · exact ⟨rfl, h⟩
    apply hconfirm.2.setWatermarks
    intro w hw hmem hbw
    rw [hconfirm.1] at hw
    exact hbw.trans (hraises hregards _ hmem w hw)

section Start

variable {input : StartInput Key}

omit [DecidableEq Key] in
lemma startPending_some {confirm : Nat} {p : BlockHeaderState Key Sig}
    (hslot : s.pendingSlot input ≠ 0) (h : s.startPending C input confirm = some p)
    {scheduled : ProducerKey Key}
    (hscheduled : s.head.getScheduledProducer (s.pendingSlot input) = some scheduled) :
    p.header.producer = scheduled.producerName ∧ p.blockNum = u32 (s.head.blockNum + 1) ∧
      p.header.confirmed = confirm := by
  unfold startPending at h
  split at h
  case isTrue => cases h
  case isFalse =>
    split at h
    case h_1 => cases h
    case h_2 q gpo hstart =>
      cases h
      unfold BlockHeaderState.startBlock at hstart
      obtain ⟨g, hgen, hstart⟩ := bind_ok_iff.mp hstart
      obtain ⟨-, prokey, hprokey, rfl⟩ := BlockHeaderState.generateNext_cases hslot hgen
      cases hscheduled.symm.trans hprokey
      have hheader := BlockHeaderState.maybePromotePending_header
        ((s.head.template C (s.pendingSlot input) scheduled).setConfirmed confirm)
      have hnum := (BlockHeaderState.maybePromotePending_numbers
        ((s.head.template C (s.pendingSlot input) scheduled).setConfirmed confirm)).1
      rcases hq : ((s.head.template C (s.pendingSlot input) scheduled).setConfirmed
        confirm).maybePromotePending with ⟨q, promoted⟩
      rw [hq] at hheader hnum
      simp only [hq] at hstart
      split at hstart
      · obtain ⟨hkeep, hproducer, hconfirmed⟩ := BlockHeaderState.promoteProposed_keeps hstart
        rw [hkeep, hproducer, hconfirmed, hheader, hnum]
        exact ⟨rfl, rfl, rfl⟩
      · cases hstart
        rw [hheader, hnum]
        exact ⟨rfl, rfl, rfl⟩

omit [DecidableEq Key] [Inhabited Sig] in
lemma watermark_lt {producer : AccountName} {w : Nat}
    (hw : s.producerWatermarks.find? producer = some w) (hlow : ¬ w ≥ u32 (s.head.blockNum + 1)) :
    w < u32 (s.head.blockNum + 1) - s.blocksToConfirm producer := by
  unfold blocksToConfirm
  rw [hw]
  dsimp only
  -- a watermark below the next number leaves no room for that number to wrap
  unfold sub32
  unfold u32 at hlow ⊢
  split <;> omega

lemma Covers.startBlock (h : s.Covers b) (hslot : s.pendingSlot input ≠ 0)
    (hstart : s.startBlock C config input = .ok t) : t.Covers b := by
  unfold ProducerState.startBlock at hstart
  split at hstart
  case isTrue =>
    cases hstart
    exact h
  case isFalse =>
    split at hstart
    case h_1 => cases hstart
    case h_2 scheduled hscheduled =>
      split at hstart
      case h_1 =>
        split at hstart
        · cases hstart
          exact ⟨h.watermark, nofun⟩
        · cases hstart
          exact ⟨h.watermark, nofun⟩
      case h_2 hmode =>
        dsimp only at hstart
        split at hstart
        · cases hstart
          exact ⟨h.watermark, nofun⟩
        cases hstart
        refine ⟨h.watermark, ?_⟩
        intro _ p hp hproducer
        obtain ⟨w, hw, hbw⟩ := h.watermark
        obtain ⟨hname, hnum, hconfirmed⟩ := startPending_some hslot hp hscheduled
        rw [← hproducer, hname] at hw
        have hlow : ¬ w ≥ u32 (s.head.blockNum + 1) := by
          intro hge
          unfold startMode at hmode
          rw [hw] at hmode
          simp [hge] at hmode
        have hlt := watermark_lt hw hlow
        omega

end Start

section Produce

variable {input : ProduceInput Sig}

omit [Inhabited Sig] in
lemma produced_some (h : s.produced C config input = some b) :
    s.pendingBlockMode = .producing ∧ ∃ p ∈ s.pending, b.blockNum = p.blockNum ∧
      b.header.producer = p.header.producer ∧ b.header.confirmed = p.header.confirmed := by
  unfold produced at h
  split at h
  case h_1 p hmode hpending =>
    split at h
    · cases h
      exact ⟨hmode, p, hpending, rfl, rfl, rfl⟩
    · cases h
  case h_2 => cases h

omit [Inhabited Sig] in
lemma Covers.produced {b b' : BlockHeaderState Key Sig} (h : s.Covers b)
    (hb' : s.produced C config input = some b') (hsame : b'.header.producer = b.header.producer) :
    b.blockNum < b'.blockNum - b'.header.confirmed := by
  obtain ⟨hmode, p, hp, hnum, hproducer, hconfirmed⟩ := produced_some hb'
  rw [hnum, hconfirmed]
  exact h.pending hmode p hp (hproducer.symm.trans hsame)

lemma Covers.produceBlock (h : s.Covers b)
    (hraises : ∀ b' ∈ s.produced C config input, s.Raises C config b') :
    (s.produceBlock C config input).Covers b := by
  unfold ProducerState.produceBlock
  split
  case h_1 => exact ⟨h.watermark, fun _ _ hp => nomatch hp⟩
  case h_2 b' hb' =>
    have hcommit : ({ s with head := b', pending := none } : ProducerState Key Sig).Covers b :=
      ⟨h.watermark, fun _ _ hp => nomatch hp⟩
    apply (hcommit.onBlock (hraises b' hb')).setWatermarks
    intro _ _ hmem _
    have hlt := h.produced hb' (List.mem_singleton.mp hmem).symm
    omega

lemma covers_produced
    (h : s.produced C config input = some b) : (s.produceBlock C config input).Covers b := by
  unfold produceBlock
  rw [h]
  refine ⟨⟨b.blockNum, ?_, Nat.le_refl _⟩, ?_⟩
  · rw [find?_setWatermarks, if_pos (List.mem_singleton_self _)]
  intro _ p hp
  have hnone : p ∈ ({ s with head := b, pending := none } : ProducerState Key Sig).pending :=
    onBlock_pending C config ▸ hp
  cases hnone

end Produce

variable (C config) in
def KeepingStep (s : ProducerState Key Sig) (e : ProducerEvent Key Sig)
    (t : ProducerState Key Sig) : Prop :=
  s.KeepsWatermarks C config e ∧ s.step C config e = .ok t

lemma Covers.step (h : s.Covers b)
    {e : ProducerEvent Key Sig} (hstep : KeepingStep C config s e t) : t.Covers b := by
  obtain ⟨hkeeps, hstep⟩ := hstep
  cases e with
  | accepted bsp =>
    cases hstep
    exact h.onBlock hkeeps
  | headChanged head =>
    cases hstep
    exact ⟨h.watermark, fun _ _ hp => nomatch hp⟩
  | startBlock input => exact h.startBlock hkeeps hstep
  | produceBlock input =>
    cases hstep
    exact h.produceBlock hkeeps

variable {es : List (ProducerState Key Sig × ProducerEvent Key Sig × ProducerState Key Sig)}

variable (C config es) in
def RangesDisjoint : Prop :=
  es.Pairwise fun e e' => ∀ b b', Produces C config e.1 e.2.1 b →
    Produces C config e'.1 e'.2.1 b' → b.header.producer = b'.header.producer →
      Disjoint (confirmedRange b) (confirmedRange b')

/-- In a run in which `on_block` lowers no watermark, a producer confirms no block twice. -/
theorem produced_ranges_disjoint (h : Steps (KeepingStep C config) s es t) :
    RangesDisjoint C config es := by
  refine (Steps.pairwise (P := fun e s => ∀ b, Produces C config e.1 e.2.1 b → s.Covers b)
    ?_ ?_ ?_ h).1
  · rintro s e t ⟨-, hstep⟩ b ⟨input, he, hb⟩
    dsimp only at he hb
    subst he
    cases hstep
    exact covers_produced hb
  · intro e s event t hcovers hstep b hb
    exact (hcovers b hb).step hstep
  rintro e s event t hcovers - b b' hb ⟨input, -, hb'⟩ hsame
  have hlt := (hcovers b hb).produced hb' hsame.symm
  apply Set.disjoint_left.mpr
  rintro n ⟨-, hn⟩ ⟨hn', -⟩
  omega

def soleProducer : ProducerSchedule Nat := { version := 1, producers := [⟨5, 9⟩] }

def localProducer : ProducerConfig Nat :=
  { producers := [5], signatureProviders := [9], startTime := 1546684800000000 }

def ownTurn (blockNum slot : Nat) : BlockHeaderState Nat Nat :=
  { blockNum := blockNum, header := { timestamp := slot, producerSignature := 9 }
    blockSigningKey := 9, activeSchedule := soleProducer }

def promotesOwn : BlockHeaderState Nat Nat :=
  { blockNum := 7, header := { timestamp := 1200000030, producer := 6, producerSignature := 8 }
    blockSigningKey := 8, dposProposedIrreversibleBlocknum := 2, pendingScheduleLibNum := 1
    activeSchedule := { producers := [⟨6, 8⟩] }, pendingSchedule := soleProducer }

def onOwnTurn : ProduceInput Nat := { actionDigests := [], trxDigests := [], signature := 9 }

def startAt (slot : Nat) : ProducerEvent Nat Nat := .startBlock { now := blockTime slot }

def ownBlock : List (ProducerEvent Nat Nat) :=
  [.headChanged (ownTurn 8 1200000028), startAt 1200000028]

def afterFork : List (ProducerEvent Nat Nat) :=
  [.accepted promotesOwn, .headChanged (ownTurn 9 1200000032), startAt 1200000032]

def replaySteps (s : ProducerState Nat Nat) (events : List (ProducerEvent Nat Nat)) :
    Option (ProducerState Nat Nat) :=
  Steps.replay (fun s e => (s.step plainCrypto localProducer e).toOption) s events

lemma fork_replay :
    ((replaySteps { head := ownTurn 8 1200000028 } ownBlock).bind fun s =>
      (s.produced plainCrypto localProducer onOwnTurn).bind fun b =>
      (replaySteps (s.produceBlock plainCrypto localProducer onOwnTurn) afterFork).bind fun t =>
      (t.produced plainCrypto localProducer onOwnTurn).map fun b' =>
        (b.header.producer = 5 ∧ b.blockNum = 9 ∧ b'.header.producer = 5 ∧ b'.blockNum = 10 ∧
          b'.header.confirmed = 2 : Bool)) = some true := by
  decide +kernel

/-- A promotion on another fork lowers the watermark of account 5 from 9 to 7, and account 5
confirms block 9 again. -/
theorem fork_confirms_again : ∃ s t b b',
    (∃ es, Steps (fun s e t => s.step plainCrypto localProducer e = .ok t)
      { head := ownTurn 8 1200000028 } es s) ∧
    Produces plainCrypto localProducer s (.produceBlock onOwnTurn) b ∧
    (∃ es, Steps (fun s e t => s.step plainCrypto localProducer e = .ok t)
      (s.produceBlock plainCrypto localProducer onOwnTurn) es t) ∧
    Produces plainCrypto localProducer t (.produceBlock onOwnTurn) b' ∧
    b.header.producer = b'.header.producer ∧
    9 ∈ confirmedRange b ∧ 9 ∈ confirmedRange b' := by
  obtain ⟨s, hs, h⟩ := bind_eq_some_iff.mp fork_replay
  obtain ⟨b, hb, h⟩ := bind_eq_some_iff.mp h
  obtain ⟨t, ht, h⟩ := bind_eq_some_iff.mp h
  obtain ⟨b', hb', h⟩ := map_eq_some_iff.mp h
  obtain ⟨hproducer, hnum, hproducer', hnum', hconfirmed'⟩ := of_decide_eq_true h
  obtain ⟨es, hrun, -⟩ := Steps.of_replay ok_of_toOption hs
  obtain ⟨es', hrun', -⟩ := Steps.of_replay ok_of_toOption ht
  refine ⟨s, t, b, b', ⟨es, hrun⟩, ⟨_, rfl, hb⟩, ⟨es', hrun'⟩, ⟨_, rfl, hb'⟩, ?_, ?_, ?_⟩
  · rw [hproducer, hproducer']
  · rw [confirmedRange, Set.mem_Icc, hnum]
    omega
  · rw [confirmedRange, Set.mem_Icc, hnum', hconfirmed']
    omega

instance (s : ProducerState Key Sig) (bsp : BlockHeaderState Key Sig) :
    Decidable (s.Raises C config bsp) :=
  inferInstanceAs (Decidable (_ → _))

instance (s : ProducerState Key Sig) : ∀ e, Decidable (s.KeepsWatermarks C config e)
  | .accepted _ => inferInstanceAs (Decidable (Raises _ _ _ _))
  | .headChanged _ => inferInstanceAs (Decidable True)
  | .startBlock _ => inferInstanceAs (Decidable (_ ≠ 0))
  | .produceBlock _ => inferInstanceAs (Decidable (∀ b ∈ _, Raises _ _ _ b))

def keepingStep? (s : ProducerState Nat Nat) (e : ProducerEvent Nat Nat) :
    Option (ProducerState Nat Nat) :=
  if s.KeepsWatermarks plainCrypto localProducer e then
    (s.step plainCrypto localProducer e).toOption
  else none

lemma keepingStep_of_keepingStep? {s t : ProducerState Nat Nat} {e : ProducerEvent Nat Nat}
    (h : keepingStep? s e = some t) : KeepingStep plainCrypto localProducer s e t :=
  ok_of_guarded h

def twoTurns : List (ProducerEvent Nat Nat) :=
  ownBlock ++ [.produceBlock onOwnTurn, .headChanged (ownTurn 10 1200000030), startAt 1200000030,
    .produceBlock onOwnTurn]

lemma twoTurns_replay :
    (Steps.replay keepingStep? { head := ownTurn 8 1200000028 } twoTurns).isSome := by
  decide +kernel

theorem twoTurns_ranges_disjoint : ∃ es t,
    Steps (KeepingStep plainCrypto localProducer) { head := ownTurn 8 1200000028 } es t ∧
      es.map (fun e => e.2.1) = twoTurns ∧ RangesDisjoint plainCrypto localProducer es := by
  obtain ⟨t, hreplay⟩ := isSome_iff_exists.mp twoTurns_replay
  obtain ⟨es, hrun, hlabels⟩ := Steps.of_replay keepingStep_of_keepingStep? hreplay
  exact ⟨es, t, hrun, hlabels, produced_ranges_disjoint hrun⟩

end DimensionChain.ProducerState
