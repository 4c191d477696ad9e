import DimensionChain.Chain.HeaderAcceptance

/-!
# Building a block

`startBlock` and `finalizeBlock` are the header half of the controller's functions of
those names: transactions enter only through the digests that the two merkle roots are
taken of. The producer builds a state with them, a validator rebuilds it with `next`.
-/

namespace DimensionChain

structure GlobalProperty (Key : Type) where
  proposedScheduleBlockNum : Option Nat := none
  proposedSchedule : ProducerSchedule Key := {}
  deriving DecidableEq, Repr

section Merkle
variable {Key Sig : Type}

/-- One level of `merkle`: an odd list is closed by repeating its last digest. -/
def merkleLevel (C : Crypto Key Sig) : List Digest → List Digest
  | [] => []
  | [a] => [C.pairDigest (makeCanonicalLeft a) (makeCanonicalRight a)]
  | a :: b :: rest =>
    C.pairDigest (makeCanonicalLeft a) (makeCanonicalRight b) :: merkleLevel C rest

def merkleLoop (C : Crypto Key Sig) : Nat → List Digest → Digest
  | 0, ids => ids.headD default
  | fuel + 1, ids =>
    if ids.length > 1 then merkleLoop C fuel (merkleLevel C ids) else ids.headD default

def merkle (C : Crypto Key Sig) (ids : List Digest) : Digest := merkleLoop C ids.length ids

end Merkle

namespace BlockHeaderState
variable {Key Sig : Type} {C : Crypto Key Sig} {gpo : GlobalProperty Key}

def finalizeBlock (C : Crypto Key Sig) (p : BlockHeaderState Key Sig)
    (actionDigests trxDigests : List Digest) : BlockHeaderState Key Sig :=
  let header : SignedBlockHeader Key Sig :=
    { p.header with
      actionMroot := merkle C actionDigests
      transactionMroot := merkle C trxDigests }
  { p with header := header, id := header.toBlockHeader.id C }

/-- `sign_block` without its assertion on the recovered key: any signature is taken. -/
def signBlock (p : BlockHeaderState Key Sig) (signature : Sig) : BlockHeaderState Key Sig :=
  { p with header := { p.header with producerSignature := signature } }

/-- A schedule proposed in a block that has become irreversible is made pending when
there is room for it, and not because of a promotion in this block. -/
def promoteProposed (C : Crypto Key Sig) (p : BlockHeaderState Key Sig)
    (wasPendingPromoted : Bool) (gpo : GlobalProperty Key) :
    Result (BlockHeaderState Key Sig × GlobalProperty Key) :=
  match gpo.proposedScheduleBlockNum with
  | none => .ok (p, gpo)
  | some proposedNum =>
    if proposedNum ≤ p.dposIrreversibleBlocknum ∧ p.pendingSchedule.producers.length = 0 ∧
        wasPendingPromoted = false then do
      let p ← p.setNewProducers C gpo.proposedSchedule
      pure (p, {})
    else .ok (p, gpo)

lemma promoteProposed_cases {p : BlockHeaderState Key Sig} {wasPendingPromoted : Bool}
    (hversion : p.pendingSchedule.producers.length = 0 → wasPendingPromoted = false →
      gpo.proposedScheduleBlockNum ≠ none →
      gpo.proposedSchedule.version = u32 (p.activeSchedule.version + 1)) :
    ∃ p' gpo', p.promoteProposed C wasPendingPromoted gpo = .ok (p', gpo') ∧
      (p' = p ∨ (wasPendingPromoted = false ∧
        p.setNewProducers C gpo.proposedSchedule = .ok p')) := by
  unfold promoteProposed
  cases hn : gpo.proposedScheduleBlockNum with
  | none => exact ⟨p, gpo, rfl, .inl rfl⟩
  | some proposedNum =>
    dsimp only
    split
    · rename_i hcond
      obtain ⟨-, hempty, hnot⟩ := hcond
      have hver := hversion hempty hnot (by simp [hn])
      have hset := (setNewProducers_ok_iff (C := C)).mpr ⟨hver, hempty, rfl⟩
      refine ⟨_, {}, ?_, .inr ⟨hnot, hset⟩⟩
      rw [hset]
      rfl
    · exact ⟨p, gpo, rfl, .inl rfl⟩

lemma promoteProposed_keeps {p r : BlockHeaderState Key Sig}
    {promoted : Bool} {gpo gpo' : GlobalProperty Key}
    (h : p.promoteProposed C promoted gpo = .ok (r, gpo')) :
    r.blockNum = p.blockNum ∧ r.header.producer = p.header.producer ∧
      r.header.confirmed = p.header.confirmed := by
  unfold promoteProposed at h
  split at h
  · cases h
    exact ⟨rfl, rfl, rfl⟩
  split at h
  · obtain ⟨q, hq, hr⟩ := bind_ok_iff.mp h
    obtain ⟨-, -, rfl⟩ := setNewProducers_ok_iff.mp hq
    cases hr
    exact ⟨rfl, rfl, rfl⟩
  · cases h
    exact ⟨rfl, rfl, rfl⟩

lemma afterPromotion_of_not_promoted {g : BlockHeaderState Key Sig} {confirmed : Nat}
    (h : (g.setConfirmed confirmed).maybePromotePending.2 = false) :
    g.afterPromotion confirmed = g.setConfirmed confirmed := by
  unfold afterPromotion
  unfold maybePromotePending at h ⊢
  split at h
  · simp at h
  · rename_i hp
    rw [if_neg hp]

lemma getScheduledProducer_isSome {s : BlockHeaderState Key Sig} (slot : Nat)
    (h : s.activeSchedule.producers ≠ []) : ∃ prokey, s.getScheduledProducer slot = some prokey := by
  have hpos : 0 < s.activeSchedule.producers.length := List.length_pos_of_ne_nil h
  have hlt : slot % (s.activeSchedule.producers.length * Config.producerRepetitions) /
      Config.producerRepetitions < s.activeSchedule.producers.length := by
    rw [Nat.div_lt_iff_lt_mul (by decide)]
    exact Nat.mod_lt _ (Nat.mul_pos hpos (by decide))
  unfold getScheduledProducer
  simp only [Nat.ne_of_gt hpos, if_false, List.getElem?_eq_getElem hlt]
  exact ⟨_, rfl⟩

variable [Inhabited Sig]

def startBlock (C : Crypto Key Sig) (head : BlockHeaderState Key Sig) (slot confirmBlockCount : Nat)
    (readMode : DbReadMode) (status : BlockStatus) (gpo : GlobalProperty Key) :
    Result (BlockHeaderState Key Sig × GlobalProperty Key) := do
  let template ← head.generateNext C slot
  let (p, wasPendingPromoted) := (template.setConfirmed confirmBlockCount).maybePromotePending
  if readMode = .speculative ∨ status ≠ .incomplete then
    p.promoteProposed C wasPendingPromoted gpo
  else pure (p, gpo)

/-- The states that `start_block` can leave: the promoted template, or that with the
proposed schedule as the new pending one. -/
lemma startBlock_cases {head : BlockHeaderState Key Sig} {slot : Nat} {prokey : ProducerKey Key}
    (hlt : head.header.timestamp < slot) (hp : head.getScheduledProducer slot = some prokey)
    (hversion : head.pendingSchedule.producers.length = 0 → gpo.proposedScheduleBlockNum ≠ none →
      gpo.proposedSchedule.version = u32 (head.activeSchedule.version + 1))
    (confirm : Nat) (readMode : DbReadMode) (status : BlockStatus) :
    ∃ p gpo', head.startBlock C slot confirm readMode status gpo = .ok (p, gpo') ∧
      (p = (head.template C slot prokey).afterPromotion confirm ∨
        (((head.template C slot prokey).setConfirmed confirm).maybePromotePending.2 = false ∧
          ((head.template C slot prokey).afterPromotion confirm).setNewProducers C
            gpo.proposedSchedule = .ok p)) := by
  have hrun : head.startBlock C slot confirm readMode status gpo =
      (if readMode = .speculative ∨ status ≠ .incomplete then
        ((head.template C slot prokey).afterPromotion confirm).promoteProposed C
          ((head.template C slot prokey).setConfirmed confirm).maybePromotePending.2 gpo
      else pure ((head.template C slot prokey).afterPromotion confirm, gpo)) := by
    simp [startBlock, generateNext_eq hlt hp, bind, Except.bind, afterPromotion]
  rw [hrun]
  split
  · apply promoteProposed_cases
    intro hempty hnot
    rw [afterPromotion_of_not_promoted hnot] at hempty ⊢
    exact hversion hempty
  · exact ⟨_, _, rfl, .inl rfl⟩

/-- Producer path and validator path agree: whatever `start_block`, `finalize_block` and
`sign_block` build on a head state is accepted by that state, and the rebuilt state is the
producer's own in every field. -/
theorem next_of_startBlock [DecidableEq Key] {C : Crypto Key Sig} {head : BlockHeaderState Key Sig}
    {slot confirm : Nat} {gpo : GlobalProperty Key}
    (hproducers : head.activeSchedule.producers ≠ []) (hlater : head.header.timestamp < slot)
    (hconfirm : ∀ prokey, head.getScheduledProducer slot = some prokey →
      head.doubleConfirmOk (u32 (head.blockNum + 1)) prokey.producerName confirm = true)
    (heligible : head.pendingSchedule.producers.length = 0 → gpo.proposedScheduleBlockNum ≠ none →
      gpo.proposedSchedule.version = u32 (head.activeSchedule.version + 1))
    (readMode : DbReadMode) (status : BlockStatus) (actionDigests trxDigests : List Digest)
    (signature : Sig) :
    ∃ p gpo', head.startBlock C slot confirm readMode status gpo = .ok (p, gpo') ∧
      head.next C ((p.finalizeBlock C actionDigests trxDigests).signBlock signature).header true =
        .ok ((p.finalizeBlock C actionDigests trxDigests).signBlock signature) := by
  obtain ⟨prokey, hp⟩ := getScheduledProducer_isSome slot hproducers
  have hdc := hconfirm prokey hp
  obtain ⟨p, gpo', hstart, hp'⟩ :=
    startBlock_cases (C := C) hlater hp heligible confirm readMode status
  refine ⟨p, gpo', hstart, ?_⟩
  have hheader : ((head.template C slot prokey).afterPromotion confirm).header =
      { (head.template C slot prokey).header with confirmed := confirm } :=
    maybePromotePending_header _
  have hbuilt : ∃ np, p.header = { (head.template C slot prokey).header with
      confirmed := confirm, newProducers := np } := by
    rcases hp' with rfl | ⟨-, hset⟩
    · exact ⟨none, hheader⟩
    · obtain ⟨-, -, rfl⟩ := setNewProducers_ok_iff.mp hset
      exact ⟨some gpo.proposedSchedule, by simp only [hheader]⟩
  obtain ⟨np, hnp⟩ := hbuilt
  have hq : ((p.finalizeBlock C actionDigests trxDigests).signBlock signature).header =
      { p.header with
        actionMroot := merkle C actionDigests
        transactionMroot := merkle C trxDigests
        producerSignature := signature } := rfl
  rw [next_skip_eq (by rw [hq, hnp]; rfl) (by rw [hq, hnp]; exact hlater)
    (by rw [hq, hnp]; rfl) (show _ = some prokey by rw [hq, hnp]; exact hp) (by rw [hq, hnp]; rfl)
    (by rw [hq, hnp]; rfl) (by rw [hq, hnp]; exact hdc)]
  have hslot : ((p.finalizeBlock C actionDigests trxDigests).signBlock signature).header.timestamp =
      slot := by rw [hq, hnp]; rfl
  have hconf : ((p.finalizeBlock C actionDigests trxDigests).signBlock signature).header.confirmed =
      confirm := by rw [hq, hnp]
  rw [hslot]
  rcases hp' with rfl | ⟨hnot, hset⟩
  · rw [adopt_of_none (by rw [hq, hheader]; rfl), hconf]
    rfl
  obtain ⟨-, -, rfl⟩ := setNewProducers_ok_iff.mp hset
  rw [adopt_of_some (show _ = some gpo.proposedSchedule from rfl) (by rw [hconf]; exact hnot)
    (by rw [hconf]; exact hset)]
  rfl

/-- The genesis head with a schedule proposed and eligible: the producer sets it pending. -/
theorem next_of_startBlock_eligible :
    ∃ p gpo', ({ plainGenesis with pendingSchedule := {} } : BlockHeaderState Nat Nat).startBlock
        plainCrypto 2 0 .speculative .incomplete
        ⟨some 0, { version := 1, producers := [⟨5, 9⟩] }⟩ = .ok (p, gpo') ∧
      ({ plainGenesis with pendingSchedule := {} } : BlockHeaderState Nat Nat).next plainCrypto
        ((p.finalizeBlock plainCrypto [default] []).signBlock 7).header true =
        .ok ((p.finalizeBlock plainCrypto [default] []).signBlock 7) :=
  next_of_startBlock (by decide) (by decide) (fun _ _ => rfl) (fun _ _ => rfl)
    .speculative .incomplete [default] [] 7

end BlockHeaderState

end DimensionChain
