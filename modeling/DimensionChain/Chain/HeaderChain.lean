import DimensionChain.Base.Trace
import DimensionChain.Chain.HeaderAcceptance

/-!
# Chains of accepted headers

What one accepted header does to the numbers, counters, maps and schedules of the state.
A block of a chain is the state it leaves: its number, producer and confirmed range are
fields of that state.
-/

namespace DimensionChain.BlockHeaderState

open FlatMap List

variable {Key Sig : Type} {h : SignedBlockHeader Key Sig} {C : Crypto Key Sig} {q : AccountName}
  {v : Nat}

structure SameCounters (r p : BlockHeaderState Key Sig) : Prop where
  blockNum : r.blockNum = p.blockNum
  proposed : r.dposProposedIrreversibleBlocknum = p.dposProposedIrreversibleBlocknum
  irreversible : r.dposIrreversibleBlocknum = p.dposIrreversibleBlocknum
  bft : r.bftIrreversibleBlocknum = p.bftIrreversibleBlocknum
  active : r.activeSchedule = p.activeSchedule
  lastProduced : r.producerToLastProduced = p.producerToLastProduced
  implied : r.producerToLastImpliedIrb = p.producerToLastImpliedIrb
  confirmCount : r.confirmCount = p.confirmCount

lemma adopt_sameCounters {g r : BlockHeaderState Key Sig} (ha : g.adopt C h = .ok r) :
    SameCounters r (g.afterPromotion h.confirmed) := by
  rcases adopt_cases ha with ⟨-, rfl⟩ | ⟨sch, r', -, -, hr', rfl⟩
  · exact ⟨rfl, rfl, rfl, rfl, rfl, rfl, rfl, rfl⟩
  · obtain ⟨-, -, rfl⟩ := setNewProducers_ok_iff.mp hr'
    exact ⟨rfl, rfl, rfl, rfl, rfl, rfl, rfl, rfl⟩

lemma maybePromotePending_cases (s : BlockHeaderState Key Sig) :
    (s.promotesPending = false ∧ s.maybePromotePending = (s, false)) ∨
    (s.promotesPending = true ∧ s.maybePromotePending.2 = true ∧
      s.maybePromotePending.1.activeSchedule = s.pendingSchedule ∧
      s.maybePromotePending.1.pendingSchedule.producers = [] ∧
      s.maybePromotePending.1.producerToLastProduced =
        (reselect s.pendingSchedule.producers s.producerToLastProduced
          s.dposIrreversibleBlocknum).set s.header.producer s.blockNum ∧
      s.maybePromotePending.1.producerToLastImpliedIrb =
        reselect s.pendingSchedule.producers s.producerToLastImpliedIrb
          s.dposIrreversibleBlocknum) := by
  unfold maybePromotePending
  cases hp : s.promotesPending with
  | false => exact .inl ⟨rfl, by simp⟩
  | true => exact .inr ⟨rfl, by simp⟩

lemma maybePromotePending_numbers (s : BlockHeaderState Key Sig) :
    s.maybePromotePending.1.blockNum = s.blockNum ∧
      s.maybePromotePending.1.dposProposedIrreversibleBlocknum =
        s.dposProposedIrreversibleBlocknum ∧
      s.maybePromotePending.1.dposIrreversibleBlocknum = s.dposIrreversibleBlocknum ∧
      s.maybePromotePending.1.confirmCount = s.confirmCount := by
  unfold maybePromotePending
  split <;> exact ⟨rfl, rfl, rfl, rfl⟩

lemma find?_reselect (producers : List (ProducerKey Key)) (old : FlatMap AccountName Nat)
    (lib : Nat) (q : AccountName) : (reselect producers old lib).find? q =
      if q ∈ producers.map ProducerKey.producerName then some ((old.find? q).getD lib)
      else none := by
  have hfold : ∀ (m : FlatMap AccountName Nat),
      (producers.foldl (fun m pro =>
        m.set pro.producerName ((old.find? pro.producerName).getD lib)) m).find? q =
      if q ∈ producers.map ProducerKey.producerName then some ((old.find? q).getD lib)
      else m.find? q := by
    induction producers with
    | nil => simp
    | cons pro producers ih =>
      intro m
      rw [foldl_cons, ih, find?_set]
      by_cases hq : q = pro.producerName
      · subst hq
        simp
      · simp [hq]
  exact hfold empty

lemma mem_reselect {producers : List (ProducerKey Key)} {old : FlatMap AccountName Nat}
    {lib : Nat} (h : (q, v) ∈ (reselect producers old lib).entries) :
    (q, v) ∈ old.entries ∨ v = lib := by
  have hf := find?_eq_some.mpr h
  rw [find?_reselect] at hf
  split at hf
  · cases ho : old.find? q with
    | none =>
      right
      simpa [ho, eq_comm] using hf
    | some w =>
      left
      have hw : w = v := by simpa [ho] using hf
      exact hw ▸ find?_eq_some.mp ho
  · simp at hf

lemma scheduled_mem {s : BlockHeaderState Key Sig} {slot : Nat} {prokey : ProducerKey Key}
    (h : s.getScheduledProducer slot = some prokey) :
    prokey.producerName ∈ s.activeSchedule.names := by
  unfold getScheduledProducer at h
  split at h
  · simp at h
  · exact mem_map_of_mem (mem_of_getElem? h)

variable [Inhabited Sig] [DecidableEq Key]

def Accepts (C : Crypto Key Sig)
    (P : BlockHeaderState Key Sig → SignedBlockHeader Key Sig → Prop)
    (t r : BlockHeaderState Key Sig) : Prop :=
  ∃ h skip, t.next C h skip = .ok r ∧ P t h

lemma next_template {t r : BlockHeaderState Key Sig} {skip : Bool} (hn : t.next C h skip = .ok r) :
    ∃ prokey, t.getScheduledProducer h.timestamp = some prokey ∧ prokey.producerName = h.producer ∧
      t.doubleConfirmOk (u32 (t.blockNum + 1)) h.producer h.confirmed = true ∧
      SameCounters r ((t.template C h.timestamp prokey).afterPromotion h.confirmed) := by
  obtain ⟨-, -, -, prokey, hp, hprod, -, hdc, ha⟩ := next_cases hn
  exact ⟨prokey, hp, hprod, hdc, adopt_sameCounters ha⟩

section Step
variable {t r : BlockHeaderState Key Sig} {skip : Bool} (hn : t.next C h skip = .ok r)
include hn

lemma next_blockNum : r.blockNum = u32 (t.blockNum + 1) := by
  obtain ⟨prokey, -, -, -, hs⟩ := next_template hn
  rw [hs.blockNum]
  exact (maybePromotePending_numbers _).1

lemma next_confirmCount :
    r.confirmCount = (confirmBack t.growConfirmCount.reverse (h.confirmed + 1) 0).1.reverse := by
  obtain ⟨prokey, -, -, -, hs⟩ := next_template hn
  rw [hs.confirmCount]
  exact (maybePromotePending_numbers _).2.2.2

lemma next_producer : r.header.producer = h.producer := by
  rw [next_header hn]

lemma next_confirmed : r.header.confirmed = h.confirmed := by
  rw [next_header hn]

lemma next_newProducers : r.header.newProducers = h.newProducers := by
  rw [next_header hn]

lemma next_producer_mem : h.producer ∈ t.activeSchedule.names := by
  obtain ⟨prokey, hp, hprod, -, -⟩ := next_template hn
  exact hprod ▸ scheduled_mem hp

lemma next_lastProduced (hsame : r.activeSchedule = t.activeSchedule)
    (hq : q ∈ t.activeSchedule.names)
    (hv : t.producerToLastProduced.find? q = some v ∨ q = h.producer) :
    r.producerToLastProduced.find? q =
      some (if q = h.producer then u32 (t.blockNum + 1) else v) := by
  obtain ⟨prokey, -, hprod, -, hs⟩ := next_template hn
  have hset : ((t.template C h.timestamp prokey).setConfirmed h.confirmed).producerToLastProduced =
      t.producerToLastProduced.set h.producer (u32 (t.blockNum + 1)) := by rw [← hprod]; rfl
  rw [hs.lastProduced]
  unfold afterPromotion
  rcases maybePromotePending_cases ((t.template C h.timestamp prokey).setConfirmed h.confirmed) with
    ⟨-, hm⟩ | ⟨-, -, hact, -, hmap, -⟩
  · rw [hm, hset, find?_set]
    split
    · rfl
    · rename_i hne
      exact hv.resolve_right hne
  have hprod' : ((t.template C h.timestamp prokey).setConfirmed h.confirmed).header.producer =
      h.producer := hprod
  have hnum : ((t.template C h.timestamp prokey).setConfirmed h.confirmed).blockNum =
      u32 (t.blockNum + 1) := rfl
  have hact' := hs.active
  unfold afterPromotion at hact'
  rw [hact, hsame] at hact'
  have hq' : q ∈ ((t.template C h.timestamp prokey).setConfirmed
      h.confirmed).pendingSchedule.producers.map ProducerKey.producerName := by
    rw [← hact']
    exact hq
  rw [hmap, hprod', hnum, find?_set]
  split
  · rfl
  · rename_i hne
    rw [find?_reselect, if_pos hq', hset, find?_set, if_neg hne,
      hv.resolve_right hne, Option.getD_some]

lemma next_keeps_schedule (hpend : t.pendingSchedule.producers = [])
    (hnew : h.newProducers = none) :
    r.activeSchedule = t.activeSchedule ∧ r.pendingSchedule.producers = [] := by
  obtain ⟨-, -, -, prokey, -, -, -, -, ha⟩ := next_cases hn
  have hg : ((t.template C h.timestamp prokey).setConfirmed h.confirmed).promotesPending = false := by
    simp [promotesPending, setConfirmed, template, hpend]
  rcases adopt_cases ha with ⟨-, rfl⟩ | ⟨sch, r', hsome, -⟩
  · unfold afterPromotion
    rcases maybePromotePending_cases ((t.template C h.timestamp prokey).setConfirmed h.confirmed)
      with ⟨-, hm⟩ | ⟨hp, -⟩
    · rw [hm]
      exact ⟨rfl, hpend⟩
    · rw [hg] at hp
      simp at hp
  · rw [hnew] at hsome
    simp at hsome

end Step

structure Plan where
  slot : Nat
  confirmed : Nat := 0
  newProducers : Option (ProducerSchedule Nat) := none

def headerOn (s : BlockHeaderState Nat Nat) (p : Plan) : SignedBlockHeader Nat Nat :=
  let prokey := (s.getScheduledProducer p.slot).getD default
  { timestamp := p.slot
    producer := prokey.producerName
    confirmed := p.confirmed
    previous := s.id
    scheduleVersion := s.activeSchedule.version
    consensusType := s.activeSchedule.consensusType
    newProducers := p.newProducers
    producerSignature := prokey.blockSigningKey }

def build (s : BlockHeaderState Nat Nat) : List Plan → List (BlockHeaderState Nat Nat)
  | [] => []
  | p :: ps =>
    match s.next plainCrypto (s.headerOn p) false with
    | .ok r => r :: build r ps
    | .error _ => []

def builds (test : BlockHeaderState Nat Nat → SignedBlockHeader Nat Nat → Bool)
    (s : BlockHeaderState Nat Nat) : List Plan → Bool
  | [] => true
  | p :: ps => test s (s.headerOn p) &&
      okAnd (s.next plainCrypto (s.headerOn p) false) fun r => builds test r ps

variable (test : BlockHeaderState Nat Nat → SignedBlockHeader Nat Nat → Bool)
include test

lemma trace_of_builds {P : BlockHeaderState Nat Nat → SignedBlockHeader Nat Nat → Prop}
    (hP : ∀ t h, test t h = true → P t h) (s : BlockHeaderState Nat Nat) (ps : List Plan)
    (hb : builds test s ps = true) :
    Trace (Accepts plainCrypto P) s (s.build ps) ((s.build ps).getLast?.getD s) := by
  induction ps generalizing s with
  | nil => exact .nil s
  | cons p ps ih =>
    rw [builds, Bool.and_eq_true] at hb
    obtain ⟨htest, hok⟩ := hb
    obtain ⟨r, hr, hrest⟩ := exists_ok_of_okAnd hok
    have hbuild : s.build (p :: ps) = r :: r.build ps := by rw [build, hr]
    rw [hbuild, getLast?_cons, Option.getD_some]
    exact .cons ⟨s.headerOn p, false, hr, hP _ _ htest⟩ (ih r hrest)

lemma build_snoc
    (s : BlockHeaderState Nat Nat) (ps : List Plan) (p : Plan) (hb : builds test s ps = true) :
    s.build (ps ++ [p]) = s.build ps ++ ((s.build ps).getLast?.getD s).build [p] := by
  induction ps generalizing s with
  | nil => rfl
  | cons q ps ih =>
    rw [builds, Bool.and_eq_true] at hb
    obtain ⟨r, hr, hrest⟩ := exists_ok_of_okAnd hb.2
    have hbuild : ∀ qs, s.build (q :: qs) = r :: r.build qs := by
      intro qs
      rw [build, hr]
    rw [cons_append, hbuild, hbuild, ih r hrest, getLast?_cons, Option.getD_some]
    rfl

end DimensionChain.BlockHeaderState
