import DimensionChain.Chain.BlockHeaderState

/-!
# What an accepted header determines

`next_cases` says once everything that an accepted header has passed and what state
it leaves. The ten hashed fields follow from it: nine are checked or copied, and the
consensus type is neither.
-/

namespace DimensionChain.BlockHeaderState

variable {Key Sig : Type} {h : SignedBlockHeader Key Sig} {C : Crypto Key Sig}
  {g r : BlockHeaderState Key Sig} {s : BlockHeaderState Key Sig} {sch : ProducerSchedule Key}

lemma setNewProducers_ok_iff : s.setNewProducers C sch = .ok r ↔
      sch.version = u32 (s.activeSchedule.version + 1) ∧ s.pendingSchedule.producers.length = 0 ∧
      r = { s with
        header := { s.header with newProducers := some sch }
        pendingScheduleHash := C.scheduleDigest sch
        pendingSchedule := sch
        pendingScheduleLibNum := s.blockNum } := by
  simp only [setNewProducers, bind_ok_iff, eosAssert_ok_iff]
  simp only [pure, Except.pure, Except.ok.injEq, exists_and_left, exists_const, eq_comm]

def afterPromotion (g : BlockHeaderState Key Sig) (confirmed : Nat) : BlockHeaderState Key Sig :=
  (g.setConfirmed confirmed).maybePromotePending.1

lemma adopt_cases (ha : g.adopt C h = .ok r) :
    (h.newProducers = none ∧ r = (g.afterPromotion h.confirmed).copyHeader C h) ∨
    (∃ sch r', h.newProducers = some sch ∧
      (g.setConfirmed h.confirmed).maybePromotePending.2 = false ∧
      (g.afterPromotion h.confirmed).setNewProducers C sch = .ok r' ∧ r = r'.copyHeader C h) := by
  unfold adopt at ha
  cases hn : h.newProducers with
  | none =>
    refine .inl ⟨rfl, ?_⟩
    simpa [hn, afterPromotion, pure, Except.pure, bind, Except.bind, eq_comm] using ha
  | some sch =>
    simp only [hn] at ha
    obtain ⟨u, hu, ha⟩ := bind_ok_iff.mp ha
    obtain ⟨r', hr', ha⟩ := bind_ok_iff.mp ha
    refine .inr ⟨sch, r', rfl, eosAssert_ok_iff.mp hu, hr', ?_⟩
    simpa [pure, Except.pure, eq_comm] using ha

lemma adopt_of_none {g : BlockHeaderState Key Sig} (hn : h.newProducers = none) :
    g.adopt C h = .ok ((g.afterPromotion h.confirmed).copyHeader C h) := by
  simp only [adopt, hn, pure, Except.pure, bind, Except.bind, afterPromotion]

lemma adopt_of_some (hn : h.newProducers = some sch)
    (hnot : (g.setConfirmed h.confirmed).maybePromotePending.2 = false)
    (hset : (g.afterPromotion h.confirmed).setNewProducers C sch = .ok r) :
    g.adopt C h = .ok (r.copyHeader C h) := by
  unfold afterPromotion at hset
  simp [adopt, hn, eosAssert, hnot, pure, Except.pure, bind, Except.bind, hset]

lemma maybePromotePending_header (s : BlockHeaderState Key Sig) :
    s.maybePromotePending.1.header = s.header := by
  unfold maybePromotePending
  split <;> rfl

lemma adopt_header (hfresh : g.header.newProducers = none) (ha : g.adopt C h = .ok r) :
    r.header = { g.header with
        confirmed := h.confirmed
        newProducers := h.newProducers
        actionMroot := h.actionMroot
        transactionMroot := h.transactionMroot
        producerSignature := h.producerSignature } ∧
      r.id = r.header.toBlockHeader.id C := by
  have hprom : (g.afterPromotion h.confirmed).header = { g.header with confirmed := h.confirmed } :=
    maybePromotePending_header _
  rcases adopt_cases ha with ⟨hn, rfl⟩ | ⟨sch, r', hn, -, hr', rfl⟩
  · simp [copyHeader, hprom, hn, hfresh]
  · obtain ⟨-, -, rfl⟩ := setNewProducers_ok_iff.mp hr'
    simp [copyHeader, hprom, hn]

variable [Inhabited Sig] {prokey : ProducerKey Key} {slot : Nat}

lemma generateNext_cases {s g : BlockHeaderState Key Sig}
    (h0 : slot ≠ 0) (hg : s.generateNext C slot = .ok g) : s.header.timestamp < slot ∧
      ∃ prokey, s.getScheduledProducer slot = some prokey ∧ g = s.template C slot prokey := by
  unfold generateNext at hg
  simp only [ne_eq, h0, not_false_eq_true, if_true] at hg
  obtain ⟨u, hu, hg⟩ := bind_ok_iff.mp hg
  have hlt := eosAssert_ok_iff.mp hu
  cases hp : s.getScheduledProducer slot with
  | none => simp [hp, pure, Except.pure, bind, Except.bind] at hg
  | some prokey =>
    refine ⟨hlt, prokey, rfl, ?_⟩
    simpa [hp, pure, Except.pure, bind, Except.bind, eq_comm] using hg

lemma generateNext_eq (hlt : s.header.timestamp < slot)
    (hp : s.getScheduledProducer slot = some prokey) :
    s.generateNext C slot = .ok (s.template C slot prokey) := by
  have h0 : slot ≠ 0 := by omega
  simp [generateNext, h0, hlt, hp, eosAssert, pure, Except.pure, bind, Except.bind]

lemma next_cases [DecidableEq Key] {skip : Bool} (hn : s.next C h skip = .ok r) :
    h.headerExtensions = [] ∧ s.header.timestamp < h.timestamp ∧ h.previous = s.id ∧
      ∃ prokey, s.getScheduledProducer h.timestamp = some prokey ∧
        prokey.producerName = h.producer ∧ s.activeSchedule.version = h.scheduleVersion ∧
        s.doubleConfirmOk (u32 (s.blockNum + 1)) h.producer h.confirmed = true ∧
        (s.template C h.timestamp prokey).adopt C h = .ok r := by
  simp only [next, bind_ok_iff, eosAssert_ok_iff, exists_and_left, exists_const] at hn
  obtain ⟨h0, hext, hlt, hprev, g, hg, hprod, hver, hdc, a, ha, hsig⟩ := hn
  obtain ⟨-, prokey, hp, rfl⟩ := generateNext_cases h0 hg
  have har : a = r := by
    cases skip with
    | true => simpa [pure, Except.pure, bind, Except.bind] using hsig
    | false =>
      simp only [Bool.not_false, if_true, bind_ok_iff] at hsig
      obtain ⟨-, -, -, -, hr⟩ := hsig
      simpa [pure, Except.pure] using hr
  subst har
  exact ⟨by simpa using hext, hlt, hprev, prokey, hp, hprod, hver, hdc, ha⟩

lemma next_skip_eq [DecidableEq Key]
    (hext : h.headerExtensions = []) (hlt : s.header.timestamp < h.timestamp)
    (hprev : h.previous = s.id) (hp : s.getScheduledProducer h.timestamp = some prokey)
    (hprod : prokey.producerName = h.producer) (hver : s.activeSchedule.version = h.scheduleVersion)
    (hdc : s.doubleConfirmOk (u32 (s.blockNum + 1)) h.producer h.confirmed = true) :
    s.next C h true = (s.template C h.timestamp prokey).adopt C h := by
  have h0 : h.timestamp ≠ 0 := by omega
  have hprod' : (s.template C h.timestamp prokey).header.producer = h.producer := hprod
  have hver' : (s.template C h.timestamp prokey).header.scheduleVersion = h.scheduleVersion := hver
  have hdc' : s.doubleConfirmOk (s.template C h.timestamp prokey).blockNum h.producer h.confirmed =
      true := hdc
  simp only [next, generateNext_eq hlt hp, eosAssert, h0, hext, hlt, hprev, hprod', hver', hdc',
    ne_eq, not_false_eq_true, if_true, List.length_nil, bind, Except.bind, Bool.not_true,
    Bool.false_eq_true, if_false, pure, Except.pure]
  cases (s.template C h.timestamp prokey).adopt C h <;> rfl

variable [DecidableEq Key] {skip : Bool}

/-- The header of the resulting state is the accepted header, with the consensus type of
the active schedule in place of its own. -/
lemma next_header (hn : s.next C h skip = .ok r) :
    r.header = { h with consensusType := s.activeSchedule.consensusType } := by
  obtain ⟨hext, -, hprev, prokey, -, hprod, hver, -, ha⟩ := next_cases hn
  rw [(adopt_header rfl ha).1]
  simp [template, hprod, hver, ← hprev, ← hext]

lemma next_id (hn : s.next C h skip = .ok r) : r.id = r.header.toBlockHeader.id C := by
  obtain ⟨-, -, -, prokey, -, -, -, -, ha⟩ := next_cases hn
  exact (adopt_header rfl ha).2

/-- An accepted header and the header of the resulting state agree in all ten hashed
fields, and then in the id, exactly when the header carries the consensus type of the
active schedule: `next` rebuilds that field and compares it with nothing. -/
theorem next_header_eq_iff (hn : s.next C h skip = .ok r) :
    (r.header.toBlockHeader = h.toBlockHeader ∧ r.id = h.toBlockHeader.id C) ↔
      h.consensusType = s.activeSchedule.consensusType := by
  have hh := next_header hn
  constructor
  · rintro ⟨heq, -⟩
    rw [hh] at heq
    exact (congrArg BlockHeader.consensusType heq).symm
  intro hc
  have heq : r.header.toBlockHeader = h.toBlockHeader := by rw [hh, ← hc]
  refine ⟨heq, ?_⟩
  rw [next_id hn, heq]

def plainGenesis : BlockHeaderState Nat Nat :=
  genesisHeaderState plainCrypto 1 default (initialSchedule 7)

def firstHeader (ct : Int) : SignedBlockHeader Nat Nat :=
  { timestamp := 2, producer := Config.systemAccountName, confirmed := 0
    previous := plainGenesis.id, consensusType := ct, producerSignature := 7 }

theorem next_accepts_foreign_consensusType :
    ∃ r, plainGenesis.next plainCrypto (firstHeader 1) false = .ok r ∧
      ¬ (r.header.toBlockHeader = (firstHeader 1).toBlockHeader ∧
        r.id = (firstHeader 1).toBlockHeader.id plainCrypto) := by
  obtain ⟨r, hr, hne⟩ := exists_ok_of_okAnd
    (x := plainGenesis.next plainCrypto (firstHeader 1) false)
    (p := fun r => r.id ≠ (firstHeader 1).toBlockHeader.id plainCrypto) (by decide +kernel)
  exact ⟨r, hr, fun hh => of_decide_eq_true hne hh.2⟩

theorem next_header_eq_iff_firstHeader :
    ∃ r, plainGenesis.next plainCrypto (firstHeader 0) false = .ok r ∧
      ((r.header.toBlockHeader = (firstHeader 0).toBlockHeader ∧
        r.id = (firstHeader 0).toBlockHeader.id plainCrypto) ↔
        (firstHeader 0).consensusType = plainGenesis.activeSchedule.consensusType) := by
  obtain ⟨r, hr, -⟩ := exists_ok_of_okAnd
    (x := plainGenesis.next plainCrypto (firstHeader 0) false)
    (p := fun _ => true) (by decide +kernel)
  exact ⟨r, hr, next_header_eq_iff hr⟩

end DimensionChain.BlockHeaderState
