import DimensionChain.Chain.HeaderChain

/-!
# The last irreversible block along a chain

Every producer's implied value is at most the proposed irreversible block, which only moves
forward. The last irreversible block is an order statistic of the implied values: it moves
backwards exactly when more than a third of the values are stale, which a promoted schedule can
bring about by keeping producers with old values.
-/

namespace DimensionChain.BlockHeaderState

open List FlatMap

variable {Key Sig : Type}

structure Bounded (s : BlockHeaderState Key Sig) : Prop where
  implied : ∀ q v, (q, v) ∈ s.producerToLastImpliedIrb.entries →
    v ≤ s.dposProposedIrreversibleBlocknum
  tracked : s.dposProposedIrreversibleBlocknum + s.confirmCount.length ≤ s.blockNum
  irreversible : s.dposIrreversibleBlocknum ≤ s.dposProposedIrreversibleBlocknum
  slot : s.blockNum ≤ s.header.timestamp

/-- At most a third of the producers, the one of the next header apart, imply a block below
the last irreversible one. -/
def FewStale (s : BlockHeaderState Key Sig) (producer : AccountName) : Prop :=
  s.producerToLastImpliedIrb.entries.countP
      (fun e => decide (e.2 < s.dposIrreversibleBlocknum) && decide (e.1 ≠ producer)) ≤
    ((s.producerToLastImpliedIrb.set producer s.dposProposedIrreversibleBlocknum).size - 1) / 3

lemma confirmBack_length (es : List Nat) (n j0 : Nat) :
    (confirmBack es n j0).1.length ≤ es.length := by
  induction es generalizing n j0 with
  | nil => simp [confirmBack]
  | cons e es ih =>
    cases n with
    | zero => simp [confirmBack]
    | succ n =>
      by_cases hz : (e + 255) % 256 = 0
      · simp [confirmBack, hz]
      · have hle := ih n (j0 + 1)
        simp only [confirmBack, hz, if_false, length_cons]
        omega

lemma confirmBack_length_of_hit {es : List Nat} {n j0 j : Nat}
    (h : (confirmBack es n j0).2 = some j) :
    j0 + (confirmBack es n j0).1.length = j ∧ j < j0 + es.length := by
  induction es generalizing n j0 with
  | nil => simp [confirmBack] at h
  | cons e es ih =>
    cases n with
    | zero => simp [confirmBack] at h
    | succ n =>
      by_cases hz : (e + 255) % 256 = 0
      · have hj : j0 = j := by simpa [confirmBack, hz] using h
        simp [confirmBack, hz, hj]
      · simp only [confirmBack, hz, if_false, length_cons] at h ⊢
        obtain ⟨hlen, hlt⟩ := ih h
        omega

lemma growConfirmCount_length (s : BlockHeaderState Key Sig) :
    s.growConfirmCount.length ≤ s.confirmCount.length + 1 := by
  unfold growConfirmCount
  split
  · simp
  · rw [length_append, length_drop, length_singleton]
    omega

lemma setConfirmed_proposed {g : BlockHeaderState Key Sig} {n : Nat} (hlt : g.blockNum < 4294967296)
    (htracked : g.dposProposedIrreversibleBlocknum + g.confirmCount.length ≤ g.blockNum) :
    g.dposProposedIrreversibleBlocknum ≤ (g.setConfirmed n).dposProposedIrreversibleBlocknum ∧
      (g.setConfirmed n).dposProposedIrreversibleBlocknum +
        (g.setConfirmed n).confirmCount.length ≤ g.blockNum := by
  have hlen := confirmBack_length g.confirmCount.reverse (n + 1) 0
  rw [length_reverse] at hlen
  unfold setConfirmed zeroedBlock
  dsimp only
  rw [length_reverse]
  cases hz : (confirmBack g.confirmCount.reverse (n + 1) 0).2 with
  | none =>
    simp only [Option.map_none, Option.getD_none]
    omega
  | some j =>
    obtain ⟨hj, hjlt⟩ := confirmBack_length_of_hit hz
    rw [length_reverse] at hjlt
    simp only [Option.map_some, Option.getD_some]
    rw [sub32_eq (by omega) hlt]
    omega

lemma bounded_genesis [Inhabited Key] [Inhabited Sig] (C : Crypto Key Sig)
    {initialTimestamp : Nat} (hts : 0 < initialTimestamp) (chainId : Digest)
    (sch : ProducerSchedule Key) :
    Bounded (genesisHeaderState C initialTimestamp chainId sch : BlockHeaderState Key Sig) where
  implied := by
    intro q v h
    simp [genesisHeaderState, empty] at h
  tracked := Nat.zero_le _
  irreversible := Nat.le_refl 0
  slot := by
    have hone : (genesisHeaderState C initialTimestamp chainId sch :
        BlockHeaderState Key Sig).blockNum = 1 := by
      have hnum : u32 (numFromId default + 1) = 1 := by decide +kernel
      exact hnum
    rw [hone]
    exact hts

variable [Inhabited Sig]

section Template
variable (C : Crypto Key Sig) {s : BlockHeaderState Key Sig} (slot : Nat) (prokey : ProducerKey Key)

lemma template_implied_pos (s : BlockHeaderState Key Sig) :
    (s.template C slot prokey).producerToLastImpliedIrb.values.length ≠ 0 := by
  have hmem : (prokey.producerName, s.dposProposedIrreversibleBlocknum) ∈
      (s.template C slot prokey).producerToLastImpliedIrb.entries :=
    (FlatMap.mem_set _).mpr (.inl rfl)
  have hpos := length_pos_of_mem hmem
  rw [FlatMap.values, length_map]
  omega

lemma template_irreversible (s : BlockHeaderState Key Sig) :
    (s.template C slot prokey).dposIrreversibleBlocknum =
      OrderStatistic.nthSmallest (s.template C slot prokey).producerToLastImpliedIrb.values
        (((s.template C slot prokey).producerToLastImpliedIrb.values.length - 1) / 3) 0 := by
  have hpos := template_implied_pos C slot prokey s
  change calcDposLastIrreversible _ = _
  unfold calcDposLastIrreversible
  exact if_neg hpos

lemma template_implied_le (hs : Bounded s) {q : AccountName} {v : Nat}
    (h : (q, v) ∈ (s.template C slot prokey).producerToLastImpliedIrb.entries) :
    v ≤ s.dposProposedIrreversibleBlocknum := by
  rcases (FlatMap.mem_set _).mp h with heq | ⟨hmem, -⟩
  · exact le_of_eq (congrArg Prod.snd heq)
  · exact hs.implied q v hmem

lemma template_irreversible_le (hs : Bounded s) :
    (s.template C slot prokey).dposIrreversibleBlocknum ≤ s.dposProposedIrreversibleBlocknum := by
  have hpos := template_implied_pos C slot prokey s
  rw [template_irreversible]
  obtain ⟨e, he, hv⟩ := mem_map.mp (OrderStatistic.nthSmallest_mem
    (l := (s.template C slot prokey).producerToLastImpliedIrb.values)
    (k := ((s.template C slot prokey).producerToLastImpliedIrb.values.length - 1) / 3)
    (by omega) 0)
  rw [← hv]
  exact template_implied_le C slot prokey hs (q := e.1) he

lemma le_template_irreversible_iff (hs : Bounded s) :
    s.dposIrreversibleBlocknum ≤ (s.template C slot prokey).dposIrreversibleBlocknum ↔
      FewStale s prokey.producerName := by
  have hpos := template_implied_pos C slot prokey s
  have hown : ¬ s.dposProposedIrreversibleBlocknum < s.dposIrreversibleBlocknum :=
    not_lt.mpr hs.irreversible
  rw [template_irreversible, OrderStatistic.le_nthSmallest_iff (by omega)]
  have hcount : (s.template C slot prokey).producerToLastImpliedIrb.values.countP
      (fun a => decide (a < s.dposIrreversibleBlocknum)) =
      s.producerToLastImpliedIrb.entries.countP
        (fun e => decide (e.2 < s.dposIrreversibleBlocknum) &&
          decide (e.1 ≠ prokey.producerName)) := by
    rw [values, countP_map]
    have hset := countP_set s.producerToLastImpliedIrb prokey.producerName
      s.dposProposedIrreversibleBlocknum (fun e => decide (e.2 < s.dposIrreversibleBlocknum))
    simp only [hown, decide_false, Bool.false_eq_true, if_false, Nat.add_zero] at hset
    exact hset
  have hsize : (s.template C slot prokey).producerToLastImpliedIrb.values.length =
      (s.producerToLastImpliedIrb.set prokey.producerName
        s.dposProposedIrreversibleBlocknum).size := by
    rw [values, length_map]
    rfl
  rw [hcount, hsize]
  rfl

end Template

variable [DecidableEq Key]

section Step
variable {C : Crypto Key Sig} {s r : BlockHeaderState Key Sig} {h : SignedBlockHeader Key Sig}
  {skip : Bool}

lemma next_bounded (hs : Bounded s) (hn : s.next C h skip = .ok r)
    (hslot : h.timestamp < 4294967296) :
    Bounded r ∧ s.dposProposedIrreversibleBlocknum ≤ r.dposProposedIrreversibleBlocknum ∧
      (s.dposIrreversibleBlocknum ≤ r.dposIrreversibleBlocknum ↔ FewStale s h.producer) := by
  obtain ⟨-, hlater, -⟩ := next_cases hn
  obtain ⟨prokey, -, hprod, -, hsame⟩ := next_template hn
  have hsnum := hs.slot
  have hnum : s.blockNum + 1 < 4294967296 := by omega
  have hgnum : (s.template C h.timestamp prokey).blockNum = s.blockNum + 1 := u32_eq hnum
  have hgrown := growConfirmCount_length s
  have htracked := hs.tracked
  obtain ⟨hmono, htracked'⟩ := setConfirmed_proposed (g := s.template C h.timestamp prokey)
    (n := h.confirmed) (by omega) (by
      change s.dposProposedIrreversibleBlocknum + s.growConfirmCount.length ≤ _
      omega)
  obtain ⟨hpnum, hpprop, hpirr, hpcount⟩ := maybePromotePending_numbers
    ((s.template C h.timestamp prokey).setConfirmed h.confirmed)
  have hprop : r.dposProposedIrreversibleBlocknum =
      ((s.template C h.timestamp prokey).setConfirmed
        h.confirmed).dposProposedIrreversibleBlocknum := hsame.proposed.trans hpprop
  have hirr : r.dposIrreversibleBlocknum =
      (s.template C h.timestamp prokey).dposIrreversibleBlocknum := hsame.irreversible.trans hpirr
  have hup : s.dposProposedIrreversibleBlocknum ≤ r.dposProposedIrreversibleBlocknum := by
    rw [hprop]
    exact hmono
  have hlib : r.dposIrreversibleBlocknum ≤ s.dposProposedIrreversibleBlocknum := by
    rw [hirr]
    exact template_irreversible_le C h.timestamp prokey hs
  refine ⟨⟨?_, ?_, le_trans hlib hup, ?_⟩, hup, ?_⟩
  · intro q v hv
    apply le_trans _ hup
    rw [hsame.implied] at hv
    unfold afterPromotion at hv
    rcases maybePromotePending_cases ((s.template C h.timestamp prokey).setConfirmed h.confirmed)
      with ⟨-, hm⟩ | ⟨-, -, -, -, -, hmap⟩
    · rw [hm] at hv
      exact template_implied_le C h.timestamp prokey hs hv
    rw [hmap] at hv
    rcases mem_reselect hv with hold | rfl
    · exact template_implied_le C h.timestamp prokey hs hold
    · exact template_irreversible_le C h.timestamp prokey hs
  · rw [hprop, hsame.confirmCount, hsame.blockNum]
    unfold afterPromotion
    rw [hpcount, hpnum]
    exact htracked'
  · rw [next_blockNum hn, next_header hn, u32_eq hnum]
    change s.blockNum + 1 ≤ h.timestamp
    omega
  · rw [hirr, ← hprod]
    exact le_template_irreversible_iff C h.timestamp prokey hs

end Step

section Chain
variable [Inhabited Key] {C : Crypto Key Sig} {initialTimestamp : Nat} {chainId : Digest}
  {sch : ProducerSchedule Key} {s r : BlockHeaderState Key Sig} {h : SignedBlockHeader Key Sig}
  {skip : Bool}

lemma bounded_of_reach (hts : 0 < initialTimestamp)
    (hreach : Relation.ReflTransGen (Accepts C fun _ h => h.timestamp < 4294967296)
      (genesisHeaderState C initialTimestamp chainId sch) s) : Bounded s := by
  induction hreach with
  | refl => exact bounded_genesis C hts chainId sch
  | tail _ hstep ih =>
    obtain ⟨h, skip, hn, hslot⟩ := hstep
    exact (next_bounded ih hn hslot).1

/-- From every state reached from genesis by headers with 32-bit slots, an accepted header
moves neither irreversible number backwards and keeps them in order below the block number
exactly when few producers of the state are stale. -/
theorem irreversible_monotone_iff (hts : 0 < initialTimestamp)
    (hreach : Relation.ReflTransGen (Accepts C fun _ h => h.timestamp < 4294967296)
      (genesisHeaderState C initialTimestamp chainId sch) s)
    (hn : s.next C h skip = .ok r) (hslot : h.timestamp < 4294967296) :
    (s.dposIrreversibleBlocknum ≤ r.dposIrreversibleBlocknum ∧
      s.dposProposedIrreversibleBlocknum ≤ r.dposProposedIrreversibleBlocknum ∧
      r.dposIrreversibleBlocknum ≤ r.dposProposedIrreversibleBlocknum ∧
      r.dposProposedIrreversibleBlocknum ≤ r.blockNum) ↔ FewStale s h.producer := by
  obtain ⟨hr, hup, hiff⟩ := next_bounded (bounded_of_reach hts hreach) hn hslot
  have htracked := hr.tracked
  constructor
  · intro hall
    exact hiff.mp hall.1
  · intro hfew
    refine ⟨hiff.mpr hfew, hup, hr.irreversible, ?_⟩
    omega

end Chain

/-- The four producers, and then `A` and `B` alone, as pending schedules of a chain. -/
def shrinkingPlans : List Plan :=
  [⟨2, 0, none⟩, ⟨3, 0, some { version := 1, producers := [⟨1, 1⟩, ⟨2, 2⟩, ⟨3, 3⟩, ⟨4, 4⟩] }⟩,
    ⟨4, 0, none⟩, ⟨60, 0, some { version := 2, producers := [⟨1, 1⟩, ⟨2, 2⟩] }⟩, ⟨72, 1, none⟩,
    ⟨84, 2, none⟩, ⟨108, 2, none⟩, ⟨120, 2, none⟩, ⟨132, 2, none⟩]

def shrunk : BlockHeaderState Nat Nat :=
  (plainGenesis.build shrinkingPlans).getLast?.getD plainGenesis

lemma shrunk_reachable :
    Relation.ReflTransGen (Accepts plainCrypto fun _ h => h.timestamp < 4294967296)
      (genesisHeaderState plainCrypto 1 default (initialSchedule 7)) shrunk :=
  (trace_of_builds (fun _ h => decide (h.timestamp < 4294967296))
    (fun _ _ ht => of_decide_eq_true ht) plainGenesis shrinkingPlans (by decide +kernel)).reach

/-- `A` is kept with the value of block 4, and the block of `B` takes the last irreversible
block from 5 back to 3. -/
theorem irreversible_moves_backwards :
    ∃ s r h, Relation.ReflTransGen (Accepts plainCrypto fun _ h => h.timestamp < 4294967296)
        (genesisHeaderState plainCrypto 1 default (initialSchedule 7)) s ∧
      s.next plainCrypto h false = .ok r ∧
      s.dposIrreversibleBlocknum = 5 ∧ r.dposIrreversibleBlocknum = 3 := by
  obtain ⟨r, hr, hlib⟩ := exists_ok_of_okAnd
    (x := shrunk.next plainCrypto (shrunk.headerOn ⟨156, 0, none⟩) false)
    (p := fun r => r.dposIrreversibleBlocknum = 3) (by decide +kernel)
  exact ⟨shrunk, r, _, shrunk_reachable, hr, by decide +kernel, of_decide_eq_true hlib⟩

theorem irreversible_monotone_iff_shrunk :
    ∃ r, shrunk.next plainCrypto (shrunk.headerOn ⟨144, 0, none⟩) false = .ok r ∧
      ((shrunk.dposIrreversibleBlocknum ≤ r.dposIrreversibleBlocknum ∧
        shrunk.dposProposedIrreversibleBlocknum ≤ r.dposProposedIrreversibleBlocknum ∧
        r.dposIrreversibleBlocknum ≤ r.dposProposedIrreversibleBlocknum ∧
        r.dposProposedIrreversibleBlocknum ≤ r.blockNum) ↔
        FewStale shrunk (shrunk.headerOn ⟨144, 0, none⟩).producer) := by
  obtain ⟨r, hr, -⟩ := exists_ok_of_okAnd
    (x := shrunk.next plainCrypto (shrunk.headerOn ⟨144, 0, none⟩) false)
    (p := fun _ => true) (by decide +kernel)
  exact ⟨r, hr, irreversible_monotone_iff (by decide) shrunk_reachable hr (by decide)⟩

end DimensionChain.BlockHeaderState
