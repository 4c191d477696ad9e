import DimensionChain.Chain.HeaderChain

/-!
# Counting confirmations

A counter starts at the threshold of the schedule and every block takes one from the counters of
the range it confirms. As long as the double-confirm test cannot wrap, a counter is its threshold
less the number of distinct producers that have confirmed its block. Two counters of one height
that both reach zero then share a producer whenever the threshold is a majority.
-/

namespace DimensionChain

open List ProducerSchedule

/-- The confirmations that a byte counter asks for: the threshold, up to 256. -/
def ProducerSchedule.effectiveConfs {Key : Type} (s : ProducerSchedule Key) : Nat :=
  (s.requiredConfs + 255) % 256 + 1

def ProducerSchedule.Majority {Key : Type} (s : ProducerSchedule Key) : Prop :=
  s.producers.length < 2 * s.effectiveConfs

instance {Key : Type} (s : ProducerSchedule Key) : Decidable s.Majority :=
  inferInstanceAs (Decidable (_ < _))

variable {Key : Type} {s : ProducerSchedule Key}

lemma ProducerSchedule.requiredConfs_pos (s : ProducerSchedule Key) : 0 < s.requiredConfs := by
  unfold requiredConfs
  split_ifs <;> omega

lemma ProducerSchedule.effectiveConfs_eq
    (h : s.requiredConfs ≤ 256) : s.effectiveConfs = s.requiredConfs := by
  have hpos := s.requiredConfs_pos
  unfold effectiveConfs
  omega

/-- Two thirds and one half are majorities; one third is one for one or three producers. -/
lemma ProducerSchedule.majority_iff
    (hpos : s.producers ≠ []) (hmax : s.producers.length ≤ Config.maxProducers)
    (htype : s.consensusType = 0 ∨ s.consensusType = 1 ∨ s.consensusType = 2) :
    s.Majority ↔ s.consensusType ≠ 2 ∨ s.producers.length = 1 ∨ s.producers.length = 3 := by
  have hlen : 0 < s.producers.length := length_pos_of_ne_nil hpos
  unfold Config.maxProducers at hmax
  unfold Majority
  rcases htype with h | h | h
  · have hr : s.requiredConfs = s.producers.length * 2 / 3 + 1 := by simp [requiredConfs, h]
    have heff := effectiveConfs_eq (s := s) (by omega)
    omega
  · have hr : s.requiredConfs = s.producers.length / 2 + 1 := by simp [requiredConfs, h]
    have heff := effectiveConfs_eq (s := s) (by omega)
    omega
  · have hr : s.requiredConfs = s.producers.length / 3 + 1 := by simp [requiredConfs, h]
    have heff := effectiveConfs_eq (s := s) (by omega)
    omega

namespace BlockHeaderState
variable {Sig : Type} {es : List Nat} {i e : Nat}

lemma confirmBack_get {n j0 i e' : Nat} (h : (confirmBack es n j0).1[i]? = some e') :
    ∃ e, es[i]? = some e ∧ ((i < n ∧ e' = (e + 255) % 256 ∧ e' ≠ 0) ∨ (n ≤ i ∧ e' = e)) := by
  induction es generalizing n j0 i with
  | nil => simp [confirmBack] at h
  | cons e es ih =>
    cases n with
    | zero => exact ⟨e', by simpa [confirmBack] using h, .inr ⟨Nat.zero_le i, rfl⟩⟩
    | succ n =>
      by_cases hz : (e + 255) % 256 = 0
      · simp [confirmBack, hz] at h
      simp only [confirmBack, hz, if_false] at h
      cases i with
      | zero =>
        have he : (e + 255) % 256 = e' := by simpa using h
        exact ⟨e, rfl, .inl ⟨Nat.succ_pos n, he.symm, he ▸ hz⟩⟩
      | succ i =>
        obtain ⟨f, hf, hcase⟩ := ih (by simpa using h)
        refine ⟨f, by simpa using hf, ?_⟩
        rcases hcase with ⟨hi, heq⟩ | ⟨hi, heq⟩
        · exact .inl ⟨by omega, heq⟩
        · exact .inr ⟨by omega, heq⟩

lemma confirmBack_hit {n j0 j : Nat} (h : (confirmBack es n j0).2 = some j) :
    ∃ i e, j = j0 + i ∧ i < n ∧ es[i]? = some e ∧ (e + 255) % 256 = 0 := by
  induction es generalizing n j0 with
  | nil => simp [confirmBack] at h
  | cons e es ih =>
    cases n with
    | zero => simp [confirmBack] at h
    | succ n =>
      by_cases hz : (e + 255) % 256 = 0
      · have hj : j0 = j := by simpa [confirmBack, hz] using h
        exact ⟨0, e, by omega, Nat.succ_pos n, rfl, hz⟩
      · simp only [confirmBack, hz, if_false] at h
        obtain ⟨i, f, hj, hi, hf, hfz⟩ := ih h
        exact ⟨i + 1, f, by omega, by omega, by simpa using hf, hfz⟩

lemma growConfirmCount_get {t : BlockHeaderState Key Sig}
    (h : t.growConfirmCount.reverse[i]? = some e) :
    (i = 0 ∧ e = t.activeSchedule.requiredConfs % 256) ∨
      (∃ j, i = j + 1 ∧ t.confirmCount.reverse[j]? = some e) := by
  have hsub : ∃ l, t.growConfirmCount.reverse = t.activeSchedule.requiredConfs % 256 :: l ∧
      l.IsPrefix t.confirmCount.reverse := by
    unfold growConfirmCount
    split
    · exact ⟨t.confirmCount.reverse, by simp, prefix_rfl⟩
    · refine ⟨(t.confirmCount.drop 1).reverse, by simp, ?_⟩
      rw [List.reverse_prefix]
      exact drop_suffix 1 _
  obtain ⟨l, hl, hpre⟩ := hsub
  rw [hl] at h
  cases i with
  | zero => exact .inl ⟨rfl, by simpa [eq_comm] using h⟩
  | succ j =>
    refine .inr ⟨j, rfl, ?_⟩
    have hj : l[j]? = some e := by simpa using h
    obtain ⟨rest, hrest⟩ := hpre
    rw [← hrest, List.getElem?_append_left (List.getElem?_eq_some_iff.mp hj).1]
    exact hj

def Confirms (b : BlockHeaderState Key Sig) (k : Nat) : Prop :=
  (b.blockNum : Int) - b.header.confirmed ≤ k ∧ k ≤ b.blockNum

instance (b : BlockHeaderState Key Sig) (k : Nat) : Decidable (Confirms b k) :=
  inferInstanceAs (Decidable (_ ∧ _))

def confirmers (bs : List (BlockHeaderState Key Sig)) (k : Nat) : Finset AccountName :=
  ((bs.filter fun b => Confirms b k).map fun b => b.header.producer).toFinset

variable {bs : List (BlockHeaderState Key Sig)} {k : Nat} {s t : BlockHeaderState Key Sig}
  {r : BlockHeaderState Key Sig}

lemma mem_confirmers {p : AccountName} :
    p ∈ confirmers bs k ↔ ∃ b ∈ bs, Confirms b k ∧ b.header.producer = p := by
  simp [confirmers, and_assoc]

lemma confirmers_snoc_of_not (h : ¬ Confirms r k) : confirmers (bs ++ [r]) k = confirmers bs k := by
  simp [confirmers, filter_append, h]

lemma card_confirmers_snoc (h : Confirms r k) (hnew : r.header.producer ∉ confirmers bs k) :
    (confirmers (bs ++ [r]) k).card = (confirmers bs k).card + 1 := by
  have hins : confirmers (bs ++ [r]) k = insert r.header.producer (confirmers bs k) := by
    ext p
    simp only [mem_confirmers, mem_append, mem_singleton, Finset.mem_insert]
    constructor
    · rintro ⟨b, hb | rfl, hc, hp⟩
      · exact .inr ⟨b, hb, hc, hp⟩
      · exact .inl hp.symm
    · rintro (rfl | ⟨b, hb, hc, hp⟩)
      · exact ⟨r, .inr rfl, h, rfl⟩
      · exact ⟨b, .inl hb, hc, hp⟩
  rw [hins, Finset.card_insert_of_notMem hnew]

/-- The condition under which a header counts its producer once for every block it
confirms: a producer already in the map does not confirm below block 0, where the
unsigned difference wraps, and the block number itself does not wrap. -/
def CountsOnce (t : BlockHeaderState Key Sig) (h : SignedBlockHeader Key Sig) : Prop :=
  t.blockNum + 1 < 4294967296 ∧
    (t.producerToLastProduced.find? h.producer ≠ none → h.confirmed ≤ t.blockNum + 1)

/-- The counters of the blocks after `s` are the threshold less the distinct confirmers, and
the map knows every producer of these blocks at or after its blocks. -/
structure Counted (s : BlockHeaderState Key Sig) (bs : List (BlockHeaderState Key Sig))
    (t : BlockHeaderState Key Sig) : Prop where
  num : t.blockNum = s.blockNum + bs.length
  active : t.activeSchedule = s.activeSchedule
  counters : ∀ j e, j < bs.length → t.confirmCount.reverse[j]? = some e →
    0 < e ∧ e < 256 ∧
      e + (confirmers bs (t.blockNum - j)).card = s.activeSchedule.effectiveConfs
  older : ∀ j e, bs.length ≤ j → t.confirmCount.reverse[j]? = some e →
    ∃ e0, s.confirmCount.reverse[j - bs.length]? = some e0
  known : ∀ b ∈ bs, ∃ last, t.producerToLastProduced.find? b.header.producer = some last ∧
    b.blockNum ≤ last
  below : ∀ b ∈ bs, b.blockNum ≤ t.blockNum
  scheduled : ∀ b ∈ bs, b.header.producer ∈ s.activeSchedule.names

lemma counted_nil (s : BlockHeaderState Key Sig) : Counted s [] s where
  num := rfl
  active := rfl
  counters := by intro j e hj; simp at hj
  older := by intro j e _ he; exact ⟨e, he⟩
  known := by intro b hb; simp at hb
  below := by intro b hb; simp at hb
  scheduled := by intro b hb; simp at hb

lemma grown_counter (hc : Counted s bs t) (hi : i < bs.length + 1)
    (he : t.growConfirmCount.reverse[i]? = some e) :
    (e + 255) % 256 + 1 + (confirmers bs (t.blockNum + 1 - i)).card =
      s.activeSchedule.effectiveConfs := by
  rcases growConfirmCount_get he with ⟨rfl, rfl⟩ | ⟨j, rfl, hj⟩
  · have hnone : confirmers bs (t.blockNum + 1 - 0) = ∅ := by
      rw [Finset.eq_empty_iff_forall_notMem]
      intro p hp
      obtain ⟨b, hb, hbk, -⟩ := mem_confirmers.mp hp
      have hle := hc.below b hb
      have hnew := hbk.2
      omega
    rw [hnone, Finset.card_empty, ← hc.active]
    unfold effectiveConfs
    omega
  obtain ⟨hpos, hlt, hsum⟩ := hc.counters j e (by omega) hj
  have hk : t.blockNum + 1 - (j + 1) = t.blockNum - j := by omega
  rw [hk]
  omega

section Step
variable [Inhabited Sig] [DecidableEq Key] {C : Crypto Key Sig} {h : SignedBlockHeader Key Sig}
  {skip : Bool}

lemma producer_not_confirmer (hc : Counted s bs t) (hn : t.next C h skip = .ok r)
    (honce : CountsOnce t h) (hk : Confirms r k) : r.header.producer ∉ confirmers bs k := by
  intro hmem
  obtain ⟨b, hb, hbk, hp⟩ := mem_confirmers.mp hmem
  obtain ⟨last, hlast, hle⟩ := hc.known b hb
  rw [hp, next_producer hn] at hlast
  obtain ⟨-, -, -, hdc, -⟩ := next_template hn
  have hnum := next_blockNum hn
  rw [u32_eq honce.1] at hnum hdc
  have hrange := honce.2 (by simp [hlast])
  unfold doubleConfirmOk at hdc
  rw [hlast, sub32_eq hrange honce.1] at hdc
  have hdc' : last < t.blockNum + 1 - h.confirmed := by simpa using hdc
  obtain ⟨hk1, -⟩ := hk
  obtain ⟨-, hbk2⟩ := hbk
  rw [hnum, next_confirmed hn] at hk1
  omega

lemma confirms_iff (hn : t.next C h skip = .ok r) (hnum : t.blockNum + 1 < 4294967296) {i : Nat}
    (hi : i ≤ t.blockNum + 1) : Confirms r (t.blockNum + 1 - i) ↔ i < h.confirmed + 1 := by
  unfold Confirms
  rw [next_blockNum hn, next_confirmed hn, u32_eq hnum]
  omega

lemma counted_snoc (hc : Counted s bs t) (hn : t.next C h skip = .ok r)
    (honce : CountsOnce t h) (hsame : r.activeSchedule = s.activeSchedule) :
    Counted s (bs ++ [r]) r := by
  have hnum : r.blockNum = t.blockNum + 1 := by rw [next_blockNum hn, u32_eq honce.1]
  have hst : r.activeSchedule = t.activeSchedule := hsame.trans hc.active.symm
  have hprod : h.producer ∈ t.activeSchedule.names := next_producer_mem hn
  have hnames : t.activeSchedule.names = s.activeSchedule.names := by rw [hc.active]
  have hlen := hc.num
  refine ⟨?_, hsame, ?_, ?_, ?_, ?_, ?_⟩
  · rw [hnum, length_append, length_singleton]
    omega
  · intro i e' hi he'
    rw [length_append, length_singleton] at hi
    rw [next_confirmCount hn, reverse_reverse] at he'
    obtain ⟨e, he, hcase⟩ := confirmBack_get he'
    have hsum := grown_counter hc hi he
    have hconf := confirms_iff hn honce.1 (i := i) (by omega)
    rw [hnum]
    rcases hcase with ⟨hin, heq, hne⟩ | ⟨hout, rfl⟩
    · have hk := hconf.mpr hin
      rw [card_confirmers_snoc hk (producer_not_confirmer hc hn honce hk)]
      omega
    have hk : ¬ Confirms r (t.blockNum + 1 - i) := fun hk => by
      have := hconf.mp hk
      omega
    rw [confirmers_snoc_of_not hk]
    -- the newest counter is always confirmed, so this one comes from the state
    rcases growConfirmCount_get he with ⟨rfl, -⟩ | ⟨j, rfl, hj⟩
    · omega
    · obtain ⟨hpos, hlt, -⟩ := hc.counters j e' (by omega) hj
      omega
  · intro i e' hi he'
    rw [length_append, length_singleton] at hi ⊢
    rw [next_confirmCount hn, reverse_reverse] at he'
    obtain ⟨e, he, -⟩ := confirmBack_get he'
    rcases growConfirmCount_get he with ⟨rfl, -⟩ | ⟨j, rfl, hj⟩
    · omega
    · obtain ⟨e0, he0⟩ := hc.older j e (by omega) hj
      have hidx : j + 1 - (bs.length + 1) = j - bs.length := by omega
      exact ⟨e0, by rw [hidx]; exact he0⟩
  · intro b hb
    rcases mem_append.mp hb with hb | hb
    · obtain ⟨last, hlast, hle⟩ := hc.known b hb
      refine ⟨_, next_lastProduced hn hst (hnames ▸ hc.scheduled b hb) (.inl hlast), ?_⟩
      have hbelow := hc.below b hb
      rw [u32_eq honce.1]
      split <;> omega
    have hbr : b = r := by simpa using hb
    subst hbr
    rw [next_producer hn]
    refine ⟨_, next_lastProduced (v := 0) hn hst hprod (.inr rfl), ?_⟩
    rw [if_pos rfl, u32_eq honce.1, hnum]
  · intro b hb
    rcases mem_append.mp hb with hb | hb
    · have hle := hc.below b hb
      omega
    · have hbr : b = r := by simpa using hb
      rw [hbr]
  intro b hb
  rcases mem_append.mp hb with hb | hb
  · exact hc.scheduled b hb
  · have hbr : b = r := by simpa using hb
    rw [hbr, next_producer hn, ← hnames]
    exact hprod

end Step

def counterOf (t : BlockHeaderState Key Sig) (k : Nat) : Option Nat :=
  t.confirmCount.reverse[t.blockNum - k]?

variable [Inhabited Sig] [DecidableEq Key]

lemma counted_of_trace {C : Crypto Key Sig}
    {bs : List (BlockHeaderState Key Sig)} (h : Trace (Accepts C CountsOnce) s bs t)
    (hfix : ∀ b ∈ bs, b.activeSchedule = s.activeSchedule) : Counted s bs t := by
  induction h with
  | nil => exact counted_nil _
  | snoc _ hstep ih =>
    obtain ⟨h, skip, hn, honce⟩ := hstep
    refine counted_snoc (ih fun b hb => hfix b (by simp [hb])) hn honce (hfix _ (by simp))

/-- Along every chain of accepted headers that count once, under one active schedule whose
threshold fits its byte, the counter of a block added on the chain is the threshold less the
number of distinct producers that confirmed the block; a chain that starts without counters
has no others. -/
theorem counter_eq_required_sub_confirmers {C : Crypto Key Sig} {s t : BlockHeaderState Key Sig}
    {bs : List (BlockHeaderState Key Sig)} (h : Trace (Accepts C CountsOnce) s bs t)
    (hfix : ∀ b ∈ bs, b.activeSchedule = s.activeSchedule)
    (hreq : s.activeSchedule.requiredConfs ≤ 256) {k e : Nat} (hk : k ≤ t.blockNum)
    (he : t.counterOf k = some e) : (s.blockNum < k →
      (e : Int) = s.activeSchedule.requiredConfs - (confirmers bs k).card ∧ 0 < e) ∧
    (s.confirmCount = [] → s.blockNum < k) := by
  have hc := counted_of_trace h hfix
  have hnum := hc.num
  constructor
  · intro hnew
    obtain ⟨hpos, -, hsum⟩ := hc.counters (t.blockNum - k) e (by omega) he
    have hback : t.blockNum - (t.blockNum - k) = k := by omega
    rw [hback, effectiveConfs_eq hreq] at hsum
    exact ⟨by omega, hpos⟩
  intro hempty
  by_contra hle
  obtain ⟨e0, he0⟩ := hc.older (t.blockNum - k) e (by omega) he
  rw [hempty] at he0
  simp at he0

def fourProducers : ProducerSchedule Nat :=
  { version := 1, producers := [⟨1, 1⟩, ⟨2, 2⟩, ⟨3, 3⟩, ⟨4, 4⟩] }

def installing (sch : ProducerSchedule Nat) : List (BlockHeaderState Nat Nat) :=
  plainGenesis.build [⟨2, 0, none⟩, ⟨3, 0, some sch⟩, ⟨4, 0, none⟩]

def installed (sch : ProducerSchedule Nat) : BlockHeaderState Nat Nat :=
  (installing sch).getLast?.getD plainGenesis

theorem counter_eq_required_sub_confirmers_installed :
    ∃ t e, Trace (Accepts plainCrypto CountsOnce) (installed fourProducers)
        ((installed fourProducers).build [⟨48, 0, none⟩, ⟨60, 1, none⟩]) t ∧
      t.counterOf 5 = some e ∧ ((installed fourProducers).blockNum < 5 →
        (e : Int) = (installed fourProducers).activeSchedule.requiredConfs -
          (confirmers ((installed fourProducers).build [⟨48, 0, none⟩, ⟨60, 1, none⟩]) 5).card ∧
        0 < e) := by
  have htrace := trace_of_builds (P := CountsOnce)
    (fun t h => decide (t.blockNum + 1 < 4294967296) && decide (h.confirmed ≤ t.blockNum + 1))
    (fun t h ht => by
      simp only [Bool.and_eq_true, decide_eq_true_eq] at ht
      exact ⟨ht.1, fun _ => ht.2⟩)
    (installed fourProducers) [⟨48, 0, none⟩, ⟨60, 1, none⟩] (by decide +kernel)
  have hfive : (((installed fourProducers).build [⟨48, 0, none⟩, ⟨60, 1, none⟩]).getLast?.getD
      (installed fourProducers)).counterOf 5 = some 1 := by decide +kernel
  exact ⟨_, 1, htrace, hfive,
    (counter_eq_required_sub_confirmers htrace (by decide +kernel) (by decide +kernel)
      (by decide +kernel) hfive).1⟩

/-- On the chain from genesis, `A` builds block 5 and then block 6 with seven confirmations:
the unsigned difference wraps, the double-confirm test passes, and `A` is counted twice for
block 5. -/
theorem counter_counts_twice : ∃ t bs, Trace (Accepts plainCrypto fun _ _ => True) plainGenesis
        (installing fourProducers ++ bs) t ∧
      bs = (installed fourProducers).build [⟨48, 0, none⟩, ⟨49, 7, none⟩] ∧
      (∀ b ∈ bs, b.activeSchedule = fourProducers) ∧ fourProducers.names.Nodup ∧
      t.counterOf 5 = some 1 ∧ (1 : Int) ≠ fourProducers.requiredConfs -
        (confirmers (installing fourProducers ++ bs) 5).card := by
  have htrace := trace_of_builds (P := fun _ _ => True) (fun _ _ => true)
    (fun _ _ _ => trivial) plainGenesis
    [⟨2, 0, none⟩, ⟨3, 0, some fourProducers⟩, ⟨4, 0, none⟩, ⟨48, 0, none⟩, ⟨49, 7, none⟩]
    (by decide +kernel)
  refine ⟨_, _, htrace, rfl, ?_, ?_, ?_, ?_⟩ <;> decide +kernel

/-- On the chain `bs` from `s`, some header brings the counter of block `k` to zero. -/
def BringsToZero (C : Crypto Key Sig) (s : BlockHeaderState Key Sig)
    (bs : List (BlockHeaderState Key Sig)) (k : Nat) : Prop :=
  ∃ before r after h skip g, bs = before ++ r :: after ∧
    (before.getLast?.getD s).next C h skip = .ok r ∧
    (before.getLast?.getD s).generateNext C h.timestamp = .ok g ∧
    g.zeroedBlock h.confirmed = some k

/-- Plain headers: no new schedule, and fewer confirmations than the block's own number. -/
def Plain (b : BlockHeaderState Key Sig) : Prop :=
  b.header.newProducers = none ∧ b.header.confirmed < b.blockNum

instance (b : BlockHeaderState Key Sig) : Decidable (Plain b) :=
  inferInstanceAs (Decidable (_ ∧ _))

variable {C : Crypto Key Sig} {h : SignedBlockHeader Key Sig} {skip : Bool}

lemma countsOnce_of_plain (hn : t.next C h skip = .ok r) (hr : Plain r)
    (ht : t.blockNum < 4294967296) : CountsOnce t h := by
  obtain ⟨-, hconf⟩ := hr
  rw [next_confirmed hn, next_blockNum hn] at hconf
  have hnum : t.blockNum + 1 < 4294967296 := by
    unfold u32 at hconf
    omega
  rw [u32_eq hnum] at hconf
  exact ⟨hnum, fun _ => by omega⟩

lemma plain_trace (htr : Trace (Accepts C fun _ _ => True) s bs t) (hplain : ∀ b ∈ bs, Plain b)
    (hs : s.blockNum < 4294967296) (hpend : s.pendingSchedule.producers = []) :
    Counted s bs t ∧ t.blockNum < 4294967296 ∧ t.pendingSchedule.producers = [] := by
  induction htr with
  | nil => exact ⟨counted_nil _, hs, hpend⟩
  | @snoc t r bs _ hstep ih =>
    obtain ⟨hc, ht, hp⟩ := ih fun b hb => hplain b (by simp [hb])
    obtain ⟨h, skip, hn, -⟩ := hstep
    have hr : Plain r := hplain r (by simp)
    have hnew : h.newProducers = none := by
      rw [← next_newProducers hn]
      exact hr.1
    obtain ⟨hact, hpend'⟩ := next_keeps_schedule hn hp hnew
    refine ⟨counted_snoc hc hn (countsOnce_of_plain hn hr ht) (hact.trans hc.active), ?_, hpend'⟩
    rw [next_blockNum hn]
    exact u32_lt _

lemma confirmers_of_bringsToZero {u : BlockHeaderState Key Sig}
    (htr : Trace (Accepts C fun _ _ => True) s bs u) (hz : BringsToZero C s bs k)
    (hplain : ∀ b ∈ bs, Plain b) (hpend : s.pendingSchedule.producers = []) (hk : s.blockNum < k) :
    ∃ ps ⊆ confirmers bs k, ps ⊆ s.activeSchedule.names.toFinset ∧
      ps.card = s.activeSchedule.effectiveConfs := by
  obtain ⟨before, r, after, h, skip, g, rfl, hn, hg, hz⟩ := hz
  obtain ⟨t, htr, -, -⟩ := htr.split rfl
  rw [← htr.last_eq] at hn hg
  obtain ⟨j, hj, hjk⟩ := Option.map_eq_some_iff.mp hz
  have hs : s.blockNum < 4294967296 := by
    have hlt := u32_lt (g.blockNum + (4294967296 - u32 j))
    rw [← hjk] at hk
    exact lt_trans hk hlt
  obtain ⟨hc, ht, -⟩ := plain_trace htr (fun b hb => hplain b (by simp [hb])) hs hpend
  have hr : Plain r := hplain r (by simp)
  have honce := countsOnce_of_plain hn hr ht
  have hnum : r.blockNum = t.blockNum + 1 := by rw [next_blockNum hn, u32_eq honce.1]
  have hconf : h.confirmed < t.blockNum + 1 := by
    rw [← next_confirmed hn, ← hnum]
    exact hr.2
  obtain ⟨-, hlater, -⟩ := next_cases hn
  obtain ⟨-, prokey, -, rfl⟩ := generateNext_cases (by omega) hg
  obtain ⟨i, e, hji, hi, he, hez⟩ := confirmBack_hit hj
  have hki : k = t.blockNum + 1 - i := by
    have hgnum : (t.template C h.timestamp prokey).blockNum = t.blockNum + 1 := u32_eq honce.1
    rw [← hjk, hji, Nat.zero_add, hgnum, sub32_eq (by omega) honce.1]
  have hlen := hc.num
  have hsum := grown_counter hc (by omega) he
  rw [← hki, hez] at hsum
  have hrk : Confirms r k := by
    rw [hki]
    exact (confirms_iff hn honce.1 (by omega)).mpr hi
  have hcard := card_confirmers_snoc hrk (producer_not_confirmer hc hn honce hrk)
  have hact : r.header.producer ∈ s.activeSchedule.names := by
    rw [next_producer hn, ← hc.active]
    exact next_producer_mem hn
  refine ⟨confirmers (before ++ [r]) k, ?_, ?_, by omega⟩
  · intro p hp
    obtain ⟨b, hb, hbk, hbp⟩ := mem_confirmers.mp hp
    refine mem_confirmers.mpr ⟨b, ?_, hbk, hbp⟩
    rcases mem_append.mp hb with hb | hb
    · simp [hb]
    · simp [mem_singleton.mp hb]
  intro p hp
  obtain ⟨b, hb, -, rfl⟩ := mem_confirmers.mp hp
  rw [mem_toFinset]
  rcases mem_append.mp hb with hb | hb
  · exact hc.scheduled b hb
  · rw [mem_singleton.mp hb]
    exact hact

/-- When two chains of plain headers from one state both bring their block `k` to zero, some
producer confirms `k` on both, provided the threshold of the schedule is a majority. Among
the schedules that can be installed it is one for the types 0 and 1, and for type 2 with one
or three producers only. -/
theorem quorums_intersect_of_majority {t₁ t₂ : BlockHeaderState Key Sig}
    {bs₁ bs₂ : List (BlockHeaderState Key Sig)} {k : Nat}
    (hpend : s.pendingSchedule.producers = []) (hk : s.blockNum < k)
    (h₁ : Trace (Accepts C fun _ _ => True) s bs₁ t₁)
    (h₂ : Trace (Accepts C fun _ _ => True) s bs₂ t₂)
    (hplain₁ : ∀ b ∈ bs₁, Plain b) (hplain₂ : ∀ b ∈ bs₂, Plain b)
    (hz₁ : BringsToZero C s bs₁ k) (hz₂ : BringsToZero C s bs₂ k) : (s.activeSchedule.Majority →
      ∃ p, (∃ b ∈ bs₁, Confirms b k ∧ b.header.producer = p) ∧
        (∃ b ∈ bs₂, Confirms b k ∧ b.header.producer = p)) ∧ (s.activeSchedule.producers ≠ [] →
      s.activeSchedule.producers.length ≤ Config.maxProducers →
      s.activeSchedule.consensusType = 0 ∨ s.activeSchedule.consensusType = 1 ∨
        s.activeSchedule.consensusType = 2 →
      (s.activeSchedule.Majority ↔ s.activeSchedule.consensusType ≠ 2 ∨
        s.activeSchedule.producers.length = 1 ∨ s.activeSchedule.producers.length = 3)) := by
  refine ⟨fun hmaj => ?_, majority_iff⟩
  obtain ⟨ps₁, hsub₁, hin₁, hcard₁⟩ := confirmers_of_bringsToZero h₁ hz₁ hplain₁ hpend hk
  obtain ⟨ps₂, hsub₂, hin₂, hcard₂⟩ := confirmers_of_bringsToZero h₂ hz₂ hplain₂ hpend hk
  have hnames : s.activeSchedule.names.toFinset.card ≤ s.activeSchedule.producers.length := by
    have hle := toFinset_card_le s.activeSchedule.names
    rwa [names, length_map] at hle
  unfold ProducerSchedule.Majority at hmaj
  obtain ⟨p, hp⟩ := Finset.inter_nonempty_of_card_lt_card_add_card hin₁ hin₂ (by omega)
  rw [Finset.mem_inter] at hp
  exact ⟨p, mem_confirmers.mp (hsub₁ hp.1), mem_confirmers.mp (hsub₂ hp.2)⟩

lemma bringsToZero_of_builds (s : BlockHeaderState Nat Nat) (ps : List Plan) (p : Plan) (k : Nat)
    (hb : builds (fun _ _ => true) s ps = true)
    (hn : okAnd (((s.build ps).getLast?.getD s).next plainCrypto
      (((s.build ps).getLast?.getD s).headerOn p) false) (fun _ => true) = true)
    (hz : okAnd (((s.build ps).getLast?.getD s).generateNext plainCrypto p.slot)
      (fun g => g.zeroedBlock p.confirmed = some k) = true) :
    BringsToZero plainCrypto s (s.build (ps ++ [p])) k := by
  obtain ⟨r, hr, -⟩ := exists_ok_of_okAnd hn
  obtain ⟨g, hg, hgz⟩ := exists_ok_of_okAnd hz
  refine ⟨s.build ps, r, [], _, false, g, ?_, hr, hg, of_decide_eq_true hgz⟩
  have hone : ((s.build ps).getLast?.getD s).build [p] = [r] := by
    simp [build, hr]
  rw [build_snoc _ s ps p hb, hone]

theorem quorums_intersect_of_majority_fourProducers :
    ∃ p, (∃ b ∈ (installed fourProducers).build [⟨48, 0, none⟩, ⟨60, 1, none⟩, ⟨72, 2, none⟩],
        Confirms b 5 ∧ b.header.producer = p) ∧
      (∃ b ∈ (installed fourProducers).build [⟨60, 0, none⟩, ⟨72, 1, none⟩, ⟨84, 2, none⟩],
        Confirms b 5 ∧ b.header.producer = p) :=
  (quorums_intersect_of_majority (C := plainCrypto) (s := installed fourProducers) (k := 5)
    (by decide +kernel) (by decide +kernel)
    (trace_of_builds (fun _ _ => true) (fun _ _ _ => trivial) _ _ (by decide +kernel))
    (trace_of_builds (fun _ _ => true) (fun _ _ _ => trivial) _ _ (by decide +kernel))
    (by decide +kernel) (by decide +kernel)
    (bringsToZero_of_builds _ [⟨48, 0, none⟩, ⟨60, 1, none⟩] ⟨72, 2, none⟩ 5 (by decide +kernel)
      (by decide +kernel) (by decide +kernel))
    (bringsToZero_of_builds _ [⟨60, 0, none⟩, ⟨72, 1, none⟩] ⟨84, 2, none⟩ 5 (by decide +kernel)
      (by decide +kernel) (by decide +kernel))).1 (by decide +kernel)

def twoProducers : ProducerSchedule Nat :=
  { version := 1, consensusType := 2, producers := [⟨1, 1⟩, ⟨2, 2⟩] }

/-- Each of two producers alone brings its own block 5 to zero under the one-third type. -/
theorem quorums_disjoint_oneThird :
    ∃ (s t₁ t₂ : BlockHeaderState Nat Nat) (bs₁ bs₂ : List (BlockHeaderState Nat Nat)),
      s.activeSchedule = twoProducers ∧ twoProducers.names.Nodup ∧
      s.pendingSchedule.producers = [] ∧ s.confirmCount = [] ∧ s.blockNum < 5 ∧
      Trace (Accepts plainCrypto fun _ _ => True) s bs₁ t₁ ∧
      Trace (Accepts plainCrypto fun _ _ => True) s bs₂ t₂ ∧
      (∀ b ∈ bs₁, Plain b) ∧ (∀ b ∈ bs₂, Plain b) ∧
      BringsToZero plainCrypto s bs₁ 5 ∧ BringsToZero plainCrypto s bs₂ 5 ∧
      ¬ ∃ p, (∃ b ∈ bs₁, Confirms b 5 ∧ b.header.producer = p) ∧
        (∃ b ∈ bs₂, Confirms b 5 ∧ b.header.producer = p) := by
  have hdisjoint : Disjoint (confirmers ((installed twoProducers).build [⟨24, 0, none⟩]) 5)
      (confirmers ((installed twoProducers).build [⟨36, 0, none⟩]) 5) := by decide +kernel
  refine ⟨installed twoProducers, _, _, (installed twoProducers).build [⟨24, 0, none⟩],
    (installed twoProducers).build [⟨36, 0, none⟩], by decide +kernel, by decide, by decide +kernel,
    by decide +kernel, by decide +kernel,
    trace_of_builds (fun _ _ => true) (fun _ _ _ => trivial) _ _ (by decide +kernel),
    trace_of_builds (fun _ _ => true) (fun _ _ _ => trivial) _ _ (by decide +kernel),
    by decide +kernel, by decide +kernel,
    bringsToZero_of_builds _ [] ⟨24, 0, none⟩ 5 rfl (by decide +kernel) (by decide +kernel),
    bringsToZero_of_builds _ [] ⟨36, 0, none⟩ 5 rfl (by decide +kernel) (by decide +kernel), ?_⟩
  rintro ⟨p, h₁, h₂⟩
  exact Finset.disjoint_left.mp hdisjoint (mem_confirmers.mpr h₁) (mem_confirmers.mpr h₂)

end BlockHeaderState

end DimensionChain
