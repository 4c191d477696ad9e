import DimensionChain.ForkDb.ForkDatabase

/-!
# Removing subtrees

The queue of `remove` empties, and what it has erased is the block with all its
descendants. Pruning a number erases its first block alone and the others with their
subtrees, so that exactly the descendants of the first block remain.
-/

namespace DimensionChain

open List ForkMultiIndex ForkDatabase

variable {Key Sig ε : Type} {b : BlockState Key Sig}

namespace ForkMultiIndex

variable {idx : ForkMultiIndex Key Sig}

lemma mem_children {id i : BlockId} :
    i ∈ idx.children id ↔ ∃ b ∈ idx.byBlockNum, b.prev = id ∧ b.id = i := by
  unfold children
  rw [mem_map]
  constructor
  · intro h
    obtain ⟨b, hb, hi⟩ := h
    obtain ⟨hb, hp⟩ := mem_filter.mp hb
    exact ⟨b, hb, of_decide_eq_true hp, hi⟩
  · intro h
    obtain ⟨b, hb, hp, hi⟩ := h
    exact ⟨b, mem_filter.mpr ⟨hb, decide_eq_true hp⟩, hi⟩

lemma next?_front {l : List (BlockState Key Sig)} (h : idx.byBlockNum = b :: l) :
    idx.next? b.id = l.head?.map fun c => c.id := by
  rw [next?, h, dropWhile_cons_of_neg (by simp), drop_one, tail_cons]

lemma exists_level {base : Nat} (hbase : ∀ b ∈ idx.byLibBlockNum, base < b.blockNum) :
    ∃ level high, idx.byBlockNum = level ++ high ∧ (∀ b ∈ level, b.blockNum = base + 1) ∧
      (∀ b ∈ high, base + 1 < b.blockNum) ∧
      high.head? = idx.byBlockNum.find? fun b => base + 1 < b.blockNum := by
  refine ⟨_, _, takeWhile_append_dropWhile.symm, ?_, ?_, (find?_eq_head?_dropWhile_not _ _).symm⟩
  · intro b hb
    have hlow := hbase _ (mem_blocks ((takeWhile_sublist _).mem hb))
    have hnot := mem_takeWhile_imp hb
    rw [Bool.not_eq_true', decide_eq_false_iff_not] at hnot
    omega
  · intro b hb
    refine of_decide_eq_true (idx.numOrdered.forall_dropWhile ?_ b hb)
    intro a c hca ha
    rw [decide_eq_true_eq] at ha ⊢
    unfold BlockState.numBefore at hca
    omega

lemma find?_lowest {base : Nat} (hbase : ∀ b ∈ idx.byLibBlockNum, base < b.blockNum) :
    (idx.byBlockNum.find? fun b => base + 1 ≤ b.blockNum) = idx.byBlockNum.head? := by
  cases hall : idx.byBlockNum with
  | nil => rfl
  | cons b l =>
    have hb := hbase _ (mem_blocks (b := b) (by rw [hall]; simp))
    exact find?_cons_of_pos (by simpa using hb)

lemma find?_erase {p : BlockState Key Sig → Bool} {id : BlockId}
    (hp : ∀ b ∈ idx.byBlockNum, b.id = id → p b = false) :
    (idx.erase id).byBlockNum.find? p = idx.byBlockNum.find? p := by
  change (idx.byBlockNum.filter _).find? _ = _
  rw [find?_filter]
  refine find?_congr fun b hb => ?_
  by_cases hid : b.id = id
  · simp [hp b hb hid]
  · simp [hid]

lemma size_erase_lt (hb : b ∈ idx.byBlockNum) : (idx.erase b.id).size < idx.size := by
  apply length_filter_lt_length_iff_exists.mpr
  exact ⟨b, hb, by simp⟩

end ForkMultiIndex

namespace ForkDatabase

/-- The ids processed so far, `P`, and the queue: a child of a processed block that is still
there waits in the queue, and only such blocks do. -/
structure QueueInv (idx₀ : ForkMultiIndex Key Sig) (id₀ : BlockId) (P : BlockId → Bool)
    (queue : List BlockId) : Prop where
  start : P id₀ = true
  present : ∀ i ∈ queue, P i = false ∧
    ∃ b ∈ idx₀.byLibBlockNum, b.id = i ∧ ∃ p ∈ idx₀.byLibBlockNum, b.prev = p.id ∧ P p.id = true
  once : queue.Nodup
  waiting : ∀ b ∈ idx₀.byLibBlockNum, P b.prev = true → P b.id = true ∨ b.id ∈ queue
  grounded : ∀ b ∈ idx₀.byLibBlockNum, P b.id = true → b.id = id₀ ∨
    ∃ p ∈ idx₀.byLibBlockNum, b.prev = p.id ∧ P p.id = true

variable {idx₀ : ForkMultiIndex Key Sig} {P : BlockId → Bool} {queue : List BlockId} {id₀ : BlockId}

lemma QueueInv.cut (h : QueueInv idx₀ id₀ P []) :
    blockLinks.Cut idx₀.byLibBlockNum (fun i => i = id₀) (fun i => P i = true) where
  contains := by
    intro i hi
    rw [hi]
    exact h.start
  closed := by
    intro b hb hp
    rcases h.waiting b hb hp with hd | hq
    · exact hd
    · simp at hq
  grounded := h.grounded

lemma QueueInv.step {id₀ id : BlockId} (h : QueueInv idx₀ id₀ P (id :: queue)) :
    QueueInv idx₀ id₀ (fun i => P i || decide (i = id))
      (queue ++ (idx₀.eraseIf fun i => P i || decide (i = id)).children id) := by
  have hid := h.present id (by simp)
  obtain ⟨hPid, bid, hbid, hbid', hparent⟩ := hid
  have honce := nodup_cons.mp h.once
  have hrest : ∀ i ∈ queue, i ≠ id := by
    intro i hi heq
    exact honce.1 (heq ▸ hi)
  refine ⟨by simp [h.start], ?_, ?_, ?_, ?_⟩
  · intro i hi
    rcases mem_append.mp hi with hi | hi
    · obtain ⟨hP, b, hb, hbi, p, hp, hbp, hPp⟩ := h.present i (mem_cons_of_mem _ hi)
      exact ⟨by simp [hP, hrest i hi], b, hb, hbi, p, hp, hbp, by simp [hPp]⟩
    obtain ⟨b, hb, hbp, hbi⟩ := mem_children.mp hi
    obtain ⟨hb, hbE⟩ := mem_eraseIf.mp hb
    refine ⟨hbi ▸ hbE, b.toBlockData, mem_blocks hb, hbi, bid, hbid, ?_, ?_⟩
    · rw [hbid']
      exact hbp
    · simp [hbid']
  · apply nodup_append.mpr
    refine ⟨honce.2, ?_, ?_⟩
    · exact (idx₀.eraseIf _).unique.sublist (filter_sublist.map _)
    intro i hi j hj heq
    subst heq
    obtain ⟨c, hc, hcp, hci⟩ := mem_children.mp hj
    obtain ⟨hc, -⟩ := mem_eraseIf.mp hc
    obtain ⟨-, b, hb, hbi, p, hp, hbp, hPp⟩ := h.present i (mem_cons_of_mem _ hi)
    have hcb : c.toBlockData = b :=
      inj_on_of_nodup_map idx₀.unique_blocks (mem_blocks hc) hb
        (hci.trans hbi.symm)
    have hpid : p.id = id := by rw [← hbp, ← hcb, hcp]
    rw [hpid, hPid] at hPp
    simp at hPp
  · intro b hb hp
    by_cases hbP : P b.id = true ∨ b.id = id
    · exact .inl (by simpa using hbP)
    right
    rw [not_or] at hbP
    apply mem_append.mpr
    rcases (Bool.or_eq_true _ _).mp hp with hp | hp
    · rcases h.waiting b hb hp with hd | hq
      · exact absurd hd hbP.1
      · rcases mem_cons.mp hq with hq | hq
        · exact absurd hq hbP.2
        · exact .inl hq
    right
    obtain ⟨c, hc, rfl⟩ := mem_blocks_iff.mp hb
    apply mem_children.mpr
    refine ⟨c, mem_eraseIf.mpr ⟨hc, ?_⟩, of_decide_eq_true hp, rfl⟩
    simp [hbP]
  intro b hb hbE
  rcases (Bool.or_eq_true _ _).mp hbE with hP | hbi
  · rcases h.grounded b hb hP with heq | ⟨p, hp, hbp, hPp⟩
    · exact .inl heq
    · exact .inr ⟨p, hp, hbp, by simp [hPp]⟩
  have hbb : b = bid := by
    apply inj_on_of_nodup_map idx₀.unique_blocks hb hbid
    exact (of_decide_eq_true hbi).trans hbid'.symm
  obtain ⟨p, hp, hbp, hPp⟩ := hparent
  exact .inr ⟨p, hp, hbb ▸ hbp, by simp [hPp]⟩

def removeRound : List BlockId × ForkMultiIndex Key Sig → List BlockId × ForkMultiIndex Key Sig
  | ([], idx) => ([], idx)
  | (id :: queue, idx) => (queue ++ (idx.erase id).children id, idx.erase id)

lemma removeRounds_nil (n : Nat) (idx : ForkMultiIndex Key Sig) :
    removeRound^[n] ([], idx) = ([], idx) :=
  Function.iterate_fixed rfl n

lemma removeQueue_eq (fuel : Nat) (queue : List BlockId) (idx : ForkMultiIndex Key Sig) :
    removeQueue fuel queue idx = (removeRound^[fuel] (queue, idx)).2 := by
  induction fuel generalizing queue idx with
  | zero => rfl
  | succ fuel ih =>
    cases queue with
    | nil => rw [removeRounds_nil, removeQueue]
    | cons id queue => exact ih _ _

lemma removeRounds_cut {fuel : Nat} (h : QueueInv idx₀ id₀ P queue)
    (hfuel : (idx₀.eraseIf P).size ≤ fuel) : ∃ E : BlockId → Bool,
      removeRound^[fuel] (queue, idx₀.eraseIf P) = ([], idx₀.eraseIf E) ∧
      blockLinks.Cut idx₀.byLibBlockNum (fun i => i = id₀) (fun i => E i = true) := by
  induction fuel generalizing P queue with
  | zero =>
    cases queue with
    | nil => exact ⟨P, rfl, h.cut⟩
    | cons id queue =>
      obtain ⟨hP, b, hb, hbi, -⟩ := h.present id (by simp)
      obtain ⟨c, hc, rfl⟩ := mem_blocks_iff.mp hb
      have hpos := length_pos_of_mem
        (mem_eraseIf.mpr ⟨hc, hbi.symm ▸ hP⟩)
      unfold ForkMultiIndex.size at hfuel
      omega
  | succ fuel ih =>
    cases queue with
    | nil => exact ⟨P, removeRounds_nil _ _, h.cut⟩
    | cons id queue =>
      obtain ⟨hP, b, hb, hbi, -⟩ := h.present id (by simp)
      obtain ⟨c, hc, rfl⟩ := mem_blocks_iff.mp hb
      have hlt := size_erase_lt
        (mem_eraseIf.mpr ⟨hc, hbi.symm ▸ hP⟩)
      have herase : (idx₀.eraseIf P).erase id = idx₀.eraseIf fun i => P i || decide (i = id) :=
        eraseIf_eraseIf _ _
      rw [hbi, herase] at hlt
      rw [Function.iterate_succ_apply, removeRound, herase]
      exact ih h.step (by omega)

lemma remove_cut (db : ForkDatabase Key Sig) {b : BlockData Key Sig}
    (hb : b ∈ db.index.byLibBlockNum) :
    removeRound^[db.index.size + 1] ([b.id], db.index) = ([], (db.remove b.id).index) ∧
    ∃ E : BlockId → Bool, (db.remove b.id).index = db.index.eraseIf E ∧
      blockLinks.Cut db.index.byLibBlockNum (fun i => i = b.id) (fun i => E i = true) ∧
      ∀ d, d ∈ (db.remove b.id).index.byLibBlockNum ↔
        d ∈ db.index.byLibBlockNum ∧ ¬ E d.id = true := by
  have hinv : QueueInv db.index b.id (fun i => decide (i = b.id))
      ((db.index.erase b.id).children b.id) := by
    refine ⟨by simp, ?_, ?_, ?_, ?_⟩
    · intro i hi
      obtain ⟨c, hc, hcp, hci⟩ := mem_children.mp hi
      obtain ⟨hc, hcE⟩ := mem_eraseIf.mp hc
      exact ⟨hci ▸ hcE, c.toBlockData, mem_blocks hc, hci, b, hb, hcp, by simp⟩
    · exact (db.index.erase b.id).unique.sublist (filter_sublist.map _)
    · intro d hd hp
      obtain ⟨c, hc, rfl⟩ := mem_blocks_iff.mp hd
      by_cases hdb : c.id = b.id
      · exact .inl (by simpa using hdb)
      right
      apply mem_children.mpr
      exact ⟨c, mem_eraseIf.mpr ⟨hc, by simpa using hdb⟩,
        of_decide_eq_true hp, rfl⟩
    · intro d hd hdE
      exact .inl (of_decide_eq_true hdE)
  obtain ⟨c, hc, rfl⟩ := mem_blocks_iff.mp hb
  have hlt := size_erase_lt hc
  obtain ⟨E, hE, hcut⟩ := removeRounds_cut hinv (Nat.le_of_lt hlt)
  have hrounds : removeRound^[db.index.size + 1] ([c.id], db.index) = ([], db.index.eraseIf E) := hE
  have hindex : (db.remove c.id).index = db.index.eraseIf E := by
    rw [remove, removeQueue_eq, hrounds]
  refine ⟨hindex ▸ hrounds, E, hindex, hcut, fun d => ?_⟩
  rw [hindex, mem_blocks_eraseIf, Bool.not_eq_true]

lemma remove_head (db : ForkDatabase Key Sig) (id : BlockId) :
    (db.remove id).head = (db.remove id).index.byLibBlockNum.head? := rfl

lemma removeQueue_subset (fuel : Nat) (queue : List BlockId) (idx : ForkMultiIndex Key Sig) :
    ∀ b ∈ (removeQueue fuel queue idx).byLibBlockNum, b ∈ idx.byLibBlockNum := by
  induction fuel generalizing queue idx with
  | zero => exact fun b hb => hb
  | succ fuel ih =>
    cases queue with
    | nil => exact fun b hb => hb
    | cons id queue =>
      intro b hb
      have hmem := ih _ _ b hb
      exact (mem_blocks_eraseIf.mp hmem).1

lemma remove_subset (db : ForkDatabase Key Sig) (id : BlockId) :
    ∀ b ∈ (db.remove id).index.byLibBlockNum, b ∈ db.index.byLibBlockNum :=
  removeQueue_subset _ _ _

lemma removeAll_subset (ids : List BlockId) (db : ForkDatabase Key Sig) :
    ∀ b ∈ (ids.foldl remove db).index.byLibBlockNum, b ∈ db.index.byLibBlockNum := by
  induction ids generalizing db with
  | nil => exact fun b hb => hb
  | cons i ids ih =>
    intro b hb
    exact db.remove_subset i b (ih _ b hb)

section Siblings
variable (base : Nat) {db : ForkDatabase Key Sig}
  (hlowest : ∀ b ∈ db.index.byLibBlockNum, b.blockNum = base + 1 →
    ∀ p ∈ db.index.byLibBlockNum, b.prev ≠ p.id)
include hlowest

lemma sibling_kept {E : BlockId → Bool} {b c : BlockData Key Sig}
    (hcut : blockLinks.Cut db.index.byLibBlockNum (fun i => i = b.id) (fun i => E i = true))
    (hc : c ∈ db.index.byLibBlockNum) (hcnum : c.blockNum = base + 1) (hne : c.id ≠ b.id) :
    ¬ E c.id = true := by
  intro hcE
  rcases hcut.grounded c hc hcE with hcb | ⟨p, hp, hcp, -⟩
  · exact hne hcb
  · exact hlowest c hc hcnum p hp hcp

lemma removeAll_cut (ids : List BlockId) (hids : ids.Nodup)
    (hlow : ∀ i ∈ ids, ∃ b ∈ db.index.byLibBlockNum, b.id = i ∧ b.blockNum = base + 1) :
    ∃ E : BlockId → Bool, (ids.foldl remove db).index = db.index.eraseIf E ∧
      blockLinks.Cut db.index.byLibBlockNum (fun i => i ∈ ids) (fun i => E i = true) ∧
      (ids = [] ∨ (ids.foldl remove db).head =
        (ids.foldl remove db).index.byLibBlockNum.head?) := by
  induction ids generalizing db with
  | nil =>
    refine ⟨fun _ => false, ?_, ⟨by simp, by simp, by simp⟩, .inl rfl⟩
    apply ForkMultiIndex.ext
    · exact (filter_eq_self.mpr (by simp)).symm
    · exact (filter_eq_self.mpr (by simp)).symm
  | cons id ids ih =>
    obtain ⟨hid, hrest⟩ := nodup_cons.mp hids
    obtain ⟨b, hb, rfl, hbnum⟩ := hlow id (by simp)
    obtain ⟨-, E, hE, hcut, hmem⟩ := db.remove_cut hb
    obtain ⟨F, hF, hcutF, hhead⟩ := ih
      (fun d hd hdnum p hp => hlowest d ((hmem d).mp hd).1 hdnum p ((hmem p).mp hp).1) hrest (by
        intro i hi
        obtain ⟨c, hc, hci, hcnum⟩ := hlow i (mem_cons_of_mem _ hi)
        refine ⟨c, (hmem c).mpr ⟨hc, sibling_kept base hlowest hcut hc hcnum ?_⟩, hci, hcnum⟩
        rintro hcb
        exact hid (hcb ▸ hci ▸ hi))
    refine ⟨fun i => E i || F i, ?_, ?_, .inr ?_⟩
    · rw [foldl_cons, hF, hE, eraseIf_eraseIf]
    · have hcomp := hcut.comp hcutF hmem
      refine ⟨?_, ?_, ?_⟩
      · intro i hi
        rw [Bool.or_eq_true]
        exact hcomp.contains i (mem_cons.mp hi)
      · intro d hd hp
        rw [Bool.or_eq_true] at hp ⊢
        exact hcomp.closed d hd hp
      intro d hd hdE
      rw [Bool.or_eq_true] at hdE
      rcases hcomp.grounded d hd hdE with hr | ⟨p, hp, hpar, hpE⟩
      · exact .inl (mem_cons.mpr hr)
      · refine .inr ⟨p, hp, hpar, ?_⟩
        rw [Bool.or_eq_true]
        exact hpE
    rw [foldl_cons]
    rcases hhead with rfl | hhead
    · exact remove_head _ _
    · exact hhead

/-- The loop over a number whose blocks are `level` removes them all if the first of the higher
blocks, at which the iterator stands in the end, survives. -/
lemma removeLevel_eq {level high : List (BlockState Key Sig)} {fuel : Nat}
    (hlist : db.index.byBlockNum = level ++ high) (hlevel : ∀ b ∈ level, b.blockNum = base + 1)
    (hhigh : ∀ b ∈ high, base + 1 < b.blockNum) (hfuel : level.length < fuel)
    (hnext : ∀ f ∈ high.head?, f.toBlockData ∈
      ((level.map fun b => b.id).foldl remove db).index.byLibBlockNum) :
    removeLevel (base + 1) fuel ((level ++ high).head?.map fun b => b.id) db =
      .ok ((level.map fun b => b.id).foldl remove db) := by
  induction level generalizing db high fuel with
  | nil =>
    obtain ⟨fuel, rfl⟩ := Nat.exists_eq_succ_of_ne_zero (Nat.ne_zero_of_lt hfuel)
    cases high with
    | nil => rfl
    | cons f high =>
      have hf : db.getBlock f.id = some f :=
        ForkMultiIndex.find?_eq_some.mpr ⟨by simp [hlist], rfl⟩
      have hfnum := hhigh f (by simp)
      change removeLevel (base + 1) (fuel + 1) (some f.id) db = _
      rw [removeLevel, hf]
      exact if_neg (by omega)
  | cons b level ih =>
    obtain ⟨fuel, rfl⟩ := Nat.exists_eq_succ_of_ne_zero (Nat.ne_zero_of_lt hfuel)
    rw [cons_append] at hlist
    have hb : b ∈ db.index.byBlockNum := by simp [hlist]
    have hfound : db.getBlock b.id = some b := ForkMultiIndex.find?_eq_some.mpr ⟨hb, rfl⟩
    obtain ⟨-, E, hE, hcut, hmem⟩ := db.remove_cut (mem_blocks hb)
    have hunique := db.index.unique
    rw [hlist, map_cons, nodup_cons] at hunique
    have hkeep : ∀ c ∈ level, (!E c.id) = true := by
      intro c hc
      have hne : c.id ≠ b.id := fun hid =>
        hunique.1 (hid ▸ mem_map_of_mem (mem_append_left high hc))
      simpa using sibling_kept base hlowest hcut
        (mem_blocks (by rw [hlist]; simp [hc])) (hlevel c (mem_cons_of_mem b hc)) hne
    have hgone : (!E b.id) = false := by simp [hcut.contains b.id rfl]
    have hlist' : (db.remove b.id).index.byBlockNum = level ++ high.filter fun c => !E c.id := by
      rw [hE]
      change db.index.byBlockNum.filter _ = _
      rw [hlist, filter_cons_of_neg (by simp [hgone]), filter_append,
        filter_eq_self.mpr hkeep]
    -- the iterator survives the removal of `b`
    have hfirst : (high.filter fun c => !E c.id).head? = high.head? := by
      cases hhd : high.head? with
      | none => rw [List.head?_eq_none_iff.mp hhd, filter_nil, List.head?_nil]
      | some f =>
        have hleft := (hmem _).mp (removeAll_subset _ _ _ (hnext f hhd))
        exact OrderedIndex.head?_filter hhd (by simpa using hleft.2)
    change removeLevel (base + 1) (fuel + 1) (some b.id) db = _
    rw [removeLevel, hfound]
    change (if b.blockNum = base + 1 then _ else _) = _
    rw [if_pos (hlevel b (by simp)), next?_front hlist, List.head?_append, ← hfirst,
      ← List.head?_append]
    exact ih (fun d hd hdnum p hp => hlowest d ((hmem d).mp hd).1 hdnum p ((hmem p).mp hp).1)
      hlist' (fun c hc => hlevel c (mem_cons_of_mem b hc))
      (fun c hc => hhigh c (mem_filter.mp hc).1) (Nat.lt_of_succ_lt_succ hfuel)
      (fun f hf => hnext f (hfirst ▸ hf))

lemma exists_removeLevel (hbase : ∀ b ∈ db.index.byLibBlockNum, base < b.blockNum) :
    ∃ ids E, (ids.foldl remove db).index = db.index.eraseIf E ∧
    blockLinks.Cut db.index.byLibBlockNum
      (fun i => ∃ y ∈ db.index.byLibBlockNum, y.blockNum = base + 1 ∧ y.id = i)
      (fun i => E i = true) ∧
    (ids = [] ∨ (ids.foldl remove db).head = (ids.foldl remove db).index.byLibBlockNum.head?) ∧
    ((∀ f, db.index.byBlockNum.find? (fun b => base + 1 < b.blockNum) = some f → ¬ E f.id = true) →
      removeLevel (base + 1) (db.index.size + 1)
        ((db.index.byBlockNum.find? fun b => base + 1 ≤ b.blockNum).map fun b => b.id) db =
          .ok (ids.foldl remove db)) := by
  obtain ⟨level, high, hlist, hlevel, hhigh, hfirst⟩ := exists_level hbase
  have hsub : ∀ b ∈ level, b.toBlockData ∈ db.index.byLibBlockNum :=
    fun b hb => mem_blocks (hlist ▸ mem_append_left high hb)
  obtain ⟨E, hE, hcut, hhead⟩ := removeAll_cut base hlowest (level.map fun b => b.id)
    (db.index.unique.sublist (by rw [hlist]; exact (sublist_append_left level high).map _))
    (by
      intro i hi
      obtain ⟨b, hb, rfl⟩ := mem_map.mp hi
      exact ⟨b.toBlockData, hsub b hb, rfl, hlevel b hb⟩)
  have hroots : (fun i => i ∈ level.map fun b => b.id) =
      fun i => ∃ y ∈ db.index.byLibBlockNum, y.blockNum = base + 1 ∧ y.id = i := by
    funext i
    rw [mem_map, eq_iff_iff]
    constructor
    · rintro ⟨b, hb, rfl⟩
      exact ⟨b.toBlockData, hsub b hb, hlevel b hb, rfl⟩
    rintro ⟨y, hy, hynum, rfl⟩
    obtain ⟨b, hb, rfl⟩ := mem_blocks_iff.mp hy
    rw [hlist] at hb
    refine ⟨b, (mem_append.mp hb).resolve_right fun hb => ?_, rfl⟩
    have hlt := hhigh b hb
    omega
  rw [hroots] at hcut
  refine ⟨_, E, hE, hcut, hhead, fun hnext => ?_⟩
  have hfuel : level.length < db.index.size + 1 := by
    unfold ForkMultiIndex.size
    rw [hlist, length_append]
    omega
  rw [find?_lowest hbase, hlist]
  refine removeLevel_eq base hlowest hlist hlevel hhigh hfuel fun f hf => ?_
  rw [hE, mem_blocks_eraseIf]
  exact ⟨mem_blocks (hlist ▸ mem_append_right level (mem_of_mem_head? hf)),
    eq_false_of_ne_true (hnext f (hfirst ▸ hf))⟩

end Siblings

end ForkDatabase

namespace Hosted
variable {slot : Slot Key Sig ε} {w w₁ : Hosted Key Sig ε} {x : BlockData Key Sig} {root : BlockId}
  {base : Nat}

variable {index : ForkMultiIndex Key Sig} (h : blockLinks.Rooted index.byLibBlockNum root base)
include h

lemma mem_erase_iff (hx : x ∈ index.byLibBlockNum) (b : BlockData Key Sig) :
    b ∈ (index.erase x.id).byLibBlockNum ↔ b ∈ index.byLibBlockNum ∧ b ≠ x := by
  rw [ForkMultiIndex.erase, mem_blocks_eraseIf, decide_eq_false_iff_not]
  apply and_congr_right
  intro hb
  apply not_congr
  constructor
  · intro hid
    exact h.eq_of_ident hb hx hid
  · intro heq
    rw [heq]

lemma head?_erase {head : Option (BlockData Key Sig)} (hx : x ∈ index.byLibBlockNum)
    (hhead : head = index.byLibBlockNum.head?) (hne : head ≠ some x) :
    head = (index.erase x.id).byLibBlockNum.head? := by
  cases head with
  | none =>
    have hnone : index.byLibBlockNum = [] := List.head?_eq_none_iff.mp hhead.symm
    rw [hnone] at hx
    cases hx
  | some d =>
    have hdx : d.id ≠ x.id := by
      intro hid
      apply hne
      rw [h.eq_of_ident (mem_of_mem_head? hhead.symm) hx hid]
    exact (OrderedIndex.head?_filter hhead.symm (by simpa using hdx)).symm

omit h

lemma not_above_itself {S : List (BlockData Key Sig)} (hxnum : x.blockNum = base + 1) :
    ¬ ∃ l, blockLinks.Branch S root base (x :: l ++ [x]) := by
  rintro ⟨l, hl⟩
  have hheight : x.blockNum = base + (l ++ [x]).length + 1 := hl.height_cons
  rw [length_append, length_singleton] at hheight
  omega

lemma pruneLevel_eq (h : blockLinks.Rooted w.forkDb.index.byLibBlockNum root base)
    (hx : x ∈ w.forkDb.index.byLibBlockNum) (hxnum : x.blockNum = base + 1)
    (hslot : slot x w = .ok w₁) (hsame : w₁.forkDb = w.forkDb)
    (hhead : w.forkDb.head = w.forkDb.index.byLibBlockNum.head?) (hne : w.forkDb.head ≠ some x)
    (hnext : ∀ f, w.forkDb.index.byBlockNum.find? (fun b => x.blockNum < b.blockNum) = some f →
      ∃ l, blockLinks.Branch w.forkDb.index.byLibBlockNum root base (f.toBlockData :: l ++ [x])) :
    ∃ w₂ E, pruneLevel slot x w = .ok w₂ ∧ w₂.env = w₁.env ∧
      w₂.forkDb.index = w.forkDb.index.eraseIf E ∧
      (∀ b ∈ w.forkDb.index.byLibBlockNum, E b.id = false ↔
        ∃ l, blockLinks.Branch w.forkDb.index.byLibBlockNum root base (b :: l ++ [x])) ∧
      w₂.forkDb.head = w₂.forkDb.index.byLibBlockNum.head? := by
  obtain ⟨xs, hxs, -⟩ := exists_find? hx
  have hfound : (w.forkDb.getBlock x.id).isSome = true := by
    rw [getBlock, hxs]
    rfl
  set w₀ := w₁.setIndex (w₁.forkDb.index.erase x.id) with hw₀
  have hindex₀ : w₀.forkDb.index = w.forkDb.index.erase x.id := by
    rw [hw₀, ← hsame]
    rfl
  have hmem : ∀ b, b ∈ w₀.forkDb.index.byLibBlockNum ↔
      b ∈ w.forkDb.index.byLibBlockNum ∧ b ≠ x := by
    intro b
    rw [hindex₀]
    exact mem_erase_iff h hx b
  have hbase₀ : ∀ b ∈ w₀.forkDb.index.byLibBlockNum, base < b.blockNum :=
    fun b hb => h.base_lt ((hmem b).mp hb).1
  obtain ⟨ids, E, hE, hcut, hheadE, hremove⟩ := exists_removeLevel base
    (fun b hb hbnum p hp hbp => h.outside p ((hmem p).mp hp).1
      (hbp.symm.trans (h.parent_of_lowest ((hmem b).mp hb).1 hbnum))) hbase₀
  have hkeep : ∀ b ∈ w₀.forkDb.index.byLibBlockNum, ¬ E b.id = true ↔
      ∃ l, blockLinks.Branch w.forkDb.index.byLibBlockNum root base (b :: l ++ [x]) :=
    fun b hb => h.not_cut_iff hx hxnum hmem hcut hb
  have hsame₀ : (w₀.forkDb.index.byBlockNum.find? fun b => base + 1 < b.blockNum) =
      w.forkDb.index.byBlockNum.find? fun b => x.blockNum < b.blockNum := by
    rw [hindex₀, hxnum]
    refine find?_erase fun b hb hid => ?_
    have hbnum : b.blockNum = base + 1 := by rw [h.eq_of_ident (mem_blocks hb) hx hid, hxnum]
    simp [hbnum]
  have hprune : pruneLevel slot x w = .ok { w₀ with forkDb := ids.foldl remove w₀.forkDb } := by
    rw [pruneLevel, if_pos hfound, hslot]
    change w₀.withForkDb (removeLevel x.blockNum _ _ _) = _
    rw [hxnum, hremove]
    · rfl
    intro f hf
    exact (hkeep _ (mem_blocks (mem_of_find?_eq_some hf))).mpr (hnext f (hsame₀ ▸ hf))
  refine ⟨_, fun i => decide (i = x.id) || E i, hprune, rfl, ?_, ?_, ?_⟩
  · rw [hE, hindex₀, ForkMultiIndex.erase, eraseIf_eraseIf]
  · intro b hb
    by_cases hbx : b = x
    · subst hbx
      simp only [decide_true, Bool.true_or, Bool.true_eq_false, false_iff]
      exact not_above_itself hxnum
    have hid : b.id ≠ x.id := by
      intro hid
      exact hbx (h.eq_of_ident hb hx hid)
    rw [← hkeep b ((hmem b).mpr ⟨hb, hbx⟩)]
    simp [hid]
  rcases hheadE with hnil | hheadE
  · rw [hnil, foldl_nil, hindex₀]
    have hhead₀ : w₀.forkDb.head = w.forkDb.head := by
      rw [hw₀, ← hsame]
      rfl
    rw [hhead₀]
    exact head?_erase h hx hhead hne
  · exact hheadE

lemma prune_front (hfront : w.forkDb.index.byBlockNum.head? = some b) :
    prune slot b.toBlockData w = pruneLevel slot b.toBlockData w := by
  have hbelow : pruneBelow slot b.blockNum w.forkDb.index.size w = .ok w := by
    cases w.forkDb.index.size with
    | zero => rfl
    | succ fuel => simp [pruneBelow, hfront]
  rw [prune, hbelow, Outcome.ok_andThen]

end Hosted

end DimensionChain
