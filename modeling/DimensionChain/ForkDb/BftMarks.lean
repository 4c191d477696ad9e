import DimensionChain.ForkDb.ForkTree

/-!
# Confirmations and the numbers that they raise

A block that two thirds of its producers have confirmed is irreversible, and the number goes to
the blocks that build on it. `set_bft_irreversible` walks through them layer by layer and stops at
a block whose number is large enough; since the numbers do not fall from a parent to its child,
nothing above it is missed.
-/

namespace DimensionChain

open List Nat BlockState

variable {Key Sig : Type}

namespace BlockState

def withBft (b : BlockState Key Sig) (num : Nat) : BlockState Key Sig :=
  { b with bftIrreversibleBlocknum := num }

variable (b : BlockState Key Sig)
include b

@[simp] lemma withBft_id (num : Nat) : (b.withBft num).id = b.id := rfl

@[simp] lemma withBft_prev (num : Nat) :
    (b.withBft num).prev = b.prev := rfl

@[simp] lemma withBft_bft (num : Nat) :
    (b.withBft num).bftIrreversibleBlocknum = num := rfl

end BlockState

namespace ForkMultiIndex

/-- A change of the block `id` that keeps its id, its number and its flags. -/
def modifyData (idx : ForkMultiIndex Key Sig) (id : BlockId)
    (f : BlockData Key Sig → BlockData Key Sig)
    (hf : ∀ b, (f b).id = b.id ∧ (f b).blockNum = b.blockNum) : ForkMultiIndex Key Sig where
  byBlockNum := idx.byBlockNum.map fun b =>
    if b.id = id then { b with toBlockData := f b.toBlockData } else b
  byLibBlockNum := OrderedIndex.modify BlockData.ranksAbove (fun b => b.id = id) f
    idx.byLibBlockNum
  unique := by
    have hids : (idx.byBlockNum.map fun b =>
        if b.id = id then { b with toBlockData := f b.toBlockData } else b).map (fun b => b.id) =
        idx.byBlockNum.map fun b => b.id := by
      rw [List.map_map]
      apply List.map_congr_left
      intro b _
      dsimp only [Function.comp]
      split
      · exact (hf b.toBlockData).1
      · rfl
    rw [hids]
    exact idx.unique
  same := by
    have hone : idx.byLibBlockNum.Pairwise fun a b =>
        ¬ (decide (a.id = id) = true ∧ decide (b.id = id) = true) := by
      apply (List.pairwise_map.mp idx.unique_blocks).imp
      intro a b hab hp
      exact hab ((of_decide_eq_true hp.1).trans (of_decide_eq_true hp.2).symm)
    have hperm : (OrderedIndex.modify BlockData.ranksAbove (fun b => b.id = id) f
        idx.byLibBlockNum).Perm _ := OrderedIndex.perm_modify (fun b => b.id = id) f hone
    refine List.Perm.trans ?_ hperm.symm
    have hmap : (idx.byBlockNum.map fun b =>
        if b.id = id then { b with toBlockData := f b.toBlockData } else b).map
          toBlockData =
        (idx.byBlockNum.map toBlockData).map fun b =>
          if decide (b.id = id) = true then f b else b := by
      rw [List.map_map, List.map_map]
      apply List.map_congr_left
      intro b _
      dsimp only [Function.comp]
      by_cases hb : b.id = id
      · simp [hb]
      · simp [hb]
    rw [hmap]
    exact idx.same.map _
  numOrdered := by
    refine List.pairwise_map.mpr (idx.numOrdered.imp ?_)
    intro a b hab
    have hkeep : ∀ c : BlockState Key Sig,
        (if c.id = id then { c with toBlockData := f c.toBlockData } else c).blockNum =
          c.blockNum ∧
        (if c.id = id then { c with toBlockData := f c.toBlockData } else c).inCurrentChain =
          c.inCurrentChain := by
      intro c
      split
      · exact ⟨(hf c.toBlockData).2, rfl⟩
      · exact ⟨rfl, rfl⟩
    unfold numBefore at hab ⊢
    rw [(hkeep a).1, (hkeep b).1, (hkeep a).2, (hkeep b).2]
    exact hab
  libOrdered := OrderedIndex.ordered_modify ranksAbove_precedence idx.libOrdered

def setBft (idx : ForkMultiIndex Key Sig) (id : BlockId) (num : Nat) : ForkMultiIndex Key Sig :=
  idx.modifyData id (fun b => { b with bftIrreversibleBlocknum := num }) fun _ => ⟨rfl, rfl⟩

/-- The block `id` with one more confirmation; no order depends on it. -/
def addConfirmation (idx : ForkMultiIndex Key Sig) (id : BlockId) (c : HeaderConfirmation Sig) :
    ForkMultiIndex Key Sig :=
  idx.modifyData id (fun b => { b with confirmations := b.confirmations ++ [c] })
    fun _ => ⟨rfl, rfl⟩

end ForkMultiIndex

def ProducerSchedule.getProducerKey [Inhabited Key] (s : ProducerSchedule Key) (p : AccountName) :
    Key :=
  match s.producers.find? fun i => i.producerName = p with
  | some i => i.blockSigningKey
  | none => default

def BlockHeaderState.checkConfirmation [Inhabited Key] [DecidableEq Key] (C : Crypto Key Sig)
    (s : BlockHeaderState Key Sig) (conf : HeaderConfirmation Sig) : Result Unit := do
  eosAssert (∀ c ∈ s.confirmations, c.producer ≠ conf.producer) .producerDoubleConfirm
    "block already confirmed by this producer"
  let key := s.activeSchedule.getProducerKey conf.producer
  eosAssert (key ≠ default) .producerNotInSchedule "producer not in current schedule"
  match C.recoverKey conf.producerSignature (s.sigDigest C) with
  | none => .error ⟨.crypto, "unable to recover public key from signature"⟩
  | some signer =>
    eosAssert (signer = key) .wrongSigningKey "confirmation not signed by expected key"

namespace ForkDatabase

def updateChild (blockNum : Nat) (acc : List BlockId × ForkMultiIndex Key Sig) (id : BlockId) :
    List BlockId × ForkMultiIndex Key Sig :=
  match acc.2.find? id with
  | none => acc
  | some b =>
    if b.bftIrreversibleBlocknum < blockNum then (acc.1 ++ [id], acc.2.setBft id blockNum)
    else acc

def updateLayer (blockNum : Nat) (layer : List BlockId) (idx : ForkMultiIndex Key Sig) :
    List BlockId × ForkMultiIndex Key Sig :=
  layer.foldl (fun acc i => (acc.2.children i).foldl (updateChild blockNum) acc) ([], idx)

def updateLayers (blockNum : Nat) :
    Nat → List BlockId → ForkMultiIndex Key Sig → Result (ForkMultiIndex Key Sig)
  | _, [], idx => .ok idx
  | 0, _ :: _, _ => .error ⟨.undefined, "endless loop"⟩
  | fuel + 1, id :: queue, idx =>
    let (updated, idx) := updateLayer blockNum (id :: queue) idx
    updateLayers blockNum fuel updated idx

def setIndex (db : ForkDatabase Key Sig) (index : ForkMultiIndex Key Sig) :
    ForkDatabase Key Sig where
  index := index
  head := db.head.map fun h => ((index.find? h.id).map toBlockData).getD h

def setBftIrreversible (db : ForkDatabase Key Sig) (id : BlockId) : Result (ForkDatabase Key Sig) :=
  match db.index.find? id with
  | none => .error ⟨.undefined, "end of the index"⟩
  | some b => do
    let index ← updateLayers b.blockNum (db.index.size + 1) [id] (db.index.setBft id b.blockNum)
    pure (db.setIndex index)

def addConfirmation [Inhabited Key] [DecidableEq Key] (C : Crypto Key Sig)
    (db : ForkDatabase Key Sig) (c : HeaderConfirmation Sig) : Result (ForkDatabase Key Sig) :=
  match db.getBlock c.blockId with
  | none => .error ⟨.forkDbBlockNotFound, "unable to find block id $\x7bid\x7d"⟩
  | some b => do
    b.checkConfirmation C c
    let db := db.setIndex (db.index.addConfirmation c.blockId c)
    if b.bftIrreversibleBlocknum < b.blockNum ∧
        b.activeSchedule.producers.length * 2 / 3 + 1 ≤ b.confirmations.length + 1 then
      db.setBftIrreversible c.blockId
    else pure db

end ForkDatabase

namespace ForkMultiIndex

def BftMonotone (idx : ForkMultiIndex Key Sig) : Prop :=
  ∀ b ∈ idx.byBlockNum, ∀ p ∈ idx.byBlockNum, b.prev = p.id →
    p.bftIrreversibleBlocknum ≤ b.bftIrreversibleBlocknum

instance (idx : ForkMultiIndex Key Sig) : Decidable idx.BftMonotone :=
  inferInstanceAs (Decidable (∀ b ∈ idx.byBlockNum, ∀ p ∈ idx.byBlockNum, b.prev = p.id →
    p.bftIrreversibleBlocknum ≤ b.bftIrreversibleBlocknum))

def Descends (idx : ForkMultiIndex Key Sig) (b : BlockState Key Sig) (c : BlockState Key Sig) :
    Prop :=
  blockLinks.Ancestor (fun d => d ∈ idx.byLibBlockNum) b.toBlockData c.toBlockData

/-- `marks` are blocks above `root`, and `idx` is the first index with their numbers set. -/
structure Marked (idx₀ : ForkMultiIndex Key Sig) (root : BlockState Key Sig) (num : Nat)
    (marks : List BlockId) (idx : ForkMultiIndex Key Sig) : Prop where
  blocks : idx.byBlockNum = idx₀.byBlockNum.map fun b =>
    if b.id ∈ marks then b.withBft num else b
  start : root.id ∈ marks
  once : marks.Nodup
  low : ∀ b ∈ idx₀.byBlockNum, b.id ∈ marks → b.id = root.id ∨ b.bftIrreversibleBlocknum < num
  above : ∀ i ∈ marks, ∃ b ∈ idx₀.byBlockNum, b.id = i ∧ idx₀.Descends root b

def Settled (idx₀ : ForkMultiIndex Key Sig) (num : Nat) (marks : List BlockId) (i : BlockId) :
    Prop :=
  ∀ b ∈ idx₀.byBlockNum, b.prev = i → b.id ∈ marks ∨ num ≤ b.bftIrreversibleBlocknum

variable {idx₀ idx : ForkMultiIndex Key Sig} {root : BlockState Key Sig} {num : Nat}
  {marks : List BlockId}

lemma byBlockNum_setBft (idx : ForkMultiIndex Key Sig) (id : BlockId) (num : Nat) :
    (idx.setBft id num).byBlockNum =
      idx.byBlockNum.map fun b => if b.id = id then b.withBft num else b := rfl

lemma Settled.mono {marks' : List BlockId} {i : BlockId} (h : Settled idx₀ num marks i)
    (hsub : ∀ j ∈ marks, j ∈ marks') : Settled idx₀ num marks' i := by
  intro b hb hprev
  rcases h b hb hprev with hm | hlow
  · exact .inl (hsub _ hm)
  · exact .inr hlow

variable (h : Marked idx₀ root num marks idx)
include h

lemma Marked.children_eq (i : BlockId) : idx.children i = idx₀.children i := by
  have hprev : (fun b : BlockState Key Sig => decide (b.prev = i)) ∘
      (fun b => if b.id ∈ marks then b.withBft num else b) = fun b => decide (b.prev = i) := by
    funext b
    dsimp only [Function.comp]
    split <;> rfl
  have hid : (fun b : BlockState Key Sig => b.id) ∘
      (fun b => if b.id ∈ marks then b.withBft num else b) = fun b => b.id := by
    funext b
    dsimp only [Function.comp]
    split <;> rfl
  unfold children
  rw [h.blocks, filter_map, hprev, map_map, hid]

lemma Marked.find?_eq {b : BlockState Key Sig} (hb : b ∈ idx₀.byBlockNum) :
    idx.find? b.id = some (if b.id ∈ marks then b.withBft num else b) := by
  apply find?_eq_some.mpr
  refine ⟨?_, ?_⟩
  · rw [h.blocks]
    exact mem_map.mpr ⟨b, hb, rfl⟩
  · split <;> rfl

lemma Marked.set {b p : BlockState Key Sig}
    (hb : b ∈ idx₀.byBlockNum) (hnew : b.id ∉ marks) (hlow : b.bftIrreversibleBlocknum < num)
    (hp : p ∈ idx₀.byBlockNum) (hbp : b.prev = p.id) (hpm : p.id ∈ marks) :
    Marked idx₀ root num (marks ++ [b.id]) (idx.setBft b.id num) where
  blocks := by
    rw [byBlockNum_setBft, h.blocks, map_map]
    apply map_congr_left
    intro c _
    by_cases hc : c.id ∈ marks
    · have hne : c.id ≠ b.id := fun heq => hnew (heq ▸ hc)
      simp [hc, hne]
    · by_cases heq : c.id = b.id
      · simp [heq, hnew]
      · simp [hc, heq]
  start := mem_append_left _ h.start
  once := nodup_append.mpr ⟨h.once, nodup_singleton _, by
    intro i hi j hj heq
    rw [mem_singleton.mp hj] at heq
    exact hnew (heq ▸ hi)⟩
  low := by
    intro c hc hcm
    rcases mem_append.mp hcm with hcm | hcm
    · exact h.low c hc hcm
    · have hcb : c = b := eq_of_id hc hb (mem_singleton.mp hcm)
      exact .inr (hcb ▸ hlow)
  above := by
    intro i hi
    rcases mem_append.mp hi with hi | hi
    · exact h.above i hi
    obtain ⟨q, hq, hqp, hdesc⟩ := h.above p.id hpm
    have hqp' : q = p := eq_of_id hq hp hqp
    subst hqp'
    exact ⟨b, hb, (mem_singleton.mp hi).symm, .head ⟨mem_blocks hq, hbp⟩ hdesc⟩

lemma Marked.length_le : marks.length ≤ idx₀.size := by
  have hsub : ∀ i ∈ marks, i ∈ idx₀.byBlockNum.map fun b => b.id := by
    intro i hi
    obtain ⟨b, hb, hid, -⟩ := h.above i hi
    exact mem_map.mpr ⟨b, hb, hid⟩
  have hle := (subperm_of_subset h.once hsub).length_le
  rwa [length_map] at hle

lemma Marked.of_settled (hmono : idx₀.BftMonotone)
    (hsettled : ∀ i ∈ marks, Settled idx₀ num marks i) {c : BlockState Key Sig}
    (hc : c ∈ idx₀.byBlockNum) (hdesc : idx₀.Descends root c) :
    c.id ∈ marks ∨ num ≤ c.bftIrreversibleBlocknum := by
  suffices hall : ∀ d, blockLinks.Ancestor (fun d => d ∈ idx₀.byLibBlockNum) root.toBlockData d →
      ∀ c ∈ idx₀.byBlockNum, c.toBlockData = d →
        c.id ∈ marks ∨ num ≤ c.bftIrreversibleBlocknum from hall _ hdesc c hc rfl
  intro d hd
  induction hd using Relation.ReflTransGen.head_induction_on with
  | refl =>
    intro c _ hcd
    have hid : c.id = root.id := congrArg (fun d : BlockData Key Sig => d.id) hcd
    exact .inl (hid ▸ h.start)
  | @head d p hstep _ ih =>
    intro c hc hcd
    obtain ⟨q, hq, hqp⟩ := mem_blocks_iff.mp hstep.1
    have hprev : c.prev = q.id := by
      rw [hqp, hcd]
      exact hstep.2
    rcases ih q hq hqp with hm | hlarge
    · exact hsettled q.id hm c hc hprev
    · exact .inr (le_trans hlarge (hmono c hc q hq hprev))

end ForkMultiIndex

namespace ForkDatabase
open ForkMultiIndex

variable {idx₀ : ForkMultiIndex Key Sig} {root : BlockState Key Sig} {num : Nat}
  {marks : List BlockId} {acc : List BlockId × ForkMultiIndex Key Sig}

lemma updateChild_spec (h : Marked idx₀ root num (marks ++ acc.1) acc.2) {b p : BlockState Key Sig}
    (hb : b ∈ idx₀.byBlockNum) (hp : p ∈ idx₀.byBlockNum) (hbp : b.prev = p.id)
    (hpm : p.id ∈ marks ++ acc.1) : (∃ new, (updateChild num acc b.id).1 = acc.1 ++ new) ∧
      Marked idx₀ root num (marks ++ (updateChild num acc b.id).1) (updateChild num acc b.id).2 ∧
      (b.id ∈ marks ++ (updateChild num acc b.id).1 ∨ num ≤ b.bftIrreversibleBlocknum) := by
  unfold updateChild
  rw [h.find?_eq hb]
  dsimp only
  by_cases hm : b.id ∈ marks ++ acc.1
  · rw [if_pos hm, withBft_bft, if_neg (lt_irrefl _)]
    exact ⟨⟨[], by simp⟩, h, .inl hm⟩
  rw [if_neg hm]
  by_cases hlow : b.bftIrreversibleBlocknum < num
  · rw [if_pos hlow]
    have hset := h.set hb hm hlow hp hbp hpm
    rw [append_assoc] at hset
    exact ⟨⟨[b.id], rfl⟩, hset, .inl (by simp)⟩
  · rw [if_neg hlow]
    exact ⟨⟨[], by simp⟩, h, .inr (not_lt.mp hlow)⟩

lemma updateChildren_spec {p : BlockState Key Sig} (hp : p ∈ idx₀.byBlockNum)
    (cs : List (BlockState Key Sig)) (hcs : ∀ c ∈ cs, c ∈ idx₀.byBlockNum ∧ c.prev = p.id)
    (h : Marked idx₀ root num (marks ++ acc.1) acc.2) (hpm : p.id ∈ marks ++ acc.1) :
    ∃ new idx, (cs.map fun c => c.id).foldl (updateChild num) acc = (acc.1 ++ new, idx) ∧
      Marked idx₀ root num (marks ++ (acc.1 ++ new)) idx ∧
      ∀ c ∈ cs, c.id ∈ marks ++ (acc.1 ++ new) ∨ num ≤ c.bftIrreversibleBlocknum := by
  induction cs generalizing acc with
  | nil => exact ⟨[], acc.2, by simp, by simpa using h, by simp⟩
  | cons c cs ih =>
    obtain ⟨hc, hcp⟩ := hcs c (by simp)
    obtain ⟨⟨new, hnew⟩, hmarked, hdone⟩ := updateChild_spec h hc hp hcp hpm
    have hpm' : p.id ∈ marks ++ (updateChild num acc c.id).1 := by
      rw [hnew, ← append_assoc]
      exact mem_append_left _ hpm
    obtain ⟨new', idx, hfold, hmarked', hall⟩ :=
      ih (fun d hd => hcs d (mem_cons_of_mem _ hd)) hmarked hpm'
    rw [hnew, append_assoc] at hfold hmarked' hall
    refine ⟨new ++ new', idx, hfold, hmarked', ?_⟩
    intro d hd
    rcases mem_cons.mp hd with rfl | hd
    · rw [hnew, ← append_assoc] at hdone
      rw [← append_assoc acc.1, ← append_assoc marks]
      rcases hdone with hm | hlarge
      · exact .inl (mem_append_left _ (by simpa using hm))
      · exact .inr hlarge
    · exact hall d hd

lemma updateLayer_spec (layer : List BlockId) (acc : List BlockId × ForkMultiIndex Key Sig)
    (h : Marked idx₀ root num (marks ++ acc.1) acc.2) (hlayer : ∀ i ∈ layer, i ∈ marks) :
    ∃ new idx, layer.foldl (fun acc i => (acc.2.children i).foldl (updateChild num) acc) acc =
        (acc.1 ++ new, idx) ∧ Marked idx₀ root num (marks ++ (acc.1 ++ new)) idx ∧
      ∀ i ∈ layer, Settled idx₀ num (marks ++ (acc.1 ++ new)) i := by
  induction layer generalizing acc with
  | nil => exact ⟨[], acc.2, by simp, by simpa using h, by simp⟩
  | cons i layer ih =>
    have him : i ∈ marks ++ acc.1 := mem_append_left _ (hlayer i (by simp))
    obtain ⟨p, hp, rfl, -⟩ := h.above i him
    obtain ⟨new, idx, hfold, hmarked, hdone⟩ := updateChildren_spec hp
      (idx₀.byBlockNum.filter fun b => b.prev = p.id)
      (fun c hc => ⟨(mem_filter.mp hc).1, of_decide_eq_true (mem_filter.mp hc).2⟩) h him
    obtain ⟨new', idx', hfold', hmarked', hall⟩ :=
      ih (acc.1 ++ new, idx) hmarked fun j hj => hlayer j (mem_cons_of_mem _ hj)
    rw [append_assoc] at hfold' hmarked' hall
    refine ⟨new ++ new', idx', ?_, hmarked', ?_⟩
    · rw [foldl_cons, h.children_eq]
      unfold children
      rw [hfold]
      exact hfold'
    intro j hj
    rcases mem_cons.mp hj with rfl | hj
    · intro b hb hprev
      rcases hdone b (mem_filter.mpr ⟨hb, decide_eq_true hprev⟩) with hm | hlarge
      · refine .inl ?_
        rw [← append_assoc acc.1, ← append_assoc marks]
        exact mem_append_left _ hm
      · exact .inr hlarge
    · exact hall j hj

lemma updateLayers_spec (fuel : Nat) {queue : List BlockId} {idx : ForkMultiIndex Key Sig}
    (h : Marked idx₀ root num marks idx) (hqueue : ∀ i ∈ queue, i ∈ marks)
    (hrest : ∀ i ∈ marks, i ∈ queue ∨ Settled idx₀ num marks i)
    (hfuel : idx₀.size < fuel + marks.length) :
    ∃ marks' idx', updateLayers num fuel queue idx = .ok idx' ∧
      Marked idx₀ root num marks' idx' ∧ ∀ i ∈ marks', Settled idx₀ num marks' i := by
  induction fuel generalizing queue idx marks with
  | zero =>
    have hle := h.length_le
    omega
  | succ fuel ih =>
    cases queue with
    | nil =>
      refine ⟨marks, idx, by rw [updateLayers], h, ?_⟩
      intro i hi
      exact (hrest i hi).resolve_left (by simp)
    | cons id queue =>
      have hstart : Marked idx₀ root num (marks ++ []) idx := by simpa using h
      obtain ⟨new, idx', hlayer, hmarked, hdone⟩ :=
        updateLayer_spec (id :: queue) ([], idx) hstart hqueue
      rw [nil_append] at hlayer hmarked hdone
      have hstep : updateLayers num (fuel + 1) (id :: queue) idx = updateLayers num fuel new idx' := by
        rw [updateLayers, updateLayer, hlayer]
      have hrest' : ∀ i ∈ marks ++ new, i ∈ new ∨ Settled idx₀ num (marks ++ new) i := by
        intro i hi
        rcases mem_append.mp hi with hi | hi
        · right
          rcases hrest i hi with hq | hs
          · exact hdone i hq
          · exact hs.mono fun j hj => mem_append_left _ hj
        · exact .inl hi
      rw [hstep]
      cases new with
      | nil =>
        refine ⟨marks ++ [], idx', by rw [updateLayers], hmarked, ?_⟩
        intro i hi
        exact (hrest' i hi).resolve_left (by simp)
      | cons j new =>
        apply ih hmarked (fun i hi => mem_append_right _ hi) hrest'
        rw [length_append, length_cons]
        omega

lemma exists_marks (db : ForkDatabase Key Sig) {b : BlockState Key Sig}
    (hb : b ∈ db.index.byBlockNum) : ∃ marks db', db.setBftIrreversible b.id = .ok db' ∧
      Marked db.index b b.blockNum marks db'.index ∧
      ∀ i ∈ marks, Settled db.index b.blockNum marks i := by
  have hstart : Marked db.index b b.blockNum [b.id] (db.index.setBft b.id b.blockNum) := by
    refine ⟨?_, by simp, nodup_singleton _, ?_, ?_⟩
    · rw [byBlockNum_setBft]
      simp
    · intro c _ hc
      exact .inl (mem_singleton.mp hc)
    · intro i hi
      exact ⟨b, hb, (mem_singleton.mp hi).symm, .refl⟩
  obtain ⟨marks, idx, hloop, hmarked, hsettled⟩ :=
    updateLayers_spec (db.index.size + 1) hstart (fun i hi => hi) (fun i hi => .inl hi)
      (by rw [length_singleton]; omega)
  refine ⟨marks, db.setIndex idx, ?_, hmarked, hsettled⟩
  unfold setBftIrreversible
  rw [find?_eq_some.mpr ⟨hb, rfl⟩]
  dsimp only
  rw [hloop]
  rfl

/-- The number of a block above `b` is raised to that of `b`, every other block is as before. -/
theorem setBftIrreversible_subtree (db : ForkDatabase Key Sig) {b : BlockState Key Sig}
    (hb : b ∈ db.index.byBlockNum) (hmono : db.index.BftMonotone)
    (hlow : b.bftIrreversibleBlocknum ≤ b.blockNum) :
    ∃ db', db.setBftIrreversible b.id = .ok db' ∧ db'.index.BftMonotone ∧ List.Forall₂ (fun c c' =>
        (db.index.Descends b c → c' = c.withBft (max c.bftIrreversibleBlocknum b.blockNum)) ∧
        (¬ db.index.Descends b c → c' = c)) db.index.byBlockNum db'.index.byBlockNum := by
  obtain ⟨marks, db', hset, hmarked, hsettled⟩ := db.exists_marks hb
  have hone : ∀ c ∈ db.index.byBlockNum,
      (db.index.Descends b c → (if c.id ∈ marks then c.withBft b.blockNum else c) =
        c.withBft (max c.bftIrreversibleBlocknum b.blockNum)) ∧
      (¬ db.index.Descends b c → (if c.id ∈ marks then c.withBft b.blockNum else c) = c) := by
    intro c hc
    by_cases hm : c.id ∈ marks
    · obtain ⟨d, hd, hdc, hdesc⟩ := hmarked.above c.id hm
      have hdc' : d = c := eq_of_id hd hc hdc
      subst hdc'
      have hle : d.bftIrreversibleBlocknum ≤ b.blockNum := by
        rcases hmarked.low d hd hm with hroot | hlt
        · rw [eq_of_id hd hb hroot]
          exact hlow
        · exact le_of_lt hlt
      refine ⟨fun _ => ?_, fun hnot => absurd hdesc hnot⟩
      rw [if_pos hm, max_eq_right hle]
    rw [if_neg hm]
    refine ⟨fun hdesc => ?_, fun _ => rfl⟩
    have hlarge := (hmarked.of_settled hmono hsettled hc hdesc).resolve_left hm
    rw [max_eq_left hlarge]
    rfl
  refine ⟨db', hset, ?_, ?_⟩
  · -- a raised parent has raised children, and a number is never lowered
    intro c' hc' p' hp' hprev
    rw [hmarked.blocks] at hc' hp'
    obtain ⟨c, hc, rfl⟩ := mem_map.mp hc'
    obtain ⟨p, hp, rfl⟩ := mem_map.mp hp'
    have hcp : c.prev = p.id := by
      have hids : (if p.id ∈ marks then p.withBft b.blockNum else p).id = p.id := by split <;> rfl
      have hprevs : (if c.id ∈ marks then c.withBft b.blockNum else c).prev = c.prev := by
        split <;> rfl
      rw [hids, hprevs] at hprev
      exact hprev
    have hle := hmono c hc p hp hcp
    have hpc : db.index.Descends b p → db.index.Descends b c :=
      fun hd => .head ⟨mem_blocks hp, hcp⟩ hd
    by_cases hdp : db.index.Descends b p
    · rw [(hone p hp).1 hdp, (hone c hc).1 (hpc hdp)]
      rw [withBft_bft, withBft_bft]
      omega
    rw [(hone p hp).2 hdp]
    by_cases hdc : db.index.Descends b c
    · rw [(hone c hc).1 hdc]
      exact le_trans hle (le_max_left _ _)
    · rw [(hone c hc).2 hdc]
      exact hle
  · rw [hmarked.blocks, forall₂_map_right_iff, forall₂_same]
    exact hone

/-- Two branches from a block of number 1; the blocks have the given irreversible numbers. -/
def bftBlocks (root left right top : Nat) : List (BlockState Nat Nat) :=
  let g := blockOn default 1 0
  let a := blockOn g.id 2 0
  let b := blockOn g.id 3 0
  let c := blockOn a.id 4 0
  [g.withBft root, a.withBft left, b.withBft right, c.withBft top]

def bftDatabase (root left right top : Nat) : ForkDatabase Nat Nat where
  index := (bftBlocks root left right top).foldl (fun idx b => (idx.insert b).getD idx) .empty
  head := none

def leftId : BlockId := (blockOn (blockOn default 1 0).id 2 0).id

/-- A block whose number was above its own loses it, and falls below its parent. -/
theorem own_number_lowered : ∃ b, (bftDatabase 5 9 5 9).index.find? leftId = some b ∧
      (bftDatabase 5 9 5 9).index.BftMonotone ∧
      ∃ db', (bftDatabase 5 9 5 9).setBftIrreversible b.id = .ok db' ∧ ¬ db'.index.BftMonotone ∧
        ∃ c, db'.index.find? b.id = some c ∧
          c.bftIrreversibleBlocknum < max b.bftIrreversibleBlocknum b.blockNum := by
  have hfound : ((bftDatabase 5 9 5 9).index.find? leftId).map
      (fun b => max b.bftIrreversibleBlocknum b.blockNum) = some 9 := by decide +kernel
  obtain ⟨b, hb, hmax⟩ := Option.map_eq_some_iff.mp hfound
  have hrun : okAnd ((bftDatabase 5 9 5 9).setBftIrreversible leftId) (fun db' =>
      decide (¬ db'.index.BftMonotone) &&
        decide ((db'.index.find? leftId).map (fun c => c.bftIrreversibleBlocknum) = some 2)) =
      true := by decide +kernel
  obtain ⟨db', hset, htest⟩ := exists_ok_of_okAnd hrun
  rw [Bool.and_eq_true, decide_eq_true_eq, decide_eq_true_eq] at htest
  obtain ⟨c, hc, hnum⟩ := Option.map_eq_some_iff.mp htest.2
  have hid : b.id = leftId := (find?_eq_some.mp hb).2
  refine ⟨b, hb, by decide +kernel, db', hid.symm ▸ hset, htest.1, c, hid.symm ▸ hc, ?_⟩
  rw [hmax, hnum]
  decide

theorem setBftIrreversible_subtree_left : ∃ b, (bftDatabase 0 0 0 1).index.find? leftId = some b ∧
      ∃ db', (bftDatabase 0 0 0 1).setBftIrreversible b.id = .ok db' ∧ db'.index.BftMonotone ∧
        List.Forall₂ (fun c c' =>
          ((bftDatabase 0 0 0 1).index.Descends b c →
            c' = c.withBft (max c.bftIrreversibleBlocknum b.blockNum)) ∧
          (¬ (bftDatabase 0 0 0 1).index.Descends b c → c' = c))
          (bftDatabase 0 0 0 1).index.byBlockNum db'.index.byBlockNum := by
  have hfound : ((bftDatabase 0 0 0 1).index.find? leftId).map
      (fun b => decide (b.bftIrreversibleBlocknum ≤ b.blockNum)) = some true := by decide +kernel
  obtain ⟨b, hb, hlow⟩ := Option.map_eq_some_iff.mp hfound
  exact ⟨b, hb, setBftIrreversible_subtree _ (find?_eq_some.mp hb).1 (by decide +kernel)
    (of_decide_eq_true hlow)⟩

end ForkDatabase

end DimensionChain
