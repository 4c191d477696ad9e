import DimensionChain.Base.Lineage
import DimensionChain.Base.OrderedIndex
import DimensionChain.Chain.BlockHeaderState

/-!
# The index of the fork database

The multi-index container of `fork_database.cpp` by two of its orders: `by_block_num`, with the
blocks of the current chain first in each number, and `by_lib_block_num`, with the best block
first. Look-ups go through the first one. Both orders hold the same blocks, each id once.
-/

namespace DimensionChain

open List OrderedIndex

structure SignedBlock (Key Sig : Type) extends SignedBlockHeader Key Sig where
  blockExtensions : List (Nat × List UInt8) := []
  deriving DecidableEq, Repr

/-- A `block_state` without its two flags. -/
structure BlockData (Key Sig : Type) extends BlockHeaderState Key Sig where
  block : Option (SignedBlock Key Sig) := none

structure BlockState (Key Sig : Type) extends BlockData Key Sig where
  validated : Bool := false
  inCurrentChain : Bool := false

variable {Key Sig : Type}

def BlockData.prev (b : BlockData Key Sig) : BlockId := b.header.previous

abbrev blockLinks : Links (BlockData Key Sig) BlockId where
  ident b := b.id
  parent b := b.prev
  height b := b.blockNum

/-- The order of `by_block_num`: lower numbers first, then blocks of the current chain. -/
def BlockState.numBefore (a b : BlockState Key Sig) : Prop :=
  a.blockNum < b.blockNum ∨
    a.blockNum = b.blockNum ∧ a.inCurrentChain = true ∧ b.inCurrentChain = false

def BlockData.ranksAbove (a b : BlockData Key Sig) : Prop :=
  b.dposIrreversibleBlocknum < a.dposIrreversibleBlocknum ∨
    a.dposIrreversibleBlocknum = b.dposIrreversibleBlocknum ∧
      (b.bftIrreversibleBlocknum < a.bftIrreversibleBlocknum ∨
        a.bftIrreversibleBlocknum = b.bftIrreversibleBlocknum ∧ b.blockNum < a.blockNum)

instance (a b : BlockState Key Sig) : Decidable (a.numBefore b) :=
  inferInstanceAs (Decidable (_ ∨ _))

instance (a b : BlockData Key Sig) : Decidable (a.ranksAbove b) :=
  inferInstanceAs (Decidable (_ ∨ _))

instance : DecidableRel (@BlockState.numBefore Key Sig) :=
  fun _ _ => inferInstance

instance : DecidableRel (@BlockData.ranksAbove Key Sig) :=
  fun _ _ => inferInstance

lemma numBefore_precedence : Precedence (@BlockState.numBefore Key Sig) where
  asymm := by
    intro a b hab hba
    rcases hab with h | ⟨h, h1, h2⟩ <;> rcases hba with h' | ⟨h', h1', h2'⟩
    · omega
    · omega
    · omega
    · rw [h1] at h2'
      simp at h2'
  negTrans := by
    intro a b c hab hbc hca
    unfold BlockState.numBefore at hab hbc hca
    rw [not_or] at hab hbc
    rcases hca with h | ⟨h, h1, h2⟩
    · omega
    have hb : b.inCurrentChain = false := by
      cases hb : b.inCurrentChain with
      | false => rfl
      | true => exact absurd ⟨by omega, hb, h2⟩ hab.2
    exact hbc.2 ⟨by omega, h1, hb⟩

lemma ranksAbove_precedence : Precedence (@BlockData.ranksAbove Key Sig) where
  asymm := by
    intro a b hab hba
    unfold BlockData.ranksAbove at hab hba
    omega
  negTrans := by
    intro a b c hab hbc hca
    unfold BlockData.ranksAbove at hab hbc hca
    omega

lemma ranksAbove_irrefl (a : BlockData Key Sig) : ¬ a.ranksAbove a := by
  unfold BlockData.ranksAbove
  omega

section Flags
variable {l : List (BlockState Key Sig)} {id : BlockId} {f : BlockState Key Sig → BlockState Key Sig}

lemma perm_modify_id (hunique : (l.map fun b => b.id).Nodup) :
    (modify BlockState.numBefore (fun b => b.id = id) f l).Perm
      (l.map fun b => if b.id = id then f b else b) := by
  have hone : l.Pairwise fun a b => ¬ (decide (a.id = id) = true ∧ decide (b.id = id) = true) := by
    apply (pairwise_map.mp hunique).imp
    intro a b hab hp
    have ha : a.id = id := by simpa using hp.1
    have hb : b.id = id := by simpa using hp.2
    exact hab (ha.trans hb.symm)
  have hperm : (modify BlockState.numBefore (fun b => b.id = id) f l).Perm _ :=
    perm_modify (fun b => b.id = id) f hone
  simpa only [decide_eq_true_eq] using hperm

variable (l id f) (hf : ∀ b, (f b).toBlockData = b.toBlockData)
include hf

lemma map_data_flag : (l.map fun b => if b.id = id then f b else b).map BlockState.toBlockData =
      l.map BlockState.toBlockData := by
  rw [map_map]
  apply map_congr_left
  intro b _
  dsimp only [Function.comp]
  split
  · exact hf b
  · rfl

lemma map_id_flag :
    (l.map fun b => if b.id = id then f b else b).map (fun b => b.id) = l.map fun b => b.id := by
  rw [map_map]
  apply map_congr_left
  intro b _
  dsimp only [Function.comp]
  split
  · exact congrArg (fun d : BlockData Key Sig => d.id) (hf b)
  · rfl

end Flags

structure ForkMultiIndex (Key Sig : Type) where
  byBlockNum : List (BlockState Key Sig)
  byLibBlockNum : List (BlockData Key Sig)
  unique : (byBlockNum.map fun b => b.id).Nodup
  same : (byBlockNum.map BlockState.toBlockData).Perm byLibBlockNum
  numOrdered : OrderedIndex.Ordered BlockState.numBefore byBlockNum
  libOrdered : OrderedIndex.Ordered BlockData.ranksAbove byLibBlockNum

namespace ForkMultiIndex

@[ext] lemma ext {idx idx' : ForkMultiIndex Key Sig} (hnum : idx.byBlockNum = idx'.byBlockNum)
    (hlib : idx.byLibBlockNum = idx'.byLibBlockNum) : idx = idx' := by
  cases idx
  cases idx'
  cases hnum
  cases hlib
  rfl

def empty : ForkMultiIndex Key Sig where
  byBlockNum := []
  byLibBlockNum := []
  unique := nodup_nil
  same := List.Perm.refl _
  numOrdered := List.Pairwise.nil
  libOrdered := List.Pairwise.nil

def size (idx : ForkMultiIndex Key Sig) : Nat := idx.byBlockNum.length

def find? (idx : ForkMultiIndex Key Sig) (id : BlockId) : Option (BlockState Key Sig) :=
  idx.byBlockNum.find? fun b => b.id = id

def children (idx : ForkMultiIndex Key Sig) (id : BlockId) : List BlockId :=
  (idx.byBlockNum.filter fun b => b.prev = id).map fun b => b.id

/-- The block behind `id` in the order of the numbers. -/
def next? (idx : ForkMultiIndex Key Sig) (id : BlockId) : Option BlockId :=
  ((idx.byBlockNum.dropWhile fun b => b.id ≠ id).drop 1).head?.map fun b => b.id

variable {idx : ForkMultiIndex Key Sig} {d : BlockData Key Sig} {id : BlockId}

lemma mem_blocks_iff : d ∈ idx.byLibBlockNum ↔ ∃ b ∈ idx.byBlockNum, b.toBlockData = d := by
  rw [← idx.same.mem_iff, mem_map]

lemma mem_blocks {b : BlockState Key Sig}
    (hb : b ∈ idx.byBlockNum) : b.toBlockData ∈ idx.byLibBlockNum :=
  mem_blocks_iff.mpr ⟨b, hb, rfl⟩

lemma unique_blocks (idx : ForkMultiIndex Key Sig) :
    (idx.byLibBlockNum.map fun b => b.id).Nodup := by
  have hperm := idx.same.map fun b : BlockData Key Sig => b.id
  rw [map_map] at hperm
  exact hperm.nodup_iff.mp idx.unique

lemma eq_of_id {a b : BlockState Key Sig}
    (ha : a ∈ idx.byBlockNum) (hb : b ∈ idx.byBlockNum) (hab : a.id = b.id) : a = b :=
  inj_on_of_nodup_map idx.unique ha hb hab

lemma find?_eq_some {b : BlockState Key Sig} :
    idx.find? id = some b ↔ b ∈ idx.byBlockNum ∧ b.id = id := by
  constructor
  · intro h
    exact ⟨mem_of_find?_eq_some h, by simpa using find?_some h⟩
  intro h
  obtain ⟨hb, hid⟩ := h
  cases hf : idx.find? id with
  | none =>
    have hnone := find?_eq_none.mp hf b hb
    simp [hid] at hnone
  | some c =>
    have hc : c.id = id := by simpa using find?_some hf
    rw [eq_of_id (mem_of_find?_eq_some hf) hb (hc.trans hid.symm)]

lemma find?_eq_none : idx.find? id = none ↔ ∀ b ∈ idx.byBlockNum, b.id ≠ id := by
  unfold find?
  simp

lemma exists_find?
    (hd : d ∈ idx.byLibBlockNum) : ∃ b, idx.find? d.id = some b ∧ b.toBlockData = d := by
  obtain ⟨b, hb, rfl⟩ := mem_blocks_iff.mp hd
  exact ⟨b, find?_eq_some.mpr ⟨hb, rfl⟩, rfl⟩

/-- Insert a block; `none` when its id is already there. -/
def insert (idx : ForkMultiIndex Key Sig) (n : BlockState Key Sig) :
    Option (ForkMultiIndex Key Sig) :=
  if h : ∀ b ∈ idx.byBlockNum, b.id ≠ n.id then
    some
      { byBlockNum := idx.byBlockNum.orderedInsert BlockState.numBefore n
        byLibBlockNum := idx.byLibBlockNum.orderedInsert BlockData.ranksAbove n.toBlockData
        unique := by
          have hperm := (perm_orderedInsert BlockState.numBefore n idx.byBlockNum).map
            fun b : BlockState Key Sig => b.id
          rw [hperm.nodup_iff, map_cons, nodup_cons]
          refine ⟨?_, idx.unique⟩
          intro hmem
          obtain ⟨b, hb, hid⟩ := mem_map.mp hmem
          exact h b hb hid
        same := by
          have hnum := (perm_orderedInsert BlockState.numBefore n idx.byBlockNum).map
            BlockState.toBlockData
          have hlib := perm_orderedInsert BlockData.ranksAbove n.toBlockData idx.byLibBlockNum
          exact hnum.trans ((idx.same.cons n.toBlockData).trans hlib.symm)
        numOrdered := ordered_insert numBefore_precedence idx.numOrdered n
        libOrdered := ordered_insert ranksAbove_precedence idx.libOrdered _ }
  else none

def eraseIf (idx : ForkMultiIndex Key Sig) (E : BlockId → Bool) : ForkMultiIndex Key Sig where
  byBlockNum := idx.byBlockNum.filter fun b => !E b.id
  byLibBlockNum := idx.byLibBlockNum.filter fun b => !E b.id
  unique := idx.unique.sublist (filter_sublist.map _)
  same := by
    have hfilter := idx.same.filter fun b : BlockData Key Sig => !E b.id
    rw [filter_map] at hfilter
    exact hfilter
  numOrdered := idx.numOrdered.filter _
  libOrdered := idx.libOrdered.filter _

def erase (idx : ForkMultiIndex Key Sig) (id : BlockId) : ForkMultiIndex Key Sig :=
  idx.eraseIf fun i => i = id

def setInCurrentChain (idx : ForkMultiIndex Key Sig) (id : BlockId) (flag : Bool) :
    ForkMultiIndex Key Sig where
  byBlockNum := modify BlockState.numBefore (fun b => b.id = id)
    (fun b => { b with inCurrentChain := flag }) idx.byBlockNum
  byLibBlockNum := idx.byLibBlockNum
  unique := by
    rw [((perm_modify_id idx.unique).map fun b : BlockState Key Sig => b.id).nodup_iff,
      map_id_flag _ _ (fun b => { b with inCurrentChain := flag }) fun _ => rfl]
    exact idx.unique
  same := by
    refine ((perm_modify_id idx.unique).map BlockState.toBlockData).trans ?_
    rw [map_data_flag _ _ (fun b => { b with inCurrentChain := flag }) fun _ => rfl]
    exact idx.same
  numOrdered := ordered_modify numBefore_precedence idx.numOrdered
  libOrdered := idx.libOrdered

/-- The block `id` with its `validated` flag set; no order depends on it. -/
def setValidated (idx : ForkMultiIndex Key Sig) (id : BlockId) : ForkMultiIndex Key Sig where
  byBlockNum := idx.byBlockNum.map fun b => if b.id = id then { b with validated := true } else b
  byLibBlockNum := idx.byLibBlockNum
  unique := by
    rw [map_id_flag _ _ (fun b => { b with validated := true }) fun _ => rfl]
    exact idx.unique
  same := by
    rw [map_data_flag _ _ (fun b => { b with validated := true }) fun _ => rfl]
    exact idx.same
  numOrdered := by
    refine pairwise_map.mpr (idx.numOrdered.imp ?_)
    intro a b hab
    unfold BlockState.numBefore at hab ⊢
    split <;> split <;> exact hab
  libOrdered := idx.libOrdered

variable {idx' : ForkMultiIndex Key Sig} {n : BlockState Key Sig} (h : idx.insert n = some idx')
  {b : BlockData Key Sig} {c : BlockState Key Sig} {E : BlockId → Bool}
include h

lemma insert_eq_some : (∀ b ∈ idx.byBlockNum, b.id ≠ n.id) ∧
      idx'.byBlockNum = idx.byBlockNum.orderedInsert BlockState.numBefore n ∧
      idx'.byLibBlockNum = idx.byLibBlockNum.orderedInsert BlockData.ranksAbove n.toBlockData := by
  unfold insert at h
  split at h
  · rename_i hfresh
    have heq := Option.some.inj h
    subst heq
    exact ⟨hfresh, rfl, rfl⟩
  · simp at h

omit h in
lemma exists_insert (idx : ForkMultiIndex Key Sig) (h : ∀ b ∈ idx.byBlockNum, b.id ≠ n.id) :
    ∃ idx', idx.insert n = some idx' := by
  unfold insert
  rw [dif_pos h]
  exact ⟨_, rfl⟩

omit h in
lemma insert_eq_none : idx.insert n = none ↔ ∃ b ∈ idx.byBlockNum, b.id = n.id := by
  unfold insert
  split
  · rename_i h
    simp only [reduceCtorEq, false_iff]
    intro hex
    obtain ⟨b, hb, hid⟩ := hex
    exact h b hb hid
  · rename_i h
    simpa using h

lemma mem_insert {b : BlockState Key Sig} : b ∈ idx'.byBlockNum ↔ b = n ∨ b ∈ idx.byBlockNum := by
  rw [(insert_eq_some h).2.1, (perm_orderedInsert _ _ _).mem_iff, mem_cons]

lemma blocks_insert_perm : (n.toBlockData :: idx.byLibBlockNum).Perm idx'.byLibBlockNum := by
  rw [(insert_eq_some h).2.2]
  exact (perm_orderedInsert _ _ _).symm

lemma mem_blocks_of_insert (hb : b ∈ idx.byLibBlockNum) : b ∈ idx'.byLibBlockNum :=
  (blocks_insert_perm h).mem_iff.mp (mem_cons_of_mem _ hb)

lemma not_mem_of_insert : n.toBlockData ∉ idx.byLibBlockNum := by
  intro hmem
  obtain ⟨b, hb, hbn⟩ := mem_blocks_iff.mp hmem
  apply (insert_eq_some h).1 b hb
  rw [hbn]

omit h

lemma exists_front (hb : b ∈ idx.byLibBlockNum) : ∃ s, idx.byBlockNum.head? = some s := by
  obtain ⟨d, hd, -⟩ := mem_blocks_iff.mp hb
  obtain ⟨s, l, hsl⟩ := exists_cons_of_ne_nil (ne_nil_of_mem hd)
  exact ⟨s, by rw [hsl, head?_cons]⟩

lemma mem_eraseIf {b : BlockState Key Sig} :
    b ∈ (idx.eraseIf E).byBlockNum ↔ b ∈ idx.byBlockNum ∧ E b.id = false := by
  simp [eraseIf, mem_filter]

lemma mem_blocks_eraseIf :
    b ∈ (idx.eraseIf E).byLibBlockNum ↔ b ∈ idx.byLibBlockNum ∧ E b.id = false := by
  simp [eraseIf, mem_filter]

lemma eraseIf_eraseIf (E F : BlockId → Bool) :
    (idx.eraseIf E).eraseIf F = idx.eraseIf fun i => E i || F i := by
  apply ext
  · simp only [eraseIf, filter_filter]
    congr 1
    funext b
    cases E b.id <;> cases F b.id <;> rfl
  simp only [eraseIf, filter_filter]
  congr 1
  funext b
  cases E b.id <;> cases F b.id <;> rfl

lemma mem_setInCurrentChain {flag : Bool} : c ∈ (idx.setInCurrentChain id flag).byBlockNum ↔
      ∃ b ∈ idx.byBlockNum, c = if b.id = id then { b with inCurrentChain := flag } else b := by
  rw [setInCurrentChain, (perm_modify_id idx.unique).mem_iff, mem_map]
  simp [eq_comm]

lemma mem_setValidated : c ∈ (idx.setValidated id).byBlockNum ↔
      ∃ b ∈ idx.byBlockNum, c = if b.id = id then { b with validated := true } else b := by
  simp only [setValidated, mem_map, eq_comm]

end ForkMultiIndex

end DimensionChain
