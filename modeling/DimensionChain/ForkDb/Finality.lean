import DimensionChain.ForkDb.ForkTree

/-!
# What pruning makes final

Blocks are signalled as irreversible one number after the other and link to each other.
The signalled block is the first of its number, with the current chain before the other
branches; whether the head that was just chosen descends from it is not looked at.
-/

namespace DimensionChain

open ForkMultiIndex Option

variable {Key Sig : Type}

abbrev Recorder (Key Sig : Type) := Hosted Key Sig (List (BlockData Key Sig))

def recordSignal : Slot Key Sig (List (BlockData Key Sig)) :=
  fun b w => .ok { w with env := b :: w.env }

namespace Recorder
variable (T : BlockTree Key Sig)

/-- If the addition of `n` makes the lowest number irreversible, then the ancestor of the winner
with that number stands alone there, or it alone is marked as current chain and the first block
above that number is built on it. -/
def Undisputed (w : Recorder Key Sig) (n : BlockState Key Sig) : Prop :=
  ∀ hd ∈ w.winner n, ∀ y ∈ w.forkDb.index.byBlockNum,
    blockLinks.Ancestor T.mem y.toBlockData hd →
    (∀ b ∈ w.forkDb.index.byBlockNum, y.blockNum ≤ b.blockNum) →
    y.blockNum < hd.dposIrreversibleBlocknum →
    (∀ z ∈ w.forkDb.index.byBlockNum, z.blockNum = y.blockNum → z = y) ∨
    ((∀ z ∈ w.forkDb.index.byBlockNum, z.blockNum = y.blockNum →
        z = y ∨ (y.inCurrentChain = true ∧ z.inCurrentChain = false)) ∧
      ∀ index ∈ w.forkDb.index.insert n,
        ∀ f ∈ index.byBlockNum.find? fun b => y.blockNum < b.blockNum, f.prev = y.id)

inductive Step (w : Recorder Key Sig) : Recorder Key Sig → Prop where
  | add (n : BlockState Key Sig) (skip : Bool) : T.mem n.toBlockData →
      (skip = true → ∃ p ∈ w.forkDb.index.byLibBlockNum, n.prev = p.id) → Undisputed T w n →
      Step w (w.add recordSignal n skip).state
  | mark (b : BlockData Key Sig) (flag : Bool) (db : ForkDatabase Key Sig) :
      w.forkDb.markInCurrentChain b flag = .ok db → Step w { w with forkDb := db }

variable {T}

lemma markInCurrentChain_blocks {db db' : ForkDatabase Key Sig} {b : BlockData Key Sig}
    {flag : Bool} (h : db.markInCurrentChain b flag = .ok db') :
    db'.index.byLibBlockNum = db.index.byLibBlockNum ∧ db'.head = db.head := by
  unfold ForkDatabase.markInCurrentChain at h
  split at h
  · simp at h
  split at h
  · rw [← Except.ok.inj h]
    exact ⟨rfl, rfl⟩
  · rw [← Except.ok.inj h]
    exact ⟨rfl, rfl⟩

section Add
variable {w : Recorder Key Sig} {n : BlockState Key Sig} {skip : Bool} {u w' : Recorder Key Sig}
  {hd : BlockData Key Sig}

structure Prunes (T : BlockTree Key Sig) (w : Recorder Key Sig) (n : BlockState Key Sig)
    (hd : BlockData Key Sig) (u : Recorder Key Sig) (x : BlockState Key Sig) : Prop where
  parent : ∃ p ∈ w.forkDb.index.byLibBlockNum, n.prev = p.id
  inserted : w.forkDb.index.insert n = some u.forkDb.index
  tree : ForkTree T w.env u.forkDb
  head : u.forkDb.head = some hd
  front : u.forkDb.index.byBlockNum.head? = some x
  below : x.blockNum < hd.dposIrreversibleBlocknum

lemma Prunes.mem_of_lowest
    {x c : BlockState Key Sig} (hp : Prunes T w n hd u x) (h : ForkTree T w.env w.forkDb)
    (hn : T.mem n.toBlockData) (hc : c ∈ u.forkDb.index.byBlockNum)
    (hcnum : c.blockNum = T.rootNum w.env + 1) : c ∈ w.forkDb.index.byBlockNum := by
  rcases (mem_insert hp.inserted).mp hc with rfl | hc
  · obtain ⟨p, hp, hpar⟩ := hp.parent
    have hplow := h.rootNum_lt hp
    have hnum := T.num_of_parent _ p hn (h.members p hp) hpar
    omega
  · exact hc

lemma Prunes.exists_lowest {x : BlockState Key Sig} (hp : Prunes T w n hd u x) {b : BlockData Key Sig}
    (hb : b ∈ u.forkDb.index.byLibBlockNum) (hlt : T.rootNum w.env + 1 < b.blockNum) :
    ∃ l, ∃ c ∈ u.forkDb.index.byBlockNum, c.blockNum = T.rootNum w.env + 1 ∧
      T.Branch w.env u.forkDb.index (b :: l ++ [c.toBlockData]) := by
  obtain ⟨m, hm⟩ := hp.tree.rooted.exists_branch hb
  rcases List.eq_nil_or_concat m with rfl | ⟨l, y, rfl⟩
  · have hbnum : b.blockNum = T.rootNum w.env + 1 := hm.height_cons
    omega
  rw [List.concat_eq_append] at hm
  obtain ⟨c, hc, rfl⟩ := mem_blocks_iff.mp (hm.mem y (by simp))
  exact ⟨l, c, hc, (Links.Branch.parent_last (l := b :: l) hm).2, hm⟩

/-- The winner and the block at which the loop of `prune` ends are built on the front. -/
lemma Prunes.branch_of_undisputed
    {x : BlockState Key Sig} (hp : Prunes T w n hd u x) (hlib : T.LibBelow)
    (h : ForkTree T w.env w.forkDb) (hn : T.mem n.toBlockData) (hwin : w.winner n = some hd)
    (hundisputed : Undisputed T w n) :
    (∃ l, T.Branch w.env u.forkDb.index (hd :: l ++ [x.toBlockData])) ∧
    ∀ f, u.forkDb.index.byBlockNum.find? (fun b => x.blockNum < b.blockNum) = some f →
      ∃ l, T.Branch w.env u.forkDb.index (f.toBlockData :: l ++ [x.toBlockData]) := by
  obtain ⟨hxnum, hmarked⟩ := hp.tree.front_lowest hp.front
  have hxw := hp.mem_of_lowest h hn (List.mem_of_mem_head? hp.front) hxnum
  have hhd := hp.tree.head_mem hp.head
  have hhigh := hlib hd (hp.tree.members hd hhd)
  have hlow := hp.below
  obtain ⟨l, c, hc, hcnum, hl⟩ := hp.exists_lowest hhd (by omega)
  have hcases := hundisputed hd hwin c (hp.mem_of_lowest h hn hc hcnum)
    (hl.ancestor hp.tree.members (by simp))
    (fun b hb => hcnum ▸ h.rootNum_lt (mem_blocks hb)) (by omega)
  have hxc : x = c := by
    rcases hcases with halone | ⟨hmark, -⟩
    · exact halone x hxw (hxnum.trans hcnum.symm)
    rcases hmark x hxw (hxnum.trans hcnum.symm) with hxc | ⟨hcmark, hxmark⟩
    · exact hxc
    · rw [hmarked c hc hcnum hcmark] at hxmark
      simp at hxmark
  subst hxc
  refine ⟨⟨l, hl⟩, fun f hf => ?_⟩
  have hfmem := mem_blocks (List.mem_of_find?_eq_some hf)
  have hfnum : x.blockNum < f.blockNum := by simpa using List.find?_some hf
  obtain ⟨k, d, hd', hdnum, hk⟩ := hp.exists_lowest hfmem (by omega)
  rcases hcases with halone | ⟨-, hnext⟩
  · rw [halone d (hp.mem_of_lowest h hn hd' hdnum) (hdnum.trans hxnum.symm)] at hk
    exact ⟨k, hk⟩
  -- `f` is built on `x` directly, so the lowest block below it is `x`
  have hprev : f.prev = x.id := hnext _ hp.inserted f hf
  have hdx : d.toBlockData = x.toBlockData :=
    BlockTree.ancestor_eq_of_num (hp.tree.members _ hfmem)
      (hk.ancestor hp.tree.members (by simp))
      (.single ⟨hp.tree.members _ (mem_blocks hc), hprev⟩) (hdnum.trans hxnum.symm)
  exact ⟨k, hdx ▸ hk⟩

lemma add_tree (hlib : T.LibBelow) (h : ForkTree T w.env w.forkDb) (hn : T.mem n.toBlockData)
    (hlink : skip = true → ∃ p ∈ w.forkDb.index.byLibBlockNum, n.prev = p.id)
    (hundisputed : Undisputed T w n) :
    (∃ e, w.add recordSignal n skip = .throw e w) ∨
    (∃ w' hd, w.add recordSignal n skip = .ok w' ∧ ForkTree T w'.env w'.forkDb ∧
      w.winner n = some hd ∧ w'.forkDb.head = some hd ∧
      (w'.env = w.env ∨ ∃ x, w'.env = x :: w.env ∧ blockLinks.Ancestor T.mem x hd)) := by
  rcases h.add_cases recordSignal skip hn hlink with
    ⟨e, he, -⟩ | ⟨u, hd, x, hparent, hins, henv, htree, hwin, hhead, hx, hcase⟩
  · exact .inl ⟨e, he⟩
  right
  rcases hcase with ⟨-, hadd⟩ | ⟨hlt, hadd⟩
  · exact ⟨u, hd, hadd, henv ▸ htree, hwin, hhead, .inl henv⟩
  have hp : Prunes T w n hd u x := ⟨hparent, hins, htree, hhead, hx, hlt⟩
  obtain ⟨⟨l, hl⟩, hnext⟩ := hp.branch_of_undisputed hlib h hn hwin hundisputed
  have hxmem := mem_blocks (List.mem_of_mem_head? hx)
  have hne : u.forkDb.head ≠ some x.toBlockData := by
    intro heq
    have hdx : hd = x.toBlockData := some.inj (hhead.symm.trans heq)
    have hbelow := hlib x.toBlockData (htree.members _ hxmem)
    rw [hdx] at hlt
    omega
  obtain ⟨w', E, hprune, henv', hindex, hE, htree'⟩ :=
    htree.pruneLevel recordSignal hxmem (htree.front_lowest hx).1 rfl rfl hne hnext
  have hrec : w'.env = x.toBlockData :: w.env := by rw [henv', ← henv]
  have hhd := htree.head_mem hhead
  have hkept : hd ∈ w'.forkDb.index.byLibBlockNum := by
    rw [hindex, mem_blocks_eraseIf]
    exact ⟨hhd, (hE hd hhd).mpr ⟨l, hl⟩⟩
  exact ⟨w', hd, hadd.trans hprune, hrec ▸ htree', hwin,
    htree.head_eraseIf htree' hindex hhead hkept,
    .inr ⟨x.toBlockData, hrec, hl.ancestor htree.members (by simp)⟩⟩

end Add

lemma tree_of_run (hlib : T.LibBelow) {g : BlockState Key Sig} (hg : g.toBlockData = T.genesis)
    {w : Recorder Key Sig} (hrun : Relation.ReflTransGen (Step T) ⟨.ofGenesis g, []⟩ w) :
    ForkTree T w.env w.forkDb := by
  induction hrun with
  | refl => exact .ofGenesis T hg
  | @tail u v _ hstep ih =>
    cases hstep with
    | add n skip hn hlink hundisputed =>
      rcases add_tree hlib ih hn hlink hundisputed with ⟨e, he⟩ | ⟨w', hd, hw', htree, -⟩
      · rw [he]
        exact ih
      · rw [hw']
        exact htree
    | mark b flag db hmark =>
      obtain ⟨hblocks, hhead⟩ := markInCurrentChain_blocks hmark
      exact ih.of_blocks hblocks hhead

/-- Along every run of undisputed additions the signalled blocks have consecutive numbers and
link to each other. A further one is refused, or it signals nothing but an ancestor of the head
which it chooses and keeps. -/
theorem signalled_ancestor_of_undisputed (hlib : T.LibBelow) {g : BlockState Key Sig}
    (hg : g.toBlockData = T.genesis) {w : Recorder Key Sig}
    (hrun : Relation.ReflTransGen (Step T) ⟨.ofGenesis g, []⟩ w) :
    (w.env.IsChain fun a b => a.prev = b.id ∧ a.blockNum = b.blockNum + 1) ∧
    ∀ n skip, T.mem n.toBlockData →
      (skip = true → ∃ p ∈ w.forkDb.index.byLibBlockNum, n.prev = p.id) → Undisputed T w n →
      (∃ e, w.add recordSignal n skip = .throw e w) ∨
      ∃ w' hd, w.add recordSignal n skip = .ok w' ∧ w.winner n = some hd ∧
        w'.forkDb.head = some hd ∧
        (w'.env = w.env ∨ ∃ x, w'.env = x :: w.env ∧ blockLinks.Ancestor T.mem x hd) := by
  have htree := tree_of_run hlib hg hrun
  refine ⟨htree.history.isChain, ?_⟩
  intro n skip hn hlink hundisputed
  rcases add_tree hlib htree hn hlink hundisputed with he | ⟨w', hd, hadd, -, hcase⟩
  · exact .inl he
  · exact .inr ⟨w', hd, hadd, hcase⟩

/-- Two branches from the genesis block: `a2`, `a3` and the longer `b2`, `b3`, `b4`. -/
def g1 : BlockState Nat Nat := blockOn default 1 0
def a2 : BlockState Nat Nat := blockOn g1.id 2 0
def a3 : BlockState Nat Nat := blockOn a2.id 3 0
def b2 : BlockState Nat Nat := blockOn g1.id 4 0
def b3 : BlockState Nat Nat := blockOn b2.id 5 2
def b4 : BlockState Nat Nat := blockOn b3.id 6 3

def branchBlocks : List (BlockData Nat Nat) :=
  [a2.toBlockData, a3.toBlockData, b2.toBlockData, b3.toBlockData, b4.toBlockData]

def twoBranches : BlockTree Nat Nat :=
  .ofList g1.toBlockData branchBlocks (by decide +kernel) (by decide +kernel) (by decide +kernel)
    (by decide +kernel) (by decide +kernel)

lemma twoBranches_libBelow : twoBranches.LibBelow := by
  change ∀ b ∈ g1.toBlockData :: branchBlocks, b.dposIrreversibleBlocknum < b.blockNum
  decide +kernel

lemma twoBranches_libMonotone : ∀ a b, twoBranches.mem a → twoBranches.mem b →
    a.prev = b.id → b.dposIrreversibleBlocknum ≤ a.dposIrreversibleBlocknum := by
  have hmono : ∀ a ∈ g1.toBlockData :: branchBlocks, ∀ b ∈ g1.toBlockData :: branchBlocks,
      a.prev = b.id → b.dposIrreversibleBlocknum ≤ a.dposIrreversibleBlocknum := by decide +kernel
  exact fun a b ha hb hab => hmono a ha b hb hab

lemma ancestor_b4 {x : BlockData Nat Nat}
    (h : blockLinks.Ancestor twoBranches.mem x b4.toBlockData) :
    x.id ∈ [g1.id, b2.id, b3.id, b4.id] := by
  have hclosed : ∀ c ∈ g1.toBlockData :: branchBlocks, c.id ∈ [g1.id, b2.id, b3.id, b4.id] →
      ∀ p ∈ g1.toBlockData :: branchBlocks, c.prev = p.id →
        p.id ∈ [g1.id, b2.id, b3.id, b4.id] := by
    decide +kernel
  have hb4 : twoBranches.mem b4.toBlockData := by
    simp [twoBranches, BlockTree.ofList, branchBlocks]
  have hx := h.closed (P := fun c => twoBranches.mem c ∧ c.id ∈ [g1.id, b2.id, b3.id, b4.id])
    ⟨hb4, by decide +kernel⟩ (fun c p hc hp hcp => ⟨hp, hclosed c hc.1 hc.2 p hp hcp⟩)
  exact hx.2

def addAll (ns : List (BlockState Nat Nat)) : Recorder Nat Nat :=
  ns.foldl (fun w n => (w.add recordSignal n false).state) ⟨.ofGenesis g1, []⟩

lemma winner_eq {w : Recorder Key Sig} {n : BlockState Key Sig}
    (h : (w.forkDb.head.map fun hd => decide (n.toBlockData.ranksAbove hd)) = some true) :
    w.winner n = some n.toBlockData := by
  obtain ⟨hd, hhd, habove⟩ := map_eq_some_iff.mp h
  rw [Hosted.winner, hhd, map_some, if_pos (of_decide_eq_true habove)]

/-- `b4` wins and makes number 2 irreversible, but `a2` came first there: `a2` is signalled,
and the winner is removed together with `b2`. -/
theorem signals_losing_branch : twoBranches.LibBelow ∧
    (∀ a b, twoBranches.mem a → twoBranches.mem b → a.prev = b.id →
      b.dposIrreversibleBlocknum ≤ a.dposIrreversibleBlocknum) ∧
    ∃ w w' x, w = addAll [a2, b2, a3, b3] ∧
      w.add recordSignal b4 false = .ok w' ∧ w.winner b4 = some b4.toBlockData ∧
      w'.env.head? = some x ∧ w'.env.length = w.env.length + 1 ∧ x.id = a2.id ∧
      ¬ blockLinks.Ancestor twoBranches.mem x b4.toBlockData := by
  refine ⟨twoBranches_libBelow, twoBranches_libMonotone,
    addAll [a2, b2, a3, b3], ?_⟩
  obtain ⟨w', hadd, hw'⟩ := Outcome.exists_ok_of_okAnd
    (x := (addAll [a2, b2, a3, b3]).add recordSignal b4 false)
    (p := fun w' => (w'.env.head?.map fun x => x.id) = some a2.id ∧ w'.env.length =
      (addAll [a2, b2, a3, b3]).env.length + 1) (by decide +kernel)
  obtain ⟨hfirst, hlen⟩ := of_decide_eq_true hw'
  obtain ⟨x, hx, hxid⟩ := map_eq_some_iff.mp hfirst
  refine ⟨w', x, rfl, hadd, winner_eq (by decide +kernel), hx, hlen, hxid, ?_⟩
  intro hanc
  have hmem := ancestor_b4 hanc
  rw [hxid] at hmem
  revert hmem
  decide +kernel

lemma undisputed_of_ids {w : Recorder Key Sig} {n : BlockState Key Sig} (ids : List BlockId)
    (hanc : ∀ hd ∈ w.winner n, ∀ y ∈ w.forkDb.index.byBlockNum,
      blockLinks.Ancestor T.mem y.toBlockData hd → y.id ∈ ids)
    (h : ∀ hd ∈ w.winner n, ∀ y ∈ w.forkDb.index.byBlockNum, y.id ∈ ids →
      (∀ b ∈ w.forkDb.index.byBlockNum, y.blockNum ≤ b.blockNum) →
      y.blockNum < hd.dposIrreversibleBlocknum →
      (∀ z ∈ w.forkDb.index.byBlockNum, z.blockNum = y.blockNum →
        z.id = y.id ∨ (y.inCurrentChain = true ∧ z.inCurrentChain = false)) ∧
      ∀ index ∈ w.forkDb.index.insert n,
        ∀ f ∈ index.byBlockNum.find? fun b => y.blockNum < b.blockNum, f.prev = y.id) :
    Undisputed T w n := by
  intro hd hhd y hy hyd hlow hlt
  obtain ⟨hids, hnext⟩ := h hd hhd y hy (hanc hd hhd y hy hyd) hlow hlt
  refine .inr ⟨fun z hz hnum => ?_, hnext⟩
  exact (hids z hz hnum).imp_left (eq_of_id hz hy)

/-- `b2` is marked as current chain once `b3` has made the genesis block irreversible. -/
def afterMark : Recorder Nat Nat :=
  let w := addAll [a2, b2, b3]
  { w with forkDb := { w.forkDb with index := w.forkDb.index.setInCurrentChain b2.id true } }

lemma afterMark_run : Relation.ReflTransGen (Step twoBranches) ⟨.ofGenesis g1, []⟩ afterMark := by
  have hmem : ∀ n ∈ [a2, b2, b3], twoBranches.mem n.toBlockData := by
    simp [twoBranches, BlockTree.ofList, branchBlocks]
  have hgenesis : ∀ ns ∈ [([], a2), ([a2], b2), ([a2, b2], b3)],
      Undisputed twoBranches (addAll ns.1) ns.2 := by
    intro ns hns
    refine undisputed_of_ids _ (fun _ _ y hy _ => List.mem_map_of_mem (f := fun b => b.id) hy) ?_
    revert ns
    decide +kernel
  have hadd : ∀ ns ∈ [([], a2), ([a2], b2), ([a2, b2], b3)],
      Step twoBranches (addAll ns.1)
        ((addAll ns.1).add recordSignal ns.2 false).state := by
    intro ns hns
    refine .add ns.2 false (hmem ns.2 ?_) (by simp) (hgenesis ns hns)
    revert ns
    simp
  have h1 := hadd ([], a2) (by simp)
  have h2 := hadd ([a2], b2) (by simp)
  have h3 := hadd ([a2, b2], b3) (by simp)
  have h4 : Step twoBranches (addAll [a2, b2, b3]) afterMark := by
    refine .mark b2.toBlockData true _ ?_
    have hfound : ((addAll [a2, b2, b3]).forkDb.index.find? b2.id).map
        (fun b => b.inCurrentChain) = some false := by decide +kernel
    obtain ⟨b, hb, hflag⟩ := map_eq_some_iff.mp hfound
    rw [ForkDatabase.markInCurrentChain, hb]
    exact if_neg (by simp [hflag])
  exact (((Relation.ReflTransGen.single h1).tail h2).tail h3).tail h4

/-- The run in which `b3` signals the genesis block and then `b4` signals the marked `b2`. -/
theorem signalled_ancestor_of_undisputed_twoBranches :
    Relation.ReflTransGen (Step twoBranches) ⟨.ofGenesis g1, []⟩ afterMark ∧
    Undisputed twoBranches afterMark b4 ∧
    ∃ w' hd x, afterMark.add recordSignal b4 false = .ok w' ∧ afterMark.winner b4 = some hd ∧
      w'.forkDb.head = some hd ∧ w'.env = x :: afterMark.env ∧
      blockLinks.Ancestor twoBranches.mem x hd ∧
      w'.env.map (fun b => b.id) = [b2.id, g1.id] := by
  have hb4 : Undisputed twoBranches afterMark b4 := by
    refine undisputed_of_ids [g1.id, b2.id, b3.id, b4.id] ?_ (by decide +kernel)
    intro hd hhd y _ hanc
    rw [winner_eq (by decide +kernel), mem_some_iff] at hhd
    exact ancestor_b4 (hhd ▸ hanc)
  refine ⟨afterMark_run, hb4, ?_⟩
  obtain ⟨w', hadd, hids⟩ := Outcome.exists_ok_of_okAnd
    (x := afterMark.add recordSignal b4 false)
    (p := fun w' => w'.env.map (fun b => b.id) = [b2.id, g1.id]) (by decide +kernel)
  have hids' := of_decide_eq_true hids
  have hold : afterMark.env.map (fun b => b.id) = [g1.id] := by decide +kernel
  rcases (signalled_ancestor_of_undisputed twoBranches_libBelow rfl afterMark_run).2 b4 false
    (by simp [twoBranches, BlockTree.ofList, branchBlocks]) (by simp) hb4 with
    ⟨e, he⟩ | ⟨v, hd, hv, hwin, hhead, hcase⟩
  · rw [he] at hadd
    simp at hadd
  have hvw : v = w' := Outcome.ok.inj (hv.symm.trans hadd)
  subst hvw
  rcases hcase with henv | ⟨x, hx, hanc⟩
  · rw [henv, hold] at hids'
    simp at hids'
  · exact ⟨v, hd, x, hv, hwin, hhead, hx, hanc, hids'⟩

end Recorder

end DimensionChain
