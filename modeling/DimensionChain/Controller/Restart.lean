import DimensionChain.Controller.Storage

/-!
# Closing and starting again

The fork database file is read back in any order, and its head is the head that was written.
The other stores are as the last pruning of `close` left them, which is consistent with that
head, so that `init` has nothing to undo.
-/

namespace DimensionChain

open List ForkMultiIndex Outcome Option

variable {Key Sig : Type}

namespace ForkDatabase
variable {C : Crypto Key Sig} {db : ForkDatabase Key Sig} {blocks : List (BlockState Key Sig)}

lemma set_new {s : BlockState Key Sig} (hid : s.id = s.header.toBlockHeader.id C)
    (hfresh : ∀ b ∈ db.index.byBlockNum, b.id ≠ s.id) :
    ∃ index head, db.index.insert s = some index ∧
      set C db s = .ok { index := index, head := head } := by
  obtain ⟨index, hins⟩ := db.index.exists_insert hfresh
  unfold set
  simp only [hins, getD_some, isSome_some, require_pos hid,
    require_pos trivial, ok_andThen]
  split
  · exact ⟨index, _, rfl, rfl⟩
  · split
    · exact ⟨index, _, rfl, rfl⟩
    · exact ⟨index, _, rfl, rfl⟩

lemma setAll_new (db : ForkDatabase Key Sig)
    (hid : ∀ s ∈ blocks, s.id = s.header.toBlockHeader.id C)
    (hunique : (blocks.map fun s => s.id).Nodup)
    (hfresh : ∀ s ∈ blocks, ∀ b ∈ db.index.byBlockNum, b.id ≠ s.id) :
    ∃ db', Outcome.forEach (fun s db => set C db s) blocks db = .ok db' ∧
      ∀ b, b ∈ db'.index.byBlockNum ↔ b ∈ blocks ∨ b ∈ db.index.byBlockNum := by
  induction blocks generalizing db with
  | nil => exact ⟨db, rfl, by simp⟩
  | cons s blocks ih =>
    obtain ⟨hs, hrest⟩ := nodup_cons.mp hunique
    obtain ⟨index, head, hins, hset⟩ := set_new (hid s (by simp)) (hfresh s (by simp))
    obtain ⟨db', hall, hmem⟩ := ih { index := index, head := head }
      (fun a ha => hid a (mem_cons_of_mem _ ha)) hrest (by
        intro a ha b hb
        rcases (mem_insert hins).mp hb with rfl | hb
        · intro heq
          apply hs
          exact mem_map.mpr ⟨a, ha, heq.symm⟩
        · exact hfresh a (mem_cons_of_mem _ ha) b hb)
    refine ⟨db', ?_, ?_⟩
    · rw [Outcome.forEach, hset, ok_andThen]
      exact hall
    intro b
    rw [hmem b, mem_insert hins, mem_cons]
    constructor
    · rintro (hb | rfl | hb)
      · exact .inl (.inr hb)
      · exact .inl (.inl rfl)
      · exact .inr hb
    rintro ((rfl | hb) | hb)
    · exact .inr (.inl rfl)
    · exact .inl hb
    · exact .inr (.inr hb)

lemma open_file (hperm : blocks.Perm db.index.byBlockNum)
    (hid : ∀ s ∈ db.index.byBlockNum, s.id = s.header.toBlockHeader.id C) {h : BlockData Key Sig}
    (hh : h ∈ db.index.byLibBlockNum) :
    ∃ db', ForkDatabase.open C blocks h.id = .ok db' ∧ db'.head = some h ∧
      ∀ b, b ∈ db'.index.byBlockNum ↔ b ∈ db.index.byBlockNum := by
  obtain ⟨db', hall, hmem⟩ := setAll_new { index := .empty, head := none }
    (fun s hs => hid s (hperm.mem_iff.mp hs))
    ((hperm.map fun s : BlockState Key Sig => s.id).nodup_iff.mpr db.index.unique)
    (fun _ _ b hb => by simp [ForkMultiIndex.empty] at hb)
  have hmem' : ∀ b, b ∈ db'.index.byBlockNum ↔ b ∈ db.index.byBlockNum := by
    intro b
    rw [hmem b, hperm.mem_iff]
    simp [ForkMultiIndex.empty]
  obtain ⟨d, hd, rfl⟩ := mem_blocks_iff.mp hh
  have hfind : db'.index.find? d.id = some d :=
    ForkMultiIndex.find?_eq_some.mpr ⟨(hmem' d).mpr hd, rfl⟩
  refine ⟨{ db' with head := some d.toBlockData }, ?_, rfl, hmem'⟩
  unfold ForkDatabase.open
  rw [hall, ok_andThen, getBlock, hfind]
  rfl

end ForkDatabase

namespace Controller
variable {T : BlockTree Key Sig} {fails : SignedBlock Key Sig → Bool} {C : Crypto Key Sig}
  {past cur : List (BlockData Key Sig)} {c c₁ : Controller Key Sig} {y : BlockData Key Sig}
  {n : BlockState Key Sig}

lemma undoTo_self (num fuel : Nat) {db : Database} (h : db.revision = num) :
    undoTo num fuel db = db := by
  cases fuel with
  | zero => rfl
  | succ fuel => rw [undoTo, if_neg (by omega)]

namespace Applied

lemma requireReversible_ok (hpacked : T.Packed C) (h : Applied T fails past (y :: cur) c)
    (db : ForkDatabase Key Sig) : requireReversible ⟨db, c.env⟩ = .ok ⟨db, c.env⟩ := by
  obtain ⟨logHead, hhead, hnum, -⟩ := h.log.head_num hpacked h.tree.history
  have hymem := h.mem_of_cur (x := y) (by simp)
  have hylow := h.tree.rootNum_lt hymem
  have hyg := h.genesis_le hymem
  have hstored : T.genesis.blockNum < y.blockNum →
      ∃ block, (y.blockNum, block) ∈ c.env.reversibleBlocks.entries := by
    intro hg
    obtain ⟨block, hblock, -⟩ := T.block y (h.tree.members y hymem)
    exact ⟨block, FlatMap.find?_eq_some.mp
      ((h.reversible y.blockNum block).mpr ⟨y, by simp, rfl, hg, hblock⟩)⟩
  unfold requireReversible
  cases hlast : c.env.reversibleBlocks.entries.getLast? with
  | none =>
    apply require_pos
    intro logHead' hlogHead'
    have heq : logHead = logHead' := some.inj (hhead.symm.trans hlogHead')
    rw [← heq, h.head_eq]
    by_cases hg : T.genesis.blockNum < y.blockNum
    · obtain ⟨block, hblock⟩ := hstored hg
      rw [List.getLast?_eq_none_iff.mp hlast] at hblock
      simp at hblock
    · omega
  | some last =>
    apply require_pos
    obtain ⟨init, hinit⟩ := List.getLast?_eq_some_iff.mp hlast
    have hlastmem : (last.1, last.2) ∈ c.env.reversibleBlocks.entries := by
      rw [hinit]
      simp
    obtain ⟨b, hb, hbnum, hg, -⟩ := (h.reversible _ _).mp (FlatMap.find?_eq_some.mpr hlastmem)
    have hby : b.blockNum ≤ y.blockNum := h.branch.height_le hb
    obtain ⟨block, hblock⟩ := hstored (by omega)
    have hsorted := c.env.reversibleBlocks.sorted
    rw [hinit, map_append, pairwise_append] at hsorted
    rw [h.head_eq]
    rw [hinit] at hblock
    rcases mem_append.mp hblock with hblock | hblock
    · have hlt := hsorted.2.2 y.blockNum (mem_map_of_mem (f := Prod.fst) hblock) last.1 (by simp)
      omega
    · rw [← mem_singleton.mp hblock]

lemma init_ok (hpacked : T.Packed C) (h : Applied T fails past (y :: cur) c)
    (db : ForkDatabase Key Sig) : init ⟨db, c.env⟩ = .ok ⟨db, c.env⟩ := by
  obtain ⟨logHead, hhead, hnum, -⟩ := h.log.head_num hpacked h.tree.history
  have hymem := h.mem_of_cur (x := y) (by simp)
  have hylow := h.tree.rootNum_lt hymem
  have hyg := h.genesis_le hymem
  have hrev : c.env.db.revision = c.env.head.blockNum := h.undoable.1
  have hbehind : ∀ logHead' ∈ c.env.blog.head, logHead'.blockNum ≤ c.env.head.blockNum := by
    intro logHead' hlogHead'
    have heq : logHead = logHead' := some.inj (hhead.symm.trans hlogHead')
    rw [← heq, h.head_eq]
    omega
  unfold init
  rw [hhead] at hbehind ⊢
  dsimp only
  rw [require_pos hbehind, ok_andThen, h.requireReversible_ok hpacked,
    ok_andThen, require_pos (Nat.le_of_eq hrev.symm), ok_andThen,
    undoTo_self _ _ hrev]

end Applied

namespace InSync

lemma close_ok (hsized : T.Sized) (hpacked : T.Packed C) (hlib : T.LibBelow)
    (h : InSync T fails past (y :: cur) c) :
    ∃ c₁ past' cur', close C fails c = .ok (c₁.setIndex .empty) ∧
      Applied T fails past' (y :: cur') c₁ := by
  have hymem := h.mem_of_cur (x := y) (by simp)
  obtain ⟨s, hs⟩ := exists_front hymem
  unfold close Hosted.close
  rw [h.follows, hs, h.head_eq]
  dsimp only
  by_cases hle : s.blockNum ≤ y.dposIrreversibleBlocknum
  · obtain ⟨l, hl⟩ := h.toCurrent.front_last hs
    have hbelow := hlib y (h.tree.members y hymem)
    cases l with
    | nil =>
      have hys : y.blockNum = s.blockNum := by rw [(List.cons.inj hl).1]
      omega
    | cons y' cur' =>
      obtain ⟨rfl, rfl⟩ := List.cons.inj hl
      have hne : c.forkDb.head ≠ some s.toBlockData := by
        rw [h.follows, h.head_eq]
        intro heq
        have hys : y.blockNum = s.blockNum := by rw [some.inj heq]
        omega
      have happlied : Applied T fails past ((y :: cur') ++ [s.toBlockData]) c := h.toApplied
      obtain ⟨c₁, E, hprune, h₁, -⟩ := happlied.prune hsized hpacked (by simp) hne
      refine ⟨c₁, _, cur', ?_, h₁⟩
      rw [if_pos hle, Hosted.prune_front hs, hprune, ok_andThen]
  · refine ⟨c, past, cur, ?_, h.toApplied⟩
    rw [if_neg hle, ok_andThen]

/-- The files of a closed node, with the blocks in any order, lead back to the same head. -/
lemma reopen_ok (hsized : T.Sized) (hpacked : T.Packed C) (hhashed : T.Hashed C)
    (hlib : T.LibBelow) (h : InSync T fails past (y :: cur) c) {blocks : List (BlockState Key Sig)}
    (hperm : blocks.Perm c.forkDb.index.byBlockNum) :
    ∃ left c', close C fails c = .ok left ∧ reopen C blocks y.id left.env = .ok c' ∧
      c'.env.head = y := by
  obtain ⟨c₁, past', cur', hclose, h₁⟩ := h.close_ok hsized hpacked hlib
  obtain ⟨db, hopen, hhead, -⟩ := ForkDatabase.open_file hperm
    (fun s hs => hhashed _ (h.tree.members _ (mem_blocks hs)))
    (h.mem_of_cur (x := y) (by simp))
  refine ⟨_, ⟨db, c₁.env⟩, hclose, ?_, h₁.head_eq⟩
  unfold reopen
  rw [hopen]
  dsimp only
  rw [hhead]
  have henv : ({ (c₁.setIndex .empty).env with head := y } : ChainState Key Sig) = c₁.env := by
    rw [← h₁.head_eq]
    rfl
  dsimp only
  rw [henv]
  exact h₁.init_ok hpacked db

end InSync

/-- A block that outranks the head without linking to it shares with the head a block of the
fork database, other than the head. -/
def ForksInIndex (T : BlockTree Key Sig) (c : Controller Key Sig) (n : BlockState Key Sig) :
    Prop :=
  n.toBlockData.ranksAbove c.env.head → n.prev ≠ c.env.head.id →
    ∃ b ∈ c.forkDb.index.byLibBlockNum, b ≠ c.env.head ∧
      blockLinks.Ancestor T.mem b c.env.head ∧ blockLinks.Ancestor T.mem b n.toBlockData

/-- A push, or the commit of a block produced on the head which then is the best one. -/
inductive StoreStep (T : BlockTree Key Sig) (C : Crypto Key Sig)
    (fails : SignedBlock Key Sig → Bool) (c : Controller Key Sig) :
    Controller Key Sig → Prop where
  | push (n : BlockState Key Sig) : T.mem n.toBlockData → n.inCurrentChain = false →
      ForksInIndex T c n → ForksAbovePruned T c n →
      StoreStep T C fails c (pushBlock C fails n c).state
  | commit (n : BlockState Key Sig) : T.mem n.toBlockData → n.prev = c.env.head.id →
      n.toBlockData.ranksAbove c.env.head → n.Good fails →
      StoreStep T C fails c (commitBlock C fails n c).state

lemma InSync.meets_of_index (h : InSync T fails past (y :: cur) c)
    (hindex : ForksInIndex T c n) (hforks : ForksAbovePruned T c n) : Meets T past cur y c n := by
  intro habove hprev p hp _
  unfold ForksInIndex at hindex
  rw [h.head_eq] at hindex
  by_cases hlow : T.rootNum past + 1 < n.dposIrreversibleBlocknum
  · exact h.exists_above_pruned hforks habove hprev hp hlow
  · obtain ⟨b, hb, hby, hanc, hbn⟩ := hindex habove hprev
    have hbcur := h.tree.mem_branch_of_ancestor h.branch (h.tree.rootNum_lt hb) hanc
    exact ⟨b, (mem_cons.mp hbcur).resolve_left hby, hbn, fun hlt => absurd hlt hlow⟩

lemma inSync_of_storeSteps (hsized : T.Sized) (hpacked : T.Packed C) (hlib : T.LibBelow)
    (hinit : InSync T fails [] [T.genesis] c)
    (hrun : Relation.ReflTransGen (StoreStep T C fails) c c₁) :
    ∃ past y cur, InSync T fails past (y :: cur) c₁ := by
  induction hrun with
  | refl => exact ⟨[], T.genesis, [], hinit⟩
  | tail _ hstep ih =>
    obtain ⟨past, y, cur, h⟩ := ih
    cases hstep with
    | push n hn hmark hindex hforks =>
      rcases h.push_cases hsized hpacked hlib hn hmark (h.meets_of_index hindex hforks) with
        ⟨e, -, hthrow, -⟩ | ⟨c', past', hd, m, hok, h', -⟩ | ⟨e, c', past', cur', x, hthrow, h', -⟩
      · rw [hthrow]
        exact ⟨past, y, cur, h⟩
      · rw [hok]
        exact ⟨past', hd, m, h'⟩
      · rw [hthrow]
        exact ⟨past', y, cur', h'⟩
    | commit n hn hprev habove hgood =>
      rw [h.head_eq] at hprev habove
      rcases h.commit_cases hsized hpacked hlib hn hprev habove hgood with
        ⟨e, hthrow⟩ | ⟨c', past', cur', hok, h'⟩
      · rw [hthrow]
        exact ⟨past, y, cur, h⟩
      · rw [hok]
        exact ⟨past', _, _, h'⟩

/-- Along every run of such steps the three stores hold the current chain: each number from
the first block of the log to the head leads to its block, the reversible blocks are those
above the log, and a closed node starts again with the same head. -/
theorem stored_blocks_current (hsized : T.Sized) (hpacked : T.Packed C) (hhashed : T.Hashed C)
    (hlib : T.LibBelow) {g : BlockState Key Sig} {block : SignedBlock Key Sig}
    (hg : g.toBlockData = T.genesis) (hblock : g.block = some block)
    (hmark : g.inCurrentChain = false)
    (hrun : Relation.ReflTransGen (StoreStep T C fails) (initial g block .speculative) c) :
    (∀ k, c.env.blog.firstBlockNum ≤ k → k ≤ c.env.head.blockNum →
      ∃ b found, blockLinks.Ancestor T.mem b c.env.head ∧ b.blockNum = k ∧
        b.block = some found ∧ fetchBlockByNumber C k c = .ok (some found) ∧
        getBlockIdForNum C k c = .ok b.id) ∧
    (∀ k stored, c.env.reversibleBlocks.find? k = some stored ↔
      ∃ b, blockLinks.Ancestor T.mem b c.env.head ∧ b.blockNum = k ∧ b.block = some stored ∧
        ∃ logHead, c.env.blog.head = some logHead ∧ logHead.blockNum < k) ∧
    (∀ best, c.forkDb.head = some best →
      ∀ blocks : List (BlockState Key Sig), blocks.Perm c.forkDb.index.byBlockNum →
      ∃ left c', close C fails c = .ok left ∧ reopen C blocks best.id left.env = .ok c' ∧
        c'.env.head = c.env.head ∧ lastIrreversibleBlockNum c' = lastIrreversibleBlockNum c) := by
  obtain ⟨past, y, cur, h⟩ := inSync_of_storeSteps hsized hpacked hlib
    (inSync_initial hg hblock hmark (by decide)) hrun
  have hhead := h.head_eq
  refine ⟨?_, ?_, ?_⟩
  · intro k hlow hhigh
    rw [h.log.1] at hlow
    rw [hhead] at hhigh ⊢
    exact h.fetch_num hpacked hlow hhigh
  · intro k stored
    rw [hhead]
    exact h.reversible_iff hpacked k stored
  intro best hbest blocks hperm
  have hby : best = y := by
    rw [h.follows, hhead] at hbest
    exact (some.inj hbest).symm
  obtain ⟨left, c', hclose, hreopen, hhead'⟩ :=
    h.reopen_ok hsized hpacked hhashed hlib hperm
  refine ⟨left, c', hclose, by rw [hby]; exact hreopen, by rw [hhead', hhead], ?_⟩
  unfold lastIrreversibleBlockNum
  rw [hhead', hhead]

lemma forkTree_hashed : forkTree.Hashed plainCrypto := by
  change ∀ b ∈ root1.toBlockData :: forkBlocks, b.id = b.header.toBlockHeader.id plainCrypto
  decide +kernel

/-- The fork database still holds `root1`, from which both branches come, when `right3`
arrives; after the failed switch the current block number 2 is not found any more. -/
theorem current_block_lost :
    ∃ c₁ c₂ e c₃, pushBlock plainCrypto (fun _ => false) left2 startAtRoot1 = .ok c₁ ∧
      pushBlock plainCrypto (fun _ => false) right2 c₁ = .ok c₂ ∧
      (c₂.forkDb.getBlock root1.id).isSome = true ∧
      pushBlock plainCrypto (fun _ => false) right3 c₂ = .throw e c₃ ∧
      c₃.env.blog.firstBlockNum ≤ 2 ∧ c₃.env.head.blockNum = 2 ∧
      fetchBlockByNumber plainCrypto 2 c₃ = .ok none := by
  obtain ⟨c₁, hleft, hright⟩ := Outcome.exists_ok_of_okAnd
    (x := pushBlock plainCrypto (fun _ => false) left2 startAtRoot1)
    (p := fun c₁ => (pushBlock plainCrypto (fun _ => false) right2 c₁).okAnd fun c₂ =>
      (c₂.forkDb.getBlock root1.id).isSome &&
      (pushBlock plainCrypto (fun _ => false) right3 c₂).throwAnd fun _ c₃ =>
        decide (c₃.env.blog.firstBlockNum ≤ 2 ∧ c₃.env.head.blockNum = 2) &&
        okAnd (fetchBlockByNumber plainCrypto 2 c₃) fun found => found.isNone)
    (by decide +kernel)
  obtain ⟨c₂, hright2, hrest⟩ := Outcome.exists_ok_of_okAnd hright
  obtain ⟨hroot, hthrow⟩ := (Bool.and_eq_true _ _).mp hrest
  obtain ⟨e, c₃, hright3, hc₃⟩ := Outcome.exists_throw_of_throwAnd hthrow
  obtain ⟨hnums, hfetch⟩ := (Bool.and_eq_true _ _).mp hc₃
  obtain ⟨hfirst, hhead⟩ := of_decide_eq_true hnums
  obtain ⟨found, hfound, hnone⟩ := exists_ok_of_okAnd hfetch
  rw [isNone_iff_eq_none.mp hnone] at hfound
  exact ⟨c₁, c₂, e, c₃, hleft, hright2, hroot, hright3, hfirst, hhead, hfound⟩

def pushAll (ns : List (BlockState Nat Nat)) : Controller Nat Nat :=
  ns.foldl (fun c n => (pushBlock plainCrypto (fun _ => false) n c).state) startAtRoot1

/-- Once the controller has switched to `late3`, `late4` is produced on it and makes the root
final. -/
def afterLate4 : Controller Nat Nat :=
  (commitBlock plainCrypto (fun _ => false) late4 (pushAll [left2, right2, late3])).state

lemma mem_forkTree : ∀ n ∈ [root1, left2, right2, late3, late4], forkTree.mem n.toBlockData := by
  simp [forkTree, BlockTree.ofList, forkBlocks]

abbrev Reachable : Controller Nat Nat → Prop :=
  Relation.ReflTransGen (StoreStep forkTree plainCrypto fun _ => false) startAtRoot1

lemma reach_pushedRight2 : Reachable (pushAll [left2, right2]) := by
  have hlink : left2.prev = startAtRoot1.env.head.id := rfl
  have hfirst : StoreStep forkTree plainCrypto (fun _ => false) startAtRoot1 (pushAll [left2]) :=
    .push left2 (mem_forkTree _ (by simp)) rfl
      (fun _ hnot => absurd hlink hnot) (fun _ hnot => absurd hlink hnot)
  have hbelow : ¬ right2.toBlockData.ranksAbove (pushAll [left2]).env.head := by decide +kernel
  have hsecond : StoreStep forkTree plainCrypto (fun _ => false) (pushAll [left2])
      (pushAll [left2, right2]) :=
    .push right2 (mem_forkTree _ (by simp)) rfl (fun habove => absurd habove hbelow)
      (fun habove => absurd habove hbelow)
  exact (Relation.ReflTransGen.single hfirst).tail hsecond

lemma late3_forksInIndex : ForksInIndex forkTree (pushAll [left2, right2]) late3 := by
  intro _ _
  obtain ⟨past, y, cur, h⟩ := inSync_of_storeSteps forkTree_sized forkTree_packed
    forkTree_libBelow (inSync_initial rfl rfl rfl (by decide)) reach_pushedRight2
  have hroot : (∃ b ∈ (pushAll [left2, right2]).forkDb.index.byLibBlockNum, b.id = root1.id) ∧
      (pushAll [left2, right2]).env.head.prev = root1.id ∧
      (pushAll [left2, right2]).env.head.id ≠ root1.id := by decide +kernel
  obtain ⟨⟨b, hb, hbid⟩, hprev, hne⟩ := hroot
  have hbT := h.tree.members b hb
  refine ⟨b, hb, ?_, .single ⟨hbT, hprev.trans hbid.symm⟩, ?_⟩
  · rintro rfl
    exact hne hbid
  · exact .head ⟨mem_forkTree right2 (by simp), rfl⟩ (.single ⟨hbT, hbid.symm⟩)

lemma reach_afterLate4 : Reachable afterLate4 := by
  have hswitch : StoreStep forkTree plainCrypto (fun _ => false) (pushAll [left2, right2])
      (pushAll [left2, right2, late3]) := by
    refine .push late3 (mem_forkTree _ (by simp)) rfl late3_forksInIndex ?_
    intro _ _ oldest holdest hlt
    have hfirst : ((pushAll [left2, right2]).forkDb.index.byBlockNum.head?.map
        fun b => b.blockNum) = some 1 := by decide +kernel
    rw [holdest] at hfirst
    have hone : oldest.blockNum = 1 := Option.some.inj hfirst
    have hlib : late3.dposIrreversibleBlocknum = 1 := rfl
    omega
  have hcommit : StoreStep forkTree plainCrypto (fun _ => false) (pushAll [left2, right2, late3])
      afterLate4 :=
    .commit late4 (mem_forkTree _ (by simp)) (by decide +kernel) (by decide +kernel)
      (forkTree_good _ (mem_forkTree _ (by simp)))
  exact (reach_pushedRight2.tail hswitch).tail hcommit

/-- Every number of the new branch is found, that of the pruned root too, and the node restarts
at `late4`. -/
theorem stored_blocks_current_late4 : Reachable afterLate4 ∧
    afterLate4.env.head.id = late4.id ∧ (afterLate4.forkDb.getBlock root1.id).isNone = true ∧
    (∀ k, 1 ≤ k → k ≤ 4 → ∃ b found, blockLinks.Ancestor forkTree.mem b afterLate4.env.head ∧
      b.blockNum = k ∧ b.block = some found ∧
      fetchBlockByNumber plainCrypto k afterLate4 = .ok (some found) ∧
      getBlockIdForNum plainCrypto k afterLate4 = .ok b.id) ∧
    ∃ best left c', afterLate4.forkDb.head = some best ∧
      close plainCrypto (fun _ => false) afterLate4 = .ok left ∧
      reopen plainCrypto afterLate4.forkDb.index.byBlockNum best.id left.env = .ok c' ∧
      c'.env.head = afterLate4.env.head ∧
      lastIrreversibleBlockNum c' = lastIrreversibleBlockNum afterLate4 := by
  have hnums : afterLate4.env.blog.firstBlockNum = 1 ∧ afterLate4.env.head.blockNum = 4 ∧
      afterLate4.forkDb.head.isSome = true := by decide +kernel
  obtain ⟨hfirst, hhead, hsome⟩ := hnums
  obtain ⟨hfetch, -, hrestart⟩ := stored_blocks_current forkTree_sized forkTree_packed
    forkTree_hashed forkTree_libBelow rfl rfl rfl reach_afterLate4
  obtain ⟨best, hbest⟩ := isSome_iff_exists.mp hsome
  obtain ⟨left, c', hclose, hreopen, hsame⟩ := hrestart best hbest _ (.refl _)
  refine ⟨reach_afterLate4, by decide +kernel, by decide +kernel, ?_,
    best, left, c', hbest, hclose, hreopen, hsame⟩
  intro k hlow hhigh
  exact hfetch k (by omega) (by omega)

/-- On the same runs every block of the current chain is found by its id. -/
theorem stored_blocks_by_id (hsized : T.Sized) (hpacked : T.Packed C) (hlib : T.LibBelow)
    {g : BlockState Key Sig} {block stored : SignedBlock Key Sig} {b : BlockData Key Sig}
    (hg : g.toBlockData = T.genesis) (hblock : g.block = some block)
    (hmark : g.inCurrentChain = false)
    (hrun : Relation.ReflTransGen (StoreStep T C fails) (initial g block .speculative) c)
    (hanc : blockLinks.Ancestor T.mem b c.env.head) (hlow : T.genesis.blockNum ≤ b.blockNum)
    (hstored : b.block = some stored) : fetchBlockById C b.id c = .ok (some stored) := by
  obtain ⟨past, y, cur, h⟩ := inSync_of_storeSteps hsized hpacked hlib
    (inSync_initial hg hblock hmark (by decide)) hrun
  rw [h.head_eq] at hanc
  exact h.fetch_id hpacked hanc hlow hstored

/-- The root is found in the log after `late4` has pruned it from the fork database. -/
theorem stored_blocks_by_id_root1 : Reachable afterLate4 ∧
    (afterLate4.forkDb.getBlock root1.id).isNone = true ∧
    ∃ stored, root1.block = some stored ∧
      fetchBlockById plainCrypto root1.id afterLate4 = .ok (some stored) := by
  have hprev : afterLate4.env.head.prev = late3.id := by decide +kernel
  refine ⟨reach_afterLate4, by decide +kernel, _, rfl, ?_⟩
  refine stored_blocks_by_id forkTree_sized forkTree_packed forkTree_libBelow rfl rfl rfl
    reach_afterLate4 (b := root1.toBlockData) ?_ le_rfl rfl
  exact .head ⟨mem_forkTree late3 (by simp), hprev⟩ (.head ⟨mem_forkTree right2 (by simp), rfl⟩
    (.single ⟨mem_forkTree root1 (by simp), rfl⟩))

end Controller

end DimensionChain
