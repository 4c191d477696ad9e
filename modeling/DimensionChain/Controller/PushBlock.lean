import DimensionChain.Controller.ForkSwitch

/-!
# Pushing blocks

A controller is in step with its fork database when the best block of the database is its head. A
pushed block is refused, or it is inserted and the controller follows the best block again. While
nothing is pruned this can only go wrong at the root, which has no parent to return to: a block
that outranks it without linking to it cannot be followed.
-/

namespace DimensionChain

open List ForkMultiIndex ForkDatabase

variable {Key Sig : Type}

namespace Controller

structure InSync (T : BlockTree Key Sig) (fails : SignedBlock Key Sig → Bool)
    (past cur : List (BlockData Key Sig)) (c : Controller Key Sig) : Prop
    extends Applied T fails past cur c where
  follows : c.forkDb.head = some c.env.head

variable {T : BlockTree Key Sig} {fails : SignedBlock Key Sig → Bool} {C : Crypto Key Sig}
  {past cur : List (BlockData Key Sig)} {c c₁ : Controller Key Sig} {y hd : BlockData Key Sig}
  {n : BlockState Key Sig} {l : List (BlockData Key Sig)}

lemma inSync_initial {g : BlockState Key Sig} {block : SignedBlock Key Sig} {mode : DbReadMode}
    (hg : g.toBlockData = T.genesis) (hblock : g.block = some block)
    (hmark : g.inCurrentChain = false) (hmode : mode ≠ .irreversible) :
    InSync T fails [] [T.genesis] (initial g block mode) := by
  have hpos := T.genesis_pos
  have hnum : g.blockNum = T.genesis.blockNum := by rw [hg]
  obtain ⟨hstates, hblocks⟩ := blocks_ofGenesis g
  refine ⟨⟨⟨.ofGenesis T hg, ?_, ?_⟩, ?_, ?_, ?_, ?_, ?_, hmode⟩, rfl⟩
  · refine .bottom ?_ rfl ?_
    · change T.genesis ∈ (ofGenesis g).index.byLibBlockNum
      rw [hblocks, hg]
      simp
    · change T.genesis.blockNum = T.genesis.blockNum - 1 + 1
      omega
  · intro b hb
    rw [mem_singleton.mp hb, hmark, hg]
    simp
  · change some T.genesis = some g.toBlockData
    rw [hg]
  · intro n block'
    constructor
    · intro hf
      simp [initial, FlatMap.empty, FlatMap.find?] at hf
    intro hex
    obtain ⟨b, hb, hbn, hlt, -⟩ := hex
    rw [mem_singleton.mp hb] at hbn
    omega
  · refine ⟨rfl, ?_⟩
    change g.blockNum ≤ 0 + max T.genesis.blockNum (T.genesis.blockNum - 1)
    omega
  · intro b hb hlt
    rw [mem_singleton.mp hb] at hlt
    omega
  · refine ⟨hnum, ?_⟩
    change [some block] = [T.genesis.block]
    rw [← hg, hblock]

lemma Current.insert {db db' : ForkDatabase Key Sig} (h : Current T past cur db)
    (hmark : n.inCurrentChain = false) (hins : db.index.insert n = some db'.index)
    (htree : ForkTree T past db') : Current T past cur db' := by
  refine ⟨htree, h.branch.mono ?_, ?_⟩
  · intro b hb
    exact mem_blocks_of_insert hins (h.mem_of_cur hb)
  intro b hb
  rcases (mem_insert hins).mp hb with rfl | hb
  · have hnot : b.toBlockData ∉ cur :=
      fun hcur => not_mem_of_insert hins (h.mem_of_cur hcur)
    simp [hmark, hnot]
  · exact h.marks b hb

namespace Applied

lemma insert (h : Applied T fails past cur c) (hmark : n.inCurrentChain = false)
    (hins : c.forkDb.index.insert n = some c₁.forkDb.index) (henv : c₁.env = c.env)
    (htree : ForkTree T past c₁.forkDb) : Applied T fails past cur c₁ := by
  obtain ⟨db, env⟩ := c₁
  subst henv
  exact ⟨h.toCurrent.insert hmark hins htree, h.head, h.reversible, h.undoable, h.good, h.log,
    h.mode⟩

lemma follow (hsized : T.Sized)
    (h : Applied T fails past (y :: cur) c) (hhd : c.forkDb.head = some hd)
    (hl : T.Branch past c.forkDb.index (hd :: l))
    (hnext : hd ≠ y → ∃ rest, c.forkDb.index.byLibBlockNum = hd :: rest ∧ rest.head? = some y)
    (hmeet : hd ≠ y → hd.prev ≠ y.id → ∃ z ∈ l, z ∈ cur) :
    (∃ c', maybeSwitchForks fails .complete c = .ok c' ∧ InSync T fails past (hd :: l) c' ∧
      c'.forkDb.index.byLibBlockNum = c.forkDb.index.byLibBlockNum) ∨
    (hd ≠ y ∧ ∃ b ∈ hd :: l, ¬ b.Good fails ∧
      ∃ e c', maybeSwitchForks fails .complete c = .throw e c' ∧ InSync T fails past (y :: cur) c' ∧
      WithoutSubtree c.forkDb.index.byLibBlockNum c'.forkDb.index.byLibBlockNum b) := by
  have hfirst := h.tree.head
  rw [hhd] at hfirst
  rcases h.maybeSwitchForks_cases hsized hhd hl hmeet (s := .complete) rfl with
    ⟨c', hok, h', hblocks⟩ | ⟨hne, b, hb, hbad, e, c', hthrow, h', hwithout⟩
  · refine .inl ⟨c', hok, ⟨h', ?_⟩, hblocks⟩
    rw [h'.tree.head, hblocks, h'.head_eq, ← hfirst]
  refine .inr ⟨hne, b, hb, hbad, e, c', hthrow, ⟨h', ?_⟩, hwithout⟩
  obtain ⟨E, hcut, hfilter⟩ := hwithout
  obtain ⟨rest, hrest, hy⟩ := hnext hne
  have hymem := h'.mem_of_cur (x := y) (by simp)
  rw [hfilter] at hymem
  have hgone : E hd.id = true := (h.tree.rooted.cut_iff hcut hl).mpr ⟨b, hb, rfl⟩
  rw [h'.tree.head, h'.head_eq, hfilter, hrest, filter_cons_of_neg (by simp [hgone])]
  exact OrderedIndex.head?_filter hy (mem_filter.mp hymem).2

end Applied

namespace InSync

variable (h : InSync T fails past (y :: cur) c)
include h

lemma first : c.forkDb.index.byLibBlockNum.head? = some y := by
  rw [← h.tree.head, h.follows, h.head_eq]

lemma winner_eq :
    Hosted.winner c n = some (if n.toBlockData.ranksAbove y then n.toBlockData else y) := by
  rw [Hosted.winner, h.follows, h.head_eq]
  rfl

lemma blocks_insert {idx : ForkMultiIndex Key Sig}
    (hins : c.forkDb.index.insert n = some idx) (habove : n.toBlockData.ranksAbove y) :
    idx.byLibBlockNum = n.toBlockData :: c.forkDb.index.byLibBlockNum := by
  rw [(insert_eq_some hins).2.2]
  have hfirst := h.first
  cases hl : c.forkDb.index.byLibBlockNum with
  | nil =>
    rw [hl] at hfirst
    simp at hfirst
  | cons z l =>
    rw [hl] at hfirst
    have hz : z = y := Option.some.inj hfirst
    rw [orderedInsert_cons, if_pos (hz ▸ habove)]

lemma insert_next (hwin : Hosted.winner c n = some hd)
    (hins : c.forkDb.index.insert n = some c₁.forkDb.index) :
    hd = y ∨ hd = n.toBlockData ∧ n.toBlockData.ranksAbove y ∧
      c₁.forkDb.index.byLibBlockNum = hd :: c.forkDb.index.byLibBlockNum := by
  have hhd := Option.some.inj (h.winner_eq.symm.trans hwin)
  split at hhd
  · rename_i habove
    subst hhd
    exact .inr ⟨rfl, habove, h.blocks_insert hins habove⟩
  · exact .inl hhd.symm

end InSync

/-- A linked block that outranks a controller head which is still the root links to it. -/
def OffRoot (T : BlockTree Key Sig) (c : Controller Key Sig) (n : BlockState Key Sig) : Prop :=
  c.env.head = T.genesis → n.toBlockData.ranksAbove c.env.head →
    ∀ p ∈ c.forkDb.index.byLibBlockNum, n.prev = p.id → n.prev = c.env.head.id

/-- The head is the best block, and the marked blocks are the head and its ancestors in the
index above the root. -/
def InStep (T : BlockTree Key Sig) (c : Controller Key Sig) : Prop :=
  c.forkDb.head = some c.env.head ∧
  ∀ b ∈ c.forkDb.index.byBlockNum, b.inCurrentChain = true ↔
    blockLinks.Ancestor (fun a => a ∈ c.forkDb.index.byLibBlockNum) b.toBlockData c.env.head ∧
      T.genesis.blockNum < b.blockNum

lemma InSync.inStep (h : InSync T fails past cur c) : InStep T c := by
  refine ⟨h.follows, ?_⟩
  intro b hb
  obtain ⟨y, l, rfl⟩ := exists_cons_of_ne_nil h.branch.ne_nil
  rw [h.marks b hb, h.head_eq]
  apply and_congr_left
  intro _
  constructor
  · intro hcur
    exact h.branch.ancestor (fun _ ha => ha) hcur
  · intro hanc
    exact h.tree.rooted.mem_of_ancestor h.branch hanc

lemma Applied.genesis_mem_branch (h : Applied T fails [] cur c)
    (hl : T.Branch [] c.forkDb.index l) : T.genesis ∈ l := by
  obtain ⟨k, z, rfl⟩ := eq_nil_or_concat l |>.resolve_left hl.ne_nil
  rw [concat_eq_append] at hl ⊢
  have hz : z = T.genesis := h.tree.bottom rfl z (hl.mem z (by simp)) hl.parent_last.1
  simp [hz]

lemma InSync.withoutSubtree_iff (h : InSync T fails past cur c)
    {S' : List (BlockData Key Sig)} {x b : BlockData Key Sig} (htree : ForkTree T past c₁.forkDb)
    (hsub : ∀ a ∈ c.forkDb.index.byLibBlockNum, a ∈ c₁.forkDb.index.byLibBlockNum)
    (hx : x ∈ c₁.forkDb.index.byLibBlockNum)
    (hwithout : WithoutSubtree c₁.forkDb.index.byLibBlockNum S' x)
    (hb : b ∈ c.forkDb.index.byLibBlockNum) :
    b ∈ S' ↔ ¬ blockLinks.Ancestor (fun a => a ∈ c.forkDb.index.byLibBlockNum) x b := by
  obtain ⟨E, hcut, rfl⟩ := hwithout
  obtain ⟨l, hl⟩ := h.tree.rooted.exists_branch hb
  have hl₁ := hl.mono fun a ha => hsub a (hl.mem a ha)
  have hE := htree.rooted.cut_iff hcut hl₁
  have hanc : (∃ z ∈ b :: l, z.id = x.id) ↔
      blockLinks.Ancestor (fun a => a ∈ c.forkDb.index.byLibBlockNum) x b := by
    constructor
    · intro hex
      obtain ⟨z, hz, hzx⟩ := hex
      rw [← htree.rooted.eq_of_ident (hl₁.mem z hz) hx hzx]
      exact hl.ancestor (fun _ ha => ha) hz
    · intro hanc
      exact ⟨x, h.tree.rooted.mem_of_ancestor hl hanc, rfl⟩
  rw [mem_filter, ← hanc, ← hE]
  simp [hsub b hb]

lemma InSync.push_unpruned (hsized : T.Sized)
    (hlib : ∀ b, T.mem b → b.dposIrreversibleBlocknum ≤ T.genesis.blockNum)
    (h : InSync T fails [] cur c) (hn : T.mem n.toBlockData) (hmark : n.inCurrentChain = false)
    (hoff : OffRoot T c n) :
    (∃ c' cur', pushBlock C fails n c = .ok c' ∧ InSync T fails [] cur' c') ∨
    (∃ e, pushBlock C fails n c = .throw e c ∧ ((∃ b ∈ c.forkDb.index.byBlockNum, b.id = n.id) ∨
        ∀ b ∈ c.forkDb.index.byBlockNum, b.id ≠ n.prev)) ∨
    (∃ e c' x, pushBlock C fails n c = .throw e c' ∧ ¬ x.Good fails ∧
      blockLinks.Ancestor T.mem x n.toBlockData ∧ InSync T fails [] cur c' ∧
      ∀ b, b ∈ c'.forkDb.index.byLibBlockNum ↔ b ∈ c.forkDb.index.byLibBlockNum ∧
        ¬ blockLinks.Ancestor (fun a => a ∈ c.forkDb.index.byLibBlockNum) x b) := by
  obtain ⟨y, l, rfl⟩ := exists_cons_of_ne_nil h.branch.ne_nil
  unfold pushBlock
  rcases h.tree.add_cases (onIrreversible C fails) false hn (by simp) with
    ⟨e, hadd, hwhy⟩ | ⟨c₁, hd, x, ⟨p, hp, hnp⟩, hins, henv, htree, hwin, hhead, hx, hcase⟩
  · rw [hadd, Outcome.throw_andThen]
    rw [h.follows] at hwhy
    exact .inr (.inl ⟨e, rfl, hwhy.resolve_left (by simp)⟩)
  have h₁ := h.insert hmark hins henv htree
  have hhdmem := htree.head_mem hhead
  -- the oldest block is not below the root, so it is not below an irreversible number
  have hxlow := htree.rootNum_lt (mem_blocks (mem_of_mem_head? hx))
  have hroot := T.rootNum_lt_genesis htree.history
  have hhdlib := hlib hd (htree.members hd hhdmem)
  rcases hcase with ⟨-, hadd⟩ | ⟨hlt, -⟩
  · rw [hadd, Outcome.ok_andThen, if_pos h₁.mode]
    obtain ⟨m, hm⟩ := htree.rooted.exists_branch hhdmem
    have hnext := h.insert_next hwin hins
    have hmeet : hd ≠ y → hd.prev ≠ y.id → ∃ z ∈ m, z ∈ l := by
      intro hne hprev
      obtain ⟨rfl, habove, -⟩ := hnext.resolve_left hne
      refine ⟨T.genesis, ?_, ?_⟩
      · have hng : T.genesis ≠ n.toBlockData := by
          intro heq
          apply T.no_parent p (h.tree.members p hp)
          rw [heq, ← hnp]
        exact (mem_cons.mp (h₁.genesis_mem_branch hm)).resolve_left hng
      have hyg : T.genesis ≠ y := by
        intro heq
        have hoff' := hoff (h.head_eq.trans heq.symm)
        rw [h.head_eq] at hoff'
        exact hprev (hoff' habove p hp hnp)
      exact (mem_cons.mp (h.toApplied.genesis_mem_branch h.branch)).resolve_left hyg
    rcases h₁.follow hsized hhead hm
      (fun hne => ⟨_, (hnext.resolve_left hne).2.2, h.first⟩) hmeet with
      ⟨c', hok, h', -⟩ | ⟨hne, x, hxm, hbad, e, c', hthrow, h', hwithout⟩
    · exact .inl ⟨c', _, hok, h'⟩
    obtain ⟨rfl, -, hblocks⟩ := hnext.resolve_left hne
    have hsub : ∀ a ∈ c.forkDb.index.byLibBlockNum, a ∈ c₁.forkDb.index.byLibBlockNum :=
      fun _ ha => mem_blocks_of_insert hins ha
    refine .inr (.inr ⟨e, c', x, hthrow, hbad, hm.ancestor htree.members hxm, h', ?_⟩)
    intro b
    constructor
    · intro hb
      have hbc : b ∈ c.forkDb.index.byLibBlockNum := by
        obtain ⟨E, hcut, hfilter⟩ := id hwithout
        have hgone := (htree.rooted.cut_iff hcut hm).mpr ⟨x, hxm, rfl⟩
        rw [hfilter, hblocks, filter_cons_of_neg (by simpa using hgone)] at hb
        exact (mem_filter.mp hb).1
      exact ⟨hbc, (h.withoutSubtree_iff htree hsub (hm.mem x hxm) hwithout hbc).mp hb⟩
    · intro hb
      exact (h.withoutSubtree_iff htree hsub (hm.mem x hxm) hwithout hb.1).mpr hb.2
  · omega

def IsMarked (c : Controller Key Sig) (id : BlockId) : Prop :=
  ∃ b ∈ c.forkDb.index.byBlockNum, b.id = id ∧ b.inCurrentChain = true

lemma Applied.isMarked_iff (h : Applied T fails past cur c) (id : BlockId) :
    IsMarked c id ↔ ∃ b ∈ cur, b.id = id ∧ T.genesis.blockNum < b.blockNum := by
  constructor
  · intro hex
    obtain ⟨b, hb, hid, hmark⟩ := hex
    obtain ⟨hcur, hg⟩ := (h.marks b hb).mp hmark
    exact ⟨b.toBlockData, hcur, hid, hg⟩
  intro hex
  obtain ⟨b, hb, hid, hg⟩ := hex
  obtain ⟨d, hd, rfl⟩ := mem_blocks_iff.mp (h.mem_of_cur hb)
  exact ⟨d, hd, hid, (h.marks d hd).mpr ⟨hb, hg⟩⟩

inductive Push (T : BlockTree Key Sig) (C : Crypto Key Sig) (fails : SignedBlock Key Sig → Bool)
    (c : Controller Key Sig) : Controller Key Sig → Prop where
  | push (n : BlockState Key Sig) : T.mem n.toBlockData → n.inCurrentChain = false →
      OffRoot T c n → Push T C fails c (pushBlock C fails n c).state

lemma inSync_of_pushes (hsized : T.Sized)
    (hlib : ∀ b, T.mem b → b.dposIrreversibleBlocknum ≤ T.genesis.blockNum)
    (hinit : InSync T fails [] [T.genesis] c) (hrun : Relation.ReflTransGen (Push T C fails) c c₁) :
    ∃ cur, InSync T fails [] cur c₁ := by
  induction hrun with
  | refl => exact ⟨_, hinit⟩
  | tail _ hstep ih =>
    obtain ⟨cur, h⟩ := ih
    cases hstep with
    | push n hn hmark hoff =>
      rcases h.push_unpruned (C := C) hsized hlib hn hmark hoff with
        ⟨c', cur', hok, h'⟩ | ⟨e, hthrow, -⟩ | ⟨e, c', x, hthrow, -, -, h', -⟩
      · rw [hok]
        exact ⟨cur', h'⟩
      · rw [hthrow]
        exact ⟨cur, h⟩
      · rw [hthrow]
        exact ⟨cur, h'⟩

/-- Along every run of pushes that do not jump over the root, the controller stays in step
with its fork database. A push goes through, or it is refused and changes nothing, or it
fails at a bad block: the head and the marks are then as before, and the index has lost the
bad block with its descendants. -/
theorem pushBlock_atomic (hsized : T.Sized)
    (hlib : ∀ b, T.mem b → b.dposIrreversibleBlocknum ≤ T.genesis.blockNum)
    {g : BlockState Key Sig} {block : SignedBlock Key Sig} (hg : g.toBlockData = T.genesis)
    (hblock : g.block = some block) (hmark : g.inCurrentChain = false)
    (hrun : Relation.ReflTransGen (Push T C fails) (initial g block .speculative) c) : InStep T c ∧
    ∀ n : BlockState Key Sig, T.mem n.toBlockData → n.inCurrentChain = false → OffRoot T c n →
      (∃ c', pushBlock C fails n c = .ok c' ∧ InStep T c') ∨
      (∃ e, pushBlock C fails n c = .throw e c ∧ ((∃ b ∈ c.forkDb.index.byBlockNum, b.id = n.id) ∨
          ∀ b ∈ c.forkDb.index.byBlockNum, b.id ≠ n.prev)) ∨
      (∃ e c' x, pushBlock C fails n c = .throw e c' ∧ ¬ x.Good fails ∧
        blockLinks.Ancestor T.mem x n.toBlockData ∧ InStep T c' ∧ c'.env.head = c.env.head ∧
        (∀ id, IsMarked c' id ↔ IsMarked c id) ∧
        ∀ b, b ∈ c'.forkDb.index.byLibBlockNum ↔ b ∈ c.forkDb.index.byLibBlockNum ∧
          ¬ blockLinks.Ancestor (fun a => a ∈ c.forkDb.index.byLibBlockNum) x b) := by
  obtain ⟨cur, h⟩ := inSync_of_pushes hsized hlib
    (inSync_initial hg hblock hmark (by decide)) hrun
  refine ⟨h.inStep, ?_⟩
  intro n hn hnmark hoff
  rcases h.push_unpruned (C := C) hsized hlib hn hnmark hoff with
    ⟨c', cur', hok, h'⟩ | hrefused | ⟨e, c', x, hthrow, hbad, hanc, h', hlost⟩
  · exact .inl ⟨c', hok, h'.inStep⟩
  · exact .inr (.inl hrefused)
  refine .inr (.inr ⟨e, c', x, hthrow, hbad, hanc, h'.inStep, ?_, ?_, hlost⟩)
  · exact Option.some.inj (h'.head.symm.trans h.head)
  · intro id
    rw [h'.isMarked_iff, h.isMarked_iff]

def root3 : BlockState Nat Nat := blockOn (blockOn (blockOn default 1 0).id 2 0).id 3 2
def low4 : BlockState Nat Nat := blockOn root3.id 4 1
def top5 : BlockState Nat Nat := blockOn low4.id 5 2

def rootBlock : SignedBlock Nat Nat := { toSignedBlockHeader := root3.header }

/-- A second branch, whose last block can be made to fail. -/
def head4 : BlockState Nat Nat := blockOn root3.id 6 3
def rival4 : BlockState Nat Nat := blockOn root3.id 7 2
def bad5 : BlockState Nat Nat := blockOn rival4.id 8 3

def rootBlocks : List (BlockData Nat Nat) :=
  [low4.toBlockData, top5.toBlockData, head4.toBlockData, rival4.toBlockData, bad5.toBlockData]

def rootTree : BlockTree Nat Nat :=
  .ofList root3.toBlockData rootBlocks (by decide +kernel)
    (by decide +kernel) (by decide +kernel) (by decide +kernel) (by decide +kernel)

lemma rootTree_lib : ∀ b, rootTree.mem b →
    b.dposIrreversibleBlocknum ≤ rootTree.genesis.blockNum := by
  change ∀ b ∈ root3.toBlockData :: rootBlocks, b.dposIrreversibleBlocknum ≤ root3.blockNum
  decide +kernel

lemma rootTree_sized : rootTree.Sized := by
  change ∀ b ∈ root3.toBlockData :: rootBlocks, b.blockNum < 4294967296
  decide +kernel

/-- The controller stays at the root while the fork database moves on to `top5`. -/
theorem push_stuck_at_root :
    (∀ b, rootTree.mem b → b.dposIrreversibleBlocknum ≤ rootTree.genesis.blockNum) ∧
    ∃ c e c', pushBlock plainCrypto (fun _ => false) low4
        (initial root3 rootBlock .speculative) = .ok c ∧
      pushBlock plainCrypto (fun _ => false) top5 c = .throw e c' ∧
      e.message = "attempt to pop beyond last irreversible block" ∧ ¬ InStep rootTree c' := by
  refine ⟨rootTree_lib, ?_⟩
  obtain ⟨c, hlow, htop⟩ := Outcome.exists_ok_of_okAnd
    (x := pushBlock plainCrypto (fun _ => false) low4 (initial root3 rootBlock .speculative))
    (p := fun c => (pushBlock plainCrypto (fun _ => false) top5 c).throwAnd fun e c' =>
      e.message = "attempt to pop beyond last irreversible block" ∧
        (c'.forkDb.head.map fun h => h.id) = some top5.id ∧ c'.env.head.id = root3.id)
    (by decide +kernel)
  obtain ⟨e, c', hthrow, hc'⟩ := Outcome.exists_throw_of_throwAnd htop
  obtain ⟨hmessage, hbest, hhead⟩ := of_decide_eq_true hc'
  refine ⟨c, e, c', hlow, hthrow, hmessage, ?_⟩
  intro hstep
  rw [hstep.1, Option.map_some, hhead] at hbest
  revert hbest
  decide +kernel

def atHead4 : Controller Nat Nat :=
  (pushBlock plainCrypto (fun b => b.timestamp = 8) head4
    (initial root3 rootBlock .speculative)).state

def besideRival4 : Controller Nat Nat :=
  (pushBlock plainCrypto (fun b => b.timestamp = 8) rival4 atHead4).state

lemma offRoot_of_head {T : BlockTree Nat Nat} {c : Controller Nat Nat} {n : BlockState Nat Nat}
    (h : c.env.head.id ≠ T.genesis.id) : OffRoot T c n :=
  fun hhead => absurd (congrArg (fun b => b.id) hhead) h

lemma reach_besideRival4 : Relation.ReflTransGen (Push rootTree plainCrypto fun b => b.timestamp = 8)
    (initial root3 rootBlock .speculative) besideRival4 := by
  have hfirst : Push rootTree plainCrypto (fun b => b.timestamp = 8)
      (initial root3 rootBlock .speculative) atHead4 :=
    .push head4 (by simp [rootTree, BlockTree.ofList, rootBlocks]) rfl fun _ _ _ _ _ => rfl
  have hsecond : Push rootTree plainCrypto (fun b => b.timestamp = 8) atHead4 besideRival4 :=
    .push rival4 (by simp [rootTree, BlockTree.ofList, rootBlocks]) rfl
      (offRoot_of_head (by decide +kernel))
  exact (Relation.ReflTransGen.single hfirst).tail hsecond

/-- `bad5` outranks `head4` and fails after the switch to its branch: the controller is back at
`head4`, and `bad5` is gone. -/
theorem pushBlock_atomic_bad5 :
    Relation.ReflTransGen (Push rootTree plainCrypto fun b => b.timestamp = 8)
      (initial root3 rootBlock .speculative) besideRival4 ∧
    besideRival4.env.head.id = head4.id ∧ InStep rootTree besideRival4 ∧
    ∃ e c' x, pushBlock plainCrypto (fun b => b.timestamp = 8) bad5 besideRival4 = .throw e c' ∧
      ¬ x.Good (fun b => b.timestamp = 8) ∧
      blockLinks.Ancestor rootTree.mem x bad5.toBlockData ∧ InStep rootTree c' ∧
      c'.env.head = besideRival4.env.head ∧
      (∀ id, IsMarked c' id ↔ IsMarked besideRival4 id) ∧
      ∀ b, b ∈ c'.forkDb.index.byLibBlockNum ↔
        b ∈ besideRival4.forkDb.index.byLibBlockNum ∧
          ¬ blockLinks.Ancestor (fun a => a ∈ besideRival4.forkDb.index.byLibBlockNum) x b := by
  obtain ⟨hstep, hpush⟩ := pushBlock_atomic rootTree_sized rootTree_lib rfl rfl rfl
    reach_besideRival4
  refine ⟨reach_besideRival4, by decide +kernel, hstep, ?_⟩
  have hthrown : (pushBlock plainCrypto (fun b => b.timestamp = 8) bad5 besideRival4).okAnd
      (fun _ => true) = false := by decide +kernel
  have hnew : ¬ ((∃ b ∈ besideRival4.forkDb.index.byBlockNum, b.id = bad5.id) ∨
      ∀ b ∈ besideRival4.forkDb.index.byBlockNum, b.id ≠ bad5.prev) := by decide +kernel
  rcases hpush bad5 (by simp [rootTree, BlockTree.ofList, rootBlocks]) rfl
    (offRoot_of_head (by decide +kernel)) with ⟨c', hok, -⟩ | ⟨e, -, hwhy⟩ | hbad
  · rw [hok] at hthrown
    simp [Outcome.okAnd] at hthrown
  · exact absurd hwhy hnew
  · exact hbad

end Controller

end DimensionChain
