import DimensionChain.Controller.Irreversible

/-!
# When a fork switch finds its way

In a tree of valid blocks a descendant outranks its ancestors. The old and the new branch then
meet in the last irreversible block of the old head at the latest. `add` may however prune that
block for the new head before the old branch is left.
-/

namespace DimensionChain

open BlockTree

variable {Key Sig : Type}

namespace BlockTree
variable {T : BlockTree Key Sig}

def Monotone (T : BlockTree Key Sig) : Prop :=
  ∀ a b, T.mem a → T.mem b → a.prev = b.id →
    b.dposIrreversibleBlocknum ≤ a.dposIrreversibleBlocknum ∧
      b.bftIrreversibleBlocknum ≤ a.bftIrreversibleBlocknum

lemma ranksAbove_of_ancestor (hmono : T.Monotone) {a b : BlockData Key Sig} (hb : T.mem b)
    (h : blockLinks.Ancestor T.mem a b) : a = b ∨ b.ranksAbove a := by
  have hP := h.closed (P := fun c => T.mem c ∧ (c = b ∨ b.ranksAbove c)) ⟨hb, .inl rfl⟩ (by
    intro c p hc hp hcp
    have hnum := T.num_of_parent c p hc.1 hp hcp
    obtain ⟨hlib, hbft⟩ := hmono c p hc.1 hp hcp
    refine ⟨hp, .inr ?_⟩
    rcases hc.2 with rfl | habove
    · unfold BlockData.ranksAbove
      omega
    · unfold BlockData.ranksAbove at habove ⊢
      omega)
  exact hP.2

end BlockTree

namespace Controller
variable {T : BlockTree Key Sig} {fails : SignedBlock Key Sig → Bool} {C : Crypto Key Sig}
  {past cur : List (BlockData Key Sig)} {c c₁ : Controller Key Sig} {y : BlockData Key Sig}
  {n : BlockState Key Sig}

/-- A block that outranks the head without linking to it descends from the last irreversible
block of the head. -/
def KeepsIrreversible (T : BlockTree Key Sig) (c : Controller Key Sig) (n : BlockState Key Sig) :
    Prop :=
  n.toBlockData.ranksAbove c.env.head → n.prev ≠ c.env.head.id →
    ∀ b, T.mem b → blockLinks.Ancestor T.mem b c.env.head →
      b.blockNum = c.env.head.dposIrreversibleBlocknum →
      blockLinks.Ancestor T.mem b n.toBlockData

/-- If its addition prunes the oldest number, then it shares with the head a block above that
number, other than the head. -/
def ForksAbovePruned (T : BlockTree Key Sig) (c : Controller Key Sig) (n : BlockState Key Sig) :
    Prop :=
  n.toBlockData.ranksAbove c.env.head → n.prev ≠ c.env.head.id →
    ∀ oldest, c.forkDb.index.byBlockNum.head? = some oldest →
      oldest.blockNum < n.dposIrreversibleBlocknum →
      ∃ b, b ≠ c.env.head ∧ oldest.blockNum < b.blockNum ∧
        blockLinks.Ancestor T.mem b c.env.head ∧ blockLinks.Ancestor T.mem b n.toBlockData

inductive ValidPush (T : BlockTree Key Sig) (C : Crypto Key Sig)
    (fails : SignedBlock Key Sig → Bool) (c : Controller Key Sig) :
    Controller Key Sig → Prop where
  | push (n : BlockState Key Sig) : T.mem n.toBlockData → n.inCurrentChain = false →
      KeepsIrreversible T c n → ForksAbovePruned T c n →
      ValidPush T C fails c (pushBlock C fails n c).state

namespace InSync

variable {p : BlockData Key Sig}

lemma head_ne_genesis (hmono : T.Monotone) (h : InSync T fails [] (y :: cur) c)
    (hp : p ∈ c.forkDb.index.byLibBlockNum) (hpy : p ≠ y) : T.genesis ≠ y := by
  rintro rfl
  obtain ⟨l, hl⟩ := h.tree.rooted.exists_branch hp
  have hanc := hl.ancestor h.tree.members (h.toApplied.genesis_mem_branch hl)
  rcases ranksAbove_of_ancestor hmono (h.tree.members p hp) hanc with heq | habove
  · exact hpy heq.symm
  · exact c.forkDb.index.libOrdered.le_of_head h.first hp (ranksAbove_irrefl _) habove

lemma exists_above_pruned (h : InSync T fails past (y :: cur) c)
    (hforks : ForksAbovePruned T c n) (habove : n.toBlockData.ranksAbove y)
    (hprev : n.prev ≠ y.id) (hp : p ∈ c.forkDb.index.byLibBlockNum)
    (hlow : T.rootNum past + 1 < n.dposIrreversibleBlocknum) :
    ∃ z ∈ cur, blockLinks.Ancestor T.mem z n.toBlockData ∧
      (T.rootNum past + 1 < n.dposIrreversibleBlocknum → T.rootNum past + 1 < z.blockNum) := by
  unfold ForksAbovePruned at hforks
  rw [h.head_eq] at hforks
  obtain ⟨s, hs⟩ := ForkMultiIndex.exists_front hp
  have hsnum := (h.tree.front_lowest hs).1
  obtain ⟨b, hby, hbnum, hbanc, hbn⟩ := hforks habove hprev s hs (by omega)
  have hbcur := h.tree.mem_branch_of_ancestor h.branch (by omega) hbanc
  exact ⟨b, (List.mem_cons.mp hbcur).resolve_left hby, hbn, fun _ => by omega⟩

lemma meets (hmono : T.Monotone) (hlib : T.LibBelow) (h : InSync T fails past (y :: cur) c)
    (hpast : past = [] ∨ T.rootNum past < y.dposIrreversibleBlocknum)
    (hkeeps : KeepsIrreversible T c n) (hforks : ForksAbovePruned T c n) :
    Meets T past cur y c n := by
  intro habove hprev p hp hnp
  unfold KeepsIrreversible at hkeeps
  rw [h.head_eq] at hkeeps
  have hyT := h.tree.members y (h.mem_of_cur (by simp))
  by_cases hlow : T.rootNum past + 1 < n.dposIrreversibleBlocknum
  · exact h.exists_above_pruned hforks habove hprev hp hlow
  rcases hpast with rfl | hroot
  · have hpy : p ≠ y := by
      rintro rfl
      exact hprev hnp
    have hne := h.head_ne_genesis hmono hp hpy
    obtain ⟨l, hl⟩ := h.tree.rooted.exists_branch hp
    have hanc := hl.ancestor h.tree.members (h.toApplied.genesis_mem_branch hl)
    refine ⟨T.genesis, ?_, .head ⟨h.tree.members p hp, hnp⟩ hanc, fun hlt => absurd hlt hlow⟩
    exact (List.mem_cons.mp (h.toApplied.genesis_mem_branch h.branch)).resolve_left hne
  have hbelow := hlib y hyT
  obtain ⟨b, hb, hbnum⟩ := h.branch.exists_height hroot (Nat.le_of_lt hbelow)
  have hbanc := h.branch.ancestor h.tree.members hb
  have hby : b ≠ y := by
    rintro rfl
    have hbnum' : b.blockNum = b.dposIrreversibleBlocknum := hbnum
    omega
  refine ⟨b, (List.mem_cons.mp hb).resolve_left hby, ?_, fun hlt => absurd hlt hlow⟩
  exact hkeeps habove hprev b (h.tree.members b (h.mem_of_cur hb)) hbanc hbnum

end InSync

lemma inSync_of_validPushes (hsized : T.Sized) (hpacked : T.Packed C) (hlib : T.LibBelow)
    (hmono : T.Monotone) (hgood : ∀ b, T.mem b → b.Good fails)
    (hinit : InSync T fails [] [T.genesis] c)
    (hrun : Relation.ReflTransGen (ValidPush T C fails) c c₁) :
    ∃ past y cur, InSync T fails past (y :: cur) c₁ ∧
      (past = [] ∨ T.rootNum past < y.dposIrreversibleBlocknum) := by
  induction hrun with
  | refl => exact ⟨[], T.genesis, [], hinit, .inl rfl⟩
  | tail _ hstep ih =>
    obtain ⟨past, y, cur, h, hpast⟩ := ih
    cases hstep with
    | push n hn hmark hkeeps hforks =>
      rcases h.push_cases hsized hpacked hlib hn hmark (h.meets hmono hlib hpast hkeeps hforks) with
        ⟨e, -, hthrow, -⟩ | ⟨c', past', hd, m, hok, h', hchoice, hpast'⟩ |
        ⟨e, c', past', cur', x, -, -, hx, hbad⟩
      · rw [hthrow]
        exact ⟨past, y, cur, h, hpast⟩
      · rw [hok]
        refine ⟨past', hd, m, h', ?_⟩
        have hrank : y.dposIrreversibleBlocknum ≤ hd.dposIrreversibleBlocknum := by
          rcases hchoice with rfl | ⟨rfl, habove⟩
          · exact Nat.le_refl _
          · unfold BlockData.ranksAbove at habove
            omega
        rcases hpast' with rfl | hroot
        · rcases hpast with hnil | hroot
          · exact .inl hnil
          · exact .inr (by omega)
        · exact .inr hroot
      · exact absurd (hgood x hx) hbad

/-- Along every run of such pushes of valid blocks, a push succeeds, with every block of the
old branch popped, or it is refused by `add` before any block is popped. -/
theorem pushBlock_pops (hsized : T.Sized) (hpacked : T.Packed C) (hlib : T.LibBelow)
    (hmono : T.Monotone) (hgood : ∀ b, T.mem b → b.Good fails) {g : BlockState Key Sig}
    {block : SignedBlock Key Sig} {mode : DbReadMode} (hg : g.toBlockData = T.genesis)
    (hblock : g.block = some block) (hmark : g.inCurrentChain = false)
    (hmode : mode ≠ .irreversible)
    (hrun : Relation.ReflTransGen (ValidPush T C fails) (initial g block mode) c) :
    ∀ n : BlockState Key Sig, T.mem n.toBlockData → n.inCurrentChain = false →
      KeepsIrreversible T c n → ForksAbovePruned T c n → (∃ c', pushBlock C fails n c = .ok c') ∨
      (∃ e, c.add (onIrreversible C fails) n false = .throw e c ∧
        pushBlock C fails n c = .throw e c) := by
  obtain ⟨past, y, cur, h, hpast⟩ := inSync_of_validPushes hsized hpacked hlib hmono hgood
    (inSync_initial hg hblock hmark hmode) hrun
  intro n hn hnmark hkeeps hforks
  rcases h.push_cases hsized hpacked hlib hn hnmark (h.meets hmono hlib hpast hkeeps hforks) with
    ⟨e, hadd, hthrow, -⟩ | ⟨c', past', hd, m, hok, -⟩ | ⟨e, c', past', cur', x, -, -, hx, hbad⟩
  · exact .inr ⟨e, hadd, hthrow⟩
  · exact .inl ⟨c', hok⟩
  · exact absurd (hgood x hx) hbad

/-- Two children of the root. Both children of the second one outrank the first one, but only
`right3` makes the root final. -/
def root1 : BlockState Nat Nat := blockOn default 1 0
def left2 : BlockState Nat Nat := blockOn root1.id 2 1
def right2 : BlockState Nat Nat := blockOn root1.id 3 0
def right3 : BlockState Nat Nat := blockOn right2.id 4 2
def late3 : BlockState Nat Nat := blockOn right2.id 5 1
def late4 : BlockState Nat Nat := blockOn late3.id 6 2

def forkBlocks : List (BlockData Nat Nat) :=
  [left2.toBlockData, right2.toBlockData, right3.toBlockData, late3.toBlockData,
    late4.toBlockData]

def forkTree : BlockTree Nat Nat :=
  .ofList root1.toBlockData forkBlocks (by decide +kernel) (by decide +kernel) (by decide +kernel)
    (by decide +kernel) (by decide +kernel)

def startAtRoot1 : Controller Nat Nat :=
  initial root1 { toSignedBlockHeader := root1.header } .speculative

lemma forkTree_sized : forkTree.Sized := by
  change ∀ b ∈ root1.toBlockData :: forkBlocks, b.blockNum < 4294967296
  decide +kernel

lemma forkTree_packed : forkTree.Packed plainCrypto := by
  have hall : ∀ b ∈ root1.toBlockData :: forkBlocks, ∀ block ∈ b.block.toList,
      block.id plainCrypto = b.id ∧ block.blockNum = b.blockNum := by decide +kernel
  exact fun b hb block hblock => hall b hb block (by simp [hblock])

lemma forkTree_libBelow : forkTree.LibBelow := by
  change ∀ b ∈ root1.toBlockData :: forkBlocks, b.dposIrreversibleBlocknum < b.blockNum
  decide +kernel

lemma forkTree_monotone : forkTree.Monotone := by
  have hall : ∀ a ∈ root1.toBlockData :: forkBlocks, ∀ b ∈ root1.toBlockData :: forkBlocks,
      a.prev = b.id → b.dposIrreversibleBlocknum ≤ a.dposIrreversibleBlocknum ∧
        b.bftIrreversibleBlocknum ≤ a.bftIrreversibleBlocknum := by decide +kernel
  exact fun a b ha hb hab => hall a ha b hb hab

lemma forkTree_good : ∀ b, forkTree.mem b → b.Good fun _ => false := by
  have hall : ∀ b ∈ root1.toBlockData :: forkBlocks, ∀ block ∈ b.block.toList,
      block.blockExtensions = [] := by decide +kernel
  exact fun b hb block hblock => ⟨hall b hb block (by simp [hblock]), rfl⟩

/-- `right3` descends from the last irreversible block of the head `left2`, but its addition
prunes that block, and `left2` can no longer be popped. -/
theorem switch_needs_pruned_block :
    forkTree.LibBelow ∧ forkTree.Monotone ∧ (∀ b, forkTree.mem b → b.Good fun _ => false) ∧
    ∃ c₁ c₂ e c₃, pushBlock plainCrypto (fun _ => false) left2 startAtRoot1 = .ok c₁ ∧
      pushBlock plainCrypto (fun _ => false) right2 c₁ = .ok c₂ ∧
      c₂.env.head.id = left2.id ∧ c₂.env.head.dposIrreversibleBlocknum = root1.blockNum ∧
      blockLinks.Ancestor forkTree.mem root1.toBlockData right3.toBlockData ∧
      pushBlock plainCrypto (fun _ => false) right3 c₂ = .throw e c₃ ∧
      e.message = "attempt to pop beyond last irreversible block" := by
  refine ⟨forkTree_libBelow, forkTree_monotone, forkTree_good, ?_⟩
  obtain ⟨c₁, hleft, hright⟩ := Outcome.exists_ok_of_okAnd
    (x := pushBlock plainCrypto (fun _ => false) left2 startAtRoot1)
    (p := fun c₁ => (pushBlock plainCrypto (fun _ => false) right2 c₁).okAnd fun c₂ =>
      (decide (c₂.env.head.id = left2.id ∧
        c₂.env.head.dposIrreversibleBlocknum = root1.blockNum)) &&
      (pushBlock plainCrypto (fun _ => false) right3 c₂).throwAnd fun e _ =>
        e.message = "attempt to pop beyond last irreversible block") (by decide +kernel)
  obtain ⟨c₂, hright2, hrest⟩ := Outcome.exists_ok_of_okAnd hright
  obtain ⟨hhead, hthrow⟩ := (Bool.and_eq_true _ _).mp hrest
  obtain ⟨hid, hlast⟩ := of_decide_eq_true hhead
  obtain ⟨e, c₃, hright3, hmessage⟩ := Outcome.exists_throw_of_throwAnd hthrow
  refine ⟨c₁, c₂, e, c₃, hleft, hright2, hid, hlast, ?_, hright3, of_decide_eq_true hmessage⟩
  have hroot : forkTree.mem root1.toBlockData := by simp [forkTree, ofList]
  have hmid : forkTree.mem right2.toBlockData := by simp [forkTree, ofList, forkBlocks]
  exact .head ⟨hmid, rfl⟩ (.single ⟨hroot, rfl⟩)

def besideRight2 : Controller Nat Nat :=
  (pushBlock plainCrypto (fun _ => false) right2
    (pushBlock plainCrypto (fun _ => false) left2 startAtRoot1).state).state

lemma reach_besideRight2 :
    Relation.ReflTransGen (ValidPush forkTree plainCrypto fun _ => false) startAtRoot1
      besideRight2 := by
  have hlink : left2.prev = startAtRoot1.env.head.id := rfl
  have hbelow : ¬ right2.toBlockData.ranksAbove
      (pushBlock plainCrypto (fun _ => false) left2 startAtRoot1).state.env.head := by
    decide +kernel
  have hfirst : ValidPush forkTree plainCrypto (fun _ => false) startAtRoot1
      (pushBlock plainCrypto (fun _ => false) left2 startAtRoot1).state :=
    .push left2 (by simp [forkTree, ofList, forkBlocks]) rfl
      (fun _ hnot => absurd hlink hnot) (fun _ hnot => absurd hlink hnot)
  refine (Relation.ReflTransGen.single hfirst).tail (.push right2 ?_ rfl ?_ ?_)
  · simp [forkTree, ofList, forkBlocks]
  · exact fun habove => absurd habove hbelow
  · exact fun habove => absurd habove hbelow

lemma late3_keepsIrreversible : KeepsIrreversible forkTree besideRight2 late3 := by
  intro _ _ b hb _ hnum
  have hlast : besideRight2.env.head.dposIrreversibleBlocknum = 1 := by decide +kernel
  have hroot : ∀ b ∈ root1.toBlockData :: forkBlocks, b.blockNum = 1 → b.id = root1.id := by
    decide +kernel
  have hrootmem : forkTree.mem root1.toBlockData := by simp [forkTree, ofList]
  have hmid : forkTree.mem right2.toBlockData := by simp [forkTree, ofList, forkBlocks]
  rw [forkTree.eq_of_id b root1.toBlockData hb hrootmem (hroot b hb (hnum.trans hlast))]
  exact .head ⟨hmid, rfl⟩ (.single ⟨hrootmem, rfl⟩)

/-- `late3` outranks the head `left2` and the controller switches to it. -/
theorem pushBlock_pops_late3 :
    late3.toBlockData.ranksAbove besideRight2.env.head ∧ late3.prev ≠ besideRight2.env.head.id ∧
    ((∃ c', pushBlock plainCrypto (fun _ => false) late3 besideRight2 = .ok c') ∨
      (∃ e, besideRight2.add (onIrreversible plainCrypto fun _ => false) late3 false =
          .throw e besideRight2 ∧
        pushBlock plainCrypto (fun _ => false) late3 besideRight2 = .throw e besideRight2)) := by
  refine ⟨by decide +kernel, by decide +kernel, ?_⟩
  refine pushBlock_pops forkTree_sized forkTree_packed forkTree_libBelow forkTree_monotone
    forkTree_good rfl rfl rfl (by decide) reach_besideRight2 late3
    (by simp [forkTree, ofList, forkBlocks]) rfl late3_keepsIrreversible ?_
  intro _ _ oldest holdest hlt
  have hfirst : (besideRight2.forkDb.index.byBlockNum.head?.map fun b => b.blockNum) = some 1 := by
    decide +kernel
  rw [holdest] at hfirst
  have hone : oldest.blockNum = 1 := Option.some.inj hfirst
  have hlib : late3.dposIrreversibleBlocknum = 1 := rfl
  omega

end Controller

end DimensionChain
