import DimensionChain.Controller.CommitBlock
import DimensionChain.Controller.ForkPoint

/-!
# The stored blocks are the current chain

The blocks of the current chain are found by number: in the fork database above the log, and in
the log below. What lies between the head of the log and the head is in the reversible database. A
node that is closed prunes once more, after the fork database has been written, and the files pass
the assertions of the start-up.
-/

namespace DimensionChain

open List Option ForkMultiIndex ForkDatabase

variable {Key Sig : Type}

namespace BlockTree
variable {T : BlockTree Key Sig} {C : Crypto Key Sig} {past cur : List (BlockData Key Sig)}
  {log : BlockLog Key Sig} {l : List (BlockData Key Sig)}

def Hashed (T : BlockTree Key Sig) (C : Crypto Key Sig) : Prop :=
  ∀ b, T.mem b → b.id = b.header.toBlockHeader.id C

lemma logged_history (h : T.History past) : T.History (T.logged past) := by
  cases past with
  | nil => exact .genesis
  | cons p l => exact h

lemma History.num_getElem (h : T.History l) {k : Nat}
    {b : BlockData Key Sig} (hb : l.reverse[k]? = some b) :
    b.blockNum = T.genesis.blockNum + k := by
  induction h with
  | nil => simp at hb
  | genesis =>
    cases k with
    | zero =>
      have hbg : T.genesis = b := by simpa using hb
      rw [← hbg]
      rfl
    | succ k => simp at hb
  | @link a p l ha hap hl ih =>
    rw [reverse_cons] at hb
    by_cases hk : k < (p :: l).reverse.length
    · rw [getElem?_append_left hk] at hb
      exact ih hb
    rw [List.getElem?_append_right (by omega)] at hb
    obtain ⟨hlt, -⟩ := List.getElem?_eq_some_iff.mp hb
    have hzero : k = (p :: l).reverse.length := by
      simp only [length_cons, length_nil] at hlt
      omega
    have hab : a = b := by
      rw [hzero, Nat.sub_self] at hb
      simpa using hb
    rw [← hab, (History.link ha hap hl).num_eq, hzero, length_reverse]

lemma History.ancestor {p b : BlockData Key Sig}
    (h : T.History (p :: l)) (hb : b ∈ p :: l) : blockLinks.Ancestor T.mem b p := by
  induction l generalizing p with
  | nil =>
    rw [mem_singleton.mp hb]
    exact .refl
  | cons q l ih =>
    cases h with
    | link hp hpq hl =>
      rcases mem_cons.mp hb with rfl | hb
      · exact .refl
      · exact .head ⟨hl.mem q (by simp), hpq⟩ (ih hl hb)

lemma Logged.head_num (h : T.Logged past log) (hpacked : T.Packed C) (hhist : T.History past) :
    ∃ logHead, log.head = some logHead ∧
      logHead.blockNum = max T.genesis.blockNum (T.rootNum past) ∧
      numFromId (logHead.id C) = logHead.blockNum := by
  obtain ⟨b, block, hb, hblock, hhead⟩ := h.head
  have hbT := logged_mem hhist b (mem_of_mem_head? hb)
  refine ⟨block, hhead, ?_, numFromId_id C _⟩
  rw [(hpacked b hbT block hblock).2]
  cases past with
  | nil =>
    have hbg : T.genesis = b := Option.some.inj hb
    have hroot : T.rootNum [] = T.genesis.blockNum - 1 := rfl
    rw [← hbg, hroot]
    omega
  | cons p l =>
    have hbp : p = b := Option.some.inj hb
    have hroot : T.rootNum (p :: l) = p.blockNum := rfl
    have hle := hhist.genesis_le p (by simp)
    rw [← hbp, hroot]
    omega

lemma Logged.read (h : T.Logged past log) (hpacked : T.Packed C) (hhist : T.History past)
    {n : Nat} (hlow : T.genesis.blockNum ≤ n) (hhigh : n ≤ max T.genesis.blockNum (T.rootNum past)) :
    ∃ b block, b ∈ T.logged past ∧ b.blockNum = n ∧ b.block = some block ∧
      log.readBlockByNum C n = .ok (some block) := by
  obtain ⟨logHead, hhead, hheadnum, hheadid⟩ := h.head_num hpacked hhist
  obtain ⟨b₀, block₀, hb₀, hblock₀, hhead₀⟩ := h.head
  have hhist' := logged_history hhist
  have hlen : n - T.genesis.blockNum < (T.logged past).reverse.length := by
    obtain ⟨l, hl⟩ : ∃ l, T.logged past = b₀ :: l := head?_eq_some_iff.mp hb₀
    rw [hl] at hhist' ⊢
    have hnum := hhist'.num_eq
    have heq : logHead = block₀ := Option.some.inj (hhead.symm.trans hhead₀)
    have hb₀T := hhist'.mem b₀ (by simp)
    have hpack := (hpacked b₀ hb₀T block₀ hblock₀).2
    rw [heq] at hheadnum
    rw [length_reverse, length_cons]
    omega
  obtain ⟨b, hb⟩ : ∃ b, (T.logged past).reverse[n - T.genesis.blockNum]? = some b :=
    ⟨_, getElem?_eq_getElem hlen⟩
  have hbmem : b ∈ T.logged past := mem_reverse.mp (mem_of_getElem? hb)
  have hbT := hhist'.mem b hbmem
  have hbnum := hhist'.num_getElem hb
  obtain ⟨block, hblock, -⟩ := T.block b hbT
  refine ⟨b, block, hbmem, by omega, hblock, ?_⟩
  have hget : log.blocks[n - log.firstBlockNum]? = some block := by
    have hmap := congrArg (fun l => l[n - T.genesis.blockNum]?) h.2
    rw [getElem?_map, getElem?_map, hb, map_some, hblock] at hmap
    rw [h.1]
    simpa using hmap
  have hnum := (hpacked b hbT block hblock).2
  have hfirst := h.1
  unfold BlockLog.readBlockByNum
  rw [hhead]
  dsimp only
  rw [if_pos (by omega), hget]
  dsimp only
  rw [if_pos (by omega)]

end BlockTree

namespace Controller
variable {T : BlockTree Key Sig} {fails : SignedBlock Key Sig → Bool} {C : Crypto Key Sig}
  {past cur : List (BlockData Key Sig)} {c c₁ : Controller Key Sig} {x y : BlockData Key Sig}
  {n : BlockState Key Sig} {k : Nat}

namespace Applied

lemma found_by_num (h : Applied T fails past cur c) (hx : x ∈ cur)
    (hg : T.genesis.blockNum < x.blockNum) :
    ∃ s, c.forkDb.getBlockInCurrentChainByNum x.blockNum = some s ∧ s.toBlockData = x := by
  obtain ⟨d, hd, rfl⟩ := mem_blocks_iff.mp (h.mem_of_cur hx)
  have hmark := (h.marks d hd).mpr ⟨hx, hg⟩
  obtain ⟨s, hs⟩ : ∃ s, c.forkDb.index.byBlockNum.find? (fun b => d.blockNum ≤ b.blockNum) = some s := by
    apply isSome_iff_exists.mp
    rw [find?_isSome]
    exact ⟨d, hd, by simp⟩
  have hsmem := mem_of_find?_eq_some hs
  have hle : d.blockNum ≤ s.blockNum := by simpa using find?_some hs
  have hfirst := c.forkDb.index.numOrdered.le_of_find? hs hd (by simp)
    fun hlt => numBefore_precedence.asymm s s hlt hlt
  unfold BlockState.numBefore at hfirst
  have hnum : s.blockNum = d.blockNum := by omega
  have hsmark : s.inCurrentChain = true := by
    cases hsm : s.inCurrentChain with
    | true => rfl
    | false => exact absurd (.inr ⟨hnum.symm, hmark, hsm⟩) hfirst
  refine ⟨s, ?_, ?_⟩
  · unfold getBlockInCurrentChainByNum
    rw [hs]
    dsimp only
    rw [if_neg (by simp [hnum, hsmark])]
  · exact h.branch.eq_of_height ((h.marks s hsmem).mp hsmark).1 hx hnum

lemma not_found_by_num (h : Applied T fails past cur c)
    (hk : k ≤ max T.genesis.blockNum (T.rootNum past)) :
    c.forkDb.getBlockInCurrentChainByNum k = none := by
  unfold getBlockInCurrentChainByNum
  split
  · rfl
  rename_i s hs
  split
  · rfl
  rename_i hfound
  rw [not_or, Decidable.not_not, Decidable.not_not] at hfound
  obtain ⟨hcur, hg⟩ := (h.marks s (mem_of_find?_eq_some hs)).mp hfound.2
  have hlow := h.tree.rootNum_lt (h.mem_of_cur hcur)
  omega

variable {b : BlockData Key Sig}

lemma logged_ancestor (h : Applied T fails past (y :: cur) c)
    (hb : b ∈ T.logged past) : blockLinks.Ancestor T.mem b y := by
  cases past with
  | nil =>
    rw [mem_singleton.mp hb]
    exact h.branch.ancestor h.tree.members (h.genesis_mem_branch h.branch)
  | cons p l =>
    obtain ⟨k, z, hz⟩ := eq_nil_or_concat (y :: cur) |>.resolve_left (by simp)
    rw [concat_eq_append] at hz
    have hzy := h.branch.ancestor h.tree.members (x := z) (by rw [hz]; simp)
    have hbranch := h.branch
    rw [hz] at hbranch
    have hzp : z.prev = p.id := hbranch.parent_last.1
    have hpT := h.tree.history.mem p (by simp)
    exact (hzy.tail ⟨hpT, hzp⟩).trans (h.tree.history.ancestor hb)

lemma fetch_num (hpacked : T.Packed C) (h : Applied T fails past (y :: cur) c)
    (hlow : T.genesis.blockNum ≤ k) (hhigh : k ≤ y.blockNum) :
    ∃ b block, blockLinks.Ancestor T.mem b y ∧ b.blockNum = k ∧ b.block = some block ∧
      fetchBlockByNumber C k c = .ok (some block) ∧ getBlockIdForNum C k c = .ok b.id := by
  by_cases hk : k ≤ max T.genesis.blockNum (T.rootNum past)
  · obtain ⟨b, block, hb, hnum, hblock, hread⟩ := h.log.read hpacked h.tree.history hlow hk
    have hnone := h.not_found_by_num hk
    have hbT := BlockTree.logged_mem h.tree.history b hb
    refine ⟨b, block, h.logged_ancestor hb, hnum, hblock, ?_, ?_⟩
    · unfold fetchBlockByNumber
      rw [hnone]
      exact hread
    · unfold getBlockIdForNum
      rw [hnone, hread, ← (hpacked b hbT block hblock).1]
      rfl
  obtain ⟨b, hb, hnum⟩ := h.branch.exists_height (n := k) (by omega) hhigh
  have hbnum : b.blockNum = k := hnum
  obtain ⟨s, hs, hsb⟩ := h.found_by_num hb (by omega)
  obtain ⟨block, hblock, -⟩ := T.block b (h.tree.members b (h.mem_of_cur hb))
  rw [hbnum] at hs
  refine ⟨b, block, h.branch.ancestor h.tree.members hb, hbnum, hblock, ?_, ?_⟩
  · unfold fetchBlockByNumber
    have hsblock : s.block = some block := by rw [hsb, hblock]
    rw [hs, bind_some, hsblock]
  · unfold getBlockIdForNum
    rw [hs, ← hsb]

lemma fetch_id (hpacked : T.Packed C) (h : Applied T fails past (y :: cur) c)
    {block : SignedBlock Key Sig} (hanc : blockLinks.Ancestor T.mem b y)
    (hlow : T.genesis.blockNum ≤ b.blockNum) (hblock : b.block = some block) :
    fetchBlockById C b.id c = .ok (some block) := by
  have hyT := h.tree.members y (h.mem_of_cur (by simp))
  obtain ⟨hbT, hble⟩ := BlockTree.ancestor_mem hyT hanc
  obtain ⟨hid, hnum⟩ := hpacked b hbT block hblock
  have hbnum : numFromId b.id = b.blockNum := by
    rw [← hid, ← hnum]
    exact numFromId_id C _
  unfold fetchBlockById getBlock
  cases hs : c.forkDb.index.find? b.id with
  | some s =>
    obtain ⟨hsmem, hsid⟩ := find?_eq_some.mp hs
    have hsb : s.toBlockData = b :=
      T.eq_of_id _ _ (h.tree.members _ (mem_blocks hsmem)) hbT hsid
    have hsblock : s.block = some block := by rw [hsb, hblock]
    rw [bind_some, hsblock]
  | none =>
    obtain ⟨a, found, haanc, hanum, hablock, hfetch, -⟩ := h.fetch_num hpacked hlow hble
    have hab : a = b := BlockTree.ancestor_eq_of_num hyT haanc hanc hanum
    rw [hab, hblock] at hablock
    rw [bind_none, hbnum, hfetch, ← Option.some.inj hablock]
    simp [hid, bind, Except.bind, pure, Except.pure]

lemma reversible_iff (hpacked : T.Packed C) (h : Applied T fails past (y :: cur) c) (k : Nat)
    (block : SignedBlock Key Sig) : c.env.reversibleBlocks.find? k = some block ↔
      ∃ b, blockLinks.Ancestor T.mem b y ∧ b.blockNum = k ∧ b.block = some block ∧
        ∃ logHead, c.env.blog.head = some logHead ∧ logHead.blockNum < k := by
  obtain ⟨logHead, hhead, hnum, -⟩ := h.log.head_num hpacked h.tree.history
  rw [h.reversible k block]
  constructor
  · intro hex
    obtain ⟨b, hb, hbk, hg, hblock⟩ := hex
    have hlow := h.tree.rootNum_lt (h.mem_of_cur hb)
    exact ⟨b, h.branch.ancestor h.tree.members hb, hbk, hblock, logHead, hhead, by omega⟩
  intro hex
  obtain ⟨b, hanc, hbk, hblock, logHead', hhead', hlt⟩ := hex
  have heq : logHead = logHead' := Option.some.inj (hhead.symm.trans hhead')
  subst heq
  exact ⟨b, h.tree.mem_branch_of_ancestor h.branch (by omega) hanc, hbk, by omega, hblock⟩

end Applied

end Controller

end DimensionChain
