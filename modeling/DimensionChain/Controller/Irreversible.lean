import DimensionChain.Controller.PushBlock

/-!
# Pruning under the controller

`on_irreversible` moves the signalled block, the oldest one of the current chain, from the
reversible database to the block log. `add` prunes before the controller has left its old branch,
so the branches must still meet above the pruned number for the controller to follow the new head.
-/

namespace DimensionChain

open List ForkMultiIndex

variable {Key Sig : Type}

namespace BlockTree
variable {T : BlockTree Key Sig}

lemma History.num_eq {p : BlockData Key Sig} {l : List (BlockData Key Sig)}
    (h : T.History (p :: l)) : p.blockNum = T.genesis.blockNum + l.length := by
  induction l generalizing p with
  | nil =>
    cases h with
    | genesis => rfl
  | cons q l ih =>
    cases h with
    | link hp hpq hl =>
      rw [T.num_of_parent p q hp (hl.mem q (by simp)) hpq, ih hl, length_cons]
      omega

end BlockTree

namespace Controller
variable {T : BlockTree Key Sig} {fails : SignedBlock Key Sig → Bool} {C : Crypto Key Sig}
  {past cur : List (BlockData Key Sig)} {c c₁ : Controller Key Sig} {x y hd : BlockData Key Sig}
  {n : BlockState Key Sig} {m : List (BlockData Key Sig)}

lemma onIrreversible_spec (fails : SignedBlock Key Sig → Bool) (hsized : T.Sized) (hpacked : T.Packed C)
    (hlog : T.Logged past c.env.blog) (hhist : T.History (x :: past))
    (hmode : c.env.readMode ≠ .irreversible) :
    ∃ log, onIrreversible C fails x c = .ok ⟨c.forkDb, { c.env with
        db := c.env.db.commit x.blockNum
        blog := log
        reversibleBlocks := dropReversible x.blockNum c.env.reversibleBlocks }⟩ ∧
      T.Logged (x :: past) log := by
  obtain ⟨b, logHead, hb, hblock, hhead⟩ := hlog.head
  have hxT := hhist.mem x (by simp)
  unfold onIrreversible appendToBlog
  rw [hhead]
  cases hhist with
  | genesis =>
    have hbg : T.genesis = b := Option.some.inj hb
    have hnum := (hpacked T.genesis T.genesis_mem logHead (hbg ▸ hblock)).2
    refine ⟨c.env.blog, ?_, hlog⟩
    dsimp only
    rw [if_neg (by omega)]
    dsimp only [pure, Except.pure]
    rw [if_neg (by simp [hmode])]
  | @link _ p l _ hprev hl =>
    have hbp : p = b := Option.some.inj hb
    subst hbp
    have hpT := hl.mem p (by simp)
    obtain ⟨hid, hpnum⟩ := hpacked p hpT logHead hblock
    have hnum := T.num_of_parent x p hxT hpT hprev
    obtain ⟨block, hxblock, hblockprev⟩ := T.block x hxT
    have hxnum := (hpacked x hxT block hxblock).2
    have hlen : c.env.blog.blocks.length = sub32 block.blockNum c.env.blog.firstBlockNum := by
      have hlt := hsized x hxT
      have hpn := hl.num_eq
      rw [hlog.length, hlog.1, hxnum, sub32_eq (by omega) hlt]
      change l.length + 1 = _
      omega
    refine ⟨{ c.env.blog with blocks := c.env.blog.blocks ++ [block] }, ?_, hlog.1, ?_⟩
    · dsimp only
      rw [if_pos (by omega), hxblock]
      simp only [eosAssert, if_pos (show x.blockNum - 1 = logHead.blockNum by omega),
        if_pos (show block.previous = logHead.id C by rw [hblockprev, hprev, hid])]
      dsimp only [bind, Except.bind, pure, Except.pure]
      rw [BlockLog.append, if_pos hlen]
      dsimp only
      rw [if_neg (by simp [hmode])]
    have hmap := hlog.2
    rw [map_append, hmap]
    change _ = (x :: p :: l).reverse.map BlockData.block
    rw [reverse_cons, map_append, map_singleton, map_singleton, hxblock]
    rfl

namespace Current

variable {db : ForkDatabase Key Sig}

lemma front_last (h : Current T past cur db)
    {s : BlockState Key Sig} (hs : db.index.byBlockNum.head? = some s) :
    ∃ l, cur = l ++ [s.toBlockData] := by
  obtain ⟨l, z, rfl⟩ := eq_nil_or_concat cur |>.resolve_left h.branch.ne_nil
  rw [concat_eq_append] at h ⊢
  have hsmem := mem_of_mem_head? hs
  obtain ⟨hsnum, hfirst⟩ := h.tree.front_lowest hs
  have hznum : z.blockNum = T.rootNum past + 1 := h.branch.parent_last.2
  obtain ⟨d, hd, hdz⟩ := mem_blocks_iff.mp (h.mem_of_cur (x := z) (by simp))
  have hdnum : d.blockNum = z.blockNum := by rw [hdz]
  refine ⟨l, ?_⟩
  suffices hsz : s.toBlockData = z by rw [hsz]
  by_cases hg : T.genesis.blockNum < z.blockNum
  · have hmark := hfirst d hd (by omega) ((h.marks d hd).mpr ⟨by simp [hdz], by omega⟩)
    exact h.branch.eq_of_height ((h.marks s hsmem).mp hmark).1 (by simp) (hsnum.trans hznum.symm)
  -- both are the genesis block, and nothing has been pruned yet
  have hpast : past = [] := by
    cases past with
    | nil => rfl
    | cons p l =>
      have hple := h.tree.history.genesis_le p (by simp)
      have hroot : T.rootNum (p :: l) = p.blockNum := rfl
      omega
  have hsblock := mem_blocks hsmem
  subst hpast
  rw [h.tree.bottom rfl _ hsblock (h.tree.rooted.parent_of_lowest hsblock hsnum),
    h.tree.bottom rfl z (h.mem_of_cur (by simp)) h.branch.parent_last.1]

lemma last_lt (h : Current T past (cur ++ [x]) db) : ∀ a ∈ cur, x.blockNum < a.blockNum := by
  intro a ha
  obtain ⟨k, l, rfl⟩ := append_of_mem ha
  have hbranch := h.branch
  rw [append_assoc] at hbranch
  exact (hbranch.of_append (by simp)).height_lt_of_tail (by simp)

/-- The first block above `x` is marked, as its number is on the current chain: it is built
on `x`. -/
lemma next_last (h : Current T past (cur ++ [x]) db) (hne : cur ≠ []) {f : BlockState Key Sig}
    (hf : db.index.byBlockNum.find? (fun b => x.blockNum < b.blockNum) = some f) :
    ∃ l, T.Branch past db.index (f.toBlockData :: l ++ [x]) := by
  obtain ⟨l, q, rfl⟩ := (eq_nil_or_concat cur).resolve_left hne
  rw [concat_eq_append] at h
  have hbranch := h.branch
  rw [append_assoc] at hbranch
  have hq : T.Branch past db.index ([q] ++ [x]) := hbranch.of_append (by simp)
  have hqmem := h.mem_of_cur (x := q) (by simp)
  have hxnum : x.blockNum = T.rootNum past + 1 := h.branch.parent_last.2
  have hqnum : q.blockNum = T.rootNum past + 2 := hq.height_cons
  have hgx := h.genesis_le (h.mem_of_cur (x := x) (by simp))
  obtain ⟨d, hd, rfl⟩ := mem_blocks_iff.mp hqmem
  have hfmem := mem_of_find?_eq_some hf
  have hfnum : x.blockNum < f.blockNum := by simpa using find?_some hf
  have hmark := (h.marks d hd).mpr ⟨by simp, by omega⟩
  have hfirst := db.index.numOrdered.le_of_find? hf hd (by simp; omega)
    fun hlt => numBefore_precedence.asymm f f hlt hlt
  unfold BlockState.numBefore at hfirst
  have hfd : f.blockNum = d.blockNum := by omega
  have hfmark : f.inCurrentChain = true := by
    rw [← Bool.not_eq_false]
    exact fun hoff => hfirst (.inr ⟨hfd.symm, hmark, hoff⟩)
  have hfq : f.toBlockData = d.toBlockData :=
    h.branch.eq_of_height ((h.marks f hfmem).mp hfmark).1 (by simp) hfd
  exact ⟨[], hfq ▸ hq⟩

lemma prune (h : Current T past (cur ++ [x]) c.forkDb) (hne : cur ≠ [])
    (hhead : c.forkDb.head ≠ some x) {slot : Slot Key Sig (ChainState Key Sig)}
    (hslot : slot x c = .ok c₁) (hsame : c₁.forkDb = c.forkDb) :
    ∃ c' E, c.pruneLevel slot x = .ok c' ∧ c'.env = c₁.env ∧
      Current T (x :: past) cur c'.forkDb ∧ c'.forkDb.index = c.forkDb.index.eraseIf E ∧
      ∀ l, l ≠ [] → T.Branch past c.forkDb.index (l ++ [x]) →
        T.Branch (x :: past) c'.forkDb.index l := by
  have hxnum : x.blockNum = T.rootNum past + 1 := h.branch.parent_last.2
  obtain ⟨c', E, hprune, henv, hindex, hE, htree⟩ :=
    h.tree.pruneLevel slot (h.mem_of_cur (by simp)) hxnum hslot hsame hhead
      fun f => h.next_last hne
  have hroot : T.rootNum (x :: past) = T.rootNum past + 1 := hxnum
  have hkeep : ∀ l, l ≠ [] → T.Branch past c.forkDb.index (l ++ [x]) →
      T.Branch (x :: past) c'.forkDb.index l := by
    intro l hl hbranch
    unfold BlockTree.Branch
    rw [hroot]
    refine hbranch.above_bottom hl ?_
    intro a ha
    have hamem := hbranch.mem a (mem_append_left _ ha)
    rw [hindex, mem_blocks_eraseIf]
    refine ⟨hamem, (hE a hamem).mpr ?_⟩
    obtain ⟨j, k, rfl⟩ := append_of_mem ha
    rw [append_assoc] at hbranch
    exact ⟨k, hbranch.of_append (by simp)⟩
  refine ⟨c', E, hprune, henv, ⟨htree, hkeep cur hne h.branch, h.marks.restrict ?_ ?_⟩, hindex,
    hkeep⟩
  · intro d hd
    rw [hindex] at hd
    exact ⟨d, (mem_eraseIf.mp hd).1, rfl, rfl⟩
  intro d hd
  have hdx : d ≠ x := by
    rintro rfl
    have hlow := htree.rootNum_lt hd
    omega
  simp [hdx]

end Current

lemma Applied.prune (hsized : T.Sized) (hpacked : T.Packed C)
    (h : Applied T fails past (cur ++ [x]) c) (hne : cur ≠ []) (hhead : c.forkDb.head ≠ some x) :
    ∃ c' E, c.pruneLevel (onIrreversible C fails) x = .ok c' ∧ Applied T fails (x :: past) cur c' ∧
      c'.forkDb.index = c.forkDb.index.eraseIf E ∧
      ∀ l, l ≠ [] → T.Branch past c.forkDb.index (l ++ [x]) →
        T.Branch (x :: past) c'.forkDb.index l := by
  have hxnum : x.blockNum = T.rootNum past + 1 := h.branch.parent_last.2
  have hhist := h.tree.history_cons (h.mem_of_cur (by simp)) hxnum
  obtain ⟨log, hslot, hlog⟩ :=
    onIrreversible_spec fails hsized hpacked h.log hhist h.mode
  obtain ⟨⟨db, env⟩, E, hprune, henv, hcurrent, hindex, hkeep⟩ :=
    h.toCurrent.prune hne hhead hslot rfl
  subst henv
  have hhead' : cur.head? = some c.env.head := by
    have hcur := h.head
    rw [List.head?_append_of_ne_nil _ hne] at hcur
    exact hcur
  have habove := h.toCurrent.last_lt _ (mem_of_mem_head? hhead')
  refine ⟨_, E, hprune, ⟨hcurrent, hhead', h.reversible.drop h.toCurrent.last_lt,
    h.undoable.commit hxnum (Nat.le_of_lt habove), ?_, hlog, h.mode⟩, hindex, hkeep⟩
  intro b hb
  exact h.good b (mem_append_left _ hb)

/-- When a linked block `n` outranks the head `y` without linking to it, its branch meets the
current chain below `y`, and above the number that is pruned with it. -/
def Meets (T : BlockTree Key Sig) (past cur : List (BlockData Key Sig)) (y : BlockData Key Sig)
    (c : Controller Key Sig) (n : BlockState Key Sig) : Prop :=
  n.toBlockData.ranksAbove y → n.prev ≠ y.id →
    ∀ p ∈ c.forkDb.index.byLibBlockNum, n.prev = p.id →
      ∃ z ∈ cur, blockLinks.Ancestor T.mem z n.toBlockData ∧
        (T.rootNum past + 1 < n.dposIrreversibleBlocknum → T.rootNum past + 1 < z.blockNum)

structure Added (T : BlockTree Key Sig) (fails : SignedBlock Key Sig → Bool)
    (past cur : List (BlockData Key Sig)) (y hd : BlockData Key Sig)
    (m : List (BlockData Key Sig)) (c : Controller Key Sig) : Prop
    extends Applied T fails past (y :: cur) c where
  best : c.forkDb.head = some hd
  chosen : blockLinks.Branch c.forkDb.index.byLibBlockNum (T.rootId past) (T.rootNum past) (hd :: m)
  next : hd ≠ y → ∃ rest, c.forkDb.index.byLibBlockNum = hd :: rest ∧ rest.head? = some y
  meet : hd ≠ y → hd.prev ≠ y.id → ∃ z ∈ m, z ∈ cur

lemma Added.prune (hsized : T.Sized) (hpacked : T.Packed C)
    (h : Added T fails past (cur ++ [x]) y hd (m ++ [x]) c)
    (hmeet : hd ≠ y → hd.prev ≠ y.id → ∃ z ∈ m, z ∈ cur) :
    ∃ c', c.pruneLevel (onIrreversible C fails) x = .ok c' ∧
      Added T fails (x :: past) cur y hd m c' := by
  have hne : c.forkDb.head ≠ some x := by
    intro heq
    rw [h.best] at heq
    have hlt : x.blockNum < hd.blockNum := h.chosen.height_lt_of_tail (by simp)
    rw [Option.some.inj heq] at hlt
    omega
  have happlied : Applied T fails past ((y :: cur) ++ [x]) c := h.toApplied
  obtain ⟨c', E, hprune, h', hindex, hkeep⟩ := happlied.prune hsized hpacked (by simp) hne
  have hchosen := hkeep (hd :: m) (by simp) h.chosen
  have hhd := hchosen.mem hd (by simp)
  have hy := h'.mem_of_cur (x := y) (by simp)
  refine ⟨c', hprune, h', h.tree.head_eraseIf h'.tree hindex h.best hhd, hchosen, ?_, hmeet⟩
  intro hney
  obtain ⟨rest, hrest, hfirst⟩ := h.next hney
  rw [hindex, mem_blocks_eraseIf] at hhd hy
  refine ⟨rest.filter fun b => !E b.id, ?_, OrderedIndex.head?_filter hfirst (by simp [hy.2])⟩
  rw [hindex]
  change c.forkDb.index.byLibBlockNum.filter _ = _
  rw [hrest, filter_cons_of_pos (by simp [hhd.2])]

namespace InSync

lemma exists_common (hlib : T.LibBelow) (h : InSync T fails past (y :: cur) c)
    (htree : ForkTree T past c₁.forkDb)
    (hparent : ∃ p ∈ c.forkDb.index.byLibBlockNum, n.prev = p.id)
    (hins : c.forkDb.index.insert n = some c₁.forkDb.index) (hwin : Hosted.winner c n = some hd)
    (hm : T.Branch past c₁.forkDb.index (hd :: m)) (hmeets : Meets T past cur y c n) :
    ∃ z ∈ hd :: m, z ∈ y :: cur ∧
      (T.rootNum past + 1 < hd.dposIrreversibleBlocknum → T.rootNum past + 1 < z.blockNum) ∧
      (hd ≠ y → hd.prev ≠ y.id → z ∈ m ∧ z ∈ cur) := by
  have hymem := h.mem_of_cur (x := y) (by simp)
  have hhdmem := hm.mem hd (by simp)
  have hbelow := hlib hd (htree.members hd hhdmem)
  by_cases hne : hd = y
  · subst hne
    exact ⟨hd, by simp, by simp, fun hlt => by omega, fun hne => absurd rfl hne⟩
  obtain ⟨rfl, habove, -⟩ := (h.insert_next hwin hins).resolve_left hne
  by_cases hprev : n.prev = y.id
  · have hnum := h.num_of_child (htree.members _ hhdmem) hprev
    have hy : y ∈ n.toBlockData :: m :=
      htree.mem_branch_of_ancestor hm (h.tree.rootNum_lt hymem)
        (.single ⟨h.tree.members y hymem, hprev⟩)
    exact ⟨y, hy, by simp, fun hlt => by omega, fun _ hnot => absurd hprev hnot⟩
  obtain ⟨p, hp, hnp⟩ := hparent
  obtain ⟨z, hz, hanc, hlow⟩ := hmeets habove hprev p hp hnp
  have hzmem := h.mem_of_cur (mem_cons_of_mem y hz)
  have hzm := htree.mem_branch_of_ancestor hm (h.tree.rootNum_lt hzmem) hanc
  have hzn : z ≠ n.toBlockData := fun heq =>
    not_mem_of_insert hins (heq ▸ hzmem)
  exact ⟨z, hzm, mem_cons_of_mem _ hz, hlow,
    fun _ _ => ⟨(mem_cons.mp hzm).resolve_left hzn, hz⟩⟩

lemma add_cases (hsized : T.Sized) (hpacked : T.Packed C) (hlib : T.LibBelow)
    (h : InSync T fails past (y :: cur) c) (hn : T.mem n.toBlockData)
    (hmark : n.inCurrentChain = false) (hmeets : Meets T past cur y c n) :
    (∃ e, c.add (onIrreversible C fails) n false = .throw e c ∧
      ((∃ b ∈ c.forkDb.index.byBlockNum, b.id = n.id) ∨
        ∀ b ∈ c.forkDb.index.byBlockNum, b.id ≠ n.prev)) ∨
    (∃ c₁ past' cur' hd m, c.add (onIrreversible C fails) n false = .ok c₁ ∧
      Added T fails past' cur' y hd m c₁ ∧
      (hd = y ∨ hd = n.toBlockData ∧ n.toBlockData.ranksAbove y) ∧
      (past' = past ∨ T.rootNum past' < hd.dposIrreversibleBlocknum)) := by
  rcases h.tree.add_cases (onIrreversible C fails) false hn (by simp) with
    ⟨e, hadd, hwhy⟩ | ⟨c₁, hd, s, hparent, hins, henv, htree, hwin, hhead, hs, hcase⟩
  · rw [h.follows] at hwhy
    exact .inl ⟨e, hadd, hwhy.resolve_left (by simp)⟩
  right
  have h₁ := h.insert hmark hins henv htree
  have hnext := h.insert_next hwin hins
  have hhdmem := htree.head_mem hhead
  have hchoice : hd = y ∨ hd = n.toBlockData ∧ n.toBlockData.ranksAbove y := by
    rcases hnext with heq | ⟨heq, habove, -⟩
    · exact .inl heq
    · exact .inr ⟨heq, habove⟩
  obtain ⟨m, hm⟩ := htree.rooted.exists_branch hhdmem
  obtain ⟨z, hzm, hzcur, hzlow, hzmeet⟩ := h.exists_common hlib htree hparent hins hwin hm hmeets
  have hadded : Added T fails past cur y hd m c₁ := ⟨h₁, hhead, hm,
    fun hne => ⟨_, (hnext.resolve_left hne).2.2, h.first⟩,
    fun hne hprev => ⟨z, hzmeet hne hprev⟩⟩
  rcases hcase with ⟨-, hadd⟩ | ⟨hlt, hadd⟩
  · exact ⟨c₁, past, cur, hd, m, hadd, hadded, hchoice, .inl rfl⟩
  have hsnum := (htree.front_lowest hs).1
  have hzs : z ≠ s.toBlockData := by
    rintro rfl
    omega
  obtain ⟨init, hinit⟩ := h₁.toCurrent.front_last hs
  have hzinit : z ∈ init := by
    rw [hinit] at hzcur
    exact (mem_append.mp hzcur).resolve_right fun hz => hzs (mem_singleton.mp hz)
  obtain ⟨y', cur', rfl⟩ := exists_cons_of_ne_nil (ne_nil_of_mem hzinit)
  obtain ⟨rfl, rfl⟩ := cons_eq_cons.mp hinit
  obtain ⟨k, hk, hzk⟩ := htree.rooted.common_bottom (l := y :: cur') hm h₁.branch hzm hzinit
  obtain ⟨hd', m', rfl⟩ := exists_cons_of_ne_nil (ne_nil_of_mem hzk)
  obtain ⟨rfl, rfl⟩ := cons_eq_cons.mp hk
  obtain ⟨c₂, hprune, h₂⟩ := hadded.prune hsized hpacked (by
    intro hne hprev
    obtain ⟨hzm', hzcur'⟩ := hzmeet hne hprev
    refine ⟨z, ?_, ?_⟩
    · exact (mem_append.mp hzm').resolve_right fun hz => hzs (mem_singleton.mp hz)
    · exact (mem_append.mp hzcur').resolve_right fun hz => hzs (mem_singleton.mp hz))
  exact ⟨c₂, _, cur', hd, m', hadd.trans hprune, h₂, hchoice, .inr hlt⟩

lemma push_cases (hsized : T.Sized) (hpacked : T.Packed C) (hlib : T.LibBelow)
    (h : InSync T fails past (y :: cur) c) (hn : T.mem n.toBlockData)
    (hmark : n.inCurrentChain = false) (hmeets : Meets T past cur y c n) :
    (∃ e, c.add (onIrreversible C fails) n false = .throw e c ∧ pushBlock C fails n c = .throw e c ∧
      ((∃ b ∈ c.forkDb.index.byBlockNum, b.id = n.id) ∨
        ∀ b ∈ c.forkDb.index.byBlockNum, b.id ≠ n.prev)) ∨
    (∃ c' past' hd m, pushBlock C fails n c = .ok c' ∧ InSync T fails past' (hd :: m) c' ∧
      (hd = y ∨ hd = n.toBlockData ∧ n.toBlockData.ranksAbove y) ∧
      (past' = past ∨ T.rootNum past' < hd.dposIrreversibleBlocknum)) ∨
    (∃ e c' past' cur' x, pushBlock C fails n c = .throw e c' ∧
      InSync T fails past' (y :: cur') c' ∧ T.mem x ∧ ¬ x.Good fails) := by
  unfold pushBlock
  rcases h.add_cases hsized hpacked hlib hn hmark hmeets with
    ⟨e, hadd, hwhy⟩ | ⟨c₁, past', cur', hd, m, hadd, h₁, hchoice, hpast⟩
  · rw [hadd, Outcome.throw_andThen]
    exact .inl ⟨e, rfl, rfl, hwhy⟩
  rw [hadd, Outcome.ok_andThen, if_pos h₁.mode]
  right
  rcases h₁.toApplied.follow hsized h₁.best h₁.chosen h₁.next h₁.meet with
    ⟨c', hok, h', -⟩ | ⟨-, x, hx, hbad, e, c', hthrow, h', -⟩
  · exact .inl ⟨c', past', hd, m, hok, h', hchoice, hpast⟩
  · exact .inr ⟨e, c', past', cur', x, hthrow, h',
      h₁.tree.members x (h₁.chosen.mem x hx), hbad⟩

end InSync

end Controller

end DimensionChain
