import DimensionChain.Controller.Irreversible

/-!
# Committing produced blocks

A block that the node has produced on its head enters the fork database already marked, and
the database may prune before the head and the reversible database are updated. When the
block outranks the head, the stores agree again at the end.
-/

namespace DimensionChain

open List ForkMultiIndex Outcome

variable {Key Sig : Type}

namespace Controller
variable {T : BlockTree Key Sig} {fails : SignedBlock Key Sig → Bool} {C : Crypto Key Sig}
  {past cur : List (BlockData Key Sig)} {c c₁ : Controller Key Sig} {y : BlockData Key Sig}
  {n : BlockState Key Sig}

lemma Current.insert_marked {db db' : ForkDatabase Key Sig} (h : Current T past (y :: cur) db)
    (hprev : n.prev = y.id) (hmark : n.inCurrentChain = true)
    (hins : db.index.insert n = some db'.index) (htree : ForkTree T past db') :
    Current T past (n.toBlockData :: y :: cur) db' := by
  have hnmem : n.toBlockData ∈ db'.index.byLibBlockNum :=
    mem_blocks ((mem_insert hins).mpr (.inl rfl))
  have hnum := h.num_of_child (htree.members _ hnmem) hprev
  have hg := h.genesis_le (h.mem_of_cur (x := y) (by simp))
  have hbranch := h.branch.mono fun a ha =>
    mem_blocks_of_insert hins (h.mem_of_cur ha)
  refine ⟨htree, .link hnmem hprev hnum hbranch, ?_⟩
  intro b hb
  rcases (mem_insert hins).mp hb with rfl | hb
  · simp only [hmark, mem_cons, true_or, true_and, true_iff]
    omega
  have hne : b.toBlockData ≠ n.toBlockData := fun heq =>
    not_mem_of_insert hins (heq ▸ mem_blocks hb)
  rw [h.marks b hb]
  simp [hne]

/-- The added block is in the database, the other stores still stand at the old head. -/
structure Committing (T : BlockTree Key Sig) (fails : SignedBlock Key Sig → Bool)
    (past cur : List (BlockData Key Sig)) (y b : BlockData Key Sig)
    (c : Controller Key Sig) : Prop
    extends Current T past (b :: y :: cur) c.forkDb where
  best : c.forkDb.head = some b
  reversible : T.Reversible (y :: cur) c.env.reversibleBlocks
  undoable : T.Undoable past b.blockNum c.env.db
  good : ∀ a ∈ b :: y :: cur, T.genesis.blockNum < a.blockNum → a.Good fails
  log : T.Logged past c.env.blog
  mode : c.env.readMode ≠ .irreversible

lemma Committing.finish {b : BlockData Key Sig} (h : Committing T fails past cur y b c)
    {block : SignedBlock Key Sig} (hblock : b.block = some block) :
    ∃ c', createReversible b.blockNum block (setHead b c) = .ok c' ∧
      InSync T fails past (b :: y :: cur) c' := by
  have hbelow : ∀ a ∈ y :: cur, a.blockNum < b.blockNum :=
    fun a ha => h.branch.height_lt_of_tail ha
  have hnone : (setHead b c).env.reversibleBlocks.find? b.blockNum = none :=
    h.reversible.none_above hbelow
  have hg : T.genesis.blockNum < b.blockNum := by
    have hgy := h.genesis_le (h.mem_of_cur (x := y) (by simp))
    have hyb := hbelow y (by simp)
    omega
  refine ⟨⟨c.forkDb, { c.env with
    head := b
    reversibleBlocks := c.env.reversibleBlocks.set b.blockNum block }⟩, ?_, ?_⟩
  · rw [createReversible, hnone]
    rfl
  · exact ⟨⟨⟨h.tree, h.branch, h.marks⟩, rfl, h.reversible.push hblock hg hbelow, h.undoable,
      h.good, h.log, h.mode⟩, h.best⟩

lemma Committing.prune {b x : BlockData Key Sig} (hsized : T.Sized) (hpacked : T.Packed C)
    (h : Committing T fails past (cur ++ [x]) y b c) :
    ∃ c', c.pruneLevel (onIrreversible C fails) x = .ok c' ∧
      Committing T fails (x :: past) cur y b c' := by
  have hcurrent : Current T past ((b :: y :: cur) ++ [x]) c.forkDb := h.toCurrent
  have hxnum : x.blockNum = T.rootNum past + 1 := hcurrent.branch.parent_last.2
  have habove := hcurrent.last_lt
  have hne : c.forkDb.head ≠ some x := by
    intro heq
    rw [h.best] at heq
    have hlt := habove b (by simp)
    rw [Option.some.inj heq] at hlt
    omega
  have hhist := h.tree.history_cons (hcurrent.mem_of_cur (by simp)) hxnum
  obtain ⟨log, hslot, hlog⟩ :=
    onIrreversible_spec fails hsized hpacked h.log hhist h.mode
  obtain ⟨⟨db, env⟩, E, hprune, henv, hcurrent', hindex, -⟩ := hcurrent.prune (by simp) hne hslot rfl
  subst henv
  have hbest := h.tree.head_eraseIf hcurrent'.tree hindex h.best (hcurrent'.mem_of_cur (by simp))
  have hreversible : T.Reversible ((y :: cur) ++ [x]) c.env.reversibleBlocks := h.reversible
  refine ⟨_, hprune, ⟨hcurrent', hbest,
    hreversible.drop fun a ha => habove a (mem_cons_of_mem b ha),
    h.undoable.commit hxnum (Nat.le_of_lt (habove b (by simp))), ?_, hlog, h.mode⟩⟩
  intro a ha
  exact h.good a (mem_append_left [x] ha)

lemma InSync.commit_cases (hsized : T.Sized) (hpacked : T.Packed C) (hlib : T.LibBelow)
    (h : InSync T fails past (y :: cur) c) (hn : T.mem n.toBlockData) (hprev : n.prev = y.id)
    (habove : n.toBlockData.ranksAbove y) (hgood : n.Good fails) :
    (∃ e, commitBlock C fails n c = .throw e c) ∨
    (∃ c' past' cur', commitBlock C fails n c = .ok c' ∧
      InSync T fails past' (n.toBlockData :: y :: cur') c') := by
  have hymem := h.mem_of_cur (x := y) (by simp)
  have hrev : c.env.db.revision = c.env.head.blockNum := h.undoable.1
  obtain ⟨block, hblock, -⟩ := T.block _ hn
  unfold commitBlock
  rw [require_pos hrev, ok_andThen]
  dsimp only
  rcases ForkTree.add_cases (w := ⟨c.forkDb, { c.env with db := c.env.db.startUndoSession }⟩)
      (n := { n with validated := true, inCurrentChain := true })
      (onIrreversible C fails) true h.tree hn (fun _ => ⟨y, hymem, hprev⟩) with
    ⟨e, hadd, -⟩ | ⟨c₁, hd, s, -, hins, henv, htree, hwin, hhead, hs, hcase⟩
  · left
    rw [hadd, throw_andThen, throw_handle]
    exact ⟨e, rfl⟩
  right
  have hhd : hd = n.toBlockData := by
    rw [Hosted.winner, h.follows, h.head_eq, Option.map_some, if_pos habove] at hwin
    exact (Option.some.inj hwin).symm
  subst hhd
  obtain ⟨db, env⟩ := c₁
  subst henv
  have hnum := h.num_of_child hn hprev
  have hundo := h.undoable.start
  rw [h.head_eq, ← hnum] at hundo
  have hcommitting : Committing T fails past cur y n.toBlockData
      ⟨db, { c.env with db := c.env.db.startUndoSession }⟩ := by
    refine ⟨Current.insert_marked
      (n := { n with validated := true, inCurrentChain := true }) h.toCurrent hprev rfl hins htree,
      hhead, h.reversible, hundo, ?_, h.log, h.mode⟩
    intro a ha hg
    rcases mem_cons.mp ha with rfl | ha
    · exact hgood
    · exact h.good a ha hg
  suffices hadded : ∃ c₂ past' cur', Committing T fails past' cur' y n.toBlockData c₂ ∧
      Hosted.add (onIrreversible C fails) { n with validated := true, inCurrentChain := true } true
        ⟨c.forkDb, { c.env with db := c.env.db.startUndoSession }⟩ = .ok c₂ by
    obtain ⟨c₂, past', cur', h₂, hadd⟩ := hadded
    obtain ⟨c', hcreate, h'⟩ := h₂.finish hblock
    refine ⟨c', past', cur', ?_, h'⟩
    rw [hadd, ok_andThen, h₂.best, hblock]
    dsimp only
    rw [require_pos rfl, ok_andThen, hcreate, ok_handle]
  rcases hcase with ⟨-, hadd⟩ | ⟨hlt, hadd⟩
  · exact ⟨_, past, cur, hcommitting, hadd⟩
  obtain ⟨l, hl⟩ := hcommitting.toCurrent.front_last hs
  have hbelow := hlib n.toBlockData hn
  rcases eq_nil_or_concat cur with rfl | ⟨cur', z, rfl⟩
  · -- the head itself would be the oldest block
    have hl' : [n.toBlockData] ++ [y] = l ++ [s.toBlockData] := hl
    have hys := (List.cons.inj (append_inj_right' hl' rfl)).1
    have hynum : y.blockNum = s.blockNum := by rw [hys]
    omega
  rw [concat_eq_append] at hl hcommitting
  have hl' : (n.toBlockData :: y :: cur') ++ [z] = l ++ [s.toBlockData] := hl
  rw [(List.cons.inj (append_inj_right' hl' rfl)).1] at hcommitting
  obtain ⟨c₂, hprune, h₂⟩ := hcommitting.prune hsized hpacked
  exact ⟨c₂, _, cur', h₂, hadd.trans hprune⟩

end Controller

end DimensionChain
