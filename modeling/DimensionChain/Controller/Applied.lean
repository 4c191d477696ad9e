import DimensionChain.Controller.Stores

/-!
# A controller with its current chain applied

`Applied T fails past cur c`: the chain `cur`, newest block first, is what the stores of the
controller hold above the pruned blocks `past`. Leaving the head, entering a child of the
head and removing a block outside of the chain keep this, each with its own change of `cur`.
-/

namespace DimensionChain

open ForkMultiIndex Outcome

variable {Key Sig : Type}

section Marks
variable {T : BlockTree Key Sig} {cur cur' : List (BlockData Key Sig)}
  {idx idx' : ForkMultiIndex Key Sig}

def Remarked (idx idx' : ForkMultiIndex Key Sig) (b : BlockData Key Sig) (flag : Bool) : Prop :=
  ∀ d ∈ idx'.byBlockNum, ∃ e ∈ idx.byBlockNum, d.toBlockData = e.toBlockData ∧
    d.inCurrentChain = if e.id = b.id then flag else e.inCurrentChain

lemma ForkDatabase.markInCurrentChain_spec {db : ForkDatabase Key Sig} {b : BlockData Key Sig}
    (hb : b ∈ db.index.byLibBlockNum) (flag : Bool) :
    ∃ db', db.markInCurrentChain b flag = .ok db' ∧
      db'.index.byLibBlockNum = db.index.byLibBlockNum ∧ db'.head = db.head ∧
      Remarked db.index db'.index b flag := by
  obtain ⟨s, hs, hsb⟩ := exists_find? hb
  unfold markInCurrentChain
  rw [hs]
  dsimp only
  by_cases hflag : s.inCurrentChain = flag
  · rw [if_pos hflag]
    refine ⟨db, rfl, rfl, rfl, ?_⟩
    intro d hd
    refine ⟨d, hd, rfl, ?_⟩
    split
    · rename_i hid
      obtain ⟨hsmem, hsid⟩ := ForkMultiIndex.find?_eq_some.mp hs
      rw [eq_of_id hd hsmem (hid.trans hsid.symm)]
      exact hflag
    · rfl
  rw [if_neg hflag]
  refine ⟨_, rfl, rfl, rfl, ?_⟩
  intro d hd
  obtain ⟨e, he, rfl⟩ := mem_setInCurrentChain.mp hd
  refine ⟨e, he, ?_, ?_⟩
  · split
    · rfl
    · rfl
  · split
    · rfl
    · rfl

namespace BlockTree.Marked

variable (h : T.Marked cur idx) {b : BlockData Key Sig}
include h

lemma restrict (hsub : ∀ d ∈ idx'.byBlockNum, ∃ e ∈ idx.byBlockNum, d.toBlockData = e.toBlockData ∧
      d.inCurrentChain = e.inCurrentChain)
    (hcur : ∀ d ∈ idx'.byLibBlockNum, d ∈ cur' ↔ d ∈ cur) : T.Marked cur' idx' := by
  intro d hd
  obtain ⟨e, he, hde, hmark⟩ := hsub d hd
  rw [hmark, h e he, hcur _ (mem_blocks hd), hde]

lemma remark {flag : Bool} (hb : b ∈ idx.byLibBlockNum) (hset : Remarked idx idx' b flag)
    (hflag : flag = true ↔ b ∈ cur' ∧ T.genesis.blockNum < b.blockNum)
    (hothers : ∀ a, a ≠ b → (a ∈ cur' ↔ a ∈ cur)) : T.Marked cur' idx' := by
  intro d hd
  obtain ⟨e, he, hde, hmark⟩ := hset d hd
  rw [hmark, hde]
  by_cases hid : e.id = b.id
  · have heb : e.toBlockData = b :=
      List.inj_on_of_nodup_map idx.unique_blocks (mem_blocks he) hb hid
    rw [if_pos hid, heb]
    exact hflag
  rw [if_neg hid, h e he, hothers e.toBlockData]
  intro heq
  apply hid
  rw [← heq]

lemma enter (hb : b ∈ idx.byLibBlockNum)
    (hg : T.genesis.blockNum < b.blockNum) (hset : Remarked idx idx' b true) :
    T.Marked (b :: cur) idx' := by
  apply h.remark hb hset
  · simp [hg]
  · intro a hab
    simp [hab]

omit h in
lemma leave (h : T.Marked (b :: cur) idx) (hb : b ∈ idx.byLibBlockNum)
    (hnot : b ∉ cur) (hset : Remarked idx idx' b false) : T.Marked cur idx' := by
  apply h.remark hb hset
  · simp [hnot]
  · intro a hab
    simp [hab]

lemma setValidated (id : BlockId) : T.Marked cur (idx.setValidated id) := by
  refine h.restrict ?_ fun _ _ => .rfl
  intro d hd
  obtain ⟨e, he, rfl⟩ := mem_setValidated.mp hd
  refine ⟨e, he, ?_, ?_⟩
  · split
    · rfl
    · rfl
  · split
    · rfl
    · rfl

end BlockTree.Marked

end Marks

namespace Controller

structure Current (T : BlockTree Key Sig) (past cur : List (BlockData Key Sig))
    (db : ForkDatabase Key Sig) : Prop where
  tree : ForkTree T past db
  branch : blockLinks.Branch db.index.byLibBlockNum (T.rootId past) (T.rootNum past) cur
  marks : T.Marked cur db.index

structure Applied (T : BlockTree Key Sig) (fails : SignedBlock Key Sig → Bool)
    (past cur : List (BlockData Key Sig)) (c : Controller Key Sig) : Prop
    extends Current T past cur c.forkDb where
  head : cur.head? = some c.env.head
  reversible : T.Reversible cur c.env.reversibleBlocks
  undoable : T.Undoable past c.env.head.blockNum c.env.db
  good : ∀ b ∈ cur, T.genesis.blockNum < b.blockNum → b.Good fails
  log : T.Logged past c.env.blog
  mode : c.env.readMode ≠ .irreversible

variable {T : BlockTree Key Sig} {fails : SignedBlock Key Sig → Bool}
  {past cur : List (BlockData Key Sig)} {c : Controller Key Sig} {x y : BlockData Key Sig}

lemma markInCurrentChain_spec (hx : x ∈ c.forkDb.index.byLibBlockNum) (flag : Bool) :
    ∃ db, markInCurrentChain x flag c = .ok { c with forkDb := db } ∧
      db.index.byLibBlockNum = c.forkDb.index.byLibBlockNum ∧ db.head = c.forkDb.head ∧
      Remarked c.forkDb.index db.index x flag := by
  obtain ⟨db, hmark, hblocks, hhead, hset⟩ := ForkDatabase.markInCurrentChain_spec hx flag
  refine ⟨db, ?_, hblocks, hhead, hset⟩
  unfold markInCurrentChain
  rw [hmark]

namespace Current
variable {db : ForkDatabase Key Sig}

lemma genesis_le (h : Current T past cur db) (hx : x ∈ db.index.byLibBlockNum) :
    T.genesis.blockNum ≤ x.blockNum := by
  have hroot := T.rootNum_lt_genesis h.tree.history
  have hlow := h.tree.rootNum_lt hx
  omega

lemma mem_of_cur (h : Current T past cur db) (hx : x ∈ cur) : x ∈ db.index.byLibBlockNum :=
  h.branch.mem x hx

lemma num_of_child (h : Current T past (y :: cur) db) (hx : T.mem x) (hprev : x.prev = y.id) :
    x.blockNum = y.blockNum + 1 :=
  T.num_of_parent x y hx (h.tree.members y (h.mem_of_cur (by simp))) hprev

lemma genesis_lt (h : Current T past (y :: cur) db) (hx : x ∈ db.index.byLibBlockNum)
    (hprev : x.prev = y.id) : T.genesis.blockNum < x.blockNum := by
  have hnum := h.num_of_child (h.tree.members x hx) hprev
  have hg := h.genesis_le (h.mem_of_cur (x := y) (by simp))
  omega

end Current

namespace Applied

lemma head_eq (h : Applied T fails past (x :: cur) c) : c.env.head = x :=
  (Option.some.inj h.head).symm

lemma leave (h : Applied T fails past (x :: y :: cur) c) :
    ∃ c', leave x c = .ok c' ∧ Applied T fails past (y :: cur) c' ∧
      c'.forkDb.index.byLibBlockNum = c.forkDb.index.byLibBlockNum := by
  have hxmem := h.mem_of_cur (x := x) (by simp)
  have hymem := h.mem_of_cur (x := y) (by simp)
  have hhead := h.head_eq
  obtain ⟨hxy, hnum⟩ := Links.Branch.parent_split (k := []) h.branch
  have hprev : x.prev = y.id := hxy
  have hxnum : x.blockNum = y.blockNum + 1 := hnum
  have hbelow : ∀ a ∈ y :: cur, a.blockNum < x.blockNum :=
    fun a ha => h.branch.height_lt_of_tail ha
  obtain ⟨db, hmark, hblocks, hdbhead, hset⟩ := markInCurrentChain_spec hxmem false
  obtain ⟨s, hs, hsy⟩ := exists_find? (hblocks.symm ▸ hymem)
  obtain ⟨block, hblock, -⟩ := T.block x (h.tree.members x hxmem)
  have htree : ForkTree T past db := h.tree.of_blocks hblocks hdbhead
  refine ⟨⟨db, { c.env with
    head := y
    reversibleBlocks := c.env.reversibleBlocks.erase x.blockNum
    db := c.env.db.undo }⟩, ?_, ?_, hblocks⟩
  · unfold Controller.leave popBlock ForkDatabase.getBlock
    rw [hmark, ok_andThen]
    dsimp only
    rw [hhead, hprev, hs]
    dsimp only
    rw [require_pos (fun _ => by rw [hblock]; rfl), ok_andThen, hsy]
  have hbranch := Links.Branch.of_append (k := [x]) h.branch (by simp)
  refine ⟨⟨htree, hbranch.mono ?_, ?_⟩, rfl, ?_, ?_, ?_, h.log, h.mode⟩
  · intro a ha
    rw [hblocks]
    exact hbranch.mem a ha
  · apply h.marks.leave hxmem _ hset
    intro hx
    have hlt := hbelow x hx
    omega
  · exact h.reversible.pop hbelow
  · have hundo := h.undoable
    rw [hhead, hxnum] at hundo
    apply hundo.undo
    have hg := h.genesis_le hymem
    have hr := h.tree.rootNum_lt hymem
    omega
  · intro b hb
    exact h.good b (List.mem_cons_of_mem _ hb)

variable (h : Applied T fails past (y :: cur) c)
include h

lemma applyBlock_good (hsized : T.Sized)
    (hx : x ∈ c.forkDb.index.byLibBlockNum) (hprev : x.prev = y.id) (hgood : x.Good fails)
    {s : BlockStatus} (hs : s.skipDbSessions = false) :
    ∃ block, x.block = some block ∧ applyBlock fails x.block s c =
      .ok ⟨c.forkDb, { c.env with
        reversibleBlocks := c.env.reversibleBlocks.set x.blockNum block
        db := c.env.db.startUndoSession }⟩ := by
  have hxT := h.tree.members x hx
  have hnum := h.num_of_child hxT hprev
  have hlt := hsized x hxT
  obtain ⟨block, hblock, -⟩ := T.block x hxT
  obtain ⟨hext, hok⟩ := hgood block hblock
  refine ⟨block, hblock, ?_⟩
  have hrev : c.env.db.revision = c.env.head.blockNum := h.undoable.1
  have hu : u32 (c.env.head.blockNum + 1) = x.blockNum := by
    rw [h.head_eq, ← hnum]
    exact u32_eq hlt
  have hnone : c.env.reversibleBlocks.find? x.blockNum = none := by
    apply h.reversible.none_above
    intro a ha
    have hle : a.blockNum ≤ y.blockNum := h.branch.height_le ha
    omega
  unfold applyBlock createReversible
  rw [hblock]
  dsimp only
  rw [require_pos (by rw [hext]; rfl), ok_andThen,
    require_pos (.inr hrev), ok_andThen, require_pos hok,
    ok_andThen, hu, hnone]
  rw [ok_andThen, hs]
  rfl

omit h in
lemma applyBlock_bad (h : Applied T fails past cur c) (hx : x ∈ c.forkDb.index.byLibBlockNum)
    (hbad : ¬ x.Good fails) (s : BlockStatus) : ∃ e, applyBlock fails x.block s c = .throw e c := by
  obtain ⟨block, hblock, -⟩ := T.block x (h.tree.members x hx)
  have hrev : c.env.db.revision = c.env.head.blockNum := h.undoable.1
  unfold applyBlock
  rw [hblock]
  dsimp only
  by_cases hext : block.blockExtensions.length = 0
  · rw [require_pos hext, ok_andThen, require_pos (.inr hrev),
      ok_andThen, require_neg]
    · exact ⟨_, rfl⟩
    intro hok
    apply hbad
    intro block' hblock'
    have heq : block = block' := Option.some.inj (hblock.symm.trans hblock')
    rw [← heq]
    exact ⟨List.length_eq_zero_iff.mp hext, hok⟩
  · rw [require_neg hext]
    exact ⟨_, rfl⟩

lemma extend (db : ForkDatabase Key Sig)
    (hx : x ∈ c.forkDb.index.byLibBlockNum) (hprev : x.prev = y.id) (hgood : x.Good fails)
    {block : SignedBlock Key Sig} (hblock : x.block = some block)
    (hblocks : db.index.byLibBlockNum = c.forkDb.index.byLibBlockNum)
    (hhead : db.head = c.forkDb.head) (hmarks : T.Marked (x :: y :: cur) db.index) :
    Applied T fails past (x :: y :: cur) ⟨db, { c.env with
      head := x
      reversibleBlocks := c.env.reversibleBlocks.set x.blockNum block
      db := c.env.db.startUndoSession }⟩ := by
  have hnum := h.num_of_child (h.tree.members x hx) hprev
  have hbranch : T.Branch past db.index (x :: y :: cur) := by
    unfold BlockTree.Branch
    rw [hblocks]
    exact .link hx hprev hnum h.branch
  refine ⟨⟨h.tree.of_blocks hblocks hhead, hbranch, hmarks⟩, rfl, ?_, ?_, ?_, h.log, h.mode⟩
  · apply h.reversible.push hblock (h.genesis_lt hx hprev)
    intro a ha
    exact hbranch.height_lt_of_tail ha
  · have hundo := h.undoable.start
    rw [h.head_eq, ← hnum] at hundo
    exact hundo
  intro b hb hg
  rcases List.mem_cons.mp hb with rfl | hb
  · exact hgood
  · exact h.good b hb hg

omit h in
lemma branchStatus_session (b : BlockData Key Sig) (c : Controller Key Sig) :
    (branchStatus b c).skipDbSessions = false := by
  unfold branchStatus
  split
  · rfl
  · rfl

lemma enter_good (hsized : T.Sized)
    (hx : x ∈ c.forkDb.index.byLibBlockNum) (hprev : x.prev = y.id) (hgood : x.Good fails) :
    ∃ c', enter fails x c = .ok c' ∧ Applied T fails past (x :: y :: cur) c' ∧
      c'.forkDb.index.byLibBlockNum = c.forkDb.index.byLibBlockNum := by
  obtain ⟨block, hblock, happly⟩ :=
    h.applyBlock_good hsized hx hprev hgood (branchStatus_session x c)
  obtain ⟨db, hmark, hblocks, hhead, hset⟩ := markInCurrentChain_spec
    (c := setHead x ⟨c.forkDb, { c.env with
      reversibleBlocks := c.env.reversibleBlocks.set x.blockNum block
      db := c.env.db.startUndoSession }⟩) hx true
  have hmarks := (h.marks.enter hx (h.genesis_lt hx hprev) hset).setValidated x.id
  refine ⟨_, ?_, h.extend { db with index := db.index.setValidated x.id } hx hprev hgood
    hblock hblocks hhead hmarks, hblocks⟩
  unfold enter
  rw [happly, ok_andThen, hmark]
  rfl

omit h in
lemma enter_bad (h : Applied T fails past cur c) (hx : x ∈ c.forkDb.index.byLibBlockNum)
    (hbad : ¬ x.Good fails) : ∃ e, enter fails x c = .throw e c := by
  obtain ⟨e, happly⟩ := h.applyBlock_bad hx hbad (branchStatus x c)
  refine ⟨e, ?_⟩
  unfold enter
  rw [happly, throw_andThen]

lemma reenter (hsized : T.Sized)
    (hx : x ∈ c.forkDb.index.byLibBlockNum) (hprev : x.prev = y.id) (hgood : x.Good fails) :
    ∃ c', reenter fails x c = .ok c' ∧ Applied T fails past (x :: y :: cur) c' ∧
      c'.forkDb.index.byLibBlockNum = c.forkDb.index.byLibBlockNum := by
  obtain ⟨block, hblock, happly⟩ :=
    h.applyBlock_good hsized hx hprev hgood (s := .validated) rfl
  obtain ⟨db, hmark, hblocks, hhead, hset⟩ := markInCurrentChain_spec
    (c := setHead x ⟨c.forkDb, { c.env with
      reversibleBlocks := c.env.reversibleBlocks.set x.blockNum block
      db := c.env.db.startUndoSession }⟩) hx true
  refine ⟨_, ?_, h.extend db hx hprev hgood hblock hblocks hhead
    (h.marks.enter hx (h.genesis_lt hx hprev) hset), hblocks⟩
  unfold Controller.reenter
  rw [happly, ok_andThen, hmark]
  rfl

omit h

lemma remove (h : Applied T fails past cur c) (hx : x ∈ c.forkDb.index.byLibBlockNum)
    (hnot : x ∉ cur) : Applied T fails past cur (setValidity x false c) := by
  obtain ⟨-, E, hE, -⟩ := c.forkDb.remove_cut hx
  refine ⟨⟨h.tree.remove hx, h.tree.branch_remove hx h.branch hnot, ?_⟩, h.head, h.reversible,
    h.undoable, h.good, h.log, h.mode⟩
  refine h.marks.restrict ?_ fun _ _ => .rfl
  intro d hd
  change d ∈ (c.forkDb.remove x.id).index.byBlockNum at hd
  rw [hE] at hd
  exact ⟨d, (mem_eraseIf.mp hd).1, rfl, rfl⟩

end Applied

end Controller

end DimensionChain
