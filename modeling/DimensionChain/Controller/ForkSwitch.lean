import DimensionChain.Controller.Applied
import DimensionChain.ForkDb.FetchBranch

/-!
# Switching forks

`maybe_switch_forks` follows the head of the fork database. When the old and the new branch
meet in a block of the database, the switch either ends with the new branch applied, or a
block of the new branch has failed: it is removed with everything built on it and the old
branch is applied again.
-/

namespace DimensionChain

open List Outcome ForkDatabase

variable {Key Sig : Type}

def WithoutSubtree (S S' : List (BlockData Key Sig)) (x : BlockData Key Sig) : Prop :=
  ∃ E : BlockId → Bool, blockLinks.Cut S (fun i => i = x.id) (fun i => E i = true) ∧
    S' = S.filter fun b => !E b.id

lemma ForkDatabase.remove_withoutSubtree {db : ForkDatabase Key Sig} {x : BlockData Key Sig}
    (hx : x ∈ db.index.byLibBlockNum) :
    WithoutSubtree db.index.byLibBlockNum (db.remove x.id).index.byLibBlockNum x := by
  obtain ⟨-, E, hE, hcut, -⟩ := db.remove_cut hx
  refine ⟨E, hcut, ?_⟩
  rw [hE]
  rfl

namespace Controller
variable {T : BlockTree Key Sig} {fails : SignedBlock Key Sig → Bool}
  {past cur : List (BlockData Key Sig)} {c : Controller Key Sig} {x y hd : BlockData Key Sig}

namespace Applied

variable {second : List (BlockData Key Sig)} {l : List (BlockData Key Sig)} {s : BlockStatus}

lemma leaveAll (h : Applied T fails past (second ++ y :: cur) c) :
    ∃ c', Outcome.forEach Controller.leave second c = .ok c' ∧ Applied T fails past (y :: cur) c' ∧
      c'.forkDb.index.byLibBlockNum = c.forkDb.index.byLibBlockNum := by
  induction second generalizing c with
  | nil => exact ⟨c, rfl, h, rfl⟩
  | cons b second ih =>
    obtain ⟨z, rest, hz⟩ := exists_cons_of_ne_nil (l := second ++ y :: cur) (by simp)
    rw [cons_append, hz] at h
    obtain ⟨c₁, hleave, h₁, hblocks₁⟩ := h.leave
    rw [← hz] at h₁
    obtain ⟨c', hrest, h', hblocks'⟩ := ih h₁
    refine ⟨c', ?_, h', hblocks'.trans hblocks₁⟩
    rw [Outcome.forEach, hleave, ok_andThen]
    exact hrest

lemma reenterAll (hsized : T.Sized) (h : Applied T fails past (y :: cur) c)
    (hold : T.Branch past c.forkDb.index (second ++ y :: cur))
    (hgood : ∀ b ∈ second, b.Good fails) :
    ∃ c', Outcome.forEach (Controller.reenter fails) second.reverse c = .ok c' ∧
      Applied T fails past (second ++ y :: cur) c' ∧
      c'.forkDb.index.byLibBlockNum = c.forkDb.index.byLibBlockNum := by
  induction second using List.reverseRecOn generalizing y cur c with
  | nil => exact ⟨c, rfl, h, rfl⟩
  | append_singleton second b ih =>
    rw [append_assoc, singleton_append] at hold ⊢
    have hprev : b.prev = y.id := hold.parent_split.1
    obtain ⟨c₁, henter, h₁, hblocks₁⟩ :=
      h.reenter hsized (hold.mem b (by simp)) hprev (hgood b (by simp))
    obtain ⟨c', hrest, h', hblocks'⟩ :=
      ih h₁ (hold.of_blocks hblocks₁) fun a ha => hgood a (by simp [ha])
    refine ⟨c', ?_, h', hblocks'.trans hblocks₁⟩
    rw [reverse_concat, Outcome.forEach, henter, ok_andThen]
    exact hrest

lemma forkPoint (h : Applied T fails past (y :: cur) c) {index : ForkMultiIndex Key Sig}
    (hold : T.Branch past index (second ++ y :: cur)) (hne : second ≠ []) (message : String) :
    requireForkPoint second message c = .ok c := by
  obtain ⟨s, z, rfl⟩ := eq_nil_or_concat second |>.resolve_left hne
  rw [concat_eq_append, append_assoc, singleton_append] at hold
  have hprev : z.prev = y.id := hold.parent_split.1
  apply require_pos
  rw [concat_eq_append, List.getLast?_concat, Option.map_some, h.head_eq, hprev]

lemma switchBack_throws {applied second : List (BlockData Key Sig)} (hsized : T.Sized)
    (h : Applied T fails past (applied ++ y :: cur) c)
    (hold : T.Branch past c.forkDb.index (second ++ y :: cur)) (hne : second ≠ [])
    (hgood : ∀ b ∈ second, b.Good fails) (hx : x ∈ c.forkDb.index.byLibBlockNum)
    (hxnew : x ∉ applied ++ y :: cur) (hxold : x ∉ second ++ y :: cur) (e : ChainException) :
    ∃ c', switchBack fails e x applied second c = .throw e c' ∧
      Applied T fails past (second ++ y :: cur) c' ∧
      WithoutSubtree c.forkDb.index.byLibBlockNum c'.forkDb.index.byLibBlockNum x := by
  obtain ⟨c₁, hleave, h₁, hblocks₁⟩ := (h.remove hx hxnew).leaveAll
  have hold₁ : T.Branch past c₁.forkDb.index (second ++ y :: cur) :=
    (h.tree.branch_remove hx hold hxold).of_blocks hblocks₁
  obtain ⟨c', hreenter, h', hblocks'⟩ := h₁.reenterAll hsized hold₁ hgood
  refine ⟨c', ?_, h', ?_⟩
  · unfold switchBack
    rw [hleave, ok_andThen, h₁.forkPoint hold₁ hne, ok_andThen, hreenter,
      ok_andThen]
  · rw [hblocks', hblocks₁]
    exact remove_withoutSubtree hx

lemma enterBranch_cases (todo applied : List (BlockData Key Sig)) (hsized : T.Sized)
    (h : Applied T fails past (applied ++ y :: cur) c)
    (hnew : T.Branch past c.forkDb.index (todo.reverse ++ (applied ++ y :: cur)))
    (hold : T.Branch past c.forkDb.index (second ++ y :: cur)) (hne : second ≠ [])
    (hgood : ∀ b ∈ second, b.Good fails) : (∃ c', enterBranch fails second todo applied c = .ok c' ∧
      Applied T fails past (todo.reverse ++ (applied ++ y :: cur)) c' ∧
      c'.forkDb.index.byLibBlockNum = c.forkDb.index.byLibBlockNum) ∨
    (∃ b ∈ todo, ¬ b.Good fails ∧ ∃ e c', enterBranch fails second todo applied c = .throw e c' ∧
      Applied T fails past (second ++ y :: cur) c' ∧
      WithoutSubtree c.forkDb.index.byLibBlockNum c'.forkDb.index.byLibBlockNum b) := by
  induction todo generalizing applied c with
  | nil => exact .inl ⟨c, rfl, h, rfl⟩
  | cons b todo ih =>
    rw [reverse_cons, append_assoc, singleton_append] at hnew ⊢
    have hbmem := hnew.mem b (by simp)
    obtain ⟨z, rest, hz⟩ := exists_cons_of_ne_nil (l := applied ++ y :: cur) (by simp)
    have hbranch := hnew.of_append (by simp)
    have hprev : b.prev = z.id := by
      rw [hz] at hbranch
      exact (Links.Branch.parent_split (k := []) hbranch).1
    have hbelow : ∀ a ∈ applied ++ y :: cur, a.blockNum < b.blockNum :=
      fun a ha => hbranch.height_lt_of_tail ha
    have hbnew : b ∉ applied ++ y :: cur := fun hb => Nat.lt_irrefl _ (hbelow b hb)
    by_cases hb : b.Good fails
    · have hz' := h
      rw [hz] at hz'
      obtain ⟨c₁, henter, h₁, hblocks₁⟩ := hz'.enter_good hsized hbmem hprev hb
      rw [← hz] at h₁
      have hstep : enterBranch fails second (b :: todo) applied c =
          enterBranch fails second todo (b :: applied) c₁ := by
        rw [enterBranch, henter]
      rw [hstep, ← hblocks₁]
      rcases ih (b :: applied) h₁ (hnew.of_blocks hblocks₁) (hold.of_blocks hblocks₁) with
        hok | ⟨a, ha, hrest⟩
      · exact .inl hok
      · exact .inr ⟨a, mem_cons_of_mem _ ha, hrest⟩
    obtain ⟨e, henter⟩ := h.enter_bad hbmem hb
    have hbold : b ∉ second ++ y :: cur := by
      intro hmem
      rcases mem_append.mp hmem with hmem | hmem
      · exact hb (hgood b hmem)
      · exact hbnew (mem_append_right _ hmem)
    obtain ⟨c', hback, h', hwithout⟩ :=
      h.switchBack_throws hsized hold hne hgood hbmem hbnew hbold e
    refine .inr ⟨b, by simp, hb, e, c', ?_, h', hwithout⟩
    rw [enterBranch, henter]
    exact hback

lemma followHead (hsized : T.Sized) (h : Applied T fails past (y :: cur) c)
    (hhd : c.forkDb.head = some hd) (hmem : hd ∈ c.forkDb.index.byLibBlockNum)
    (hprev : hd.prev = y.id) (hs : s.skipDbSessions = false) :
    (∃ c', maybeSwitchForks fails s c = .ok c' ∧ Applied T fails past (hd :: y :: cur) c' ∧
      c'.forkDb.index.byLibBlockNum = c.forkDb.index.byLibBlockNum) ∨
    (¬ hd.Good fails ∧ ∃ e c', maybeSwitchForks fails s c = .throw e c' ∧
      Applied T fails past (y :: cur) c' ∧
      WithoutSubtree c.forkDb.index.byLibBlockNum c'.forkDb.index.byLibBlockNum hd) := by
  unfold maybeSwitchForks
  rw [hhd, h.head_eq]
  dsimp only
  rw [if_pos hprev]
  by_cases hgood : hd.Good fails
  · obtain ⟨block, hblock, happly⟩ := h.applyBlock_good hsized hmem hprev hgood hs
    obtain ⟨db, hmark, hblocks, hhead, hset⟩ := markInCurrentChain_spec
      (c := ⟨c.forkDb, { c.env with
        reversibleBlocks := c.env.reversibleBlocks.set hd.blockNum block
        db := c.env.db.startUndoSession }⟩) hmem true
    have hmarks := (h.marks.enter hmem (h.genesis_lt hmem hprev) hset).setValidated hd.id
    refine .inl ⟨_, ?_, h.extend { db with index := db.index.setValidated hd.id } hmem
      hprev hgood hblock hblocks hhead hmarks, hblocks⟩
    rw [happly, ok_andThen, hmark]
    rfl
  obtain ⟨e, happly⟩ := h.applyBlock_bad hmem hgood s
  have hnot : hd ∉ y :: cur := by
    intro hin
    have hle : hd.blockNum ≤ y.blockNum := h.branch.height_le hin
    have hnum := h.num_of_child (h.tree.members hd hmem) hprev
    omega
  refine .inr ⟨hgood, e, setValidity hd false c, ?_, h.remove hmem hnot,
    remove_withoutSubtree hmem⟩
  rw [happly, throw_andThen, throw_handle]

variable (hsized : T.Sized) (h : Applied T fails past (y :: cur) c)
  (hhd : c.forkDb.head = some hd) (hl : T.Branch past c.forkDb.index (hd :: l))
include hsized h hhd hl

lemma switchBranch
    (hne : hd ≠ y) (hprev : hd.prev ≠ y.id) (hmeet : ∃ z ∈ l, z ∈ cur) (s : BlockStatus) :
    (∃ c', maybeSwitchForks fails s c = .ok c' ∧ Applied T fails past (hd :: l) c' ∧
      c'.forkDb.index.byLibBlockNum = c.forkDb.index.byLibBlockNum) ∨
    (∃ b ∈ hd :: l, ¬ b.Good fails ∧ ∃ e c', maybeSwitchForks fails s c = .throw e c' ∧
      Applied T fails past (y :: cur) c' ∧
      WithoutSubtree c.forkDb.index.byLibBlockNum c'.forkDb.index.byLibBlockNum b) := by
  obtain ⟨first, second, t, hfetch, hfirst, hsecond, -, hsne, hcommon⟩ :=
    fetchBranchFrom_spec h.tree.rooted hl h.branch
  obtain ⟨z, hzl, hzcur⟩ := hmeet
  obtain ⟨p, t, rfl⟩ := exists_cons_of_ne_nil (ne_nil_of_mem (hcommon z hzl hzcur))
  have hid : hd.id ≠ y.id := fun heq =>
    hne (h.tree.rooted.eq_of_ident (hl.mem hd (by simp)) (h.mem_of_cur (by simp)) heq)
  have hgood : ∀ b ∈ second, b.Good fails := by
    intro b hb
    have hpmem := h.mem_of_cur (x := p) (by rw [hsecond]; simp)
    have hold := h.branch
    rw [hsecond] at hold
    obtain ⟨k, m, rfl⟩ := append_of_mem hb
    rw [append_assoc] at hold
    have hlt : p.blockNum < b.blockNum :=
      (hold.of_append (by simp)).height_lt_of_tail (by simp)
    have hg := h.genesis_le hpmem
    exact h.good b (by rw [hsecond]; simp) (by omega)
  rw [hsecond] at h ⊢
  rw [hfirst] at hl ⊢
  have hold := h.branch
  obtain ⟨c₁, hleave, h₁, hblocks₁⟩ := h.leaveAll
  have hstep : maybeSwitchForks fails s c =
      enterBranch fails second first.reverse [] c₁ := by
    unfold maybeSwitchForks
    rw [hhd]
    dsimp only
    have hhead : c.env.head = y := by
      have hcons := h.head
      rw [← hsecond] at hcons
      exact (Option.some.inj hcons).symm
    rw [hhead, if_neg hprev, if_pos hid, hfetch]
    dsimp only
    rw [hleave, ok_andThen, h₁.forkPoint hold hsne, ok_andThen]
  rw [hstep, ← hblocks₁]
  unfold BlockTree.Branch at hl
  rw [← hblocks₁] at hl hold
  have hloop := h₁.enterBranch_cases first.reverse [] hsized
    (by rw [reverse_reverse]; exact hl) hold hsne hgood
  rw [reverse_reverse] at hloop
  rcases hloop with hok | ⟨b, hb, hrest⟩
  · exact .inl hok
  · exact .inr ⟨b, mem_append_left _ (mem_reverse.mp hb), hrest⟩

lemma maybeSwitchForks_cases
    (hmeet : hd ≠ y → hd.prev ≠ y.id → ∃ z ∈ l, z ∈ cur) (hs : s.skipDbSessions = false) :
    (∃ c', maybeSwitchForks fails s c = .ok c' ∧ Applied T fails past (hd :: l) c' ∧
      c'.forkDb.index.byLibBlockNum = c.forkDb.index.byLibBlockNum) ∨
    (hd ≠ y ∧ ∃ b ∈ hd :: l, ¬ b.Good fails ∧ ∃ e c', maybeSwitchForks fails s c = .throw e c' ∧
      Applied T fails past (y :: cur) c' ∧
      WithoutSubtree c.forkDb.index.byLibBlockNum c'.forkDb.index.byLibBlockNum b) := by
  have hmem := hl.mem hd (by simp)
  by_cases hprev : hd.prev = y.id
  · have hnum := h.num_of_child (h.tree.members hd hmem) hprev
    have hlcur : l = y :: cur := h.tree.rooted.branch_unique hl (.link hmem hprev hnum h.branch)
    subst hlcur
    rcases h.followHead hsized hhd hmem hprev hs with hok | ⟨hbad, hthrow⟩
    · exact .inl hok
    · refine .inr ⟨?_, hd, by simp, hbad, hthrow⟩
      rintro rfl
      omega
  by_cases hne : hd = y
  · subst hne
    have hlcur : l = cur := h.tree.rooted.branch_unique hl h.branch
    subst hlcur
    refine .inl ⟨c, ?_, h, rfl⟩
    unfold maybeSwitchForks
    rw [hhd, h.head_eq]
    dsimp only
    rw [if_neg hprev, if_neg (by simp)]
  · rcases h.switchBranch hsized hhd hl hne hprev (hmeet hne hprev) s with hok | hthrow
    · exact .inl hok
    · exact .inr ⟨hne, hthrow⟩

end Applied

end Controller

end DimensionChain
