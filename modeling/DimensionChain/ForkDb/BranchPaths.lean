import DimensionChain.ForkDb.ForkTree

/-!
# The two branches of a fork

`fetch_branch_from` on any two blocks whose branches meet: the lists are the paths down to the two
blocks above the fork point, or to the lower block if it is an ancestor of the other. The block at
the fork point need not be in the database. `remove` erases a block together with every block that
has it on its path.
-/

namespace DimensionChain

open List ForkMultiIndex

variable {Key Sig : Type}

structure ForkMultiIndex.Numbered (idx : ForkMultiIndex Key Sig) : Prop where
  parent : ∀ b ∈ idx.byLibBlockNum, ∀ p ∈ idx.byLibBlockNum, b.prev = p.id →
    b.blockNum = p.blockNum + 1
  sibling : ∀ a ∈ idx.byLibBlockNum, ∀ b ∈ idx.byLibBlockNum, a.prev = b.prev →
    a.blockNum = b.blockNum

namespace ForkDatabase
variable {db : ForkDatabase Key Sig} {a b x y : BlockData Key Sig}
  {l m : List (BlockData Key Sig)}

abbrev BranchPath (db : ForkDatabase Key Sig) : BlockData Key Sig → List (BlockData Key Sig) →
    BlockData Key Sig → Prop :=
  blockLinks.Path db.index.byLibBlockNum

lemma size_eq (db : ForkDatabase Key Sig) : db.index.size = db.index.byLibBlockNum.length := by
  rw [← db.index.same.length_eq, length_map]
  rfl

lemma walkDown_path (stop fuel : Nat) (h : db.BranchPath a l x) (hstop : x.blockNum ≤ stop)
    (hfuel : l.length ≤ fuel + 1) :
    ∃ k r m, db.walkDown stop fuel a = .ok (k, r) ∧ l = k ++ m ∧ db.BranchPath r m x ∧
      r.blockNum = min a.blockNum stop := by
  induction h generalizing fuel with
  | @single a ha =>
    have hnot : ¬ stop < a.blockNum := Nat.not_lt.mpr hstop
    refine ⟨[], a, [a], ?_, rfl, .single ha, by omega⟩
    cases fuel with
    | zero => rw [walkDown, if_neg hnot]
    | succ fuel => rw [walkDown, if_neg hnot]
  | @step a p x l ha hp hh hl ih =>
    by_cases hlt : stop < a.blockNum
    · cases fuel with
      | zero =>
        have hpos := length_pos_of_mem (mem_of_mem_head? hl.head?)
        rw [length_cons] at hfuel
        omega
      | succ fuel =>
        obtain ⟨k, r, m, hwalk, hsplit, hr, hnum⟩ := ih fuel hstop (by simpa using hfuel)
        obtain ⟨c, hc, hcp⟩ := exists_find? hl.mem_first
        have hprev : a.prev = p.id := hp
        have hnums : a.blockNum = p.blockNum + 1 := hh
        refine ⟨a :: k, r, m, ?_, by rw [hsplit, cons_append], hr, by omega⟩
        rw [walkDown, if_pos hlt, hprev, getBlock, hc]
        dsimp only
        rw [hcp, hwalk]
        rfl
    refine ⟨[], a, a :: l, ?_, rfl, .step ha hp hh hl, by omega⟩
    cases fuel with
    | zero => rw [walkDown, if_neg hlt]
    | succ fuel => rw [walkDown, if_neg hlt]

lemma walkDownBoth_path (fuel : Nat) (hl : db.BranchPath a l x) (hm : db.BranchPath b m y)
    (hlen : l.length = m.length) (hne : x ≠ y) (hprev : x.prev = y.prev)
    (hfuel : l.length ≤ fuel) : db.walkDownBoth fuel a b = .ok (l, m) := by
  induction hl generalizing b m fuel with
  | single =>
    cases fuel with
    | zero => simp at hfuel
    | succ fuel =>
      cases hm with
      | single => rw [walkDownBoth, if_neg (not_not.mpr hprev)]
      | step _ _ _ hm =>
        have hpos := length_pos_of_mem (mem_of_mem_head? hm.head?)
        rw [length_singleton, length_cons] at hlen
        omega
  | @step a p x l _ hp _ hl ih =>
    cases hm with
    | single =>
      have hpos := length_pos_of_mem (mem_of_mem_head? hl.head?)
      rw [length_singleton, length_cons] at hlen
      omega
    | @step b q y m _ hq _ hm =>
      cases fuel with
      | zero => simp at hfuel
      | succ fuel =>
        have hlens : l.length = m.length := by simpa using hlen
        have hap : a.prev = p.id := hp
        have hbq : b.prev = q.id := hq
        have hpq : a.prev ≠ b.prev := by
          -- below a common parent the paths would agree
          intro heq
          have hpq : p = q := inj_on_of_nodup_map db.index.unique_blocks hl.mem_first
            hm.mem_first (hap.symm.trans (heq.trans hbq))
          subst hpq
          have hlm := hl.unique db.index.unique_blocks hm hlens
          subst hlm
          exact hne (Option.some.inj (hl.getLast?.symm.trans hm.getLast?))
        obtain ⟨c, hc, hcp⟩ := exists_find? hl.mem_first
        obtain ⟨d, hd, hdq⟩ := exists_find? hm.mem_first
        rw [walkDownBoth, if_pos hpq, hap, hbq, getBlock, getBlock, hc, hd]
        dsimp only
        rw [hcp, hdq, ih fuel hm hlens hne hprev (by simpa using hfuel)]
        rfl

lemma fetchBranchFrom_eq (ha : a ∈ db.index.byLibBlockNum) (hb : b ∈ db.index.byLibBlockNum)
    {k j f s : List (BlockData Key Sig)} {a' b' : BlockData Key Sig}
    (hfirst : db.walkDown b.blockNum db.index.size a = .ok (k, a'))
    (hsecond : db.walkDown a'.blockNum db.index.size b = .ok (j, b'))
    (hboth : db.walkDownBoth db.index.size a' b' = .ok (f, s)) :
    db.fetchBranchFrom a.id b.id = .ok (k ++ f, j ++ s) := by
  obtain ⟨a₀, ha₀, ha₀d⟩ := exists_find? ha
  obtain ⟨b₀, hb₀, hb₀d⟩ := exists_find? hb
  have hnum : b₀.blockNum = b.blockNum := by rw [← hb₀d]
  unfold fetchBranchFrom getBlock
  rw [ha₀, hb₀]
  dsimp only
  rw [hnum, ha₀d, hb₀d, hfirst]
  dsimp only [bind, Except.bind]
  rw [hsecond]
  dsimp only
  rw [hboth]
  rfl

lemma fetchBranchFrom_siblings (hl : db.BranchPath a l x) (hm : db.BranchPath b m y)
    (hnum : x.blockNum = y.blockNum) (hne : x ≠ y) (hprev : x.prev = y.prev) :
    db.fetchBranchFrom a.id b.id = .ok (l, m) := by
  have hla : a.blockNum + 1 = x.blockNum + l.length := hl.height_eq
  have hmb : b.blockNum + 1 = y.blockNum + m.length := hm.height_eq
  have hlpos := length_pos_of_mem (mem_of_mem_head? hl.head?)
  have hmpos := length_pos_of_mem (mem_of_mem_head? hm.head?)
  have hlsize := hl.length_le
  have hmsize := hm.length_le
  rw [← db.size_eq] at hlsize hmsize
  obtain ⟨k, a', l', hwa, hsl, ha', hna⟩ :=
    walkDown_path b.blockNum db.index.size hl (by omega) (by omega)
  have hla' : a'.blockNum + 1 = x.blockNum + l'.length := ha'.height_eq
  obtain ⟨j, b', m', hwb, hsm, hb', hnb⟩ :=
    walkDown_path a'.blockNum db.index.size hm (by omega) (by omega)
  have hmb' : b'.blockNum + 1 = y.blockNum + m'.length := hb'.height_eq
  have hboth := walkDownBoth_path db.index.size ha' hb' (by omega) hne hprev
    (by rw [db.size_eq]; exact ha'.length_le)
  rw [hsl, hsm]
  exact fetchBranchFrom_eq hl.mem_first hm.mem_first hwa hwb hboth

lemma walkDownBoth_self (ha : a ∈ db.index.byLibBlockNum) :
    db.walkDownBoth db.index.size a a = .ok ([a], [a]) := by
  have hpos := length_pos_of_mem ha
  rw [← db.size_eq] at hpos
  obtain ⟨n, hn⟩ := Nat.exists_eq_succ_of_ne_zero (Nat.pos_iff_ne_zero.mp hpos)
  rw [hn, walkDownBoth, if_neg (not_not.mpr rfl)]

lemma walkDown_end (hl : db.BranchPath a l x) :
    ∃ k, db.walkDown x.blockNum db.index.size a = .ok (k, x) ∧ l = k ++ [x] := by
  have hla : a.blockNum + 1 = x.blockNum + l.length := hl.height_eq
  have hlpos := length_pos_of_mem (mem_of_mem_head? hl.head?)
  have hlsize := hl.length_le
  rw [← db.size_eq] at hlsize
  obtain ⟨k, r, m, hwalk, hsplit, hr, hnum⟩ :=
    walkDown_path x.blockNum db.index.size hl (Nat.le_refl _) (by omega)
  have hrx : r.blockNum + 1 = x.blockNum + m.length := hr.height_eq
  have hone : m.length = 1 := by omega
  cases hr with
  | single => exact ⟨k, hwalk, hsplit⟩
  | step _ _ _ hr =>
    have hpos := length_pos_of_mem (mem_of_mem_head? hr.head?)
    rw [length_cons] at hone
    omega

lemma walkDown_stay {stop : Nat} (hle : a.blockNum ≤ stop) :
    db.walkDown stop db.index.size a = .ok ([], a) := by
  cases db.index.size with
  | zero | succ n => rw [walkDown, if_neg (Nat.not_lt.mpr hle)]

lemma fetchBranchFrom_below (hl : db.BranchPath a l x) (hx : x ∈ db.index.byLibBlockNum) :
    db.fetchBranchFrom a.id x.id = .ok (l, [x]) ∧ db.fetchBranchFrom x.id a.id = .ok ([x], l) := by
  obtain ⟨k, hwalk, hsplit⟩ := walkDown_end hl
  have hle : x.blockNum ≤ a.blockNum := hl.height_le (mem_of_mem_head? hl.head?)
  rw [hsplit]
  exact ⟨fetchBranchFrom_eq hl.mem_first hx hwalk (walkDown_stay (Nat.le_refl _))
      (walkDownBoth_self hx),
    fetchBranchFrom_eq hx hl.mem_first (walkDown_stay hle) hwalk (walkDownBoth_self hx)⟩

structure Branches (a b : BlockData Key Sig) (f s : List (BlockData Key Sig)) : Prop where
  first : f.head? = some a
  second : s.head? = some b
  firstLinked : f.IsChain fun c p => c.prev = p.id
  secondLinked : s.IsChain fun c p => c.prev = p.id

lemma branches_of_paths (hl : db.BranchPath a l x) (hm : db.BranchPath b m y) :
    Branches a b l m :=
  ⟨hl.head?, hm.head?, hl.isChain, hm.isChain⟩

/-- For two blocks above different children `x`, `y` of one block, the branches end in these
children and share no block; for a block `x` and one above it, both branches end in `x`. -/
theorem fetchBranchFrom_paths (db : ForkDatabase Key Sig) (hnum : db.index.Numbered)
    (ha : a ∈ db.index.byLibBlockNum) (hb : b ∈ db.index.byLibBlockNum) :
    (∀ x y, blockLinks.Ancestor (fun c => c ∈ db.index.byLibBlockNum) x a →
      blockLinks.Ancestor (fun c => c ∈ db.index.byLibBlockNum) y b → x ≠ y → x.prev = y.prev →
      ∃ f s, db.fetchBranchFrom a.id b.id = .ok (f, s) ∧ Branches a b f s ∧
        f.getLast? = some x ∧ s.getLast? = some y ∧ x.blockNum = y.blockNum ∧ f.Disjoint s) ∧
    (∀ x, x = a ∧ blockLinks.Ancestor (fun c => c ∈ db.index.byLibBlockNum) a b ∨
        x = b ∧ blockLinks.Ancestor (fun c => c ∈ db.index.byLibBlockNum) b a →
      ∃ f s, db.fetchBranchFrom a.id b.id = .ok (f, s) ∧ Branches a b f s ∧
        f.getLast? = some x ∧ s.getLast? = some x) := by
  have hheight : ∀ c ∈ db.index.byLibBlockNum, ∀ p ∈ db.index.byLibBlockNum,
      blockLinks.parent c = blockLinks.ident p →
        blockLinks.height c = blockLinks.height p + 1 := hnum.parent
  refine ⟨?_, ?_⟩
  · intro x y hxa hyb hne hprev
    obtain ⟨l, hl⟩ := Links.Path.of_ancestor hheight ha hxa
    obtain ⟨m, hm⟩ := Links.Path.of_ancestor hheight hb hyb
    have hnums : x.blockNum = y.blockNum := hnum.sibling x
      (hl.mem x (mem_of_getLast? hl.getLast?)) y
      (hm.mem y (mem_of_getLast? hm.getLast?)) hprev
    exact ⟨l, m, fetchBranchFrom_siblings hl hm hnums hne hprev, branches_of_paths hl hm,
      hl.getLast?, hm.getLast?, hnums, hl.disjoint db.index.unique_blocks hm hnums hne⟩
  rintro x (⟨rfl, hanc⟩ | ⟨rfl, hanc⟩)
  · obtain ⟨l, hl⟩ := Links.Path.of_ancestor hheight hb hanc
    exact ⟨[x], l, (fetchBranchFrom_below hl ha).2, branches_of_paths (.single ha) hl, rfl,
      hl.getLast?⟩
  · obtain ⟨l, hl⟩ := Links.Path.of_ancestor hheight ha hanc
    exact ⟨l, [x], (fetchBranchFrom_below hl hb).1, branches_of_paths hl (.single hb),
      hl.getLast?, rfl⟩

def u2 : BlockState Nat Nat := blockOn (blockOn default 1 0).id 2 0
def v2 : BlockState Nat Nat := blockOn (blockOn default 1 0).id 3 0
def u3 : BlockState Nat Nat := blockOn u2.id 4 0

def forkedDatabase : ForkDatabase Nat Nat where
  index := [u2, v2, u3].foldl (fun idx b => (idx.insert b).getD idx) .empty
  head := none

instance (idx : ForkMultiIndex Key Sig) : Decidable idx.Numbered :=
  decidable_of_iff
    ((∀ b ∈ idx.byLibBlockNum, ∀ p ∈ idx.byLibBlockNum, b.prev = p.id →
        b.blockNum = p.blockNum + 1) ∧
      ∀ a ∈ idx.byLibBlockNum, ∀ b ∈ idx.byLibBlockNum, a.prev = b.prev →
        a.blockNum = b.blockNum)
    ⟨fun h => ⟨h.1, h.2⟩, fun h => ⟨h.parent, h.sibling⟩⟩

lemma exists_forked (b : BlockState Nat Nat)
    (hb : (forkedDatabase.index.find? b.id).map (fun c => c.prev) = some b.prev) :
    ∃ c ∈ forkedDatabase.index.byLibBlockNum, c.id = b.id ∧ c.prev = b.prev := by
  obtain ⟨c, hc, hprev⟩ := Option.map_eq_some_iff.mp hb
  obtain ⟨hmem, hid⟩ := ForkMultiIndex.find?_eq_some.mp hc
  exact ⟨c.toBlockData, mem_blocks hmem, hid, hprev⟩

theorem fetchBranchFrom_paths_forked : ∃ a b x f s, a.id = u3.id ∧ b.id = v2.id ∧ x.id = u2.id ∧
      forkedDatabase.fetchBranchFrom a.id b.id = .ok (f, s) ∧ Branches a b f s ∧
      f.getLast? = some x ∧ s.getLast? = some b ∧ f.Disjoint s := by
  obtain ⟨a, ha, haid, haprev⟩ := exists_forked u3 (by decide +kernel)
  obtain ⟨b, hb, hbid, hbprev⟩ := exists_forked v2 (by decide +kernel)
  obtain ⟨x, hx, hxid, hxprev⟩ := exists_forked u2 (by decide +kernel)
  have hax : a.prev = x.id := by
    rw [haprev, hxid]
    rfl
  have hne : x ≠ b := by
    intro heq
    have hids : u2.id = v2.id := by rw [← hxid, ← hbid, heq]
    revert hids
    decide +kernel
  have hprev : x.prev = b.prev := by
    rw [hxprev, hbprev]
    rfl
  obtain ⟨f, s, hfetch, hbranches, hf, hs, -, hdisjoint⟩ :=
    (fetchBranchFrom_paths forkedDatabase (by decide +kernel) ha hb).1 x b (.single ⟨hx, hax⟩)
      .refl hne hprev
  exact ⟨a, b, x, f, s, haid, hbid, hxid, hfetch, hbranches, hf, hs, hdisjoint⟩

end ForkDatabase

end DimensionChain
