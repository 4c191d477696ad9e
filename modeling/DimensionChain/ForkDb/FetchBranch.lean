import DimensionChain.ForkDb.ForkDatabase

/-!
# Where two branches part

`fetch_branch_from` walks from two blocks down to the first two blocks that have the same
parent, which may be the root below the database. The blocks that it returns are the two
branches without a common rest, and the rest contains every block that lies strictly below
both.
-/

namespace DimensionChain

open List ForkMultiIndex Links.Branch

variable {Key Sig : Type} {db : ForkDatabase Key Sig} {root : BlockId} {base : Nat}

namespace ForkDatabase

variable {l : List (BlockData Key Sig)} {m : List (BlockData Key Sig)} {a b : BlockData Key Sig}
  {stop : Nat}

lemma getBlock_parent {b p : BlockData Key Sig}
    (h : blockLinks.Branch db.index.byLibBlockNum root base (b :: p :: l)) :
    ∃ c, db.getBlock b.prev = some c ∧ c.toBlockData = p := by
  have hparent := parent_split (k := []) h
  have hprev : b.prev = p.id := hparent.1
  rw [hprev]
  exact exists_find? (h.mem p (by simp))

lemma walkDown_spec (fuel : Nat) {b : BlockData Key Sig}
    (h : blockLinks.Branch db.index.byLibBlockNum root base (b :: l)) (hstop : base < stop)
    (hfuel : l.length ≤ fuel) :
    ∃ k r m, db.walkDown stop fuel b = .ok (k, r) ∧ b :: l = k ++ r :: m ∧
      (∀ x ∈ k, stop < x.blockNum) ∧ r.blockNum ≤ stop ∧ (k ≠ [] → r.blockNum = stop) := by
  induction l generalizing b fuel with
  | nil =>
    have hheight : b.blockNum = base + 1 := h.height_cons
    have hnot : ¬ stop < b.blockNum := by omega
    refine ⟨[], b, [], ?_, rfl, by simp, by omega, by simp⟩
    cases fuel with
    | zero => rw [walkDown, if_neg hnot]
    | succ fuel => rw [walkDown, if_neg hnot]
  | cons p l ih =>
    cases fuel with
    | zero => simp at hfuel
    | succ fuel =>
      by_cases hlt : stop < b.blockNum
      · obtain ⟨c, hc, hcp⟩ := getBlock_parent h
        have hparent := (parent_split (k := []) h).2
        have hnum : b.blockNum = p.blockNum + 1 := hparent
        obtain ⟨k, r, m, hwalk, hsplit, hk, hr, hend⟩ :=
          ih fuel (of_append (k := [b]) h (by simp)) (by simpa using hfuel)
        refine ⟨b :: k, r, m, ?_, by rw [hsplit, cons_append], ?_, hr, ?_⟩
        · rw [walkDown, if_pos hlt, hc]
          dsimp only
          rw [hcp, hwalk]
          rfl
        · intro x hx
          rcases mem_cons.mp hx with rfl | hx
          · exact hlt
          · exact hk x hx
        intro _
        cases k with
        | nil =>
          have hpr : p = r := (cons_eq_cons.mp hsplit).1
          rw [← hpr] at hr ⊢
          omega
        | cons y k => exact hend (by simp)
      · exact ⟨[], b, p :: l, by rw [walkDown, if_neg hlt], rfl, by simp, by omega, by simp⟩

lemma walkDownBoth_spec {fuel : Nat} (hroot : blockLinks.Rooted db.index.byLibBlockNum root base)
    (ha : blockLinks.Branch db.index.byLibBlockNum root base (a :: l))
    (hb : blockLinks.Branch db.index.byLibBlockNum root base (b :: m))
    (hlen : l.length = m.length) (hfuel : l.length < fuel) :
    ∃ f s t, db.walkDownBoth fuel a b = .ok (f, s) ∧ a :: l = f ++ t ∧ b :: m = s ++ t ∧
      f ≠ [] ∧ s ≠ [] ∧ ∀ x ∈ l, x ∈ m → x ∈ t := by
  induction l generalizing a b m fuel with
  | nil =>
    have hm : m = [] := length_eq_zero_iff.mp hlen.symm
    subst hm
    have hpa : a.prev = root := (parent_last (l := []) ha).1
    have hpb : b.prev = root := (parent_last (l := []) hb).1
    cases fuel with
    | zero => simp at hfuel
    | succ fuel =>
      refine ⟨[a], [b], [], ?_, rfl, rfl, by simp, by simp, by simp⟩
      rw [walkDownBoth, if_neg (by simp [hpa, hpb])]
  | cons p l ih =>
    cases m with
    | nil => simp at hlen
    | cons q m =>
      cases fuel with
      | zero => simp at hfuel
      | succ fuel =>
        have hp := of_append (k := [a]) ha (by simp)
        have hq := of_append (k := [b]) hb (by simp)
        have hpa : a.prev = p.id := (parent_split (k := []) ha).1
        have hqb : b.prev = q.id := (parent_split (k := []) hb).1
        by_cases hsame : a.prev = b.prev
        · have hpq : p = q := hroot.eq_of_ident (hp.mem p (by simp)) (hq.mem q (by simp))
            (hpa.symm.trans (hsame.trans hqb))
          subst hpq
          have hlm := hroot.branch_unique hp hq
          subst hlm
          refine ⟨[a], [b], p :: l, ?_, rfl, rfl, by simp, by simp, fun x hx _ => hx⟩
          rw [walkDownBoth, if_neg (by simp [hsame])]
        obtain ⟨c, hc, hcp⟩ := getBlock_parent ha
        obtain ⟨d, hd, hdq⟩ := getBlock_parent hb
        obtain ⟨f, s, t, hwalk, hf, hs, -, -, hcommon⟩ :=
          ih hp hq (by simpa using hlen) (by simpa using hfuel)
        refine ⟨a :: f, b :: s, t, ?_, by rw [hf, cons_append],
          by rw [hs, cons_append], by simp, by simp, ?_⟩
        · rw [walkDownBoth, if_pos hsame, hc, hd]
          dsimp only
          rw [hcp, hdq, hwalk]
          rfl
        have hpq : p ≠ q := by
          intro heq
          apply hsame
          rw [hpa, hqb, heq]
        have hheight : p.blockNum = q.blockNum := by
          have hph : p.blockNum = base + l.length + 1 := hp.height_cons
          have hqh : q.blockNum = base + m.length + 1 := hq.height_cons
          simp only [length_cons] at hlen
          omega
        intro x hxl hxm
        -- the two parents have one height, so neither lies on the other branch
        have hxp : x ≠ p := by
          rintro rfl
          exact hpq (hq.eq_of_height hxm (by simp) hheight)
        have hxq : x ≠ q := by
          rintro rfl
          exact hpq (hp.eq_of_height (by simp) hxl hheight)
        exact hcommon x ((mem_cons.mp hxl).resolve_left hxp)
          ((mem_cons.mp hxm).resolve_left hxq)

lemma branch_length_lt {a : BlockData Key Sig}
    (ha : blockLinks.Branch db.index.byLibBlockNum root base (a :: l)) :
    l.length < db.index.size := by
  have hsize : db.index.size = db.index.byLibBlockNum.length := by
    rw [← db.index.same.length_eq, length_map]
    rfl
  have hle := ha.length_le
  rw [length_cons] at hle
  omega

lemma mem_rest {k m : List (BlockData Key Sig)} {r x : BlockData Key Sig}
    (hk : ∀ y ∈ k, stop < y.blockNum) (hx : x ∈ k ++ r :: m) (hle : x.blockNum ≤ stop)
    (hne : x.blockNum ≠ r.blockNum) : x ∈ m := by
  rcases mem_append.mp hx with hxk | hxr
  · have hlt := hk x hxk
    omega
  · rcases mem_cons.mp hxr with rfl | hxm
    · exact absurd rfl hne
    · exact hxm

lemma fetchBranchFrom_spec (hroot : blockLinks.Rooted db.index.byLibBlockNum root base)
    (ha : blockLinks.Branch db.index.byLibBlockNum root base (a :: l))
    (hb : blockLinks.Branch db.index.byLibBlockNum root base (b :: m)) :
    ∃ f s t, db.fetchBranchFrom a.id b.id = .ok (f, s) ∧ a :: l = f ++ t ∧ b :: m = s ++ t ∧
      f ≠ [] ∧ s ≠ [] ∧ ∀ x ∈ l, x ∈ m → x ∈ t := by
  obtain ⟨a₀, ha₀, ha₀d⟩ := exists_find? (ha.mem a (by simp))
  obtain ⟨b₀, hb₀, hb₀d⟩ := exists_find? (hb.mem b (by simp))
  have hblow : base < b.blockNum := hb.base_lt_height (by simp)
  obtain ⟨k, a', l', hwa, hsa, hka, hra, henda⟩ := walkDown_spec db.index.size ha hblow
    (branch_length_lt ha).le
  have ha' : blockLinks.Branch db.index.byLibBlockNum root base (a' :: l') := by
    rw [hsa] at ha
    exact ha.of_append (by simp)
  have halow : base < a'.blockNum := ha'.base_lt_height (by simp)
  obtain ⟨j, b', m', hwb, hsb, hkb, hrb, hendb⟩ := walkDown_spec db.index.size hb halow
    (branch_length_lt hb).le
  have hb' : blockLinks.Branch db.index.byLibBlockNum root base (b' :: m') := by
    rw [hsb] at hb
    exact hb.of_append (by simp)
  have hnums : a'.blockNum = b'.blockNum := by
    by_cases hj : j = []
    · subst hj
      have hbb : b = b' := (cons_eq_cons.mp hsb).1
      rw [hbb] at hra
      omega
    · exact (hendb hj).symm
  have hlen : l'.length = m'.length := by
    have hah : a'.blockNum = base + l'.length + 1 := ha'.height_cons
    have hbh : b'.blockNum = base + m'.length + 1 := hb'.height_cons
    omega
  obtain ⟨f, s, t, hwalk, hf, hs, hfne, hsne, hcommon⟩ :=
    walkDownBoth_spec hroot ha' hb' hlen (branch_length_lt ha')
  refine ⟨k ++ f, j ++ s, t, ?_, ?_, ?_, by simp [hfne], by simp [hsne], ?_⟩
  · unfold fetchBranchFrom getBlock
    rw [ha₀, hb₀]
    dsimp only
    have hnum : b₀.blockNum = b.blockNum := by rw [← hb₀d]
    rw [hnum, ha₀d, hb₀d, hwa]
    dsimp only [bind, Except.bind]
    rw [hwb]
    dsimp only
    rw [hwalk]
    rfl
  · rw [hsa, hf, append_assoc]
  · rw [hsb, hs, append_assoc]
  intro x hxl hxm
  have hxa : x.blockNum < a.blockNum := ha.height_lt_of_tail hxl
  have hxb : x.blockNum < b.blockNum := hb.height_lt_of_tail hxm
  have hxk : x ∈ k ++ a' :: l' := hsa ▸ mem_cons_of_mem a hxl
  have hxj : x ∈ j ++ b' :: m' := hsb ▸ mem_cons_of_mem b hxm
  -- at least one of the two first walks is empty, so `x` is below its end
  have hne : x.blockNum ≠ a'.blockNum := by
    by_cases hk : k = []
    · subst hk
      have haa : a = a' := (cons_eq_cons.mp hsa).1
      rw [← haa]
      omega
    · rw [henda hk]
      omega
  have hxl' : x ∈ l' := mem_rest hka hxk (by omega) hne
  have hxa' : x.blockNum < a'.blockNum := ha'.height_lt_of_tail hxl'
  have hxm' : x ∈ m' := mem_rest hkb hxj (by omega) (by omega)
  exact hcommon x hxl' hxm'

end ForkDatabase

end DimensionChain
