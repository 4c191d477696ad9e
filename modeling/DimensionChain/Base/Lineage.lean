import Mathlib

/-!
# Trees of nodes that name their parent

A node carries its own identifier, that of its parent and a height. `Rooted S r n` says that the
nodes of `S` form a tree over `r`, which is outside of `S`, at height `n`. Every node then has
exactly one branch down to `r`, whose heights are consecutive. A `Cut` is a set of identifiers
that is closed under children and contains nothing but subtrees.
-/

namespace DimensionChain

open List

universe u v

structure Links (α : Type u) (ι : Type v) where
  ident : α → ι
  parent : α → ι
  height : α → Nat

namespace Links
variable {α : Type u} {ι : Type v} (L : Links α ι)

structure Rooted (S : List α) (root : ι) (base : Nat) : Prop where
  unique : (S.map L.ident).Nodup
  outside : ∀ b ∈ S, L.ident b ≠ root
  linked : ∀ b ∈ S, (L.parent b = root ∧ L.height b = base + 1) ∨
    ∃ p ∈ S, L.parent b = L.ident p ∧ L.height b = L.height p + 1

inductive Branch (S : List α) (root : ι) (base : Nat) : List α → Prop where
  | bottom {b : α} : b ∈ S → L.parent b = root → L.height b = base + 1 → Branch S root base [b]
  | link {b p : α} {l : List α} : b ∈ S → L.parent b = L.ident p → L.height b = L.height p + 1 →
      Branch S root base (p :: l) → Branch S root base (b :: p :: l)

structure Cut (S : List α) (roots E : ι → Prop) : Prop where
  contains : ∀ i, roots i → E i
  closed : ∀ b ∈ S, E (L.parent b) → E (L.ident b)
  grounded : ∀ b ∈ S, E (L.ident b) → roots (L.ident b) ∨
    ∃ p ∈ S, L.parent b = L.ident p ∧ E (L.ident p)

def Ancestor (T : α → Prop) (a b : α) : Prop :=
  Relation.ReflTransGen (fun c p => T p ∧ L.parent c = L.ident p) b a

variable {L} {S S' : List α} {root : ι} {base : Nat} {k l : List α} {a b : α} {x : α}

lemma Ancestor.closed {T P : α → Prop} (h : L.Ancestor T a b) (hb : P b)
    (hstep : ∀ c p, P c → T p → L.parent c = L.ident p → P p) : P a := by
  induction h with
  | refl => exact hb
  | tail _ hp ih => exact hstep _ _ ih hp.1 hp.2

namespace Branch

variable (h : L.Branch S root base l)
include h

lemma ne_nil : l ≠ [] := by
  cases h with
  | bottom => simp
  | link => simp

lemma mem : ∀ x ∈ l, x ∈ S := by
  induction h with
  | bottom hb => simpa using hb
  | link hb _ _ _ ih =>
    intro x hx
    rcases mem_cons.mp hx with rfl | hx
    · exact hb
    · exact ih x hx

lemma mono (hsub : ∀ x ∈ l, x ∈ S') : L.Branch S' root base l := by
  induction h with
  | bottom _ hp hh => exact .bottom (hsub _ (by simp)) hp hh
  | link _ hp hh _ ih =>
    exact .link (hsub _ (by simp)) hp hh (ih fun x hx => hsub x (mem_cons_of_mem _ hx))

omit h

lemma of_append (h : L.Branch S root base (k ++ l)) (hne : l ≠ []) : L.Branch S root base l := by
  induction k with
  | nil => exact h
  | cons b k ih =>
    rw [cons_append] at h
    generalize hm : k ++ l = m at h
    cases h with
    | bottom =>
      simp at hm
      exact absurd hm.2 hne
    | link _ _ _ h =>
      apply ih
      rw [hm]
      exact h

lemma height_cons (h : L.Branch S root base (b :: l)) : L.height b = base + l.length + 1 := by
  induction l generalizing b with
  | nil =>
    cases h with
    | bottom _ _ hh => simpa using hh
  | cons p l ih =>
    cases h with
    | link _ _ hh h =>
      rw [hh, ih h, length_cons]
      omega

lemma height_split (h : L.Branch S root base (k ++ x :: l)) : L.height x = base + l.length + 1 :=
  (h.of_append (by simp)).height_cons

lemma parent_split {x p : α} (h : L.Branch S root base (k ++ x :: p :: l)) :
    L.parent x = L.ident p ∧ L.height x = L.height p + 1 := by
  cases h.of_append (by simp) with
  | link _ hp hh _ => exact ⟨hp, hh⟩

lemma parent_last (h : L.Branch S root base (l ++ [x])) :
    L.parent x = root ∧ L.height x = base + 1 := by
  cases h.of_append (by simp) with
  | bottom _ hp hh => exact ⟨hp, hh⟩

variable (h : L.Branch S root base l)
include h

lemma eq_of_height {x y : α} (hx : x ∈ l) (hy : y ∈ l) (hxy : L.height x = L.height y) : x = y := by
  obtain ⟨a₁, a₂, ha⟩ := append_of_mem hx
  obtain ⟨b₁, b₂, hb⟩ := append_of_mem hy
  have hlx : L.height x = base + a₂.length + 1 := (ha ▸ h).height_split
  have hly : L.height y = base + b₂.length + 1 := (hb ▸ h).height_split
  have hlen : a₂.length = b₂.length := by omega
  have hsplit := append_inj' (ha.symm.trans hb) (by simp [hlen])
  exact (cons_eq_cons.mp hsplit.2).1

omit h in
lemma exists_height (h : L.Branch S root base (b :: l)) {n : Nat}
    (hlow : base < n) (hhigh : n ≤ L.height b) : ∃ x ∈ b :: l, L.height x = n := by
  induction l generalizing b with
  | nil =>
    have hh := h.height_cons
    exact ⟨b, by simp, by simp at hh; omega⟩
  | cons p l ih =>
    by_cases hn : n = L.height b
    · exact ⟨b, by simp, hn.symm⟩
    cases h with
    | link _ _ hh h =>
      obtain ⟨x, hx, hxn⟩ := ih h (by omega)
      exact ⟨x, mem_cons_of_mem _ hx, hxn⟩

omit h in
lemma height_le (h : L.Branch S root base (b :: l)) (hx : x ∈ b :: l) :
    L.height x ≤ L.height b := by
  obtain ⟨l₁, l₂, hl⟩ := append_of_mem hx
  have hhx : L.height x = base + l₂.length + 1 := (hl ▸ h).height_split
  have hhb := h.height_cons
  have hlen := congrArg List.length hl
  rw [length_cons, length_append, length_cons] at hlen
  omega

lemma base_lt_height (hx : x ∈ l) : base < L.height x := by
  obtain ⟨l₁, l₂, rfl⟩ := append_of_mem hx
  have hhx := h.height_split
  omega

omit h in
lemma height_lt_of_tail (h : L.Branch S root base (b :: l))
    (hx : x ∈ l) : L.height x < L.height b := by
  cases h with
  | bottom => simp at hx
  | link _ _ hh h =>
    have hle := h.height_le hx
    omega

lemma nodup : l.Nodup := by
  induction h with
  | bottom => exact nodup_singleton _
  | link hb hp hh hl ih =>
    refine nodup_cons.mpr ⟨?_, ih⟩
    intro hmem
    have hlt := (Branch.link hb hp hh hl).height_lt_of_tail hmem
    omega

lemma length_le : l.length ≤ S.length :=
  (subperm_of_subset h.nodup h.mem).length_le

omit h

lemma above_bottom (hl : L.Branch S root base (l ++ [x]))
    (hne : l ≠ []) (hsub : ∀ y ∈ l, y ∈ S') : L.Branch S' (L.ident x) (base + 1) l := by
  induction l with
  | nil => exact absurd rfl hne
  | cons b l ih =>
    cases l with
    | nil =>
      have hp := parent_split (k := []) hl
      have hx := parent_last (l := [b]) hl
      exact .bottom (hsub b (by simp)) hp.1 (by omega)
    | cons p l =>
      have hp := parent_split (k := []) hl
      have hpl : L.Branch S root base (p :: l ++ [x]) := of_append (k := [b]) hl (by simp)
      exact .link (hsub b (by simp)) hp.1 hp.2
        (ih hpl (by simp) fun y hy => hsub y (mem_cons_of_mem _ hy))

lemma ancestor {T : α → Prop} (h : L.Branch S root base (b :: l))
    (hT : ∀ a ∈ S, T a) (hx : x ∈ b :: l) : L.Ancestor T x b := by
  induction l generalizing b with
  | nil =>
    rw [mem_singleton.mp hx]
    exact .refl
  | cons p l ih =>
    rcases mem_cons.mp hx with rfl | hx
    · exact .refl
    · cases h with
      | link _ hp _ h => exact .head ⟨hT p (h.mem p (by simp)), hp⟩ (ih h hx)

end Branch

namespace Rooted
variable (h : L.Rooted S root base)
include h

lemma eq_of_ident (ha : a ∈ S) (hb : b ∈ S) (hab : L.ident a = L.ident b) : a = b :=
  inj_on_of_nodup_map h.unique ha hb hab

variable {roots E : ι → Prop}

lemma base_lt (hb : b ∈ S) : base < L.height b := by
  induction hn : L.height b using Nat.strongRecOn generalizing b with
  | _ n ih =>
    rcases h.linked b hb with ⟨-, hh⟩ | ⟨p, hp, -, hh⟩
    · omega
    · have hlt := ih (L.height p) (by omega) hp rfl
      omega

lemma parent_of_lowest (hb : b ∈ S) (hheight : L.height b = base + 1) : L.parent b = root := by
  rcases h.linked b hb with ⟨hp, -⟩ | ⟨p, hp, -, hh⟩
  · exact hp
  · have hlow := h.base_lt hp
    omega

lemma exists_branch (hb : b ∈ S) : ∃ l, L.Branch S root base (b :: l) := by
  induction hn : L.height b using Nat.strongRecOn generalizing b with
  | _ n ih =>
    rcases h.linked b hb with ⟨hp, hh⟩ | ⟨p, hp, hpar, hh⟩
    · exact ⟨[], .bottom hb hp hh⟩
    · obtain ⟨l, hl⟩ := ih (L.height p) (by omega) hp rfl
      exact ⟨p :: l, .link hb hpar hh hl⟩

lemma branch_unique {l l' : List α} (hl : L.Branch S root base (b :: l))
    (hl' : L.Branch S root base (b :: l')) : l = l' := by
  have hlen : l.length = l'.length := by
    have hh := hl.height_cons
    have hh' := hl'.height_cons
    omega
  induction l generalizing b l' with
  | nil => exact (length_eq_zero_iff.mp hlen.symm).symm
  | cons p l ih =>
    cases l' with
    | nil => simp at hlen
    | cons q l' =>
      cases hl with
      | link _ hp _ hl =>
        cases hl' with
        | link _ hq _ hl' =>
          have hpq : p = q :=
            h.eq_of_ident (hl.mem p (by simp)) (hl'.mem q (by simp)) (hp.symm.trans hq)
          subst hpq
          rw [ih hl hl' (by simpa using hlen)]

lemma branch_tail_eq {k₁ k₂ l₁ l₂ : List α} (hk : L.Branch S root base (k₁ ++ x :: k₂))
    (hl : L.Branch S root base (l₁ ++ x :: l₂)) : k₂ = l₂ :=
  h.branch_unique (hk.of_append (by simp)) (hl.of_append (by simp))

lemma common_bottom {x z : α} (hk : L.Branch S root base k)
    (hl : L.Branch S root base (l ++ [x])) (hzk : z ∈ k) (hzl : z ∈ l) :
    ∃ k₀, k = k₀ ++ [x] ∧ z ∈ k₀ := by
  obtain ⟨k₁, k₂, rfl⟩ := append_of_mem hzk
  obtain ⟨l₁, l₂, rfl⟩ := append_of_mem hzl
  rw [append_assoc, cons_append] at hl
  refine ⟨k₁ ++ z :: l₂, ?_, by simp⟩
  rw [h.branch_tail_eq hk hl, append_assoc, cons_append]

lemma mem_of_ancestor (hl : L.Branch S root base (b :: l))
    (hx : L.Ancestor (fun a => a ∈ S) x b) : x ∈ b :: l := by
  apply hx.closed (P := fun a => a ∈ b :: l) (by simp)
  intro c p hc hp hcp
  obtain ⟨k, m, hkm⟩ := append_of_mem hc
  rw [hkm] at hl ⊢
  cases m with
  | nil => exact absurd (hcp.symm.trans hl.parent_last.1) (h.outside p hp)
  | cons q m =>
    have hq : p = q := h.eq_of_ident hp (hl.mem q (by simp)) (hcp.symm.trans hl.parent_split.1)
    simp [hq]

lemma perm (hS : S.Perm S') : L.Rooted S' root base where
  unique := (hS.map L.ident).nodup_iff.mp h.unique
  outside := fun b hb => h.outside b (hS.mem_iff.mpr hb)
  linked := by
    intro b hb
    rcases h.linked b (hS.mem_iff.mpr hb) with hbot | ⟨p, hp, hpar⟩
    · exact .inl hbot
    · exact .inr ⟨p, hS.mem_iff.mp hp, hpar⟩

lemma insert {n p : α} (hp : p ∈ S) (hpar : L.parent n = L.ident p)
    (hh : L.height n = L.height p + 1) (hfresh : ∀ b ∈ S, L.ident b ≠ L.ident n)
    (hroot : L.ident n ≠ root) : L.Rooted (n :: S) root base where
  unique := by
    rw [map_cons, nodup_cons]
    refine ⟨?_, h.unique⟩
    intro hmem
    obtain ⟨b, hb, hbn⟩ := mem_map.mp hmem
    exact hfresh b hb hbn
  outside := by
    intro b hb
    rcases mem_cons.mp hb with rfl | hb
    · exact hroot
    · exact h.outside b hb
  linked := by
    intro b hb
    rcases mem_cons.mp hb with rfl | hb
    · exact .inr ⟨p, mem_cons_of_mem _ hp, hpar, hh⟩
    · rcases h.linked b hb with hbot | ⟨q, hq, hrest⟩
      · exact .inl hbot
      · exact .inr ⟨q, mem_cons_of_mem _ hq, hrest⟩

lemma of_cut (hE : L.Cut S roots E)
    (hS' : ∀ b, b ∈ S' ↔ b ∈ S ∧ ¬ E (L.ident b)) (hunique : (S'.map L.ident).Nodup) :
    L.Rooted S' root base where
  unique := hunique
  outside := fun b hb => h.outside b ((hS' b).mp hb).1
  linked := by
    intro b hb
    obtain ⟨hbS, hbE⟩ := (hS' b).mp hb
    rcases h.linked b hbS with hbot | ⟨p, hp, hpar, hh⟩
    · exact .inl hbot
    · refine .inr ⟨p, (hS' p).mpr ⟨hp, ?_⟩, hpar, hh⟩
      intro hpE
      exact hbE (hE.closed b hbS (hpar ▸ hpE))

lemma cut_iff (hE : L.Cut S roots E) (hl : L.Branch S root base (b :: l)) :
    E (L.ident b) ↔ ∃ x ∈ b :: l, roots (L.ident x) := by
  have hbS := hl.mem b (by simp)
  induction l generalizing b with
  | nil =>
    cases hl with
    | bottom _ hpar _ =>
      constructor
      · intro hb
        rcases hE.grounded b hbS hb with hr | ⟨p, hp, hpp, -⟩
        · exact ⟨b, by simp, hr⟩
        · exact absurd (hpp.symm.trans hpar) (h.outside p hp)
      intro hx
      obtain ⟨x, hx, hr⟩ := hx
      rw [mem_singleton.mp hx] at hr
      exact hE.contains _ hr
  | cons p l ih =>
    cases hl with
    | link _ hpar _ hl =>
      have hpS := hl.mem p (by simp)
      have hrec := ih hl hpS
      constructor
      · intro hb
        rcases hE.grounded b hbS hb with hr | ⟨q, hq, hqp, hqE⟩
        · exact ⟨b, by simp, hr⟩
        have hpq : q = p := h.eq_of_ident hq hpS (hqp.symm.trans hpar)
        subst hpq
        obtain ⟨x, hx, hr⟩ := hrec.mp hqE
        exact ⟨x, mem_cons_of_mem _ hx, hr⟩
      intro hx
      obtain ⟨x, hx, hr⟩ := hx
      rcases mem_cons.mp hx with rfl | hx
      · exact hE.contains _ hr
      · exact hE.closed b hbS (hpar ▸ hrec.mpr ⟨x, hx, hr⟩)

lemma not_cut_iff {E : ι → Prop} (hx : x ∈ S)
    (hheight : L.height x = base + 1) (hS' : ∀ b, b ∈ S' ↔ b ∈ S ∧ b ≠ x)
    (hE : L.Cut S' (fun i => ∃ y ∈ S', L.height y = base + 1 ∧ L.ident y = i) E)
    (hb : b ∈ S') : ¬ E (L.ident b) ↔ ∃ l, L.Branch S root base (b :: l ++ [x]) := by
  have hbS := ((hS' b).mp hb).1
  obtain ⟨m, hm⟩ := h.exists_branch hbS
  induction m generalizing b with
  | nil =>
    have hbh : L.height b = base + 1 := hm.height_cons
    constructor
    · intro hnot
      exact absurd (hE.contains _ ⟨b, hb, hbh, rfl⟩) hnot
    intro hbr
    obtain ⟨l, hl⟩ := hbr
    have hnil := h.branch_unique hm hl
    simp at hnil
  | cons p m ih =>
    have hlink := Branch.parent_split (k := []) hm
    have hpm : L.Branch S root base (p :: m) := Branch.of_append (k := [b]) hm (by simp)
    have hpS := hpm.mem p (by simp)
    have hplow := h.base_lt hpS
    have hnotroot : ¬ ∃ y ∈ S', L.height y = base + 1 ∧ L.ident y = L.ident b := by
      intro hy
      obtain ⟨y, hy, hyh, hyb⟩ := hy
      have hyb' : y = b := h.eq_of_ident ((hS' y).mp hy).1 hbS hyb
      subst hyb'
      omega
    have hparent : E (L.ident b) → p ≠ x ∧ E (L.ident p) := by
      intro hbE
      rcases hE.grounded b hb hbE with hr | ⟨q, hq, hpar, hqE⟩
      · exact absurd hr hnotroot
      · have hqp : q = p := h.eq_of_ident ((hS' q).mp hq).1 hpS (hpar.symm.trans hlink.1)
        subst hqp
        exact ⟨((hS' q).mp hq).2, hqE⟩
    by_cases hpx : p = x
    · subst hpx
      have hnil : m = [] := by
        have hmh := hpm.height_cons
        apply length_eq_zero_iff.mp
        omega
      subst hnil
      constructor
      · intro _
        exact ⟨[], hm⟩
      · intro _ hbE
        exact (hparent hbE).1 rfl
    have hpS' : p ∈ S' := (hS' p).mpr ⟨hpS, hpx⟩
    have hrec := ih hpS' hpS hpm
    constructor
    · intro hnot
      have hpnot : ¬ E (L.ident p) := by
        intro hpE
        exact hnot (hE.closed b hb (hlink.1 ▸ hpE))
      obtain ⟨l, hl⟩ := hrec.mp hpnot
      exact ⟨p :: l, .link hbS hlink.1 hlink.2 hl⟩
    intro hbr hbE
    obtain ⟨l, hl⟩ := hbr
    have heq := h.branch_unique hm hl
    cases l with
    | nil =>
      have hpx' : p = x := (cons_eq_cons.mp heq).1
      exact hpx hpx'
    | cons q l =>
      have hq : p = q := (cons_eq_cons.mp heq).1
      subst hq
      have hpl : L.Branch S root base (p :: l ++ [x]) := Branch.of_append (k := [b]) hl (by simp)
      exact hrec.mpr ⟨l, hpl⟩ (hparent hbE).2

lemma above_bottom (hx : x ∈ S) (hheight : L.height x = base + 1)
    (hS' : ∀ b, b ∈ S' ↔ b ∈ S ∧ ∃ l, L.Branch S root base (b :: l ++ [x]))
    (hunique : (S'.map L.ident).Nodup) : L.Rooted S' (L.ident x) (base + 1) where
  unique := hunique
  outside := by
    intro b hb heq
    obtain ⟨hbS, l, hl⟩ := (hS' b).mp hb
    have hbx : b = x := h.eq_of_ident hbS hx heq
    rw [cons_append] at hl
    have hh := hl.height_cons
    rw [hbx, length_append, length_singleton] at hh
    omega
  linked := by
    intro b hb
    obtain ⟨hbS, l, hl⟩ := (hS' b).mp hb
    cases l with
    | nil =>
      have hp := Branch.parent_split (k := []) hl
      exact .inl ⟨hp.1, by omega⟩
    | cons p l =>
      have hp := Branch.parent_split (k := []) hl
      have hpl : L.Branch S root base (p :: l ++ [x]) := Branch.of_append (k := [b]) hl (by simp)
      exact .inr ⟨p, (hS' p).mpr ⟨hpl.mem p (by simp), l, hpl⟩, hp⟩

end Rooted

lemma Cut.comp {R₁ R₂ E₁ E₂ : ι → Prop} (h₁ : L.Cut S R₁ E₁) (h₂ : L.Cut S' R₂ E₂)
    (hS' : ∀ b, b ∈ S' ↔ b ∈ S ∧ ¬ E₁ (L.ident b)) :
    L.Cut S (fun i => R₁ i ∨ R₂ i) (fun i => E₁ i ∨ E₂ i) where
  contains := by
    intro i hi
    rcases hi with hi | hi
    · exact .inl (h₁.contains i hi)
    · exact .inr (h₂.contains i hi)
  closed := by
    intro b hb hp
    by_cases hb₁ : E₁ (L.ident b)
    · exact .inl hb₁
    · rcases hp with hp | hp
      · exact absurd (h₁.closed b hb hp) hb₁
      · exact .inr (h₂.closed b ((hS' b).mpr ⟨hb, hb₁⟩) hp)
  grounded := by
    intro b hb hbE
    by_cases hb₁ : E₁ (L.ident b)
    · rcases h₁.grounded b hb hb₁ with hr | ⟨p, hp, hpar, hpE⟩
      · exact .inl (.inl hr)
      · exact .inr ⟨p, hp, hpar, .inl hpE⟩
    have hb₂ := hbE.resolve_left hb₁
    rcases h₂.grounded b ((hS' b).mpr ⟨hb, hb₁⟩) hb₂ with hr | ⟨p, hp, hpar, hpE⟩
    · exact .inl (.inr hr)
    · exact .inr ⟨p, ((hS' p).mp hp).1, hpar, .inr hpE⟩

def Forest (L : Links α ι) (S : List α) : Prop :=
  WellFounded fun p c => p ∈ S ∧ c ∈ S ∧ L.parent c = L.ident p

lemma Cut.iff_ancestor {E : ι → Prop} (hE : L.Cut S (fun i => i = L.ident x) E)
    (hforest : L.Forest S) (hunique : (S.map L.ident).Nodup) (hx : x ∈ S) (hb : b ∈ S) :
    E (L.ident b) ↔ L.Ancestor (fun c => c ∈ S) x b := by
  constructor
  · intro hbE
    induction b using hforest.induction with
    | h b ih =>
    rcases hE.grounded b hb hbE with hself | ⟨p, hp, hpar, hpE⟩
    · rw [inj_on_of_nodup_map hunique hb hx hself]
      exact .refl
    · exact .head ⟨hp, hpar⟩ (ih p ⟨hp, hb, hpar⟩ hp hpE)
  intro hanc
  induction hanc using Relation.ReflTransGen.head_induction_on with
  | refl => exact hE.contains _ rfl
  | head hstep _ ih =>
    apply hE.closed _ hb
    rw [hstep.2]
    exact ih hstep.1

inductive Path (L : Links α ι) (S : List α) : α → List α → α → Prop where
  | single {a : α} : a ∈ S → Path L S a [a] a
  | step {a p x : α} {l : List α} : a ∈ S → L.parent a = L.ident p →
      L.height a = L.height p + 1 → Path L S p l x → Path L S a (a :: l) x

namespace Path
variable {y z : α} {m : List α} (h : L.Path S a l x)
include h

lemma head? : l.head? = some a := by
  cases h with
  | single => rfl
  | step => rfl

lemma getLast? : l.getLast? = some x := by
  induction h with
  | single => rfl
  | step _ _ _ _ ih => rw [List.getLast?_cons, ih, Option.getD_some]

lemma mem : ∀ y ∈ l, y ∈ S := by
  induction h with
  | single ha => simpa using ha
  | step ha _ _ _ ih => exact forall_mem_cons.mpr ⟨ha, ih⟩

lemma mem_first : a ∈ S := h.mem a (List.mem_of_mem_head? h.head?)

lemma height_eq : L.height a + 1 = L.height x + l.length := by
  induction h with
  | single => rfl
  | step _ _ hh _ ih =>
    rw [length_cons]
    omega

lemma isChain : l.IsChain fun c p => L.parent c = L.ident p := by
  induction h with
  | single => exact .singleton _
  | step _ hp _ hl ih =>
    cases hl with
    | single | step => exact isChain_cons_cons.mpr ⟨hp, ih⟩

lemma suffix (hz : z ∈ l) : ∃ k, L.Path S z k x := by
  induction h with
  | single ha =>
    rw [mem_singleton.mp hz]
    exact ⟨_, .single ha⟩
  | step ha hp hh hl ih =>
    rcases mem_cons.mp hz with rfl | hz
    · exact ⟨_, .step ha hp hh hl⟩
    · exact ih hz

lemma height_le (hz : z ∈ l) : L.height x ≤ L.height z := by
  obtain ⟨k, hk⟩ := h.suffix hz
  have hz := hk.height_eq
  have hpos := length_pos_of_mem (mem_of_mem_head? hk.head?)
  omega

lemma height_ge (hz : z ∈ l) : L.height z ≤ L.height a := by
  induction h with
  | single => exact Nat.le_of_eq (congrArg L.height (mem_singleton.mp hz))
  | step _ _ hh _ ih =>
    rcases mem_cons.mp hz with rfl | hz
    · exact Nat.le_refl _
    · have hle := ih hz
      omega

lemma nodup : l.Nodup := by
  induction h with
  | single => exact nodup_singleton _
  | step _ _ hh hl ih =>
    refine nodup_cons.mpr ⟨?_, ih⟩
    intro hmem
    have hle := hl.height_ge hmem
    omega

lemma length_le : l.length ≤ S.length :=
  (subperm_of_subset h.nodup h.mem).length_le

omit h

lemma unique (hS : (S.map L.ident).Nodup) (hl : L.Path S a l x) (hm : L.Path S a m y)
    (hlen : l.length = m.length) : l = m := by
  induction hl generalizing m with
  | single =>
    cases hm with
    | single => rfl
    | step _ _ _ hm =>
      have hpos := length_pos_of_mem (mem_of_mem_head? hm.head?)
      rw [length_singleton, length_cons] at hlen
      omega
  | step _ hp _ hl ih =>
    cases hm with
    | single =>
      have hpos := length_pos_of_mem (mem_of_mem_head? hl.head?)
      rw [length_singleton, length_cons] at hlen
      omega
    | step _ hq _ hm =>
      have hpq := inj_on_of_nodup_map hS hl.mem_first hm.mem_first (hp.symm.trans hq)
      subst hpq
      rw [ih hm (by simpa using hlen)]

lemma disjoint (hS : (S.map L.ident).Nodup) (hl : L.Path S a l x) (hm : L.Path S b m y)
    (hheight : L.height x = L.height y) (hne : x ≠ y) : l.Disjoint m := by
  intro z hzl hzm
  obtain ⟨k, hk⟩ := hl.suffix hzl
  obtain ⟨k', hk'⟩ := hm.suffix hzm
  have hlen : k.length = k'.length := by
    have hz := hk.height_eq
    have hz' := hk'.height_eq
    omega
  have hkk := hk.unique hS hk' hlen
  subst hkk
  exact hne (Option.some.inj (hk.getLast?.symm.trans hk'.getLast?))

lemma of_ancestor (hheight : ∀ c ∈ S, ∀ p ∈ S, L.parent c = L.ident p →
      L.height c = L.height p + 1) (ha : a ∈ S) (h : L.Ancestor (fun b => b ∈ S) x a) :
    ∃ l, L.Path S a l x := by
  induction h using Relation.ReflTransGen.head_induction_on with
  | refl => exact ⟨_, .single ha⟩
  | @head c p hstep _ ih =>
    obtain ⟨l, hl⟩ := ih hstep.1
    exact ⟨c :: l, .step ha hstep.2 (hheight c ha p hstep.1 hstep.2) hl⟩

end Path

end Links

end DimensionChain
