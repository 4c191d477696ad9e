import Mathlib

/-!
# Sequences ordered by a comparison with ties

An ordered index keeps its elements in the order of a comparison. Equal elements stand in the
order of their insertion. An element that changes keeps its place if it still stands in order with
its neighbours and is inserted anew otherwise. An index with unique keys finds each of its
elements.
-/

namespace DimensionChain

open List

universe u
variable {α : Type u}

structure Precedence (lt : α → α → Prop) : Prop where
  asymm : ∀ a b, lt a b → ¬ lt b a
  negTrans : ∀ a b c, ¬ lt b a → ¬ lt c b → ¬ lt c a

namespace OrderedIndex
variable (lt : α → α → Prop)

def Ordered (l : List α) : Prop := l.Pairwise fun a b => ¬ lt b a

variable {lt} {l : List α} {p : α → Bool} {a b : α}

lemma Ordered.filter (h : Ordered lt l) (p : α → Bool) : Ordered lt (l.filter p) :=
  List.Pairwise.sublist filter_sublist h

lemma Ordered.le_of_head (h : Ordered lt l) (ha : l.head? = some a)
    (hb : b ∈ l) (hself : ¬ lt a a) : ¬ lt b a := by
  cases l with
  | nil => simp at ha
  | cons x l =>
    have hx : x = a := by simpa using ha
    subst hx
    rcases mem_cons.mp hb with rfl | hb
    · exact hself
    · exact (pairwise_cons.mp h).1 b hb

lemma Ordered.le_of_find? (h : Ordered lt l)
    (ha : l.find? p = some a) (hb : b ∈ l) (hp : p b = true) (hself : ¬ lt a a) : ¬ lt b a := by
  obtain ⟨-, k, m, rfl, hk⟩ := List.find?_eq_some_iff_append.mp ha
  rcases mem_append.mp hb with hb | hb
  · have hnot := hk b hb
    simp [hp] at hnot
  rcases mem_cons.mp hb with rfl | hb
  · exact hself
  · have hafter := (pairwise_append.mp h).2.1
    exact (pairwise_cons.mp hafter).1 b hb

lemma Ordered.forall_dropWhile (h : Ordered lt l) (hp : ∀ a b, ¬ lt b a → p a = true → p b = true) :
    ∀ b ∈ l.dropWhile fun a => !p a, p b = true := by
  induction l with
  | nil => simp
  | cons a l ih =>
    obtain ⟨ha, hl⟩ := pairwise_cons.mp h
    by_cases hpa : p a = true
    · rw [dropWhile_cons_of_neg (by simp [hpa])]
      exact forall_mem_cons.mpr ⟨hpa, fun b hb => hp a b (ha b hb) hpa⟩
    · rw [dropWhile_cons_of_pos (by simp [hpa])]
      exact ih hl

lemma head?_filter (ha : l.head? = some a) (hp : p a = true) : (l.filter p).head? = some a := by
  cases l with
  | nil => simp at ha
  | cons x l =>
    have hx : x = a := by simpa using ha
    subst hx
    rw [filter_cons_of_pos hp, List.head?_cons]

variable [DecidableRel lt]

lemma ordered_insert (hlt : Precedence lt) (h : Ordered lt l) (a : α) :
    Ordered lt (l.orderedInsert lt a) := by
  induction l with
  | nil => exact pairwise_singleton _ a
  | cons b l ih =>
    obtain ⟨hb, hl⟩ := pairwise_cons.mp h
    rw [orderedInsert_cons]
    split
    · rename_i hab
      refine pairwise_cons.mpr ⟨?_, h⟩
      intro x hx
      have hba : ¬ lt b a := hlt.asymm a b hab
      rcases mem_cons.mp hx with rfl | hx
      · exact hba
      · exact hlt.negTrans a b x hba (hb x hx)
    rename_i hab
    refine pairwise_cons.mpr ⟨?_, ih hl⟩
    intro x hx
    rcases mem_cons.mp ((perm_orderedInsert lt a l).mem_iff.mp hx) with rfl | hx
    · exact hab
    · exact hb x hx

lemma head?_insert (hb : l.head? = some b) :
    (l.orderedInsert lt a).head? = some (if lt a b then a else b) := by
  cases l with
  | nil => simp at hb
  | cons x l =>
    have hx : x = b := by simpa using hb
    subst hx
    rw [orderedInsert_cons]
    split <;> rfl

/-- The elements before the first one that satisfies `p`, that element, and those after it. -/
def splitAtFirst (p : α → Bool) : List α → Option (List α × α × List α)
  | [] => none
  | x :: l => if p x then some ([], x, l) else
      (splitAtFirst p l).map fun r => (x :: r.1, r.2.1, r.2.2)

lemma splitAtFirst_eq_some {l before after : List α} {x : α}
    (h : splitAtFirst p l = some (before, x, after)) :
    l = before ++ x :: after ∧ p x = true ∧ ∀ y ∈ before, p y = false := by
  induction l generalizing before with
  | nil => simp [splitAtFirst] at h
  | cons y l ih =>
    unfold splitAtFirst at h
    split at h
    · rename_i hy
      obtain ⟨rfl, rfl, rfl⟩ : [] = before ∧ y = x ∧ l = after := by simpa using h
      exact ⟨rfl, hy, by simp⟩
    rename_i hy
    obtain ⟨⟨before', x', after'⟩, hr, heq⟩ := Option.map_eq_some_iff.mp h
    obtain ⟨rfl, rfl, rfl⟩ : y :: before' = before ∧ x' = x ∧ after' = after := by simpa using heq
    obtain ⟨hl, hx, hbefore⟩ := ih hr
    refine ⟨by rw [hl, cons_append], hx, ?_⟩
    intro z hz
    rcases mem_cons.mp hz with rfl | hz
    · simpa using hy
    · exact hbefore z hz

lemma splitAtFirst_eq_none (h : splitAtFirst p l = none) : ∀ y ∈ l, p y = false := by
  induction l with
  | nil => simp
  | cons x l ih =>
    unfold splitAtFirst at h
    split at h
    · simp at h
    rename_i hx
    intro y hy
    rcases mem_cons.mp hy with rfl | hy
    · simpa using hx
    · exact ih (Option.map_eq_none_iff.mp h) y hy

variable (lt)

def InPlace (before : List α) (x : α) (after : List α) : Prop :=
  (∀ y ∈ before.getLast?, ¬ lt x y) ∧ (∀ y ∈ after.head?, ¬ lt y x)

instance (before : List α) (x : α) (after : List α) : Decidable (InPlace lt before x after) :=
  inferInstanceAs (Decidable (_ ∧ _))

def modify (p : α → Bool) (f : α → α) (l : List α) : List α :=
  match splitAtFirst p l with
  | none => l
  | some (before, x, after) =>
    if InPlace lt before (f x) after then before ++ f x :: after
    else (before ++ after).orderedInsert lt (f x)

variable {lt}

lemma perm_modify (p : α → Bool) (f : α → α)
    (hone : l.Pairwise fun a b => ¬ (p a = true ∧ p b = true)) :
    (modify lt p f l).Perm (l.map fun y => if p y then f y else y) := by
  unfold modify
  split
  · rename_i hnone
    have hid : l.map (fun y => if p y then f y else y) = l.map id := by
      apply map_congr_left
      intro y hy
      simp [splitAtFirst_eq_none hnone y hy]
    rw [hid, map_id]
  rename_i before x after hsome
  obtain ⟨rfl, hx, hbefore⟩ := splitAtFirst_eq_some hsome
  have hafter : ∀ y ∈ after, p y = false := by
    intro y hy
    have hxy := (pairwise_cons.mp (pairwise_append.mp hone).2.1).1 y hy
    simpa [hx] using hxy
  have hkeep : ∀ m : List α, (∀ y ∈ m, p y = false) →
      m.map (fun y => if p y then f y else y) = m := by
    intro m hm
    have hid : m.map (fun y => if p y then f y else y) = m.map id := by
      apply map_congr_left
      intro y hy
      simp [hm y hy]
    rw [hid, map_id]
  rw [map_append, map_cons, hkeep before hbefore, hkeep after hafter, if_pos hx]
  split
  · exact List.Perm.refl _
  · exact (perm_orderedInsert lt _ _).trans perm_middle.symm

lemma ordered_modify (hlt : Precedence lt) {f : α → α}
    (h : Ordered lt l) : Ordered lt (modify lt p f l) := by
  unfold modify
  split
  · exact h
  rename_i before x after hsome
  obtain ⟨rfl, -, -⟩ := splitAtFirst_eq_some hsome
  obtain ⟨hb, hxa, hba⟩ := pairwise_append.mp h
  obtain ⟨-, ha⟩ := pairwise_cons.mp hxa
  have hcross : ∀ y ∈ before, ∀ z ∈ after, ¬ lt z y := by
    intro y hy z hz
    exact hba y hy z (mem_cons_of_mem x hz)
  split
  · rename_i hin
    obtain ⟨hleft, hright⟩ := hin
    refine pairwise_append.mpr ⟨hb, pairwise_cons.mpr ⟨?_, ha⟩, ?_⟩
    · intro z hz
      cases after with
      | nil => simp at hz
      | cons y after =>
        have hyx := hright y (by simp)
        rcases mem_cons.mp hz with rfl | hz
        · exact hyx
        · exact hlt.negTrans _ y z hyx ((pairwise_cons.mp ha).1 z hz)
    intro y hy z hz
    rcases mem_cons.mp hz with rfl | hz
    · rcases eq_nil_or_concat before with rfl | ⟨init, last, rfl⟩
      · simp at hy
      rw [concat_eq_append] at hy hb hleft
      have hlx := hleft last (by simp)
      rcases mem_append.mp hy with hy | hy
      · have hyl := (pairwise_append.mp hb).2.2 y hy last (by simp)
        exact hlt.negTrans y last _ hyl hlx
      · rw [mem_singleton.mp hy]
        exact hlx
    · exact hcross y hy z hz
  · exact ordered_insert hlt (pairwise_append.mpr ⟨hb, ha, hcross⟩) _

lemma find?_of_unique {κ : Type*} {key : α → κ} (hl : (l.map key).Nodup)
    (ha : a ∈ l) (hp : ∀ b, p b = true ↔ key b = key a) : l.find? p = some a := by
  cases hfind : l.find? p with
  | none => exact absurd ((hp a).mpr rfl) (List.find?_eq_none.mp hfind a ha)
  | some b =>
    have hkey := (hp b).mp (List.find?_some hfind)
    rw [inj_on_of_nodup_map hl (mem_of_find?_eq_some hfind) ha hkey]

end OrderedIndex

end DimensionChain
