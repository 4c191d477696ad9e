import Mathlib

/-!
# Trees built by pairing neighbours

`level` joins the entries of a list in pairs; an entry without a partner is joined with itself.
`root` repeats this until one entry is left. With the constructor `node` for joining, it builds
the tree whose folding is `root` for every other way of joining. Its leaves are the list filled up
to a power of two, and they determine it. Where joining is injective, so does the root.
-/

namespace DimensionChain

open List

universe u v

inductive PairTree (α : Type u) where
  | leaf (a : α)
  | node (l r : PairTree α)

namespace PairTree
variable {α : Type u} {β : Type v} {s t : PairTree α}

def fold (join : α → α → α) : PairTree α → α
  | leaf a => a
  | node l r => join (l.fold join) (r.fold join)

def leaves : PairTree α → List α
  | leaf a => [a]
  | node l r => l.leaves ++ r.leaves

def Perfect : Nat → PairTree α → Prop
  | 0, leaf _ => True
  | depth + 1, node l r => Perfect depth l ∧ Perfect depth r
  | _, _ => False

def joined (join : α → α → α) : PairTree α → List (α × α)
  | leaf _ => []
  | node l r => (l.fold join, r.fold join) :: (l.joined join ++ r.joined join)

def neighbours : List β → List (β × β)
  | [] => []
  | [a] => [(a, a)]
  | a :: b :: rest => (a, b) :: neighbours rest

def level (join : β → β → β) : List β → List β
  | [] => []
  | [a] => [join a a]
  | a :: b :: rest => join a b :: level join rest

def root (join : β → β → β) (d : β) : Nat → List β → β
  | 0, l => l.headD d
  | fuel + 1, l => if l.length > 1 then root join d fuel (level join l) else l.headD d

def rootPairs (join : β → β → β) : Nat → List β → List (β × β)
  | 0, _ => []
  | fuel + 1, l =>
    if l.length > 1 then neighbours l ++ rootPairs join fuel (level join l) else []

def build (d : α) (l : List α) : PairTree α := root node (leaf d) l.length (l.map leaf)

section Level
variable {join : β → β → β} {l : List β} {γ : Type*} {f : β → γ}

lemma length_level (join : β → β → β) (l : List β) : (level join l).length = (l.length + 1) / 2 := by
  induction l using level.induct with
  | case1 => simp [level]
  | case2 a => simp [level]
  | case3 a b rest ih =>
    simp only [level, length_cons, ih]
    omega

lemma mem_level {x : β} (h : x ∈ level join l) : ∃ p ∈ neighbours l, x = join p.1 p.2 := by
  induction l using level.induct with
  | case1 => cases h
  | case2 a => exact ⟨(a, a), mem_cons_self, mem_singleton.mp h⟩
  | case3 a b rest ih =>
    rcases mem_cons.mp h with rfl | h
    · exact ⟨(a, b), mem_cons_self, rfl⟩
    · obtain ⟨p, hp, rfl⟩ := ih h
      exact ⟨p, mem_cons_of_mem _ hp, rfl⟩

lemma mem_of_mem_neighbours {p : β × β} (h : p ∈ neighbours l) : p.1 ∈ l ∧ p.2 ∈ l := by
  induction l using neighbours.induct with
  | case1 => cases h
  | case2 a =>
    rw [mem_singleton.mp h]
    exact ⟨mem_cons_self, mem_cons_self⟩
  | case3 a b rest ih =>
    rcases mem_cons.mp h with rfl | h
    · exact ⟨mem_cons_self, mem_cons_of_mem a mem_cons_self⟩
    · obtain ⟨h₁, h₂⟩ := ih h
      exact ⟨mem_cons_of_mem a (mem_cons_of_mem b h₁),
        mem_cons_of_mem a (mem_cons_of_mem b h₂)⟩

lemma map_neighbours (f : β → γ) (l : List β) :
    (neighbours l).map (Prod.map f f) = neighbours (l.map f) := by
  induction l using neighbours.induct with
  | case1 => rfl
  | case2 a => rfl
  | case3 a b rest ih => simp [neighbours, ih]

lemma map_level {join' : γ → γ → γ} (hf : ∀ a b, f (join a b) = join' (f a) (f b)) (l : List β) :
    (level join l).map f = level join' (l.map f) := by
  induction l using level.induct with
  | case1 => rfl
  | case2 a => simp [level, hf]
  | case3 a b rest ih => simp [level, hf, ih]

lemma map_root {join' : γ → γ → γ}
    (hf : ∀ a b, f (join a b) = join' (f a) (f b)) (d : β) (fuel : Nat) (l : List β) :
    f (root join d fuel l) = root join' (f d) fuel (l.map f) := by
  induction fuel generalizing l with
  | zero => cases l <;> rfl
  | succ fuel ih =>
    simp only [root, length_map]
    split
    · rw [ih, map_level hf]
    · cases l <;> rfl

lemma level_ne_nil (h : l.length > 1) : level join l ≠ [] := by
  intro hnil
  have hlen := length_level join l
  rw [hnil, length_nil] at hlen
  omega

end Level

lemma fold_build (join : α → α → α) (d : α) (l : List α) :
    (build d l).fold join = root join d l.length l := by
  unfold build
  rw [map_root (f := fold join) (fun _ _ => rfl), map_map]
  congr 1
  exact map_id l

section Joined
variable {join : α → α → α} {J : α × α → Prop}

lemma joined_root (d : α) (fuel : Nat) {ts : List (PairTree α)}
    (hts : ∀ t ∈ ts, ∀ p ∈ t.joined join, J p)
    (hJ : ∀ p ∈ rootPairs join fuel (ts.map (fold join)), J p) :
    ∀ p ∈ (root node (leaf d) fuel ts).joined join, J p := by
  have hhead : ∀ {ts : List (PairTree α)}, (∀ t ∈ ts, ∀ p ∈ t.joined join, J p) →
      ∀ p ∈ (ts.headD (leaf d)).joined join, J p := by
    intro ts hts
    cases ts with
    | nil => simp [joined]
    | cons t ts => exact hts t mem_cons_self
  induction fuel generalizing ts with
  | zero => exact hhead hts
  | succ fuel ih =>
    simp only [root, rootPairs, length_map] at hJ ⊢
    split at hJ
    · rename_i hlen
      rw [if_pos hlen]
      have hnext : (level node ts).map (fold join) = level join (ts.map (fold join)) :=
        map_level (fun _ _ => rfl) ts
      rw [← hnext, ← map_neighbours] at hJ
      apply ih
      · intro t ht p hp
        obtain ⟨⟨a, b⟩, hab, rfl⟩ := mem_level ht
        obtain ⟨ha, hb⟩ := mem_of_mem_neighbours hab
        rcases mem_cons.mp hp with rfl | hp
        · exact hJ _ (mem_append_left _ (mem_map_of_mem hab))
        · rcases mem_append.mp hp with hp | hp
          · exact hts a ha p hp
          · exact hts b hb p hp
      · intro p hp
        exact hJ p (mem_append_right _ hp)
    · rename_i hlen
      rw [if_neg hlen]
      exact hhead hts

lemma joined_build (d : α) (l : List α) :
    ∀ p ∈ (build d l).joined join, p ∈ rootPairs join l.length l := by
  apply joined_root
  · intro t ht p hp
    obtain ⟨a, -, rfl⟩ := mem_map.mp ht
    cases hp
  · intro p hp
    rw [map_map] at hp
    rwa [show l.map (fold join ∘ leaf) = l from map_id l] at hp

lemma eq_of_fold {L : α → Prop} (hinj : ∀ p q, J p → J q → join p.1 p.2 = join q.1 q.2 → p = q)
    (hsep : ∀ x p, L x → J p → x ≠ join p.1 p.2)
    (hs : ∀ p ∈ s.joined join, J p) (ht : ∀ p ∈ t.joined join, J p)
    (hsL : ∀ x ∈ s.leaves, L x) (htL : ∀ x ∈ t.leaves, L x)
    (h : s.fold join = t.fold join) : s = t := by
  induction s generalizing t with
  | leaf a =>
    cases t with
    | leaf b => exact congrArg leaf h
    | node l r =>
      exact absurd h (hsep a _ (hsL a (mem_singleton_self a)) (ht _ mem_cons_self))
  | node l r ihl ihr =>
    cases t with
    | leaf b =>
      exact absurd h.symm (hsep b _ (htL b (mem_singleton_self b)) (hs _ mem_cons_self))
    | node l' r' =>
      have hpair := hinj _ _ (hs _ mem_cons_self) (ht _ mem_cons_self) h
      obtain ⟨hl, hr⟩ := Prod.mk.inj hpair
      have hleft := ihl
        (fun p hp => hs p (mem_cons_of_mem _ (mem_append_left _ hp)))
        (fun p hp => ht p (mem_cons_of_mem _ (mem_append_left _ hp)))
        (fun x hx => hsL x (mem_append_left _ hx))
        (fun x hx => htL x (mem_append_left _ hx)) hl
      have hright := ihr
        (fun p hp => hs p (mem_cons_of_mem _ (mem_append_right _ hp)))
        (fun p hp => ht p (mem_cons_of_mem _ (mem_append_right _ hp)))
        (fun x hx => hsL x (mem_append_right _ hx))
        (fun x hx => htL x (mem_append_right _ hx)) hr
      rw [hleft, hright]

end Joined

/-- A list of blocks of one size, each level of which is made even by repeating its last block. -/
def fillFrom : Nat → Nat → List α → List α
  | 0, _, l => l
  | fuel + 1, size, l =>
    if l.length ≤ size then l
    else fillFrom fuel (2 * size)
      (if l.length / size % 2 = 1 then l ++ l.drop (l.length - size) else l)

/-- The list filled up to a power of two: while the number of its entries, pairs, groups of
four and so on is odd and more than one, the last of them is repeated. -/
def filled (d : α) (l : List α) : List α :=
  match l with
  | [] => [d]
  | l => fillFrom l.length 1 l

lemma prefix_fillFrom (fuel size : Nat) (l : List α) :
    l <+: fillFrom fuel size l := by
  induction fuel generalizing size l with
  | zero => exact prefix_rfl
  | succ fuel ih =>
    unfold fillFrom
    split
    · exact prefix_rfl
    apply IsPrefix.trans _ (ih _ _)
    split
    · exact prefix_append l _
    · exact prefix_rfl

variable {ts : List (PairTree α)} {depth : Nat}

lemma Perfect.length_leaves {t : PairTree α} (h : t.Perfect depth) :
    t.leaves.length = 2 ^ depth := by
  induction t generalizing depth with
  | leaf a =>
    cases depth with
    | zero => rfl
    | succ depth => cases h
  | node l r ihl ihr =>
    cases depth with
    | zero => cases h
    | succ depth =>
      simp only [leaves, length_append, ihl h.1, ihr h.2, Nat.pow_succ]
      omega

lemma Perfect.eq_of_leaves (hs : s.Perfect depth)
    (ht : t.Perfect depth) (h : s.leaves = t.leaves) : s = t := by
  induction depth generalizing s t with
  | zero =>
    cases s with
    | node l r => cases hs
    | leaf a =>
      cases t with
      | node l r => cases ht
      | leaf b => exact congrArg leaf (cons_eq_cons.mp h).1
  | succ depth ih =>
    cases s with
    | leaf a => cases hs
    | node l r =>
      cases t with
      | leaf b => cases ht
      | node l' r' =>
        have hlen : l.leaves.length = l'.leaves.length := by
          rw [hs.1.length_leaves, ht.1.length_leaves]
        obtain ⟨hl, hr⟩ := append_inj h hlen
        rw [ih hs.1 ht.1 hl, ih hs.2 ht.2 hr]

variable (h : ∀ t ∈ ts, t.Perfect depth)
include h

lemma length_flatMap_leaves : (ts.flatMap leaves).length = ts.length * 2 ^ depth := by
  induction ts with
  | nil => simp
  | cons t ts ih =>
    rw [flatMap_cons, length_append, (h t mem_cons_self).length_leaves,
      ih fun x hx => h x (mem_cons_of_mem t hx), length_cons, Nat.succ_mul]
    omega

lemma flatMap_level : (level node ts).flatMap leaves = if ts.length % 2 = 1 then
        ts.flatMap leaves ++ (ts.flatMap leaves).drop ((ts.flatMap leaves).length - 2 ^ depth)
      else ts.flatMap leaves := by
  induction ts using level.induct with
  | case1 => simp [level]
  | case2 a =>
    have hlen := (h a mem_cons_self).length_leaves
    simp [level, leaves, hlen]
  | case3 a b rest ih =>
    have hrest : ∀ t ∈ rest, t.Perfect depth := fun t ht => h t (by simp [ht])
    have hflat := length_flatMap_leaves hrest
    simp only [level, flatMap_cons, leaves, ih hrest, length_cons]
    have hparity : (rest.length + 1 + 1) % 2 = rest.length % 2 := by omega
    rw [hparity]
    split
    · have hpos : 1 * 2 ^ depth ≤ rest.length * 2 ^ depth :=
        Nat.mul_le_mul_right _ (by omega)
      -- the last block lies in the rest
      have hdrop : (a.leaves ++ (b.leaves ++ rest.flatMap leaves)).length - 2 ^ depth =
          a.leaves.length + (b.leaves.length + ((rest.flatMap leaves).length - 2 ^ depth)) := by
        simp only [length_append]
        omega
      rw [hdrop, drop_length_add_append, drop_length_add_append]
      simp
    · simp

lemma perfect_level : ∀ t ∈ level node ts, t.Perfect (depth + 1) := by
  intro t ht
  obtain ⟨p, hp, rfl⟩ := mem_level ht
  obtain ⟨h₁, h₂⟩ := mem_of_mem_neighbours hp
  exact ⟨h _ h₁, h _ h₂⟩

omit h

lemma root_filled {depth fuel : Nat} (d : PairTree α)
    (h : ∀ t ∈ ts, t.Perfect depth) (hne : ts ≠ []) (hfuel : ts.length ≤ fuel) :
    (∃ n, (root node d fuel ts).Perfect n) ∧
      (root node d fuel ts).leaves = fillFrom fuel (2 ^ depth) (ts.flatMap leaves) := by
  induction fuel generalizing depth ts with
  | zero => exact absurd (length_eq_zero_iff.mp (Nat.le_zero.mp hfuel)) hne
  | succ fuel ih =>
    have hflat := length_flatMap_leaves h
    have hpow : 0 < 2 ^ depth := Nat.two_pow_pos depth
    simp only [root, fillFrom]
    by_cases hlen : ts.length > 1
    · have hlong : ¬ (ts.flatMap leaves).length ≤ 2 ^ depth := by
        have hmul : 2 * 2 ^ depth ≤ ts.length * 2 ^ depth := Nat.mul_le_mul_right _ hlen
        omega
      have hblocks : (ts.flatMap leaves).length / 2 ^ depth = ts.length := by
        rw [hflat, Nat.mul_div_cancel _ hpow]
      have hnext := length_level node ts
      rw [if_pos hlen, if_neg hlong, hblocks, ← flatMap_level h, ← Nat.pow_succ']
      exact ih (perfect_level h) (level_ne_nil hlen) (by omega)
    obtain ⟨t, rfl⟩ : ∃ t, ts = [t] := by
      apply length_eq_one_iff.mp
      have hpos := length_pos_of_ne_nil hne
      omega
    have ht := h t mem_cons_self
    rw [if_neg hlen, if_pos (by simp [ht.length_leaves])]
    exact ⟨⟨depth, ht⟩, by simp⟩

lemma build_filled (d : α) (l : List α) :
    (∃ n, (build d l).Perfect n) ∧ (build d l).leaves = filled d l := by
  cases l with
  | nil => exact ⟨⟨0, trivial⟩, rfl⟩
  | cons a l =>
    have hleaf : ∀ t ∈ (a :: l).map leaf, t.Perfect 0 := by
      intro t ht
      obtain ⟨x, -, rfl⟩ := mem_map.mp ht
      trivial
    have hfill := root_filled (leaf d) hleaf (by simp) (Nat.le_of_eq (length_map _))
    have hsame : ((a :: l).map leaf).flatMap leaves = a :: l := by
      rw [flatMap_map]
      exact flatMap_singleton' _
    rw [hsame] at hfill
    exact hfill

example : filled 0 [1, 2, 3, 4, 5] = [1, 2, 3, 4, 5, 5, 5, 5] := by decide

lemma build_eq_iff (d : α) (l m : List α) : build d l = build d m ↔ filled d l = filled d m := by
  obtain ⟨⟨n, hn⟩, hl⟩ := build_filled d l
  obtain ⟨⟨k, hk⟩, hm⟩ := build_filled d m
  constructor
  · intro h
    rw [← hl, ← hm, h]
  intro h
  have hleaves : (build d l).leaves = (build d m).leaves := by rw [hl, hm, h]
  have hpow : 2 ^ n = 2 ^ k := by rw [← hn.length_leaves, ← hk.length_leaves, hleaves]
  rw [← (Nat.pow_right_inj (by decide)).mp hpow] at hk
  exact hn.eq_of_leaves hk hleaves

end PairTree

end DimensionChain
