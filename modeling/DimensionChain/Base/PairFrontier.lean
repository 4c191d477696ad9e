import DimensionChain.Base.PairTree

/-!
# Growing a tree of pairs at its end

`pairs` joins the full pairs of a list and leaves out an entry without a partner. The `frontier`
of a list has, from the lowest level up, the entries that are left out; these are all that a
later entry can be joined with. A new entry at the end is the last one of every level.
-/

namespace DimensionChain

open List

universe v

namespace PairTree
variable {β : Type v} {join : β → β → β}

def pairs (join : β → β → β) : List β → List β
  | a :: b :: rest => join a b :: pairs join rest
  | _ => []

lemma length_pairs (join : β → β → β) (l : List β) : (pairs join l).length = l.length / 2 := by
  induction l using level.induct with
  | case1 => simp [pairs]
  | case2 a => simp [pairs]
  | case3 a b rest ih =>
    simp only [pairs, length_cons, ih]
    omega

def unpaired (l : List β) : List β := if l.length % 2 = 1 then l.getLast?.toList else []

def frontier (join : β → β → β) (l : List β) : List β :=
  if l = [] then [] else unpaired l ++ frontier join (pairs join l)
termination_by l.length
decreasing_by
  rw [length_pairs]
  have hpos := List.length_pos_of_ne_nil ‹_›
  omega

@[simp] lemma frontier_nil : frontier join ([] : List β) = [] := by
  rw [frontier, if_pos rfl]

variable {l : List β} (h : l.length % 2 = 0)
include h

lemma pairs_append_even (k : List β) : pairs join (l ++ k) = pairs join l ++ pairs join k ∧
      level join (l ++ k) = pairs join l ++ level join k := by
  induction l using level.induct with
  | case1 => exact ⟨rfl, rfl⟩
  | case2 a => simp at h
  | case3 a b rest ih =>
    have hrest : rest.length % 2 = 0 := by
      simp only [length_cons] at h
      omega
    obtain ⟨hp, hl⟩ := ih hrest
    simp only [cons_append, pairs, level, hp, hl]
    exact ⟨trivial, trivial⟩

lemma frontier_even : frontier join l = frontier join (pairs join l) := by
  by_cases hnil : l = []
  · subst hnil
    rfl
  · rw [frontier, if_neg hnil, unpaired, if_neg (by omega), nil_append]

lemma frontier_snoc_even (x : β) : frontier join (l ++ [x]) = x :: frontier join l := by
  have hodd : (l ++ [x]).length % 2 = 1 := by
    rw [length_append, length_singleton]
    omega
  have hpairs : pairs join (l ++ [x]) = pairs join l :=
    (pairs_append_even h [x]).1.trans (append_nil _)
  rw [frontier, if_neg (by simp), unpaired, if_pos hodd, hpairs, frontier_even h, List.getLast?_append]
  rfl

lemma frontier_snoc_odd (y x : β) :
    frontier join (l ++ [y] ++ [x]) = frontier join (pairs join l ++ [join y x]) := by
  have heven : (l ++ [y] ++ [x]).length % 2 = 0 := by
    simp only [length_append, length_singleton]
    omega
  rw [frontier_even heven, append_assoc]
  exact congrArg _ (pairs_append_even h [y, x]).1

omit h

variable {d : β}

lemma root_fuel {fuel fuel' : Nat} (h : l.length ≤ fuel) (h' : l.length ≤ fuel') :
    root join d fuel l = root join d fuel' l := by
  induction fuel generalizing fuel' l with
  | zero =>
    obtain rfl := length_eq_zero_iff.mp (Nat.le_zero.mp h)
    cases fuel' with
    | zero => rfl
    | succ fuel' => rfl
  | succ fuel ih =>
    cases fuel' with
    | zero =>
      obtain rfl := length_eq_zero_iff.mp (Nat.le_zero.mp h')
      rfl
    | succ fuel' =>
      unfold root
      split
      · have hlen := length_level join l
        exact ih (by omega) (by omega)
      · rfl

lemma root_level (h : 1 < l.length) :
    root join d l.length l = root join d (level join l).length (level join l) := by
  have hlen := length_level join l
  obtain ⟨n, hn⟩ := Nat.exists_eq_succ_of_ne_zero (Nat.ne_of_gt (Nat.zero_lt_of_lt h))
  rw [hn]
  change (if l.length > 1 then root join d n (level join l) else l.headD d) = _
  rw [if_pos h]
  exact root_fuel (by omega) (Nat.le_refl _)

end PairTree

end DimensionChain
