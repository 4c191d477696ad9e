import Mathlib

/-!
# Order statistics by counting

The element at place `k` of a sorted list is at least `x` exactly when at most `k`
elements of the list are below `x`. Sorting is therefore invisible to an argument
that can count.
-/

namespace DimensionChain.OrderStatistic

open List

universe u
variable {α : Type u} [LinearOrder α] {k : Nat} {l : List α}

lemma le_iff_countP_of_sorted {s : List α} (hs : s.Pairwise (· ≤ ·)) {y : α}
    (hk : s[k]? = some y) (x : α) : x ≤ y ↔ s.countP (fun a => a < x) ≤ k := by
  induction s generalizing k with
  | nil => simp at hk
  | cons a s ih =>
    rw [pairwise_cons] at hs
    have hy : y ∈ a :: s := mem_of_getElem? hk
    by_cases hax : a < x
    · cases k with
      | zero =>
        have hya : a = y := by simpa using hk
        subst hya
        simp [hax]
      | succ k =>
        have ht := ih hs.2 (by simpa using hk)
        simp [hax, ht]
    -- nothing in the list is below `x`, and `y` is in the list
    have hxa : x ≤ a := not_lt.mp hax
    have hge : ∀ b ∈ a :: s, x ≤ b := by
      intro b hb
      rcases mem_cons.mp hb with rfl | hb
      · exact hxa
      · exact le_trans hxa (hs.1 b hb)
    have hzero : (a :: s).countP (fun b => b < x) = 0 := by
      rw [countP_eq_zero]
      intro b hb
      simpa using hge b hb
    rw [hzero]
    exact ⟨fun _ => Nat.zero_le k, fun _ => hge y hy⟩

def nthSmallest (l : List α) (k : Nat) (d : α) : α :=
  (l.insertionSort (· ≤ ·))[k]?.getD d

lemma nthSmallest_mem (hk : k < l.length) (d : α) : nthSmallest l k d ∈ l := by
  have hk' : k < (l.insertionSort (· ≤ ·)).length := by simpa using hk
  unfold nthSmallest
  rw [List.getElem?_eq_getElem hk', Option.getD_some]
  exact (mem_insertionSort (· ≤ ·)).mp (getElem_mem hk')

lemma le_nthSmallest_iff (hk : k < l.length) (d x : α) :
    x ≤ nthSmallest l k d ↔ l.countP (fun a => a < x) ≤ k := by
  have hk' : k < (l.insertionSort (· ≤ ·)).length := by simpa using hk
  have hget : (l.insertionSort (· ≤ ·))[k]? = some (nthSmallest l k d) := by
    unfold nthSmallest
    rw [List.getElem?_eq_getElem hk', Option.getD_some]
  rw [le_iff_countP_of_sorted (pairwise_insertionSort (· ≤ ·) l) hget x,
    (perm_insertionSort (· ≤ ·) l).countP_eq]

end DimensionChain.OrderStatistic
