import DimensionChain.Base.FlatMap

/-!
# Sums over the entries of a sorted map

What a sum over a map becomes when one key is set, and when the summed quantity changes at one
key: the two ways in which a total that is kept by differences moves.
-/

namespace DimensionChain.FlatMap

open List

universe u v w
variable {κ : Type u} {ν : Type v} [LinearOrder κ] {M : Type w} {f g : κ → ν → M} {v : ν}

def total [AddCommMonoid M] (m : FlatMap κ ν) (f : κ → ν → M) : M :=
  (m.entries.map fun e => f e.1 e.2).sum

section Monoid
variable [AddCommMonoid M]

lemma total_set (m : FlatMap κ ν) (k : κ) (v : ν) (f : κ → ν → M) :
    (m.set k v).total f = f k v + (m.erase k).total f := by
  unfold total
  rw [((m.perm_set k v).map _).sum_eq, map_cons, sum_cons]

variable {m : FlatMap κ ν} {k : κ}

lemma total_of_find? (h : m.find? k = some v)
    (f : κ → ν → M) : m.total f = f k v + (m.erase k).total f := by
  unfold total
  rw [((perm_erase h).map _).sum_eq, map_cons, sum_cons]

lemma total_of_none (h : m.find? k = none) (f : κ → ν → M) : m.total f = (m.erase k).total f := by
  unfold total
  rw [erase_of_none h]

lemma total_congr (h : ∀ k v, m.find? k = some v → f k v = g k v) : m.total f = m.total g := by
  unfold total
  congr 1
  apply map_congr_left
  rintro ⟨k, v⟩ he
  exact h k v (find?_eq_some.mpr he)

lemma total_eq_zero {f : κ → ν → M} (h : ∀ k v, m.find? k = some v → f k v = 0) :
    m.total f = 0 := by
  rw [total_congr h]
  unfold total
  rw [map_const', sum_replicate, nsmul_zero]

lemma map_total {N : Type*} [AddCommMonoid N] (φ : M →+ N) (m : FlatMap κ ν) (f : κ → ν → M) :
    φ (m.total f) = m.total fun k v => φ (f k v) := by
  unfold total
  rw [map_list_sum, map_map]
  rfl

end Monoid

section Group
variable [AddCommGroup M] (m : FlatMap κ ν) {c : Prop}
include m

lemma total_set_sub (k : κ) (v : ν) (f : κ → ν → M) :
    (m.set k v).total f = m.total f + (f k v - ((m.find? k).map (f k)).getD 0) := by
  rw [total_set]
  cases h : m.find? k with
  | none =>
    rw [total_of_none h]
    simp [add_comm]
  | some old =>
    rw [total_of_find? h]
    simp only [Option.map_some, Option.getD_some]
    abel

lemma total_erase_sub (k : κ) (f : κ → ν → M) :
    (m.erase k).total f = m.total f - ((m.find? k).map (f k)).getD 0 := by
  cases h : m.find? k with
  | none =>
    rw [total_of_none h]
    simp
  | some old =>
    rw [total_of_find? h]
    simp only [Option.map_some, Option.getD_some]
    abel

lemma total_store (k : κ) (v : ν) (f : κ → ν → M) [Decidable c] (hc : c → f k v = 0) :
    (if c then m.erase k else m.set k v).total f =
      m.total f + (f k v - ((m.find? k).map (f k)).getD 0) := by
  by_cases h : c
  · rw [if_pos h, total_erase_sub, hc h]
    abel
  · rw [if_neg h, total_set_sub]

lemma total_store_if (k : κ) (v : ν) (q : κ → Prop) [DecidablePred q]
    (w : ν → M) [Decidable c] (hc : c → w v = 0) :
    (if c then m.erase k else m.set k v).total (fun k v => if q k then w v else 0) =
      m.total (fun k v => if q k then w v else 0) +
        if q k then w v - ((m.find? k).map w).getD 0 else 0 := by
  have hstore := total_store m k v (fun k v => if q k then w v else 0) (c := c) (by
    intro h
    simp only [hc h, ite_self])
  rw [hstore]
  by_cases hk : q k
  · simp only [if_pos hk]
  · simp only [if_neg hk]
    cases m.find? k <;> simp

lemma total_change (k : κ) (hfg : ∀ q v, q ≠ k → f q v = g q v) :
    m.total g = m.total f + ((m.find? k).map fun v => g k v - f k v).getD 0 := by
  have herase : (m.erase k).total g = (m.erase k).total f := by
    refine total_congr fun q v hq => (hfg q v ?_).symm
    rintro rfl
    rw [find?_erase, if_pos rfl] at hq
    cases hq
  cases h : m.find? k with
  | none =>
    rw [total_of_none h, total_of_none h, herase]
    simp
  | some v =>
    rw [total_of_find? h, total_of_find? h, herase]
    simp only [Option.map_some, Option.getD_some]
    abel

end Group

variable [AddCommMonoid M] [PartialOrder M] [IsOrderedAddMonoid M] {m : FlatMap κ ν}

lemma total_nonneg (h : ∀ k v, m.find? k = some v → 0 ≤ f k v) : 0 ≤ m.total f := by
  apply sum_nonneg
  intro x hx
  obtain ⟨⟨k, v⟩, he, rfl⟩ := mem_map.mp hx
  exact h k v (find?_eq_some.mpr he)

lemma le_total (h : ∀ k v, m.find? k = some v → 0 ≤ f k v)
    {k : κ} (hk : m.find? k = some v) : f k v ≤ m.total f := by
  rw [total_of_find? hk]
  refine le_add_of_nonneg_right (total_nonneg ?_)
  intro q w hq
  rw [find?_erase] at hq
  split at hq
  · cases hq
  · exact h q w hq

end DimensionChain.FlatMap
