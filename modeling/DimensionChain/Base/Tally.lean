import Mathlib

/-!
# Weighted tallies

A list of weighted factors is walked with a running total until a threshold is reached.
`tally` is the weight of the factors that hold.
-/

namespace DimensionChain.Tally

variable {φ : Type*} (w : φ → Nat) (P Q : φ → Prop)

open Classical in
noncomputable def gain (m : φ) : Nat := if P m then w m else 0

noncomputable def tally (l : List φ) : Nat := (l.map (gain w P)).sum

variable {w P Q} {m : φ}

lemma gain_pos (h : P m) : gain w P m = w m := if_pos h

lemma gain_neg (h : ¬ P m) : gain w P m = 0 := if_neg h

lemma gain_le (m : φ) : gain w P m ≤ w m := by
  unfold gain
  split
  · exact le_refl _
  · exact Nat.zero_le _

lemma gain_mono (h : P m → Q m) : gain w P m ≤ gain w Q m := by
  by_cases hp : P m
  · rw [gain_pos hp, gain_pos (h hp)]
  · rw [gain_neg hp]
    exact Nat.zero_le _

@[simp] lemma tally_nil : tally w P [] = 0 := rfl

@[simp] lemma tally_cons (m : φ) (l : List φ) : tally w P (m :: l) = gain w P m + tally w P l := by
  simp [tally]

lemma tally_mono {l : List φ} (h : ∀ m ∈ l, P m → Q m) : tally w P l ≤ tally w Q l := by
  induction l with
  | nil => exact le_refl _
  | cons m l ih =>
    rw [tally_cons, tally_cons]
    have hm := gain_mono (w := w) (h m (List.mem_cons_self ..))
    have hl := ih fun x hx => h x (List.mem_cons_of_mem m hx)
    omega

lemma tally_perm {l l' : List φ} (h : l.Perm l') : tally w P l = tally w P l' :=
  (h.map (gain w P)).sum_eq

end DimensionChain.Tally
