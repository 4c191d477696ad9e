import Mathlib

/-!
# Signed machine integers as a group

Sums of 64-bit signed integers wrap, so they form a commutative group. A sum, a difference or
a negation whose value fits into 64 bits is exact.
-/

namespace DimensionChain

open Int64

instance instAddCommGroupInt64 : AddCommGroup Int64 where
  add_assoc := Int64.add_assoc
  zero_add := Int64.zero_add
  add_zero := Int64.add_zero
  add_comm := Int64.add_comm
  neg_add_cancel := Int64.add_left_neg
  sub_eq_add_neg := Int64.sub_eq_add_neg
  nsmul := nsmulRec
  zsmul := zsmulRec

def wrapInt64 : Int →+ Int64 where
  toFun := Int64.ofInt
  map_zero' := rfl
  map_add' := Int64.ofInt_add

lemma wrapInt64_toInt (x : Int64) : wrapInt64 x.toInt = x := Int64.ofInt_toInt x

lemma toInt_wrapInt64 {n : Int} (hlow : -2 ^ 63 ≤ n) (hhigh : n < 2 ^ 63) :
    (wrapInt64 n).toInt = n :=
  toInt_ofInt_of_le hlow hhigh

lemma bmod_eq_of_fits {n : Int} (hlow : -2 ^ 63 ≤ n) (hhigh : n < 2 ^ 63) :
    n.bmod (2 ^ 64) = n := by
  apply Int.bmod_eq_of_le
  · omega
  · omega

variable {a b : Int64}

lemma toInt_add_of_fits (hlow : -2 ^ 63 ≤ a.toInt + b.toInt)
    (hhigh : a.toInt + b.toInt < 2 ^ 63) : (a + b).toInt = a.toInt + b.toInt := by
  rw [toInt_add, bmod_eq_of_fits hlow hhigh]

lemma toInt_sub_of_fits (hlow : -2 ^ 63 ≤ a.toInt - b.toInt)
    (hhigh : a.toInt - b.toInt < 2 ^ 63) : (a - b).toInt = a.toInt - b.toInt := by
  rw [toInt_sub, bmod_eq_of_fits hlow hhigh]

lemma toInt_neg_of_fits {a : Int64} (hlow : -2 ^ 63 < a.toInt) : (-a).toInt = -a.toInt := by
  have hhigh := toInt_lt a
  rw [toInt_neg, bmod_eq_of_fits (by omega) (by omega)]

lemma toInt_add_of_nonneg (ha : 0 ≤ a.toInt) (hb : 0 ≤ b.toInt)
    (hsum : 0 ≤ (a + b).toInt) : (a + b).toInt = a.toInt + b.toInt := by
  have hlt := toInt_lt a
  have hlt' := toInt_lt b
  by_cases hfits : a.toInt + b.toInt < 2 ^ 63
  · exact toInt_add_of_fits (by omega) hfits
  rw [toInt_add, Int.bmod_def] at hsum
  split at hsum
  · omega
  · omega

lemma toNat_toUInt64_eq (x : Int64) :
    (x.toUInt64.toNat : Int) = if 0 ≤ x.toInt then x.toInt else x.toInt + 2 ^ 64 := by
  have hcond := BitVec.toInt_eq_toNat_cond x.toBitVec
  change x.toInt = _ at hcond
  change ((x.toBitVec.toNat : Nat) : Int) = _
  rw [hcond]
  split
  · rw [if_pos (by omega)]
  · omega

end DimensionChain
