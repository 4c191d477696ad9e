import DimensionChain.System.State

/-!
# The votes of a stake

`stake_to_proposal_votes` adds up the quotients of a stake by the powers of ten. The sum is a
ninth of what is left of the number without its digits.
-/

namespace DimensionChain.System.SystemState

open Int64

def digitVotes (n : Nat) : Nat := (n - (Nat.digits 10 n).sum) / 9

lemma digitVotes_step (n : Nat) : digitVotes n = n / 10 + digitVotes (n / 10) := by
  rcases Nat.eq_zero_or_pos n with rfl | hpos
  · rfl
  have hle := Nat.digit_sum_le 10 (n / 10)
  unfold digitVotes
  rw [Nat.digits_def' (by decide) hpos, List.sum_cons]
  omega

lemma digitVotes_add_le {a b c : Nat} (h : a + b ≤ c) :
    digitVotes a + digitVotes b ≤ digitVotes c := by
  induction c using Nat.strong_induction_on generalizing a b with
  | _ c ih =>
    rcases Nat.eq_zero_or_pos c with rfl | hpos
    · obtain ⟨rfl, rfl⟩ := Nat.add_eq_zero_iff.mp (Nat.le_zero.mp h)
      rfl
    · have hnext := ih (c / 10) (by omega) (a := a / 10) (b := b / 10) (by omega)
      rw [digitVotes_step a, digitVotes_step b, digitVotes_step c]
      omega

variable {staked ret : Int64} {n : Nat} {d : Int64}

lemma toInt_div_of_nonneg {m : Nat} (h : staked.toInt = n) (hd : d.toInt = m)
    (hne : d ≠ -1) : (staked / d).toInt = (n / m : Nat) := by
  rw [toInt_div_of_ne_right staked d hne, h, hd]
  rfl

lemma toInt_votesLoop {fuel : Nat} (hn : staked.toInt = n) (hfuel : n < 10 ^ fuel)
    (hret : 0 ≤ ret.toInt) (hfits : ret.toInt + digitVotes n < 2 ^ 63) :
    (votesLoop fuel staked ret).toInt = ret.toInt + digitVotes n := by
  induction fuel generalizing n staked ret with
  | zero =>
    obtain rfl := Nat.lt_one_iff.mp hfuel
    simp [votesLoop, digitVotes]
  | succ fuel ih =>
    unfold votesLoop
    by_cases hzero : staked = 0
    · rw [hzero] at hn
      obtain rfl : n = 0 := by simpa using hn.symm
      rw [if_pos hzero]
      simp [digitVotes]
    have hnext : (staked / 10).toInt = (n / 10 : Nat) := toInt_div_of_nonneg hn rfl (by decide)
    rw [digitVotes_step, Nat.cast_add] at hfits ⊢
    have hadd : (ret + staked / 10).toInt = ret.toInt + (n / 10 : Nat) := by
      rw [toInt_add_of_fits, hnext]
      · omega
      · omega
    rw [if_neg hzero, ih hnext (by omega) (by omega) (by omega), hadd]
    omega

lemma toInt_stakeToProposalVotes (h : 0 ≤ staked) :
    (stakeToProposalVotes staked).toInt = digitVotes (staked.toInt.toNat / 100000) := by
  have hnonneg : 0 ≤ staked.toInt := le_iff_toInt_le.mp h
  have hlt := toInt_lt staked
  have hstaked : (staked / 100000).toInt = (staked.toInt.toNat / 100000 : Nat) :=
    toInt_div_of_nonneg (Int.toNat_of_nonneg hnonneg).symm rfl (by decide)
  unfold stakeToProposalVotes
  rw [toInt_votesLoop hstaked]
  · simp
  · omega
  · simp
  · change (0 : Int) + digitVotes _ < _
    unfold digitVotes
    omega

lemma natAbs_div {a : Int64} {n : Nat} (hd : d.toInt = n) (hne : d ≠ -1) :
    (a / d).toInt.natAbs = a.toInt.natAbs / n := by
  rw [toInt_div_of_ne_right a d hne, Int.natAbs_tdiv, hd]
  rfl

lemma natAbs_iterate_div (staked : Int64) (k : Nat) :
    (((· / 10) : Int64 → Int64)^[k] staked).toInt.natAbs = staked.toInt.natAbs / 10 ^ k := by
  induction k generalizing staked with
  | zero => simp
  | succ k ih =>
    rw [Function.iterate_succ_apply, ih, natAbs_div (n := 10) rfl (by decide),
      Nat.div_div_eq_div_mul, ← Nat.pow_succ']

lemma iterate_div_eq_zero (staked : Int64) : ((· / 10) : Int64 → Int64)^[20] staked = 0 := by
  have hlow := le_toInt staked
  have hhigh := toInt_lt staked
  have hzero := natAbs_iterate_div staked 20
  rw [Nat.div_eq_of_lt (by omega), Int.natAbs_eq_zero] at hzero
  exact toInt_inj.mp hzero

theorem splitting_stake_gains_no_votes : (∀ s n, 0 ≤ s → n = s.toInt.toNat / 100000 →
      ((· / 10) : Int64 → Int64)^[20] (s / 100000) = 0 ∧
      (stakeToProposalVotes s).toInt = ((n - (Nat.digits 10 n).sum) / 9 : Nat)) ∧
    (∀ a b, 0 ≤ a → a ≤ b → stakeToProposalVotes a ≤ stakeToProposalVotes b) ∧
    ∀ a b : Int64, 0 ≤ a → 0 ≤ b → a.toInt + b.toInt < 2 ^ 63 →
      (stakeToProposalVotes a).toInt + (stakeToProposalVotes b).toInt ≤
        (stakeToProposalVotes (a + b)).toInt := by
  refine ⟨?_, ?_, ?_⟩
  · rintro s n hs rfl
    exact ⟨iterate_div_eq_zero _, toInt_stakeToProposalVotes hs⟩
  · intro a b ha hab
    have hle := le_iff_toInt_le.mp hab
    have hvotes : digitVotes (a.toInt.toNat / 100000) ≤ digitVotes (b.toInt.toNat / 100000) :=
      digitVotes_add_le (b := 0) (by omega)
    rw [Int64.le_iff_toInt_le, toInt_stakeToProposalVotes ha,
      toInt_stakeToProposalVotes (Int64.le_trans ha hab)]
    exact_mod_cast hvotes
  intro a b ha hb hsum
  have ha' : 0 ≤ a.toInt := Int64.le_iff_toInt_le.mp ha
  have hb' : 0 ≤ b.toInt := Int64.le_iff_toInt_le.mp hb
  have hadd := toInt_add_of_fits (a := a) (b := b) (by omega) hsum
  have hnonneg : 0 ≤ a + b := by
    rw [Int64.le_iff_toInt_le, hadd]
    exact Int.add_nonneg ha' hb'
  rw [toInt_stakeToProposalVotes ha, toInt_stakeToProposalVotes hb,
    toInt_stakeToProposalVotes hnonneg, hadd]
  have hvotes : digitVotes (a.toInt.toNat / 100000) + digitVotes (b.toInt.toNat / 100000) ≤
      digitVotes ((a.toInt + b.toInt).toNat / 100000) := digitVotes_add_le (by omega)
  exact_mod_cast hvotes

theorem splitting_stake_gains_no_votes_carry :
    (stakeToProposalVotes 500000).toInt + (stakeToProposalVotes 500000).toInt ≤
      (stakeToProposalVotes (500000 + 500000)).toInt ∧ stakeToProposalVotes 1000000 = 1 :=
  ⟨splitting_stake_gains_no_votes.2.2 500000 500000 (by decide) (by decide) (by decide), by decide⟩

end DimensionChain.System.SystemState
