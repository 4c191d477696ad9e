import DimensionChain.Resource.Usage

/-!
# The accumulator of usage

`add` checks its sums against the members as they are before the decay, and sets the members one
after the other. `addExec` has these assignments as steps, so that an exception shows what had been
set before it.
-/

namespace DimensionChain.Resource.Accumulator

open Nat

def addExec (units ordinal windowSize : Nat) : ExceptT ChainException (StateM Accumulator) Unit := do
  let a ← get
  ofExcept (eosAssert (units ≤ maxRawValue) .rateLimitingStateInconsistent
    "Usage exceeds maximum value representable after extending for precision")
  ofExcept (eosAssert (2 ^ 64 - 1 - a.consumed.toNat ≥ units) .rateLimitingStateInconsistent
    "Overflow in tracked usage when adding usage!")
  let valueExContrib ← ofExcept (downgradeCast (2 ^ 64 - 1)
    (integerDivideCeil (units * Config.rateLimitingPrecision) windowSize))
  ofExcept (eosAssert (2 ^ 64 - 1 - a.valueEx.toNat ≥ valueExContrib) .rateLimitingStateInconsistent
    "Overflow in accumulated value when adding usage!")
  if a.lastOrdinal ≠ ordinal then
    ofExcept (eosAssert (ordinal > a.lastOrdinal) .resourceLimit
      "new ordinal cannot be less than the previous ordinal")
    if a.lastOrdinal + windowSize > ordinal then
      let valueEx ← ofExcept
        (mulRatio a.valueEx.toNat (windowSize - (ordinal - a.lastOrdinal)) windowSize)
      modify fun a => { a with valueEx := .ofNat valueEx }
    else
      modify fun a => { a with valueEx := 0 }
    modify fun a => { a with lastOrdinal := ordinal }
    modify fun a => { a with consumed := .ofNat a.average }
  modify fun a => { a with consumed := a.consumed + .ofNat units }
  modify fun a => { a with valueEx := a.valueEx + .ofNat valueExContrib }

/-- The end of a call that sets all members at once or none. -/
def allOrNone (a : Accumulator) : Result Accumulator → Result Unit × Accumulator
  | .ok a' => (.ok (), a')
  | .error e => (.error e, a)

variable {a a' b : Accumulator} {units ordinal windowSize : Nat}

lemma run_ofExcept_bind {α : Type} {x : Result α}
    {f : α → ExceptT ChainException (StateM Accumulator) Unit}
    {g : α → Result Accumulator} (h : ∀ v, (f v).run.run a = a.allOrNone (g v)) :
    (ofExcept x >>= f).run.run a = a.allOrNone (x >>= g) := by
  cases x with
  | error e => rfl
  | ok v => exact h v

lemma run_get_bind (f : Accumulator → ExceptT ChainException (StateM Accumulator) Unit) :
    (get >>= f).run.run a = (f a).run.run a := rfl

lemma run_addExec :
    (addExec units ordinal windowSize).run.run a = a.allOrNone (a.add units ordinal windowSize) := by
  unfold addExec add
  rw [run_get_bind]
  refine run_ofExcept_bind fun _ => run_ofExcept_bind fun _ => run_ofExcept_bind fun contrib =>
    run_ofExcept_bind fun _ => ?_
  by_cases hlast : a.lastOrdinal = ordinal
  · rw [if_neg (not_not.mpr hlast), if_neg (not_not.mpr hlast)]
    rfl
  rw [if_pos hlast, if_pos hlast]
  unfold decay
  simp only [bind_assoc]
  refine run_ofExcept_bind fun _ => ?_
  by_cases hwindow : a.lastOrdinal + windowSize > ordinal
  · simp only [if_pos hwindow, bind_assoc]
    exact run_ofExcept_bind fun _ => rfl
  · simp only [if_neg hwindow]
    rfl

lemma average_lt (a : Accumulator) : a.average < 2 ^ 45 := by
  have hlt := a.valueEx.toNat_lt
  unfold average integerDivideCeil Config.rateLimitingPrecision
  split <;> omega

lemma mulRatio_ok {value numerator denominator result : Nat} (hle : numerator ≤ denominator)
    (h : mulRatio value numerator denominator = .ok result) :
    value * numerator < 2 ^ 64 ∧ result ≤ value := by
  obtain ⟨hfits, h⟩ := assert_ok h
  have hproduct : value * numerator < 2 ^ 64 := by
    rcases Nat.eq_zero_or_pos numerator with hzero | hpos
    · simp [hzero]
    · have hdiv := hfits.resolve_left (ne_of_gt hpos)
      have hmul := (le_div_iff_mul_le hpos).mp hdiv
      omega
  cases h
  refine ⟨hproduct, ?_⟩
  rw [Nat.mod_eq_of_lt hproduct]
  apply Nat.div_le_of_le_mul
  rw [Nat.mul_comm]
  exact Nat.mul_le_mul_right value hle

/-- The accumulator at an ordinal, before anything is added. -/
def age (a : Accumulator) (ordinal windowSize : Nat) : Result Accumulator :=
  if a.lastOrdinal ≠ ordinal then a.decay ordinal windowSize else pure a

lemma decay_ok (h : a.decay ordinal windowSize = .ok b) :
    ∃ value ≤ a.valueEx.toNat, (ordinal < a.lastOrdinal + windowSize →
        a.valueEx.toNat * (windowSize - (ordinal - a.lastOrdinal)) < 2 ^ 64) ∧
      b = ⟨ordinal, .ofNat value, .ofNat (average ⟨ordinal, .ofNat value, a.consumed⟩)⟩ := by
  obtain ⟨_, h⟩ := ok_after h
  split at h
  case isTrue =>
    obtain ⟨value, hvalue, h⟩ := bind_ok_iff.mp h
    obtain ⟨hproduct, hle⟩ := mulRatio_ok (sub_le _ _) hvalue
    cases h
    exact ⟨value, hle, fun _ => hproduct, rfl⟩
  case isFalse hwindow =>
    cases h
    exact ⟨0, zero_le _, fun hlt => absurd hlt hwindow, rfl⟩

lemma age_ok (h : a.age ordinal windowSize = .ok b) :
    b.lastOrdinal = ordinal ∧ b.valueEx.toNat ≤ a.valueEx.toNat ∧
      (b.consumed = a.consumed ∨ b.consumed.toNat < 2 ^ 45) ∧
      (a.lastOrdinal ≠ ordinal → ordinal < a.lastOrdinal + windowSize →
        a.valueEx.toNat * (windowSize - (ordinal - a.lastOrdinal)) < 2 ^ 64) := by
  unfold age at h
  split at h
  case isTrue =>
    obtain ⟨value, hle, hproduct, rfl⟩ := decay_ok h
    have haverage := average_lt ⟨ordinal, .ofNat value, a.consumed⟩
    refine ⟨rfl, ?_, .inr ?_, fun _ => hproduct⟩
    · rw [UInt64.toNat_ofNat']
      exact (mod_le _ _).trans hle
    · rw [UInt64.toNat_ofNat']
      exact lt_of_le_of_lt (mod_le _ _) haverage
  case isFalse hlast =>
    cases h
    exact ⟨not_not.mp hlast, le_rfl, .inl rfl, fun hne => absurd hne hlast⟩

def contribution (units windowSize : Nat) : Nat :=
  integerDivideCeil (units * Config.rateLimitingPrecision) windowSize

lemma add_ok_iff : a.add units ordinal windowSize = .ok a' ↔
    units ≤ maxRawValue ∧ units ≤ 2 ^ 64 - 1 - a.consumed.toNat ∧
      contribution units windowSize ≤ 2 ^ 64 - 1 - a.valueEx.toNat ∧
      ∃ b, a.age ordinal windowSize = .ok b ∧
        ⟨b.lastOrdinal, b.valueEx + .ofNat (contribution units windowSize),
          b.consumed + .ofNat units⟩ = a' := by
  have hage : ∀ f : Accumulator → Result Accumulator,
      (if a.lastOrdinal ≠ ordinal then a.decay ordinal windowSize >>= f else pure a >>= f) =
        a.age ordinal windowSize >>= f := by
    intro f
    unfold age
    split <;> rfl
  unfold add downgradeCast
  simp only [hage, bind_ok_iff, eosAssert_ok_iff, exists_const]
  constructor
  · rintro ⟨hraw, hconsumed, _, ⟨-, ⟨⟩⟩, hvalue, b, hb, h⟩
    exact ⟨hraw, hconsumed, hvalue, b, hb, Except.ok.inj h⟩
  · rintro ⟨hraw, hconsumed, hvalue, b, hb, rfl⟩
    exact ⟨hraw, hconsumed, _, ⟨hvalue.trans (sub_le _ _), rfl⟩, hvalue, b, hb, rfl⟩

/-- The sums and products of a call that adds, each below `2 ^ 64`. -/
structure NoWrap (a : Accumulator) (units ordinal windowSize : Nat) (a' : Accumulator) : Prop where
  extended : units * Config.rateLimitingPrecision < 2 ^ 64
  contribution : contribution units windowSize < 2 ^ 64
  horizon : a.lastOrdinal + windowSize < 2 ^ 64
  decayed : a.lastOrdinal ≠ ordinal → ordinal < a.lastOrdinal + windowSize →
    a.valueEx.toNat * (windowSize - (ordinal - a.lastOrdinal)) < 2 ^ 64
  sums : ∃ b, a.age ordinal windowSize = .ok b ∧ b.average < 2 ^ 64 ∧
    a'.consumed.toNat = b.consumed.toNat + units ∧
    a'.valueEx.toNat = b.valueEx.toNat + Accumulator.contribution units windowSize

lemma fits_of_age (hraw : units ≤ maxRawValue) (hconsumed : units ≤ 2 ^ 64 - 1 - a.consumed.toNat)
    (hage : a.age ordinal windowSize = .ok b) : b.consumed.toNat + units < 2 ^ 64 := by
  have hlt := a.consumed.toNat_lt
  unfold maxRawValue Config.rateLimitingPrecision at hraw
  rcases (age_ok hage).2.2.1 with heq | hsmall
  · rw [heq]
    omega
  · omega

lemma add_noWrap (hlast : a.lastOrdinal < 2 ^ 32) (hwindow : windowSize < 2 ^ 32)
    (h : a.add units ordinal windowSize = .ok a') : a.NoWrap units ordinal windowSize a' := by
  obtain ⟨hraw, hconsumed, hvalue, b, hb, rfl⟩ := add_ok_iff.mp h
  obtain ⟨-, hdecayed, -, hproduct⟩ := age_ok hb
  have hfits := fits_of_age hraw hconsumed hb
  have hlt := a.valueEx.toNat_lt
  unfold maxRawValue Config.rateLimitingPrecision at hraw
  refine ⟨?_, by omega, by omega, hproduct, b, hb, lt_trans b.average_lt (by decide), ?_, ?_⟩
  · unfold Config.rateLimitingPrecision
    omega
  · rw [UInt64.toNat_add, UInt64.toNat_ofNat']
    omega
  · rw [UInt64.toNat_add, UInt64.toNat_ofNat']
    omega

lemma add_zero_add (h : a.add units ordinal windowSize = .ok a') :
    ∃ b, a.add 0 ordinal windowSize = .ok b ∧ b.add units ordinal windowSize = .ok a' := by
  obtain ⟨hraw, hconsumed, hvalue, b, hb, rfl⟩ := add_ok_iff.mp h
  obtain ⟨hlast, hdecayed, -, -⟩ := age_ok hb
  have hfits := fits_of_age hraw hconsumed hb
  have hzero : contribution 0 windowSize = 0 := by simp [contribution, integerDivideCeil]
  refine ⟨b, add_ok_iff.mpr ⟨zero_le _, zero_le _, ?_, b, hb, ?_⟩,
    add_ok_iff.mpr ⟨hraw, by omega, by omega, b, ?_, rfl⟩⟩
  · rw [hzero]
    exact zero_le _
  · rw [hzero]
    simp
  · rw [age, if_neg (not_not.mpr hlast)]
    rfl

theorem addExec_exact_or_unchanged (a : Accumulator) (units ordinal windowSize : Nat)
    (hlast : a.lastOrdinal < 2 ^ 32) (hwindow : windowSize < 2 ^ 32) :
    ((∃ e, (addExec units ordinal windowSize).run.run a = (.error e, a)) ∨
      ∃ a', (addExec units ordinal windowSize).run.run a = (.ok (), a') ∧
        a.NoWrap units ordinal windowSize a') ∧
    ∀ a', (addExec units ordinal windowSize).run.run a = (.ok (), a') →
      ∃ b, (addExec 0 ordinal windowSize).run.run a = (.ok (), b) ∧
        (addExec units ordinal windowSize).run.run b = (.ok (), a') := by
  simp only [run_addExec]
  cases hadd : a.add units ordinal windowSize with
  | error e => exact ⟨.inl ⟨e, rfl⟩, fun a' h => by cases h⟩
  | ok a' =>
    refine ⟨.inr ⟨a', rfl, add_noWrap hlast hwindow hadd⟩, ?_⟩
    rintro _ ⟨⟩
    obtain ⟨b, hzero, hunits⟩ := add_zero_add hadd
    exact ⟨b, by rw [hzero]; rfl, by rw [hunits]; rfl⟩

theorem addExec_exact_or_unchanged_decayed :
    ∃ b, (addExec 0 12 10).run.run ⟨7, 900, 3⟩ = (.ok (), b) ∧
      (addExec 2 12 10).run.run b = (.ok (), ⟨12, 200450, 3⟩) :=
  (addExec_exact_or_unchanged ⟨7, 900, 3⟩ 2 12 10 (by decide) (by decide)).2 _
    (by rw [run_addExec]; rfl)

end DimensionChain.Resource.Accumulator
