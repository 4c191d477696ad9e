import DimensionChain.Resource.Accumulator

/-!
# What is quoted and what is granted

The quote rounds the use of an account up, the check rounds it down, and an addition rounds its
part up. An account within its share may therefore add what it is quoted and no more than one unit
above that. An account above its share is quoted nothing, and is not even granted that.
-/

namespace DimensionChain.Resource

open Nat LimitsManager Accumulator

section Rounding

lemma le_integerDivideCeil_mul (num : Nat) {den : Nat} (hden : 0 < den) :
    num ≤ integerDivideCeil num den * den := by
  have hdiv := div_add_mod num den
  have hmod := mod_lt num hden
  unfold integerDivideCeil
  rw [add_mul, mul_comm (num / den)]
  split <;> omega

lemma integerDivideCeil_mul_lt (num : Nat) {den : Nat} (hden : 0 < den) :
    integerDivideCeil num den * den < num + den := by
  have hdiv := div_add_mod num den
  unfold integerDivideCeil
  rw [add_mul, mul_comm (num / den)]
  split <;> omega

variable {value window precision share units : Nat}

lemma used_le_of_quoted (hpos : 0 < window) (hwindow : window ≤ precision)
    (hquoted : integerDivideCeil (value * window) precision + units ≤ share) :
    (value + integerDivideCeil (units * precision) window) * window / precision ≤ share := by
  have hprecision : 0 < precision := lt_of_lt_of_le hpos hwindow
  have hvalue := le_integerDivideCeil_mul (value * window) hprecision
  have hunits := integerDivideCeil_mul_lt (units * precision) hpos
  have hquoted := mul_le_mul_right precision hquoted
  rw [add_mul] at hquoted
  apply le_of_lt_succ
  rw [div_lt_iff_lt_mul hprecision, add_mul, succ_mul]
  omega

lemma lt_used_of_unquoted (hpos : 0 < window) (hprecision : 0 < precision)
    (hunquoted : share + 2 ≤ integerDivideCeil (value * window) precision + units) :
    share < (value + integerDivideCeil (units * precision) window) * window / precision := by
  have hvalue := integerDivideCeil_mul_lt (value * window) hprecision
  have hunits := le_integerDivideCeil_mul (units * precision) hpos
  have hunquoted := mul_le_mul_right precision hunquoted
  rw [add_mul, add_mul] at hunquoted
  apply lt_of_succ_le
  rw [le_div_iff_mul_le hprecision, add_mul, succ_mul]
  omega

end Rounding

section Accumulators
variable {a a' : Accumulator} {units ordinal window : Nat}

lemma Accumulator.add_same (hordinal : a.lastOrdinal = ordinal)
    (h : a.add units ordinal window = .ok a') : a'.valueEx.toNat = a.valueEx.toNat +
      integerDivideCeil (units * Config.rateLimitingPrecision) window := by
  obtain ⟨-, -, hfits, b, hb, rfl⟩ := add_ok_iff.mp h
  rw [Accumulator.age, if_neg (not_not.mpr hordinal)] at hb
  cases hb
  have hlt := a.valueEx.toNat_lt
  rw [UInt64.toNat_add, UInt64.toNat_ofNat']
  unfold contribution at hfits ⊢
  omega

end Accumulators

namespace ResourceManager
variable {s : ResourceManager} {b : Bandwidth} {account : AccountName} {limits : AccountLimits}
  {usage : Bandwidth → Accumulator} {maxUse used : Nat} {a : Accumulator}

lemma accountResourceLimit_ok {arl : AccountResourceLimit}
    (h : accountResourceLimit maxUse used = .ok arl) : arl.available = ((maxUse - used : Nat) : Int) := by
  unfold accountResourceLimit downgradeCast at h
  simp only [bind_ok_iff] at h
  obtain ⟨_, ⟨_, -, hrest⟩, _, -, _, -, h⟩ := h
  cases hrest
  cases h
  rfl

lemma accountResourceLimit_of_fits (hmax : maxUse < 2 ^ 63) (hused : used < 2 ^ 63) :
    accountResourceLimit maxUse used = .ok ⟨used, (maxUse - used : Nat), maxUse⟩ := by
  unfold accountResourceLimit downgradeCast
  rw [eosAssert, if_pos (by omega), eosAssert, if_pos (by omega), eosAssert, if_pos (by omega)]
  rfl

lemma getAccountLimit_ok (husage : s.getUsage account = .ok usage)
    (hlimits : s.getAccountLimits account = .ok limits) {elastic : Bool} {available : Int}
    (h : s.getAccountLimit b account elastic = .ok available) :
    (b.weight limits < 0 ∨ s.totalWeight b = 0) ∧ available = -1 ∨
      available = ((s.maxUserUseInWindow b limits elastic -
        s.quotedUseInWindow b (usage b) : Nat) : Int) := by
  unfold getAccountLimit getAccountLimitEx at h
  rw [husage, hlimits] at h
  obtain ⟨arl, harl, h⟩ := bind_ok_iff.mp h
  obtain ⟨_, husage', harl⟩ := bind_ok_iff.mp harl
  obtain ⟨_, hlimits', harl⟩ := bind_ok_iff.mp harl
  cases husage'
  cases hlimits'
  cases h
  split at harl
  case isTrue hunlimited =>
    cases harl
    exact .inl ⟨hunlimited, rfl⟩
  case isFalse => exact .inr (accountResourceLimit_ok harl)

lemma checkAccount_ok_iff (hweight : 0 ≤ b.weight limits) (htotal : 0 < s.totalWeight b) :
    s.checkAccount b limits a = .ok () ↔
      a.valueEx.toNat * s.accountUsageAverageWindow b / Config.rateLimitingPrecision ≤
        s.maxUserUseInWindow b limits true := by
  unfold checkAccount
  rw [if_pos ⟨hweight, htotal⟩, eosAssert_ok_iff]

lemma checkAccount_error (h : s.checkAccount b limits a ≠ .ok ()) :
    s.checkAccount b limits a = .error b.exceeded := by
  unfold checkAccount eosAssert at h ⊢
  split
  case isTrue hlimited =>
    rw [if_pos hlimited] at h
    split
    case isTrue hle => exact absurd (if_pos hle) h
    case isFalse => rfl
  case isFalse hunlimited =>
    rw [if_neg hunlimited] at h
    exact absurd rfl h

lemma checkAccount_of_quoted {a a' : Accumulator} {units slot : Nat}
    (hslot : a.lastOrdinal = slot) (hpos : 0 < s.accountUsageAverageWindow b)
    (hwindow : s.accountUsageAverageWindow b ≤ Config.rateLimitingPrecision)
    (hadd : a.add units slot (s.accountUsageAverageWindow b) = .ok a')
    (hquoted : units ≤ s.maxUserUseInWindow b limits true - s.quotedUseInWindow b a)
    (hstanding : units = 0 → s.checkAccount b limits a = .ok ()) :
    s.checkAccount b limits a' = .ok () := by
  have hvalue := add_same hslot hadd
  by_cases hlimited : 0 ≤ b.weight limits ∧ 0 < s.totalWeight b
  · obtain ⟨hweight, htotal⟩ := hlimited
    rw [checkAccount_ok_iff hweight htotal] at hstanding ⊢
    rw [hvalue]
    by_cases hzero : units = 0
    · subst hzero
      simpa [integerDivideCeil] using hstanding rfl
    · apply used_le_of_quoted hpos hwindow
      change s.quotedUseInWindow b a + units ≤ _
      omega
  · unfold checkAccount
    rw [if_neg hlimited]
    rfl

/-- Net and cpu are granted as quoted, except to an account that is above its share. -/
theorem quote_grants {slot units : Nat} {available : Int} {after : Accumulator}
    (husage : s.getUsage account = .ok usage) (hlimits : s.getAccountLimits account = .ok limits)
    (hweight : 0 ≤ b.weight limits) (htotal : 0 < s.totalWeight b)
    (hslot : (usage b).lastOrdinal = slot) (hpos : 0 < s.accountUsageAverageWindow b)
    (hwindow : s.accountUsageAverageWindow b ≤ Config.rateLimitingPrecision)
    (hquote : s.getAccountLimit b account true = .ok available)
    (hadd : (usage b).add units slot (s.accountUsageAverageWindow b) = .ok after) :
    (units ≤ available → 0 < available ∨ s.checkAccount b limits (usage b) = .ok () →
      s.checkAccount b limits after = .ok ()) ∧
    (available + 2 ≤ units → s.checkAccount b limits after = .error b.exceeded) := by
  rcases getAccountLimit_ok husage hlimits hquote with ⟨hunlimited, -⟩ | havailable
  · omega
  constructor
  · intro hle hstanding
    apply checkAccount_of_quoted hslot hpos hwindow hadd (by omega)
    intro hzero
    rcases hstanding with hpositive | hstanding
    · -- what is available is left of the share
      have hleft : s.quotedUseInWindow b (usage b) + 0 ≤ s.maxUserUseInWindow b limits true := by
        omega
      rw [checkAccount_ok_iff hweight htotal]
      simpa [integerDivideCeil] using used_le_of_quoted hpos hwindow hleft
    · exact hstanding
  intro hle
  apply checkAccount_error
  rw [Ne, checkAccount_ok_iff hweight htotal, add_same hslot hadd]
  apply Nat.not_le_of_lt
  apply lt_used_of_unquoted hpos (Nat.lt_of_lt_of_le hpos hwindow)
  change _ ≤ s.quotedUseInWindow b (usage b) + units
  omega

section Run
variable {s' : ResourceManager}

structure Keeps (s s' : ResourceManager) : Prop where
  limits : s'.toLimitsManager = s.toLimitsManager
  window : s'.accountUsageAverageWindow = s.accountUsageAverageWindow
  usage : ∀ a, (s.usage a).isSome → (s'.usage a).isSome

lemma Keeps.refl (s : ResourceManager) : Keeps s s := ⟨rfl, rfl, fun _ h => h⟩

lemma Keeps.trans {r : ResourceManager} (h : Keeps s s') (h' : Keeps s' r) : Keeps s r :=
  ⟨h'.limits.trans h.limits, h'.window.trans h.window, fun a ha => h'.usage a (h.usage a ha)⟩

lemma keeps_setUsage (s : ResourceManager) (a : AccountName) (net cpu : Accumulator) :
    Keeps s (s.setUsage a net cpu) := by
  refine ⟨rfl, rfl, ?_⟩
  intro q hq
  by_cases hqa : q = a
  · subst hqa
    simp [setUsage]
  · simpa [setUsage, Function.update_of_ne hqa] using hq

variable {accounts : List AccountName} {cpu net slot : Nat}

lemma keeps_foldlM {f : ResourceManager → AccountName → Result ResourceManager}
    (hf : ∀ {s s' a}, f s a = .ok s' → Keeps s s') :
    ∀ {s s'}, accounts.foldlM f s = .ok s' → Keeps s s' := by
  induction accounts with
  | nil =>
    intro s s' h
    cases h
    exact .refl s
  | cons a accounts ih =>
    intro s s' h
    obtain ⟨m, hm, h⟩ := bind_ok_iff.mp (by simpa only [List.foldlM_cons] using h)
    exact (hf hm).trans (ih h)

lemma updateAccountUsage_keeps {slot : Nat}
    (h : s.updateAccountUsage accounts slot = .ok s') : Keeps s s' := by
  refine keeps_foldlM ?_ h
  intro s s' a h
  simp only [bind_ok_iff] at h
  obtain ⟨_, -, _, -, h⟩ := h
  cases h
  exact keeps_setUsage _ _ _ _

lemma addAccountUsage_keeps {a : AccountName}
    (h : s.addAccountUsage cpu net slot a = .ok s') : Keeps s s' := by
  unfold addAccountUsage at h
  simp only [bind_ok_iff] at h
  obtain ⟨_, -, _, -, _, -, _, -, _, -, h⟩ := h
  cases h
  exact keeps_setUsage _ _ _ _

lemma addTransactionUsage_keeps
    (h : s.addTransactionUsage accounts cpu net slot = .ok s') : Keeps s s' := by
  unfold addTransactionUsage at h
  simp only [bind_ok_iff] at h
  obtain ⟨m, hm, _, -, _, -, h⟩ := h
  cases h
  obtain ⟨hlimits, hwindow, husage⟩ := keeps_foldlM addAccountUsage_keeps hm
  exact ⟨hlimits, hwindow, husage⟩

structure Sound (s : ResourceManager) : Prop where
  consistent : s.toLimitsManager.Consistent
  known : ∀ account limits, s.getAccountLimits account = .ok limits → (s.usage account).isSome
  window : s.accountUsageAverageWindow = initializeDatabase.accountUsageAverageWindow

lemma Sound.of_keeps (hs : Sound s) (h : Keeps s s') : Sound s' where
  consistent := h.limits ▸ hs.consistent
  known account limits hlimits := by
    rw [h.limits] at hlimits
    exact h.usage account (hs.known account limits hlimits)
  window := h.window.trans hs.window

lemma Sound.processUsage {blockNum : Nat} (hs : Sound s)
    (h : s.processUsage b blockNum = .ok s') : Sound s' := by
  unfold ResourceManager.processUsage at h
  simp only [bind_ok_iff] at h
  obtain ⟨average, -, limit, -, h⟩ := h
  cases h
  exact ⟨hs.consistent, hs.known, hs.window⟩

lemma getAccountLimits_congr {l l' : LimitsManager} {account : AccountName}
    (h : ∀ p, l'.limits.find? ⟨p, account⟩ = l.limits.find? ⟨p, account⟩) :
    l'.getAccountLimits account = l.getAccountLimits account := by
  unfold getAccountLimits findPendingLimits
  rw [h, h]

lemma Sound.limitsCall {call : LimitsManager.Call} (hs : Sound s)
    (h : s.result (.limits call) = .ok s') : Sound s' := by
  obtain ⟨l, hl, h⟩ := bind_ok_iff.mp h
  cases h
  refine ⟨hs.consistent.result hl, ?_, hs.window⟩
  intro account limits hlimits
  cases call with
  | initializeAccount a =>
    obtain ⟨m, hm, hl⟩ := bind_ok_iff.mp hl
    obtain ⟨_, hl⟩ := ok_after hl
    cases hl
    obtain ⟨-, rfl⟩ := insertNew_ok hm
    by_cases haccount : account = a
    · subst haccount
      simp [initializedUsage]
    rw [getAccountLimits_congr (l := s.toLimitsManager)] at hlimits
    · simpa [initializedUsage, Function.update_of_ne haccount] using hs.known account limits hlimits
    · intro p
      rw [FlatMap.find?_set, if_neg (by simp [haccount])]
  | setAccountLimits a ram net cpu =>
    change (s.toLimitsManager.setAccountLimits a ram net cpu).map Prod.snd = .ok l at hl
    cases hset : s.toLimitsManager.setAccountLimits a ram net cpu with
    | error e =>
      rw [hset] at hl
      cases hl
    | ok r =>
      rw [hset] at hl
      cases hl
      obtain ⟨old, hold, hset⟩ := bind_ok_iff.mp hset
      cases hset
      by_cases haccount : account = a
      · subst haccount
        exact hs.known account old hold
      rw [getAccountLimits_congr (l := s.toLimitsManager)] at hlimits
      · exact hs.known account limits hlimits
      · intro p
        rw [FlatMap.find?_set, if_neg (by simp [haccount])]
  | processAccountLimitUpdates =>
    obtain ⟨-, -, hsame⟩ := (processAccountLimitUpdates_spec hs.consistent).2 l hl
    rw [hsame] at hlimits
    exact hs.known account limits hlimits

lemma Sound.apply (hs : Sound s) (call : Call) : Sound (s.apply call) := by
  unfold ResourceManager.apply
  cases h : s.result call with
  | error e => exact hs
  | ok s' =>
    cases call with
    | limits call => exact hs.limitsCall h
    | updateAccountUsage accounts slot => exact hs.of_keeps (updateAccountUsage_keeps h)
    | addTransactionUsage accounts cpu net slot => exact hs.of_keeps (addTransactionUsage_keeps h)
    | processBlockUsage blockNum =>
      obtain ⟨m, hm, h⟩ := bind_ok_iff.mp h
      exact (hs.processUsage hm).processUsage h

lemma sound_initial : Sound initializeDatabase where
  consistent := consistent_initial
  known _ _ h := by cases h
  window := rfl

lemma accountResourceLimit_ok_iff (hused : used < 2 ^ 63) :
    (∃ arl, accountResourceLimit maxUse used = .ok arl) ↔ maxUse < 2 ^ 63 := by
  constructor
  · rintro ⟨arl, h⟩
    obtain ⟨_, -, h⟩ := bind_ok_iff.mp h
    obtain ⟨_, -, h⟩ := bind_ok_iff.mp h
    obtain ⟨max, h, -⟩ := bind_ok_iff.mp h
    obtain ⟨hmax, -⟩ := assert_ok h
    omega
  · intro hmax
    exact ⟨_, accountResourceLimit_of_fits hmax hused⟩

lemma Sound.getAccountLimitEx_ok_iff (hs : Sound s)
    (hlimits : s.getAccountLimits account = .ok limits) (b : Bandwidth) (elastic : Bool) :
    (∃ arl, s.getAccountLimitEx b account elastic = .ok arl) ↔
      b.weight limits < 0 ∨ s.totalWeight b = 0 ∨
        s.maxUserUseInWindow b limits elastic < 2 ^ 63 := by
  obtain ⟨usage, husage⟩ := Option.isSome_iff_exists.mp (hs.known account limits hlimits)
  have hused : s.quotedUseInWindow b (usage b) < 2 ^ 63 := by
    have hceil := integerDivideCeil_mul_lt
      ((usage b).valueEx.toNat * s.accountUsageAverageWindow b)
      (show 0 < Config.rateLimitingPrecision by decide)
    have hvalue := (usage b).valueEx.toNat_lt
    change s.quotedUseInWindow b (usage b) * 1000000 < _ + 1000000 at hceil
    rw [hs.window] at hceil
    change _ < _ * 172800 + 1000000 at hceil
    omega
  unfold getAccountLimitEx getUsage
  rw [husage, hlimits]
  change (∃ arl, (if b.weight limits < 0 ∨ s.totalWeight b = 0 then pure ⟨-1, -1, -1⟩
    else accountResourceLimit (s.maxUserUseInWindow b limits elastic)
      (s.quotedUseInWindow b (usage b))) = Except.ok arl) ↔ _
  rw [← or_assoc]
  split
  case isTrue hunlimited => exact ⟨fun _ => .inl hunlimited, fun _ => ⟨_, rfl⟩⟩
  case isFalse hlimited =>
    rw [accountResourceLimit_ok_iff hused]
    exact ⟨.inr, fun h => h.resolve_left hlimited⟩

/-- At every point of a run a query about an account returns if and only if the account is
unlimited or its share of the capacity fits 63 bits. -/
theorem queries_return {es : List (ResourceManager × Call × ResourceManager)} {t : ResourceManager}
    (hrun : Steps (fun s call s' => s' = s.apply call) initializeDatabase es t)
    {account : AccountName} {limits : AccountLimits}
    (hlimits : t.getAccountLimits account = .ok limits) (elastic : Bool) :
    ((∃ arl, t.getAccountCpuLimitEx account elastic = .ok arl) ↔ limits.cpuWeight < 0 ∨
      t.totalCpuWeight = 0 ∨ t.capacity .cpu elastic * t.accountUsageAverageWindow .cpu *
        limits.cpuWeight.toNat % 2 ^ 128 / t.totalCpuWeight < 2 ^ 63) ∧
    ((∃ arl, t.getAccountNetLimitEx account elastic = .ok arl) ↔ limits.netWeight < 0 ∨
      t.totalNetWeight = 0 ∨ t.capacity .net elastic * t.accountUsageAverageWindow .net *
        limits.netWeight.toNat % 2 ^ 128 / t.totalNetWeight < 2 ^ 63) := by
  have hsound : Sound t := by
    refine hrun.invariant (Q := Sound) ?_ sound_initial
    intro s call s' hs h
    rw [h]
    exact hs.apply call
  exact ⟨hsound.getAccountLimitEx_ok_iff hlimits .cpu elastic,
    hsound.getAccountLimitEx_ok_iff hlimits .net elastic⟩

end Run

def oneAccount (weight : Int) (valueEx : UInt64) : ResourceManager :=
  { initializeDatabase with
    limits := FlatMap.empty.set ⟨false, 1⟩ ⟨weight, weight, -1⟩
    totalNetWeight := 1
    totalCpuWeight := 1
    usage := fun _ => some fun _ => ⟨5, valueEx, 1⟩ }

/-- An account whose weight was taken away is quoted nothing and refused nothing. -/
theorem refused_what_is_quoted : ∃ (s : ResourceManager) (b : Bandwidth) (account : AccountName)
      (usage : Bandwidth → Accumulator) (limits : AccountLimits) (slot units : Nat)
      (available : Int) (after : Accumulator),
      s.getUsage account = .ok usage ∧ s.getAccountLimits account = .ok limits ∧
      0 ≤ b.weight limits ∧ 0 < s.totalWeight b ∧ (usage b).lastOrdinal = slot ∧
      0 < s.accountUsageAverageWindow b ∧
      s.accountUsageAverageWindow b ≤ Config.rateLimitingPrecision ∧
      s.capacity b true * s.accountUsageAverageWindow b * (b.weight limits).toNat < 2 ^ 128 ∧
      s.getAccountLimit b account true = .ok available ∧
      (usage b).add units slot (s.accountUsageAverageWindow b) = .ok after ∧
      units ≤ available ∧ s.checkAccount b limits after = .error b.exceeded := by
  refine ⟨oneAccount 0 1000000, .cpu, 1, fun _ => ⟨5, 1000000, 1⟩, ⟨0, 0, -1⟩, 5, 0, 0,
    ⟨5, 1000000, 1⟩, rfl, rfl, ?_⟩
  decide +kernel

/-- Five units are granted; two more than the quote are not. -/
theorem quote_grants_five :
    (oneAccount 1 1000000).checkAccount .cpu ⟨1, 1, -1⟩ ⟨5, 1000029, 6⟩ = .ok () ∧
      (oneAccount 1 1000000).checkAccount .cpu ⟨1, 1, -1⟩ ⟨5, 200000000012, 34559827203⟩ =
        .error Bandwidth.cpu.exceeded := by
  have hquote : (oneAccount 1 1000000).getAccountLimit .cpu 1 true = .ok 34559827200 := by
    decide +kernel
  have hfive : Accumulator.add ⟨5, 1000000, 1⟩ 5 5 172800 = .ok ⟨5, 1000029, 6⟩ := by
    decide +kernel
  have hmore : Accumulator.add ⟨5, 1000000, 1⟩ 34559827202 5 172800 =
      .ok ⟨5, 200000000012, 34559827203⟩ := by
    decide +kernel
  have husage : (oneAccount 1 1000000).getUsage 1 = .ok fun _ => ⟨5, 1000000, 1⟩ := rfl
  constructor
  · exact (quote_grants husage rfl (by decide) (by decide) rfl (by decide) (by decide) hquote
      hfive).1 (by decide) (.inl (by decide))
  · exact (quote_grants husage rfl (by decide) (by decide) rfl (by decide) (by decide) hquote
      hmore).2 (by decide)

def raised : ResourceManager :=
  [Call.limits (.initializeAccount 1), .limits (.initializeAccount 2),
    .limits (.setAccountLimits 1 0 1 1), .limits .processAccountLimitUpdates,
    .limits (.setAccountLimits 2 0 4611686018427387904 4611686018427387904)].foldl
      ResourceManager.apply initializeDatabase

/-- Until the end of the block, the share of account 2 is more than the whole. -/
theorem query_raises :
    (∃ es, Steps (fun s call s' => s' = s.apply call) initializeDatabase es raised) ∧
      (∃ limits, raised.getAccountLimits 2 = .ok limits) ∧
      thrown (raised.getAccountCpuLimitEx 2 true) = some ⟨.rateLimitingStateInconsistent,
        "Casting a higher bit integer value $\x7bv\x7d to a lower bit integer value which cannot contain the value, valid range is [$\x7bmin\x7d, $\x7bmax\x7d]"⟩ := by
  refine ⟨Steps.of_foldl _ _ _, ⟨⟨4611686018427387904, 4611686018427387904, 0⟩, ?_⟩, ?_⟩
  · decide +kernel
  · decide +kernel

theorem queries_return_raised :
    (∃ es, Steps (fun s call s' => s' = s.apply call) initializeDatabase es raised) ∧
      (∃ arl, raised.getAccountCpuLimitEx 1 true = .ok arl) ∧
      (∃ arl, raised.getAccountNetLimitEx 1 true = .ok arl) ∧
      ¬ ∃ arl, raised.getAccountNetLimitEx 2 true = .ok arl := by
  obtain ⟨es, hes⟩ := Steps.of_foldl ResourceManager.apply initializeDatabase
    [Call.limits (.initializeAccount 1), .limits (.initializeAccount 2),
      .limits (.setAccountLimits 1 0 1 1), .limits .processAccountLimitUpdates,
      .limits (.setAccountLimits 2 0 4611686018427387904 4611686018427387904)]
  have hone : raised.getAccountLimits 1 = .ok ⟨1, 1, 0⟩ := by decide +kernel
  have htwo : raised.getAccountLimits 2 = .ok ⟨4611686018427387904, 4611686018427387904, 0⟩ := by
    decide +kernel
  obtain ⟨hcpu, hnet⟩ := queries_return hes hone true
  refine ⟨⟨es, hes⟩, hcpu.mpr (by decide +kernel), hnet.mpr (by decide +kernel), ?_⟩
  exact mt (queries_return hes htwo true).2.mp (by decide +kernel)

end ResourceManager

end DimensionChain.Resource
