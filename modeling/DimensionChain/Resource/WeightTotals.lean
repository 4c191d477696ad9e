import DimensionChain.Resource.AccountLimits

/-!
# The totals are sums

Throughout a run the totals are the sums of the positive values over the rows that are not
pending. A processing call passes through the sums in which the accounts up to some owner have
their pending values already and the others their old ones; it succeeds exactly if all of these fit
in 64 bits.
-/

namespace DimensionChain.Resource

open List FlatMap Option Nat AccountLimits

def sumOf (f : AccountLimits → Int) (m : FlatMap LimitsKey AccountLimits) : Nat :=
  m.total fun k l => if k.pending then 0 else (f l).toNat

def sumUpTo (f : AccountLimits → Int) (m : FlatMap LimitsKey AccountLimits) (owner : AccountName) :
    Nat :=
  m.total fun k l =>
    if k.pending then 0
    else if k.owner ≤ owner then (f ((m.find? ⟨true, k.owner⟩).getD l)).toNat
    else (f l).toNat

section Sums
variable {f : AccountLimits → Int} {m : FlatMap LimitsKey AccountLimits} {owner : AccountName}
  {old new : AccountLimits} {bound : AccountName}

lemma total_settled {g : LimitsKey → AccountLimits → Nat} (hg : ∀ k l, k.pending → g k l = 0) :
    ((m.set ⟨false, owner⟩ new).erase ⟨true, owner⟩).total g =
      g ⟨false, owner⟩ new + (m.erase ⟨false, owner⟩).total g := by
  rw [← total_set]
  cases hfind : (m.set ⟨false, owner⟩ new).find? ⟨true, owner⟩ with
  | none => rw [total_of_none hfind]
  | some l => rw [total_of_find? hfind, hg _ _ rfl, zero_add]

lemma sumOf_settled (f : AccountLimits → Int) (new : AccountLimits)
    (hold : m.find? ⟨false, owner⟩ = some old) :
    sumOf f ((m.set ⟨false, owner⟩ new).erase ⟨true, owner⟩) + (f old).toNat =
      sumOf f m + (f new).toNat := by
  unfold sumOf
  rw [total_settled (by simp_all), total_of_find? hold]
  simp only [Bool.false_eq_true, if_false]
  omega

lemma toNat_le_sumOf (hold : m.find? ⟨false, owner⟩ = some old) : (f old).toNat ≤ sumOf f m := by
  unfold sumOf
  rw [total_of_find? hold]
  simp

lemma find?_settled {b : Bool} {other : AccountName} (hother : other ≠ owner) :
    ((m.set ⟨false, owner⟩ new).erase ⟨true, owner⟩).find? ⟨b, other⟩ = m.find? ⟨b, other⟩ := by
  rw [find?_erase, find?_set, if_neg, if_neg]
  · intro h
    exact hother (congrArg LimitsKey.owner h)
  · intro h
    exact hother (congrArg LimitsKey.owner h)

lemma find?_settled_pending :
    ((m.set ⟨false, owner⟩ new).erase ⟨true, owner⟩).find? ⟨true, owner⟩ = none := by
  rw [find?_erase, if_pos rfl]

lemma find?_settled_actual :
    ((m.set ⟨false, owner⟩ new).erase ⟨true, owner⟩).find? ⟨false, owner⟩ = some new := by
  rw [find?_erase, if_neg (by simp), find?_set, if_pos rfl]

lemma sumUpTo_settled (hold : m.find? ⟨false, owner⟩ = some old)
    (hnew : m.find? ⟨true, owner⟩ = some new) (hbound : owner ≤ bound) :
    sumUpTo f ((m.set ⟨false, owner⟩ new).erase ⟨true, owner⟩) bound = sumUpTo f m bound := by
  unfold sumUpTo
  rw [total_settled (by simp_all), total_of_find? hold]
  simp only [Bool.false_eq_true, if_false, if_pos hbound, find?_settled_pending, hnew,
    getD_none, getD_some]
  congr 1
  apply total_congr
  intro k l hk
  by_cases hpending : k.pending = true
  · rw [if_pos hpending, if_pos hpending]
  have howner : k.owner ≠ owner := by
    intro heq
    rw [find?_erase, if_pos] at hk
    · cases hk
    · cases k
      simp_all
  rw [if_neg hpending, if_neg hpending, find?_settled howner]

lemma sumUpTo_of_none
    (hnone : ∀ owner ≤ bound, m.find? ⟨true, owner⟩ = none) : sumUpTo f m bound = sumOf f m := by
  apply total_congr
  intro k l _
  by_cases hle : k.owner ≤ bound
  · rw [if_pos hle, hnone _ hle, getD_none]
  · rw [if_neg hle]

end Sums

section FirstPending
variable {m : FlatMap LimitsKey AccountLimits} {owner : AccountName} {l : AccountLimits}

open LimitsManager

lemma firstPending_eq_none : firstPending m = none ↔ ∀ owner, m.find? ⟨true, owner⟩ = none := by
  unfold firstPending
  rw [List.find?_eq_none]
  constructor
  · intro h owner
    by_contra hne
    obtain ⟨l, hl⟩ := ne_none_iff_exists'.mp hne
    exact h _ (find?_eq_some.mp hl) rfl
  intro h e he hpending
  have hfind : m.find? e.1 = some e.2 := find?_eq_some.mpr he
  have hkey : e.1 = ⟨true, e.1.owner⟩ := by
    rw [← hpending]
  rw [hkey, h] at hfind
  cases hfind

lemma LimitsKey.le_of_pending {a b : AccountName} (h : (⟨true, a⟩ : LimitsKey) < ⟨true, b⟩) :
    a < b := by
  have hlex : toLex (true, a) < toLex (true, b) := h
  rw [Prod.Lex.toLex_lt_toLex] at hlex
  simpa using hlex

lemma firstPending_eq_some {key : LimitsKey} (h : firstPending m = some (key, l)) :
    m.find? ⟨true, key.owner⟩ = some l ∧ ∀ owner < key.owner, m.find? ⟨true, owner⟩ = none := by
  have hpending := List.find?_some h
  have hkey : key = ⟨true, key.owner⟩ := by
    rw [← hpending]
  obtain ⟨before, after, hsplit, hbefore⟩ := (List.find?_eq_some_iff_append.mp h).2
  refine ⟨?_, ?_⟩
  · rw [← hkey]
    exact find?_eq_some.mpr (mem_of_find?_eq_some h)
  intro owner hlt
  by_contra hne
  obtain ⟨l', hl'⟩ := ne_none_iff_exists'.mp hne
  have hmem := find?_eq_some.mp hl'
  rw [hsplit] at hmem
  rcases mem_append.mp hmem with hin | hin
  · have hno := hbefore _ hin
    simp at hno
  rcases mem_cons.mp hin with heq | hin
  · have howner := congrArg (fun e => e.1.owner) heq
    exact lt_irrefl _ (howner ▸ hlt)
  have hsorted := m.sorted
  rw [hsplit, map_append, map_cons, pairwise_append, pairwise_cons]
    at hsorted
  have habove := hsorted.2.1.1 _ (mem_map_of_mem hin)
  rw [hkey] at habove
  exact lt_asymm hlt (LimitsKey.le_of_pending habove)

end FirstPending

section Step

variable {which : String} {total total' : Nat}

lemma revertOldValue_eq {value : Int} (hvalue : value.toNat ≤ total) :
    revertOldValue total value which = .ok (total - value.toNat) := by
  unfold revertOldValue
  split
  · rw [eosAssert, if_pos (by omega)]
    rfl
  · have hzero : value.toNat = 0 := by omega
    rw [hzero]
    rfl

lemma applyNewValue_ok_iff {pendingValue : Int} (htotal : total < 18446744073709551616) :
    applyNewValue total pendingValue which = .ok total' ↔
      total' = total + pendingValue.toNat ∧ total' < 18446744073709551616 := by
  unfold applyNewValue
  split
  · rw [bind_ok_iff]
    simp only [eosAssert_ok_iff]
    constructor
    · rintro ⟨_, hfits, heq⟩
      cases heq
      omega
    · rintro ⟨rfl, hfits⟩
      exact ⟨(), by omega, rfl⟩
  have hzero : pendingValue.toNat = 0 := by omega
  rw [hzero]
  constructor
  · intro heq
    cases heq
    exact ⟨rfl, htotal⟩
  · rintro ⟨rfl, -⟩
    rfl

lemma updateStateAndValue_ok_iff {value pendingValue : Int}
    (hvalue : value.toNat ≤ total) (htotal : total < 18446744073709551616) :
    updateStateAndValue total value pendingValue which = .ok total' ↔
      total' = total - value.toNat + pendingValue.toNat ∧ total' < 18446744073709551616 := by
  unfold updateStateAndValue
  rw [revertOldValue_eq hvalue]
  exact applyNewValue_ok_iff (by omega)

def resources : List (AccountLimits → Int) :=
  [ramBytes, cpuWeight, netWeight]

lemma forall_resources {P : (AccountLimits → Int) → Prop} : (∀ f ∈ resources, P f) ↔
      P ramBytes ∧ P cpuWeight ∧ P netWeight := by
  simp [resources]

def SumsFit (m : FlatMap LimitsKey AccountLimits) : Prop :=
  ∀ f ∈ resources, ∀ owner, (m.find? ⟨true, owner⟩).isSome →
    sumUpTo f m owner < 18446744073709551616

namespace LimitsManager
variable {s s' : LimitsManager} {owner : AccountName} {old new : AccountLimits}

structure Consistent (s : LimitsManager) : Prop where
  ram : s.totalRamBytes = sumOf ramBytes s.limits
  cpu : s.totalCpuWeight = sumOf cpuWeight s.limits
  net : s.totalNetWeight = sumOf netWeight s.limits
  fits : ∀ f ∈ resources, sumOf f s.limits < 18446744073709551616
  actual : ∀ owner, (s.limits.find? ⟨true, owner⟩).isSome →
    (s.limits.find? ⟨false, owner⟩).isSome

/-- The pending row of an owner in the place of the other one, and the sums of that. -/
def settle (s : LimitsManager) (owner : AccountName) (new : AccountLimits) : LimitsManager :=
  let limits := (s.limits.set ⟨false, owner⟩ new).erase ⟨true, owner⟩
  { s with
    limits := limits
    totalRamBytes := sumOf ramBytes limits
    totalCpuWeight := sumOf cpuWeight limits
    totalNetWeight := sumOf netWeight limits }

variable (hold : s.limits.find? ⟨false, owner⟩ = some old)
include hold

lemma updateStateAndValue_sum_iff {f : AccountLimits → Int} {which : String}
    (hfits : sumOf f s.limits < 18446744073709551616) :
    updateStateAndValue (sumOf f s.limits) (f old) (f new) which = .ok total ↔
      total = sumOf f (s.settle owner new).limits ∧
        sumOf f (s.settle owner new).limits < 18446744073709551616 := by
  have hle := toNat_le_sumOf (f := f) hold
  have hsum := sumOf_settled f new hold
  have hlimits : (s.settle owner new).limits =
      (s.limits.set ⟨false, owner⟩ new).erase ⟨true, owner⟩ := rfl
  rw [updateStateAndValue_ok_iff hle hfits, hlimits]
  omega

omit hold in
lemma processRow_ok_iff (hs : s.Consistent) (hold : s.limits.find? ⟨false, owner⟩ = some old) :
    s.processRow owner new = .ok s' ↔
      (∀ f ∈ resources, sumOf f (s.settle owner new).limits < 18446744073709551616) ∧
        s' = s.settle owner new := by
  obtain ⟨hram, hcpu, hnet⟩ := forall_resources.mp hs.fits
  rw [forall_resources]
  unfold processRow
  rw [hold, hs.ram, hs.cpu, hs.net]
  simp only [bind_ok_iff, updateStateAndValue_sum_iff hold hram,
    updateStateAndValue_sum_iff hold hcpu, updateStateAndValue_sum_iff hold hnet]
  constructor
  · rintro ⟨ram, ⟨rfl, hram'⟩, cpu, ⟨rfl, hcpu'⟩, net, ⟨rfl, hnet'⟩, heq⟩
    cases heq
    exact ⟨⟨hram', hcpu', hnet'⟩, rfl⟩
  · rintro ⟨⟨hram', hcpu', hnet'⟩, rfl⟩
    exact ⟨_, ⟨rfl, hram'⟩, _, ⟨rfl, hcpu'⟩, _, ⟨rfl, hnet'⟩, rfl⟩

omit hold in
lemma Consistent.settle (hs : s.Consistent)
    (hfits : ∀ f ∈ resources, sumOf f (s.settle owner new).limits < 18446744073709551616) :
    (s.settle owner new).Consistent := by
  refine ⟨rfl, rfl, rfl, hfits, ?_⟩
  intro other hsome
  change (((s.limits.set ⟨false, owner⟩ new).erase ⟨true, owner⟩).find? ⟨true, other⟩).isSome at hsome
  change (((s.limits.set ⟨false, owner⟩ new).erase ⟨true, owner⟩).find? ⟨false, other⟩).isSome
  by_cases heq : other = owner
  · rw [heq, find?_settled_actual]
    rfl
  · rw [find?_settled heq] at hsome ⊢
    exact hs.actual other hsome

variable (hnew : s.limits.find? ⟨true, owner⟩ = some new)
include hnew

lemma sumsFit_iff (hfirst : ∀ other < owner, s.limits.find? ⟨true, other⟩ = none) :
    SumsFit s.limits ↔
      (∀ f ∈ resources, sumOf f (s.settle owner new).limits < 18446744073709551616) ∧
        SumsFit (s.settle owner new).limits := by
  have hnow : ∀ f, sumOf f (s.settle owner new).limits = sumUpTo f s.limits owner := by
    intro f
    rw [← sumUpTo_settled hold hnew (le_refl owner)]
    symm
    apply sumUpTo_of_none
    intro other hle
    rcases Nat.lt_or_eq_of_le hle with hlt | rfl
    · rw [find?_settled (Nat.ne_of_lt hlt)]
      exact hfirst other hlt
    · exact find?_settled_pending
  have hlater : ∀ f other, ((s.settle owner new).limits.find? ⟨true, other⟩).isSome →
      other ≠ owner ∧ (s.limits.find? ⟨true, other⟩).isSome ∧
        sumUpTo f (s.settle owner new).limits other = sumUpTo f s.limits other := by
    intro f other hsome
    change (((s.limits.set ⟨false, owner⟩ new).erase ⟨true, owner⟩).find? ⟨true, other⟩).isSome
      at hsome
    have hne : other ≠ owner := by
      rintro rfl
      rw [find?_settled_pending] at hsome
      cases hsome
    rw [find?_settled hne] at hsome
    refine ⟨hne, hsome, sumUpTo_settled hold hnew ?_⟩
    by_contra hlt
    rw [hfirst other (not_le.mp hlt)] at hsome
    cases hsome
  constructor
  · intro h
    refine ⟨?_, ?_⟩
    · intro f hf
      rw [hnow]
      exact h f hf owner (by rw [hnew]; rfl)
    intro f hf other hsome
    obtain ⟨-, hsome', heq⟩ := hlater f other hsome
    rw [heq]
    exact h f hf other hsome'
  rintro ⟨hfits, hrest⟩ f hf other hsome
  by_cases heq : other = owner
  · rw [heq, ← hnow]
    exact hfits f hf
  have hsettled : ((s.settle owner new).limits.find? ⟨true, other⟩).isSome := by
    change (((s.limits.set ⟨false, owner⟩ new).erase ⟨true, owner⟩).find? _).isSome
    rw [find?_settled heq]
    exact hsome
  obtain ⟨-, -, hsum⟩ := hlater f other hsettled
  rw [← hsum]
  exact hrest f hf other hsettled

omit hold in
lemma getAccountLimits_settle (account : AccountName) :
    (s.settle owner new).getAccountLimits account = s.getAccountLimits account := by
  have hlimits : (s.settle owner new).limits =
      (s.limits.set ⟨false, owner⟩ new).erase ⟨true, owner⟩ := rfl
  unfold getAccountLimits findPendingLimits
  rw [hlimits]
  by_cases heq : account = owner
  · rw [heq, find?_settled_pending, find?_settled_actual, hnew]
  · rw [find?_settled heq, find?_settled heq]

lemma size_settle : (s.settle owner new).limits.size + 1 = s.limits.size := by
  have hpending : (s.limits.set ⟨false, owner⟩ new).find? ⟨true, owner⟩ = some new := by
    rw [find?_set, if_neg (by simp), hnew]
  have herase := (perm_erase hpending).length_eq
  have hset := (s.limits.perm_set ⟨false, owner⟩ new).length_eq
  have hactual := (perm_erase hold).length_eq
  simp only [length_cons] at herase hset hactual
  change ((s.limits.set ⟨false, owner⟩ new).erase ⟨true, owner⟩).entries.length + 1 =
    s.limits.entries.length
  omega

omit hnew hold

lemma processLoop_spec (fuel : Nat) (hs : s.Consistent) (hfuel : s.limits.size < fuel) :
    ((∃ t, processLoop fuel s = .ok t) ↔ SumsFit s.limits) ∧
      ∀ t, processLoop fuel s = .ok t → t.Consistent ∧
        (∀ owner, t.limits.find? ⟨true, owner⟩ = none) ∧
        ∀ account, t.getAccountLimits account = s.getAccountLimits account := by
  induction fuel generalizing s with
  | zero => exact absurd hfuel (not_lt_zero _)
  | succ fuel ih =>
    unfold processLoop
    cases hpending : firstPending s.limits with
    | none =>
      have hnone := firstPending_eq_none.mp hpending
      refine ⟨iff_of_true ⟨s, rfl⟩ ?_, ?_⟩
      · intro f _ owner hsome
        rw [hnone] at hsome
        cases hsome
      · intro t ht
        cases ht
        exact ⟨hs, hnone, fun _ => rfl⟩
    | some e =>
      obtain ⟨key, new⟩ := e
      obtain ⟨hnew, hfirst⟩ := firstPending_eq_some hpending
      obtain ⟨old, hold⟩ := isSome_iff_exists.mp
        (hs.actual key.owner (by rw [hnew]; rfl))
      have hsize := size_settle hold hnew
      simp only [bind_ok_iff, processRow_ok_iff hs hold]
      rw [sumsFit_iff hold hnew hfirst]
      refine ⟨?_, ?_⟩
      · constructor
        · rintro ⟨t, s', ⟨hfits, rfl⟩, ht⟩
          obtain ⟨hiff, -⟩ := ih (hs.settle hfits) (by omega)
          exact ⟨hfits, hiff.mp ⟨t, ht⟩⟩
        rintro ⟨hfits, hrest⟩
        obtain ⟨hiff, -⟩ := ih (hs.settle hfits) (by omega)
        obtain ⟨t, ht⟩ := hiff.mpr hrest
        exact ⟨t, _, ⟨hfits, rfl⟩, ht⟩
      rintro t ⟨s', ⟨hfits, rfl⟩, ht⟩
      obtain ⟨-, hafter⟩ := ih (hs.settle hfits) (by omega)
      obtain ⟨htcons, htnone, htlimits⟩ := hafter t ht
      refine ⟨htcons, htnone, ?_⟩
      intro account
      rw [htlimits, getAccountLimits_settle hnew]

lemma processAccountLimitUpdates_spec (hs : s.Consistent) :
    ((∃ t, s.processAccountLimitUpdates = .ok t) ↔ SumsFit s.limits) ∧
      ∀ t, s.processAccountLimitUpdates = .ok t → t.Consistent ∧
        (∀ owner, t.limits.find? ⟨true, owner⟩ = none) ∧
        ∀ account, t.getAccountLimits account = s.getAccountLimits account :=
  processLoop_spec (s.limits.size + 1) hs (lt_succ_self _)

end LimitsManager

end Step

namespace LimitsManager
variable {s s' : LimitsManager} {account : AccountName} {m : FlatMap LimitsKey AccountLimits}
  {f : AccountLimits → Int}

lemma sumOf_initialized (hf : (f {}).toNat = 0) (hnew : m.find? ⟨false, account⟩ = none) :
    sumOf f (m.set ⟨false, account⟩ {}) = sumOf f m := by
  unfold sumOf
  rw [total_set, total_of_none hnew]
  simp [hf]

lemma sumOf_pending {l : AccountLimits} : sumOf f (m.set ⟨true, account⟩ l) = sumOf f m := by
  unfold sumOf
  rw [total_set]
  cases hfind : m.find? ⟨true, account⟩ with
  | none =>
    rw [total_of_none hfind]
    simp
  | some old =>
    rw [total_of_find? hfind]
    simp

variable (hs : s.Consistent)
include hs

lemma Consistent.of_sums (hram : s'.totalRamBytes = s.totalRamBytes)
    (hcpu : s'.totalCpuWeight = s.totalCpuWeight) (hnet : s'.totalNetWeight = s.totalNetWeight)
    (hsums : ∀ f ∈ resources, sumOf f s'.limits = sumOf f s.limits)
    (hactual : ∀ owner, (s'.limits.find? ⟨true, owner⟩).isSome →
      (s'.limits.find? ⟨false, owner⟩).isSome) : s'.Consistent := by
  obtain ⟨hramsum, hcpusum, hnetsum⟩ := forall_resources.mp hsums
  refine ⟨?_, ?_, ?_, ?_, hactual⟩
  · rw [hram, hs.ram, hramsum]
  · rw [hcpu, hs.cpu, hcpusum]
  · rw [hnet, hs.net, hnetsum]
  · intro f hf
    rw [hsums f hf]
    exact hs.fits f hf

omit hs in
lemma insertNew_ok {κ ν : Type} [LinearOrder κ] {m m' : FlatMap κ ν} {k : κ} {v : ν}
    (h : insertNew m k v = .ok m') : m.find? k = none ∧ m' = m.set k v := by
  obtain ⟨hnone, h⟩ := assert_ok h
  cases h
  exact ⟨isNone_iff_eq_none.mp hnone, rfl⟩

lemma Consistent.initializeAccount (h : s.initializeAccount account = .ok s') : s'.Consistent := by
  obtain ⟨limits, hlimits, h⟩ := bind_ok_iff.mp h
  obtain ⟨usages, h⟩ := ok_after h
  cases h
  obtain ⟨hnew, rfl⟩ := insertNew_ok hlimits
  refine hs.of_sums rfl rfl rfl ?_ ?_
  · rw [forall_resources]
    exact ⟨sumOf_initialized rfl hnew, sumOf_initialized rfl hnew, sumOf_initialized rfl hnew⟩
  intro owner hsome
  rw [find?_set, if_neg (by simp)] at hsome
  rw [find?_set]
  split
  · rfl
  · exact hs.actual owner hsome

lemma Consistent.setAccountLimits {ramBytes netWeight cpuWeight : Int} {decreased : Bool}
    (h : s.setAccountLimits account ramBytes netWeight cpuWeight = .ok (decreased, s')) :
    s'.Consistent := by
  obtain ⟨limits, hlimits, h⟩ := bind_ok_iff.mp h
  cases h
  refine hs.of_sums rfl rfl rfl ?_ ?_
  · intro f _
    exact sumOf_pending
  intro owner hsome
  rw [find?_set, if_neg (by simp)]
  rw [find?_set] at hsome
  split at hsome
  · rename_i heq
    obtain rfl := congrArg LimitsKey.owner heq
    -- the account has a row, pending or not
    unfold findPendingLimits at hlimits
    cases hpending : s.limits.find? ⟨true, owner⟩ with
    | some l => exact hs.actual owner (by rw [hpending]; rfl)
    | none =>
      rw [hpending] at hlimits
      cases hactual : s.limits.find? ⟨false, owner⟩ with
      | some l => rfl
      | none =>
        rw [hactual] at hlimits
        cases hlimits
  · exact hs.actual owner hsome

lemma Consistent.result {call : Call} (h : s.result call = .ok s') : s'.Consistent := by
  cases call with
  | initializeAccount account => exact hs.initializeAccount h
  | setAccountLimits account ramBytes netWeight cpuWeight =>
    change (s.setAccountLimits account ramBytes netWeight cpuWeight).map Prod.snd = .ok s' at h
    cases hset : s.setAccountLimits account ramBytes netWeight cpuWeight with
    | error e =>
      rw [hset] at h
      cases h
    | ok r =>
      rw [hset] at h
      cases h
      exact hs.setAccountLimits hset
  | processAccountLimitUpdates =>
    exact ((processAccountLimitUpdates_spec hs).2 s' h).1

lemma Consistent.apply (call : Call) : (s.apply call).Consistent := by
  unfold LimitsManager.apply
  cases h : s.result call with
  | error e => exact hs
  | ok s' => exact hs.result h

omit hs

lemma consistent_initial : ({} : LimitsManager).Consistent := by
  refine ⟨rfl, rfl, rfl, ?_, ?_⟩
  · intro f _
    change 0 < 18446744073709551616
    decide
  · intro owner hsome
    cases hsome

/-- In every run a processing call succeeds exactly if the sums it passes through fit in 64 bits;
then no pending row remains, the totals are the sums, and no account's limits have changed. -/
theorem totals_are_sums {es : List (LimitsManager × Call × LimitsManager)} {t : LimitsManager}
    (hrun : Steps (fun s call s' => s' = s.apply call) {} es t) :
    ∀ s s', (s, .processAccountLimitUpdates, s') ∈ es →
      ((∃ r, s.processAccountLimitUpdates = .ok r) ↔ SumsFit s.limits) ∧ (SumsFit s.limits →
        s.processAccountLimitUpdates = .ok s' ∧ (∀ owner, s'.limits.find? ⟨true, owner⟩ = none) ∧
        s'.totalRamBytes = sumOf ramBytes s'.limits ∧
        s'.totalCpuWeight = sumOf cpuWeight s'.limits ∧
        s'.totalNetWeight = sumOf netWeight s'.limits ∧
        ∀ account, s'.getAccountLimits account = s.getAccountLimits account) := by
  intro s s' hmem
  have hstep : ∀ (s : LimitsManager) (call : Call) (s' : LimitsManager), s.Consistent →
      s' = s.apply call → s'.Consistent := by
    intro s call s' hs h
    rw [h]
    exact hs.apply call
  obtain ⟨(hs : s.Consistent), (hs' : s' = s.apply .processAccountLimitUpdates)⟩ :=
    hrun.forall_mem (Q := Consistent) (fun hs h => hstep _ _ _ hs h) consistent_initial _ hmem
  obtain ⟨hiff, hafter⟩ := processAccountLimitUpdates_spec hs
  refine ⟨hiff, ?_⟩
  intro hfits
  obtain ⟨r, hr⟩ := hiff.mpr hfits
  have heq : s' = r := by
    rw [hs']
    change (s.processAccountLimitUpdates).toOption.getD s = r
    rw [hr]
    rfl
  obtain ⟨hcons, hnone, hlimits⟩ := hafter r hr
  rw [heq]
  exact ⟨hr, hnone, hcons.ram, hcons.cpu, hcons.net, hlimits⟩

end LimitsManager

open LimitsManager

def afterCalls (calls : List Call) : LimitsManager := calls.foldl LimitsManager.apply {}

lemma steps_afterCalls (calls : List Call) : ∃ es,
    Steps (fun s call s' => s' = s.apply call) {} es (afterCalls calls) :=
  Steps.of_foldl LimitsManager.apply {} calls

def largest : Int := 9223372036854775807

/-- Accounts 2 and 3 have the largest limit, which is then to become that of account 1. -/
def handedOver : List Call :=
  [.initializeAccount 1, .initializeAccount 2, .initializeAccount 3,
    .setAccountLimits 2 largest 0 0, .setAccountLimits 3 largest 0 0,
    .processAccountLimitUpdates,
    .setAccountLimits 1 largest 0 0, .setAccountLimits 2 0 0 0, .setAccountLimits 3 0 0 0]

/-- The sums before and after fit in 64 bits, but not the one in between. -/
theorem handedOver_overflows :
    (∃ es, Steps (fun s call s' => s' = s.apply call) {} es (afterCalls handedOver)) ∧
    (∀ f ∈ resources, sumOf f (afterCalls handedOver).limits < 18446744073709551616 ∧
      sumUpTo f (afterCalls handedOver).limits 3 < 18446744073709551616) ∧
    (afterCalls handedOver).processAccountLimitUpdates =
      .error ⟨.rateLimitingStateInconsistent, "overflow when applying new value to ram_bytes"⟩ := by
  refine ⟨steps_afterCalls handedOver, ?_, ?_⟩
  · decide +kernel
  · apply error_of_thrown
    decide +kernel

def givenAway : List Call :=
  [.initializeAccount 1, .initializeAccount 2, .setAccountLimits 1 100 10 10,
    .processAccountLimitUpdates, .setAccountLimits 1 (-1) 10 10, .setAccountLimits 2 100 (-1) 5]

theorem totals_are_sums_givenAway : ∃ t, (afterCalls givenAway).processAccountLimitUpdates = .ok t ∧
      (∀ owner, t.limits.find? ⟨true, owner⟩ = none) ∧
      t.totalRamBytes = sumOf ramBytes t.limits ∧
      t.totalCpuWeight = sumOf cpuWeight t.limits ∧
      t.totalNetWeight = sumOf netWeight t.limits ∧
      t.totalRamBytes = 100 ∧ t.totalCpuWeight = 15 ∧ t.totalNetWeight = 10 := by
  obtain ⟨es, hes⟩ := steps_afterCalls givenAway
  have hrun := hes.snoc (i := Call.processAccountLimitUpdates) rfl
  obtain ⟨hiff, hafter⟩ := totals_are_sums hrun (afterCalls givenAway) _
    (mem_append_right _ (mem_singleton_self _))
  have hok : okAnd (afterCalls givenAway).processAccountLimitUpdates
      (fun t => t.totalRamBytes = 100 ∧ t.totalCpuWeight = 15 ∧ t.totalNetWeight = 10) = true := by
    decide +kernel
  obtain ⟨t, ht, htotals⟩ := exists_ok_of_okAnd hok
  obtain ⟨ht', hnone, hram, hcpu, hnet, -⟩ := hafter (hiff.mp ⟨t, ht⟩)
  rw [ht] at ht'
  cases ht'
  exact ⟨_, ht, hnone, hram, hcpu, hnet, of_decide_eq_true htotals⟩

end DimensionChain.Resource
