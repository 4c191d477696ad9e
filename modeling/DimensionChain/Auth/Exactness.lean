import DimensionChain.Auth.Soundness

/-!
# When the answer is exact

A permission is passed over when its evaluation is still open or the depth limit is reached, and
the permission above it is then cached as unsatisfied. So the order in which permissions are first
evaluated decides the answer, and an additional key changes that order. The permission that is
asked about is open all the time and does no harm: if it is justified, then without itself. Where
no chain of account factors below it meets another open permission or the limit, the answer is
membership in the least set, which grows with the keys, the permissions and the delay.
-/

namespace DimensionChain.Auth

open Tally List MetaPermission

namespace Checker
variable {Key : Type} {c : Checker Key} {p q : PermissionLevel} {m : MetaPermission Key}
  {a : Authority Key} {n h : Nat}

/-- What `validate` and `validate_authority_precondition` ensure of an authority before it is
stored: its weights fit the 32 bits of the tally, and its account factors are named. -/
structure WellFormedAuthority (a : Authority Key) : Prop where
  fits : a.totalWeight < 4294967296
  named : ∀ w ∈ a.accounts, w.permission.actor ≠ 0 ∧ w.permission.permission ≠ 0

def WellFormed (c : Checker Key) : Prop :=
  ∀ p a, c.permissionToAuthority p = .ok a → WellFormedAuthority a

lemma sum_metaPermissions (a : Authority Key) :
    (a.metaPermissions.map MetaPermission.weight).sum = a.totalWeight :=
  (a.metaPermissions_perm.map _).sum_eq

/-- The authority that a first visit to the permission evaluates. -/
def authorityOf (c : Checker Key) (p : PermissionLevel) : Option (Authority Key) :=
  if p ∈ c.providedPermissions ∨ ⟨p.actor, 0⟩ ∈ c.providedPermissions then none
  else (c.permissionToAuthority p).toOption

lemma authorityOf_eq_some :
    c.authorityOf p = some a ↔ ¬ c.Provided p ∧ c.permissionToAuthority p = .ok a := by
  unfold authorityOf Provided
  split
  · simp_all
  · cases c.permissionToAuthority p <;> simp_all [Except.toOption]

/-- Every chain of account factors that starts with the permission has at most `n` permissions
with an authority to evaluate. -/
def Within (c : Checker Key) : Nat → PermissionLevel → Prop
  | 0, q => c.authorityOf q = none
  | n + 1, q => ∀ a ∈ c.authorityOf q, ∀ w ∈ a.accounts, c.Within n w.permission

instance decidableWithin (c : Checker Key) : (n : Nat) → DecidablePred (c.Within n)
  | 0 => fun q => inferInstanceAs (Decidable (c.authorityOf q = none))
  | n + 1 => fun q =>
    have := c.decidableWithin n
    inferInstanceAs (Decidable (∀ a ∈ c.authorityOf q, ∀ w ∈ a.accounts, c.Within n w.permission))

lemma Within.succ (hq : c.Within n q) : c.Within (n + 1) q := by
  induction n generalizing q with
  | zero =>
    intro a ha
    rw [show c.authorityOf q = none from hq] at ha
    cases ha
  | succ n ih => exact fun a ha w hw => ih (hq a ha w hw)

lemma Within.mono (hq : c.Within n q) (hle : n ≤ h) : c.Within h q := by
  induction hle with
  | refl => exact hq
  | step _ ih => exact ih.succ

lemma Within.least (hq : c.Within n q) (ha : c.authorityOf q = some a) :
    ∃ k < n, ¬ c.Within k q ∧ ∀ w ∈ a.accounts, c.Within k w.permission := by
  induction n with
  | zero =>
    rw [show c.authorityOf q = none from hq] at ha
    cases ha
  | succ n ih =>
    by_cases hn : c.Within n q
    · obtain ⟨k, hk, hleast⟩ := ih hn
      exact ⟨k, by omega, hleast⟩
    · exact ⟨n, by omega, hn, hq a ha⟩

/-- The same checker as long as the permission is being evaluated. -/
def without (c : Checker Key) (p : PermissionLevel) : Checker Key :=
  { c with permissionTable := fun q => if q = p then none else c.permissionTable q }

lemma without_of_ne (c : Checker Key) (hne : q ≠ p) :
    (c.without p).permissionToAuthority q = c.permissionToAuthority q := by
  simp [permissionToAuthority, without, hne]

lemma ne_of_without (ha : (c.without p).permissionToAuthority q = .ok a) :
    q ≠ p ∧ c.permissionToAuthority q = .ok a := by
  have hne : q ≠ p := by
    rintro rfl
    unfold permissionToAuthority without at ha
    split at ha
    · cases ha
    · simp at ha
  exact ⟨hne, (c.without_of_ne hne).symm.trans ha⟩

lemma without_justified (c : Checker Key) (p : PermissionLevel) :
    (c.without p).justified ⊆ c.justified := by
  apply OrderHom.lfp_le
  rintro q (hq | ⟨a, ha, hreach⟩)
  · exact justified_of_provided hq
  · exact (c.mem_justified_iff q).mpr (.inr ⟨a, (ne_of_without ha).2, hreach⟩)

/-- The authority of a justified permission is reached without it. -/
lemma reached_without (ha : c.authorityOf p = some a) (hj : p ∈ c.justified) :
    c.Reached (c.without p).justified a := by
  obtain ⟨hnot, ha⟩ := authorityOf_eq_some.mp ha
  obtain ⟨hne, hle⟩ := (justified_iff_reached hnot ha).mp hj
  by_contra hreach
  -- otherwise the set without the permission is closed, and so contains the least set
  have hsub : c.justified ⊆ (c.without p).justified := by
    apply OrderHom.lfp_le
    rintro q (hq | ⟨b, hb, hq⟩)
    · exact ((c.without p).mem_justified_iff q).mpr (.inl hq)
    have hqp : q ≠ p := by
      rintro rfl
      rw [ha] at hb
      cases hb
      exact hreach hq
    exact ((c.without p).mem_justified_iff q).mpr (.inr ⟨b, (c.without_of_ne hqp).trans hb, hq⟩)
  exact hreach ⟨hne, le_trans hle (c.weightIn_mono hsub a)⟩

/-- Every chain of account factors that starts with the permission and does not come back to it
has at most as many permissions as the depth limit allows. -/
def EndsWithin (c : Checker Key) (p : PermissionLevel) : Prop :=
  ∀ a ∈ c.authorityOf p, 0 < c.recursionDepthLimit ∧
    ∀ w ∈ a.accounts, (c.without p).Within (c.recursionDepthLimit - 1) w.permission

instance decidableEndsWithin (c : Checker Key) : DecidablePred c.EndsWithin := fun p =>
  inferInstanceAs (Decidable (∀ a ∈ c.authorityOf p, 0 < c.recursionDepthLimit ∧
    ∀ w ∈ a.accounts, (c.without p).Within (c.recursionDepthLimit - 1) w.permission))

/-- What is marked as unsatisfied is not justified without the permission that is asked about. -/
structure CacheComplete (c : Checker Key) (p : PermissionLevel) (st : CheckState Key) : Prop
    extends c.CacheSound Set.univ st where
  unsatisfied : ∀ q, st.cachedPermissions q = some .permissionUnsatisfied →
    q ∉ (c.without p).justified
  asked : st.cachedPermissions p = some .beingEvaluated
  notProvided : ¬ c.Provided p

/-- The other permissions that are being evaluated have longer chains than what is evaluated now. -/
def OpenAbove (c : Checker Key) (p : PermissionLevel) (h : Nat) (st : CheckState Key) : Prop :=
  ∀ q, st.cachedPermissions q = some .beingEvaluated → q = p ∨ ¬ (c.without p).Within h q

/-- No more permissions are being evaluated. -/
def OpenedIn (st st' : CheckState Key) : Prop :=
  ∀ q, st'.cachedPermissions q = some .beingEvaluated →
    st.cachedPermissions q = some .beingEvaluated

section Cache
variable {st st' : CheckState Key}

/-- The marks of a permission before and after its evaluation. -/
lemma OpenedIn.mark {s : PermissionCacheStatus} (h : OpenedIn (st.mark q .beingEvaluated) st')
    (hs : s ≠ .beingEvaluated) : OpenedIn st (st'.mark q s) := by
  intro x hx
  have hopen := h x
  rw [CheckState.mark_cachedPermissions] at hx hopen
  by_cases hxq : x = q
  · simp [hxq, hs] at hx
  · rw [if_neg hxq] at hx hopen
    exact hopen hx

variable (hst : c.CacheComplete p st)
include hst

lemma CacheComplete.usedKeys (used : Finset Key) : c.CacheComplete p { st with usedKeys := used } :=
  ⟨hst.toCacheSound.usedKeys used, hst.unsatisfied, hst.asked, hst.notProvided⟩

lemma CacheComplete.mark {s : PermissionCacheStatus} (hne : q ≠ p) (ha : c.authorityOf q = some a)
    (hu : s = .permissionUnsatisfied → q ∉ (c.without p).justified) :
    c.CacheComplete p (st.mark q s) where
  toCacheSound := hst.toCacheSound.mark (authorityOf_eq_some.mp ha).1 (authorityOf_eq_some.mp ha).2
    fun _ => trivial
  unsatisfied := CheckState.forall_mark hst.unsatisfied hu
  asked := by
    rw [CheckState.mark_cachedPermissions, if_neg hne.symm]
    exact hst.asked
  notProvided := hst.notProvided

lemma CacheComplete.ne_asked (hstatus : st.permissionStatusInCache q = none) : q ≠ p := by
  rintro rfl
  have hnone := (CheckState.permissionStatusInCache_none hstatus).1
  rw [hst.asked] at hnone
  cases hnone

lemma CacheComplete.not_justified
    (hstatus : st.permissionStatusInCache q = some .permissionUnsatisfied) :
    q ∉ (c.without p).justified := by
  rcases CheckState.permissionStatusInCache_cases hstatus with hq | ha
  · exact hst.unsatisfied q hq
  · cases (hst.unnamed _ _ ha).2

lemma CacheComplete.asked_not_justified : p ∉ (c.without p).justified := by
  intro hp
  rcases ((c.without p).mem_justified_iff p).mp hp with hp | ⟨a, ha, -⟩
  · exact hst.notProvided hp
  · exact (ne_of_without ha).1 rfl

end Cache

/-- The same permissions and limit, with more keys, more permissions and a longer delay. -/
structure Extends (c c' : Checker Key) : Prop where
  table : c'.permissionTable = c.permissionTable
  limit : c'.recursionDepthLimit = c.recursionDepthLimit
  keys : c.providedKeys ⊆ c'.providedKeys
  permissions : c.providedPermissions ⊆ c'.providedPermissions
  delay : c.providedDelay ≤ c'.providedDelay

section Extends
variable {c' : Checker Key} (hle : c.Extends c')
include hle

lemma Extends.permissionToAuthority (p : PermissionLevel) :
    c'.permissionToAuthority p = c.permissionToAuthority p := by
  simp only [Checker.permissionToAuthority, hle.table]

lemma Extends.holds {S : Set PermissionLevel} (hm : c.Holds S m) : c'.Holds S m := by
  cases m with
  | wait w => exact le_trans hm hle.delay
  | key k => exact hle.keys hm
  | permissionLevel p => exact hm

lemma Extends.provided (hp : c.Provided p) : c'.Provided p := by
  rcases hp with hp | hp
  · exact .inl (hle.permissions hp)
  · exact .inr (hle.permissions hp)

lemma Extends.justified : c.justified ⊆ c'.justified := by
  apply OrderHom.lfp_le
  rintro p (hp | ⟨a, ha, hne, hreach⟩)
  · exact justified_of_provided (hle.provided hp)
  · apply (c'.mem_justified_iff p).mpr
    refine .inr ⟨a, (hle.permissionToAuthority p).trans ha, hne, le_trans hreach ?_⟩
    exact tally_mono fun _ _ hm => hle.holds hm

end Extends

/-- A factor that is named and starts chains of at most `h` permissions. -/
def Shallow (c : Checker Key) (p : PermissionLevel) (h : Nat) : MetaPermission Key → Prop
  | .permissionLevel w => (w.permission.actor ≠ 0 ∧ w.permission.permission ≠ 0) ∧
    (c.without p).Within h w.permission
  | _ => True

lemma WellFormedAuthority.shallow (ha : WellFormedAuthority a)
    (hw : ∀ w ∈ a.accounts, (c.without p).Within h w.permission) :
    ∀ m ∈ a.metaPermissions, c.Shallow p h m := by
  intro m hm
  cases m with
  | wait w => trivial
  | key k => trivial
  | permissionLevel w =>
    have hmem : permissionLevel w ∈ a.factors := a.metaPermissions_perm.mem_iff.mp hm
    simp [Authority.factors] at hmem
    exact ⟨ha.named w hmem, hw w hmem⟩

lemma not_found {e : ChainException} (hnamed : q.actor ≠ 0 ∧ q.permission ≠ 0)
    (herr : c.permissionToAuthority q = .error e) : e.kind = .permissionQuery := by
  unfold permissionToAuthority at herr
  rw [if_neg (by simp [hnamed])] at herr
  split at herr
  · cases herr
    rfl
  · cases herr

lemma justified_iff_provided (hnone : c.authorityOf q = none) : q ∈ c.justified ↔ c.Provided q := by
  refine ⟨fun hj => ?_, justified_of_provided⟩
  by_contra hnot
  rcases (c.mem_justified_iff q).mp hj with hp | ⟨a, ha, -⟩
  · exact hnot hp
  · rw [authorityOf_eq_some.mpr ⟨hnot, ha⟩] at hnone
    cases hnone

lemma not_justified_of_error {e : ChainException} (hnot : ¬ c.Provided q)
    (herr : c.permissionToAuthority q = .error e) : q ∉ (c.without p).justified := by
  intro hj
  rcases (c.mem_justified_iff q).mp (c.without_justified p hj) with hp | ⟨a, ha, -⟩
  · exact hnot hp
  · rw [herr] at ha
    cases ha

variable [DecidableEq Key]

/-- With `n` levels of recursion left, an authority whose account factors start chains of at most
`n` permissions is accepted if it is reached with justified factors. -/
def CompleteAt (c : Checker Key) (p : PermissionLevel) (n : Nat) : Prop :=
  ∀ h ≤ n, ∀ a st, WellFormedAuthority a →
    (∀ w ∈ a.accounts, (c.without p).Within h w.permission) → c.CacheComplete p st →
    c.OpenAbove p h st → ∃ r st', c.satisfiedAuthority (c.evaluator n) a st = .ok (r, st') ∧
      c.CacheComplete p st' ∧ OpenedIn st st' ∧ (c.Reached (c.without p).justified a → r = true)

/-- The mark that a permission gets after its evaluation. -/
def answer (r : Bool) : PermissionCacheStatus :=
  if r then .permissionSatisfied else .permissionUnsatisfied

/-- A visit returns, and adds the weight of the factor if it is justified. -/
def Gains (c : Checker Key) (p : PermissionLevel) (m : MetaPermission Key) (total : Nat)
    (st : CheckState Key) (x : Result (Nat × CheckState Key)) : Prop :=
  ∃ t st', x = .ok (t, st') ∧ c.CacheComplete p st' ∧ OpenedIn st st' ∧ t ≤ total + m.weight ∧
    total + gain weight (c.Holds (c.without p).justified) m ≤ t

section Visits
variable {st st' : CheckState Key} {auth : Authority Key} {f : Evaluator Key} {total : Nat}

omit [DecidableEq Key]

lemma Gains.counted (hst : c.CacheComplete p st') (hopen : OpenedIn st st')
    (hfits : total + m.weight < 4294967296) :
    c.Gains p m total st (.ok (u32 (total + m.weight), st')) := by
  rw [u32_eq hfits]
  exact ⟨_, _, rfl, hst, hopen, le_rfl, Nat.add_le_add_left (gain_le m) total⟩

lemma Gains.passed (hst : c.CacheComplete p st') (hopen : OpenedIn st st')
    (hm : ¬ c.Holds (c.without p).justified m) : c.Gains p m total st (.ok (total, st')) := by
  refine ⟨_, _, rfl, hst, hopen, Nat.le_add_right _ _, ?_⟩
  rw [gain_neg hm]
  exact le_rfl

/-- The authority of an account factor is entered with the least number of permissions that its
chains have, which those of the factor exceed. -/
lemma nested_entry (hq : (c.without p).Within h q) (hst : c.CacheComplete p st)
    (hopen : c.OpenAbove p h st) (hstatus : st.permissionStatusInCache q = none)
    (hauth : c.permissionToAuthority q = .ok auth) :
    (c.without p).authorityOf q = some auth ∧ ∃ k < h,
      (∀ w ∈ auth.accounts, (c.without p).Within k w.permission) ∧
      c.CacheComplete p (st.mark q .beingEvaluated) ∧
      c.OpenAbove p k (st.mark q .beingEvaluated) := by
  have hne := hst.ne_asked hstatus
  have hnot := hst.not_provided hstatus
  have hd : (c.without p).authorityOf q = some auth :=
    authorityOf_eq_some.mpr ⟨hnot, (c.without_of_ne hne).trans hauth⟩
  obtain ⟨k, hk, hleast, hw⟩ := hq.least hd
  refine ⟨hd, k, hk, hw, hst.mark hne (authorityOf_eq_some.mpr ⟨hnot, hauth⟩) nofun,
    CheckState.forall_mark ?_ fun _ => .inr hleast⟩
  exact fun x hx => (hopen x hx).imp_right fun hnot hx => hnot (hx.mono (by omega))

variable [DecidableEq Key] (hwf : c.WellFormed) (hsub : ∀ k, n = k + 1 → c.CompleteAt p k)
  (hn : h ≤ n)
include hwf hsub hn

lemma nested_complete (hq : (c.without p).Within h q) (hst : c.CacheComplete p st)
    (hopen : c.OpenAbove p h st) (hstatus : st.permissionStatusInCache q = none)
    (hf : c.evaluator n = some f) (hauth : c.permissionToAuthority q = .ok auth) :
    ∃ r st₁, f auth (st.mark q .beingEvaluated) = .ok (r, st₁) ∧
      c.CacheComplete p (st₁.mark q (answer r)) ∧ OpenedIn st (st₁.mark q (answer r)) ∧
      (q ∈ (c.without p).justified → r = true) := by
  obtain ⟨hd, k, hk, hw, hst', hopen'⟩ := nested_entry hq hst hopen hstatus hauth
  cases n with
  | zero => cases hf
  | succ n =>
    cases hf
    obtain ⟨r, st₁, hrun, hst₁, hopened, hr⟩ := hsub n rfl k (by omega) auth _
      (hwf _ _ hauth) hw hst' hopen'
    have hj : q ∈ (c.without p).justified → r = true := by
      rw [justified_iff_reached (authorityOf_eq_some.mp hd).1 (authorityOf_eq_some.mp hd).2]
      exact hr
    have ha := authorityOf_eq_some.mpr ⟨hst.not_provided hstatus, hauth⟩
    refine ⟨r, st₁, hrun, hst₁.mark (hst.ne_asked hstatus) ha ?_, hopened.mark ?_, hj⟩
    · cases r <;> simp_all [answer]
    · cases r <;> simp [answer]

lemma visit_account_complete {w : PermissionLevelWeight} (hm : c.Shallow p h (.permissionLevel w))
    (hfits : total + w.weight < 4294967296) (hst : c.CacheComplete p st)
    (hopen : c.OpenAbove p h st) : c.Gains p (.permissionLevel w) total st
      (c.visit (c.evaluator n) (.permissionLevel w) total st) := by
  obtain ⟨hnamed, hw⟩ := hm
  have hsame : OpenedIn st st := fun _ => id
  have hvisit := c.visit_account (c.evaluator n) w total st
  generalize c.visit (c.evaluator n) (.permissionLevel w) total st = r at hvisit ⊢
  cases hvisit with
  | counted hstatus => exact .counted hst hsame hfits
  | refused hstatus => exact .passed hst hsame (hst.not_justified hstatus)
  | opened hstatus =>
    refine .passed hst hsame ?_
    rcases CheckState.permissionStatusInCache_cases hstatus with hq | hq
    · change w.permission ∉ _
      rw [(hopen _ hq).resolve_right fun hnot => hnot hw]
      exact hst.asked_not_justified
    · cases (hst.unnamed _ _ hq).2
  | tooDeep hstatus hnone =>
    -- no level is left, so the permission has no authority to evaluate
    have hzero : n = 0 := by
      cases n with
      | zero => rfl
      | succ n => cases hnone
    have hauth : (c.without p).authorityOf w.permission = none := by
      rw [show h = 0 by omega] at hw
      exact hw
    exact .passed hst hsame fun hj =>
      hst.not_provided hstatus ((justified_iff_provided hauth).mp hj)
  | missing e hstatus hauth _ =>
    exact .passed hst hsame (not_justified_of_error (hst.not_provided hstatus) hauth)
  | invalid e hstatus hauth he => exact absurd (not_found hnamed hauth) he
  | granted f auth st' hstatus hf hauth hrun =>
    obtain ⟨r, st₁, hrun', hst', hopened, -⟩ :=
      nested_complete hwf hsub hn hw hst hopen hstatus hf hauth
    obtain ⟨rfl, rfl⟩ := Prod.mk.inj (Except.ok.inj (hrun.symm.trans hrun'))
    exact .counted hst' hopened hfits
  | denied f auth st' hstatus hf hauth hrun =>
    obtain ⟨r, st₁, hrun', hst', hopened, hj⟩ :=
      nested_complete hwf hsub hn hw hst hopen hstatus hf hauth
    obtain ⟨rfl, rfl⟩ := Prod.mk.inj (Except.ok.inj (hrun.symm.trans hrun'))
    exact .passed hst' hopened fun hold => Bool.false_ne_true (hj hold)
  | failed f auth e hstatus hf hauth hrun =>
    obtain ⟨r, st₁, hrun', -⟩ := nested_complete hwf hsub hn hw hst hopen hstatus hf hauth
    rw [hrun] at hrun'
    cases hrun'

lemma visit_complete (hm : c.Shallow p h m) (hfits : total + m.weight < 4294967296)
    (hst : c.CacheComplete p st) (hopen : c.OpenAbove p h st) :
    c.Gains p m total st (c.visit (c.evaluator n) m total st) := by
  cases m with
  | wait w =>
    rw [visit_wait]
    split
    · exact .counted hst (fun _ => id) hfits
    · rename_i hw
      exact .passed hst (fun _ => id) hw
  | key k =>
    rw [visit_key]
    split
    · exact .counted (hst.usedKeys _) (fun _ => id) hfits
    · rename_i hk
      exact .passed hst (fun _ => id) hk
  | permissionLevel w => exact visit_account_complete hwf hsub hn hm hfits hst hopen

lemma visitAll_complete (threshold : Nat) {ms : List (MetaPermission Key)}
    (hms : ∀ m ∈ ms, c.Shallow p h m)
    (hfits : total + (ms.map MetaPermission.weight).sum < 4294967296) (hst : c.CacheComplete p st)
    (hopen : c.OpenAbove p h st) :
    ∃ r st', c.visitAll (c.evaluator n) threshold ms total st = .ok (r, st') ∧
      c.CacheComplete p st' ∧ OpenedIn st st' ∧ (ms ≠ [] → threshold ≤ total +
        tally MetaPermission.weight (c.Holds (c.without p).justified) ms → r = true) := by
  induction ms generalizing total st with
  | nil => exact ⟨false, st, rfl, hst, fun _ => id, fun hne => absurd rfl hne⟩
  | cons m ms ih =>
    rw [map_cons, sum_cons] at hfits
    obtain ⟨t, st₁, hv, hst₁, hopened, hle, hgain⟩ := visit_complete hwf hsub hn
      (hms m (mem_cons_self ..)) (show total + m.weight < 4294967296 by omega) hst hopen
    rw [visitAll_cons hv, tally_cons]
    split
    · exact ⟨true, st₁, rfl, hst₁, hopened, fun _ _ => rfl⟩
    rename_i hgo
    obtain ⟨r, st₂, hall, hst₂, hopened₂, hr⟩ := ih (fun x hx => hms x (mem_cons_of_mem m hx))
      (show t + (ms.map weight).sum < 4294967296 by omega) hst₁ fun q hq => hopen q (hopened q hq)
    refine ⟨r, st₂, hall, hst₂, fun q hq => hopened q (hopened₂ q hq), fun _ hle => hr ?_ (by omega)⟩
    rintro rfl
    rw [tally_nil] at hle
    omega

omit hn in
lemma satisfiedAuthority_complete : c.CompleteAt p n := by
  intro h hn a st ha hw hst hopen
  obtain ⟨r, st', hall, hst', hopened, hr⟩ := visitAll_complete hwf hsub hn a.threshold
    (ha.shallow hw) (by rw [sum_metaPermissions, Nat.zero_add]; exact ha.fits) hst hopen
  rw [tally_metaPermissions, Nat.zero_add, ne_eq, a.metaPermissions_eq_nil_iff] at hr
  unfold satisfiedAuthority
  rw [hall]
  cases r with
  | true => exact ⟨true, st', rfl, hst', hopened, fun _ => rfl⟩
  | false => exact ⟨false, _, rfl, hst'.usedKeys _, hopened, fun hreach => hr hreach.1 hreach.2⟩

end Visits

lemma completeAt (hwf : c.WellFormed) (p : PermissionLevel) (n : Nat) : c.CompleteAt p n := by
  induction n with
  | zero => exact satisfiedAuthority_complete hwf fun k hk => by cases hk
  | succ n ih =>
    refine satisfiedAuthority_complete hwf ?_
    intro k hk
    cases hk
    exact ih

section Asked
variable {used : Finset Key}

omit [DecidableEq Key] in
/-- The state in which the authority of the permission that is asked about is evaluated. -/
lemma cacheComplete_asked (ha : c.authorityOf p = some a) (used : Finset Key) :
    c.CacheComplete p (CheckState.mark ⟨used, c.initializePermissionCache⟩ p .beingEvaluated) := by
  obtain ⟨hnot, hauth⟩ := authorityOf_eq_some.mp ha
  have hsound : c.CacheSound Set.univ ⟨used, c.initializePermissionCache⟩ :=
    cacheSound_initial (fun _ _ => trivial) used
  refine ⟨hsound.mark hnot hauth nofun, CheckState.forall_mark ?_ nofun, if_pos rfl, hnot⟩
  intro q hq
  cases (initializePermissionCache_eq_some.mp hq).2

omit [DecidableEq Key] in
lemma openAbove_asked (c : Checker Key) (p : PermissionLevel) (h : Nat) (used : Finset Key) :
    c.OpenAbove p h (CheckState.mark ⟨used, c.initializePermissionCache⟩ p .beingEvaluated) := by
  refine CheckState.forall_mark ?_ fun _ => .inl rfl
  intro q hq
  cases (initializePermissionCache_eq_some.mp hq).2

lemma satisfied_of_provided (hp : c.Provided p) (used : Finset Key) :
    c.satisfied p used = .ok (true, used) := by
  have hstatus : CheckState.permissionStatusInCache ⟨used, c.initializePermissionCache⟩ p =
      some .permissionSatisfied := by
    unfold CheckState.permissionStatusInCache initializePermissionCache
    rcases hp with hp | hp <;> split <;> simp_all
  simp [satisfied, visit, hstatus, u32]

lemma satisfied_of_authority (ha : c.authorityOf p = some a)
    (hlimit : c.recursionDepthLimit = n + 1) {r : Bool} {st : CheckState Key}
    (hrun : c.satisfiedAuthority (c.evaluator n) a
      (CheckState.mark ⟨used, c.initializePermissionCache⟩ p .beingEvaluated) = .ok (r, st)) :
    c.satisfied p used = .ok (r, st.usedKeys) := by
  obtain ⟨hnot, hauth⟩ := authorityOf_eq_some.mp ha
  have hstatus : CheckState.permissionStatusInCache ⟨used, c.initializePermissionCache⟩ p =
      none := by
    have hself : p ∉ c.providedPermissions := fun hp => hnot (.inl hp)
    have hactor : ⟨p.actor, 0⟩ ∉ c.providedPermissions := fun hp => hnot (.inr hp)
    simp [CheckState.permissionStatusInCache, initializePermissionCache, hself, hactor]
  have hsub : c.evaluatorAt 0 = some (c.satisfiedAuthority (c.evaluator n)) := by
    rw [evaluatorAt, hlimit]
    rfl
  unfold satisfied
  rw [hsub]
  cases r <;> simp [visit, hstatus, hauth, hrun, u32] <;> rfl

lemma satisfied_of_justified (hwf : c.WellFormed) (hends : c.EndsWithin p)
    (hj : p ∈ c.justified) : ∃ u, c.satisfied p used = .ok (true, u) := by
  cases ha : c.authorityOf p with
  | none => exact ⟨used, satisfied_of_provided ((justified_iff_provided ha).mp hj) used⟩
  | some a =>
    obtain ⟨hpos, hw⟩ := hends a ha
    obtain ⟨n, hn⟩ : ∃ n, c.recursionDepthLimit = n + 1 := ⟨c.recursionDepthLimit - 1, by omega⟩
    rw [hn, Nat.add_sub_cancel] at hw
    obtain ⟨r, st, hrun, -, -, hr⟩ := completeAt hwf p n n le_rfl a _
      (hwf p a (authorityOf_eq_some.mp ha).2) hw (cacheComplete_asked ha used)
      (c.openAbove_asked p n used)
    rw [hr (reached_without ha hj)] at hrun
    exact ⟨_, satisfied_of_authority ha hn hrun⟩

end Asked

/-- All three permissions below the first are needed; 3 and 4 refer to each other, and 2 reaches
them through 4 unless the key 2 is there. -/
def cycleTable (l : PermissionLevel) : Option (Authority Nat) :=
  match l.permission with
  | 1 => some ⟨6, [], [⟨⟨5, 2⟩, 3⟩, ⟨⟨5, 3⟩, 2⟩, ⟨⟨5, 4⟩, 1⟩], []⟩
  | 2 => some ⟨1, [⟨2, 2⟩], [⟨⟨5, 4⟩, 1⟩], []⟩
  | 3 => some ⟨1, [⟨1, 1⟩], [⟨⟨5, 4⟩, 2⟩], []⟩
  | 4 => some ⟨1, [], [⟨⟨5, 3⟩, 1⟩], []⟩
  | _ => none

/-- The permission 4 is two levels above the key 1. It is first looked at from 2, or, with the
key 2, from two levels below 3, which is too deep for a limit of four. -/
def depthTable (l : PermissionLevel) : Option (Authority Nat) :=
  match l.permission with
  | 1 => some ⟨5, [], [⟨⟨5, 2⟩, 3⟩, ⟨⟨5, 3⟩, 2⟩], []⟩
  | 2 => some ⟨1, [⟨2, 2⟩], [⟨⟨5, 4⟩, 1⟩], []⟩
  | 3 => some ⟨1, [], [⟨⟨5, 5⟩, 1⟩], []⟩
  | 4 => some ⟨1, [], [⟨⟨5, 6⟩, 1⟩], []⟩
  | 5 => some ⟨1, [], [⟨⟨5, 4⟩, 1⟩], []⟩
  | 6 => some ⟨1, [⟨1, 1⟩], [], []⟩
  | _ => none

lemma loopTable_wellFormed (keys : Finset Nat) (permissions : Finset PermissionLevel) (delay : Int) :
    (⟨loopTable, 6, keys, permissions, delay⟩ : Checker Nat).WellFormed := by
  intro p a ha
  unfold permissionToAuthority at ha
  split at ha
  · cases ha
  split at ha
  · cases ha
  rename_i hd
  cases ha
  have hd : loopTable p = some a := hd
  unfold loopTable at hd
  split at hd <;> cases hd <;> exact ⟨by decide, by decide⟩

end Checker

namespace Authority

lemma pairwise_of_ascending {α β : Type} [LinearOrder β] (f : α → β) {l : List α}
    (h : ascending (fun a b => f a < f b) l = true) : l.Pairwise fun a b => f a < f b := by
  induction l with
  | nil => exact .nil
  | cons a l ih =>
    cases l with
    | nil => exact pairwise_singleton _ _
    | cons b l =>
      obtain ⟨hab, h⟩ := (Bool.and_eq_true _ _).mp h
      have hsorted := ih h
      refine pairwise_cons.mpr ⟨?_, hsorted⟩
      intro c hc
      rcases mem_cons.mp hc with rfl | hc
      · exact of_decide_eq_true hab
      · exact lt_trans (of_decide_eq_true hab) ((pairwise_cons.mp hsorted).1 c hc)

structure Validated {Key : Type} [LinearOrder Key] (a : Authority Key) : Prop where
  keys : a.keys.Pairwise fun k l => k.key < l.key
  accounts : a.accounts.Pairwise fun p q => p.permission < q.permission
  waits : a.waits.Pairwise fun v w => v.waitSec < w.waitSec
  fits : a.totalWeight < 4294967296
  reached : a.threshold ≤ a.totalWeight
  positive : 0 < a.threshold

lemma validated_of_validate {Key : Type} [LinearOrder Key] {a : Authority Key}
    (hweights : ∀ m ∈ a.factors, m.weight < 65536) (h : a.validate = true) : a.Validated := by
  obtain ⟨hcount, hzero, hkeys, haccounts, -, hwaits, hreached⟩ := of_decide_eq_true h
  have hsum : _ ≤ (a.factors.map weight).length * 65535 := sum_le_card_nsmul _ _ (by
    intro n hn
    obtain ⟨m, hm, rfl⟩ := mem_map.mp hn
    exact Nat.le_of_lt_succ (hweights m hm))
  have hfits : a.totalWeight < 4294967296 := by
    simp only [factors, length_map, length_append] at hsum
    exact Nat.lt_of_le_of_lt hsum (by omega)
  rw [u32, Nat.mod_eq_of_lt hfits] at hreached
  exact ⟨pairwise_of_ascending _ hkeys, pairwise_of_ascending _ haccounts,
    pairwise_of_ascending _ hwaits, hfits, hreached, Nat.pos_of_ne_zero hzero⟩

end Authority

namespace Checker
variable {Key : Type} [DecidableEq Key] (c : Checker Key) (sub : Option (Evaluator Key))
  {total : Nat} (used : Finset Key)

lemma visit_provided {m : MetaPermission Key} (hm : c.Holds c.providedPermissions m)
    (hfits : total + m.weight < 4294967296) : ∃ used',
      c.visit sub m total ⟨used, c.initializePermissionCache⟩ =
        .ok (total + m.weight, ⟨used', c.initializePermissionCache⟩) := by
  rw [← show u32 (total + m.weight) = _ from Nat.mod_eq_of_lt hfits]
  cases m with
  | wait w => exact ⟨used, if_pos hm⟩
  | key k => exact ⟨_, if_pos hm⟩
  | permissionLevel p =>
    have hcache : c.initializePermissionCache p.permission = some .permissionSatisfied := if_pos hm
    refine ⟨used, ?_⟩
    unfold visit CheckState.permissionStatusInCache
    dsimp only
    rw [hcache]
    rfl

lemma visitAll_provided {threshold : Nat} {ms : List (MetaPermission Key)}
    (hms : ∀ m ∈ ms, c.Holds c.providedPermissions m) (hless : total < threshold)
    (hreached : threshold ≤ total + (ms.map weight).sum)
    (hfits : total + (ms.map weight).sum < 4294967296) : ∃ used',
      c.visitAll sub threshold ms total ⟨used, c.initializePermissionCache⟩ =
        .ok (true, ⟨used', c.initializePermissionCache⟩) := by
  induction ms generalizing total used with
  | nil => exact absurd hreached (not_le.mpr hless)
  | cons m ms ih =>
    rw [map_cons, sum_cons, ← Nat.add_assoc] at hreached hfits
    obtain ⟨used₁, hvisit⟩ := c.visit_provided sub used (hms m (mem_cons_self ..))
      (Nat.lt_of_le_of_lt (Nat.le_add_right _ _) hfits)
    rw [visitAll_cons hvisit]
    split
    · exact ⟨used₁, rfl⟩
    · rename_i hnot
      exact ih used₁ (fun n hn => hms n (mem_cons_of_mem m hn)) (not_le.mp hnot) hreached hfits

/-- A validated authority is satisfied by all of its factors together, and the running total of
the checker is the sum of the weights so far. -/
theorem validated_satisfiable {Key : Type} [LinearOrder Key] {a : Authority Key}
    (hweights : ∀ m ∈ a.factors, m.weight < 65536) (h : a.validate = true) :
    a.Validated ∧ ∀ (c : Checker Key) (sub : Option (Evaluator Key)) (used : Finset Key),
      (∀ m ∈ a.factors, c.Holds c.providedPermissions m) →
      (∃ used', c.satisfiedAuthority sub a ⟨used, c.initializePermissionCache⟩ =
        .ok (true, ⟨used', c.initializePermissionCache⟩)) ∧
      ∀ pre m post, a.metaPermissions = pre ++ m :: post → ∃ used',
        c.visit sub m (pre.map weight).sum ⟨used, c.initializePermissionCache⟩ =
          .ok ((pre.map weight).sum + m.weight, ⟨used', c.initializePermissionCache⟩) := by
  have hvalid := Authority.validated_of_validate hweights h
  refine ⟨hvalid, ?_⟩
  intro c sub used hall
  have hmetas : ∀ m ∈ a.metaPermissions, c.Holds c.providedPermissions m :=
    fun m hm => hall m (a.metaPermissions_perm.mem_iff.mp hm)
  have hfits := hvalid.fits
  rw [← sum_metaPermissions] at hfits
  constructor
  · obtain ⟨used', hrun⟩ := c.visitAll_provided sub used hmetas hvalid.positive
      (by rw [sum_metaPermissions, Nat.zero_add]; exact hvalid.reached) (by rwa [Nat.zero_add])
    refine ⟨used', ?_⟩
    rw [satisfiedAuthority, hrun]
  · intro pre m post hsplit
    rw [hsplit, map_append, sum_append, map_cons, sum_cons] at hfits
    exact c.visit_provided sub used (hmetas m (by rw [hsplit]; simp)) (by omega)

def keyAndWait : Authority Nat := ⟨3, [⟨7, 2⟩], [⟨⟨5, 6⟩, 1⟩], [⟨60, 1⟩]⟩

def keyAndWaitChecker : Checker Nat := ⟨fun _ => none, 6, {7}, {⟨5, 6⟩}, seconds 60⟩

theorem validated_satisfiable_keyAndWait : keyAndWait.Validated ∧
    ∃ used, keyAndWaitChecker.satisfiedAuthority none keyAndWait
      ⟨∅, keyAndWaitChecker.initializePermissionCache⟩ =
        .ok (true, ⟨used, keyAndWaitChecker.initializePermissionCache⟩) := by
  obtain ⟨hvalid, hall⟩ := validated_satisfiable (a := keyAndWait) (by decide) (by decide)
  refine ⟨hvalid, (hall keyAndWaitChecker none ∅ ?_).1⟩
  simp [keyAndWait, keyAndWaitChecker, Authority.factors, Holds]

end Checker

end DimensionChain.Auth
