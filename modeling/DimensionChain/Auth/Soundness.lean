import DimensionChain.Auth.Evaluation
import DimensionChain.Base.Tally

/-!
# Only justified permissions are satisfied

The meaning of an authority mentions no order of evaluation: a permission is justified when it is
provided, or when its authority reaches its threshold with factors that are themselves justified.
Every mark `permissionSatisfied` in the cache is the mark of a permission in the least such set at
the moment it is written, whatever permissions are open then.
-/

namespace DimensionChain.Auth

open Tally Nat CheckState

namespace Checker
variable {Key : Type}

/-- The level is among the provided permissions, itself or by the unnamed permission of its
actor. -/
def Provided (c : Checker Key) (p : PermissionLevel) : Prop :=
  p ∈ c.providedPermissions ∨ ⟨p.actor, 0⟩ ∈ c.providedPermissions

/-- A factor counts when its key is provided, its wait is not longer than the delay, or its
permission is in the set. -/
def Holds (c : Checker Key) (S : Set PermissionLevel) : MetaPermission Key → Prop
  | .wait w => seconds w.waitSec ≤ c.providedDelay
  | .key k => k.key ∈ c.providedKeys
  | .permissionLevel p => p.permission ∈ S

variable {c : Checker Key} {p : PermissionLevel} {a : Authority Key} {S T : Set PermissionLevel}
  {m : MetaPermission Key}

lemma Holds.mono (hST : S ⊆ T) (h : c.Holds S m) : c.Holds T m := by
  cases m with
  | wait w => exact h
  | key k => exact h
  | permissionLevel p => exact hST h

noncomputable def weightIn (c : Checker Key) (S : Set PermissionLevel) (a : Authority Key) : Nat :=
  tally MetaPermission.weight (c.Holds S) a.factors

lemma weightIn_mono (c : Checker Key) (hST : S ⊆ T)
    (a : Authority Key) : c.weightIn S a ≤ c.weightIn T a :=
  tally_mono fun _ _ h => h.mono hST

lemma tally_metaPermissions (c : Checker Key) (S : Set PermissionLevel) (a : Authority Key) :
    tally MetaPermission.weight (c.Holds S) a.metaPermissions = c.weightIn S a :=
  tally_perm a.metaPermissions_perm

/-- A set that contains the provided permissions and every permission whose authority has
factors of enough weight. -/
structure Closed (c : Checker Key) (S : Set PermissionLevel) : Prop where
  provided : ∀ p, c.Provided p → p ∈ S
  authority : ∀ p a, c.permissionToAuthority p = .ok a → a.threshold ≤ c.weightIn S a → p ∈ S

def leastClosed (c : Checker Key) : Set PermissionLevel := ⋂₀ {S | c.Closed S}

lemma leastClosed_closed (c : Checker Key) : c.Closed c.leastClosed where
  provided := by
    intro p hp S hS
    exact hS.provided p hp
  authority := by
    intro p a ha hle S hS
    have hsub : c.leastClosed ⊆ S := Set.sInter_subset_of_mem hS
    exact hS.authority p a ha (le_trans hle (c.weightIn_mono hsub a))

/-- An authority without factors is never satisfied, whatever its threshold. -/
def Reached (c : Checker Key) (S : Set PermissionLevel) (a : Authority Key) : Prop :=
  a.factors ≠ [] ∧ a.threshold ≤ c.weightIn S a

def step (c : Checker Key) : Set PermissionLevel →o Set PermissionLevel where
  toFun S := {p | c.Provided p ∨ ∃ a, c.permissionToAuthority p = .ok a ∧ c.Reached S a}
  monotone' := by
    rintro S T hST p (hp | ⟨a, ha, hne, hle⟩)
    · exact Or.inl hp
    · exact Or.inr ⟨a, ha, hne, le_trans hle (c.weightIn_mono hST a)⟩

def justified (c : Checker Key) : Set PermissionLevel := OrderHom.lfp c.step

lemma mem_justified_iff (c : Checker Key) (p : PermissionLevel) : p ∈ c.justified ↔
      c.Provided p ∨ ∃ a, c.permissionToAuthority p = .ok a ∧ c.Reached c.justified a := by
  have hfix : c.step c.justified = c.justified := c.step.map_lfp
  constructor
  · intro h
    rw [← hfix] at h
    exact h
  · intro h
    rw [← hfix]
    exact h

lemma justified_iff_reached (hnot : ¬ c.Provided p) (ha : c.permissionToAuthority p = .ok a) :
    p ∈ c.justified ↔ c.Reached c.justified a := by
  rw [mem_justified_iff]
  constructor
  · rintro (hp | ⟨a', ha', hreach⟩)
    · exact absurd hp hnot
    · rw [ha] at ha'
      cases ha'
      exact hreach
  · intro hreach
    exact .inr ⟨a, ha, hreach⟩

lemma justified_of_provided (h : c.Provided p) :
    p ∈ c.justified := (c.mem_justified_iff p).mpr (Or.inl h)

lemma justified_subset_leastClosed (c : Checker Key) : c.justified ⊆ c.leastClosed := by
  apply OrderHom.lfp_le
  rintro p (hp | ⟨a, ha, -, hle⟩)
  · exact c.leastClosed_closed.provided p hp
  · exact c.leastClosed_closed.authority p a ha hle

lemma permissionToAuthority_named (h : c.permissionToAuthority p = .ok a) : p.permission ≠ 0 := by
  intro h0
  simp [permissionToAuthority, h0] at h

/-- The cache holds the provided permissions, no other mark of an unnamed permission, and marks
as satisfied only permissions of the set. -/
structure CacheSound (c : Checker Key) (S : Set PermissionLevel) (st : CheckState Key) : Prop where
  satisfied : ∀ q, st.cachedPermissions q = some .permissionSatisfied → q ∈ S
  unnamed : ∀ actor s, st.cachedPermissions ⟨actor, 0⟩ = some s →
    ⟨actor, 0⟩ ∈ c.providedPermissions ∧ s = .permissionSatisfied
  provided : ∀ q ∈ c.providedPermissions, st.cachedPermissions q = some .permissionSatisfied

lemma cacheSound_initial (hS : ∀ q, c.Provided q → q ∈ S) (used : Finset Key) :
    c.CacheSound S ⟨used, c.initializePermissionCache⟩ where
  satisfied := by
    intro q hq
    exact hS q (.inl (initializePermissionCache_eq_some.mp hq).1)
  unnamed := by
    intro actor s hs
    exact initializePermissionCache_eq_some.mp hs
  provided := by
    intro q hq
    exact initializePermissionCache_eq_some.mpr ⟨hq, rfl⟩

section Cache
variable {st : CheckState Key} {q : PermissionLevel} (h : c.CacheSound S st)
include h

lemma CacheSound.usedKeys (used : Finset Key) :
    c.CacheSound S { st with usedKeys := used } := ⟨h.satisfied, h.unnamed, h.provided⟩

lemma CacheSound.mark {s : PermissionCacheStatus} {a : Authority Key}
    (hnot : ¬ c.Provided q) (ha : c.permissionToAuthority q = .ok a)
    (hs : s = .permissionSatisfied → q ∈ S) : c.CacheSound S (st.mark q s) where
  satisfied := forall_mark h.satisfied hs
  unnamed := by
    intro actor s' hs'
    rw [mark_cachedPermissions, if_neg] at hs'
    · exact h.unnamed actor s' hs'
    · intro heq
      exact permissionToAuthority_named ha (heq ▸ rfl)
  provided := by
    intro p hp
    rw [mark_cachedPermissions, if_neg]
    · exact h.provided p hp
    · intro heq
      exact hnot (.inl (heq ▸ hp))

lemma CacheSound.mem_of_status (hS : ∀ q, c.Provided q → q ∈ S)
    (hstatus : st.permissionStatusInCache q = some .permissionSatisfied) : q ∈ S := by
  rcases permissionStatusInCache_cases hstatus with hq | ha
  · exact h.satisfied q hq
  · exact hS q (.inr (h.unnamed _ _ ha).1)

lemma CacheSound.not_provided (hstatus : st.permissionStatusInCache q = none) : ¬ c.Provided q := by
  obtain ⟨hq, ha⟩ := permissionStatusInCache_none hstatus
  rintro (hp | hp)
  · rw [h.provided q hp] at hq
    cases hq
  · rw [h.provided _ hp] at ha
    cases ha

/-- While its authority is evaluated, a permission is marked so that it cannot be counted. -/
lemma CacheSound.beingEvaluated
    (hstatus : st.permissionStatusInCache q = none) (ha : c.permissionToAuthority q = .ok a) :
    c.CacheSound S (st.mark q .beingEvaluated) :=
  h.mark (h.not_provided hstatus) ha nofun

end Cache

variable [DecidableEq Key]

/-- An evaluator that keeps the cache sound and accepts only authorities that are reached with
justified factors. -/
def SoundEvaluator (c : Checker Key) (f : Evaluator Key) : Prop :=
  ∀ a st r st', c.CacheSound c.justified st → f a st = .ok (r, st') →
    c.CacheSound c.justified st' ∧ (r = true → c.Reached c.justified a)

section Visits
variable {sub : Option (Evaluator Key)} (hsub : ∀ f, sub = some f → c.SoundEvaluator f)
  {st st' : CheckState Key}
include hsub

lemma visit_sound {total total' : Nat} (hst : c.CacheSound c.justified st)
    (h : c.visit sub m total st = .ok (total', st')) : c.CacheSound c.justified st' ∧
      total' ≤ total + gain MetaPermission.weight (c.Holds c.justified) m := by
  have hle : ∀ n, u32 n ≤ n := fun n => mod_le n _
  cases m with
  | wait w =>
    rw [visit_wait] at h
    split at h
    · rename_i hw
      cases h
      rw [gain_pos (show c.Holds c.justified (.wait w) from hw)]
      exact ⟨hst, hle _⟩
    · cases h
      exact ⟨hst, le_add_right _ _⟩
  | key k =>
    rw [visit_key] at h
    split at h
    · rename_i hk
      cases h
      rw [gain_pos (show c.Holds c.justified (.key k) from hk)]
      exact ⟨hst.usedKeys _, hle _⟩
    · cases h
      exact ⟨hst, le_add_right _ _⟩
  | permissionLevel p =>
    have hvisit := c.visit_account sub p total st
    rw [h] at hvisit
    cases hvisit with
    | counted hstatus =>
      rw [gain_pos (show c.Holds c.justified (.permissionLevel p) from
        hst.mem_of_status (fun _ => justified_of_provided) hstatus)]
      exact ⟨hst, hle _⟩
    | refused _ => exact ⟨hst, le_add_right _ _⟩
    | opened _ => exact ⟨hst, le_add_right _ _⟩
    | tooDeep _ _ => exact ⟨hst, le_add_right _ _⟩
    | missing _ _ _ _ => exact ⟨hst, le_add_right _ _⟩
    | granted f auth st'' hstatus hs hauth hrun =>
      have hnot := hst.not_provided hstatus
      have hrec := hsub f hs auth _ _ _ (hst.beingEvaluated hstatus hauth) hrun
      have hj := (justified_iff_reached (hst.not_provided hstatus) hauth).mpr (hrec.2 rfl)
      rw [gain_pos (show c.Holds c.justified (.permissionLevel p) from hj)]
      exact ⟨hrec.1.mark hnot hauth fun _ => hj, hle _⟩
    | denied f auth st'' hstatus hs hauth hrun =>
      have hrec := hsub f hs auth _ _ _ (hst.beingEvaluated hstatus hauth) hrun
      exact ⟨hrec.1.mark (hst.not_provided hstatus) hauth nofun, le_add_right _ _⟩

lemma visitAll_sound {threshold : Nat} {ms : List (MetaPermission Key)} {total : Nat} {r : Bool}
    (hst : c.CacheSound c.justified st) (h : c.visitAll sub threshold ms total st = .ok (r, st')) :
    c.CacheSound c.justified st' ∧ (r = true → ms ≠ [] ∧
        threshold ≤ total + tally MetaPermission.weight (c.Holds c.justified) ms) := by
  induction ms generalizing total st with
  | nil =>
    cases h
    exact ⟨hst, nofun⟩
  | cons m ms ih =>
    cases hv : c.visit sub m total st with
    | error e =>
      rw [visitAll, hv] at h
      cases h
    | ok res =>
      rcases res with ⟨total', st₁⟩
      obtain ⟨hst₁, hle⟩ := visit_sound hsub hst hv
      rw [visitAll_cons hv] at h
      rw [tally_cons]
      split at h
      · cases h
        exact ⟨hst₁, fun _ => ⟨List.cons_ne_nil m ms, by omega⟩⟩
      obtain ⟨hst₂, hreach⟩ := ih hst₁ h
      refine ⟨hst₂, fun hr => ⟨List.cons_ne_nil m ms, ?_⟩⟩
      have := (hreach hr).2
      omega

lemma satisfiedAuthority_sound : c.SoundEvaluator (c.satisfiedAuthority sub) := by
  intro a st r st' hst h
  unfold satisfiedAuthority at h
  split at h
  · cases h
  · rename_i st₁ hall
    cases h
    obtain ⟨hst', hreach⟩ := visitAll_sound hsub hst hall
    obtain ⟨hne, hle⟩ := hreach rfl
    rw [tally_metaPermissions, zero_add] at hle
    exact ⟨hst', fun _ => ⟨mt a.metaPermissions_eq_nil_iff.mpr hne, hle⟩⟩
  · rename_i st₁ hall
    cases h
    exact ⟨(visitAll_sound hsub hst hall).1.usedKeys _, nofun⟩

end Visits

lemma evaluator_sound (c : Checker Key) (n : Nat) :
    ∀ f, c.evaluator n = some f → c.SoundEvaluator f :=
  c.evaluator_induction (fun _ hsub => satisfiedAuthority_sound hsub) n

lemma justified_of_satisfied {c : Checker Key} {p : PermissionLevel} {used used' : Finset Key}
    (h : c.satisfied p used = .ok (true, used')) : p ∈ c.justified := by
  unfold satisfied at h
  split at h
  · cases h
  rename_i total st hv
  have hsub : ∀ f, c.evaluatorAt 0 = some f → c.SoundEvaluator f := c.evaluator_sound _
  have hle := (visit_sound hsub (cacheSound_initial (fun _ => justified_of_provided) used) hv).2
  have hpos : 0 < total := by
    have := congrArg Prod.fst (Except.ok.inj h)
    exact of_decide_eq_true this
  by_contra hnot
  rw [gain_neg (show ¬ c.Holds c.justified (.permissionLevel ⟨p, 1⟩) from hnot)] at hle
  omega

/-- For every permission table, limit, keys, permissions and delay: the evaluation is a total
function that takes one step down the recursion for each step of depth up to the limit, and a
permission that it accepts belongs to the least set that contains the provided permissions and
every permission whose authority has factors of enough weight. -/
theorem satisfied_least (c : Checker Key) (p : PermissionLevel) (used : Finset Key) :
    (∀ depth, c.evaluatorAt depth =
      if depth < c.recursionDepthLimit then some (c.satisfiedAuthority (c.evaluatorAt (depth + 1)))
      else none) ∧ ∀ used', c.satisfied p used = .ok (true, used') → p ∈ c.leastClosed := by
  refine ⟨c.evaluatorAt_eq, ?_⟩
  intro used' h
  exact c.justified_subset_leastClosed (justified_of_satisfied h)

/-- A permission that a permission below it and one that does not exist can also grant. -/
def loopTable (l : PermissionLevel) : Option (Authority Nat) :=
  match l.permission with
  | 1 => some ⟨2, [⟨7, 1⟩], [⟨⟨5, 2⟩, 3⟩, ⟨⟨5, 9⟩, 1⟩], [⟨60, 1⟩]⟩
  | 2 => some ⟨1, [], [⟨⟨5, 1⟩, 1⟩], []⟩
  | _ => none

def loopChecker : Checker Nat := ⟨loopTable, 6, {7}, ∅, seconds 60⟩

theorem satisfied_least_loopChecker :
    loopChecker.satisfied ⟨5, 1⟩ ∅ = .ok (true, {7}) ∧ ⟨5, 1⟩ ∈ loopChecker.leastClosed := by
  have h : loopChecker.satisfied ⟨5, 1⟩ ∅ = .ok (true, {7}) := by decide +kernel
  exact ⟨h, (satisfied_least loopChecker ⟨5, 1⟩ ∅).2 _ h⟩

end Checker

end DimensionChain.Auth
