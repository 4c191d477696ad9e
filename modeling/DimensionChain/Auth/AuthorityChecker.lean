import DimensionChain.Auth.Authority

/-!
# The authority checker

`satisfied` recurses through the permission table under a depth limit, with a cache of marks that
all levels share and a set of used keys that an authority which fails gives back. The recursion is
on what is left of the limit: an evaluator of an authority is made from the one that its account
factors may use, and there is none once the limit is reached.
-/

namespace DimensionChain.Auth

inductive PermissionCacheStatus where
  | beingEvaluated
  | permissionUnsatisfied
  | permissionSatisfied
  deriving DecidableEq, Repr

/-- What the checker holds for all its calls. `permissionTable` gives the authority of a
permission that exists, the delay is in microseconds. -/
structure Checker (Key : Type) where
  permissionTable : PermissionLevel → Option (Authority Key)
  recursionDepthLimit : Nat
  providedKeys : Finset Key
  providedPermissions : Finset PermissionLevel := ∅
  providedDelay : Int := 0

structure CheckState (Key : Type) where
  usedKeys : Finset Key
  cachedPermissions : PermissionLevel → Option PermissionCacheStatus

variable {s : PermissionCacheStatus}

namespace CheckState
variable {Key : Type} {st : CheckState Key} {level : PermissionLevel}

def mark (st : CheckState Key) (p : PermissionLevel) (s : PermissionCacheStatus) : CheckState Key :=
  { st with cachedPermissions := fun q => if q = p then some s else st.cachedPermissions q }

def permissionStatusInCache (st : CheckState Key) (level : PermissionLevel) :
    Option PermissionCacheStatus :=
  match st.cachedPermissions level with
  | some s => some s
  | none => st.cachedPermissions ⟨level.actor, 0⟩

lemma mark_cachedPermissions (st : CheckState Key) (p q : PermissionLevel)
    (s : PermissionCacheStatus) : (st.mark p s).cachedPermissions q =
      if q = p then some s else st.cachedPermissions q := rfl

lemma forall_mark {q : PermissionLevel} {s r : PermissionCacheStatus}
    {P : PermissionLevel → Prop} (h : ∀ p, st.cachedPermissions p = some r → P p) (hq : s = r → P q) :
    ∀ p, (st.mark q s).cachedPermissions p = some r → P p := by
  intro p hp
  rw [mark_cachedPermissions] at hp
  by_cases hpq : p = q
  · rw [if_pos hpq] at hp
    rw [hpq]
    exact hq (Option.some.inj hp)
  · rw [if_neg hpq] at hp
    exact h p hp

lemma permissionStatusInCache_cases (h : st.permissionStatusInCache level = some s) :
    st.cachedPermissions level = some s ∨ st.cachedPermissions ⟨level.actor, 0⟩ = some s := by
  unfold permissionStatusInCache at h
  split at h
  · rename_i s' hs'
    exact .inl (hs'.trans h)
  · exact .inr h

lemma permissionStatusInCache_none (h : st.permissionStatusInCache level = none) :
    st.cachedPermissions level = none ∧ st.cachedPermissions ⟨level.actor, 0⟩ = none := by
  unfold permissionStatusInCache at h
  split at h
  · cases h
  · rename_i hl
    exact ⟨hl, h⟩

end CheckState

def seconds (s : Nat) : Int := 1000000 * s

/-- An evaluation of an authority: its result and the state that it leaves. An exception that
is not caught ends the whole check. -/
abbrev Evaluator (Key : Type) :=
  Authority Key → CheckState Key → Result (Bool × CheckState Key)

namespace Checker
variable {Key : Type}

/-- `get_permission` as the checker calls it. Only the exception for a permission that does not
exist is caught by the visitor. -/
def permissionToAuthority (c : Checker Key) (level : PermissionLevel) : Result (Authority Key) :=
  if level.actor = 0 ∨ level.permission = 0 then .error ⟨.invalidPermission, "Invalid permission"⟩
  else
    match c.permissionTable level with
    | none => .error ⟨.permissionQuery, "Failed to retrieve permission: $\x7blevel\x7d"⟩
    | some auth => .ok auth

def initializePermissionCache (c : Checker Key) : PermissionLevel → Option PermissionCacheStatus :=
  fun p => if p ∈ c.providedPermissions then some .permissionSatisfied else none

lemma initializePermissionCache_eq_some {c : Checker Key} {p : PermissionLevel} :
    c.initializePermissionCache p = some s ↔ p ∈ c.providedPermissions ∧ s = .permissionSatisfied := by
  unfold initializePermissionCache
  by_cases hmem : p ∈ c.providedPermissions
  · simp [hmem, eq_comm]
  · simp [hmem]

variable [DecidableEq Key]

/-- `weight_tally_visitor`: the running total after one more factor. `sub` evaluates the
authority of an account factor; at the depth limit there is none. -/
def visit (c : Checker Key) (sub : Option (Evaluator Key)) :
    MetaPermission Key → Nat → CheckState Key → Result (Nat × CheckState Key)
  | .wait w, total, st =>
    if seconds w.waitSec ≤ c.providedDelay then .ok (u32 (total + w.weight), st)
    else .ok (total, st)
  | .key k, total, st =>
    if k.key ∈ c.providedKeys then
      .ok (u32 (total + k.weight), { st with usedKeys := insert k.key st.usedKeys })
    else .ok (total, st)
  | .permissionLevel p, total, st =>
    match st.permissionStatusInCache p.permission with
    | none =>
      match sub with
      | none => .ok (total, st)
      | some satisfied =>
        match c.permissionToAuthority p.permission with
        | .error e =>
          -- a permission that does not exist is passed by
          if e.kind = .permissionQuery then .ok (total, st) else .error e
        | .ok auth =>
          match satisfied auth (st.mark p.permission .beingEvaluated) with
          | .error e => .error e
          | .ok (true, st) =>
            .ok (u32 (total + p.weight), st.mark p.permission .permissionSatisfied)
          | .ok (false, st) => .ok (total, st.mark p.permission .permissionUnsatisfied)
    | some .permissionSatisfied => .ok (u32 (total + p.weight), st)
    | some _ => .ok (total, st)

/-- The loop over the factors, which stops when the threshold is reached. -/
def visitAll (c : Checker Key) (sub : Option (Evaluator Key)) (threshold : Nat) :
    List (MetaPermission Key) → Nat → CheckState Key →
      Result (Bool × CheckState Key)
  | [], _, st => .ok (false, st)
  | m :: ms, total, st =>
    match c.visit sub m total st with
    | .error e => .error e
    | .ok (total, st) =>
      if threshold ≤ total then .ok (true, st) else c.visitAll sub threshold ms total st

/-- `satisfied` of an authority: when it fails, the keys used on the way are given back and
the marks in the cache stay. -/
def satisfiedAuthority (c : Checker Key) (sub : Option (Evaluator Key)) : Evaluator Key :=
  fun authority st =>
    match c.visitAll sub authority.threshold authority.metaPermissions 0 st with
    | .error e => .error e
    | .ok (true, st') => .ok (true, st')
    | .ok (false, st') => .ok (false, { st' with usedKeys := st.usedKeys })

/-- The evaluator for account factors when `n` levels of recursion are left. -/
def evaluator (c : Checker Key) : Nat → Option (Evaluator Key)
  | 0 => none
  | n + 1 => some (c.satisfiedAuthority (c.evaluator n))

/-- The evaluator for account factors of a visitor at a recursion depth. -/
def evaluatorAt (c : Checker Key) (recursionDepth : Nat) : Option (Evaluator Key) :=
  c.evaluator (c.recursionDepthLimit - recursionDepth)

/-- The recursion of the source: at depth `d` below the limit, the authority of an account
factor is evaluated at depth `d + 1`. -/
lemma evaluatorAt_eq (c : Checker Key) (depth : Nat) : c.evaluatorAt depth =
      if depth < c.recursionDepthLimit then some (c.satisfiedAuthority (c.evaluatorAt (depth + 1)))
      else none := by
  unfold evaluatorAt
  split
  · obtain ⟨n, hn⟩ : ∃ n, c.recursionDepthLimit - depth = n + 1 :=
      ⟨c.recursionDepthLimit - (depth + 1), by omega⟩
    rw [hn, show c.recursionDepthLimit - (depth + 1) = n by omega]
    rfl
  · rw [show c.recursionDepthLimit - depth = 0 by omega]
    rfl

/-- `satisfied` of a permission level: a visit of weight one at depth zero with a fresh cache.
The markers of used keys belong to the checker and are carried from call to call. -/
def satisfied (c : Checker Key) (permission : PermissionLevel) (usedKeys : Finset Key) :
    Result (Bool × Finset Key) :=
  match c.visit (c.evaluatorAt 0) (.permissionLevel ⟨permission, 1⟩) 0
    ⟨usedKeys, c.initializePermissionCache⟩ with
  | .error e => .error e
  | .ok (total, st) => .ok (decide (0 < total), st.usedKeys)

def allKeysUsed (c : Checker Key) (usedKeys : Finset Key) : Bool := c.providedKeys ⊆ usedKeys

end Checker

end DimensionChain.Auth
