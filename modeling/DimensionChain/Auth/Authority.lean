import DimensionChain.Chain.Types

/-!
# Authorities

An authority is a threshold over three kinds of weighted factors. The checker looks at them
in the order of `metaPermissions`: by descending weight, and at equal weight waits before keys
before accounts.
-/

namespace DimensionChain.Auth

abbrev PermissionName := Nat

structure PermissionLevel where
  actor : AccountName
  permission : PermissionName
  deriving DecidableEq, Repr

instance : LinearOrder PermissionLevel :=
  LinearOrder.lift' (fun p => toLex (p.actor, p.permission)) (by
    intro a b h
    cases a
    cases b
    simpa using h)

structure PermissionLevelWeight where
  permission : PermissionLevel
  weight : Nat
  deriving DecidableEq, Repr

structure KeyWeight (Key : Type) where
  key : Key
  weight : Nat
  deriving DecidableEq, Repr

structure WaitWeight where
  waitSec : Nat
  weight : Nat
  deriving DecidableEq, Repr

structure Authority (Key : Type) where
  threshold : Nat := 0
  keys : List (KeyWeight Key) := []
  accounts : List PermissionLevelWeight := []
  waits : List WaitWeight := []
  deriving DecidableEq, Repr

inductive MetaPermission (Key : Type) where
  | permissionLevel (p : PermissionLevelWeight)
  | key (k : KeyWeight Key)
  | wait (w : WaitWeight)
  deriving DecidableEq, Repr

variable {Key : Type}

namespace MetaPermission

def weight : MetaPermission Key → Nat
  | permissionLevel p => p.weight
  | key k => k.weight
  | wait w => w.weight

def which : MetaPermission Key → Nat
  | permissionLevel _ => 0
  | key _ => 1
  | wait _ => 2

def comesBefore (l r : MetaPermission Key) : Bool :=
  r.weight < l.weight ∨ (r.weight = l.weight ∧ r.which < l.which)

end MetaPermission

namespace Authority

def factors (a : Authority Key) : List (MetaPermission Key) :=
  a.waits.map .wait ++ a.keys.map .key ++ a.accounts.map .permissionLevel

def metaPermissions (a : Authority Key) : List (MetaPermission Key) :=
  a.factors.insertionSort fun l r => ¬ r.comesBefore l = true

lemma metaPermissions_perm (a : Authority Key) : a.metaPermissions.Perm a.factors :=
  List.perm_insertionSort _ _

lemma metaPermissions_eq_nil_iff (a : Authority Key) : a.metaPermissions = [] ↔ a.factors = [] := by
  constructor
  · intro h
    exact (h ▸ a.metaPermissions_perm).nil_eq.symm
  · intro h
    exact (h ▸ a.metaPermissions_perm).eq_nil

def ascending {α : Type} (lt : α → α → Bool) : List α → Bool
  | a :: b :: rest => lt a b && ascending lt (b :: rest)
  | _ => true

def totalWeight (a : Authority Key) : Nat := (a.factors.map MetaPermission.weight).sum

def validate [LinearOrder Key] (a : Authority Key) : Bool :=
  a.keys.length + a.accounts.length + a.waits.length ≤ 65536 ∧
  a.threshold ≠ 0 ∧
  ascending (fun k l : KeyWeight Key => k.key < l.key) a.keys ∧
  ascending (fun p q : PermissionLevelWeight => p.permission < q.permission) a.accounts ∧
  (a.waits.head?.map WaitWeight.waitSec ≠ some 0) ∧
  ascending (fun v w : WaitWeight => v.waitSec < w.waitSec) a.waits ∧
  a.threshold ≤ u32 a.totalWeight

end Authority

end DimensionChain.Auth
