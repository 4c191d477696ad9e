import DimensionChain.Base.FlatMapSum
import DimensionChain.Base.Steps
import DimensionChain.Chain.Types

/-!
# Limits of accounts and their totals

New limits of an account wait in a pending row until they are processed. The rows are kept by
`pending` and `owner`, so that the pending ones come last. The totals over all accounts are
carried along by differences: the old value is taken off and the new one is put on, one account at
a time.
-/

namespace DimensionChain.Resource

structure LimitsKey where
  pending : Bool
  owner : AccountName
  deriving DecidableEq, Repr

instance : LinearOrder LimitsKey :=
  LinearOrder.lift' (fun k => toLex (k.pending, k.owner)) (by
    intro a b h
    cases a
    cases b
    simpa using h)

/-- What a row says besides its key. Negative values are unlimited. -/
structure AccountLimits where
  netWeight : Int := -1
  cpuWeight : Int := -1
  ramBytes : Int := -1
  deriving DecidableEq, Repr

/-- The rows of the manager. Of a usage only the memory is kept here. -/
structure LimitsManager where
  limits : FlatMap LimitsKey AccountLimits := .empty
  usages : FlatMap AccountName Nat := .empty
  totalRamBytes : Nat := 0
  totalCpuWeight : Nat := 0
  totalNetWeight : Nat := 0

/-- A row of `create`, under a unique key. -/
def insertNew {κ ν : Type} [LinearOrder κ] (m : FlatMap κ ν) (k : κ) (v : ν) :
    Result (FlatMap κ ν) := do
  eosAssert (m.find? k).isNone .uniqueness uniquenessViolated
  pure (m.set k v)

def revertOldValue (total : Nat) (value : Int) (debugWhich : String) : Result Nat :=
  if value > 0 then do
    eosAssert ((total : Int) ≥ value) .rateLimitingStateInconsistent
      ("underflow when reverting old value to " ++ debugWhich)
    pure (total - value.toNat)
  else pure total

def applyNewValue (total : Nat) (pendingValue : Int) (debugWhich : String) : Result Nat :=
  if pendingValue > 0 then do
    eosAssert (18446744073709551615 - (total : Int) ≥ pendingValue) .rateLimitingStateInconsistent
      ("overflow when applying new value to " ++ debugWhich)
    pure (total + pendingValue.toNat)
  else pure total

def updateStateAndValue (total : Nat) (value pendingValue : Int) (debugWhich : String) :
    Result Nat := do
  let total ← revertOldValue total value debugWhich
  applyNewValue total pendingValue debugWhich

namespace LimitsManager
variable (s : LimitsManager)

def initializeAccount (account : AccountName) : Result LimitsManager := do
  let limits ← insertNew s.limits ⟨false, account⟩ {}
  let usages ← insertNew s.usages account 0
  pure { s with limits := limits, usages := usages }

def findPendingLimits (account : AccountName) : Result AccountLimits :=
  match s.limits.find? ⟨true, account⟩ with
  | some pendingLimits => .ok pendingLimits
  | none =>
    match s.limits.find? ⟨false, account⟩ with
    | some limits => .ok limits
    | none => .error ⟨.outOfRange, "unknown key"⟩

def getAccountLimits (account : AccountName) : Result AccountLimits :=
  s.findPendingLimits account

/-- Whether the memory limit is decreased, and the rows with the new pending limits. -/
def setAccountLimits (account : AccountName) (ramBytes netWeight cpuWeight : Int) :
    Result (Bool × LimitsManager) := do
  let limits ← s.findPendingLimits account
  let decreasedLimit := ramBytes ≥ 0 ∧ (limits.ramBytes < 0 ∨ ramBytes < limits.ramBytes)
  let pendingLimits : AccountLimits := ⟨netWeight, cpuWeight, ramBytes⟩
  pure (decreasedLimit, { s with limits := s.limits.set ⟨true, account⟩ pendingLimits })

def processRow (owner : AccountName) (pendingLimits : AccountLimits) : Result LimitsManager :=
  match s.limits.find? ⟨false, owner⟩ with
  | none => .error ⟨.outOfRange, "unknown key"⟩
  | some rlo => do
    let ram ← updateStateAndValue s.totalRamBytes rlo.ramBytes pendingLimits.ramBytes "ram_bytes"
    let cpu ← updateStateAndValue s.totalCpuWeight rlo.cpuWeight pendingLimits.cpuWeight "cpu_weight"
    let net ← updateStateAndValue s.totalNetWeight rlo.netWeight pendingLimits.netWeight "net_weight"
    pure { s with
      limits := (s.limits.set ⟨false, owner⟩ pendingLimits).erase ⟨true, owner⟩
      totalRamBytes := ram
      totalCpuWeight := cpu
      totalNetWeight := net }

def firstPending (limits : FlatMap LimitsKey AccountLimits) : Option (LimitsKey × AccountLimits) :=
  limits.entries.find? fun e => e.1.pending

/-- The loop looks for the first pending row anew each time, until there is none. -/
def processLoop : Nat → LimitsManager → Result LimitsManager
  | 0, _ => .error ⟨.undefined, "pending rows are left"⟩
  | fuel + 1, s =>
    match firstPending s.limits with
    | none => .ok s
    | some (key, pendingLimits) => do
      let s ← s.processRow key.owner pendingLimits
      processLoop fuel s

def processAccountLimitUpdates : Result LimitsManager :=
  processLoop (s.limits.size + 1) s

inductive Call where
  | initializeAccount (account : AccountName)
  | setAccountLimits (account : AccountName) (ramBytes netWeight cpuWeight : Int)
  | processAccountLimitUpdates
  deriving DecidableEq

def result : Call → Result LimitsManager
  | .initializeAccount account => s.initializeAccount account
  | .setAccountLimits account ramBytes netWeight cpuWeight =>
    (s.setAccountLimits account ramBytes netWeight cpuWeight).map Prod.snd
  | .processAccountLimitUpdates => s.processAccountLimitUpdates

def apply (call : Call) : LimitsManager := (s.result call).toOption.getD s

end LimitsManager

end DimensionChain.Resource
