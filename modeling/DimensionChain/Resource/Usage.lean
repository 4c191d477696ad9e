import DimensionChain.Resource.WeightTotals

/-!
# Net and cpu usage

An accumulator has the usage of an account as a moving average, which decays with the slots. An
account may use its share of the virtual capacity of a window; the same share is quoted. Net and
cpu are two cases of the same functions. Products of 64 and of 32 bits fit in 128 bits; the third
factor, the weight, may make them wrap.
-/

namespace DimensionChain.Resource

namespace Config

def rateLimitingPrecision : Nat := 1000000

end Config

def integerDivideCeil (num den : Nat) : Nat := num / den + if num % den > 0 then 1 else 0

def downgradeCast (max val : Nat) : Result Nat := do
  eosAssert (val ≤ max) .rateLimitingStateInconsistent
    "Casting a higher bit integer value $\x7bv\x7d to a lower bit integer value which cannot contain the value, valid range is [$\x7bmin\x7d, $\x7bmax\x7d]"
  pure val

def mulRatio (value numerator denominator : Nat) : Result Nat := do
  eosAssert (numerator = 0 ∨ (2 ^ 64 - 1) / numerator ≥ value) .rateLimitingStateInconsistent
    "Usage exceeds maximum value representable after extending for precision"
  pure (value * numerator % 2 ^ 64 / denominator)

structure Accumulator where
  lastOrdinal : Nat := 0
  valueEx : UInt64 := 0
  consumed : UInt64 := 0
  deriving DecidableEq

namespace Accumulator

def maxRawValue : Nat := (2 ^ 64 - 1) / Config.rateLimitingPrecision

def average (a : Accumulator) : Nat := integerDivideCeil a.valueEx.toNat Config.rateLimitingPrecision

def decay (a : Accumulator) (ordinal windowSize : Nat) : Result Accumulator := do
  eosAssert (ordinal > a.lastOrdinal) .resourceLimit
    "new ordinal cannot be less than the previous ordinal"
  let valueEx ←
    if a.lastOrdinal + windowSize > ordinal then
      mulRatio a.valueEx.toNat (windowSize - (ordinal - a.lastOrdinal)) windowSize
    else pure 0
  let a := { a with valueEx := .ofNat valueEx, lastOrdinal := ordinal }
  pure { a with consumed := .ofNat a.average }

def add (a : Accumulator) (units ordinal windowSize : Nat) : Result Accumulator := do
  eosAssert (units ≤ maxRawValue) .rateLimitingStateInconsistent
    "Usage exceeds maximum value representable after extending for precision"
  eosAssert (2 ^ 64 - 1 - a.consumed.toNat ≥ units) .rateLimitingStateInconsistent
    "Overflow in tracked usage when adding usage!"
  let valueExContrib ← downgradeCast (2 ^ 64 - 1)
    (integerDivideCeil (units * Config.rateLimitingPrecision) windowSize)
  eosAssert (2 ^ 64 - 1 - a.valueEx.toNat ≥ valueExContrib) .rateLimitingStateInconsistent
    "Overflow in accumulated value when adding usage!"
  let a ← if a.lastOrdinal ≠ ordinal then a.decay ordinal windowSize else pure a
  pure { a with
    consumed := a.consumed + .ofNat units
    valueEx := a.valueEx + .ofNat valueExContrib }

end Accumulator

structure ElasticLimitParameters where
  target : Nat
  max : Nat
  periods : Nat
  maxMultiplier : Nat
  contractRate : Nat × Nat
  expandRate : Nat × Nat

def updateElasticLimit (currentLimit averageUsage : Nat) (params : ElasticLimitParameters) :
    Result Nat := do
  let rate := if averageUsage > params.target then params.contractRate else params.expandRate
  let result ← mulRatio currentLimit rate.1 rate.2
  pure (min (max result params.max) (params.max * params.maxMultiplier % 2 ^ 64))

inductive Bandwidth where
  | net | cpu
  deriving DecidableEq

namespace Bandwidth

def weight : Bandwidth → AccountLimits → Int
  | net => AccountLimits.netWeight
  | cpu => AccountLimits.cpuWeight

def exceeded : Bandwidth → ChainException
  | net => ⟨.txNetUsageExceeded,
      "authorizing account '$\x7bn\x7d' has insufficient net resources for this transaction"⟩
  | cpu => ⟨.txCpuUsageExceeded,
      "authorizing account '$\x7bn\x7d' has insufficient cpu resources for this transaction"⟩

end Bandwidth

structure ResourceManager extends LimitsManager where
  usage : AccountName → Option (Bandwidth → Accumulator) := fun _ => none
  parameters : Bandwidth → ElasticLimitParameters
  accountUsageAverageWindow : Bandwidth → Nat
  averageBlockUsage : Bandwidth → Accumulator := fun _ => {}
  pendingUsage : Bandwidth → Nat := fun _ => 0
  virtualLimit : Bandwidth → Nat

structure AccountResourceLimit where
  used : Int
  available : Int
  max : Int
  deriving DecidableEq

namespace ResourceManager

def initializeDatabase : ResourceManager where
  parameters
    | .net => ⟨104857, 1048576, 120, 1000, (99, 100), (1000, 999)⟩
    | .cpu => ⟨20000, 200000, 120, 1000, (99, 100), (1000, 999)⟩
  accountUsageAverageWindow _ := 172800
  virtualLimit
    | .net => 1048576
    | .cpu => 200000

section Queries
variable (s : ResourceManager)

def totalWeight : Bandwidth → Nat
  | .net => s.totalNetWeight
  | .cpu => s.totalCpuWeight

def getUsage (account : AccountName) : Result (Bandwidth → Accumulator) :=
  match s.usage account with
  | some u => .ok u
  | none => .error ⟨.outOfRange, "unknown key"⟩

def capacity (b : Bandwidth) (elastic : Bool) : Nat :=
  if elastic then s.virtualLimit b else (s.parameters b).max

def maxUserUseInWindow (b : Bandwidth) (limits : AccountLimits) (elastic : Bool) : Nat :=
  s.capacity b elastic * s.accountUsageAverageWindow b * (b.weight limits).toNat % 2 ^ 128 /
    s.totalWeight b

def quotedUseInWindow (b : Bandwidth) (usage : Accumulator) : Nat :=
  integerDivideCeil (usage.valueEx.toNat * s.accountUsageAverageWindow b)
    Config.rateLimitingPrecision

def accountResourceLimit (maxUse used : Nat) : Result AccountResourceLimit := do
  let available ← downgradeCast (2 ^ 63 - 1) (maxUse - used)
  let used ← downgradeCast (2 ^ 63 - 1) used
  let max ← downgradeCast (2 ^ 63 - 1) maxUse
  pure ⟨used, available, max⟩

def getAccountLimitEx (b : Bandwidth) (name : AccountName) (elastic : Bool) :
    Result AccountResourceLimit := do
  let usage ← s.getUsage name
  let limits ← s.getAccountLimits name
  if b.weight limits < 0 ∨ s.totalWeight b = 0 then pure ⟨-1, -1, -1⟩
  else
    accountResourceLimit (s.maxUserUseInWindow b limits elastic) (s.quotedUseInWindow b (usage b))

def getAccountCpuLimitEx := s.getAccountLimitEx .cpu

def getAccountNetLimitEx := s.getAccountLimitEx .net

def getAccountLimit (b : Bandwidth) (name : AccountName) (elastic : Bool) : Result Int := do
  let arl ← s.getAccountLimitEx b name elastic
  pure arl.available

def checkAccount (b : Bandwidth) (limits : AccountLimits) (usage : Accumulator) : Result Unit :=
  if b.weight limits ≥ 0 ∧ s.totalWeight b > 0 then
    eosAssert (usage.valueEx.toNat * s.accountUsageAverageWindow b / Config.rateLimitingPrecision ≤
      s.maxUserUseInWindow b limits true) b.exceeded.kind b.exceeded.message
  else pure ()

end Queries

variable (s : ResourceManager)

def setUsage (account : AccountName) (net cpu : Accumulator) : ResourceManager :=
  { s with usage := Function.update s.usage account (some fun | .net => net | .cpu => cpu) }

/-- `add` for both accumulators of an account. -/
def addUsage (usage : Bandwidth → Accumulator) (cpu net timeSlot : Nat) :
    Result (Accumulator × Accumulator) := do
  let net ← (usage .net).add net timeSlot (s.accountUsageAverageWindow .net)
  let cpu ← (usage .cpu).add cpu timeSlot (s.accountUsageAverageWindow .cpu)
  pure (net, cpu)

def updateAccountUsage (accounts : List AccountName) (timeSlot : Nat) : Result ResourceManager :=
  accounts.foldlM (fun s a => do
    let usage ← s.getUsage a
    let (net, cpu) ← s.addUsage usage 0 0 timeSlot
    pure (s.setUsage a net cpu)) s

def addAccountUsage (cpuUsage netUsage timeSlot : Nat) (a : AccountName) :
    Result ResourceManager := do
  let usage ← s.getUsage a
  let limits ← s.getAccountLimits a
  let (net, cpu) ← s.addUsage usage cpuUsage netUsage timeSlot
  s.checkAccount .cpu limits cpu
  s.checkAccount .net limits net
  pure (s.setUsage a net cpu)

def addTransactionUsage (accounts : List AccountName) (cpuUsage netUsage timeSlot : Nat) :
    Result ResourceManager := do
  let s ← accounts.foldlM (fun s a => s.addAccountUsage cpuUsage netUsage timeSlot a) s
  let s := { s with
    pendingUsage := fun
      | .net => (s.pendingUsage .net + netUsage) % 2 ^ 64
      | .cpu => (s.pendingUsage .cpu + cpuUsage) % 2 ^ 64 }
  eosAssert (s.pendingUsage .cpu ≤ (s.parameters .cpu).max) .blockResourceExhausted
    "Block has insufficient cpu resources"
  eosAssert (s.pendingUsage .net ≤ (s.parameters .net).max) .blockResourceExhausted
    "Block has insufficient net resources"
  pure s

/-- The part of `process_block_usage` for one of both. -/
def processUsage (b : Bandwidth) (blockNum : Nat) : Result ResourceManager := do
  let average ← (s.averageBlockUsage b).add (s.pendingUsage b) blockNum (s.parameters b).periods
  let limit ← updateElasticLimit (s.virtualLimit b) average.average (s.parameters b)
  pure { s with
    averageBlockUsage := Function.update s.averageBlockUsage b average
    virtualLimit := Function.update s.virtualLimit b limit
    pendingUsage := Function.update s.pendingUsage b 0 }

def processBlockUsage (blockNum : Nat) : Result ResourceManager := do
  let s ← s.processUsage .cpu blockNum
  s.processUsage .net blockNum

inductive Call where
  | limits (call : LimitsManager.Call)
  | updateAccountUsage (accounts : List AccountName) (timeSlot : Nat)
  | addTransactionUsage (accounts : List AccountName) (cpuUsage netUsage timeSlot : Nat)
  | processBlockUsage (blockNum : Nat)

def initializedUsage : LimitsManager.Call → AccountName → Option (Bandwidth → Accumulator)
  | .initializeAccount account => Function.update s.usage account (some fun _ => {})
  | _ => s.usage

def result : Call → Result ResourceManager
  | .limits call => do
    let limits ← s.toLimitsManager.result call
    pure { s with toLimitsManager := limits, usage := s.initializedUsage call }
  | .updateAccountUsage accounts timeSlot => s.updateAccountUsage accounts timeSlot
  | .addTransactionUsage accounts cpuUsage netUsage timeSlot =>
    s.addTransactionUsage accounts cpuUsage netUsage timeSlot
  | .processBlockUsage blockNum => s.processBlockUsage blockNum

def apply (call : Call) : ResourceManager := (s.result call).toOption.getD s

end ResourceManager

end DimensionChain.Resource
