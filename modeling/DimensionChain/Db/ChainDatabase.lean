import DimensionChain.Abi.HistoryAbi
import DimensionChain.Auth.Authority
import DimensionChain.Base.ObjectIndex
import DimensionChain.Base.Steps

/-!
# The chain database

The indices of the chain database that the state history tells of, and the writes of a block,
whatever their order. Rows are without their ids, which are the ids of an `ObjectIndex`. Every
write keeps the keys unique, the references between the rows and the keys of the rows that stay.
-/

namespace DimensionChain.Db
open Auth ObjectIndex

structure AccountObject where
  name : AccountName
  vmType : UInt8 := 0
  vmVersion : UInt8 := 0
  privileged : Bool := false
  lastCodeUpdate : Int := 0
  codeVersion : Digest := default
  creationDate : Nat := 0
  code : Bytes := []
  abi : Bytes := []

structure TableIdObject where
  code : AccountName
  scope : Nat
  table : Nat
  payer : AccountName
  count : Nat := 0

inductive ContractIndex where
  | keyValue | index64 | index128 | index256 | indexDouble | indexLongDouble
  deriving DecidableEq, Repr

def ContractIndex.Data : ContractIndex → Type
  | keyValue => Bytes
  | index64 => UInt64
  | index128 => BitVec 128
  | index256 => BitVec 128 × BitVec 128
  | indexDouble => UInt64
  | indexLongDouble => BitVec 128

structure ContractObject (k : ContractIndex) where
  tId : Nat
  primaryKey : Nat
  payer : AccountName
  data : k.Data

structure GeneratedTransactionObject where
  trxId : Digest
  sender : AccountName
  senderId : Nat
  payer : AccountName
  delayUntil : Int
  expiration : Int
  published : Int
  packedTrx : Bytes

structure PermissionObject (Key : Type) where
  usageId : Nat := 0
  parent : Nat := 0
  owner : AccountName := 0
  name : PermissionName := 0
  lastUpdated : Int := 0
  auth : Authority Key := {}

structure PermissionLinkObject where
  account : AccountName
  code : AccountName
  messageType : Nat
  requiredPermission : PermissionName

structure ResourceLimitsObject where
  owner : AccountName
  pending : Bool := false
  netWeight : Int := -1
  cpuWeight : Int := -1
  ramBytes : Int := -1

structure UsageAccumulator where
  lastOrdinal : UInt32 := 0
  valueEx : UInt64 := 0
  consumed : UInt64 := 0

structure ResourceUsageObject where
  owner : AccountName
  netUsage : UsageAccumulator := {}
  cpuUsage : UsageAccumulator := {}
  ramUsage : Nat := 0

structure ResourceLimitsStateObject where
  averageBlockNetUsage : UsageAccumulator := {}
  averageBlockCpuUsage : UsageAccumulator := {}
  pendingNetUsage : UInt64 := 0
  pendingCpuUsage : UInt64 := 0
  totalNetWeight : Nat := 0
  totalCpuWeight : Nat := 0
  totalRamBytes : Nat := 0
  virtualNetLimit : UInt64 := 0
  virtualCpuLimit : UInt64 := 0

structure Ratio where
  numerator : UInt64
  denominator : UInt64

structure ElasticLimitParameters where
  target : UInt64
  max : UInt64
  periods : UInt32
  maxMultiplier : UInt32
  contractRate : Ratio
  expandRate : Ratio

structure ResourceLimitsConfigObject where
  cpuLimitParameters : ElasticLimitParameters
  netLimitParameters : ElasticLimitParameters
  accountCpuUsageAverageWindow : UInt32
  accountNetUsageAverageWindow : UInt32

inductive HistoryTable where
  | account | contractTable | contract (k : ContractIndex) | globalProperty
  | generatedTransaction | permission | permissionLink | resourceLimits | resourceUsage
  | resourceLimitsState | resourceLimitsConfig
  deriving DecidableEq, Repr

namespace HistoryTable
variable {Key : Type}

def Object (Key : Type) : HistoryTable → Type
  | account => AccountObject
  | contractTable => TableIdObject
  | contract k => ContractObject k
  | globalProperty => HistoryAbi.GlobalPropertyObject Key
  | generatedTransaction => GeneratedTransactionObject
  | permission => PermissionObject Key
  | permissionLink => PermissionLinkObject
  | resourceLimits => ResourceLimitsObject
  | resourceUsage => ResourceUsageObject
  | resourceLimitsState => ResourceLimitsStateObject
  | resourceLimitsConfig => ResourceLimitsConfigObject

/-- The key of the unique index of a table. The last two and the global properties have one row,
which `initialize_database` creates. -/
def uniqueKey : (t : HistoryTable) → t.Object Key → List Nat
  | account => fun (a : AccountObject) => [a.name]
  | contractTable => fun (t : TableIdObject) => [t.code, t.scope, t.table]
  | contract k => fun (row : ContractObject k) => [row.tId, row.primaryKey]
  | generatedTransaction => fun (gtx : GeneratedTransactionObject) => [gtx.sender, gtx.senderId]
  | permission => fun (p : PermissionObject Key) => [p.owner, p.name]
  | permissionLink => fun (link : PermissionLinkObject) =>
    [link.account, link.code, link.messageType]
  | resourceLimits => fun (limits : ResourceLimitsObject) => [limits.pending.toNat, limits.owner]
  | resourceUsage => fun (usage : ResourceUsageObject) => [usage.owner]
  | globalProperty | resourceLimitsState | resourceLimitsConfig => fun _ => []

/-- The rows that a row refers to by their ids. The parent 0 of `owner` is reserved. -/
def refs : (t : HistoryTable) → t.Object Key → List (HistoryTable × Nat)
  | contract k => fun (row : ContractObject k) => [(contractTable, row.tId)]
  | permission => fun (p : PermissionObject Key) =>
    if p.parent = 0 then [] else [(permission, p.parent)]
  | _ => fun _ => []

end HistoryTable

abbrev ChainDb (Key : Type) := (t : HistoryTable) → ObjectIndex (t.Object Key)

inductive Write (Key : Type) where
  | create (t : HistoryTable) (row : t.Object Key)
  | modify (t : HistoryTable) (id : Nat) (row : t.Object Key)
  | remove (t : HistoryTable) (id : Nat)

namespace ChainDb
variable {Key : Type}

def set (db : ChainDb Key) (t : HistoryTable) (idx : ObjectIndex (t.Object Key)) : ChainDb Key :=
  Function.update db t idx

def write (db : ChainDb Key) : Write Key → ChainDb Key
  | .create t row => db.set t ((db t).create row)
  | .modify t id row => db.set t ((db t).modify id fun _ => row)
  | .remove t id => db.set t ((db t).remove id)

def Refers (db : ChainDb Key) (t : HistoryTable) (row : t.Object Key) : Prop :=
  ∀ r ∈ t.refs row, ∃ a, (db r.1).find? r.2 = some a

/-- What the source does: `create` keeps the unique keys, no `modify` changes a key, a contract
row is created in its table and a permission below its parent, `remove_table` is called when the
table has counted its last row out, and `remove_permission` asserts that there are no children. -/
def Allowed (db : ChainDb Key) : Write Key → Prop
  | .create t row =>
    (∀ id a, (db t).find? id = some a → t.uniqueKey a ≠ t.uniqueKey row) ∧ db.Refers t row
  | .modify t id row =>
    (∃ a, (db t).find? id = some a ∧ t.uniqueKey a = t.uniqueKey row) ∧ db.Refers t row
  | .remove t id => ∀ u i a, (db u).find? i = some a → (t, id) ∉ u.refs a

def Writes (db : ChainDb Key) (w : Write Key) (db' : ChainDb Key) : Prop :=
  db.Allowed w ∧ db' = db.write w

structure Formed (db : ChainDb Key) : Prop where
  unique : ∀ t, ObjectIndex.Unique t.uniqueKey (db t)
  refers : ∀ t id row, (db t).find? id = some row → db.Refers t row

def Kept (db db' : ChainDb Key) : Prop := ∀ t, ObjectIndex.Kept t.uniqueKey (db t) (db' t)

def AtBoundary (db : ChainDb Key) : Prop :=
  ∀ id (limits : ResourceLimitsObject), (db .resourceLimits).find? id = some limits →
    limits.pending = false

variable {db db' : ChainDb Key} {t : HistoryTable} {idx : ObjectIndex (t.Object Key)}

@[simp] lemma set_self (db : ChainDb Key) (t : HistoryTable) (idx : ObjectIndex (t.Object Key)) :
    db.set t idx t = idx := by
  simp [set]

lemma forall_set {P : (t : HistoryTable) → ObjectIndex (t.Object Key) → Prop}
    (hP : ∀ t, P t (db t)) (hidx : P t idx) : ∀ u, P u (db.set t idx u) := by
  intro u
  by_cases hu : u = t
  · subst hu
    rw [set_self]
    exact hidx
  · rw [set, Function.update_of_ne hu]
    exact hP u

lemma kept_set (h : ObjectIndex.Kept t.uniqueKey (db t) idx) : Kept db (db.set t idx) :=
  forall_set (P := fun t idx => ObjectIndex.Kept t.uniqueKey (db t) idx) (fun _ => .refl _ _) h

lemma Formed.of_refers (h : Formed db) (hunique : ObjectIndex.Unique t.uniqueKey idx)
    (hrows : ∀ id row, idx.find? id = some row → db.Refers t row)
    (hstay : ∀ u i a, (db u).find? i = some a → (∃ v j b, (db.set t idx v).find? j = some b ∧
      (u, i) ∈ v.refs b) → ∃ a', (db.set t idx u).find? i = some a') : Formed (db.set t idx) where
  unique := forall_set h.unique hunique
  refers v j b hb r hr := by
    have hrefers : db.Refers v b :=
      forall_set (P := fun v idx => ∀ id row, idx.find? id = some row → db.Refers v row)
        h.refers hrows v j b hb
    obtain ⟨a, ha⟩ := hrefers r hr
    exact hstay r.1 r.2 a ha ⟨v, j, b, hb, hr⟩

lemma writes_formed_step {w : Write Key} (h : Formed db) (hw : Writes db w db') :
    Formed db' ∧ Kept db db' := by
  obtain ⟨hallowed, rfl⟩ := hw
  cases w with
  | create t row =>
    obtain ⟨hnew, hrefers⟩ := hallowed
    refine ⟨h.of_refers ((h.unique t).create hnew) ?_ ?_, kept_set (.create _ _ _)⟩
    · intro id b hb
      rcases find?_create_cases hb with rfl | hold
      · exact hrefers
      · exact h.refers t id b hold
    intro u i a ha _
    refine forall_set (P := fun u idx => ∀ i a, (db u).find? i = some a →
      ∃ a', idx.find? i = some a') (fun u i a ha => ⟨a, ha⟩) ?_ u i a ha
    intro i a ha
    rw [find?_create, if_neg (Nat.ne_of_lt (lt_nextId ha))]
    exact ⟨a, ha⟩
  | modify t id row =>
    obtain ⟨⟨old, hold, hkey⟩, hrefers⟩ := hallowed
    have hkept := ObjectIndex.Kept.modify hold hkey
    refine ⟨h.of_refers (hkept.unique rfl (h.unique t)) ?_ ?_, kept_set hkept⟩
    · intro i b hb
      rw [find?_modify] at hb
      split at hb
      · obtain ⟨-, -, rfl⟩ := Option.map_eq_some_iff.mp hb
        exact hrefers
      · exact h.refers t i b hb
    intro u i a ha _
    refine forall_set (P := fun u idx => ∀ i a, (db u).find? i = some a →
      ∃ a', idx.find? i = some a') (fun u i a ha => ⟨a, ha⟩) ?_ u i a ha
    intro i a ha
    rw [find?_modify, ha]
    split
    · exact ⟨row, rfl⟩
    · exact ⟨a, rfl⟩
  | remove t id =>
    have hkept := ObjectIndex.Kept.remove t.uniqueKey (db t) id
    have hold : ∀ v j b, (db.set t ((db t).remove id) v).find? j = some b →
        (db v).find? j = some b := by
      refine forall_set (P := fun v idx => ∀ j b, idx.find? j = some b →
        (db v).find? j = some b) (fun _ _ _ hb => hb) ?_
      intro j b hb
      rw [find?_remove] at hb
      split at hb
      · cases hb
      · exact hb
    refine ⟨h.of_refers (hkept.unique rfl (h.unique t)) ?_ ?_, kept_set hkept⟩
    · intro i b hb
      exact h.refers t i b (hold t i b (by rw [set_self]; exact hb))
    intro u i a ha hreferred
    obtain ⟨v, j, b, hb, hr⟩ := hreferred
    have hne : (u, i) ≠ (t, id) := by
      intro heq
      exact hallowed v j b (hold v j b hb) (heq ▸ hr)
    by_cases hu : u = t
    · subst hu
      have hi : i ≠ id := fun hi => hne (by rw [hi])
      rw [set_self, find?_remove, if_neg hi]
      exact ⟨a, ha⟩
    · rw [set, Function.update_of_ne hu]
      exact ⟨a, ha⟩

lemma writes_formed (h : Formed db) {ws : List (ChainDb Key × Write Key × ChainDb Key)}
    (hws : Steps Writes db ws db') : Formed db' ∧ Kept db db' := by
  refine hws.invariant (Q := fun db' => Formed db' ∧ Kept db db') ?_
    ⟨h, fun _ => .refl _ _⟩
  intro s w s' hs hw
  obtain ⟨hformed, hkept⟩ := hs
  obtain ⟨hformed', hkept'⟩ := writes_formed_step hformed hw
  exact ⟨hformed', fun t => (hkept t).trans (hkept' t)⟩

end ChainDb

end DimensionChain.Db
