import DimensionChain.Base.RowDelta
import DimensionChain.Db.ChainDatabase

/-!
# The state deltas of a block

What the state history tells of a block: for each table the rows that the block has changed,
removed and created, as the undo record lists them, or all rows if the log is empty. A row is
what its serializer writes of the object, with the names of the objects it refers to.
-/

namespace DimensionChain.Db
open Auth

inductive HistoryRow (Key : Type) where
  | account (a : AccountObject)
  | contractTable (code scope table payer : Nat)
  | contract (k : ContractIndex) (code scope table primaryKey payer : Nat) (data : k.Data)
  | globalProperty (gpo : HistoryAbi.GlobalPropertyObject Key)
  | generatedTransaction (sender senderId payer : Nat) (trxId : Digest) (packedTrx : Bytes)
  | permission (owner name parent : Nat) (lastUpdated : Int) (auth : Authority Key)
  | permissionLink (link : PermissionLinkObject)
  | resourceLimits (owner : Nat) (netWeight cpuWeight ramBytes : Int)
  | resourceUsage (usage : ResourceUsageObject)
  | resourceLimitsState (averageBlockNetUsage averageBlockCpuUsage : UsageAccumulator)
      (totalNetWeight totalCpuWeight totalRamBytes : Nat) (virtualNetLimit virtualCpuLimit : UInt64)
  | resourceLimitsConfig (config : ResourceLimitsConfigObject)

def HistoryRow.key {Key : Type} : HistoryRow Key → List Nat
  | .account a => [a.name]
  | .contractTable code scope table _ => [code, scope, table]
  | .contract _ code scope table primaryKey _ _ => [code, scope, table, primaryKey]
  | .generatedTransaction sender senderId _ _ _ => [sender, senderId]
  | .permission owner name _ _ _ => [owner, name]
  | .permissionLink link => [link.account, link.code, link.messageType]
  | .resourceLimits owner _ _ _ => [owner]
  | .resourceUsage usage => [usage.owner]
  | .globalProperty _ | .resourceLimitsState _ _ _ _ _ _ _ | .resourceLimitsConfig _ => []

namespace HistoryTable

def all : List HistoryTable :=
  [.account, .contractTable, .contract .keyValue, .contract .index64, .contract .index128,
    .contract .index256, .contract .indexDouble, .contract .indexLongDouble, .globalProperty,
    .generatedTransaction, .permission, .permissionLink, .resourceLimits, .resourceUsage,
    .resourceLimitsState, .resourceLimitsConfig]

def name : HistoryTable → String
  | account => "account"
  | contractTable => "contract_table"
  | contract .keyValue => "contract_row"
  | contract .index64 => "contract_index64"
  | contract .index128 => "contract_index128"
  | contract .index256 => "contract_index256"
  | contract .indexDouble => "contract_index_double"
  | contract .indexLongDouble => "contract_index_long_double"
  | globalProperty => "global_property"
  | generatedTransaction => "generated_transaction"
  | permission => "permission"
  | permissionLink => "permission_link"
  | resourceLimits => "resource_limits"
  | resourceUsage => "resource_usage"
  | resourceLimitsState => "resource_limits_state"
  | resourceLimitsConfig => "resource_limits_config"

end HistoryTable

abbrev UndoStacks (Key : Type) := (t : HistoryTable) → List (UndoState (t.Object Key))

section Serializers
variable {Key : Type}

def getTableId (db : ChainDb Key) (removedTableId : FlatMap Nat TableIdObject) (tid : Nat) :
    Result TableIdObject :=
  match (db .contractTable).find? tid, removedTableId.find? tid with
  | some t, _ => .ok t
  | none, some t => .ok t
  | none, none => .error ⟨.plugin, "can not found table id $\x7btid\x7d"⟩

def parentName (db : ChainDb Key) (stack : List (UndoState (PermissionObject Key)))
    (parent : Nat) : Result Nat :=
  if parent = 0 then .ok 0
  else
    match (db .permission).find? parent, stack.getLast? with
    | some p, _ => .ok p.name
    | none, none => .error ⟨.undefined, "back of an empty stack"⟩
    | none, some undo =>
      match undo.removedValues.find? parent with
      | some p => .ok p.name
      | none => .error ⟨.plugin, "can not find parent of permission_object"⟩

def packRow (db : ChainDb Key) (removedTableId : FlatMap Nat TableIdObject)
    (stack : List (UndoState (PermissionObject Key))) :
    (t : HistoryTable) → t.Object Key → Result (HistoryRow Key)
  | .account => fun (a : AccountObject) => .ok (.account a)
  | .contractTable => fun (t : TableIdObject) =>
    .ok (.contractTable t.code t.scope t.table t.payer)
  | .contract k => fun (row : ContractObject k) => do
    let t ← getTableId db removedTableId row.tId
    pure (.contract k t.code t.scope t.table row.primaryKey row.payer row.data)
  | .globalProperty => fun (gpo : HistoryAbi.GlobalPropertyObject Key) => .ok (.globalProperty gpo)
  | .generatedTransaction => fun (gtx : GeneratedTransactionObject) =>
    .ok (.generatedTransaction gtx.sender gtx.senderId gtx.payer gtx.trxId gtx.packedTrx)
  | .permission => fun (p : PermissionObject Key) => do
    let parent ← parentName db stack p.parent
    pure (.permission p.owner p.name parent p.lastUpdated p.auth)
  | .permissionLink => fun (link : PermissionLinkObject) => .ok (.permissionLink link)
  | .resourceLimits => fun (limits : ResourceLimitsObject) => do
    eosAssert (limits.pending = false) .plugin
      "accepted_block sent while resource_limits_object in pending state"
    pure (.resourceLimits limits.owner limits.netWeight limits.cpuWeight limits.ramBytes)
  | .resourceUsage => fun (usage : ResourceUsageObject) => .ok (.resourceUsage usage)
  | .resourceLimitsState => fun (s : ResourceLimitsStateObject) =>
    .ok (.resourceLimitsState s.averageBlockNetUsage s.averageBlockCpuUsage s.totalNetWeight
      s.totalCpuWeight s.totalRamBytes s.virtualNetLimit s.virtualCpuLimit)
  | .resourceLimitsConfig => fun (c : ResourceLimitsConfigObject) => .ok (.resourceLimitsConfig c)

end Serializers

structure TableDelta (ρ : Type) where
  name : String
  rows : List (Bool × ρ)

section Deltas
variable {α ρ : Type}

def getRow (idx : ObjectIndex α) (id : Nat) : Result α :=
  match idx.find? id with
  | some a => .ok a
  | none => .error ⟨.outOfRange, "unknown key"⟩

/-- The rows of an undo record: first the changed, then the removed, then the new ones. -/
def undoRows (index : ObjectIndex α) (undo : UndoState α) (pack : α → Result ρ) :
    Result (List (Bool × ρ)) := do
  let modified ← undo.oldValues.entries.mapM fun e => getRow index e.1 >>= pack
  let removed ← undo.removedValues.values.mapM pack
  let new ← undo.newIds.mapM fun id => getRow index id >>= pack
  pure (modified.map (fun r => (true, r)) ++ removed.map (fun r => (false, r)) ++
    new.map fun r => (true, r))

def processTable (fresh : Bool) (name : String) (index : ObjectIndex α)
    (stack : List (UndoState α)) (pack : α → Result ρ) : Result (List (TableDelta ρ)) :=
  if fresh then
    if index.values.isEmpty then .ok []
    else do
      let rows ← index.values.mapM pack
      pure [⟨name, rows.map fun r => (true, r)⟩]
  else
    match stack.getLast? with
    | none => .ok []
    | some undo =>
      if undo.isEmpty then .ok []
      else do
        let rows ← undoRows index undo pack
        pure [⟨name, rows⟩]

end Deltas

/-- The deltas of `store_chain_state`, without their compression. The log is fresh if it has no
block. -/
def storeChainState {Key : Type} (fresh : Bool) (db : ChainDb Key) (undo : UndoStacks Key) :
    Result (List (TableDelta (HistoryRow Key))) :=
  match (undo .contractTable).getLast? with
  | none => .error ⟨.undefined, "back of an empty stack"⟩
  | some tables => do
    let deltas ← HistoryTable.all.mapM fun t => processTable fresh t.name (db t) (undo t)
      (packRow db tables.removedValues (undo .permission) t)
    pure deltas.flatten

end DimensionChain.Db
