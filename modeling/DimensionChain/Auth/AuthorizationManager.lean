import DimensionChain.Auth.AuthorityChecker
import DimensionChain.Base.FlatMap
import DimensionChain.Chain.Names

/-!
# The authorization manager

The permission tables of the database with the look-ups and checks of
`authorization_manager`. A multi-index table is the list of its rows; an index is a search by
its key. Times, usage records and billed memory are left out: no check reads them.
-/

namespace DimensionChain.Auth

/-- A row of `permission_index`. The parent id 0 stands for no parent and is the id of a row
that belongs to nobody. -/
structure PermissionObject (Key : Type) where
  id : Nat
  parent : Nat
  owner : AccountName
  name : PermissionName
  auth : Authority Key
  deriving DecidableEq, Repr

structure PermissionLinkObject where
  account : AccountName
  code : AccountName
  messageType : Nat
  requiredPermission : PermissionName
  deriving DecidableEq, Repr

structure AccountObject where
  name : AccountName
  privileged : Bool := false
  deriving DecidableEq, Repr

structure GeneratedTransaction where
  trxId : Digest
  sender : AccountName
  authorizations : List (List PermissionLevel)
  delayUntil : Int
  published : Int
  deriving DecidableEq, Repr

structure ChainConfig where
  maxAuthorityDepth : Nat := 6
  maxTransactionDelay : Nat := 45 * 24 * 3600
  deriving DecidableEq, Repr

structure AuthorizationDb (Key : Type) where
  accounts : List AccountObject
  permissions : List (PermissionObject Key)
  nextPermissionId : Nat
  permissionLinks : List PermissionLinkObject := []
  generatedTransactions : List GeneratedTransaction := []
  configuration : ChainConfig := {}
  deriving DecidableEq, Repr

structure NewAccount (Key : Type) where
  creator : AccountName
  name : AccountName
  owner : Authority Key
  active : Authority Key
  deriving DecidableEq, Repr

structure UpdateAuth (Key : Type) where
  account : AccountName
  permission : PermissionName
  parent : PermissionName
  auth : Authority Key
  deriving DecidableEq, Repr

structure DeleteAuth where
  account : AccountName
  permission : PermissionName
  deriving DecidableEq, Repr

structure LinkAuth where
  account : AccountName
  code : AccountName
  type : Nat
  requirement : PermissionName
  deriving DecidableEq, Repr

structure UnlinkAuth where
  account : AccountName
  code : AccountName
  type : Nat
  deriving DecidableEq, Repr

structure CancelDelay where
  cancelingAuth : PermissionLevel
  trxId : Digest
  deriving DecidableEq, Repr

/-- The content of an action: one that a native handler applies to the permission tables, or any
other. -/
inductive ActionData (Key : Type) where
  | newaccount (create : NewAccount Key)
  | updateauth (update : UpdateAuth Key)
  | deleteauth (remove : DeleteAuth)
  | linkauth (link : LinkAuth)
  | unlinkauth (unlink : UnlinkAuth)
  | canceldelay (cancel : CancelDelay)
  | other (account : AccountName) (name : Nat)
  deriving DecidableEq, Repr

structure Action (Key : Type) where
  authorization : List PermissionLevel
  data : ActionData Key
  deriving DecidableEq, Repr

namespace ActionName

def newaccount : Nat := Name.stringToName ['n', 'e', 'w', 'a', 'c', 'c', 'o', 'u', 'n', 't']

def updateauth : Nat := Name.stringToName ['u', 'p', 'd', 'a', 't', 'e', 'a', 'u', 't', 'h']

def deleteauth : Nat := Name.stringToName ['d', 'e', 'l', 'e', 't', 'e', 'a', 'u', 't', 'h']

def linkauth : Nat := Name.stringToName ['l', 'i', 'n', 'k', 'a', 'u', 't', 'h']

def unlinkauth : Nat := Name.stringToName ['u', 'n', 'l', 'i', 'n', 'k', 'a', 'u', 't', 'h']

def canceldelay : Nat := Name.stringToName ['c', 'a', 'n', 'c', 'e', 'l', 'd', 'e', 'l', 'a', 'y']

end ActionName

namespace AuthorizationDb
variable {Key : Type}

section Lookups
variable (db : AuthorizationDb Key)

def findAccount (name : AccountName) : Option AccountObject :=
  db.accounts.find? fun a => a.name = name

def findById (id : Nat) : Option (PermissionObject Key) := db.permissions.find? fun p => p.id = id

def findByOwner (level : PermissionLevel) : Option (PermissionObject Key) :=
  db.permissions.find? fun p => p.owner = level.actor ∧ p.name = level.permission

def findByName (name : PermissionName) : Option (PermissionObject Key) :=
  db.permissions.find? fun p => p.name = name

def findLink (account code : AccountName) (type : Nat) : Option PermissionLinkObject :=
  db.permissionLinks.find? fun l => l.account = account ∧ l.code = code ∧ l.messageType = type

def findPermission (level : PermissionLevel) : Result (Option (PermissionObject Key)) :=
  if level.actor = 0 ∨ level.permission = 0 then .error ⟨.invalidPermission, "Invalid permission"⟩
  else .ok (db.findByOwner level)

def getPermission (level : PermissionLevel) : Result (PermissionObject Key) :=
  if level.actor = 0 ∨ level.permission = 0 then .error ⟨.invalidPermission, "Invalid permission"⟩
  else
    match db.findByOwner level with
    | none => .error ⟨.permissionQuery, "Failed to retrieve permission: $\x7blevel\x7d"⟩
    | some p => .ok p

/-- The loop of `satisfies`, from the row with the given id. A row that is not there would be
an iterator past the end. -/
def walkUp (id : Nat) : Nat → Nat → Result Bool
  | 0, _ => .error ⟨.undefined, "parents form a cycle"⟩
  | fuel + 1, parentId =>
    match db.findById parentId with
    | none => .error ⟨.undefined, "parent does not exist"⟩
    | some parent =>
      if id = parent.parent then .ok true
      else if parent.parent = 0 then .ok false
      else walkUp id fuel parent.parent

/-- `permission_object::satisfies`. Ids below the next one bound the length of the walk. -/
def satisfies (this other : PermissionObject Key) : Result Bool :=
  if this.owner ≠ other.owner then .ok false
  else if this.id = other.id ∨ this.id = other.parent then .ok true
  else db.walkUp this.id db.nextPermissionId other.parent

def lookupLinkedPermission (authorizerAccount scope : AccountName) (actName : Nat) :
    Option PermissionName :=
  match db.findLink authorizerAccount scope actName with
  | some link => some link.requiredPermission
  | none => (db.findLink authorizerAccount scope 0).map (·.requiredPermission)

def lookupMinimumPermission (authorizerAccount scope : AccountName) (actName : Nat) :
    Result (Option PermissionName) := do
  eosAssert (scope = Config.systemAccountName →
      actName ≠ ActionName.updateauth ∧ actName ≠ ActionName.deleteauth ∧
      actName ≠ ActionName.linkauth ∧ actName ≠ ActionName.unlinkauth ∧
      actName ≠ ActionName.canceldelay) .unlinkableMinPermissionAction
    "cannot call lookup_minimum_permission on native actions that are not allowed to be linked to minimum permissions"
  match db.lookupLinkedPermission authorizerAccount scope actName with
  | none => pure (some Config.activeName)
  | some linked => if linked = Config.eosioAnyName then pure none else pure (some linked)

/-- The declared authority satisfies a permission, or the action declares an irrelevant one. -/
def requireSatisfies (auth : PermissionLevel) (minPermission : PermissionObject Key)
    (message : String) : Result Unit := do
  let declared ← db.getPermission auth
  let ok ← db.satisfies declared minPermission
  eosAssert (ok = true) .irrelevantAuth message

/-- The single declared authorization of a native action, by its owner. -/
def soleAuthorization (auths : List PermissionLevel) (account : AccountName)
    (single owner : String) : Result PermissionLevel :=
  match auths with
  | [auth] => do
    eosAssert (auth.actor = account) .irrelevantAuth owner
    pure auth
  | _ => .error ⟨.irrelevantAuth, single⟩

def checkUpdateauthAuthorization (update : UpdateAuth Key) (auths : List PermissionLevel) :
    Result Unit := do
  let auth ← soleAuthorization auths update.account
    "updateauth action should only have one declared authorization"
    "the owner of the affected permission needs to be the actor of the declared authorization"
  let existing ← db.findPermission ⟨update.account, update.permission⟩
  let minPermission ←
    match existing with
    | some p => pure p
    | none => db.getPermission ⟨update.account, update.parent⟩
  db.requireSatisfies auth minPermission
    "updateauth action declares irrelevant authority '$\x7bauth\x7d'; minimum authority is $\x7bmin\x7d"

def checkDeleteauthAuthorization (del : DeleteAuth) (auths : List PermissionLevel) :
    Result Unit := do
  let auth ← soleAuthorization auths del.account
    "deleteauth action should only have one declared authorization"
    "the owner of the permission to delete needs to be the actor of the declared authorization"
  let minPermission ← db.getPermission ⟨del.account, del.permission⟩
  db.requireSatisfies auth minPermission
    "updateauth action declares irrelevant authority '$\x7bauth\x7d'; minimum authority is $\x7bmin\x7d"

def checkLinkauthAuthorization (link : LinkAuth) (auths : List PermissionLevel) : Result Unit := do
  let auth ← soleAuthorization auths link.account
    "link action should only have one declared authorization"
    "the owner of the linked permission needs to be the actor of the declared authorization"
  eosAssert (link.type ≠ ActionName.updateauth) .actionValidate
    "Cannot link eosio::updateauth to a minimum permission"
  eosAssert (link.type ≠ ActionName.deleteauth) .actionValidate
    "Cannot link eosio::deleteauth to a minimum permission"
  eosAssert (link.type ≠ ActionName.linkauth) .actionValidate
    "Cannot link eosio::linkauth to a minimum permission"
  eosAssert (link.type ≠ ActionName.unlinkauth) .actionValidate
    "Cannot link eosio::unlinkauth to a minimum permission"
  eosAssert (link.type ≠ ActionName.canceldelay) .actionValidate
    "Cannot link eosio::canceldelay to a minimum permission"
  match ← db.lookupMinimumPermission link.account link.code link.type with
  | none => pure ()
  | some linked =>
    let minPermission ← db.getPermission ⟨link.account, linked⟩
    db.requireSatisfies auth minPermission
      "link action declares irrelevant authority '$\x7bauth\x7d'; minimum authority is $\x7bmin\x7d"

def checkUnlinkauthAuthorization (unlink : UnlinkAuth) (auths : List PermissionLevel) :
    Result Unit := do
  let auth ← soleAuthorization auths unlink.account
    "unlink action should only have one declared authorization"
    "the owner of the linked permission needs to be the actor of the declared authorization"
  match db.lookupLinkedPermission unlink.account unlink.code unlink.type with
  | none => .error ⟨.transaction, "cannot unlink non-existent permission link of account '$\x7baccount\x7d' for actions matching '$\x7bcode\x7d::$\x7baction\x7d'"⟩
  | some unlinked =>
    if unlinked = Config.eosioAnyName then pure ()
    else do
      let minPermission ← db.getPermission ⟨unlink.account, unlinked⟩
      db.requireSatisfies auth minPermission
        "unlink action declares irrelevant authority '$\x7bauth\x7d'; minimum authority is $\x7bmin\x7d"

def checkCanceldelayAuthorization (cancel : CancelDelay) (auths : List PermissionLevel) :
    Result Int :=
  match auths with
  | [auth] => do
    let minPermission ← db.getPermission cancel.cancelingAuth
    db.requireSatisfies auth minPermission
      "canceldelay action declares irrelevant authority '$\x7bauth\x7d'; specified authority to satisfy is $\x7bmin\x7d"
    match db.generatedTransactions.find? fun t => t.trxId = cancel.trxId with
    | none => .error ⟨.txNotFound, "cannot cancel trx_id=$\x7btid\x7d, there is no deferred transaction with that transaction id"⟩
    | some trx =>
      eosAssert (trx.sender = 0) .txNotFound
        "cannot cancel trx_id=$\x7btid\x7d, there is no deferred transaction with that transaction id"
      eosAssert (∃ act ∈ trx.authorizations, cancel.cancelingAuth ∈ act) .actionValidate
        "canceling_auth in canceldelay action was not found as authorization in the original delayed transaction"
      pure (trx.delayUntil - trx.published)
  | _ => .error ⟨.irrelevantAuth, "canceldelay action should only have one declared authorization"⟩

def checkDeclared (account : AccountName) (name : Nat) (declared : PermissionLevel) :
    Result Unit := do
  match ← db.lookupMinimumPermission declared.actor account name with
  | none => pure ()
  | some minName =>
    let minPermission ← db.getPermission ⟨declared.actor, minName⟩
    db.requireSatisfies declared minPermission
      "action declares irrelevant authority '$\x7bauth\x7d'; minimum authority is $\x7bmin\x7d"

/-- What one action must satisfy by itself, and the delay under which its authorizations are
checked afterwards. -/
def checkAction (act : Action Key) (delay : Int) : Result Int :=
  match act.data with
  | .newaccount _ => do
    act.authorization.forM (db.checkDeclared Config.systemAccountName ActionName.newaccount)
    pure delay
  | .updateauth update => do
    db.checkUpdateauthAuthorization update act.authorization
    pure delay
  | .deleteauth remove => do
    db.checkDeleteauthAuthorization remove act.authorization
    pure delay
  | .linkauth link => do
    db.checkLinkauthAuthorization link act.authorization
    pure delay
  | .unlinkauth unlink => do
    db.checkUnlinkauthAuthorization unlink act.authorization
    pure delay
  | .canceldelay cancel => do
    let d ← db.checkCanceldelayAuthorization cancel act.authorization
    pure (max delay d)
  | .other account name => do
    act.authorization.forM (db.checkDeclared account name)
    pure delay

end Lookups

/-- `permissions_to_satisfy`: the least delay of each level. -/
def requireLevel (toSatisfy : FlatMap PermissionLevel Int) (level : PermissionLevel) (delay : Int) :
    FlatMap PermissionLevel Int :=
  match toSatisfy.find? level with
  | none => toSatisfy.set level delay
  | some d => if delay < d then toSatisfy.set level delay else toSatisfy

def requireLevels (satisfiedAuthorizations : Finset PermissionLevel)
    (toSatisfy : FlatMap PermissionLevel Int) (levels : List PermissionLevel) (delay : Int) :
    FlatMap PermissionLevel Int :=
  levels.foldl (fun m level =>
    if level ∈ satisfiedAuthorizations then m else requireLevel m level delay) toSatisfy

def checkActions (db : AuthorizationDb Key) (satisfiedAuthorizations : Finset PermissionLevel)
    (delay : Int) : List (Action Key) → FlatMap PermissionLevel Int →
      Result (FlatMap PermissionLevel Int)
  | [], toSatisfy => .ok toSatisfy
  | act :: acts, toSatisfy => do
    let d ← db.checkAction act delay
    db.checkActions satisfiedAuthorizations delay acts
      (requireLevels satisfiedAuthorizations toSatisfy act.authorization d)

def maximumDelay : Int := 9223372036854775807

def effectiveDelay (db : AuthorizationDb Key) (providedDelay : Int) : Int :=
  if seconds db.configuration.maxTransactionDelay ≤ providedDelay then maximumDelay
  else providedDelay

def checker (db : AuthorizationDb Key) (providedKeys : Finset Key)
    (providedPermissions : Finset PermissionLevel) (providedDelay : Int) : Checker Key where
  permissionTable := fun level => (db.findByOwner level).map (·.auth)
  recursionDepthLimit := db.configuration.maxAuthorityDepth
  providedKeys := providedKeys
  providedPermissions := providedPermissions
  providedDelay := providedDelay

variable [DecidableEq Key]

def satisfyDeclared (c : Checker Key) :
    List (PermissionLevel × Int) → Finset Key → Result (Finset Key)
  | [], used => .ok used
  | (level, delay) :: rest, used => do
    let (r, used) ← ({ c with providedDelay := delay } : Checker Key).satisfied level used
    eosAssert (r = true) .unsatisfiedAuthorization
      "transaction declares authority '$\x7bauth\x7d', but does not have signatures for it under a provided delay of $\x7bprovided_delay\x7d ms, provided permissions $\x7bprovided_permissions\x7d, provided keys $\x7bprovided_keys\x7d, and a delay max limit of $\x7bdelay_max_limit_ms\x7d ms"
    satisfyDeclared c rest used

def checkAuthorization (db : AuthorizationDb Key) (actions : List (Action Key))
    (providedKeys : Finset Key) (providedPermissions : Finset PermissionLevel) (providedDelay : Int)
    (allowUnusedKeys : Bool) (satisfiedAuthorizations : Finset PermissionLevel) : Result Unit := do
  let delay := db.effectiveDelay providedDelay
  let c := db.checker providedKeys providedPermissions delay
  let toSatisfy ← db.checkActions satisfiedAuthorizations delay actions FlatMap.empty
  let used ← satisfyDeclared c toSatisfy.entries ∅
  eosAssert (allowUnusedKeys = true ∨ c.allKeysUsed used = true) .txIrrelevantSig
    "transaction bears irrelevant signatures from these keys: $\x7bkeys\x7d"

end AuthorizationDb

end DimensionChain.Auth
