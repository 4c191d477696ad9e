import DimensionChain.Auth.PermissionTable

/-!
# Native actions on the permission tables

The handlers of `eosio_contract.cpp` that change accounts, permissions and links, as functions on
the database. A failed `get` is an `out_of_range` of the database library. The lists of a
producing node and the memory that is billed are left out. `Effect` says once what an applied
action can do to the tables.
-/

namespace DimensionChain.Auth

open Config

variable {Key : Type}

def requireAuthorization (auths : List PermissionLevel) (account : AccountName) : Result Unit :=
  eosAssert (∃ auth ∈ auths, auth.actor = account) .missingAuth "missing authority of $\x7baccount\x7d"

/-- `transaction_id_to_sender_id`: the lower half of the id. -/
def transactionIdToSenderId (tid : Digest) : UInt64 × UInt64 := (tid.hash3, tid.hash2)

namespace AuthorizationDb

section Handlers
variable (db : AuthorizationDb Key)

def getAccount (name : AccountName) : Result AccountObject :=
  match db.findAccount name with
  | some account => .ok account
  | none => .error ⟨.outOfRange, "unknown key"⟩

/-- One account of an authority: it exists and has the permission, unless that is one that every
account has. -/
def validateFactor (a : PermissionLevelWeight) : Result Unit := do
  eosAssert (db.findAccount a.permission.actor).isSome .actionValidate
    "account '$\x7baccount\x7d' does not exist"
  if a.permission.permission = ownerName ∨ a.permission.permission = activeName then
    pure ()
  else if a.permission.permission = eosioCodeName then pure ()
  else
    match db.getPermission a.permission with
    | .ok _ => pure ()
    | .error e =>
      if e.kind = .permissionQuery then
        .error ⟨.actionValidate, "permission '$\x7bperm\x7d' does not exist"⟩
      else .error e

def validateAuthorityPrecondition (auth : Authority Key) : Result Unit :=
  auth.accounts.forM db.validateFactor

def addAccount (account : AccountObject) : AuthorizationDb Key :=
  { db with accounts := db.accounts ++ [account] }

def createNativePermissions (name : AccountName) (owner active : Authority Key) :
    Result (AuthorizationDb Key) := do
  let (ownerId, db) ← db.createPermission name ownerName 0 owner
  let (_, db) ← db.createPermission name activeName ownerId active
  pure db

variable [LinearOrder Key]

def applyNewaccount (auths : List PermissionLevel) (create : NewAccount Key) :
    Result (AuthorizationDb Key) := do
  requireAuthorization auths create.creator
  eosAssert (create.owner.validate = true) .actionValidate "Invalid owner authority"
  eosAssert (create.active.validate = true) .actionValidate "Invalid active authority"
  eosAssert (create.name ≠ 0) .actionValidate "account name cannot be empty"
  eosAssert ((Name.toChars create.name).length ≤ 12) .actionValidate
    "account names can only be 12 chars long"
  let creator ← db.getAccount create.creator
  eosAssert (creator.privileged = false → Name.isReserved create.name = false) .actionValidate
    "only privileged accounts can have names that start with 'eonio.'"
  eosAssert (db.findAccount create.name).isNone .accountNameExists
    "Cannot create account named $\x7bname\x7d, as that name is already taken"
  let db := db.addAccount ⟨create.name, false⟩
  db.validateAuthorityPrecondition create.owner
  db.validateAuthorityPrecondition create.active
  db.createNativePermissions create.name create.owner create.active

def validateUpdate (update : UpdateAuth Key) : Result Unit := do
  eosAssert (update.permission ≠ 0) .actionValidate "Cannot create authority with empty name"
  eosAssert (Name.isReserved update.permission = false) .actionValidate
    "Permission names that start with 'eonio.' are reserved"
  eosAssert (update.permission ≠ update.parent) .actionValidate
    "Cannot set an authority as its own parent"
  let _ ← db.getAccount update.account
  eosAssert (update.auth.validate = true) .actionValidate "Invalid authority: $\x7bauth\x7d"
  eosAssert (update.permission = activeName → update.parent = ownerName)
    .actionValidate "Cannot change active authority's parent from owner"
  if update.permission = ownerName then
    eosAssert (update.parent = 0) .actionValidate "Cannot change owner authority's parent"
  else
    eosAssert (update.parent ≠ 0) .actionValidate "Only owner permission can have empty parent"
  eosAssert (∀ w ∈ update.auth.waits.getLast?, w.waitSec ≤ db.configuration.maxTransactionDelay)
    .actionValidate
    "Cannot set delay longer than max_transacton_delay, which is $\x7bmax_delay\x7d seconds"
  db.validateAuthorityPrecondition update.auth

def updateParentId (update : UpdateAuth Key) : Result Nat := do
  if update.permission ≠ ownerName then
    let parent ← db.getPermission ⟨update.account, update.parent⟩
    pure parent.id
  else pure 0

def applyUpdateauth (auths : List PermissionLevel) (update : UpdateAuth Key) :
    Result (AuthorizationDb Key) := do
  requireAuthorization auths update.account
  db.validateUpdate update
  let permission ← db.findPermission ⟨update.account, update.permission⟩
  let parentId ← db.updateParentId update
  match permission with
  | some p =>
    eosAssert (parentId = p.parent) .actionValidate
      "Changing parent authority is not currently supported"
    pure (db.modifyPermission p update.auth)
  | none =>
    let (_, db) ← db.createPermission update.account update.permission parentId update.auth
    pure db

def applyDeleteauth (auths : List PermissionLevel) (remove : DeleteAuth) :
    Result (AuthorizationDb Key) := do
  requireAuthorization auths remove.account
  eosAssert (remove.permission ≠ activeName) .actionValidate "Cannot delete active authority"
  eosAssert (remove.permission ≠ ownerName) .actionValidate "Cannot delete owner authority"
  eosAssert (∀ link ∈ db.permissionLinks,
      ¬ (link.account = remove.account ∧ link.requiredPermission = remove.permission))
    .actionValidate
    "Cannot delete a linked authority. Unlink the authority first. This authority is linked to $\x7bcode\x7d::$\x7btype\x7d."
  let permission ← db.getPermission ⟨remove.account, remove.permission⟩
  db.removePermission permission

def setLink (link : PermissionLinkObject) (requirement : PermissionName) : AuthorizationDb Key :=
  { db with
    permissionLinks := db.permissionLinks.map fun l =>
      if l = link then { l with requiredPermission := requirement } else l }

def addLink (link : PermissionLinkObject) : AuthorizationDb Key :=
  { db with permissionLinks := db.permissionLinks ++ [link] }

def eraseLink (link : PermissionLinkObject) : AuthorizationDb Key :=
  { db with permissionLinks := db.permissionLinks.filter fun l => l ≠ link }

def applyLinkauth (auths : List PermissionLevel) (requirement : LinkAuth) :
    Result (AuthorizationDb Key) := do
  eosAssert (requirement.requirement ≠ 0) .actionValidate "Required permission cannot be empty"
  requireAuthorization auths requirement.account
  eosAssert (db.findAccount requirement.account).isSome .accountQuery
    "Failed to retrieve account: $\x7baccount\x7d"
  eosAssert (db.findAccount requirement.code).isSome .accountQuery
    "Failed to retrieve code for account: $\x7baccount\x7d"
  eosAssert (requirement.requirement ≠ eosioAnyName →
      (db.findByName requirement.requirement).isSome) .permissionQuery
    "Failed to retrieve permission: $\x7bpermission\x7d"
  match db.findLink requirement.account requirement.code requirement.type with
  | some link =>
    eosAssert (link.requiredPermission ≠ requirement.requirement) .actionValidate
      "Attempting to update required authority, but new requirement is same as old"
    pure (db.setLink link requirement.requirement)
  | none =>
    pure (db.addLink
      ⟨requirement.account, requirement.code, requirement.type, requirement.requirement⟩)

def applyUnlinkauth (auths : List PermissionLevel) (unlink : UnlinkAuth) :
    Result (AuthorizationDb Key) := do
  requireAuthorization auths unlink.account
  match db.findLink unlink.account unlink.code unlink.type with
  | none => .error ⟨.actionValidate, "Attempting to unlink authority, but no link found"⟩
  | some link => pure (db.eraseLink link)

/-- `cancel_deferred_transaction` of a transaction without a sender; its result is not looked
at. -/
def applyCanceldelay (auths : List PermissionLevel) (cancel : CancelDelay) :
    Result (AuthorizationDb Key) := do
  requireAuthorization auths cancel.cancelingAuth.actor
  pure { db with
    generatedTransactions := db.generatedTransactions.filter fun t =>
      ¬ (t.sender = 0 ∧
        transactionIdToSenderId t.trxId = transactionIdToSenderId cancel.trxId) }

/-- The native handler of an action. Other actions do not change these tables themselves. -/
def applyAction (act : Action Key) : Result (AuthorizationDb Key) :=
  match act.data with
  | .newaccount create => db.applyNewaccount act.authorization create
  | .updateauth update => db.applyUpdateauth act.authorization update
  | .deleteauth remove => db.applyDeleteauth act.authorization remove
  | .linkauth link => db.applyLinkauth act.authorization link
  | .unlinkauth unlink => db.applyUnlinkauth act.authorization unlink
  | .canceldelay cancel => db.applyCanceldelay act.authorization cancel
  | .other _ _ => .ok db

def applyActions : AuthorizationDb Key → List (Action Key) →
    Result (AuthorizationDb Key)
  | db, [] => .ok db
  | db, act :: acts => do
    let db ← db.applyAction act
    db.applyActions acts

end Handlers

def insertNative (db : AuthorizationDb Key) (name : AccountName) (owner active : Authority Key) :
    AuthorizationDb Key :=
  (db.insertPermission name ownerName 0 owner).insertPermission name activeName
    db.nextPermissionId active

def NewParent (db : AuthorizationDb Key) (update : UpdateAuth Key) (parentId : Nat) : Prop :=
  (update.permission = ownerName ∧ update.parent = 0 ∧ parentId = 0) ∨
    (update.permission ≠ ownerName ∧
      ∃ q ∈ db.permissions, q.id ≠ 0 ∧ q.level = ⟨update.account, update.parent⟩ ∧ q.id = parentId)

structure Linkable (db : AuthorizationDb Key) (link : LinkAuth) : Prop where
  nonempty : link.requirement ≠ 0
  account : (db.findAccount link.account).isSome
  named : link.requirement = eosioAnyName ∨ ∃ p ∈ db.permissions, p.name = link.requirement

inductive Effect (db : AuthorizationDb Key) : ActionData Key → AuthorizationDb Key → Prop where
  | account (create : NewAccount Key) (hname : create.name ≠ 0)
      (howner : ∀ p ∈ db.permissions, p.level ≠ ⟨create.name, ownerName⟩)
      (hactive : ∀ p ∈ db.permissions, p.level ≠ ⟨create.name, activeName⟩) :
      Effect db (.newaccount create)
        ((db.addAccount ⟨create.name, false⟩).insertNative create.name create.owner create.active)
  | modified (update : UpdateAuth Key) (p : PermissionObject Key) (hp : p ∈ db.permissions)
      (hlevel : p.level = ⟨update.account, update.permission⟩) :
      Effect db (.updateauth update) (db.modifyPermission p update.auth)
  | created (update : UpdateAuth Key) (parentId : Nat)
      (hnamed : update.account ≠ 0 ∧ update.permission ≠ 0)
      (hfresh : ∀ p ∈ db.permissions, p.level ≠ ⟨update.account, update.permission⟩)
      (hparent : db.NewParent update parentId) :
      Effect db (.updateauth update)
        (db.insertPermission update.account update.permission parentId update.auth)
  | removed (remove : DeleteAuth) (p : PermissionObject Key) (hp : p ∈ db.permissions)
      (hid : p.id ≠ 0) (hlevel : p.level = ⟨remove.account, remove.permission⟩)
      (hkept : remove.permission ≠ ownerName ∧ remove.permission ≠ activeName)
      (hunlinked : ∀ link ∈ db.permissionLinks,
        ¬ (link.account = remove.account ∧ link.requiredPermission = remove.permission))
      (hchildless : ∀ q ∈ db.permissions, q.parent ≠ p.id) :
      Effect db (.deleteauth remove) (db.erasePermission p)
  | relinked (link : LinkAuth) (old : PermissionLinkObject) (hlink : db.Linkable link)
      (hold : db.findLink link.account link.code link.type = some old) :
      Effect db (.linkauth link) (db.setLink old link.requirement)
  | linked (link : LinkAuth) (hlink : db.Linkable link)
      (hnew : db.findLink link.account link.code link.type = none) :
      Effect db (.linkauth link)
        (db.addLink ⟨link.account, link.code, link.type, link.requirement⟩)
  | unlinked (unlink : UnlinkAuth) (old : PermissionLinkObject)
      (hold : db.findLink unlink.account unlink.code unlink.type = some old) :
      Effect db (.unlinkauth unlink) (db.eraseLink old)
  | cancelled (cancel : CancelDelay) (ts : List GeneratedTransaction) :
      Effect db (.canceldelay cancel) { db with generatedTransactions := ts }
  | other (account : AccountName) (name : Nat) : Effect db (.other account name) db

variable {name : AccountName}

section Inversion
variable {db db' : AuthorizationDb Key} {auths : List PermissionLevel} {update : UpdateAuth Key}

lemma validateUpdate_ok [LinearOrder Key] {u : Unit} (h : db.validateUpdate update = .ok u) :
    update.permission ≠ 0 ∧ (update.permission = ownerName → update.parent = 0) := by
  simp only [validateUpdate, bind_ok_iff] at h
  obtain ⟨_, hname, _, -, _, -, _, -, _, -, _, -, h⟩ := h
  refine ⟨eosAssert_ok_iff.mp hname, fun howner => ?_⟩
  rw [if_pos howner] at h
  obtain ⟨_, hparent, -⟩ := bind_ok_iff.mp h
  exact eosAssert_ok_iff.mp hparent

lemma updateParentId_ok {parentId : Nat} (hwf : db.WellFormed)
    (hroot : update.permission = ownerName → update.parent = 0)
    (h : db.updateParentId update = .ok parentId) : db.NewParent update parentId := by
  unfold updateParentId at h
  split at h
  · rename_i hne
    obtain ⟨q, hq, h⟩ := bind_ok_iff.mp h
    cases h
    obtain ⟨hactor, -, hmem, hlevel⟩ := getPermission_ok hq
    have hid : q.id ≠ 0 := hwf.id_ne_zero hmem (by rw [← hlevel] at hactor; exact hactor)
    exact .inr ⟨hne, q, hmem, hid, hlevel, rfl⟩
  rename_i heq
  cases h
  have howner := not_not.mp heq
  exact .inl ⟨howner, hroot howner, rfl⟩

lemma createNativePermissions_ok {owner active : Authority Key}
    (h : db.createNativePermissions name owner active = .ok db') :
    (∀ p ∈ db.permissions, p.level ≠ ⟨name, ownerName⟩) ∧
      (∀ p ∈ db.permissions, p.level ≠ ⟨name, activeName⟩) ∧
      db' = db.insertNative name owner active := by
  obtain ⟨⟨ownerId, db₁⟩, howner, h⟩ := bind_ok_iff.mp h
  obtain ⟨⟨activeId, db₂⟩, hactive, h⟩ := bind_ok_iff.mp h
  cases h
  obtain ⟨hfresh, rfl, rfl⟩ := createPermission_ok howner
  obtain ⟨hfresh', -, rfl⟩ := createPermission_ok hactive
  exact ⟨hfresh, fun p hp => hfresh' p (mem_insertPermission.mpr (.inl hp)), rfl⟩

lemma applyNewaccount_effect [LinearOrder Key] {create : NewAccount Key}
    (h : db.applyNewaccount auths create = .ok db') : db.Effect (.newaccount create) db' := by
  simp only [applyNewaccount, bind_ok_iff] at h
  obtain ⟨_, -, _, -, _, -, _, hname, _, -, _, -, _, -, _, -, _, -, _, -, h⟩ := h
  obtain ⟨howner, hactive, rfl⟩ := createNativePermissions_ok h
  exact .account create (eosAssert_ok_iff.mp hname) howner hactive

lemma applyUpdateauth_effect [LinearOrder Key] (hwf : db.WellFormed)
    (h : db.applyUpdateauth auths update = .ok db') : db.Effect (.updateauth update) db' := by
  simp only [applyUpdateauth, bind_ok_iff] at h
  obtain ⟨_, -, _, hvalid, permission, hfind, parentId, hparent, h⟩ := h
  obtain ⟨haccount, hname, hfound⟩ := findPermission_ok hfind
  cases permission with
  | some p =>
    obtain ⟨_, h⟩ := ok_after h
    cases h
    obtain ⟨hp, hlevel⟩ := mem_of_findByOwner hfound
    exact .modified update p hp hlevel
  | none =>
    obtain ⟨⟨id, db₁⟩, hcreate, h⟩ := bind_ok_iff.mp h
    cases h
    obtain ⟨hfresh, -, rfl⟩ := createPermission_ok hcreate
    exact .created update parentId ⟨haccount, hname⟩ hfresh
      (updateParentId_ok hwf (validateUpdate_ok hvalid).2 hparent)

lemma applyDeleteauth_effect {remove : DeleteAuth} (hwf : db.WellFormed)
    (h : db.applyDeleteauth auths remove = .ok db') : db.Effect (.deleteauth remove) db' := by
  simp only [applyDeleteauth, bind_ok_iff] at h
  obtain ⟨_, -, _, hactive, _, howner, _, hlinks, p, hp, h⟩ := h
  obtain ⟨hactor, -, hmem, hlevel⟩ := getPermission_ok hp
  have hid : p.id ≠ 0 := hwf.id_ne_zero hmem (by rw [← hlevel] at hactor; exact hactor)
  obtain ⟨hchildless, rfl⟩ := removePermission_ok h
  exact .removed remove p hmem hid hlevel
    ⟨eosAssert_ok_iff.mp howner, eosAssert_ok_iff.mp hactive⟩ (eosAssert_ok_iff.mp hlinks) hchildless

lemma applyLinkauth_effect {link : LinkAuth} (h : db.applyLinkauth auths link = .ok db') :
    db.Effect (.linkauth link) db' := by
  simp only [applyLinkauth, bind_ok_iff] at h
  obtain ⟨_, hne, _, -, _, haccount, _, -, _, hname, h⟩ := h
  have hnamed : link.requirement = eosioAnyName ∨
      ∃ p ∈ db.permissions, p.name = link.requirement := by
    by_cases hany : link.requirement = eosioAnyName
    · exact .inl hany
    obtain ⟨p, hp⟩ := Option.isSome_iff_exists.mp (eosAssert_ok_iff.mp hname hany)
    have hpname := List.find?_some hp
    rw [decide_eq_true_eq] at hpname
    exact .inr ⟨p, List.mem_of_find?_eq_some hp, hpname⟩
  have hlink : db.Linkable link := ⟨eosAssert_ok_iff.mp hne, eosAssert_ok_iff.mp haccount, hnamed⟩
  cases hfind : db.findLink link.account link.code link.type with
  | none =>
    rw [hfind] at h
    cases h
    exact .linked link hlink hfind
  | some old =>
    rw [hfind] at h
    obtain ⟨_, h⟩ := ok_after h
    cases h
    exact .relinked link old hlink hfind

lemma applyUnlinkauth_effect {unlink : UnlinkAuth} (h : db.applyUnlinkauth auths unlink = .ok db') :
    db.Effect (.unlinkauth unlink) db' := by
  obtain ⟨_, h⟩ := ok_after h
  cases hfind : db.findLink unlink.account unlink.code unlink.type with
  | none =>
    rw [hfind] at h
    cases h
  | some old =>
    rw [hfind] at h
    cases h
    exact .unlinked unlink old hfind

variable [LinearOrder Key]

lemma applyAction_effect {act : Action Key} (hwf : db.WellFormed)
    (h : db.applyAction act = .ok db') : db.Effect act.data db' := by
  unfold applyAction at h
  cases hdata : act.data with
  | newaccount create =>
    rw [hdata] at h
    exact applyNewaccount_effect h
  | updateauth update =>
    rw [hdata] at h
    exact applyUpdateauth_effect hwf h
  | deleteauth remove =>
    rw [hdata] at h
    exact applyDeleteauth_effect hwf h
  | linkauth link =>
    rw [hdata] at h
    exact applyLinkauth_effect h
  | unlinkauth unlink =>
    rw [hdata] at h
    exact applyUnlinkauth_effect h
  | canceldelay cancel =>
    rw [hdata] at h
    obtain ⟨_, h⟩ := ok_after h
    cases h
    exact .cancelled cancel _
  | other account name =>
    rw [hdata] at h
    cases h
    exact .other account name

end Inversion

variable {db db' : AuthorizationDb Key}

lemma WellFormed.congr (hwf : db.WellFormed) (hrows : db'.permissions = db.permissions)
    (hnext : db'.nextPermissionId = db.nextPermissionId) : db'.WellFormed := by
  constructor
  case numbered =>
    rw [hrows, hnext]
    exact hwf.numbered
  all_goals rw [hrows]
  · exact hwf.forest
  · exact hwf.levels
  · exact hwf.reserved
  · exact hwf.nobody
  · exact hwf.named
  · exact hwf.sameOwner
  · exact hwf.top

lemma WellFormed.insertNative {db : AuthorizationDb Key} (hwf : db.WellFormed)
    (hname : name ≠ 0) (howner : ∀ p ∈ db.permissions, p.level ≠ ⟨name, ownerName⟩)
    (hactive : ∀ p ∈ db.permissions, p.level ≠ ⟨name, activeName⟩)
    (owner active : Authority Key) : (db.insertNative name owner active).WellFormed := by
  obtain ⟨zero, hzero, hzeroid⟩ := hwf.reserved
  have hroot : (db.insertPermission name ownerName 0 owner).WellFormed :=
    hwf.insert hname (by decide) howner ⟨zero, hzero, hzeroid, fun hne => absurd hzeroid hne⟩
      fun _ => rfl
  refine hroot.insert hname (by decide) ?_ ?_ ?_
  · intro p hp
    rcases mem_insertPermission.mp hp with hold | rfl
    · exact hactive p hold
    · have hne : ownerName ≠ activeName := by decide
      exact fun heq => hne (PermissionLevel.mk.inj heq).2
  · exact ⟨_, mem_insertPermission.mpr (.inr rfl), rfl, fun _ => rfl⟩
  · intro hzero
    exact absurd hzero hwf.next_pos.ne'

lemma Effect.wellFormed {data : ActionData Key}
    (h : db.Effect data db') (hwf : db.WellFormed) : db'.WellFormed := by
  cases h with
  | account create hname howner hactive =>
    have hadd : (db.addAccount ⟨create.name, false⟩).WellFormed := hwf.congr rfl rfl
    exact hadd.insertNative hname howner hactive _ _
  | modified update p => exact hwf.modify p update.auth
  | created update parentId hnamed hfresh hparent =>
    rcases hparent with ⟨howner, -, rfl⟩ | ⟨-, q, hq, hid, hlevel, rfl⟩
    · obtain ⟨zero, hzero, hzeroid⟩ := hwf.reserved
      exact hwf.insert hnamed.1 hnamed.2 hfresh
        ⟨zero, hzero, hzeroid, fun hne => absurd hzeroid hne⟩ fun _ => howner
    · exact hwf.insert hnamed.1 hnamed.2 hfresh
        ⟨q, hq, rfl, fun _ => (PermissionLevel.mk.inj hlevel).1⟩ fun hzero => absurd hzero hid
  | removed remove p _ hid _ _ _ hchildless => exact hwf.erase hid hchildless
  | relinked | linked | unlinked | cancelled => exact hwf.congr rfl rfl
  | other => exact hwf

end AuthorizationDb

end DimensionChain.Auth
