import DimensionChain.Auth.Containment

/-!
# Permission links

A link makes a permission of its account the minimum for some actions. `linkauth` looks the
permission up by its name only, among those of all accounts, so a link can name one that its own
account does not have. As long as none does, every link names an existing permission of its
account, and the owner can remove it.
-/

namespace DimensionChain.Auth

open List Config PermissionLinkObject

variable {Key : Type}

def PermissionLinkObject.key (l : PermissionLinkObject) : AccountName × AccountName × Nat :=
  (l.account, l.code, l.messageType)

namespace AuthorizationDb

def createNativeAccount (db : AuthorizationDb Key) (name : AccountName) (owner active : Authority Key)
    (isPrivileged : Bool) : Result (AuthorizationDb Key) :=
  (db.addAccount ⟨name, isPrivileged⟩).createNativePermissions name owner active

/-- `initialize_database`: the reserved row, and the native accounts with their permissions. -/
def initializeDatabase (initialKey : Key) (configuration : ChainConfig) :
    Result (AuthorizationDb Key) := do
  let db : AuthorizationDb Key :=
    { accounts := [], permissions := [⟨0, 0, 0, 0, {}⟩], nextPermissionId := 1,
      configuration := configuration }
  let systemAuth : Authority Key := ⟨1, [⟨initialKey, 1⟩], [], []⟩
  let emptyAuthority : Authority Key := ⟨1, [], [], []⟩
  let activeProducersAuthority : Authority Key :=
    ⟨1, [], [⟨⟨systemAccountName, activeName⟩, 1⟩], []⟩
  let db ← db.createNativeAccount systemAccountName systemAuth systemAuth true
  let db ← db.createNativeAccount nullAccountName emptyAuthority emptyAuthority false
  let db ← db.createNativeAccount producersAccountName emptyAuthority
    activeProducersAuthority false
  let active ← db.getPermission ⟨producersAccountName, activeName⟩
  let (majorityId, db) ← db.createPermission producersAccountName
    majorityProducersPermissionName active.id activeProducersAuthority
  let (_, db) ← db.createPermission producersAccountName
    minorityProducersPermissionName majorityId activeProducersAuthority
  pure db

def HasPermission (db : AuthorizationDb Key) (level : PermissionLevel) : Prop :=
  ∃ p ∈ db.permissions, p.level = level

def LinkIntegrity (db : AuthorizationDb Key) : Prop :=
  ∀ l ∈ db.permissionLinks, l.requiredPermission ≠ eosioAnyName →
    db.HasPermission ⟨l.account, l.requiredPermission⟩

def RequiresOwn (db : AuthorizationDb Key) (data : ActionData Key) : Prop :=
  ∀ link, data = .linkauth link → link.requirement ≠ eosioAnyName →
    db.HasPermission ⟨link.account, link.requirement⟩

structure Regular (db : AuthorizationDb Key) : Prop where
  wellFormed : db.WellFormed
  native : ∀ a ∈ db.accounts, a.name ≠ 0 ∧ db.HasPermission ⟨a.name, ownerName⟩ ∧
    db.HasPermission ⟨a.name, activeName⟩
  keys : (db.permissionLinks.map key).Nodup
  linked : ∀ l ∈ db.permissionLinks, l.requiredPermission ≠ 0 ∧ ∃ a ∈ db.accounts, a.name = l.account

variable {name : AccountName}

section Steps
variable {db db' : AuthorizationDb Key} {data : ActionData Key} {l : PermissionLinkObject}
  {level : PermissionLevel}

lemma HasPermission.kept (hp : db.HasPermission level)
    (h : db.Effect data db') (hwf : db.WellFormed) (hnot : data.deletes ≠ some level) :
    db'.HasPermission level := by
  obtain ⟨p, hp, rfl⟩ := hp
  obtain ⟨q, hq, -, -, hlevel, -⟩ := h.kept hwf hp hnot
  exact ⟨q, hq, hlevel⟩

lemma HasPermission.insertPermission (hp : db.HasPermission level)
    (account : AccountName) (name : PermissionName) (parent : Nat) (auth : Authority Key) :
    (db.insertPermission account name parent auth).HasPermission level := by
  obtain ⟨p, hp, hlevel⟩ := hp
  exact ⟨p, mem_insertPermission.mpr (.inl hp), hlevel⟩

lemma hasPermission_insertPermission (account : AccountName) (name : PermissionName)
    (parent : Nat) (auth : Authority Key) :
    (db.insertPermission account name parent auth).HasPermission ⟨account, name⟩ :=
  ⟨_, mem_insertPermission.mpr (.inr rfl), rfl⟩

lemma hasPermission_insertNative (name : AccountName) (owner active : Authority Key) :
    (db.insertNative name owner active).HasPermission ⟨name, ownerName⟩ ∧
      (db.insertNative name owner active).HasPermission ⟨name, activeName⟩ :=
  ⟨(hasPermission_insertPermission ..).insertPermission .., hasPermission_insertPermission ..⟩

lemma mem_of_findLink {account code : AccountName} {type : Nat}
    (h : db.findLink account code type = some l) :
    l ∈ db.permissionLinks ∧ l.account = account ∧ l.code = code ∧ l.messageType = type := by
  have hkey := List.find?_some h
  rw [decide_eq_true_eq] at hkey
  exact ⟨mem_of_find?_eq_some h, hkey⟩

lemma findAccount_isSome : (db.findAccount name).isSome ↔ ∃ a ∈ db.accounts, a.name = name := by
  unfold findAccount
  simp

variable (h : db.Effect data db')
include h

lemma Effect.mem_links (hl : l ∈ db'.permissionLinks) :
    l ∈ db.permissionLinks ∨ ∃ link, data = .linkauth link ∧ db.Linkable link ∧
      l = ⟨link.account, link.code, link.type, link.requirement⟩ := by
  cases h with
  | relinked link old hlink hold =>
    obtain ⟨l', hl', rfl⟩ := mem_map.mp hl
    split
    · rename_i heq
      obtain ⟨-, haccount, hcode, htype⟩ := mem_of_findLink hold
      refine .inr ⟨link, rfl, hlink, ?_⟩
      rw [heq, haccount, hcode, htype]
    · exact .inl hl'
  | linked link hlink =>
    rcases mem_append.mp hl with hl | hl
    · exact .inl hl
    · exact .inr ⟨link, rfl, hlink, mem_singleton.mp hl⟩
  | unlinked => exact .inl (mem_filter.mp hl).1
  | account | modified | created | removed | cancelled | other => exact .inl hl

omit h in
lemma Effect.linkauth {link : LinkAuth} (h : db.Effect (.linkauth link) db') :
    ⟨link.account, link.code, link.type, link.requirement⟩ ∈ db'.permissionLinks ∧
      db'.permissions = db.permissions := by
  cases h with
  | relinked _ old _ hold =>
    obtain ⟨hmem, haccount, hcode, htype⟩ := mem_of_findLink hold
    refine ⟨mem_map.mpr ⟨old, hmem, ?_⟩, rfl⟩
    rw [if_pos rfl, haccount, hcode, htype]
  | linked => exact ⟨mem_append_right _ (mem_singleton.mpr rfl), rfl⟩

lemma Effect.keeps_linked
    (hl : l ∈ db.permissionLinks) : data.deletes ≠ some ⟨l.account, l.requiredPermission⟩ := by
  intro hdel
  cases h with
  | removed remove p _ _ _ _ hunlinked =>
    obtain ⟨haccount, hname⟩ := PermissionLevel.mk.inj (Option.some.inj hdel)
    exact hunlinked l hl ⟨haccount.symm, hname.symm⟩
  | account | modified | created | relinked | linked | unlinked | cancelled | other => cases hdel

lemma Effect.nodup_keys (hkeys : (db.permissionLinks.map key).Nodup) :
    (db'.permissionLinks.map key).Nodup := by
  cases h with
  | relinked link old =>
    have hsame : (db.setLink old link.requirement).permissionLinks.map key =
        db.permissionLinks.map key := by
      unfold setLink
      rw [map_map]
      apply map_congr_left
      intro l _
      show key (if _ then _ else _) = _
      split
      · rfl
      · rfl
    rw [hsame]
    exact hkeys
  | linked link _ hnew =>
    unfold addLink
    rw [map_append]
    refine hkeys.append (nodup_singleton _) ?_
    intro k hk hk'
    obtain ⟨l, hl, rfl⟩ := mem_map.mp hk
    have hkey : l.key = (link.account, link.code, link.type) := mem_singleton.mp hk'
    have hno := List.find?_eq_none.mp hnew l hl
    refine hno (decide_eq_true ?_)
    simpa [key] using hkey
  | unlinked => exact hkeys.sublist (filter_sublist.map _)
  | account | modified | created | removed | cancelled | other => exact hkeys

lemma Effect.accounts : (∀ a ∈ db.accounts, a ∈ db'.accounts) ∧
      ∀ a ∈ db'.accounts, a ∈ db.accounts ∨ (a.name ≠ 0 ∧
        db'.HasPermission ⟨a.name, ownerName⟩ ∧
        db'.HasPermission ⟨a.name, activeName⟩) := by
  cases h with
  | account create hname =>
    refine ⟨fun a ha => mem_append_left _ ha, fun a ha => ?_⟩
    rcases mem_append.mp ha with ha | ha
    · exact .inl ha
    · rw [mem_singleton.mp ha]
      exact .inr ⟨hname, hasPermission_insertNative ..⟩
  | modified | created | removed | relinked | linked | unlinked | cancelled | other =>
    exact ⟨fun a ha => ha, fun a ha => .inl ha⟩

omit h in
lemma Regular.effect (hreg : db.Regular) (h : db.Effect data db') : db'.Regular := by
  have hwf := hreg.wellFormed
  obtain ⟨hmono, hnew⟩ := h.accounts
  constructor
  case wellFormed => exact h.wellFormed hwf
  case native =>
    intro a ha
    rcases hnew a ha with hold | hcreated
    · obtain ⟨hname, howner, hactive⟩ := hreg.native a hold
      exact ⟨hname, howner.kept h hwf (h.keeps_native (.inl rfl)),
        hactive.kept h hwf (h.keeps_native (.inr rfl))⟩
    · exact hcreated
  case keys => exact h.nodup_keys hreg.keys
  case linked =>
    intro l hl
    rcases h.mem_links hl with hold | ⟨link, -, hlink, rfl⟩
    · obtain ⟨hne, a, ha, hname⟩ := hreg.linked l hold
      exact ⟨hne, a, hmono a ha, hname⟩
    · obtain ⟨a, ha, hname⟩ := findAccount_isSome.mp hlink.account
      exact ⟨hlink.nonempty, a, hmono a ha, hname⟩

lemma Effect.integrity_iff (hwf : db.WellFormed)
    (hint : db.LinkIntegrity) : db'.LinkIntegrity ↔ db.RequiresOwn data := by
  constructor
  · rintro hint' link rfl hne
    obtain ⟨hmem, hrows⟩ := h.linkauth
    obtain ⟨p, hp, hlevel⟩ := hint' _ hmem hne
    exact ⟨p, hrows ▸ hp, hlevel⟩
  intro hown l hl hne
  rcases h.mem_links hl with hold | ⟨link, rfl, -, rfl⟩
  · exact (hint l hold hne).kept h hwf (h.keeps_linked hold)
  · exact (hown link rfl hne).kept h hwf nofun

end Steps

variable {configuration : ChainConfig} {initialKey : Key}

section Initial
variable {db : AuthorizationDb Key} {db' : AuthorizationDb Key}

lemma Regular.createNativeAccount {owner active : Authority Key}
    {isPrivileged : Bool} (hreg : db.Regular) (hname : name ≠ 0)
    (h : db.createNativeAccount name owner active isPrivileged = .ok db') :
    db'.Regular ∧ db'.permissionLinks = db.permissionLinks := by
  obtain ⟨howner, hactive, rfl⟩ := createNativePermissions_ok h
  have hadd : (db.addAccount ⟨name, isPrivileged⟩).WellFormed := hreg.wellFormed.congr rfl rfl
  have hold : ∀ level, (db.addAccount ⟨name, isPrivileged⟩).HasPermission level →
      ((db.addAccount ⟨name, isPrivileged⟩).insertNative name owner active).HasPermission level :=
    fun level hp => (hp.insertPermission ..).insertPermission ..
  refine ⟨⟨hadd.insertNative hname howner hactive owner active, ?_, hreg.keys, ?_⟩, rfl⟩
  · intro a ha
    rcases mem_append.mp ha with ha | ha
    · obtain ⟨hne, ho, hac⟩ := hreg.native a ha
      exact ⟨hne, hold _ ho, hold _ hac⟩
    · rw [mem_singleton.mp ha]
      exact ⟨hname, hasPermission_insertNative ..⟩
  · intro l hl
    obtain ⟨hne, a, ha, haname⟩ := hreg.linked l hl
    exact ⟨hne, a, mem_append_left _ ha, haname⟩

lemma Regular.createPermission {account : AccountName} {name : PermissionName} {id : Nat}
    {auth : Authority Key} {parent : PermissionObject Key}
    (hreg : db.Regular) (hname : name ≠ 0) (hparent : parent ∈ db.permissions)
    (howner : parent.owner = account) (haccount : account ≠ 0)
    (h : db.createPermission account name parent.id auth = .ok (id, db')) :
    db'.Regular ∧ db'.permissionLinks = db.permissionLinks ∧
      ∃ p ∈ db'.permissions, p.id = id ∧ p.owner = account := by
  obtain ⟨hfresh, rfl, rfl⟩ := createPermission_ok h
  have hid := hreg.wellFormed.id_ne_zero hparent (howner ▸ haccount)
  refine ⟨⟨?_, ?_, hreg.keys, hreg.linked⟩, rfl, _, mem_insertPermission.mpr (.inr rfl), rfl, rfl⟩
  · exact hreg.wellFormed.insert haccount hname hfresh ⟨parent, hparent, rfl, fun _ => howner⟩
      fun hzero => absurd hzero hid
  · intro a ha
    obtain ⟨hne, ho, hac⟩ := hreg.native a ha
    exact ⟨hne, ho.insertPermission .., hac.insertPermission ..⟩

lemma regular_reserved (configuration : ChainConfig) :
    Regular ({ accounts := [], permissions := [⟨0, 0, 0, 0, {}⟩], nextPermissionId := 1,
               configuration := configuration } : AuthorizationDb Key) := by
  refine ⟨⟨⟨?_, ?_, ?_, ?_⟩, ?_, ?_, ?_, ?_, ?_, ?_, ?_⟩, ?_, ?_, ?_⟩ <;> simp

lemma regular_initializeDatabase (h : initializeDatabase initialKey configuration = .ok db) :
    db.Regular ∧ db.permissionLinks = [] := by
  obtain ⟨db₁, h₁, h⟩ := bind_ok_iff.mp h
  obtain ⟨db₂, h₂, h⟩ := bind_ok_iff.mp h
  obtain ⟨db₃, h₃, h⟩ := bind_ok_iff.mp h
  obtain ⟨active, hactive, h⟩ := bind_ok_iff.mp h
  obtain ⟨⟨majorityId, db₄⟩, h₄, h⟩ := bind_ok_iff.mp h
  obtain ⟨⟨minorityId, db₅⟩, h₅, h⟩ := bind_ok_iff.mp h
  cases h
  obtain ⟨hreg₁, hlinks₁⟩ := (regular_reserved configuration).createNativeAccount (by decide) h₁
  obtain ⟨hreg₂, hlinks₂⟩ := hreg₁.createNativeAccount (by decide) h₂
  obtain ⟨hreg₃, hlinks₃⟩ := hreg₂.createNativeAccount (by decide) h₃
  obtain ⟨-, -, hmem, hlevel⟩ := getPermission_ok hactive
  obtain ⟨hreg₄, hlinks₄, majority, hmajority, rfl, howner⟩ :=
    hreg₃.createPermission (by decide) hmem (PermissionLevel.mk.inj hlevel).1 (by decide) h₄
  obtain ⟨hreg₅, hlinks₅, -⟩ :=
    hreg₄.createPermission (by decide) hmajority howner (by decide) h₅
  exact ⟨hreg₅, hlinks₅.trans (hlinks₄.trans (hlinks₃.trans (hlinks₂.trans hlinks₁)))⟩

end Initial

section Lookup
variable {db : AuthorizationDb Key} (hreg : db.Regular) {required : PermissionName}
  {l : PermissionLinkObject} {name : Nat}
include hreg

lemma Regular.getPermission {level : PermissionLevel} (hp : db.HasPermission level)
    (hactor : level.actor ≠ 0) :
    ∃ p ∈ db.permissions, p.id ≠ 0 ∧ db.getPermission level = .ok p := by
  obtain ⟨p, hp, rfl⟩ := hp
  have hid := hreg.wellFormed.id_ne_zero hp hactor
  exact ⟨p, hp, hid, hreg.wellFormed.getPermission hp hid⟩

lemma Regular.findLink (hl : l ∈ db.permissionLinks) :
    db.findLink l.account l.code l.messageType = some l := by
  refine OrderedIndex.find?_of_unique hreg.keys hl fun b => ?_
  simp [key]

omit hreg in
lemma mem_of_lookupLinkedPermission {account scope : AccountName}
    (h : db.lookupLinkedPermission account scope name = some required) :
    ∃ l ∈ db.permissionLinks, l.account = account ∧ l.requiredPermission = required := by
  unfold lookupLinkedPermission at h
  split at h
  · rename_i link hlink
    cases h
    obtain ⟨hmem, haccount, -⟩ := mem_of_findLink hlink
    exact ⟨link, hmem, haccount, rfl⟩
  · obtain ⟨link, hlink, rfl⟩ := Option.map_eq_some_iff.mp h
    obtain ⟨hmem, haccount, -⟩ := mem_of_findLink hlink
    exact ⟨link, hmem, haccount, rfl⟩

lemma Regular.minimum_exists (hint : db.LinkIntegrity) {a : AccountObject} (ha : a ∈ db.accounts)
    {scope : AccountName} (h : db.lookupMinimumPermission a.name scope name = .ok (some required)) :
    ∃ p, db.getPermission ⟨a.name, required⟩ = .ok p := by
  obtain ⟨hname, -, hactive⟩ := hreg.native a ha
  obtain ⟨_, h⟩ := ok_after h
  have hhas : db.HasPermission ⟨a.name, required⟩ := by
    cases hlink : db.lookupLinkedPermission a.name scope name with
    | none =>
      rw [hlink] at h
      cases h
      exact hactive
    | some linked =>
      rw [hlink] at h
      obtain ⟨l, hl, haccount, hrequired⟩ := mem_of_lookupLinkedPermission hlink
      by_cases hany : linked = eosioAnyName
      · simp only [hany, if_true] at h
        cases h
      simp only [hany, if_false] at h
      cases h
      rw [← haccount, ← hrequired]
      exact hint l hl (hrequired ▸ hany)
  obtain ⟨p, -, -, hp⟩ := hreg.getPermission hhas hname
  exact ⟨p, hp⟩

lemma Regular.removable (hint : db.LinkIntegrity) (hl : l ∈ db.permissionLinks) :
    db.checkUnlinkauthAuthorization ⟨l.account, l.code, l.messageType⟩
        [⟨l.account, ownerName⟩] = .ok () ∧
      ∃ db', db.applyUnlinkauth [⟨l.account, ownerName⟩]
        ⟨l.account, l.code, l.messageType⟩ = .ok db' ∧ l ∉ db'.permissionLinks := by
  obtain ⟨-, a, ha, hname⟩ := hreg.linked l hl
  have hactor : l.account ≠ 0 := hname ▸ (hreg.native a ha).1
  constructor
  · have hlookup : db.lookupLinkedPermission l.account l.code l.messageType =
        some l.requiredPermission := by
      unfold lookupLinkedPermission
      rw [hreg.findLink hl]
    refine bind_ok_iff.mpr ⟨⟨l.account, ownerName⟩, ?_, ?_⟩
    · exact bind_ok_iff.mpr ⟨(), eosAssert_ok_iff.mpr rfl, rfl⟩
    simp only [hlookup]
    by_cases hany : l.requiredPermission = eosioAnyName
    · rw [if_pos hany]
      rfl
    obtain ⟨p, hp, hid, hget⟩ := hreg.getPermission (hint l hl hany) hactor
    obtain ⟨-, -, -, hlevel⟩ := getPermission_ok hget
    obtain ⟨q, hq, hqlevel, hdesc⟩ := hreg.wellFormed.exists_owner hp hid
    rw [(PermissionLevel.mk.inj hlevel).1] at hqlevel
    have hqid : q.id ≠ 0 :=
      hreg.wellFormed.id_ne_zero hq ((PermissionLevel.mk.inj hqlevel).1 ▸ hactor)
    rw [if_neg hany]
    refine bind_ok_iff.mpr ⟨p, hget, ?_⟩
    exact (hreg.wellFormed.requireSatisfies_iff hp).mpr ⟨q, hq, hqid, hqlevel, hdesc⟩
  unfold applyUnlinkauth requireAuthorization
  rw [hreg.findLink hl]
  refine ⟨db.eraseLink l, ?_, ?_⟩
  · rw [eosAssert, if_pos ⟨_, mem_singleton.mpr rfl, rfl⟩]
    rfl
  · intro hmem
    exact of_decide_eq_true (mem_filter.mp hmem).2 rfl

end Lookup

variable [LinearOrder Key]

def LinkStep (db db' : AuthorizationDb Key) : Prop :=
  ∃ act, db.applyAction act = .ok db' ∧ db.RequiresOwn act.data

lemma integrity_of_reach
    {db₀ db : AuthorizationDb Key} (hinit : initializeDatabase initialKey configuration = .ok db₀)
    (hreach : Relation.ReflTransGen LinkStep db₀ db) : db.Regular ∧ db.LinkIntegrity := by
  induction hreach with
  | refl =>
    obtain ⟨hreg, hlinks⟩ := regular_initializeDatabase hinit
    refine ⟨hreg, fun l hl => ?_⟩
    rw [hlinks] at hl
    exact absurd hl not_mem_nil
  | tail _ hstep ih =>
    obtain ⟨act, hact, hown⟩ := hstep
    obtain ⟨hreg, hint⟩ := ih
    have heff := applyAction_effect hreg.wellFormed hact
    exact ⟨hreg.effect heff, (heff.integrity_iff hreg.wellFormed hint).mpr hown⟩

end AuthorizationDb

open AuthorizationDb

/-- In every run whose link actions require permissions of their own accounts, each link names a
permission of its account, minimum permissions exist, and owners can remove the links of their
accounts. A next action keeps the links so exactly if it meets the condition, too. -/
theorem links_name_permissions [LinearOrder Key] {initialKey : Key} {configuration : ChainConfig}
    {db₀ db : AuthorizationDb Key} (hinit : initializeDatabase initialKey configuration = .ok db₀)
    (hreach : Relation.ReflTransGen LinkStep db₀ db) : db.LinkIntegrity ∧
      (∀ a ∈ db.accounts, ∀ scope name required,
        db.lookupMinimumPermission a.name scope name = .ok (some required) →
          ∃ p, db.getPermission ⟨a.name, required⟩ = .ok p) ∧ (∀ l ∈ db.permissionLinks,
        db.checkUnlinkauthAuthorization ⟨l.account, l.code, l.messageType⟩
            [⟨l.account, ownerName⟩] = .ok () ∧
          ∃ db', db.applyUnlinkauth [⟨l.account, ownerName⟩]
            ⟨l.account, l.code, l.messageType⟩ = .ok db' ∧ l ∉ db'.permissionLinks) ∧
      ∀ act db', db.applyAction act = .ok db' → (db'.LinkIntegrity ↔ db.RequiresOwn act.data) := by
  obtain ⟨hreg, hint⟩ := integrity_of_reach hinit hreach
  refine ⟨hint, ?_, ?_, ?_⟩
  · intro a ha scope name required h
    exact hreg.minimum_exists hint ha h
  · intro l hl
    exact hreg.removable hint hl
  · intro act db' hact
    exact (applyAction_effect hreg.wellFormed hact).integrity_iff hreg.wellFormed hint

def linkTo (requirement : PermissionName) : Action Nat :=
  ⟨[⟨systemAccountName, activeName⟩],
    .linkauth ⟨systemAccountName, systemAccountName, 7, requirement⟩⟩

def initialDb : AuthorizationDb Nat := ((initializeDatabase 1 {}).toOption).getD ⟨[], [], 0, [], [], {}⟩

def linkedDb (requirement : PermissionName) : AuthorizationDb Nat :=
  { initialDb with
    permissionLinks :=
      [⟨systemAccountName, systemAccountName, 7, requirement⟩] }

/-- A link to a permission that only the account of the producers has is accepted, and afterwards
the linked action fails for a missing permission and the owner cannot remove the link. -/
theorem foreign_permission_linked : initializeDatabase 1 {} = .ok initialDb ∧
      initialDb.checkAuthorization [linkTo majorityProducersPermissionName] {1} ∅ 0 false ∅ =
        .ok () ∧ initialDb.applyAction (linkTo majorityProducersPermissionName) =
        .ok (linkedDb majorityProducersPermissionName) ∧
      ¬ (linkedDb majorityProducersPermissionName).LinkIntegrity ∧
      (linkedDb majorityProducersPermissionName).checkDeclared systemAccountName 7
        ⟨systemAccountName, activeName⟩ =
          .error ⟨.permissionQuery, "Failed to retrieve permission: $\x7blevel\x7d"⟩ ∧
      (linkedDb majorityProducersPermissionName).checkUnlinkauthAuthorization
        ⟨systemAccountName, systemAccountName, 7⟩
        [⟨systemAccountName, ownerName⟩] =
          .error ⟨.permissionQuery, "Failed to retrieve permission: $\x7blevel\x7d"⟩ := by
  refine ⟨by decide +kernel, by decide +kernel, by decide +kernel, ?_, by decide +kernel,
    by decide +kernel⟩
  intro hint
  obtain ⟨p, hp, hlevel⟩ := hint ⟨systemAccountName, systemAccountName, 7,
    majorityProducersPermissionName⟩ (mem_singleton.mpr rfl) (by decide)
  have hnone : ∀ p ∈ (linkedDb majorityProducersPermissionName).permissions,
      p.level ≠ ⟨systemAccountName, majorityProducersPermissionName⟩ := by
    decide +kernel
  exact hnone p hp hlevel

/-- A link to a permission of its own account keeps to the condition. -/
theorem links_name_permissions_owner :
    initialDb.applyAction (linkTo ownerName) = .ok (linkedDb ownerName) ∧
      (linkedDb ownerName).LinkIntegrity := by
  have hinit : initializeDatabase 1 {} = .ok initialDb := by decide +kernel
  have happly : initialDb.applyAction (linkTo ownerName) =
      .ok (linkedDb ownerName) := by decide +kernel
  refine ⟨happly, (links_name_permissions hinit (.single ⟨_, happly, ?_⟩)).1⟩
  intro link hlink _
  cases hlink
  exact ⟨⟨1, 0, systemAccountName, ownerName, ⟨1, [⟨1, 1⟩], [], []⟩⟩,
    by decide +kernel, rfl⟩

end DimensionChain.Auth
