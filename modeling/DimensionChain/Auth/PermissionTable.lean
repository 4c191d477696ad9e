import DimensionChain.Auth.AuthorizationManager
import DimensionChain.Base.Forest
import DimensionChain.Base.OrderedIndex

/-!
# The permission table

The permissions of each account form a tree whose root is `owner`. Ids are given out in
ascending order and are not used again, and a permission that has children is not removed. In
a table like that `satisfies` decides whether one permission is above another.
-/

namespace DimensionChain.Auth

open List PermissionObject

variable {Key : Type} {parent : Nat}

def PermissionObject.level (p : PermissionObject Key) : PermissionLevel := ⟨p.owner, p.name⟩

namespace AuthorizationDb

/-- The permission with the first id is the one with the second id or one of its descendants. -/
def Descends (db : AuthorizationDb Key) : Nat → Nat → Prop :=
  Forest.Under PermissionObject.id PermissionObject.parent db.permissions

structure WellFormed (db : AuthorizationDb Key) : Prop where
  forest : Forest.Grounded PermissionObject.id PermissionObject.parent db.permissions
  levels : (db.permissions.map PermissionObject.level).Nodup
  numbered : ∀ p ∈ db.permissions, p.id < db.nextPermissionId
  reserved : ∃ p ∈ db.permissions, p.id = 0
  nobody : ∀ p ∈ db.permissions, p.id = 0 → p.owner = 0 ∧ p.name = 0
  named : ∀ p ∈ db.permissions, p.id ≠ 0 → p.owner ≠ 0 ∧ p.name ≠ 0
  sameOwner : ∀ p ∈ db.permissions, ∀ q ∈ db.permissions, p.parent = q.id → q.id ≠ 0 →
    q.owner = p.owner
  top : ∀ p ∈ db.permissions, p.id ≠ 0 → p.parent = 0 → p.name = Config.ownerName

section Lookups
variable {db : AuthorizationDb Key} {level : PermissionLevel} {p : PermissionObject Key}

lemma mem_of_findByOwner
    (h : db.findByOwner level = some p) : p ∈ db.permissions ∧ p.level = level := by
  refine ⟨mem_of_find?_eq_some h, ?_⟩
  have hp := List.find?_some h
  rw [decide_eq_true_eq] at hp
  unfold PermissionObject.level
  rw [hp.1, hp.2]

lemma findByOwner_eq_none (h : db.findByOwner level = none) :
    ∀ p ∈ db.permissions, p.level ≠ level := by
  rintro p hp rfl
  have hno := List.find?_eq_none.mp h p hp
  exact hno (decide_eq_true ⟨rfl, rfl⟩)

lemma findPermission_ok {found : Option (PermissionObject Key)}
    (h : db.findPermission level = .ok found) :
    level.actor ≠ 0 ∧ level.permission ≠ 0 ∧ db.findByOwner level = found := by
  unfold findPermission at h
  split at h
  · cases h
  · rename_i hne
    cases h
    exact ⟨fun h => hne (.inl h), fun h => hne (.inr h), rfl⟩

lemma getPermission_ok (h : db.getPermission level = .ok p) :
    level.actor ≠ 0 ∧ level.permission ≠ 0 ∧ p ∈ db.permissions ∧ p.level = level := by
  unfold getPermission at h
  split at h
  · cases h
  rename_i hne
  split at h
  · cases h
  · rename_i q hq
    cases h
    exact ⟨fun h => hne (.inl h), fun h => hne (.inr h), mem_of_findByOwner hq⟩

end Lookups

namespace WellFormed
variable {db : AuthorizationDb Key} (hwf : db.WellFormed) {p q : PermissionObject Key}
include hwf

lemma eq_of_level (hp : p ∈ db.permissions) (hq : q ∈ db.permissions)
    (h : p.level = q.level) : p = q :=
  inj_on_of_nodup_map hwf.levels hp hq h

variable (hp : p ∈ db.permissions)
include hp

lemma findByOwner : db.findByOwner p.level = some p := by
  refine OrderedIndex.find?_of_unique hwf.levels hp fun q => ?_
  rw [decide_eq_true_eq, level, level, PermissionLevel.mk.injEq]

lemma findById : db.findById p.id = some p :=
  OrderedIndex.find?_of_unique hwf.forest.unique hp fun _ => decide_eq_true_iff

lemma getPermission (hid : p.id ≠ 0) : db.getPermission p.level = .ok p := by
  have hne : ¬ (p.level.actor = 0 ∨ p.level.permission = 0) :=
    not_or.mpr (hwf.named p hp hid)
  unfold AuthorizationDb.getPermission
  rw [if_neg hne, hwf.findByOwner hp]

lemma id_ne_zero (howner : p.owner ≠ 0) : p.id ≠ 0 :=
  fun hid => howner (hwf.nobody p hp hid).1

omit hp in
lemma descends_rec {Q : PermissionObject Key → Prop}
    (hq : q ∈ db.permissions) (hid : q.id ≠ 0) (hbase : Q q)
    (hstep : ∀ a ∈ db.permissions, ∀ b ∈ db.permissions, a.parent = b.id → b.id ≠ 0 → Q b → Q a)
    (hp : p ∈ db.permissions) (h : db.Descends p.id q.id) : Q p := by
  generalize hi : p.id = i at h
  induction h using Relation.ReflTransGen.head_induction_on generalizing p with
  | refl => rwa [hwf.forest.eq_of_number hp hq hi]
  | head hchild hrest ih =>
    obtain ⟨a, ha, hai, hparent⟩ := hchild
    obtain rfl : a = p := hwf.forest.eq_of_number ha hp (hai.trans hi.symm)
    obtain ⟨b, hb, hbid⟩ := hwf.forest.closed a ha
    have hle := hwf.forest.under_le hrest
    exact hstep a ha b hb hbid.symm (by omega) (ih hb (hbid.trans hparent))

omit hp in
lemma owner_eq (hp : p ∈ db.permissions) (hq : q ∈ db.permissions)
    (hid : q.id ≠ 0) (h : db.Descends p.id q.id) : q.owner = p.owner := by
  refine hwf.descends_rec (Q := fun p => q.owner = p.owner) hq hid rfl ?_ hp h
  intro a ha b hb hparent hne ih
  rw [ih, hwf.sameOwner a ha b hb hparent hne]

lemma exists_owner (hid : p.id ≠ 0) :
    ∃ q ∈ db.permissions, q.level = ⟨p.owner, Config.ownerName⟩ ∧ db.Descends p.id q.id := by
  generalize hi : p.id = i at hid
  induction i using Nat.strong_induction_on generalizing p with
  | h i ih =>
    subst hi
    obtain ⟨b, hb, hbid⟩ := hwf.forest.closed p hp
    have hstep : Forest.Child PermissionObject.id parent db.permissions p.id b.id :=
      ⟨p, hp, rfl, hbid.symm⟩
    by_cases hroot : b.id = 0
    · have hname := hwf.top p hp hid (hbid.symm.trans hroot)
      exact ⟨p, hp, by rw [level, hname], .refl⟩
    have hlt : b.id < p.id := hbid.trans_lt (hwf.forest.descending p hp hid)
    obtain ⟨q, hq, hlevel, hdesc⟩ := ih b.id hlt hb rfl hroot
    rw [hwf.sameOwner p hp b hb hbid.symm hroot] at hlevel
    exact ⟨q, hq, hlevel, .head hstep hdesc⟩

lemma walkUp_eq {id fuel : Nat} (hid : id ≠ 0) (hne : p.id ≠ id) (hfuel : p.id < fuel) :
    ∃ r, db.walkUp id fuel p.id = .ok r ∧ (r = true ↔ db.Descends p.id id) := by
  induction fuel generalizing p with
  | zero => exact absurd hfuel (Nat.not_lt_zero _)
  | succ fuel ih =>
    have hstep : Forest.Child PermissionObject.id parent db.permissions
        p.id p.parent := ⟨p, hp, rfl, rfl⟩
    have hiff : db.Descends p.id id ↔ db.Descends p.parent id := hwf.forest.under_iff_parent hne hstep
    simp only [walkUp, hwf.findById hp]
    by_cases hparent : id = p.parent
    · refine ⟨true, if_pos hparent, iff_of_true rfl (hiff.mpr ?_)⟩
      rw [hparent]
      exact .refl
    rw [if_neg hparent]
    by_cases hroot : p.parent = 0
    · refine ⟨false, if_pos hroot, iff_of_false nofun fun h => ?_⟩
      rw [hiff, hroot] at h
      exact hid (hwf.forest.under_zero_iff.mp h)
    rw [if_neg hroot]
    obtain ⟨b, hb, hbid⟩ := hwf.forest.closed p hp
    have hpid : p.id ≠ 0 := fun h => hroot (hwf.forest.root p hp h)
    have hlt := hwf.forest.descending p hp hpid
    rw [← hbid] at hparent hlt hiff ⊢
    obtain ⟨r, hr, hrd⟩ := ih hb (Ne.symm hparent) (by omega)
    exact ⟨r, hr, hrd.trans hiff.symm⟩

omit hp in
lemma satisfies_eq {this other : PermissionObject Key} (hthis : this ∈ db.permissions)
    (hother : other ∈ db.permissions) (hid : this.id ≠ 0) :
    ∃ r, db.satisfies this other = .ok r ∧ (r = true ↔ db.Descends other.id this.id) := by
  unfold satisfies
  by_cases howner : this.owner = other.owner
  · rw [if_neg (not_not.mpr howner)]
    by_cases hnear : this.id = other.id ∨ this.id = other.parent
    · refine ⟨true, if_pos hnear, iff_of_true rfl ?_⟩
      rcases hnear with hself | hparent
      · rw [hself]
        exact .refl
      · exact .single ⟨other, hother, rfl, hparent.symm⟩
    rw [if_neg hnear]
    obtain ⟨b, hb, hbid⟩ := hwf.forest.closed other hother
    have hne : b.id ≠ this.id := fun h => hnear (.inr (h.symm.trans hbid))
    obtain ⟨r, hr, hrd⟩ := hwf.walkUp_eq hb hid hne (hwf.numbered b hb)
    rw [hbid] at hr hrd
    refine ⟨r, hr, hrd.trans ?_⟩
    exact (hwf.forest.under_iff_parent (fun h => hnear (.inl h.symm))
      ⟨other, hother, rfl, rfl⟩).symm
  · exact ⟨false, if_pos howner, iff_of_false nofun fun h =>
      howner (hwf.owner_eq hother hthis hid h)⟩

lemma requireSatisfies_iff {auth : PermissionLevel} {message : String} :
    db.requireSatisfies auth p message = .ok () ↔
      ∃ q ∈ db.permissions, q.id ≠ 0 ∧ q.level = auth ∧ db.Descends p.id q.id := by
  unfold requireSatisfies
  constructor
  · intro h
    obtain ⟨q, hq, h⟩ := bind_ok_iff.mp h
    obtain ⟨r, hr, h⟩ := bind_ok_iff.mp h
    obtain ⟨hactor, -, hmem, hlevel⟩ := getPermission_ok hq
    have hid : q.id ≠ 0 := hwf.id_ne_zero hmem (by rw [← hlevel] at hactor; exact hactor)
    obtain ⟨r', hr', hiff⟩ := hwf.satisfies_eq hmem hp hid
    rw [hr] at hr'
    cases hr'
    exact ⟨q, hmem, hid, hlevel, hiff.mp (eosAssert_ok_iff.mp h)⟩
  rintro ⟨q, hmem, hid, rfl, hdesc⟩
  obtain ⟨r, hr, hiff⟩ := hwf.satisfies_eq hmem hp hid
  rw [hwf.getPermission hmem hid]
  show (db.satisfies q p >>= _) = _
  rw [hr, hiff.mpr hdesc]
  rfl

end WellFormed

def insertPermission (db : AuthorizationDb Key) (account : AccountName) (name : PermissionName)
    (parent : Nat) (auth : Authority Key) : AuthorizationDb Key :=
  { db with
    permissions := db.permissions ++ [⟨db.nextPermissionId, parent, account, name, auth⟩]
    nextPermissionId := db.nextPermissionId + 1 }

/-- The new id and the table with the new row. The key of an account and a name is unique. -/
def createPermission (db : AuthorizationDb Key) (account : AccountName) (name : PermissionName)
    (parent : Nat) (auth : Authority Key) : Result (Nat × AuthorizationDb Key) := do
  eosAssert (db.findByOwner ⟨account, name⟩).isNone .uniqueness uniquenessViolated
  pure (db.nextPermissionId, db.insertPermission account name parent auth)

def modifyPermission (db : AuthorizationDb Key) (permission : PermissionObject Key)
    (auth : Authority Key) : AuthorizationDb Key :=
  { db with
    permissions := db.permissions.map fun p =>
      if p.id = permission.id then { p with auth := auth } else p }

def erasePermission (db : AuthorizationDb Key) (permission : PermissionObject Key) :
    AuthorizationDb Key :=
  { db with permissions := db.permissions.filter fun p => p.id ≠ permission.id }

def removePermission (db : AuthorizationDb Key) (permission : PermissionObject Key) :
    Result (AuthorizationDb Key) := do
  eosAssert (∀ p ∈ db.permissions, p.parent ≠ permission.id) .actionValidate
    "Cannot remove a permission which has children. Remove the children first."
  pure (db.erasePermission permission)

section Operations
variable {db : AuthorizationDb Key} {auth : Authority Key} {p q : PermissionObject Key}
  {db' : AuthorizationDb Key} {account : AccountName} {name : PermissionName}

lemma createPermission_ok {parent id : Nat}
    (h : db.createPermission account name parent auth = .ok (id, db')) :
    (∀ p ∈ db.permissions, p.level ≠ ⟨account, name⟩) ∧ id = db.nextPermissionId ∧
      db' = db.insertPermission account name parent auth := by
  obtain ⟨hfresh, h⟩ := assert_ok h
  cases h
  exact ⟨findByOwner_eq_none (Option.isNone_iff_eq_none.mp hfresh), rfl, rfl⟩

lemma removePermission_ok (h : db.removePermission p = .ok db') :
    (∀ q ∈ db.permissions, q.parent ≠ p.id) ∧ db' = db.erasePermission p := by
  obtain ⟨hchildless, h⟩ := assert_ok h
  cases h
  exact ⟨hchildless, rfl⟩

lemma mem_insertPermission : p ∈ (db.insertPermission account name parent auth).permissions ↔
      p ∈ db.permissions ∨ p = ⟨db.nextPermissionId, parent, account, name, auth⟩ := by
  simp [insertPermission]

lemma mem_erasePermission :
    q ∈ (db.erasePermission p).permissions ↔ q ∈ db.permissions ∧ q.id ≠ p.id := by
  simp [erasePermission]

lemma mem_modifyPermission (h : q ∈ (db.modifyPermission p auth).permissions) :
    ∃ r ∈ db.permissions, r.id = q.id ∧ r.parent = q.parent ∧ r.level = q.level ∧
      (q.id ≠ p.id → r = q) := by
  obtain ⟨r, hr, rfl⟩ := mem_map.mp h
  refine ⟨r, hr, ?_⟩
  split
  · rename_i heq
    exact ⟨rfl, rfl, rfl, fun hne => absurd heq hne⟩
  · exact ⟨rfl, rfl, rfl, fun _ => rfl⟩

lemma modifyPermission_mem {p r : PermissionObject Key} (auth : Authority Key)
    (hr : r ∈ db.permissions) :
    ∃ q ∈ (db.modifyPermission p auth).permissions, q.id = r.id ∧ q.parent = r.parent ∧
      q.level = r.level ∧ (r.id ≠ p.id → q = r) := by
  refine ⟨_, mem_map_of_mem hr, ?_⟩
  split
  · rename_i heq
    exact ⟨rfl, rfl, rfl, fun hne => absurd heq hne⟩
  · exact ⟨rfl, rfl, rfl, fun _ => rfl⟩

lemma map_modifyPermission {β : Type} (f : PermissionObject Key → β) (p : PermissionObject Key)
    (auth : Authority Key) (hf : ∀ q : PermissionObject Key, f { q with auth := auth } = f q) :
    (db.modifyPermission p auth).permissions.map f = db.permissions.map f := by
  unfold modifyPermission
  rw [map_map]
  apply map_congr_left
  intro q _
  show f (if _ then _ else _) = f q
  split
  · exact hf q
  · rfl

end Operations

namespace WellFormed
variable {db : AuthorizationDb Key} (hwf : db.WellFormed)
include hwf

lemma next_pos : 0 < db.nextPermissionId := by
  obtain ⟨p, hp, -⟩ := hwf.reserved
  exact (Nat.zero_le _).trans_lt (hwf.numbered p hp)

lemma insert {account : AccountName} {name : PermissionName} {auth : Authority Key}
    (haccount : account ≠ 0) (hname : name ≠ 0)
    (hfresh : ∀ p ∈ db.permissions, p.level ≠ ⟨account, name⟩)
    (hparent : ∃ q ∈ db.permissions, q.id = parent ∧ (q.id ≠ 0 → q.owner = account))
    (htop : parent = 0 → name = Config.ownerName) :
    (db.insertPermission account name parent auth).WellFormed := by
  obtain ⟨q, hq, rfl, howner⟩ := hparent
  have hnumbered := hwf.numbered
  have hqlt := hwf.numbered q hq
  have hpos := hwf.next_pos
  have hsub : ∀ p ∈ db.permissions,
      p ∈ (db.insertPermission account name q.id auth).permissions :=
    fun p hp => mem_insertPermission.mpr (.inl hp)
  constructor
  case forest => exact hwf.forest.snoc hnumbered ⟨q, hq, rfl⟩
  case levels =>
    simp only [insertPermission, map_append, map_cons, map_nil]
    refine List.Nodup.append hwf.levels (nodup_singleton _) ?_
    intro l hl hnew
    obtain ⟨p, hp, rfl⟩ := mem_map.mp hl
    exact hfresh p hp (mem_singleton.mp hnew)
  case numbered =>
    intro p hp
    rcases mem_insertPermission.mp hp with hold | rfl
    · exact (hnumbered p hold).trans (Nat.lt_succ_self _)
    · exact Nat.lt_succ_self _
  case reserved =>
    obtain ⟨p, hp, hid⟩ := hwf.reserved
    exact ⟨p, hsub p hp, hid⟩
  case nobody =>
    intro p hp hid
    rcases mem_insertPermission.mp hp with hold | rfl
    · exact hwf.nobody p hold hid
    · exact absurd hid hpos.ne'
  case named =>
    intro p hp hid
    rcases mem_insertPermission.mp hp with hold | rfl
    · exact hwf.named p hold hid
    · exact ⟨haccount, hname⟩
  case sameOwner =>
    intro p hp r hr hpr hid
    rcases mem_insertPermission.mp hr with hrold | rfl
    · rcases mem_insertPermission.mp hp with hold | rfl
      · exact hwf.sameOwner p hold r hrold hpr hid
      · rw [hwf.forest.eq_of_number hrold hq hpr.symm]
        exact howner (hpr.trans_ne hid)
    -- the new id is no parent yet
    rcases mem_insertPermission.mp hp with hold | rfl
    · obtain ⟨b, hb, hbid⟩ := hwf.forest.closed p hold
      have hlt := hnumbered b hb
      have heq : p.parent = db.nextPermissionId := hpr
      omega
    · have heq : q.id = db.nextPermissionId := hpr
      omega
  case top =>
    intro p hp hid hroot
    rcases mem_insertPermission.mp hp with hold | rfl
    · exact hwf.top p hold hid hroot
    · exact htop hroot

lemma of_rows {db' : AuthorizationDb Key} (hnext : db'.nextPermissionId = db.nextPermissionId)
    (hids : (db'.permissions.map PermissionObject.id).Nodup)
    (hlevels : (db'.permissions.map PermissionObject.level).Nodup)
    (hrows : ∀ q ∈ db'.permissions, ∃ r ∈ db.permissions, r.id = q.id ∧ r.parent = q.parent ∧
      r.level = q.level) (hclosed : ∀ q ∈ db'.permissions, ∃ b ∈ db'.permissions, b.id = q.parent)
    (hreserved : ∃ q ∈ db'.permissions, q.id = 0) : db'.WellFormed := by
  constructor
  case forest =>
    refine ⟨hids, hclosed, ?_, ?_⟩
    · intro q hq hid
      obtain ⟨r, hr, hri, hrp, -⟩ := hrows q hq
      rw [← hri] at hid ⊢
      rw [← hrp]
      exact hwf.forest.descending r hr hid
    intro q hq hid
    obtain ⟨r, hr, hri, hrp, -⟩ := hrows q hq
    rw [← hrp]
    exact hwf.forest.root r hr (hri.trans hid)
  case levels => exact hlevels
  case numbered =>
    intro q hq
    obtain ⟨r, hr, hri, -⟩ := hrows q hq
    rw [← hri, hnext]
    exact hwf.numbered r hr
  case reserved => exact hreserved
  case nobody =>
    intro q hq hid
    obtain ⟨r, hr, hri, -, hlevel⟩ := hrows q hq
    obtain ⟨howner, hname⟩ := PermissionLevel.mk.inj hlevel
    rw [← howner, ← hname]
    exact hwf.nobody r hr (hri.trans hid)
  case named =>
    intro q hq hid
    obtain ⟨r, hr, hri, -, hlevel⟩ := hrows q hq
    obtain ⟨howner, hname⟩ := PermissionLevel.mk.inj hlevel
    rw [← howner, ← hname]
    exact hwf.named r hr (hri.trans_ne hid)
  case sameOwner =>
    intro p hp q hq hpq hid
    obtain ⟨r, hr, -, hrp, hlevel⟩ := hrows p hp
    obtain ⟨s, hs, hsi, -, hlevel'⟩ := hrows q hq
    rw [← (PermissionLevel.mk.inj hlevel).1, ← (PermissionLevel.mk.inj hlevel').1]
    exact hwf.sameOwner r hr s hs (hrp.trans (hpq.trans hsi.symm)) (hsi.trans_ne hid)
  case top =>
    intro q hq hid hroot
    obtain ⟨r, hr, hri, hrp, hlevel⟩ := hrows q hq
    rw [← (PermissionLevel.mk.inj hlevel).2]
    exact hwf.top r hr (hri.trans_ne hid) (hrp.trans hroot)

lemma modify (p : PermissionObject Key) (auth : Authority Key) :
    (db.modifyPermission p auth).WellFormed := by
  refine hwf.of_rows rfl ?_ ?_ ?_ ?_ ?_
  · rw [map_modifyPermission PermissionObject.id p auth fun _ => rfl]
    exact hwf.forest.unique
  · rw [map_modifyPermission level p auth fun _ => rfl]
    exact hwf.levels
  · intro q hq
    obtain ⟨r, hr, hid, hparent, hlevel, -⟩ := mem_modifyPermission hq
    exact ⟨r, hr, hid, hparent, hlevel⟩
  · intro q hq
    obtain ⟨r, hr, -, hparent, -⟩ := mem_modifyPermission hq
    obtain ⟨b, hb, hbid⟩ := hwf.forest.closed r hr
    obtain ⟨b', hb', hid, -⟩ := modifyPermission_mem (p := p) auth hb
    exact ⟨b', hb', hid.trans (hbid.trans hparent)⟩
  · obtain ⟨r, hr, hid⟩ := hwf.reserved
    obtain ⟨q, hq, hqid, -⟩ := modifyPermission_mem (p := p) auth hr
    exact ⟨q, hq, hqid.trans hid⟩

lemma erase {p : PermissionObject Key} (hid : p.id ≠ 0)
    (hchildless : ∀ q ∈ db.permissions, q.parent ≠ p.id) : (db.erasePermission p).WellFormed := by
  have hsub : (db.erasePermission p).permissions.Sublist db.permissions := filter_sublist
  refine hwf.of_rows rfl ?_ ?_ ?_ ?_ ?_
  · exact hwf.forest.unique.sublist (hsub.map _)
  · exact hwf.levels.sublist (hsub.map _)
  · intro q hq
    exact ⟨q, (mem_erasePermission.mp hq).1, rfl, rfl, rfl⟩
  · intro q hq
    have hold := (mem_erasePermission.mp hq).1
    obtain ⟨b, hb, hbid⟩ := hwf.forest.closed q hold
    exact ⟨b, mem_erasePermission.mpr ⟨hb, hbid.trans_ne (hchildless q hold)⟩, hbid⟩
  · obtain ⟨r, hr, hrid⟩ := hwf.reserved
    exact ⟨r, mem_erasePermission.mpr ⟨hr, hrid.trans_ne hid.symm⟩, hrid⟩

end WellFormed

end AuthorizationDb

end DimensionChain.Auth
