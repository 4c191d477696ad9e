import DimensionChain.Auth.NativeActions

/-!
# Transactions and the subtree of their declared permission

The actions of a transaction are authorized against the tables before it and applied one after the
other. Rows keep their id, parent and name, so a row after the transaction is one of before or has
an origin: the update that created it and that no later action undid.
-/

namespace DimensionChain.Auth

open List Config

variable {Key : Type}

namespace ActionData

def changes : ActionData Key → Option PermissionLevel
  | updateauth update => some ⟨update.account, update.permission⟩
  | deleteauth remove => some ⟨remove.account, remove.permission⟩
  | _ => none

def deletes : ActionData Key → Option PermissionLevel
  | deleteauth remove => some ⟨remove.account, remove.permission⟩
  | _ => none

def onPermissions : ActionData Key → Bool
  | updateauth _ | deleteauth _ | linkauth _ | unlinkauth _ => true
  | _ => false

end ActionData

namespace AuthorizationDb

/-- The rows of a later table with ids that were given out before are rows of the earlier one. -/
structure Evolves (db db' : AuthorizationDb Key) : Prop where
  next : db.nextPermissionId ≤ db'.nextPermissionId
  rows : ∀ q ∈ db'.permissions, q.id < db.nextPermissionId →
    ∃ r ∈ db.permissions, r.id = q.id ∧ r.parent = q.parent ∧ r.level = q.level

variable {q : PermissionObject Key} {j : Nat} {p : PermissionObject Key}

namespace Evolves
variable {db db' db'' : AuthorizationDb Key}

lemma of_rows (hnext : db'.nextPermissionId = db.nextPermissionId)
    (hrows : ∀ q ∈ db'.permissions, q ∈ db.permissions) : db.Evolves db' :=
  ⟨hnext.ge, fun q hq _ => ⟨q, hrows q hq, rfl, rfl, rfl⟩⟩

lemma refl (db : AuthorizationDb Key) : db.Evolves db := of_rows rfl fun _ hq => hq

variable (h : db.Evolves db')
include h

lemma trans (h' : db'.Evolves db'') : db.Evolves db'' := by
  refine ⟨h.next.trans h'.next, ?_⟩
  intro q hq hlt
  obtain ⟨r, hr, hid, hparent, hlevel⟩ := h'.rows q hq (hlt.trans_le h.next)
  obtain ⟨s, hs, hid', hparent', hlevel'⟩ := h.rows r hr (hid.trans_lt hlt)
  exact ⟨s, hs, hid'.trans hid, hparent'.trans hparent, hlevel'.trans hlevel⟩

omit h in
lemma insert (db : AuthorizationDb Key) (account : AccountName) (name : PermissionName)
    (parent : Nat) (auth : Authority Key) :
    db.Evolves (db.insertPermission account name parent auth) := by
  refine ⟨Nat.le_succ _, ?_⟩
  intro q hq hlt
  rcases mem_insertPermission.mp hq with hold | rfl
  · exact ⟨q, hold, rfl, rfl, rfl⟩
  · exact absurd hlt (lt_irrefl _)

lemma descends_iff (hwf : db.WellFormed) (hwf' : db'.WellFormed)
    (hq : q ∈ db'.permissions) (hlt : q.id < db.nextPermissionId) :
    db'.Descends q.id j ↔ db.Descends q.id j := by
  have hgrows : Forest.Grows PermissionObject.id PermissionObject.parent db.permissions
      db'.permissions db.nextPermissionId := by
    intro a ha halt
    obtain ⟨r, hr, hid, hparent, -⟩ := h.rows a ha halt
    exact ⟨r, hr, hid, hparent⟩
  exact hgrows.under_iff hwf.forest hwf'.forest ⟨q, hq, rfl⟩ hlt

lemma level_eq (hwf : db.WellFormed)
    (hp : p ∈ db.permissions) (hq : q ∈ db'.permissions) (hid : q.id = p.id) : q.level = p.level := by
  obtain ⟨r, hr, hrid, -, hlevel⟩ := h.rows q hq (hid.trans_lt (hwf.numbered p hp))
  rw [← hlevel, hwf.forest.eq_of_number hr hp (hrid.trans hid)]

lemma ancestor_mem (hwf : db.WellFormed) (hwf' : db'.WellFormed)
    {q top : PermissionObject Key} (hq : q ∈ db'.permissions) (htop : top ∈ db.permissions)
    (hlt : q.id < db.nextPermissionId) (hdesc : db.Descends q.id top.id) :
    ∃ top' ∈ db'.permissions, top'.level = top.level ∧ db'.Descends q.id top'.id := by
  have hdesc' := (h.descends_iff hwf hwf' hq hlt).mpr hdesc
  obtain ⟨top', htop', hid⟩ := hwf'.forest.under_mem hdesc' ⟨q, hq, rfl⟩
  refine ⟨top', htop', h.level_eq hwf htop htop' hid, ?_⟩
  rw [hid]
  exact hdesc'

end Evolves

variable {level : PermissionLevel} {r : PermissionObject Key}

namespace Effect
variable {db db' : AuthorizationDb Key} {data : ActionData Key} (h : db.Effect data db')
include h

lemma evolves : db.Evolves db' := by
  cases h with
  | account create =>
    have hadd : db.Evolves (db.addAccount ⟨create.name, false⟩) := .of_rows rfl fun _ hq => hq
    exact (hadd.trans (.insert _ _ _ _ _)).trans (.insert _ _ _ _ _)
  | modified update p =>
    refine ⟨le_rfl, fun q hq _ => ?_⟩
    obtain ⟨r, hr, hid, hparent, hlevel, -⟩ := mem_modifyPermission hq
    exact ⟨r, hr, hid, hparent, hlevel⟩
  | created => exact .insert _ _ _ _ _
  | removed => exact .of_rows rfl fun q hq => (mem_erasePermission.mp hq).1
  | relinked | linked | unlinked | cancelled => exact .of_rows rfl fun _ hq => hq
  | other => exact .refl _

lemma kept (hwf : db.WellFormed) (hr : r ∈ db.permissions) (hnot : data.deletes ≠ some r.level) :
    ∃ q ∈ db'.permissions, q.id = r.id ∧ q.parent = r.parent ∧ q.level = r.level ∧
      (data.changes ≠ some r.level → q = r) := by
  have hsame : r ∈ db'.permissions → ∃ q ∈ db'.permissions, q.id = r.id ∧ q.parent = r.parent ∧
      q.level = r.level ∧ (data.changes ≠ some r.level → q = r) :=
    fun hr' => ⟨r, hr', rfl, rfl, rfl, fun _ => rfl⟩
  cases h with
  | account =>
    exact hsame (mem_insertPermission.mpr (.inl (mem_insertPermission.mpr (.inl hr))))
  | modified update p hp hlevel =>
    obtain ⟨q, hq, hid, hparent, hqlevel, hother⟩ := modifyPermission_mem (p := p) update.auth hr
    refine ⟨q, hq, hid, hparent, hqlevel, fun hne => hother fun heq => hne ?_⟩
    rw [hwf.forest.eq_of_number hr hp heq, hlevel]
    rfl
  | created => exact hsame (mem_insertPermission.mpr (.inl hr))
  | removed remove p hp _ hlevel =>
    refine hsame (mem_erasePermission.mpr ⟨hr, fun heq => hnot ?_⟩)
    rw [hwf.forest.eq_of_number hr hp heq, hlevel]
    rfl
  | relinked | linked | unlinked | cancelled | other => exact hsame hr

lemma not_kept (hwf : db.WellFormed)
    (hr : r ∈ db.permissions) (hq : q ∈ db'.permissions) (hid : q.id = r.id) :
    data.deletes ≠ some r.level := by
  intro hdel
  cases h with
  | removed remove p hp _ hlevel =>
    have heq : r = p := hwf.eq_of_level hr hp ((Option.some.inj hdel).symm.trans hlevel.symm)
    exact (mem_erasePermission.mp hq).2 (heq ▸ hid)
  | account | modified | created | relinked | linked | unlinked | cancelled | other => cases hdel

lemma keeps_native
    (hnative : level.permission = ownerName ∨ level.permission = activeName) :
    data.deletes ≠ some level := by
  intro hdel
  cases h with
  | removed remove p _ _ _ hkept =>
    rw [← Option.some.inj hdel] at hnative
    exact hnative.elim hkept.1 hkept.2
  | account | modified | created | relinked | linked | unlinked | cancelled | other => cases hdel

lemma added (hwf : db.WellFormed) (hdata : data.onPermissions = true)
    (hq : q ∈ db'.permissions) (hnew : db.nextPermissionId ≤ q.id) :
    ∃ update, data = .updateauth update ∧ q.level = ⟨update.account, update.permission⟩ ∧
      q.id = db.nextPermissionId ∧ db.NewParent update q.parent ∧
      ∀ p ∈ db.permissions, p.level ≠ ⟨update.account, update.permission⟩ := by
  have hold : ∀ p ∈ db.permissions, p.id ≠ q.id :=
    fun p hp heq => absurd (hwf.numbered p hp) (by omega)
  cases h with
  | account => cases hdata
  | modified update p =>
    obtain ⟨r, hr, hid, -⟩ := mem_modifyPermission hq
    exact absurd hid (hold r hr)
  | created update parentId hnamed hfresh hparent =>
    rcases mem_insertPermission.mp hq with hmem | rfl
    · exact absurd rfl (hold q hmem)
    · exact ⟨update, rfl, rfl, rfl, hparent, hfresh⟩
  | removed => exact absurd rfl (hold q (mem_erasePermission.mp hq).1)
  | relinked | linked | unlinked | cancelled | other => exact absurd rfl (hold q hq)

end Effect

variable {update : UpdateAuth Key} {d : AuthorizationDb Key}

section Run
variable [LinearOrder Key] {db db' : AuthorizationDb Key} {actions : List (Action Key)}

lemma applyActions_append {pre post : List (Action Key)} : db.applyActions (pre ++ post) = .ok db' ↔
      ∃ d, db.applyActions pre = .ok d ∧ d.applyActions post = .ok db' := by
  induction pre generalizing db with
  | nil => simp [applyActions]
  | cons act pre ih =>
    rw [cons_append, applyActions, applyActions, bind_ok_iff]
    constructor
    · rintro ⟨d, hd, h⟩
      obtain ⟨d', hd', h⟩ := ih.mp h
      exact ⟨d', bind_ok_iff.mpr ⟨d, hd, hd'⟩, h⟩
    · rintro ⟨d', h', h⟩
      obtain ⟨d, hd, h'⟩ := bind_ok_iff.mp h'
      exact ⟨d, hd, ih.mpr ⟨d', h', h⟩⟩

variable (hwf : db.WellFormed)
include hwf

lemma applyActions_wellFormed (h : db.applyActions actions = .ok db') :
    db'.WellFormed ∧ db.Evolves db' := by
  induction actions generalizing db with
  | nil =>
    cases h
    exact ⟨hwf, .refl _⟩
  | cons act acts ih =>
    obtain ⟨d, hd, h⟩ := bind_ok_iff.mp h
    have heff := applyAction_effect hwf hd
    obtain ⟨hwf', hevolves⟩ := ih (heff.wellFormed hwf) h
    exact ⟨hwf', heff.evolves.trans hevolves⟩

lemma applyActions_kept (h : db.applyActions actions = .ok db') (hr : r ∈ db.permissions)
    (hnot : ∀ act ∈ actions, act.data.deletes ≠ some r.level) :
    ∃ q ∈ db'.permissions, q.id = r.id ∧ q.parent = r.parent ∧ q.level = r.level ∧
      ((∀ act ∈ actions, act.data.changes ≠ some r.level) → q = r) := by
  induction actions generalizing db r with
  | nil =>
    cases h
    exact ⟨r, hr, rfl, rfl, rfl, fun _ => rfl⟩
  | cons act acts ih =>
    obtain ⟨d, hd, h⟩ := bind_ok_iff.mp h
    have heff := applyAction_effect hwf hd
    obtain ⟨s, hs, hsid, hsparent, hslevel, hsame⟩ :=
      heff.kept hwf hr (hnot act (mem_cons_self ..))
    rw [← hslevel] at hnot
    obtain ⟨q, hq, hid, hparent, hlevel, hsame'⟩ := ih (heff.wellFormed hwf) h hs
      fun a ha => hnot a (mem_cons_of_mem act ha)
    refine ⟨q, hq, hid.trans hsid, hparent.trans hsparent, hlevel.trans hslevel, fun hall => ?_⟩
    rw [hsame' fun a ha => hslevel ▸ hall a (mem_cons_of_mem act ha)]
    exact hsame (hall act (mem_cons_self ..))

lemma applyActions_not_deleted (h : db.applyActions actions = .ok db')
    (hr : r ∈ db.permissions) (hq : q ∈ db'.permissions)
    (hid : q.id = r.id) : ∀ act ∈ actions, act.data.deletes ≠ some r.level := by
  induction actions generalizing db r with
  | nil => exact fun act hact => absurd hact not_mem_nil
  | cons act acts ih =>
    obtain ⟨d, hd, h⟩ := bind_ok_iff.mp h
    have heff := applyAction_effect hwf hd
    have hwfd := heff.wellFormed hwf
    have hlt : q.id < d.nextPermissionId :=
      hid.trans_lt ((hwf.numbered r hr).trans_le heff.evolves.next)
    obtain ⟨s, hs, hsid, -⟩ := (applyActions_wellFormed hwfd h).2.rows q hq hlt
    intro a ha
    rcases mem_cons.mp ha with rfl | ha
    · exact heff.not_kept hwf hr hs (hsid.trans hid)
    · rw [← heff.evolves.level_eq hwf hr hs (hsid.trans hid)]
      exact ih hwfd h hs hsid.symm a ha

lemma applyActions_keeps_owner (h : db.applyActions actions = .ok db') (account : AccountName) :
    ∀ act ∈ actions, act.data.deletes ≠ some ⟨account, ownerName⟩ := by
  induction actions generalizing db with
  | nil => exact fun act hact => absurd hact not_mem_nil
  | cons act acts ih =>
    obtain ⟨d, hd, h⟩ := bind_ok_iff.mp h
    have heff := applyAction_effect hwf hd
    intro a ha
    rcases mem_cons.mp ha with rfl | ha
    · exact heff.keeps_native (.inl rfl)
    · exact ih (heff.wellFormed hwf) h a ha

omit hwf

/-- The update is applied in the state `d`, where its permission does not exist, and no later
action deletes the permission again. -/
def Creates (db : AuthorizationDb Key) (actions : List (Action Key)) (update : UpdateAuth Key)
    (d : AuthorizationDb Key) : Prop :=
  ∃ pre act post, actions = pre ++ act :: post ∧ act.data = .updateauth update ∧
    db.applyActions pre = .ok d ∧ d.findByOwner ⟨update.account, update.permission⟩ = none ∧
    ∀ a ∈ post, a.data.deletes ≠ some ⟨update.account, update.permission⟩

structure Origin (db d db' : AuthorizationDb Key) (update : UpdateAuth Key)
    (q : PermissionObject Key) : Prop where
  wellFormed : d.WellFormed
  before : db.Evolves d
  after : d.Evolves db'
  level : q.level = ⟨update.account, update.permission⟩
  id : q.id = d.nextPermissionId
  parent : d.NewParent update q.parent
  fresh : ∀ p ∈ d.permissions, p.level ≠ ⟨update.account, update.permission⟩

variable (hwf : db.WellFormed) (hkinds : ∀ act ∈ actions, act.data.onPermissions = true)
  (h : db.applyActions actions = .ok db')
include hwf hkinds h

lemma exists_origin (hq : q ∈ db'.permissions) (hnew : db.nextPermissionId ≤ q.id) :
    ∃ update d, db.Creates actions update d ∧ (∃ act ∈ actions, act.data = .updateauth update) ∧
      db.Origin d db' update q := by
  induction actions generalizing db with
  | nil =>
    cases h
    exact absurd (hwf.numbered q hq) (not_lt.mpr hnew)
  | cons act acts ih =>
    obtain ⟨d₁, hd₁, hrest⟩ := bind_ok_iff.mp h
    have heff := applyAction_effect hwf hd₁
    have hwf₁ := heff.wellFormed hwf
    have hlast := (applyActions_wellFormed hwf₁ hrest).2
    by_cases hlater : d₁.nextPermissionId ≤ q.id
    · obtain ⟨update, d, ⟨pre, a, post, rfl, hdata, hpre, hfind, hpost⟩, -, horigin⟩ :=
        ih hwf₁ (fun a ha => hkinds a (mem_cons_of_mem act ha)) hrest hlater
      refine ⟨update, d, ⟨act :: pre, a, post, rfl, hdata, ?_, hfind, hpost⟩, ?_, ?_⟩
      · exact bind_ok_iff.mpr ⟨d₁, hd₁, hpre⟩
      · exact ⟨a, mem_cons_of_mem act (mem_append_right pre (mem_cons_self ..)), hdata⟩
      · exact { horigin with before := heff.evolves.trans horigin.before }
    -- the row is there after the first action
    obtain ⟨s, hs, hsid, hsparent, hslevel⟩ := hlast.rows q hq (not_le.mp hlater)
    obtain ⟨update, hdata, hlevel, hid, hparent, hfresh⟩ :=
      heff.added hwf (hkinds act (mem_cons_self ..)) hs (hsid ▸ hnew)
    have hnone : db.findByOwner ⟨update.account, update.permission⟩ = none := by
      cases hfind : db.findByOwner ⟨update.account, update.permission⟩ with
      | none => rfl
      | some p =>
        obtain ⟨hp, hplevel⟩ := mem_of_findByOwner hfind
        exact absurd hplevel (hfresh p hp)
    have hpost := applyActions_not_deleted hwf₁ hrest hs hq hsid.symm
    rw [hlevel] at hpost
    refine ⟨update, db, ⟨[], act, acts, rfl, hdata, rfl, hnone, hpost⟩,
      ⟨act, mem_cons_self .., hdata⟩, ?_⟩
    exact ⟨hwf, .refl db, heff.evolves.trans hlast, hslevel ▸ hlevel, hsid ▸ hid,
      hsparent ▸ hparent, hfresh⟩

omit hkinds in
lemma Creates.exists_row (hcreates : db.Creates actions update d) :
    ∃ q ∈ db'.permissions, db.nextPermissionId ≤ q.id ∧ db.Origin d db' update q := by
  obtain ⟨pre, act, post, rfl, hdata, hpre, hfind, hpost⟩ := hcreates
  obtain ⟨d', hd', hrest⟩ := applyActions_append.mp h
  rw [hpre] at hd'
  cases hd'
  obtain ⟨d₁, hd₁, hrest⟩ := bind_ok_iff.mp hrest
  obtain ⟨hwfd, hbefore⟩ := applyActions_wellFormed hwf hpre
  have heff := applyAction_effect hwfd hd₁
  have hwf₁ := heff.wellFormed hwfd
  have hafter := heff.evolves.trans (applyActions_wellFormed hwf₁ hrest).2
  have hfresh := findByOwner_eq_none hfind
  rw [hdata] at heff
  cases heff with
  | modified _ p hp hlevel => exact absurd hlevel (hfresh p hp)
  | created _ parentId hnamed _ hparent =>
    have hrow : ⟨d.nextPermissionId, parentId, update.account, update.permission, update.auth⟩ ∈
        (d.insertPermission update.account update.permission parentId update.auth).permissions :=
      mem_insertPermission.mpr (.inr rfl)
    obtain ⟨q, hq, hid, hqparent, hlevel, -⟩ := applyActions_kept hwf₁ hrest hrow hpost
    refine ⟨q, hq, ?_, hwfd, hbefore, hafter, hlevel, hid, hqparent ▸ hparent, hfresh⟩
    rw [hid]
    exact hbefore.next

end Run

section Checks
variable {db : AuthorizationDb Key} {actions : List (Action Key)} {u : Unit} {delay : Int}

def Below (db : AuthorizationDb Key) (level : PermissionLevel) (p : PermissionObject Key) : Prop :=
  ∃ top ∈ db.permissions, top.level = level ∧ db.Descends p.id top.id

lemma soleAuthorization_ok {account : AccountName} {single owner : String}
    {auth : PermissionLevel} (h : soleAuthorization [level] account single owner = .ok auth) :
    auth = level := by
  obtain ⟨_, h⟩ := ok_after h
  cases h
  rfl

lemma checkUpdateauth_ok (hwf : db.WellFormed)
    (h : db.checkUpdateauthAuthorization update [level] = .ok u) :
    ∃ p ∈ db.permissions, db.Below level p ∧ (p.level = ⟨update.account, update.permission⟩ ∨
        (db.findByOwner ⟨update.account, update.permission⟩ = none ∧ update.parent ≠ 0 ∧
          p.level = ⟨update.account, update.parent⟩)) := by
  obtain ⟨auth, hauth, h⟩ := bind_ok_iff.mp h
  cases soleAuthorization_ok hauth
  obtain ⟨existing, hexisting, h⟩ := bind_ok_iff.mp h
  obtain ⟨-, -, hfind⟩ := findPermission_ok hexisting
  cases existing with
  | some p =>
    obtain ⟨hp, hlevel⟩ := mem_of_findByOwner hfind
    obtain ⟨top, htop, -, htoplevel, hdesc⟩ := (hwf.requireSatisfies_iff hp).mp h
    exact ⟨p, hp, ⟨top, htop, htoplevel, hdesc⟩, .inl hlevel⟩
  | none =>
    obtain ⟨p, hp, h⟩ := bind_ok_iff.mp h
    obtain ⟨-, hparent, hmem, hlevel⟩ := getPermission_ok hp
    obtain ⟨top, htop, -, htoplevel, hdesc⟩ := (hwf.requireSatisfies_iff hmem).mp h
    exact ⟨p, hmem, ⟨top, htop, htoplevel, hdesc⟩, .inr ⟨hfind, hparent, hlevel⟩⟩

lemma checkDeleteauth_ok (hwf : db.WellFormed) {remove : DeleteAuth}
    (h : db.checkDeleteauthAuthorization remove [level] = .ok u) :
    ∃ p ∈ db.permissions, db.Below level p ∧ p.level = ⟨remove.account, remove.permission⟩ := by
  obtain ⟨auth, hauth, h⟩ := bind_ok_iff.mp h
  cases soleAuthorization_ok hauth
  obtain ⟨p, hp, h⟩ := bind_ok_iff.mp h
  obtain ⟨-, -, hmem, hlevel⟩ := getPermission_ok hp
  obtain ⟨top, htop, -, htoplevel, hdesc⟩ := (hwf.requireSatisfies_iff hmem).mp h
  exact ⟨p, hmem, ⟨top, htop, htoplevel, hdesc⟩, hlevel⟩

lemma checkActions_ok {satisfied : Finset PermissionLevel} {m m' : FlatMap PermissionLevel Int}
    (h : db.checkActions satisfied delay actions m = .ok m') :
    ∀ act ∈ actions, ∃ d, db.checkAction act delay = .ok d := by
  induction actions generalizing m with
  | nil => exact fun act hact => absurd hact not_mem_nil
  | cons act acts ih =>
    obtain ⟨d, hd, h⟩ := bind_ok_iff.mp h
    intro a ha
    rcases mem_cons.mp ha with rfl | ha
    · exact ⟨d, hd⟩
    · exact ih h a ha

structure Checked (db : AuthorizationDb Key) (level : PermissionLevel) (actions : List (Action Key)) :
    Prop where
  update : ∀ act ∈ actions, ∀ update, act.data = .updateauth update →
    ∃ p ∈ db.permissions, db.Below level p ∧
      (p.level = ⟨update.account, update.permission⟩ ∨
        (db.findByOwner ⟨update.account, update.permission⟩ = none ∧ update.parent ≠ 0 ∧
          p.level = ⟨update.account, update.parent⟩))
  remove : ∀ act ∈ actions, ∀ remove, act.data = .deleteauth remove →
    ∃ p ∈ db.permissions, db.Below level p ∧ p.level = ⟨remove.account, remove.permission⟩

lemma checked_of_checkAuthorization [DecidableEq Key] (hwf : db.WellFormed)
    {keys : Finset Key} {permissions satisfied : Finset PermissionLevel} {allowUnusedKeys : Bool}
    (hdeclared : ∀ act ∈ actions, act.authorization = [level])
    (h : db.checkAuthorization actions keys permissions delay allowUnusedKeys satisfied = .ok u) :
    db.Checked level actions := by
  obtain ⟨m, hm, -⟩ := bind_ok_iff.mp h
  have hall := checkActions_ok hm
  constructor
  case update =>
    intro act hact update hdata
    obtain ⟨d, hd⟩ := hall act hact
    simp only [checkAction, hdata, hdeclared act hact] at hd
    obtain ⟨_, hcheck, -⟩ := bind_ok_iff.mp hd
    exact checkUpdateauth_ok hwf hcheck
  case remove =>
    intro act hact remove hdata
    obtain ⟨d, hd⟩ := hall act hact
    simp only [checkAction, hdata, hdeclared act hact] at hd
    obtain ⟨_, hcheck, -⟩ := bind_ok_iff.mp hd
    exact checkDeleteauth_ok hwf hcheck

end Checks

section Origins
variable {db db' : AuthorizationDb Key}

namespace Origin

lemma lt_of_mem (ho : db.Origin d db' update q) {p : PermissionObject Key}
    (hp : p ∈ d.permissions) : p.id < q.id := by
  rw [ho.id]
  exact ho.wellFormed.numbered p hp

lemma parent_row (ho : db.Origin d db' update q) (hparent : update.parent ≠ 0) :
    ∃ r ∈ d.permissions, r.level = ⟨update.account, update.parent⟩ ∧ q.parent = r.id := by
  rcases ho.parent with ⟨-, hzero, -⟩ | ⟨-, r, hr, -, hlevel, hid⟩
  · exact absurd hzero hparent
  · exact ⟨r, hr, hlevel, hid.symm⟩

variable (ho : db.Origin d db' update q) (hwf' : db'.WellFormed) (hq : q ∈ db'.permissions)
  (hr : r ∈ d.permissions) (hparent : q.parent = r.id)
include ho hwf' hq hr hparent

omit ho hr in
lemma parent_mem : ∃ r' ∈ db'.permissions, r'.id = r.id := by
  obtain ⟨r', hr', hid⟩ := hwf'.forest.closed q hq
  exact ⟨r', hr', hid.trans hparent⟩

lemma descends_iff (hne : q.id ≠ j) : db'.Descends q.id j ↔ d.Descends r.id j := by
  obtain ⟨r', hr', hid⟩ := parent_mem hwf' hq hparent
  have hstep : db'.Descends q.id j ↔ db'.Descends r'.id j :=
    hwf'.forest.under_iff_parent hne ⟨q, hq, rfl, hparent.trans hid.symm⟩
  rw [hstep, ho.after.descends_iff ho.wellFormed hwf' hr' (hid.trans_lt (ho.wellFormed.numbered r hr)),
    hid]

lemma below_iff (hne : q.level ≠ level) : db'.Below level q ↔ d.Below level r := by
  constructor
  · rintro ⟨top, htop, hlevel, hdesc⟩
    have hid : q.id ≠ top.id := fun heq => hne (hwf'.forest.eq_of_number hq htop heq ▸ hlevel)
    have hd := (ho.descends_iff hwf' hq hr hparent hid).mp hdesc
    obtain ⟨t, ht, htid⟩ := ho.wellFormed.forest.under_mem hd ⟨r, hr, rfl⟩
    refine ⟨t, ht, ?_, htid ▸ hd⟩
    rw [← ho.after.level_eq ho.wellFormed ht htop htid.symm]
    exact hlevel
  rintro ⟨top, htop, hlevel, hdesc⟩
  have hid : q.id ≠ top.id := (ho.lt_of_mem htop).ne'
  have hdesc' := (ho.descends_iff hwf' hq hr hparent hid).mpr hdesc
  obtain ⟨t, ht, htid⟩ := hwf'.forest.under_mem hdesc' ⟨q, hq, rfl⟩
  exact ⟨t, ht, (ho.after.level_eq ho.wellFormed htop ht htid).trans hlevel, htid ▸ hdesc'⟩

end Origin

end Origins

variable [LinearOrder Key]

/-- What a transaction changed lies in the subtree of the level that declared it, and the level
is still below all that it was below. -/
structure Contained (db db' : AuthorizationDb Key) (level : PermissionLevel)
    (actions : List (Action Key)) : Prop where
  changed : ∀ p ∈ db.permissions,
    (∃ act ∈ actions, act.data.changes = some p.level) ∨ p ∉ db'.permissions → db.Below level p
  created : ∀ p ∈ db'.permissions, db.nextPermissionId ≤ p.id → db'.Below level p
  ancestors : ∀ p ∈ db.permissions, ∀ q ∈ db'.permissions, p.level = level → q.level = level →
    ∀ j, j ≠ p.id → db.Descends p.id j → db'.Descends q.id j

/-- A permission of before the transaction that is created again, because it was deleted in
between, is put back into the subtree of the level; the level itself below its ancestors. -/
def RestoresSubtree (db : AuthorizationDb Key) (level : PermissionLevel)
    (actions : List (Action Key)) : Prop :=
  ∀ update d, db.Creates actions update d →
    (∃ p ∈ db.permissions, p.level = ⟨update.account, update.permission⟩) →
    ∀ parent ∈ d.permissions, parent.level = ⟨update.account, update.parent⟩ →
      (⟨update.account, update.permission⟩ ≠ level → d.Below level parent) ∧
      (⟨update.account, update.permission⟩ = level →
        ∀ p ∈ db.permissions, p.level = level → ∀ j, j ≠ p.id → db.Descends p.id j →
          d.Descends parent.id j)

variable {db db' : AuthorizationDb Key} {actions : List (Action Key)} (hwf : db.WellFormed)
  (hkinds : ∀ act ∈ actions, act.data.onPermissions = true) (hchecked : db.Checked level actions)
  (h : db.applyActions actions = .ok db')

include hchecked in
omit [LinearOrder Key] in
lemma Checked.below_of_changes (hwf : db.WellFormed)
    (hp : p ∈ db.permissions) {act : Action Key} (hact : act ∈ actions)
    (hchanges : act.data.changes = some p.level) : db.Below level p := by
  cases hdata : act.data with
  | updateauth update =>
    rw [hdata] at hchanges
    have hlevel := Option.some.inj hchanges
    obtain ⟨r, hr, hbelow, hexists | ⟨hnone, -⟩⟩ := hchecked.update act hact update hdata
    · rw [hwf.eq_of_level hp hr (hlevel.symm.trans hexists.symm)]
      exact hbelow
    · exact absurd hlevel.symm (findByOwner_eq_none hnone p hp)
  | deleteauth remove =>
    rw [hdata] at hchanges
    have hlevel := Option.some.inj hchanges
    obtain ⟨r, hr, hbelow, hexists⟩ := hchecked.remove act hact remove hdata
    rw [hwf.eq_of_level hp hr (hlevel.symm.trans hexists.symm)]
    exact hbelow
  | newaccount | linkauth | unlinkauth | canceldelay | other =>
    rw [hdata] at hchanges
    cases hchanges

include hwf h in
lemma exists_changes (hp : p ∈ db.permissions)
    (hgone : p ∉ db'.permissions) : ∃ act ∈ actions, act.data.changes = some p.level := by
  by_contra hnone
  have hno : ∀ act ∈ actions, act.data.changes ≠ some p.level :=
    fun act hact heq => hnone ⟨act, hact, heq⟩
  have hkeep : ∀ act ∈ actions, act.data.deletes ≠ some p.level := by
    intro act hact hdel
    refine hno act hact ?_
    cases hdata : act.data with
    | deleteauth remove => rwa [hdata] at hdel
    | newaccount | updateauth | linkauth | unlinkauth | canceldelay | other =>
      rw [hdata] at hdel
      cases hdel
  obtain ⟨q, hq, -, -, -, hsame⟩ := applyActions_kept hwf h hp hkeep
  exact hgone (hsame hno ▸ hq)

include hwf hchecked in
lemma Origin.parent_ne_zero {q : PermissionObject Key} (ho : db.Origin d db' update q)
    (hcreates : db.Creates actions update d) : update.parent ≠ 0 := by
  obtain ⟨pre, act, post, rfl, hdata, hpre, hfind, -⟩ := hcreates
  obtain ⟨r, hr, -, hexists | ⟨-, hparent, -⟩⟩ :=
    hchecked.update act (mem_append_right pre (mem_cons_self ..)) update hdata
  · -- a permission that existed before was deleted, so it is not an `owner`
    intro hzero
    rcases ho.parent with ⟨howner, -, -⟩ | ⟨-, p, hp, hid, hlevel, -⟩
    · have hkeep := applyActions_keeps_owner hwf hpre update.account
      rw [← howner, ← hexists] at hkeep
      obtain ⟨p, hp, -, -, hlevel, -⟩ := applyActions_kept hwf hpre hr hkeep
      exact ho.fresh p hp (hlevel.trans hexists)
    · have hname : p.name = 0 := (PermissionLevel.mk.inj hlevel).2.trans hzero
      exact (ho.wellFormed.named p hp hid).2 hname
  · exact hparent

include hwf hkinds hchecked h in
lemma created_below (hrestores : db.RestoresSubtree level actions) {q : PermissionObject Key}
    (hq : q ∈ db'.permissions) (hnew : db.nextPermissionId ≤ q.id) : db'.Below level q := by
  have hwf' := (applyActions_wellFormed hwf h).1
  have hevolves := (applyActions_wellFormed hwf h).2
  -- parents have smaller ids than the rows below them
  generalize hi : q.id = i at hnew
  induction i using Nat.strong_induction_on generalizing q with
  | h i ih =>
    subst hi
    by_cases hself : q.level = level
    · exact ⟨q, hq, hself, .refl⟩
    obtain ⟨update, d, hcreates, ⟨act, hact, hdata⟩, ho⟩ := exists_origin hwf hkinds h hq hnew
    obtain ⟨r, hr, hrlevel, hparent⟩ :=
      ho.parent_row (ho.parent_ne_zero hwf hchecked hcreates)
    obtain ⟨p, hp, hbelow, hexists | ⟨-, -, hplevel⟩⟩ := hchecked.update act hact update hdata
    · have hback := (hrestores update d hcreates ⟨p, hp, hexists⟩ r hr hrlevel).1
        fun heq => hself (ho.level.trans heq)
      exact (ho.below_iff hwf' hq hr hparent hself).mpr hback
    obtain ⟨r', hr', hid⟩ := Origin.parent_mem hwf' hq hparent
    have hstep : db'.Descends q.id r'.id := .single ⟨q, hq, rfl, hparent.trans hid.symm⟩
    have hr'below : db'.Below level r' := by
      by_cases hold : r'.id < db.nextPermissionId
      · -- the parent is the row that was looked up by the check
        obtain ⟨s, hs, hsid, -, hslevel⟩ := hevolves.rows r' hr' hold
        have hr'level := ho.after.level_eq ho.wellFormed hr hr' hid
        have hsp : s = p := hwf.eq_of_level hs hp
          (hslevel.trans (hr'level.trans (hrlevel.trans hplevel.symm)))
        subst hsp
        obtain ⟨top, htop, htoplevel, hdesc⟩ := hbelow
        rw [hsid] at hdesc
        obtain ⟨top', htop', hlevel', hdesc'⟩ :=
          hevolves.ancestor_mem hwf hwf' hr' htop hold hdesc
        exact ⟨top', htop', hlevel'.trans htoplevel, hdesc'⟩
      · exact ih r'.id (hid.trans_lt (ho.lt_of_mem hr)) hr' rfl (not_lt.mp hold)
    obtain ⟨top, htop, hlevel, hdesc⟩ := hr'below
    exact ⟨top, htop, hlevel, hstep.trans hdesc⟩

include hwf hkinds hchecked h in
lemma ancestors_kept (hrestores : db.RestoresSubtree level actions)
    (hp : p ∈ db.permissions) (hq : q ∈ db'.permissions) (hplevel : p.level = level)
    (hqlevel : q.level = level) (hj : j ≠ p.id) (hdesc : db.Descends p.id j) :
    db'.Descends q.id j := by
  obtain ⟨hwf', hevolves⟩ := applyActions_wellFormed hwf h
  by_cases hold : q.id < db.nextPermissionId
  · obtain ⟨s, hs, hsid, -, hslevel⟩ := hevolves.rows q hq hold
    have hsp : s = p := hwf.eq_of_level hs hp (hslevel.trans (hqlevel.trans hplevel.symm))
    rw [hevolves.descends_iff hwf hwf' hq hold, ← hsid, hsp]
    exact hdesc
  obtain ⟨update, d, hcreates, -, ho⟩ := exists_origin hwf hkinds h hq (not_lt.mp hold)
  obtain ⟨r, hr, hrlevel, hparent⟩ :=
    ho.parent_row (ho.parent_ne_zero hwf hchecked hcreates)
  have hlevel : (⟨update.account, update.permission⟩ : PermissionLevel) = level :=
    ho.level.symm.trans hqlevel
  have hne : q.id ≠ j := by
    have hle := hwf.forest.under_le hdesc
    have hlt := hwf.numbered p hp
    omega
  rw [ho.descends_iff hwf' hq hr hparent hne]
  exact (hrestores update d hcreates ⟨p, hp, hplevel.trans hlevel.symm⟩ r hr hrlevel).2 hlevel p hp
    hplevel j hj hdesc

include hwf h in
lemma restores_of_contained (hcontained : db.Contained db' level actions) :
    db.RestoresSubtree level actions := by
  obtain ⟨hwf', -⟩ := applyActions_wellFormed hwf h
  intro update d hcreates hexists r hr hrlevel
  obtain ⟨q, hq, hnew, ho⟩ := hcreates.exists_row hwf h
  have hparent : q.parent = r.id := by
    rcases ho.parent with ⟨-, hzero, hroot⟩ | ⟨-, s, hs, -, hslevel, hsid⟩
    · -- the only permission without a name is the row 0
      by_contra hne
      have hrid : r.id ≠ 0 := fun hid => hne (hroot.trans hid.symm)
      exact (ho.wellFormed.named r hr hrid).2 ((PermissionLevel.mk.inj hrlevel).2.trans hzero)
    · rw [← hsid, ho.wellFormed.eq_of_level hs hr (hslevel.trans hrlevel.symm)]
  refine ⟨fun hne => ?_, fun heq p hp hplevel j hj hdesc => ?_⟩
  · exact (ho.below_iff hwf' hq hr hparent (ho.level ▸ hne)).mp (hcontained.created q hq hnew)
  have hqj : q.id ≠ j := by
    have hle := hwf.forest.under_le hdesc
    have hlt := hwf.numbered p hp
    omega
  exact (ho.descends_iff hwf' hq hr hparent hqj).mp
    (hcontained.ancestors p hp q hq hplevel (ho.level.trans heq) j hj hdesc)

end AuthorizationDb

open AuthorizationDb

/-- A transaction of permission and link actions that are all declared by one level changes
permissions in the subtree of the level only, exactly if it puts what it deletes and creates
again back into that subtree. -/
theorem permission_containment_iff [LinearOrder Key] {db db' : AuthorizationDb Key}
    {level : PermissionLevel} {actions : List (Action Key)} {keys : Finset Key}
    {permissions satisfied : Finset PermissionLevel} {delay : Int} {allowUnusedKeys : Bool}
    (hwf : db.WellFormed)
    (hkinds : ∀ act ∈ actions, act.data.onPermissions = true ∧ act.authorization = [level])
    (hcheck : db.checkAuthorization actions keys permissions delay allowUnusedKeys satisfied = .ok ())
    (happly : db.applyActions actions = .ok db') :
    db.Contained db' level actions ↔ db.RestoresSubtree level actions := by
  have hchecked := checked_of_checkAuthorization hwf (fun act hact => (hkinds act hact).2) hcheck
  have hperm : ∀ act ∈ actions, act.data.onPermissions = true := fun act hact => (hkinds act hact).1
  constructor
  · exact restores_of_contained hwf happly
  intro hrestores
  refine ⟨?_, ?_, ?_⟩
  · intro p hp hchanged
    obtain ⟨act, hact, hchanges⟩ := hchanged.elim id (exists_changes hwf happly hp)
    exact hchecked.below_of_changes hwf hp hact hchanges
  · intro p hp hnew
    exact created_below hwf hperm hchecked happly hrestores hp hnew
  · intro p hp q hq hplevel hqlevel j hj hdesc
    exact ancestors_kept hwf hperm hchecked happly hrestores hp hq hplevel hqlevel hj hdesc

def chainDb : AuthorizationDb Nat where
  accounts := [⟨5, false⟩]
  permissions :=
    [⟨0, 0, 0, 0, {}⟩, ⟨1, 0, 5, ownerName, ⟨1, [⟨1, 1⟩], [], []⟩⟩,
      ⟨2, 1, 5, activeName, ⟨1, [⟨2, 1⟩], [], []⟩⟩,
      ⟨3, 2, 5, 7, ⟨1, [⟨3, 1⟩], [], []⟩⟩, ⟨4, 3, 5, 8, ⟨1, [⟨4, 1⟩], [], []⟩⟩]
  nextPermissionId := 5

lemma chainDb_wellFormed : chainDb.WellFormed := by
  refine ⟨⟨?_, ?_, ?_, ?_⟩, ?_, ?_, ?_, ?_, ?_, ?_, ?_⟩ <;> decide

/-- The permission 8 is deleted and created again below the given parent. -/
def recreate (declared : PermissionName) (parent : PermissionName) : List (Action Nat) :=
  [⟨[⟨5, declared⟩], .deleteauth ⟨5, 8⟩⟩,
    ⟨[⟨5, declared⟩], .updateauth ⟨5, 8, parent, ⟨1, [⟨4, 1⟩], [], []⟩⟩⟩]

lemma recreate_onPermissions (declared parent : PermissionName) : ∀ act ∈ recreate declared parent,
      act.data.onPermissions = true ∧ act.authorization = [⟨5, declared⟩] := by
  intro act hact
  rcases mem_cons.mp hact with rfl | hact
  · exact ⟨rfl, rfl⟩
  · rw [mem_singleton.mp hact]
    exact ⟨rfl, rfl⟩

def recreatedDb (parentId : Nat) : AuthorizationDb Nat :=
  { chainDb with
    permissions := chainDb.permissions.take 4 ++ [⟨5, parentId, 5, 8, ⟨1, [⟨4, 1⟩], [], []⟩⟩]
    nextPermissionId := 6 }

lemma recreatedDb_escapes (hwf : (recreatedDb 1).WellFormed) {j : Nat} (hj : 1 < j) (hne : j ≠ 5) :
    ¬ (recreatedDb 1).Descends 5 j := by
  intro hdesc
  have hstep : Forest.Child PermissionObject.id PermissionObject.parent (recreatedDb 1).permissions
      5 1 := ⟨⟨5, 1, 5, 8, ⟨1, [⟨4, 1⟩], [], []⟩⟩, by decide, rfl, rfl⟩
  have hle := hwf.forest.under_le ((hwf.forest.under_iff_parent hne.symm hstep).mp hdesc)
  omega

/-- The permission 7 takes 8 out of its own subtree, and 8 takes itself out of the subtrees of 7
and `active`, with nothing but their own keys. -/
theorem recreated_permission_escapes :
    chainDb.checkAuthorization (recreate 7 ownerName) {3} ∅ 0 false ∅ = .ok () ∧
      chainDb.applyActions (recreate 7 ownerName) = .ok (recreatedDb 1) ∧
      ¬ chainDb.Contained (recreatedDb 1) ⟨5, 7⟩ (recreate 7 ownerName) ∧
      chainDb.checkAuthorization (recreate 8 ownerName) {4} ∅ 0 false ∅ = .ok () ∧
      chainDb.applyActions (recreate 8 ownerName) = .ok (recreatedDb 1) ∧
      ¬ chainDb.Contained (recreatedDb 1) ⟨5, 8⟩ (recreate 8 ownerName) := by
  have happly : chainDb.applyActions (recreate 7 ownerName) = .ok (recreatedDb 1) := by
    decide +kernel
  have hwf := (applyActions_wellFormed chainDb_wellFormed happly).1
  refine ⟨by decide +kernel, happly, fun hcontained => ?_, by decide +kernel, by decide +kernel,
    fun hcontained => ?_⟩
  · obtain ⟨top, htop, hlevel, hdesc⟩ := hcontained.created
      ⟨5, 1, 5, 8, ⟨1, [⟨4, 1⟩], [], []⟩⟩ (by decide) (by decide)
    have hid : ∀ p ∈ (recreatedDb 1).permissions, p.level = ⟨5, 7⟩ → p.id = 3 := by decide
    rw [hid top htop hlevel] at hdesc
    exact recreatedDb_escapes hwf (by decide) (by decide) hdesc
  have hup : chainDb.Descends 4 3 := .single ⟨⟨4, 3, 5, 8, ⟨1, [⟨4, 1⟩], [], []⟩⟩, by decide, rfl, rfl⟩
  exact recreatedDb_escapes hwf (by decide) (by decide) (hcontained.ancestors
    ⟨4, 3, 5, 8, ⟨1, [⟨4, 1⟩], [], []⟩⟩ (by decide) ⟨5, 1, 5, 8, ⟨1, [⟨4, 1⟩], [], []⟩⟩ (by decide)
    rfl rfl 3 (by decide) hup)

/-- Created again below 7, the permission stays where it was. -/
theorem permission_containment_iff_recreate :
    chainDb.checkAuthorization (recreate 7 7) {3} ∅ 0 false ∅ = .ok () ∧
      chainDb.applyActions (recreate 7 7) = .ok (recreatedDb 3) ∧
      chainDb.Contained (recreatedDb 3) ⟨5, 7⟩ (recreate 7 7) := by
  have hcheck : chainDb.checkAuthorization (recreate 7 7) {3} ∅ 0 false ∅ = .ok () := by
    decide +kernel
  have happly : chainDb.applyActions (recreate 7 7) = .ok (recreatedDb 3) := by decide +kernel
  refine ⟨hcheck, happly, (permission_containment_iff chainDb_wellFormed
    (recreate_onPermissions 7 7) hcheck happly).mpr ?_⟩
  rintro update d ⟨pre, act, post, hsplit, hdata, -⟩ - parent hparent hlevel
  -- the only update of the list is its last action
  have hact : act ∈ recreate 7 7 := hsplit ▸ mem_append_right pre (mem_cons_self ..)
  rcases mem_cons.mp hact with rfl | hact
  · cases hdata
  · rw [mem_singleton.mp hact] at hdata
    cases hdata
    exact ⟨fun _ => ⟨parent, hparent, hlevel, .refl⟩, fun heq => absurd heq (by decide)⟩

end DimensionChain.Auth
