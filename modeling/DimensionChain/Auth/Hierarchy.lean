import DimensionChain.Auth.Links
import DimensionChain.Base.Steps

/-!
# The permissions of an account as a tree

A permission without a parent is the `owner` of an account, and conversely, and every other
permission has its parent in the same account. `satisfies` is then the order of these trees.
-/

namespace DimensionChain.Auth

variable {Key : Type}

namespace AuthorizationDb

def ParentOf (db : AuthorizationDb Key) (p q : PermissionObject Key) : Prop :=
  p ∈ db.permissions ∧ q ∈ db.permissions ∧ p.parent ≠ 0 ∧ p.parent = q.id

def OwnersOnTop (db : AuthorizationDb Key) : Prop :=
  ∀ p ∈ db.permissions, p.name = Config.ownerName → p.parent = 0

section Order
variable {db : AuthorizationDb Key} (hwf : db.WellFormed)
include hwf

variable {p q : PermissionObject Key} {this other : PermissionObject Key}

lemma ParentOf.id_lt (h : db.ParentOf p q) : q.id < p.id := by
  obtain ⟨hp, -, hne, hparent⟩ := h
  rw [← hparent]
  apply hwf.forest.descending p hp
  intro hid
  exact hne (hwf.forest.root p hp hid)

lemma ancestor_id_lt (h : Relation.TransGen db.ParentOf p q) : q.id < p.id := by
  induction h with
  | single hstep => exact hstep.id_lt hwf
  | tail _ hstep ih => exact (hstep.id_lt hwf).trans ih

lemma not_own_ancestor (p : PermissionObject Key) : ¬ Relation.TransGen db.ParentOf p p := by
  intro h
  exact Nat.lt_irrefl _ (ancestor_id_lt hwf h)

lemma descends_iff (hp : p ∈ db.permissions) (hq : q ∈ db.permissions) (hid : q.id ≠ 0) :
    db.Descends p.id q.id ↔ Relation.ReflTransGen db.ParentOf p q := by
  constructor
  · intro h
    refine hwf.descends_rec (Q := fun p => Relation.ReflTransGen db.ParentOf p q) hq hid .refl ?_ hp h
    intro a ha b hb hparent hne ih
    exact .head ⟨ha, hb, hparent ▸ hne, hparent⟩ ih
  intro h
  induction h with
  | refl => exact .refl
  | tail _ hstep ih =>
    obtain ⟨ha, hb, hne, hparent⟩ := hstep
    exact .tail (ih ha (fun hzero => hne (hwf.forest.root _ ha hzero))) ⟨_, ha, rfl, hparent⟩

lemma satisfies_reserved (hthis : this ∈ db.permissions)
    (hother : other ∈ db.permissions) (hid : this.id = 0) :
    ∃ r, db.satisfies this other = .ok r ∧ (r = true ↔ this.owner = other.owner ∧ this = other) := by
  unfold satisfies
  by_cases howner : this.owner = other.owner
  · have hzero : other.id = 0 := by
      by_contra hne
      apply (hwf.named other hother hne).1
      rw [← howner]
      exact (hwf.nobody this hthis hid).1
    have heq : this = other := hwf.forest.eq_of_number hthis hother (hid.trans hzero.symm)
    rw [if_neg (not_not.mpr howner), if_pos (.inl (hid.trans hzero.symm))]
    exact ⟨true, rfl, iff_of_true rfl ⟨howner, heq⟩⟩
  · rw [if_pos howner]
    exact ⟨false, rfl, iff_of_false nofun fun h => howner h.1⟩

lemma satisfies_iff_ancestor (hthis : this ∈ db.permissions) (hother : other ∈ db.permissions) :
    ∃ r, db.satisfies this other = .ok r ∧
      (r = true ↔ this.owner = other.owner ∧ Relation.ReflTransGen db.ParentOf other this) := by
  by_cases hid : this.id = 0
  · obtain ⟨r, hr, hiff⟩ := satisfies_reserved hwf hthis hother hid
    refine ⟨r, hr, hiff.trans (and_congr_right fun howner => ?_)⟩
    constructor
    · intro heq
      rw [heq]
    intro h
    rcases Relation.reflTransGen_iff_eq_or_transGen.mp h with heq | habove
    · exact heq
    · -- nothing hangs below the reserved permission
      obtain ⟨p, -, -, -, hne, hparent⟩ := (Relation.TransGen.tail'_iff.mp habove)
      exact absurd (hparent.trans hid) hne
  obtain ⟨r, hr, hiff⟩ := hwf.satisfies_eq hthis hother hid
  refine ⟨r, hr, hiff.trans ?_⟩
  rw [descends_iff hwf hother hthis hid]
  constructor
  · intro h
    exact ⟨hwf.owner_eq hother hthis hid ((descends_iff hwf hother hthis hid).mpr h), h⟩
  · intro h
    exact h.2

end Order

variable {db db' : AuthorizationDb Key} {configuration : ChainConfig} {initialKey : Key}

lemma OwnersOnTop.insert {account : AccountName} {name : PermissionName} {parent : Nat}
    {auth : Authority Key} (h : db.OwnersOnTop) (hnew : name = Config.ownerName → parent = 0) :
    (db.insertPermission account name parent auth).OwnersOnTop := by
  intro p hp hname
  rcases mem_insertPermission.mp hp with hold | rfl
  · exact h p hold hname
  · exact hnew hname

lemma OwnersOnTop.insertNative (h : db.OwnersOnTop) (name : AccountName)
    (owner active : Authority Key) : (db.insertNative name owner active).OwnersOnTop := by
  apply OwnersOnTop.insert
  · apply h.insert
    intro _
    rfl
  · intro hname
    exact absurd hname (by decide)

lemma Effect.ownersOnTop {data : ActionData Key} (heff : db.Effect data db')
    (h : db.OwnersOnTop) : db'.OwnersOnTop := by
  cases heff with
  | account create =>
    apply OwnersOnTop.insertNative
    exact h
  | modified update p =>
    intro q hq hname
    obtain ⟨r, hr, -, hparent, hlevel, -⟩ := mem_modifyPermission hq
    rw [← hparent]
    exact h r hr ((PermissionLevel.mk.inj hlevel).2.trans hname)
  | created update parentId _ _ hparent =>
    apply h.insert
    intro hname
    rcases hparent with ⟨-, -, hzero⟩ | ⟨hne, -⟩
    · exact hzero
    · exact absurd hname hne
  | removed remove p =>
    intro q hq
    exact h q (mem_erasePermission.mp hq).1
  | relinked | linked | unlinked | cancelled => exact h
  | other => exact h

lemma ownersOnTop_initializeDatabase
    (h : initializeDatabase initialKey configuration = .ok db) : db.OwnersOnTop := by
  obtain ⟨db₁, h₁, h⟩ := bind_ok_iff.mp h
  obtain ⟨db₂, h₂, h⟩ := bind_ok_iff.mp h
  obtain ⟨db₃, h₃, h⟩ := bind_ok_iff.mp h
  obtain ⟨active, h⟩ := ok_after h
  obtain ⟨⟨majorityId, db₄⟩, h₄, h⟩ := bind_ok_iff.mp h
  obtain ⟨⟨minorityId, db₅⟩, h₅, h⟩ := bind_ok_iff.mp h
  cases h
  obtain ⟨-, -, rfl⟩ := createNativePermissions_ok h₁
  obtain ⟨-, -, rfl⟩ := createNativePermissions_ok h₂
  obtain ⟨-, -, rfl⟩ := createNativePermissions_ok h₃
  obtain ⟨-, -, rfl⟩ := createPermission_ok h₄
  obtain ⟨-, -, rfl⟩ := createPermission_ok h₅
  apply OwnersOnTop.insert
  · apply OwnersOnTop.insert
    · apply OwnersOnTop.insertNative
      apply OwnersOnTop.insertNative
      apply OwnersOnTop.insertNative
      intro p hp _
      rw [List.mem_singleton.mp hp]
    · intro hname
      exact absurd hname (by decide)
  · intro hname
    exact absurd hname (by decide)

variable [LinearOrder Key]

lemma wellFormed_of_run
    {db₀ : AuthorizationDb Key} {es : List (AuthorizationDb Key × Action Key × AuthorizationDb Key)}
    (hinit : initializeDatabase initialKey configuration = .ok db₀)
    (hrun : DimensionChain.Steps (fun db act db' => db.applyAction act = .ok db') db₀ es db) :
    db.WellFormed ∧ db.OwnersOnTop := by
  apply hrun.invariant (Q := fun db => db.WellFormed ∧ db.OwnersOnTop)
  · intro db act db' h hact
    have heff := applyAction_effect h.1 hact
    exact ⟨heff.wellFormed h.1, heff.ownersOnTop h.2⟩
  · exact ⟨(regular_initializeDatabase hinit).1.wellFormed, ownersOnTop_initializeDatabase hinit⟩

end AuthorizationDb

open AuthorizationDb

/-- After every run of actions from the initial database the permissions of each account form a
tree with `owner` on top, and `satisfies` decides their order. The row 0 is no permission of an
account. -/
theorem permissions_form_trees [LinearOrder Key] {initialKey : Key} {configuration : ChainConfig}
    {db₀ db : AuthorizationDb Key} {es : List (AuthorizationDb Key × Action Key × AuthorizationDb Key)}
    (hinit : initializeDatabase initialKey configuration = .ok db₀)
    (hrun : Steps (fun db act db' => db.applyAction act = .ok db') db₀ es db) :
    (∀ p ∈ db.permissions, p.id = 0 → p.owner = 0 ∧ p.name = 0 ∧ p.parent = 0) ∧
    (∀ p ∈ db.permissions, p.id ≠ 0 → (p.parent = 0 ↔ p.name = Config.ownerName) ∧
      (p.parent ≠ 0 → ∃ q ∈ db.permissions, q.id = p.parent ∧ q.owner = p.owner)) ∧
    (∀ p, ¬ Relation.TransGen db.ParentOf p p) ∧
    (∀ p ∈ db.permissions, ∀ q ∈ db.permissions, ∃ r, db.satisfies p q = .ok r ∧
      (r = true ↔ p.owner = q.owner ∧ (p = q ∨ Relation.TransGen db.ParentOf q p))) := by
  obtain ⟨hwf, htop⟩ := wellFormed_of_run hinit hrun
  refine ⟨?_, ?_, not_own_ancestor hwf, ?_⟩
  · intro p hp hid
    obtain ⟨howner, hname⟩ := hwf.nobody p hp hid
    exact ⟨howner, hname, hwf.forest.root p hp hid⟩
  · intro p hp hid
    refine ⟨⟨hwf.top p hp hid, htop p hp⟩, ?_⟩
    intro hne
    obtain ⟨q, hq, hqid⟩ := hwf.forest.closed p hp
    exact ⟨q, hq, hqid, hwf.sameOwner p hp q hq hqid.symm (hqid.trans_ne hne)⟩
  intro p hp q hq
  obtain ⟨r, hr, hiff⟩ := satisfies_iff_ancestor hwf hp hq
  rw [Relation.reflTransGen_iff_eq_or_transGen] at hiff
  exact ⟨r, hr, hiff⟩

def addBelowActive : Action Nat :=
  ⟨[⟨Config.systemAccountName, Config.activeName⟩],
    .updateauth ⟨Config.systemAccountName, 7, Config.activeName, ⟨1, [⟨1, 1⟩], [], []⟩⟩⟩

theorem permissions_form_trees_below : ∃ db, initialDb.applyAction addBelowActive = .ok db ∧
    ∀ p ∈ db.permissions, ∀ q ∈ db.permissions, ∃ r, db.satisfies p q = .ok r ∧
      (r = true ↔ p.owner = q.owner ∧ (p = q ∨ Relation.TransGen db.ParentOf q p)) := by
  have hinit : initializeDatabase 1 {} = .ok initialDb := by decide +kernel
  have happly : (initialDb.applyAction addBelowActive).toOption.isSome := by decide +kernel
  obtain ⟨db, hdb⟩ := Option.isSome_iff_exists.mp happly
  have hok := ok_of_toOption hdb
  exact ⟨db, hok, (permissions_form_trees hinit (.cons hok (.nil _))).2.2.2⟩

end DimensionChain.Auth
