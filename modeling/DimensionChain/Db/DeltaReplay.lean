import DimensionChain.Db.StateDelta

/-!
# Replay of the state deltas

A reader that has the rows of every table before a block and applies the deltas of the block has
the rows after it. Rows keep their keys while they stay, so that the rows of a key that is given
up and taken again are told in the right order.
-/

namespace DimensionChain.Db
open Auth RowDelta List HistoryTable FlatMap HistoryRow

/-! ## One table -/

section OneTable
variable {α ρ κ : Type} {key : ρ → κ} {before after index : ObjectIndex α}
  {undo : UndoState α} {pack : α → Result ρ} {f : α → ρ} {id : Nat}

lemma mapM_ok {β γ : Type} {g : β → Result γ} {h : β → γ} {l : List β}
    (hl : ∀ b ∈ l, g b = .ok (h b)) : l.mapM g = .ok (l.map h) := by
  induction l with
  | nil => rfl
  | cons b l ih =>
    rw [forall_mem_cons] at hl
    rw [mapM_cons, hl.1, ih hl.2]
    rfl

lemma getRow_ok {a : α} : getRow index id = .ok a ↔ index.find? id = some a := by
  unfold getRow
  cases index.find? id <;> simp

def rowsAt (index : ObjectIndex α) (f : α → ρ) (ids : List Nat) : List ρ :=
  ids.filterMap fun id => (index.find? id).map f

lemma mapM_getRow {β : Type} {g : β → Nat} {l : List β}
    (hpack : ∀ id b, index.find? id = some b → pack b = .ok (f b))
    (hl : ∀ x ∈ l, ∃ b, index.find? (g x) = some b) :
    (l.mapM fun x => getRow index (g x) >>= pack) = .ok (rowsAt index f (l.map g)) := by
  induction l with
  | nil => rfl
  | cons x l ih =>
    rw [forall_mem_cons] at hl
    obtain ⟨b, hb⟩ := hl.1
    have hrow : (getRow index (g x) >>= pack) = .ok (f b) := by
      rw [getRow_ok.mpr hb]
      exact hpack _ b hb
    have hrest : rowsAt index f ((x :: l).map g) = f b :: rowsAt index f (l.map g) := by
      unfold rowsAt
      rw [map_cons, filterMap_cons, hb]
      rfl
    rw [mapM_cons, hrow, ih hl.2, hrest]
    rfl

/-- What the serializer makes of the rows at both ends of a block. -/
structure Told (key : ρ → κ) (before after : ObjectIndex α) (pack : α → Result ρ)
    (f : α → ρ) : Prop where
  packBefore : ∀ id a, before.find? id = some a → pack a = .ok (f a)
  packAfter : ∀ id b, after.find? id = some b → pack b = .ok (f b)
  keyEq : ∀ id a b, before.find? id = some a → after.find? id = some b → key (f a) = key (f b)
  uniqueBefore : ∀ i j a b, before.find? i = some a → before.find? j = some b →
    key (f a) = key (f b) → i = j
  uniqueAfter : ∀ i j a b, after.find? i = some a → after.find? j = some b →
    key (f a) = key (f b) → i = j

variable (hunique : ∀ i j a b, index.find? i = some a → index.find? j = some b → key (f a) = key (f b) → i = j)
  {ids : List Nat} {r : ρ}
include hunique

lemma nodup_values : ((index.values.map f).map key).Nodup := by
  change (((index.rows.entries.map Prod.snd).map f).map key).Nodup
  rw [map_map, map_map]
  apply List.Nodup.map_on _ index.rows.nodup
  intro x hx y hy hxy
  apply eq_of_mem hx hy
  exact hunique x.1 y.1 x.2 y.2 (ObjectIndex.mem_entries.mpr hx) (ObjectIndex.mem_entries.mpr hy)
    hxy

lemma nodup_rowsAt (hids : ids.Nodup) : ((rowsAt index f ids).map key).Nodup := by
  unfold rowsAt
  rw [map_filterMap]
  apply hids.filterMap
  intro i j k hi hj
  rw [Option.mem_def, Option.map_map, Option.map_eq_some_iff] at hi hj
  obtain ⟨a, ha, hka⟩ := hi
  obtain ⟨b, hb, hkb⟩ := hj
  exact hunique i j a b ha hb (hka.trans hkb.symm)

omit hunique

lemma mem_rowsAt : r ∈ rowsAt index f ids ↔ ∃ id ∈ ids, ∃ b, index.find? id = some b ∧ f b = r := by
  unfold rowsAt
  simp

lemma find?_mapRows : (index.rows.mapVal fun _ a => f a).find? id = some r ↔
      ∃ a, index.find? id = some a ∧ f a = r := by
  rw [find?_mapVal, Option.map_eq_some_iff]
  rfl

lemma find?_mapRows_none :
    (index.rows.mapVal fun _ a => f a).find? id = none ↔ index.find? id = none := by
  rw [find?_mapVal, Option.map_eq_none_iff]
  rfl

lemma values_mapRows : (index.rows.mapVal fun _ a => f a).values = index.values.map f := by
  simp [values, mapVal, ObjectIndex.values]

lemma Told.changes (h : Told key before after pack f) (hrec : undo.Records before after) :
    Changes key (before.rows.mapVal fun _ a => f a) (after.rows.mapVal fun _ b => f b)
      (rowsAt after f (undo.oldValues.entries.map Prod.fst)) (undo.removedValues.values.map f)
      (rowsAt after f undo.newIds) := by
  have holdIds : ∀ id, id ∈ undo.oldValues.entries.map Prod.fst ↔
      ∃ a, undo.oldValues.find? id = some a := by
    intro id
    rw [mem_map]
    constructor
    · rintro ⟨e, he, rfl⟩
      exact ⟨e.2, find?_eq_some.mpr he⟩
    · rintro ⟨a, ha⟩
      exact ⟨(id, a), find?_eq_some.mp ha, rfl⟩
  constructor
  case keysBefore =>
    rw [values_mapRows]
    exact nodup_values h.uniqueBefore
  case keysAfter =>
    rw [values_mapRows]
    exact nodup_values h.uniqueAfter
  case keysModified =>
    exact nodup_rowsAt h.uniqueAfter (undo.oldValues.sorted.imp fun hlt => Nat.ne_of_lt hlt)
  case keysNew => exact nodup_rowsAt h.uniqueAfter hrec.nodup
  case key_eq =>
    intro id x y hx hy
    obtain ⟨a, ha, rfl⟩ := find?_mapRows.mp hx
    obtain ⟨b, hb, rfl⟩ := find?_mapRows.mp hy
    exact h.keyEq id a b ha hb
  case mem_modified =>
    intro y hy
    obtain ⟨id, hid, b, hb, rfl⟩ := mem_rowsAt.mp hy
    obtain ⟨a, ha⟩ := (holdIds id).mp hid
    exact ⟨id, f a, find?_mapRows.mpr ⟨a, (hrec.old id a ha).1, rfl⟩,
      find?_mapRows.mpr ⟨b, hb, rfl⟩⟩
  case same =>
    intro id x y hx hy
    obtain ⟨a, ha, rfl⟩ := find?_mapRows.mp hx
    obtain ⟨b, hb, rfl⟩ := find?_mapRows.mp hy
    cases hold : undo.oldValues.find? id with
    | none =>
      rw [hrec.changed id a b ha hb hold]
      exact .inr rfl
    | some c => exact .inl (mem_rowsAt.mpr ⟨id, (holdIds id).mpr ⟨c, hold⟩, b, hb, rfl⟩)
  case mem_removed =>
    intro x
    rw [mem_map]
    constructor
    · rintro ⟨a, ha, rfl⟩
      obtain ⟨id, hid⟩ := RowDelta.mem_values.mp ha
      obtain ⟨hbefore, hafter⟩ := (hrec.removed id a).mp hid
      exact ⟨id, find?_mapRows.mpr ⟨a, hbefore, rfl⟩, find?_mapRows_none.mpr hafter⟩
    rintro ⟨id, hx, hafter⟩
    obtain ⟨a, ha, rfl⟩ := find?_mapRows.mp hx
    have hremoved := (hrec.removed id a).mpr ⟨ha, find?_mapRows_none.mp hafter⟩
    exact ⟨a, RowDelta.mem_values.mpr ⟨id, hremoved⟩, rfl⟩
  case mem_new =>
    intro y
    rw [mem_rowsAt]
    constructor
    · rintro ⟨id, hid, b, hb, rfl⟩
      obtain ⟨hnone, -⟩ := (hrec.created id).mp hid
      exact ⟨id, find?_mapRows_none.mpr hnone, find?_mapRows.mpr ⟨b, hb, rfl⟩⟩
    · rintro ⟨id, hnone, hy⟩
      obtain ⟨b, hb, rfl⟩ := find?_mapRows.mp hy
      exact ⟨id, (hrec.created id).mpr ⟨find?_mapRows_none.mp hnone, b, hb⟩, b, hb, rfl⟩

lemma Told.undoRows (h : Told key before after pack f) (hrec : undo.Records before after) :
    undoRows after undo pack = .ok
      ((rowsAt after f (undo.oldValues.entries.map Prod.fst)).map (fun r => (true, r)) ++
        (undo.removedValues.values.map f).map (fun r => (false, r)) ++
        (rowsAt after f undo.newIds).map fun r => (true, r)) := by
  have hmodified := mapM_getRow (g := Prod.fst) (l := undo.oldValues.entries) h.packAfter (by
    intro e he
    exact (hrec.old e.1 e.2 (find?_eq_some.mpr he)).2)
  have hremoved : undo.removedValues.values.mapM pack = .ok (undo.removedValues.values.map f) := by
    apply mapM_ok
    intro a ha
    obtain ⟨id, hid⟩ := RowDelta.mem_values.mp ha
    exact h.packBefore id a ((hrec.removed id a).mp hid).1
  have hnew := mapM_getRow (g := id) (l := undo.newIds) h.packAfter (by
    intro id hid
    exact ((hrec.created id).mp hid).2)
  rw [map_id] at hnew
  unfold Db.undoRows
  rw [hmodified]
  rw [hremoved]
  rw [show (undo.newIds.mapM fun id => getRow after id >>= pack) = _ from hnew]
  rfl

variable [DecidableEq κ] {name : String} {stack : List (UndoState α)}

lemma Told.replay (h : Told key before after pack f) (hrec : undo.Records before after)
    (hstack : stack.getLast? = some undo) :
    ∃ ds, processTable false name after stack pack = .ok ds ∧ (∀ d ∈ ds, d.name = name) ∧
      applyRows key (rowMap key (before.values.map f)) (ds.flatMap TableDelta.rows) =
        rowMap key (after.values.map f) := by
  have happly := applyRows_changes (h.changes hrec)
  rw [values_mapRows, values_mapRows] at happly
  unfold processTable
  rw [if_neg Bool.false_ne_true, hstack]
  by_cases hempty : undo.isEmpty = true
  · refine ⟨[], if_pos hempty, by simp, ?_⟩
    unfold UndoState.isEmpty at hempty
    simp only [Bool.and_eq_true, List.isEmpty_iff] at hempty
    obtain ⟨⟨hold, hnew⟩, hremoved⟩ := hempty
    have hvalues : undo.removedValues.values = [] := by rw [values, hremoved]; rfl
    rw [hold, hnew, hvalues] at happly
    exact happly
  obtain ⟨rows, hrows, happly⟩ : ∃ rows, Db.undoRows after undo pack = .ok rows ∧
      applyRows key (rowMap key (before.values.map f)) rows =
        rowMap key (after.values.map f) := ⟨_, h.undoRows hrec, happly⟩
  refine ⟨[⟨name, rows⟩], ?_, by simp, ?_⟩
  · change (if undo.isEmpty = true then _ else _) = _
    rw [if_neg hempty, hrows]
    rfl
  · rw [flatMap_singleton]
    exact happly

omit [DecidableEq κ] in
lemma Told.replay_fresh (h : Told key before after pack f) :
    ∃ ds, processTable true name after stack pack = .ok ds ∧ (∀ d ∈ ds, d.name = name) ∧
      ds.flatMap TableDelta.rows = (after.values.map f).map fun r => (true, r) := by
  have hrows : after.values.mapM pack = .ok (after.values.map f) := by
    apply mapM_ok
    intro b hb
    obtain ⟨id, hid⟩ := ObjectIndex.mem_values.mp hb
    exact h.packAfter id b hid
  unfold processTable
  by_cases hempty : after.values.isEmpty = true
  · refine ⟨[], if_pos hempty, by simp, ?_⟩
    rw [isEmpty_iff.mp hempty]
    rfl
  refine ⟨[⟨name, (after.values.map f).map fun r => (true, r)⟩], ?_, by simp, ?_⟩
  · rw [if_neg hempty, hrows]
    rfl
  · rw [flatMap_singleton]

end OneTable

/-! ## The rows of the database -/

section Tables
variable {Key : Type} {db before after : ChainDb Key} {p : PermissionObject Key} {id : Nat}
  {t : HistoryTable}

def tableRows (db : ChainDb Key) (t : HistoryTable) : Result (List (HistoryRow Key)) :=
  (db t).values.mapM (packRow db .empty [] t)

def spanTable (before after : ChainDb Key) (tid : Nat) : TableIdObject :=
  (((after .contractTable).find? tid).or ((before .contractTable).find? tid)).getD ⟨0, 0, 0, 0, 0⟩

def spanName (before after : ChainDb Key) (id : Nat) : Nat :=
  if id = 0 then 0
  else ((((after .permission).find? id).or ((before .permission).find? id)).map
    PermissionObject.name).getD 0

def spanRow (before after : ChainDb Key) : (t : HistoryTable) → t.Object Key → HistoryRow Key
  | .account => fun (a : AccountObject) => .account a
  | .contractTable => fun (t : TableIdObject) => .contractTable t.code t.scope t.table t.payer
  | .contract k => fun (row : ContractObject k) =>
    .contract k (spanTable before after row.tId).code (spanTable before after row.tId).scope
      (spanTable before after row.tId).table row.primaryKey row.payer row.data
  | .globalProperty => fun (gpo : HistoryAbi.GlobalPropertyObject Key) => .globalProperty gpo
  | .generatedTransaction => fun (gtx : GeneratedTransactionObject) =>
    .generatedTransaction gtx.sender gtx.senderId gtx.payer gtx.trxId gtx.packedTrx
  | .permission => fun (p : PermissionObject Key) =>
    .permission p.owner p.name (spanName before after p.parent) p.lastUpdated p.auth
  | .permissionLink => fun (link : PermissionLinkObject) => .permissionLink link
  | .resourceLimits => fun (limits : ResourceLimitsObject) =>
    .resourceLimits limits.owner limits.netWeight limits.cpuWeight limits.ramBytes
  | .resourceUsage => fun (usage : ResourceUsageObject) => .resourceUsage usage
  | .resourceLimitsState => fun (s : ResourceLimitsStateObject) =>
    .resourceLimitsState s.averageBlockNetUsage s.averageBlockCpuUsage s.totalNetWeight
      s.totalCpuWeight s.totalRamBytes s.virtualNetLimit s.virtualCpuLimit
  | .resourceLimitsConfig => fun (c : ResourceLimitsConfigObject) => .resourceLimitsConfig c

lemma key_spanRow {a b : t.Object Key} (h : t.uniqueKey a = t.uniqueKey b) :
    (spanRow before after t a).key = (spanRow before after t b).key := by
  cases t with
  | contract k =>
    simp only [uniqueKey, cons.injEq, and_true] at h
    simp [spanRow, key, h.1, h.2]
  | resourceLimits =>
    simp only [uniqueKey, cons.injEq, and_true] at h
    simp [spanRow, key, h.2]
  | _ => exact h

structure Spans (before after : ChainDb Key) : Prop where
  formedBefore : before.Formed
  formedAfter : after.Formed
  boundaryBefore : before.AtBoundary
  boundaryAfter : after.AtBoundary
  kept : before.Kept after

structure IsEnd (before after db : ChainDb Key) : Prop where
  side : db = before ∨ db = after
  formed : db.Formed
  boundary : db.AtBoundary
  table : ∀ tid t, (db .contractTable).find? tid = some t →
    t.code = (spanTable before after tid).code ∧ t.scope = (spanTable before after tid).scope ∧
      t.table = (spanTable before after tid).table
  name : ∀ id p, id ≠ 0 → (db .permission).find? id = some p → spanName before after id = p.name

lemma spanTable_after {tid : Nat} {t : TableIdObject}
    (ht : (after .contractTable).find? tid = some t) : spanTable before after tid = t := by
  unfold spanTable
  rw [ht]
  rfl

lemma spanName_after (hid : id ≠ 0)
    (hp : (after .permission).find? id = some p) : spanName before after id = p.name := by
  unfold spanName
  rw [if_neg hid, hp]
  rfl

lemma Spans.end_after (h : Spans before after) : IsEnd before after after := by
  refine ⟨.inr rfl, h.formedAfter, h.boundaryAfter, ?_, fun _ _ => spanName_after⟩
  intro tid t ht
  rw [spanTable_after ht]
  exact ⟨rfl, rfl, rfl⟩

lemma Spans.end_before (h : Spans before after) : IsEnd before after before := by
  refine ⟨.inl rfl, h.formedBefore, h.boundaryBefore, ?_, ?_⟩
  · intro tid t ht
    cases hafter : (after .contractTable).find? tid with
    | none =>
      unfold spanTable
      rw [hafter, ht]
      exact ⟨rfl, rfl, rfl⟩
    | some t' =>
      have hkey := (h.kept .contractTable).of_both ht hafter
      rw [spanTable_after hafter]
      simpa [uniqueKey] using hkey
  intro id p hid hp
  cases hafter : (after .permission).find? id with
  | none =>
    unfold spanName
    rw [if_neg hid, hafter, hp]
    rfl
  | some p' =>
    have hkey := (h.kept .permission).of_both hp hafter
    simp only [uniqueKey, cons.injEq, and_true] at hkey
    rw [spanName_after hid hafter, hkey.2]

lemma exists_table (h : db.Formed) {k : ContractIndex} {row : ContractObject k}
    (hrow : (db (.contract k)).find? id = some row) :
    ∃ t, (db .contractTable).find? row.tId = some t :=
  h.refers (.contract k) id row hrow _ (mem_singleton.mpr rfl)

lemma exists_parent (h : db.Formed)
    (hp : (db .permission).find? id = some p) (hparent : p.parent ≠ 0) :
    ∃ q, (db .permission).find? p.parent = some q := by
  have hrefers : db.Refers .permission p := h.refers .permission id p hp
  have hrefs : refs .permission p = [(.permission, p.parent)] := if_neg hparent
  apply hrefers (.permission, p.parent)
  rw [hrefs]
  exact mem_singleton.mpr rfl

lemma IsEnd.id_eq (h : IsEnd before after db) {i j : Nat}
    {a b : t.Object Key} (ha : (db t).find? i = some a) (hb : (db t).find? j = some b)
    (hkey : (spanRow before after t a).key = (spanRow before after t b).key) : i = j := by
  apply h.formed.unique t i j a b ha hb
  cases t with
  | contract k =>
    obtain ⟨ta, hta⟩ := exists_table h.formed ha
    obtain ⟨tb, htb⟩ := exists_table h.formed hb
    obtain ⟨hcode, hscope, htable⟩ := h.table _ ta hta
    obtain ⟨hcode', hscope', htable'⟩ := h.table _ tb htb
    simp only [spanRow, key, cons.injEq, and_true] at hkey
    have htid := h.formed.unique .contractTable _ _ ta tb hta htb (by
      simp only [uniqueKey]
      rw [hcode, hscope, htable, hcode', hscope', htable', hkey.1, hkey.2.1, hkey.2.2.1])
    simp only [uniqueKey]
    rw [htid, hkey.2.2.2]
  | resourceLimits =>
    simp only [spanRow, key, cons.injEq, and_true] at hkey
    simp [uniqueKey, h.boundary i a ha, h.boundary j b hb, hkey]
  | _ => exact hkey

variable {removed : FlatMap Nat TableIdObject} {stack : List (UndoState (PermissionObject Key))}

lemma IsEnd.packRow (h : IsEnd before after db) {context : ChainDb Key}
    (htable : ∀ tid, (∃ t, (db .contractTable).find? tid = some t) →
      ∃ t, getTableId context removed tid = .ok t ∧ t.code = (spanTable before after tid).code ∧
        t.scope = (spanTable before after tid).scope ∧ t.table = (spanTable before after tid).table)
    (hname : ∀ id, id ≠ 0 → (∃ p, (db .permission).find? id = some p) →
      parentName context stack id = .ok (spanName before after id))
    (t : HistoryTable) {a : t.Object Key} (ha : (db t).find? id = some a) :
    packRow context removed stack t a = .ok (spanRow before after t a) := by
  cases t with
  | contract k =>
    obtain ⟨t, hget, hcode, hscope, htable⟩ := htable _ (exists_table h.formed ha)
    change (getTableId context removed (a : ContractObject k).tId >>= _) = _
    rw [hget]
    simp only [spanRow, ← hcode, ← hscope, ← htable]
    rfl
  | permission =>
    have hparent : parentName context stack (a : PermissionObject Key).parent =
        .ok (spanName before after (a : PermissionObject Key).parent) := by
      by_cases hzero : (a : PermissionObject Key).parent = 0
      · rw [parentName, if_pos hzero, spanName, if_pos hzero]
      · exact hname _ hzero (exists_parent h.formed ha hzero)
    change (parentName context stack (a : PermissionObject Key).parent >>= _) = _
    rw [hparent]
    rfl
  | resourceLimits =>
    change (eosAssert ((a : ResourceLimitsObject).pending = false) _ _ >>= _) = _
    rw [show eosAssert ((a : ResourceLimitsObject).pending = false) .plugin
      "accepted_block sent while resource_limits_object in pending state" = .ok () from
      eosAssert_ok_iff.mpr (h.boundary id a ha)]
    rfl
  | _ => rfl

lemma IsEnd.tableRows (h : IsEnd before after db) (t : HistoryTable) :
    tableRows db t = .ok ((db t).values.map (spanRow before after t)) := by
  apply mapM_ok
  intro a ha
  obtain ⟨id, hid⟩ := ObjectIndex.mem_values.mp ha
  apply h.packRow _ _ t hid
  · rintro tid ⟨t, ht⟩
    refine ⟨t, ?_, h.table tid t ht⟩
    unfold getTableId
    rw [ht]
  · rintro id hzero ⟨p, hp⟩
    unfold parentName
    rw [if_neg hzero, hp, h.name id p hzero hp]

variable {tables : UndoState TableIdObject} {permissions : UndoState (PermissionObject Key)}

variable (htables : tables.Records (before .contractTable) (after .contractTable))
  (hpermissions : permissions.Records (before .permission) (after .permission))
  (hstack : stack.getLast? = some permissions) (t : HistoryTable)
include htables hpermissions hstack

lemma IsEnd.packRow_after (h : IsEnd before after db) {a : t.Object Key}
    (ha : (db t).find? id = some a) :
    Db.packRow after tables.removedValues stack t a = .ok (spanRow before after t a) := by
  apply h.packRow _ _ t ha
  · rintro tid ⟨t, ht⟩
    unfold getTableId
    cases hafter : (after .contractTable).find? tid with
    | some t' =>
      rw [spanTable_after hafter]
      exact ⟨t', rfl, rfl, rfl, rfl⟩
    | none =>
      rcases h.side with rfl | rfl
      · rw [(htables.removed tid t).mpr ⟨ht, hafter⟩]
        exact ⟨t, rfl, h.table tid t ht⟩
      · rw [hafter] at ht
        cases ht
  rintro i hzero ⟨p, hp⟩
  unfold parentName
  rw [if_neg hzero, hstack]
  cases hafter : (after .permission).find? i with
  | some p' => rw [spanName_after hzero hafter]
  | none =>
    rcases h.side with rfl | rfl
    · have hremoved := (hpermissions.removed i p).mpr ⟨hp, hafter⟩
      simp [hremoved, h.name i p hzero hp]
    · rw [hafter] at hp
      cases hp

lemma Spans.told (h : Spans before after) :
    Told key (before t) (after t) (Db.packRow after tables.removedValues stack t)
      (spanRow before after t) where
  packBefore _ _ ha := h.end_before.packRow_after htables hpermissions hstack t ha
  packAfter _ _ hb := h.end_after.packRow_after htables hpermissions hstack t hb
  keyEq _ _ _ ha hb := key_spanRow ((h.kept t).of_both ha hb)
  uniqueBefore _ _ _ _ ha hb hkey := h.end_before.id_eq ha hb hkey
  uniqueAfter _ _ _ _ ha hb hkey := h.end_after.id_eq ha hb hkey

end Tables

/-! ## All tables -/

section All

lemma HistoryTable.mem_all (t : HistoryTable) : t ∈ all := by
  rcases t with _ | _ | k | _ | _ | _ | _ | _ | _ | _ | _
  case contract => cases k <;> decide
  all_goals decide

lemma HistoryTable.nodup_names : (all.map name).Nodup := by decide +kernel

lemma HistoryTable.name_injective {t u : HistoryTable} (h : t.name = u.name) : t = u :=
  inj_on_of_nodup_map nodup_names t.mem_all u.mem_all h

def rowsOf {ρ : Type} (deltas : List (TableDelta ρ)) (name : String) : List (Bool × ρ) :=
  (deltas.filter fun d => d.name = name).flatMap TableDelta.rows

lemma flatMap_of_nodup {ι β : Type} [DecidableEq ι] {l : List ι} (hl : l.Nodup) {i : ι}
    (hi : i ∈ l) {g f : ι → List β} (hself : g i = f i) (hother : ∀ j, j ≠ i → g j = []) :
    l.flatMap g = f i := by
  induction l with
  | nil => cases hi
  | cons j l ih =>
    rw [nodup_cons] at hl
    rw [flatMap_cons]
    by_cases hj : j = i
    · subst hj
      have hrest : l.flatMap g = [] := by
        rw [flatMap_eq_nil_iff]
        intro k hk
        apply hother
        intro hkj
        exact hl.1 (hkj ▸ hk)
      rw [hself, hrest, append_nil]
    · have hmem : i ∈ l := by simpa [Ne.symm hj] using hi
      rw [hother j hj, nil_append, ih hl.2 hmem]

lemma rowsOf_all {ρ : Type} {ds : HistoryTable → List (TableDelta ρ)}
    (hds : ∀ t, ∀ d ∈ ds t, d.name = t.name) (t : HistoryTable) :
    rowsOf (HistoryTable.all.map ds).flatten t.name = (ds t).flatMap TableDelta.rows := by
  have hfilter : ((HistoryTable.all.map ds).flatten.filter fun d => d.name = t.name) = ds t := by
    rw [← flatMap_def, filter_flatMap]
    apply flatMap_of_nodup (nodup_names.of_map _) t.mem_all
    · rw [filter_eq_self]
      intro d hd
      simp [hds t d hd]
    intro u hu
    rw [filter_eq_nil_iff]
    intro d hd
    rw [hds u d hd]
    intro hname
    exact hu (name_injective (of_decide_eq_true hname))
  rw [rowsOf, hfilter]

variable {Key : Type} {before after : ChainDb Key} {undo : UndoStacks Key}

lemma storeChainState_ok {fresh : Bool}
    {tables : UndoState TableIdObject} (htables : (undo .contractTable).getLast? = some tables)
    {P : HistoryTable → List (Bool × HistoryRow Key) → Prop} (hprocess : ∀ t : HistoryTable, ∃ ds,
      processTable fresh t.name (after t) (undo t)
        (packRow after tables.removedValues (undo .permission) t) = .ok ds ∧
      (∀ d ∈ ds, d.name = t.name) ∧ P t (ds.flatMap TableDelta.rows)) :
    ∃ deltas, storeChainState fresh after undo = .ok deltas ∧
      ∀ t : HistoryTable, P t (rowsOf deltas t.name) := by
  choose ds hok hnames hP using hprocess
  refine ⟨(HistoryTable.all.map ds).flatten, ?_, ?_⟩
  · unfold storeChainState
    rw [htables]
    change (HistoryTable.all.mapM _ >>= _) = _
    rw [mapM_ok (h := ds) fun t _ => hok t]
    rfl
  · intro t
    rw [rowsOf_all hnames]
    exact hP t

def Recorded (undo : UndoStacks Key) (before after : ChainDb Key) : Prop :=
  ∀ t, ∃ u, (undo t).getLast? = some u ∧ u.Records (before t) (after t)

variable (h : Spans before after) (hundo : Recorded undo before after)
include h hundo

lemma Spans.storeChainState_fresh :
    ∃ deltas, storeChainState true after undo = .ok deltas ∧ ∀ t : HistoryTable,
      rowsOf deltas t.name =
        ((after t).values.map (spanRow before after t)).map fun r => (true, r) := by
  obtain ⟨tables, htables, hrecTables⟩ := hundo .contractTable
  obtain ⟨permissions, hpermissions, hrecPermissions⟩ := hundo .permission
  apply storeChainState_ok htables (P := fun t rows => rows =
    ((after t).values.map (spanRow before after t)).map fun r => (true, r))
  intro t
  exact (h.told hrecTables hrecPermissions hpermissions t).replay_fresh

lemma Spans.storeChainState_next :
    ∃ deltas, storeChainState false after undo = .ok deltas ∧ ∀ t : HistoryTable,
      applyRows key
          (rowMap key ((before t).values.map (spanRow before after t)))
          (rowsOf deltas t.name) =
        rowMap key ((after t).values.map (spanRow before after t)) := by
  obtain ⟨tables, htables, hrecTables⟩ := hundo .contractTable
  obtain ⟨permissions, hpermissions, hrecPermissions⟩ := hundo .permission
  apply storeChainState_ok htables (P := fun t rows => applyRows key
    (rowMap key ((before t).values.map (spanRow before after t))) rows =
      rowMap key ((after t).values.map (spanRow before after t)))
  intro t
  obtain ⟨u, hu, hrec⟩ := hundo t
  exact (h.told hrecTables hrecPermissions hpermissions t).replay hrec hu

lemma Spans.unique_after (t : HistoryTable) :
    (((after t).values.map (spanRow before after t)).map key).Nodup := by
  obtain ⟨tables, -, hrecTables⟩ := hundo .contractTable
  obtain ⟨permissions, hpermissions, hrecPermissions⟩ := hundo .permission
  exact nodup_values (h.told hrecTables hrecPermissions hpermissions t).uniqueAfter

omit hundo h

lemma spans_of_writes {ws : List (ChainDb Key × Write Key × ChainDb Key)}
    (hformed : before.Formed) (hbefore : before.AtBoundary)
    (hws : Steps ChainDb.Writes before ws after) (hafter : after.AtBoundary) :
    Spans before after := by
  obtain ⟨hformed', hkept⟩ := ChainDb.writes_formed hformed hws
  exact ⟨hformed, hformed', hbefore, hafter, hkept⟩

/-- The deltas of a block replayed over the rows before it, or over nothing if they are the first
of the log, give the rows after it. -/
theorem deltas_replay {ws : List (ChainDb Key × Write Key × ChainDb Key)}
    (hformed : before.Formed) (hbefore : before.AtBoundary)
    (hws : Steps ChainDb.Writes before ws after) (hafter : after.AtBoundary) (fresh : Bool)
    {undo : UndoStacks Key} (hundo : Recorded undo before after) :
    ∃ deltas, storeChainState fresh after undo = .ok deltas ∧ ∀ t : HistoryTable, ∃ rows rows',
      tableRows before t = .ok rows ∧ tableRows after t = .ok rows' ∧
        applyRows key (if fresh then fun _ => none else rowMap key rows)
          (rowsOf deltas t.name) = rowMap key rows' := by
  have hspans := spans_of_writes hformed hbefore hws hafter
  cases fresh with
  | true =>
    obtain ⟨deltas, hok, hrows⟩ := hspans.storeChainState_fresh hundo
    refine ⟨deltas, hok, fun t =>
      ⟨_, _, hspans.end_before.tableRows t, hspans.end_after.tableRows t, ?_⟩⟩
    rw [hrows]
    exact rowMap_eq_applyRows (hspans.unique_after hundo t)
  | false =>
    obtain ⟨deltas, hok, happly⟩ := hspans.storeChainState_next hundo
    exact ⟨deltas, hok, fun t => ⟨_, _, hspans.end_before.tableRows t, hspans.end_after.tableRows t,
      happly t⟩⟩

end All

variable {db : ChainDb Nat} {t : HistoryTable}

lemma allowed_create {row : t.Object Nat}
    (hkeys : ∀ a ∈ (db t).values, t.uniqueKey a ≠ t.uniqueKey row)
    (hrefs : ∀ r ∈ t.refs row, ((db r.1).find? r.2).isSome) : db.Allowed (.create t row) := by
  constructor
  · intro id a ha
    exact hkeys a (ObjectIndex.mem_values.mpr ⟨id, ha⟩)
  · intro r hr
    exact Option.isSome_iff_exists.mp (hrefs r hr)

lemma allowed_remove {id : Nat}
    (h : ∀ u ∈ HistoryTable.all, ∀ a ∈ (db u).values, (t, id) ∉ u.refs a) :
    db.Allowed (.remove t id) := by
  intro u i a ha
  exact h u (mem_all u) a (ObjectIndex.mem_values.mpr ⟨i, ha⟩)

def storeRow (tid : Nat) (value : ContractIndex.keyValue.Data) : List (Write Nat) :=
  [.create .contractTable (⟨1, 2, 3, 4, 1⟩ : TableIdObject),
    .create (.contract .keyValue) (⟨tid, 7, 4, value⟩ : ContractObject .keyValue)]

def stored : ChainDb Nat := (storeRow 0 []).foldl ChainDb.write fun _ => .empty

def dropped : ChainDb Nat :=
  [.remove (.contract .keyValue) 0, .remove .contractTable 0].foldl ChainDb.write stored

def replaced : ChainDb Nat := (storeRow 1 [1]).foldl ChainDb.write dropped

lemma stored_formed : stored.Formed := by
  have hempty : ChainDb.Formed (fun _ => .empty : ChainDb Nat) := ⟨fun _ => nofun, fun _ => nofun⟩
  refine (ChainDb.writes_formed hempty (.cons ⟨allowed_create ?_ ?_, rfl⟩
    (.cons ⟨allowed_create ?_ ?_, rfl⟩ (.nil _)))).1 <;> decide

lemma dropped_writes : ∃ ws, Steps ChainDb.Writes stored ws dropped := by
  refine ⟨_, .cons ⟨allowed_remove ?_, rfl⟩ (.cons ⟨allowed_remove ?_, rfl⟩ (.nil _))⟩ <;> decide

lemma replaced_writes : ∃ ws, Steps ChainDb.Writes stored ws replaced := by
  refine ⟨_, .cons ⟨allowed_remove ?_, rfl⟩ (.cons ⟨allowed_remove ?_, rfl⟩
    (.cons ⟨allowed_create ?_ ?_, rfl⟩ (.cons ⟨allowed_create ?_ ?_, rfl⟩ (.nil _))))⟩ <;> decide

def undoStacks (before after : ChainDb Nat) : UndoStacks Nat :=
  fun t => [.between (before t) (after t)]

lemma undoStacks_recorded (before after : ChainDb Nat) :
    Recorded (undoStacks before after) before after :=
  fun t => ⟨_, rfl, UndoState.between_records (before t) (after t)⟩

lemma atBoundary_of_none (h : db .resourceLimits = .empty) : db.AtBoundary := by
  intro id limits hl
  rw [h] at hl
  cases hl

/-- The first entry of a log does not tell of the row that its block has removed. -/
theorem first_entry_misses_removal :
    ∃ (before after : ChainDb Nat) (ws : List (ChainDb Nat × Write Nat × ChainDb Nat))
      (undo : UndoStacks Nat) (deltas : List (TableDelta (HistoryRow Nat)))
      (rows rows' : List (HistoryRow Nat)), (before.Formed ∧ before.AtBoundary) ∧
      Steps ChainDb.Writes before ws after ∧ after.AtBoundary ∧ Recorded undo before after ∧
      storeChainState true after undo = .ok deltas ∧
      tableRows before (.contract .keyValue) = .ok rows ∧
      tableRows after (.contract .keyValue) = .ok rows' ∧
      applyRows key (rowMap key rows)
        (rowsOf deltas (HistoryTable.contract .keyValue).name) ≠ rowMap key rows' := by
  have hbefore : stored.AtBoundary := atBoundary_of_none rfl
  have hafter : dropped.AtBoundary := atBoundary_of_none rfl
  obtain ⟨ws, hws⟩ := dropped_writes
  have hspans := spans_of_writes stored_formed hbefore hws hafter
  obtain ⟨deltas, hok, hrows⟩ := hspans.storeChainState_fresh (undoStacks_recorded stored dropped)
  refine ⟨stored, dropped, ws, undoStacks stored dropped, deltas,
    [.contract .keyValue 1 2 3 7 4 []], [], ⟨stored_formed, hbefore⟩, hws, hafter,
    undoStacks_recorded _ _, hok, rfl, rfl, ?_⟩
  intro heq
  rw [hrows (.contract .keyValue)] at heq
  -- nothing is told of the table, so the row stays
  have hstays := congrFun heq [1, 2, 3, 7]
  cases hstays

theorem deltas_replay_replaced :
    ∃ deltas, storeChainState false replaced (undoStacks stored replaced) = .ok deltas ∧
      ∀ t : HistoryTable, ∃ rows rows',
        tableRows stored t = .ok rows ∧ tableRows replaced t = .ok rows' ∧
          applyRows key (rowMap key rows) (rowsOf deltas t.name) =
            rowMap key rows' := by
  obtain ⟨ws, hws⟩ := replaced_writes
  exact deltas_replay stored_formed (atBoundary_of_none rfl) hws
    (atBoundary_of_none rfl) false (undoStacks_recorded stored replaced)

end DimensionChain.Db
