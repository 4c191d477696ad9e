import DimensionChain.Base.ObjectIndex

/-!
# Deltas of keyed rows

A reader keeps the rows of a table by their keys and is told of rows to insert or replace and of
rows to erase. `applyRows_changes` says when the rows that have changed, those that were removed
and those that are new, told in this order, turn the rows of one index into those of a later one.
-/

namespace DimensionChain.RowDelta
open List FlatMap

variable {α ρ κ : Type} [DecidableEq κ] (key : ρ → κ)

def rowMap (rows : List ρ) : κ → Option ρ := fun k => rows.find? fun r => key r = k

def applyRow (m : κ → Option ρ) (d : Bool × ρ) : κ → Option ρ :=
  Function.update m (key d.2) (if d.1 then some d.2 else none)

def applyRows (m : κ → Option ρ) (ds : List (Bool × ρ)) : κ → Option ρ := ds.foldl (applyRow key) m

variable {key}

section Maps
variable {rows : List ρ} {k : κ} {r : ρ}

lemma rowMap_eq_none : rowMap key rows k = none ↔ ∀ r ∈ rows, key r ≠ k := by
  simp [rowMap]

lemma rowMap_of_mem (hkeys : (rows.map key).Nodup) (hr : r ∈ rows) :
    rowMap key rows (key r) = some r := by
  cases h : rowMap key rows (key r) with
  | none => exact absurd rfl (rowMap_eq_none.mp h r hr)
  | some x =>
    have hx : key x = key r := by simpa using List.find?_some h
    rw [inj_on_of_nodup_map hkeys (mem_of_find?_eq_some h) hr hx]

variable (m : κ → Option ρ)
include m

lemma applyRows_append (ds es : List (Bool × ρ)) :
    applyRows key m (ds ++ es) = applyRows key (applyRows key m ds) es :=
  foldl_append

lemma applyRows_other {ds : List (Bool × ρ)} (h : ∀ d ∈ ds, key d.2 ≠ k) :
    applyRows key m ds k = m k := by
  induction ds generalizing m with
  | nil => rfl
  | cons d ds ih =>
    rw [forall_mem_cons] at h
    change applyRows key (applyRow key m d) ds k = m k
    rw [ih _ h.2, applyRow, Function.update_of_ne (Ne.symm h.1)]

lemma applyRows_present (hkeys : (rows.map key).Nodup) (hr : r ∈ rows) :
    applyRows key m (rows.map fun r => (true, r)) (key r) = some r := by
  induction rows generalizing m with
  | nil => cases hr
  | cons x rows ih =>
    rw [map_cons, nodup_cons] at hkeys
    change applyRows key (applyRow key m (true, x)) (rows.map fun r => (true, r)) (key r) = some r
    rcases mem_cons.mp hr with rfl | hr
    · rw [applyRows_other]
      · simp [applyRow]
      · intro d hd hk
        obtain ⟨y, hy, rfl⟩ := mem_map.mp hd
        exact hkeys.1 (hk ▸ mem_map_of_mem hy)
    · exact ih _ hkeys.2 hr

lemma applyRows_absent (hk : k ∈ rows.map key) :
    applyRows key m (rows.map fun r => (false, r)) k = none := by
  induction rows generalizing m with
  | nil => cases hk
  | cons x rows ih =>
    change applyRows key (applyRow key m (false, x)) (rows.map fun r => (false, r)) k = none
    by_cases hin : k ∈ rows.map key
    · exact ih _ hin
    have hx : k = key x := (mem_cons.mp hk).resolve_right hin
    rw [applyRows_other]
    · simp [applyRow, hx]
    · intro d hd hdk
      obtain ⟨y, hy, rfl⟩ := mem_map.mp hd
      exact hin (hdk ▸ mem_map_of_mem hy)

omit m

lemma rowMap_eq_applyRows (hkeys : (rows.map key).Nodup) :
    applyRows key (fun _ => none) (rows.map fun r => (true, r)) = rowMap key rows := by
  funext k
  by_cases hk : k ∈ rows.map key
  · obtain ⟨r, hr, rfl⟩ := mem_map.mp hk
    rw [applyRows_present _ hkeys hr, rowMap_of_mem hkeys hr]
  have hnone : ∀ r ∈ rows, key r ≠ k := fun r hr hrk => hk (hrk ▸ mem_map_of_mem hr)
  rw [rowMap_eq_none.mpr hnone]
  apply applyRows_other
  intro d hd
  obtain ⟨r, hr, rfl⟩ := mem_map.mp hd
  exact hnone r hr

end Maps

/-- The rows of two indices under their ids, and the three lists that tell how they differ. -/
structure Changes (key : ρ → κ) (before after : FlatMap Nat ρ) (modified removed new : List ρ) :
    Prop where
  keysBefore : (before.values.map key).Nodup
  keysAfter : (after.values.map key).Nodup
  keysModified : (modified.map key).Nodup
  keysNew : (new.map key).Nodup
  key_eq : ∀ id x y, before.find? id = some x → after.find? id = some y → key x = key y
  mem_modified : ∀ y ∈ modified, ∃ id x, before.find? id = some x ∧ after.find? id = some y
  same : ∀ id x y, before.find? id = some x → after.find? id = some y → y ∈ modified ∨ x = y
  mem_removed : ∀ x, x ∈ removed ↔ ∃ id, before.find? id = some x ∧ after.find? id = none
  mem_new : ∀ y, y ∈ new ↔ ∃ id, before.find? id = none ∧ after.find? id = some y

variable {m : FlatMap Nat ρ}

lemma mem_values {r : ρ} : r ∈ m.values ↔ ∃ id, m.find? id = some r := by
  unfold values
  rw [mem_map]
  constructor
  · rintro ⟨e, he, rfl⟩
    exact ⟨e.1, find?_eq_some.mpr he⟩
  · rintro ⟨id, h⟩
    exact ⟨(id, r), find?_eq_some.mp h, rfl⟩

omit [DecidableEq κ] in
lemma id_eq_of_key (hkeys : (m.values.map key).Nodup) {i j : Nat} {x y : ρ}
    (hx : m.find? i = some x) (hy : m.find? j = some y) (hxy : key x = key y) : i = j := by
  have hnodup : (m.entries.map fun e => key e.2).Nodup := by
    have := hkeys
    rwa [values, map_map] at this
  have he := inj_on_of_nodup_map hnodup (find?_eq_some.mp hx)
    (find?_eq_some.mp hy) hxy
  exact congrArg Prod.fst he

variable {before after : FlatMap Nat ρ} {modified removed new : List ρ}

lemma applyRows_changes (h : Changes key before after modified removed new) :
    applyRows key (rowMap key before.values)
        (modified.map (fun r => (true, r)) ++ removed.map (fun r => (false, r)) ++
          new.map fun r => (true, r)) = rowMap key after.values := by
  have hother : ∀ (b : Bool) {rows : List ρ} {k : κ}, k ∉ rows.map key →
      ∀ d ∈ rows.map (fun r => (b, r)), key d.2 ≠ k := by
    intro b rows k hk d hd hdk
    obtain ⟨r, hr, rfl⟩ := mem_map.mp hd
    exact hk (hdk ▸ mem_map_of_mem hr)
  funext k
  rw [applyRows_append, applyRows_append]
  by_cases hafter : k ∈ after.values.map key
  · obtain ⟨y, hy, rfl⟩ := mem_map.mp hafter
    obtain ⟨id, hid⟩ := mem_values.mp hy
    rw [rowMap_of_mem h.keysAfter hy]
    cases hold : before.find? id with
    | none => exact applyRows_present _ h.keysNew ((h.mem_new y).mpr ⟨id, hold, hid⟩)
    | some x =>
      have hxy := h.key_eq id x y hold hid
      -- the key is neither one of a new row nor one of a removed row
      have hnew : key y ∉ new.map key := by
        intro hmem
        obtain ⟨z, hz, hzy⟩ := mem_map.mp hmem
        obtain ⟨j, hj, hj'⟩ := (h.mem_new z).mp hz
        obtain rfl := id_eq_of_key h.keysAfter hj' hid hzy
        rw [hold] at hj
        cases hj
      have hremoved : key y ∉ removed.map key := by
        intro hmem
        obtain ⟨z, hz, hzy⟩ := mem_map.mp hmem
        obtain ⟨j, hj, hj'⟩ := (h.mem_removed z).mp hz
        obtain rfl := id_eq_of_key h.keysBefore hj hold (hzy.trans hxy.symm)
        rw [hid] at hj'
        cases hj'
      rw [applyRows_other _ (hother true hnew), applyRows_other _ (hother false hremoved)]
      rcases h.same id x y hold hid with hmod | rfl
      · exact applyRows_present _ h.keysModified hmod
      by_cases hmod : key x ∈ modified.map key
      · obtain ⟨z, hz, hzx⟩ := mem_map.mp hmod
        obtain ⟨j, x', -, hj⟩ := h.mem_modified z hz
        obtain rfl := id_eq_of_key h.keysAfter hj hid hzx
        rw [hid] at hj
        cases hj
        exact applyRows_present _ h.keysModified hz
      · rw [applyRows_other _ (hother true hmod)]
        exact rowMap_of_mem h.keysBefore (mem_values.mpr ⟨id, hold⟩)
  have hnone : rowMap key after.values k = none :=
    rowMap_eq_none.mpr fun r hr hrk => hafter (hrk ▸ mem_map_of_mem hr)
  have hnew : k ∉ new.map key := by
    intro hmem
    obtain ⟨z, hz, rfl⟩ := mem_map.mp hmem
    obtain ⟨j, -, hj⟩ := (h.mem_new z).mp hz
    exact hafter (mem_map_of_mem (mem_values.mpr ⟨j, hj⟩))
  have hmod : k ∉ modified.map key := by
    intro hmem
    obtain ⟨z, hz, rfl⟩ := mem_map.mp hmem
    obtain ⟨j, -, -, hj⟩ := h.mem_modified z hz
    exact hafter (mem_map_of_mem (mem_values.mpr ⟨j, hj⟩))
  rw [hnone, applyRows_other _ (hother true hnew)]
  by_cases hremoved : k ∈ removed.map key
  · exact applyRows_absent _ hremoved
  rw [applyRows_other _ (hother false hremoved), applyRows_other _ (hother true hmod)]
  -- a row with the key would still be there
  apply rowMap_eq_none.mpr
  intro x hx hxk
  obtain ⟨id, hid⟩ := mem_values.mp hx
  cases hthen : after.find? id with
  | none =>
    exact hremoved (hxk ▸ mem_map_of_mem ((h.mem_removed x).mpr ⟨id, hid, hthen⟩))
  | some y =>
    have hxy := h.key_eq id x y hid hthen
    exact hafter ((hxy.symm.trans hxk) ▸ mem_map_of_mem (mem_values.mpr ⟨id, hthen⟩))

end DimensionChain.RowDelta
