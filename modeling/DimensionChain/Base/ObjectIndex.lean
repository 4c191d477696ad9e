import DimensionChain.Base.FlatMap

/-!
# Rows under ascending ids

An index gives each new row the next id and does not use an id again. Rows are walked in the order
of their ids. `Unique` is what unique keys amount to, `Kept` compares two indices of one history:
a row that was there before is still the same up to a relation. `UndoState` lists what has changed
between them.
-/

namespace DimensionChain

open List Nat FlatMap

structure ObjectIndex (α : Type) where
  rows : FlatMap Nat α := .empty
  nextId : Nat := 0
  fresh : ∀ e ∈ rows.entries, e.1 < nextId

namespace ObjectIndex
variable {α β : Type}

def empty : ObjectIndex α where
  fresh _ he := absurd he List.not_mem_nil

def find? (idx : ObjectIndex α) (id : Nat) : Option α := idx.rows.find? id

def values (idx : ObjectIndex α) : List α := idx.rows.values

lemma sorted_snoc (idx : ObjectIndex α) (a : α) :
    ((idx.rows.entries ++ [(idx.nextId, a)]).map Prod.fst).Pairwise (· < ·) := by
  rw [map_append, pairwise_append]
  refine ⟨idx.rows.sorted, pairwise_singleton _ _, ?_⟩
  intro id hid n hn
  obtain ⟨e, he, rfl⟩ := mem_map.mp hid
  obtain rfl := mem_singleton.mp hn
  exact idx.fresh e he

def create (idx : ObjectIndex α) (a : α) : ObjectIndex α where
  rows := ⟨idx.rows.entries ++ [(idx.nextId, a)], idx.sorted_snoc a⟩
  nextId := idx.nextId + 1
  fresh := by
    intro e he
    rcases List.mem_append.mp he with he | he
    · exact Nat.lt_succ_of_lt (idx.fresh e he)
    · rw [List.mem_singleton.mp he]
      exact Nat.lt_succ_self _

def modify (idx : ObjectIndex α) (id : Nat) (f : α → α) : ObjectIndex α where
  rows := idx.rows.mapVal fun i a => if i = id then f a else a
  nextId := idx.nextId
  fresh := by
    intro e he
    obtain ⟨a, ha, -⟩ := (FlatMap.mem_mapVal e).mp he
    exact idx.fresh (e.1, a) ha

def remove (idx : ObjectIndex α) (id : Nat) : ObjectIndex α where
  rows := idx.rows.erase id
  nextId := idx.nextId
  fresh := fun e he => idx.fresh e ((FlatMap.mem_erase e).mp he).1

section Lookups
variable {idx : ObjectIndex α} {id q : Nat} {a b : α}

lemma mem_entries : idx.find? id = some a ↔ (id, a) ∈ idx.rows.entries := FlatMap.find?_eq_some

lemma mem_values : a ∈ idx.values ↔ ∃ id, idx.find? id = some a := by
  unfold values FlatMap.values
  rw [mem_map]
  constructor
  · rintro ⟨e, he, rfl⟩
    exact ⟨e.1, mem_entries.mpr he⟩
  · rintro ⟨id, h⟩
    exact ⟨(id, a), mem_entries.mp h, rfl⟩

lemma lt_nextId (h : idx.find? id = some a) : id < idx.nextId := idx.fresh _ (mem_entries.mp h)

lemma find?_nextId_le (idx : ObjectIndex α) (h : idx.nextId ≤ id) : idx.find? id = none := by
  by_contra hne
  obtain ⟨a, ha⟩ := Option.ne_none_iff_exists'.mp hne
  exact absurd (lt_nextId ha) (not_lt.mpr h)

@[simp] lemma find?_empty : (empty : ObjectIndex α).find? id = none := rfl

lemma find?_create (idx : ObjectIndex α) (a : α) (q : Nat) :
    (idx.create a).find? q = if q = idx.nextId then some a else idx.find? q := by
  apply Option.ext
  intro b
  rw [mem_entries]
  change (q, b) ∈ idx.rows.entries ++ [(idx.nextId, a)] ↔ _
  rw [mem_append, mem_singleton, ← mem_entries, Prod.mk.injEq]
  by_cases hq : q = idx.nextId
  · have hnone := find?_nextId_le idx (le_of_eq hq.symm)
    rw [if_pos hq, hnone]
    simp [hq, eq_comm]
  · simp [hq]

lemma find?_create_cases (h : (idx.create a).find? id = some b) :
    b = a ∨ idx.find? id = some b := by
  rw [find?_create] at h
  split at h
  · exact .inl (Option.some.inj h).symm
  · exact .inr h

lemma find?_modify (idx : ObjectIndex α) (id : Nat) (f : α → α) (q : Nat) :
    (idx.modify id f).find? q = if q = id then (idx.find? q).map f else idx.find? q := by
  change (idx.rows.mapVal _).find? q = _
  rw [find?_mapVal]
  change (idx.find? q).map _ = _
  by_cases hq : q = id
  · simp [hq]
  · simp [hq]

lemma find?_remove (idx : ObjectIndex α) (id q : Nat) :
    (idx.remove id).find? q = if q = id then none else idx.find? q :=
  find?_erase _ _ _

end Lookups

variable {κ : Type} {key : α → κ} {idx idx' idx'' : ObjectIndex α} {id : Nat} {a b : α}

def Unique (key : α → κ) (idx : ObjectIndex α) : Prop :=
  ∀ i j a b, idx.find? i = some a → idx.find? j = some b → key a = key b → i = j

lemma Unique.create (h : Unique key idx)
    (hnew : ∀ id b, idx.find? id = some b → key b ≠ key a) : Unique key (idx.create a) := by
  intro i j x y hx hy hxy
  rw [find?_create] at hx hy
  by_cases hi : i = idx.nextId
  · by_cases hj : j = idx.nextId
    · exact hi.trans hj.symm
    rw [if_pos hi] at hx
    rw [if_neg hj] at hy
    cases hx
    exact absurd hxy.symm (hnew j y hy)
  rw [if_neg hi] at hx
  by_cases hj : j = idx.nextId
  · rw [if_pos hj] at hy
    cases hy
    exact absurd hxy (hnew i x hx)
  · rw [if_neg hj] at hy
    exact h i j x y hx hy hxy

structure Kept (key : α → κ) (idx idx' : ObjectIndex α) : Prop where
  le : idx.nextId ≤ idx'.nextId
  old : ∀ id b, id < idx.nextId → idx'.find? id = some b →
    ∃ a, idx.find? id = some a ∧ key a = key b

lemma Kept.refl (key : α → κ) (idx : ObjectIndex α) : Kept key idx idx :=
  ⟨le_refl _, fun _ b _ hb => ⟨b, hb, rfl⟩⟩

lemma Kept.trans (h : Kept key idx idx') (h' : Kept key idx' idx'') : Kept key idx idx'' := by
  refine ⟨le_trans h.le h'.le, ?_⟩
  intro id c hid hc
  obtain ⟨b, hb, hbc⟩ := h'.old id c (lt_of_lt_of_le hid h.le) hc
  obtain ⟨a, ha, hab⟩ := h.old id b hid hb
  exact ⟨a, ha, hab.trans hbc⟩

lemma Kept.create (key : α → κ) (idx : ObjectIndex α) (a : α) : Kept key idx (idx.create a) := by
  refine ⟨Nat.le_succ _, ?_⟩
  intro id b hid hb
  rw [find?_create, if_neg (Nat.ne_of_lt hid)] at hb
  exact ⟨b, hb, rfl⟩

lemma Kept.modify (ha : idx.find? id = some a) (hkey : key a = key b) :
    Kept key idx (idx.modify id fun _ => b) := by
  refine ⟨Nat.le_refl _, ?_⟩
  intro i c _ hc
  rw [find?_modify] at hc
  split at hc
  · rename_i hi
    obtain ⟨-, -, rfl⟩ := Option.map_eq_some_iff.mp hc
    exact ⟨a, hi ▸ ha, hkey⟩
  · exact ⟨c, hc, rfl⟩

lemma Kept.remove (key : α → κ) (idx : ObjectIndex α) (id : Nat) :
    Kept key idx (idx.remove id) := by
  refine ⟨le_refl _, ?_⟩
  intro i b _ hb
  rw [find?_remove] at hb
  split at hb
  · cases hb
  · exact ⟨b, hb, rfl⟩

lemma Kept.unique (h : Kept key idx idx') (hnext : idx'.nextId = idx.nextId)
    (hunique : Unique key idx) : Unique key idx' := by
  intro i j x y hx hy hxy
  obtain ⟨a, ha, hax⟩ := h.old i x (hnext ▸ lt_nextId hx) hx
  obtain ⟨b, hb, hby⟩ := h.old j y (hnext ▸ lt_nextId hy) hy
  exact hunique i j a b ha hb (hax.trans (hxy.trans hby.symm))

lemma Kept.of_both (h : Kept key idx idx') (ha : idx.find? id = some a)
    (hb : idx'.find? id = some b) : key a = key b := by
  obtain ⟨a', ha', hab⟩ := h.old id b (lt_nextId ha) hb
  rw [ha] at ha'
  cases ha'
  exact hab

end ObjectIndex

/-- The rows that a session has changed and removed, as they were, and the ids it has added. -/
structure UndoState (α : Type) where
  oldValues : FlatMap Nat α := .empty
  removedValues : FlatMap Nat α := .empty
  newIds : List Nat := []

def UndoState.isEmpty {α : Type} (undo : UndoState α) : Bool :=
  undo.oldValues.entries.isEmpty && undo.newIds.isEmpty && undo.removedValues.entries.isEmpty

/-- The record lists what differs between the two indices. A row that was written without a
difference may be among the changed ones. -/
structure UndoState.Records {α : Type} (undo : UndoState α) (before after : ObjectIndex α) :
    Prop where
  old : ∀ id a, undo.oldValues.find? id = some a →
    before.find? id = some a ∧ ∃ b, after.find? id = some b
  changed : ∀ id a b, before.find? id = some a → after.find? id = some b →
    undo.oldValues.find? id = none → a = b
  removed : ∀ id a, undo.removedValues.find? id = some a ↔
    before.find? id = some a ∧ after.find? id = none
  created : ∀ id, id ∈ undo.newIds ↔ before.find? id = none ∧ ∃ b, after.find? id = some b
  nodup : undo.newIds.Nodup

def FlatMap.keep {α : Type} (m : FlatMap Nat α) (p : Nat → Bool) : FlatMap Nat α :=
  ⟨m.entries.filter fun e => p e.1, m.sorted.sublist (List.filter_sublist.map _)⟩

lemma FlatMap.find?_keep {α : Type} {m : FlatMap Nat α} {p : Nat → Bool} {id : Nat} {a : α} :
    (m.keep p).find? id = some a ↔ m.find? id = some a ∧ p id = true := by
  rw [find?_eq_some, find?_eq_some]
  exact mem_filter

def UndoState.between {α : Type} (before after : ObjectIndex α) : UndoState α where
  oldValues := before.rows.keep fun id => (after.find? id).isSome
  removedValues := before.rows.keep fun id => (after.find? id).isNone
  newIds := (after.rows.entries.map Prod.fst).filter fun id => (before.find? id).isNone

lemma UndoState.between_records {α : Type} (before after : ObjectIndex α) :
    (between before after).Records before after where
  old id a h := by
    rw [between, find?_keep, Option.isSome_iff_exists] at h
    exact h
  changed id a b ha hb h := by
    have hold : (between before after).oldValues.find? id = some a :=
      find?_keep.mpr ⟨ha, by rw [hb]; rfl⟩
    rw [h] at hold
    cases hold
  removed id a := by
    rw [between, find?_keep, Option.isNone_iff_eq_none]
    rfl
  created id := by
    rw [between, mem_filter, mem_map, Option.isNone_iff_eq_none, and_comm]
    refine and_congr_right fun _ => ?_
    constructor
    · rintro ⟨e, he, rfl⟩
      exact ⟨e.2, ObjectIndex.mem_entries.mpr he⟩
    · rintro ⟨b, hb⟩
      exact ⟨(id, b), ObjectIndex.mem_entries.mp hb, rfl⟩
  nodup := by
    have hnodup : (after.rows.entries.map Prod.fst).Nodup :=
      after.rows.sorted.imp fun hlt => ne_of_lt hlt
    exact hnodup.filter _

end DimensionChain
