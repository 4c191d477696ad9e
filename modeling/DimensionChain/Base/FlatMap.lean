import Mathlib

/-!
# Sorted association maps

The entries of a `FlatMap` are kept in strictly increasing key order, so a map is
determined by its lookups and a key is stored at most once. The counting rule
`countP_set` is what an argument about "how many stored values are below a bound"
needs when one key is overwritten.
-/

namespace DimensionChain

open List

universe u v

structure FlatMap (κ : Type u) (ν : Type v) [LinearOrder κ] where
  entries : List (κ × ν)
  sorted : (entries.map Prod.fst).Pairwise (· < ·)

namespace FlatMap
variable {κ : Type u} {ν : Type v} [LinearOrder κ] {k : κ} {v : ν} {es : List (κ × ν)}

def empty : FlatMap κ ν := ⟨[], List.Pairwise.nil⟩

instance : Inhabited (FlatMap κ ν) := ⟨empty⟩

def size (m : FlatMap κ ν) : Nat := m.entries.length

def values (m : FlatMap κ ν) : List ν := m.entries.map Prod.snd

def find? (m : FlatMap κ ν) (k : κ) : Option ν :=
  (m.entries.find? fun e => e.1 = k).map Prod.snd

def setEntry (k : κ) (v : ν) : List (κ × ν) → List (κ × ν)
  | [] => [(k, v)]
  | e :: es =>
    if k < e.1 then (k, v) :: e :: es
    else if k = e.1 then (k, v) :: es
    else e :: setEntry k v es

lemma mem_setEntry (hs : (es.map Prod.fst).Pairwise (· < ·))
    (e : κ × ν) : e ∈ setEntry k v es ↔ e = (k, v) ∨ (e ∈ es ∧ e.1 ≠ k) := by
  induction es with
  | nil => simp [setEntry]
  | cons a es ih =>
    rw [map_cons, pairwise_cons] at hs
    have hlater : ∀ b ∈ es, a.1 < b.1 := fun b hb => hs.1 b.1 (mem_map_of_mem hb)
    unfold setEntry
    split
    · rename_i hlt
      -- every stored key is above `k`, so the side condition is free
      have hne : ∀ b ∈ a :: es, b.1 ≠ k := by
        intro b hb
        rcases mem_cons.mp hb with rfl | hb
        · exact ne_of_gt hlt
        · exact ne_of_gt (lt_trans hlt (hlater b hb))
      rw [mem_cons]
      exact or_congr_right ⟨fun h => ⟨h, hne e h⟩, fun h => h.1⟩
    split
    · rename_i hk
      have hne : ∀ b ∈ es, b.1 ≠ k := fun b hb => hk ▸ ne_of_gt (hlater b hb)
      simp only [mem_cons]
      constructor
      · rintro (h | h)
        · exact .inl h
        · exact .inr ⟨.inr h, hne e h⟩
      rintro (h | ⟨rfl | h, hn⟩)
      · exact .inl h
      · exact absurd hk.symm hn
      · exact .inr h
    rename_i hk
    simp only [mem_cons, ih hs.2]
    constructor
    · rintro (rfl | h | h)
      · exact .inr ⟨.inl rfl, Ne.symm hk⟩
      · exact .inl h
      · exact .inr ⟨.inr h.1, h.2⟩
    rintro (h | ⟨rfl | h, hn⟩)
    · exact .inr (.inl h)
    · exact .inl rfl
    · exact .inr (.inr ⟨h, hn⟩)

lemma setEntry_sorted (k : κ) (v : ν) (hs : (es.map Prod.fst).Pairwise (· < ·)) :
    ((setEntry k v es).map Prod.fst).Pairwise (· < ·) := by
  induction es with
  | nil => simp [setEntry]
  | cons a es ih =>
    rw [map_cons, pairwise_cons] at hs
    unfold setEntry
    split
    · rename_i hlt
      simp only [map_cons, pairwise_cons, mem_cons, forall_eq_or_imp]
      exact ⟨⟨hlt, fun x hx => lt_trans hlt (hs.1 x hx)⟩, hs.1, hs.2⟩
    split
    · rename_i hk
      rw [map_cons, pairwise_cons]
      exact ⟨fun x hx => hk ▸ hs.1 x hx, hs.2⟩
    rename_i hlt hk
    rw [map_cons, pairwise_cons]
    refine ⟨?_, ih hs.2⟩
    intro x hx
    obtain ⟨b, hb, rfl⟩ := mem_map.mp hx
    rcases (mem_setEntry hs.2 b).mp hb with rfl | ⟨hb, _⟩
    · exact lt_of_le_of_ne (not_lt.mp hlt) (Ne.symm hk)
    · exact hs.1 b.1 (mem_map_of_mem hb)

def set (m : FlatMap κ ν) (k : κ) (v : ν) : FlatMap κ ν :=
  ⟨setEntry k v m.entries, setEntry_sorted k v m.sorted⟩

def erase (m : FlatMap κ ν) (k : κ) : FlatMap κ ν :=
  ⟨m.entries.filter fun e => e.1 ≠ k, m.sorted.sublist (List.filter_sublist.map _)⟩

variable {m : FlatMap κ ν} {p : κ × ν → Bool} {e : κ × ν} {ν' : Type*}

lemma mem_set (e : κ × ν) : e ∈ (m.set k v).entries ↔ e = (k, v) ∨ (e ∈ m.entries ∧ e.1 ≠ k) :=
  mem_setEntry m.sorted e

lemma mem_erase (e : κ × ν) : e ∈ (m.erase k).entries ↔ e ∈ m.entries ∧ e.1 ≠ k := by
  simp [erase]

lemma eq_of_mem {a b : κ × ν} (ha : a ∈ m.entries) (hb : b ∈ m.entries)
    (hk : a.1 = b.1) : a = b := by
  have hnd : (m.entries.map Prod.fst).Nodup := m.sorted.imp fun h => ne_of_lt h
  exact inj_on_of_nodup_map hnd ha hb hk

lemma find?_eq_some : m.find? k = some v ↔ (k, v) ∈ m.entries := by
  unfold find?
  constructor
  · intro h
    obtain ⟨e, he, rfl⟩ := Option.map_eq_some_iff.mp h
    have hk : e.1 = k := by simpa using List.find?_some he
    subst hk
    exact mem_of_find?_eq_some he
  intro h
  cases hf : m.entries.find? fun e => e.1 = k with
  | none => simpa using List.find?_eq_none.mp hf _ h
  | some e =>
    have hk : e.1 = k := by simpa using List.find?_some hf
    have he := eq_of_mem (mem_of_find?_eq_some hf) h hk
    simp [he]

lemma find?_set (m : FlatMap κ ν) (k : κ) (v : ν) (q : κ) :
    (m.set k v).find? q = if q = k then some v else m.find? q := by
  apply Option.ext
  intro w
  rw [find?_eq_some, mem_set]
  split
  · rename_i hq
    subst hq
    simp [eq_comm]
  · rename_i hq
    simp [hq, find?_eq_some]

lemma find?_erase (m : FlatMap κ ν) (k q : κ) :
    (m.erase k).find? q = if q = k then none else m.find? q := by
  apply Option.ext
  intro w
  rw [find?_eq_some, mem_erase]
  split
  · rename_i hq
    simp [hq]
  · rename_i hq
    simp [hq, find?_eq_some]

lemma find?_store (m : FlatMap κ ν) (k : κ) (v : ν) (c : Prop) [Decidable c] (q : κ) :
    (if c then m.erase k else m.set k v).find? q =
      if q = k then (if c then none else some v) else m.find? q := by
  by_cases hc : c
  · rw [if_pos hc, if_pos hc, find?_erase]
  · rw [if_neg hc, if_neg hc, find?_set]

section Rows
variable {P : κ → ν → Prop} {c : Prop}

lemma forall_store [Decidable c] (hP : ∀ q w, m.find? q = some w → P q w) (hv : ¬ c → P k v) :
    ∀ q w, (if c then m.erase k else m.set k v).find? q = some w → P q w := by
  intro q w h
  rw [find?_store] at h
  by_cases hq : q = k
  · subst hq
    rw [if_pos rfl] at h
    split at h
    · cases h
    · rename_i hc
      cases h
      exact hv hc
  · rw [if_neg hq] at h
    exact hP q w h

variable (hP : ∀ q w, m.find? q = some w → P q w) {M : Type*}
include hP

lemma forall_set (hv : P k v) : ∀ q w, (m.set k v).find? q = some w → P q w :=
  forall_store (c := False) hP fun _ => hv

lemma forall_erase : ∀ q w, (m.erase k).find? q = some w → P q w := by
  intro q w h
  rw [find?_erase] at h
  split at h
  · cases h
  · exact hP q w h

omit hP

lemma lookup_store [Zero M] [Decidable c] (g : ν → M) (hc : c → g v = 0) (q : κ) :
    (((if c then m.erase k else m.set k v).find? q).map g).getD 0 =
      if q = k then g v else ((m.find? q).map g).getD 0 := by
  rw [find?_store]
  by_cases hq : q = k
  · rw [if_pos hq, if_pos hq]
    split
    · rename_i h
      exact (hc h).symm
    · rfl
  · rw [if_neg hq, if_neg hq]

lemma lookup_set [Zero M] (g : ν → M) (q : κ) :
    (((m.set k v).find? q).map g).getD 0 = if q = k then g v else ((m.find? q).map g).getD 0 :=
  lookup_store (c := False) g False.elim q

end Rows

lemma nodup (m : FlatMap κ ν) : m.entries.Nodup := by
  have hkeys : (m.entries.map Prod.fst).Nodup := m.sorted.imp fun h => ne_of_lt h
  exact List.Nodup.of_map Prod.fst hkeys

lemma perm_set (m : FlatMap κ ν) (k : κ) (v : ν) :
    (m.set k v).entries.Perm ((k, v) :: (m.erase k).entries) := by
  have hnew : (k, v) ∉ (m.erase k).entries := fun h => (mem_erase (k, v)).mp h |>.2 rfl
  rw [perm_ext_iff_of_nodup (nodup _) (nodup_cons.mpr ⟨hnew, nodup _⟩)]
  intro e
  rw [mem_set, mem_cons, mem_erase]

lemma perm_erase (h : m.find? k = some v) : m.entries.Perm ((k, v) :: (m.erase k).entries) := by
  have hmem := find?_eq_some.mp h
  have hnew : (k, v) ∉ (m.erase k).entries := fun h => (mem_erase (k, v)).mp h |>.2 rfl
  rw [perm_ext_iff_of_nodup (nodup _) (nodup_cons.mpr ⟨hnew, nodup _⟩)]
  intro e
  rw [mem_cons, mem_erase]
  constructor
  · intro he
    by_cases hk : e.1 = k
    · exact .inl (eq_of_mem he hmem hk)
    · exact .inr ⟨he, hk⟩
  · rintro (rfl | ⟨he, -⟩)
    · exact hmem
    · exact he

lemma erase_of_none (h : m.find? k = none) : (m.erase k).entries = m.entries := by
  refine filter_eq_self.mpr fun e he => ?_
  have hne : e.1 ≠ k := by
    rintro rfl
    rw [find?_eq_some.mpr he] at h
    cases h
  exact decide_eq_true hne

lemma countP_set (m : FlatMap κ ν) (k : κ) (v : ν) (p : κ × ν → Bool) :
    (m.set k v).entries.countP p =
      m.entries.countP (fun e => p e && decide (e.1 ≠ k)) + if p (k, v) then 1 else 0 := by
  rw [(m.perm_set k v).countP_eq, countP_cons]
  unfold erase
  rw [countP_filter]

lemma countP_set_add (m : FlatMap κ ν) (k : κ) (v : ν) (p : κ × ν → Bool) :
    (m.set k v).entries.countP p + (if (m.find? k).any fun old => p (k, old) then 1 else 0) =
      m.entries.countP p + if p (k, v) then 1 else 0 := by
  rw [(m.perm_set k v).countP_eq, countP_cons]
  cases h : m.find? k with
  | none =>
    rw [erase_of_none h]
    simp
  | some old =>
    rw [(perm_erase h).countP_eq, countP_cons]
    simp only [Option.any_some]
    omega

def setAll (m : FlatMap κ ν) (es : List (κ × ν)) : FlatMap κ ν :=
  es.foldl (fun m e => m.set e.1 e.2) m

lemma size_set_le (m : FlatMap κ ν) (k : κ) (v : ν) : (m.set k v).size ≤ m.size + 1 := by
  have hperm := (m.perm_set k v).length_eq
  have herase := length_filter_le (fun e : κ × ν => e.1 ≠ k) m.entries
  rw [length_cons] at hperm
  change (m.erase k).entries.length ≤ m.size at herase
  change (m.set k v).entries.length ≤ m.size + 1
  omega

lemma size_set_lt (h : (m.find? k).isSome) : (m.set k v).size < m.size + 1 := by
  obtain ⟨w, hw⟩ := Option.isSome_iff_exists.mp h
  have hold := (perm_erase hw).length_eq
  have hnew := (m.perm_set k v).length_eq
  rw [length_cons] at hold hnew
  change (m.set k v).entries.length < m.entries.length + 1
  omega

lemma size_setAll_le (m : FlatMap κ ν) (es : List (κ × ν)) :
    (m.setAll es).size ≤ m.size + es.length := by
  induction es generalizing m with
  | nil => exact Nat.le_refl _
  | cons e es ih =>
    have hset := size_set_le m e.1 e.2
    have hrest := ih (m.set e.1 e.2)
    change ((m.set e.1 e.2).setAll es).size ≤ m.size + (es.length + 1)
    omega

lemma find?_setAll (hsize : (m.setAll es).size = m.size + es.length) :
    (∀ e ∈ es, (m.setAll es).find? e.1 = some e.2) ∧
      ∀ q w, m.find? q = some w → (m.setAll es).find? q = some w := by
  induction es generalizing m with
  | nil => exact ⟨fun e he => absurd he not_mem_nil, fun q w h => h⟩
  | cons e es ih =>
    have hstep : m.setAll (e :: es) = (m.set e.1 e.2).setAll es := rfl
    have hle := size_setAll_le (m.set e.1 e.2) es
    rw [hstep, length_cons] at hsize
    have hfresh : m.find? e.1 = none := by
      by_contra hsome
      have hlt := size_set_lt (v := e.2) (Option.isSome_iff_ne_none.mpr hsome)
      omega
    have hset := size_set_le m e.1 e.2
    obtain ⟨hes, hkeep⟩ := ih (m := m.set e.1 e.2) (by omega)
    refine ⟨fun a ha => ?_, fun q w hq => ?_⟩
    · rcases mem_cons.mp ha with rfl | ha
      · exact hkeep _ _ (by rw [find?_set, if_pos rfl])
      · exact hes a ha
    apply hkeep
    rw [find?_set, if_neg, hq]
    rintro rfl
    rw [hfresh] at hq
    cases hq

lemma find?_setAll_eq_none :
    (m.setAll es).find? k = none ↔ m.find? k = none ∧ ∀ e ∈ es, e.1 ≠ k := by
  induction es generalizing m with
  | nil => exact ⟨fun h => ⟨h, fun e he => absurd he not_mem_nil⟩, fun h => h.1⟩
  | cons e es ih =>
    change ((m.set e.1 e.2).setAll es).find? k = none ↔ _
    rw [ih, find?_set, forall_mem_cons]
    by_cases hk : k = e.1
    · simp [hk]
    · simp [hk, Ne.symm hk]

lemma find?_setAll_empty (hsize : (empty.setAll es).size = es.length) :
    ∀ e ∈ es, (empty.setAll es).find? e.1 = some e.2 :=
  (find?_setAll (m := empty) (hsize.trans (Nat.zero_add _).symm)).1

def dropWhile (p : κ × ν → Bool) (m : FlatMap κ ν) : FlatMap κ ν :=
  ⟨m.entries.dropWhile p, m.sorted.sublist ((List.dropWhile_sublist p).map _)⟩

lemma mem_of_mem_dropWhile (h : e ∈ (m.dropWhile p).entries) : e ∈ m.entries :=
  (dropWhile_sublist p).subset h

lemma mem_dropWhile (he : e ∈ m.entries) (hp : p e = false) : e ∈ (m.dropWhile p).entries := by
  rw [← takeWhile_append_dropWhile (p := p) (l := m.entries)] at he
  rcases mem_append.mp he with htake | hdrop
  · have htrue := mem_takeWhile_imp htake
    rw [hp] at htrue
    cases htrue
  · exact hdrop

def mapVal {ν' : Type*} (f : κ → ν → ν') (m : FlatMap κ ν) : FlatMap κ ν' :=
  ⟨m.entries.map fun e => (e.1, f e.1 e.2), by
    rw [List.map_map]
    exact m.sorted⟩

lemma mem_mapVal {f : κ → ν → ν'} (e : κ × ν') :
    e ∈ (m.mapVal f).entries ↔ ∃ v, (e.1, v) ∈ m.entries ∧ e.2 = f e.1 v := by
  unfold mapVal
  rw [mem_map]
  constructor
  · rintro ⟨⟨k, v⟩, h, rfl⟩
    exact ⟨v, h, rfl⟩
  · rintro ⟨v, h, hv⟩
    exact ⟨(e.1, v), h, Prod.ext rfl hv.symm⟩

lemma find?_mapVal (f : κ → ν → ν') (m : FlatMap κ ν) (k : κ) :
    (m.mapVal f).find? k = (m.find? k).map (f k) := by
  apply Option.ext
  intro w
  rw [find?_eq_some, mem_mapVal, Option.map_eq_some_iff]
  constructor
  · rintro ⟨v, hv, hw⟩
    exact ⟨v, find?_eq_some.mpr hv, hw.symm⟩
  · rintro ⟨v, hv, hw⟩
    exact ⟨v, find?_eq_some.mp hv, hw.symm⟩

end FlatMap

end DimensionChain
