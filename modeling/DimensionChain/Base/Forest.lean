import Mathlib

/-!
# Forests of numbered rows

A row carries its number and the number of its parent, and the row 0 is its own parent. Numbers
ascend, so that parents have smaller ones. `Grows S S' n` compares two tables of one history: the
rows of the later one with numbers below `n` have the parents that they had in the earlier one,
and so the same ancestors.
-/

namespace DimensionChain.Forest

open List

universe u
variable {α : Type u} (number parent : α → Nat)

def Child (S : List α) (i j : Nat) : Prop := ∃ a ∈ S, number a = i ∧ parent a = j

def Under (S : List α) : Nat → Nat → Prop := Relation.ReflTransGen (Child number parent S)

structure Grounded (S : List α) : Prop where
  unique : (S.map number).Nodup
  closed : ∀ a ∈ S, ∃ b ∈ S, number b = parent a
  descending : ∀ a ∈ S, number a ≠ 0 → parent a < number a
  root : ∀ a ∈ S, number a = 0 → parent a = 0

def Grows (S S' : List α) (n : Nat) : Prop :=
  ∀ a ∈ S', number a < n → Child number parent S (number a) (parent a)

variable {number parent} {S S' S'' : List α} {i j k n : Nat}

namespace Grounded

variable (h : Grounded number parent S)
include h

lemma eq_of_number {a b : α} (ha : a ∈ S) (hb : b ∈ S) (hab : number a = number b) : a = b :=
  inj_on_of_nodup_map h.unique ha hb hab

lemma snoc {a : α} (hnew : ∀ b ∈ S, number b < number a)
    (hparent : ∃ b ∈ S, number b = parent a) : Grounded number parent (S ++ [a]) := by
  obtain ⟨q, hq, hqa⟩ := hparent
  have hlt := hnew q hq
  constructor
  case unique =>
    rw [map_append]
    refine h.unique.append (nodup_singleton _) ?_
    intro i hi hi'
    obtain ⟨b, hb, rfl⟩ := mem_map.mp hi
    exact (hnew b hb).ne (mem_singleton.mp hi')
  case closed =>
    intro c hc
    rcases mem_append.mp hc with hold | hlast
    · obtain ⟨b, hb, hbc⟩ := h.closed c hold
      exact ⟨b, mem_append_left _ hb, hbc⟩
    · rw [mem_singleton.mp hlast]
      exact ⟨q, mem_append_left _ hq, hqa⟩
  case descending =>
    intro c hc hne
    rcases mem_append.mp hc with hold | hlast
    · exact h.descending c hold hne
    · rw [mem_singleton.mp hlast, ← hqa]
      exact hlt
  case root =>
    intro c hc hzero
    rcases mem_append.mp hc with hold | hlast
    · exact h.root c hold hzero
    · rw [mem_singleton.mp hlast] at hzero
      exact absurd hzero (Nat.ne_zero_of_lt hlt)

lemma parent_eq (hj : Child number parent S i j) (hk : Child number parent S i k) : j = k := by
  obtain ⟨a, ha, hai, rfl⟩ := hj
  obtain ⟨b, hb, hbi, rfl⟩ := hk
  rw [h.eq_of_number ha hb (hai.trans hbi.symm)]

lemma parent_le (hij : Child number parent S i j) : j ≤ i := by
  obtain ⟨a, ha, rfl, rfl⟩ := hij
  rcases Nat.eq_zero_or_pos (number a) with hzero | hpos
  · exact (h.root a ha hzero).trans_le (Nat.zero_le _)
  · exact (h.descending a ha hpos.ne').le

lemma under_le (hij : Under number parent S i j) : j ≤ i := by
  induction hij with
  | refl => exact le_rfl
  | tail _ hstep ih => exact (h.parent_le hstep).trans ih

lemma under_mem (hij : Under number parent S i j)
    (hi : ∃ a ∈ S, number a = i) : ∃ b ∈ S, number b = j := by
  induction hij with
  | refl => exact hi
  | tail _ hstep _ =>
    obtain ⟨a, ha, -, rfl⟩ := hstep
    exact h.closed a ha

lemma under_zero_iff : Under number parent S 0 j ↔ j = 0 := by
  constructor
  · intro hj
    exact Nat.le_zero.mp (h.under_le hj)
  · rintro rfl
    exact .refl

lemma under_iff_parent (hne : i ≠ j)
    (hik : Child number parent S i k) : Under number parent S i j ↔ Under number parent S k j := by
  constructor
  · intro hij
    rcases Relation.ReflTransGen.cases_head hij with heq | ⟨m, him, hmj⟩
    · exact absurd heq hne
    · rw [h.parent_eq hik him]
      exact hmj
  · intro hkj
    exact .head hik hkj

end Grounded

lemma Grows.under_iff (hgrow : Grows number parent S S' n) (hS : Grounded number parent S)
    (hS' : Grounded number parent S') (hi : ∃ a ∈ S', number a = i) (hn : i < n) :
    Under number parent S' i j ↔ Under number parent S i j := by
  induction i using Nat.strong_induction_on with
  | h i ih =>
    obtain ⟨a, ha, rfl⟩ := hi
    by_cases hij : number a = j
    · rw [hij]
      exact ⟨fun _ => .refl, fun _ => .refl⟩
    rcases Nat.eq_zero_or_pos (number a) with hzero | hpos
    · rw [hzero, hS.under_zero_iff, hS'.under_zero_iff]
    · have hlt := hS'.descending a ha hpos.ne'
      rw [hS'.under_iff_parent hij ⟨a, ha, rfl, rfl⟩, hS.under_iff_parent hij (hgrow a ha hn)]
      exact ih (parent a) hlt (hS'.closed a ha) (hlt.trans hn)

end DimensionChain.Forest
