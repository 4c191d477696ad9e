import Mathlib

/-!
# Runs with their visited states

`Trace R s bs t` is a run of `R`-steps from `s` to `t` that visits the states `bs` after
`s`, in order. An invariant may speak about the visited states as well as about the last
one.
-/

namespace DimensionChain

universe u
variable {α : Type u}

inductive Trace (R : α → α → Prop) : α → List α → α → Prop where
  | nil (s : α) : Trace R s [] s
  | snoc {s t r : α} {bs : List α} : Trace R s bs t → R t r → Trace R s (bs ++ [r]) r

namespace Trace
variable {R : α → α → Prop} {s t r : α} {bs cs : List α}

lemma reach (h : Trace R s bs t) : Relation.ReflTransGen R s t := by
  induction h with
  | nil => exact .refl
  | snoc _ hstep ih => exact .tail ih hstep

lemma cons (hstep : R s t) (h : Trace R t bs r) : Trace R s (t :: bs) r := by
  induction h with
  | nil => exact .snoc (.nil s) hstep
  | snoc _ h' ih => exact .snoc ih h'

lemma last_eq (h : Trace R s bs t) : t = bs.getLast?.getD s := by
  cases h with
  | nil => rfl
  | snoc _ _ => simp

lemma split {pre post : List α} (h : Trace R s bs t) (hbs : bs = pre ++ r :: post) :
    ∃ m, Trace R s pre m ∧ R m r ∧ Trace R r post t := by
  induction h generalizing post with
  | nil => simp at hbs
  | @snoc t x bs h' hx ih =>
    rcases List.eq_nil_or_concat post with rfl | ⟨post', y, rfl⟩
    · obtain ⟨rfl, hxr⟩ := List.append_inj' hbs (by simp)
      have hxr' : x = r := by simpa using hxr
      subst hxr'
      exact ⟨t, h', hx, .nil x⟩
    have hbs' : bs ++ [x] = (pre ++ r :: post') ++ [y] := by simpa using hbs
    obtain ⟨hb, hy⟩ := List.append_inj' hbs' (by simp)
    have hxy : x = y := by simpa using hy
    subst hxy
    obtain ⟨m, h1, h2, h3⟩ := ih hb
    rw [List.concat_eq_append]
    exact ⟨m, h1, h2, .snoc h3 hx⟩

end Trace

end DimensionChain
