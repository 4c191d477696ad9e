import Mathlib

/-!
# Runs of labelled steps

`Steps R s es t` is a run from `s` to `t`; `es` has the state before each step, its label and the
state after it. An invariant that no step breaks holds at the end. A property that a step keeps
exactly under some condition holds throughout a run exactly when each step meets that condition.
`replay` computes the runs of a step function.
-/

namespace DimensionChain

open List

universe u v
variable {α : Type u} {ι : Type v}

inductive Steps (R : α → ι → α → Prop) : α → List (α × ι × α) → α → Prop where
  | nil (s : α) : Steps R s [] s
  | snoc {s t r : α} {i : ι} {es : List (α × ι × α)} :
      Steps R s es t → R t i r → Steps R s (es ++ [(t, i, r)]) r

namespace Steps
variable {R : α → ι → α → Prop} {s t : α} {es : List (α × ι × α)} {Q : α → Prop}

lemma invariant (hQ : ∀ {s i t}, Q s → R s i t → Q t) (h : Steps R s es t) (hs : Q s) : Q t := by
  induction h with
  | nil => exact hs
  | snoc _ hstep ih => exact hQ ih hstep

lemma forall_mem (hQ : ∀ {s i t}, Q s → R s i t → Q t) (h : Steps R s es t)
    (hs : Q s) : ∀ e ∈ es, Q e.1 ∧ R e.1 e.2.1 e.2.2 := by
  induction h with
  | nil =>
    intro e he
    cases he
  | snoc hrun hstep ih =>
    intro e he
    rcases mem_append.mp he with he | he
    · exact ih e he
    · obtain rfl := mem_singleton.mp he
      exact ⟨hrun.invariant hQ hs, hstep⟩

lemma of_visited {P : α → Prop} (h : Steps R s es t) (hs : P s) (hes : ∀ e ∈ es, P e.2.2) :
    P t := by
  cases h with
  | nil => exact hs
  | snoc _ _ => exact hes _ (mem_append_right _ (mem_singleton_self _))

lemma throughout_iff {P Q : α → Prop} {C : α → ι → Prop} (hQ : ∀ {s i t}, Q s → R s i t → Q t)
    (hP : ∀ {s i t}, Q s → P s → R s i t → (P t ↔ C s i)) (h : Steps R s es t) (hsQ : Q s)
    (hsP : P s) : (∀ e ∈ es, P e.2.2) ↔ ∀ e ∈ es, C e.1 e.2.1 := by
  induction h with
  | nil => simp
  | @snoc m r i es hrun hstep ih =>
    have hmQ : Q m := hrun.invariant hQ hsQ
    simp only [forall_mem_append, forall_mem_singleton]
    constructor
    · rintro ⟨hes, hr⟩
      exact ⟨ih.mp hes, (hP hmQ (hrun.of_visited hsP hes) hstep).mp hr⟩
    · rintro ⟨hes, hC⟩
      have hvisited := ih.mpr hes
      exact ⟨hvisited, (hP hmQ (hrun.of_visited hsP hvisited) hstep).mpr hC⟩

lemma pairwise {P : α × ι × α → α → Prop} {Q : α × ι × α → α × ι × α → Prop}
    (hnew : ∀ {s i t}, R s i t → P (s, i, t) t) (hkeep : ∀ {e s i t}, P e s → R s i t → P e t)
    (hQ : ∀ {e s i t}, P e s → R s i t → Q e (s, i, t)) (h : Steps R s es t) :
    es.Pairwise Q ∧ ∀ e ∈ es, P e t := by
  induction h with
  | nil => exact ⟨.nil, fun e he => nomatch he⟩
  | snoc _ hstep ih =>
    refine ⟨?_, ?_⟩
    · apply pairwise_append.mpr
      refine ⟨ih.1, pairwise_singleton _ _, ?_⟩
      intro e he e' he'
      obtain rfl := mem_singleton.mp he'
      exact hQ (ih.2 e he) hstep
    intro e he
    rcases mem_append.mp he with he | he
    · exact hkeep (ih.2 e he) hstep
    · obtain rfl := mem_singleton.mp he
      exact hnew hstep

def replay (f : α → ι → Option α) : α → List ι → Option α
  | s, [] => some s
  | s, i :: is => (f s i).bind fun t => replay f t is

lemma cons {i : ι} {r : α} (hstep : R s i t) (h : Steps R t es r) :
    Steps R s ((s, i, t) :: es) r := by
  induction h with
  | nil => exact .snoc (.nil _) hstep
  | snoc _ hlast ih => exact .snoc ih hlast

lemma of_replay {f : α → ι → Option α} (hf : ∀ {s i t}, f s i = some t → R s i t) {is : List ι}
    (h : replay f s is = some t) : ∃ es, Steps R s es t ∧ es.map (fun e => e.2.1) = is := by
  induction is generalizing s with
  | nil =>
    cases h
    exact ⟨[], .nil _, rfl⟩
  | cons i is ih =>
    obtain ⟨m, hm, hrest⟩ := Option.bind_eq_some_iff.mp h
    obtain ⟨es, hsteps, hlabels⟩ := ih hrest
    refine ⟨(s, i, m) :: es, cons (hf hm) hsteps, ?_⟩
    rw [map_cons, hlabels]

lemma of_foldl (f : α → ι → α) (s : α) (is : List ι) :
    ∃ es, Steps (fun s i t => t = f s i) s es (is.foldl f s) := by
  induction is generalizing s with
  | nil => exact ⟨[], .nil _⟩
  | cons i is ih =>
    obtain ⟨es, hsteps⟩ := ih (f s i)
    exact ⟨_, cons rfl hsteps⟩

end Steps

end DimensionChain
