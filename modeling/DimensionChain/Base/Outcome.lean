import Mathlib

/-!
# Computations that keep their state when they throw

A procedure that throws leaves the state as it was at that point, and a handler goes on
from there. `forEach` is a loop whose body may throw.
-/

namespace DimensionChain

universe u v w

inductive Outcome (ε : Type u) (σ : Type v) where
  | ok (s : σ)
  | throw (e : ε) (s : σ)

namespace Outcome
variable {ε : Type u} {σ : Type v} {α : Type w} {x : Outcome ε σ} {c : Prop}

def state : Outcome ε σ → σ
  | ok s => s
  | throw _ s => s

def andThen (x : Outcome ε σ) (f : σ → Outcome ε σ) : Outcome ε σ :=
  match x with
  | ok s => f s
  | throw e s => throw e s

def handle (x : Outcome ε σ) (f : ε → σ → Outcome ε σ) : Outcome ε σ :=
  match x with
  | ok s => ok s
  | throw e s => f e s

def require (c : Prop) [Decidable c] (e : ε) (s : σ) : Outcome ε σ :=
  if c then ok s else throw e s

def forEach (f : α → σ → Outcome ε σ) : List α → σ → Outcome ε σ
  | [], s => ok s
  | a :: as, s => (f a s).andThen (forEach f as)

def okAnd (x : Outcome ε σ) (p : σ → Bool) : Bool :=
  match x with
  | ok s => p s
  | throw _ _ => false

/-- The procedure throws, and the exception and its state pass the test. -/
def throwAnd (x : Outcome ε σ) (p : ε → σ → Bool) : Bool :=
  match x with
  | ok _ => false
  | throw e s => p e s

lemma exists_ok_of_okAnd {p : σ → Bool} (h : x.okAnd p = true) : ∃ s, x = ok s ∧ p s = true := by
  cases x with
  | ok s => exact ⟨s, rfl, h⟩
  | throw e s => simp [okAnd] at h

lemma exists_throw_of_throwAnd {p : ε → σ → Bool}
    (h : x.throwAnd p = true) : ∃ e s, x = throw e s ∧ p e s = true := by
  cases x with
  | ok s => simp [throwAnd] at h
  | throw e s => exact ⟨e, s, rfl, h⟩

@[simp] lemma ok_andThen (s : σ) (f : σ → Outcome ε σ) : (ok s).andThen f = f s := rfl

@[simp] lemma throw_andThen (e : ε) (s : σ) (f : σ → Outcome ε σ) :
    (throw e s).andThen f = throw e s := rfl

@[simp] lemma ok_handle (s : σ) (f : ε → σ → Outcome ε σ) : (ok s).handle f = ok s := rfl

@[simp] lemma throw_handle (e : ε) (s : σ) (f : ε → σ → Outcome ε σ) :
    (throw e s).handle f = f e s := rfl

lemma require_pos [Decidable c] (hc : c) (e : ε) (s : σ) : require c e s = ok s :=
  if_pos hc

lemma require_neg [Decidable c] (hc : ¬ c) (e : ε) (s : σ) :
    require c e s = throw e s := if_neg hc

end Outcome

end DimensionChain
