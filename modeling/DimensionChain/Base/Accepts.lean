import Mathlib

/-!
# Acceptance of one computation by another

`Accepts y x`: whatever `x` returns, `y` returns too, while `y` may also return where `x`
throws. This is the order in which throwing is least, and every way of composing computations
is monotone for it.
-/

namespace DimensionChain

variable {ε α β : Type}

def ifThen (c : Prop) [Decidable c] (x : Except ε Unit) : Except ε Unit :=
  if c then x else .ok ()

def Accepts (y x : Except ε α) : Prop := ∀ a, x = .ok a → y = .ok a

namespace Accepts

lemma refl (x : Except ε α) : Accepts x x := fun _ h => h

lemma of_ok {y : Except ε Unit} (h : y = .ok ()) (x : Except ε Unit) : Accepts y x :=
  fun _ _ => h

lemma bind {x y : Except ε α} {f g : α → Except ε β} (h : Accepts y x)
    (hfg : ∀ a, x = .ok a → Accepts (g a) (f a)) : Accepts (y >>= g) (x >>= f) := by
  intro b hb
  cases hx : x with
  | error e =>
    rw [hx] at hb
    cases hb
  | ok a =>
    rw [hx] at hb
    rw [h a hx]
    exact hfg a hx b hb

lemma ifThen {c c' : Prop} [Decidable c] [Decidable c'] {x y : Except ε Unit} (hc : c' → c)
    (h : c' → Accepts y x) : Accepts (ifThen c' y) (ifThen c x) := by
  unfold DimensionChain.ifThen
  by_cases hc' : c'
  · rw [if_pos hc', if_pos (hc hc')]
    exact h hc'
  · rw [if_neg hc']
    exact of_ok rfl _

end Accepts

end DimensionChain
