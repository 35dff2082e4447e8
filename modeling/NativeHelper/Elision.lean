import Mathlib.Data.List.Basic

/-! # Computations with fewer checks

A computation with checks stops where one of them fails.  Without the checks it goes on, but where
they all succeed it returns the same: it is `Above` the one with checks.  This is compositional, so
a program is above another one if each part of it is. -/

namespace Elision

variable {ε α β : Type}

/-- `y` returns what `x` returns, if `x` does. -/
def Above (x y : Except ε α) : Prop := ∀ a, x = .ok a → y = .ok a

theorem Above.refl (x : Except ε α) : Above x x := fun _ h => h

theorem Above.of_error (e : ε) (y : Except ε α) : Above (.error e) y := by
  rintro a ⟨⟩

/-- In a sequence each part may have lost checks. -/
theorem Above.bind {x y : Except ε α} {f g : α → Except ε β} (h : Above x y)
    (hf : ∀ a, Above (f a) (g a)) : Above (x >>= f) (y >>= g) := by
  cases x with
  | error e => exact .of_error e _
  | ok a =>
      rw [h a rfl]
      exact hf a

theorem Above.bind_right (x : Except ε α) {f g : α → Except ε β} (hf : ∀ a, Above (f a) (g a)) :
    Above (x >>= f) (x >>= g) := (Above.refl x).bind hf

theorem Above.ite {c : Prop} [Decidable c] {x x' y y' : Except ε α} (h : Above x y)
    (h' : Above x' y') : Above (if c then x else x') (if c then y else y') := by
  by_cases hc : c
  · rw [if_pos hc, if_pos hc]
    exact h
  · rw [if_neg hc, if_neg hc]
    exact h'

/-- The same of every element of a list. -/
theorem Above.mapM {f g : β → Except ε α} (h : ∀ b, Above (f b) (g b)) (l : List β) :
    Above (l.mapM f) (l.mapM g) := by
  induction l with
  | nil => exact .refl _
  | cons b l ih =>
      rw [List.mapM_cons, List.mapM_cons]
      exact (h b).bind fun _ => ih.bind fun _ => .refl _

end Elision
