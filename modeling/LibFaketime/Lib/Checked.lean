import Mathlib.Algebra.Order.Ring.Int
import Mathlib.Algebra.Order.Ring.Pow
import Mathlib.Order.Monotone.Basic
import Mathlib.Tactic.Linarith

/-!
# Checked arithmetic

Signed integers of a fixed width, in a language in which an operation whose exact result
they cannot hold has no meaning. An operation is computed exactly, and its result is put
through `Checked.checked`, which gives nothing if it does not fit; a computation of several
operations is a chain of them, and is defined if and only if every one of them is
(`Checked.bind_checked`).
-/

namespace Checked

variable {w w' : ℕ} {x y : ℤ} {α : Type*}

/-- A signed integer of `w` bits can hold `x`. -/
def Holds (w : ℕ) (x : ℤ) : Prop := -2 ^ (w - 1) ≤ x ∧ x < 2 ^ (w - 1)

instance (w : ℕ) (x : ℤ) : Decidable (Holds w x) := inferInstanceAs (Decidable (_ ∧ _))

/-- The result of an operation on signed integers of `w` bits. -/
def checked (w : ℕ) (x : ℤ) : Option ℤ := if Holds w x then some x else none

/-- **A chain of operations**: the next one, if this one is defined. -/
theorem bind_checked (f : ℤ → Option α) :
    (checked w x).bind f = if Holds w x then f x else none := by
  unfold checked
  split <;> rfl

/-- A wider integer holds what a narrower one does. -/
theorem Holds.mono (h : Holds w x) (hw : w ≤ w') : Holds w' x := by
  obtain ⟨h0, h1⟩ := h
  have hpow : (2 : ℤ) ^ (w - 1) ≤ 2 ^ (w' - 1) := pow_le_pow_right₀ (by decide) (by omega)
  exact ⟨by linarith, by linarith⟩

/-- What is between two numbers that can be held can be held. -/
theorem Holds.between {z : ℤ} (hx : Holds w x) (hz : Holds w z) (h : x ≤ y) (h' : y ≤ z) :
    Holds w y :=
  ⟨hx.1.trans h, lt_of_le_of_lt h' hz.2⟩

end Checked
