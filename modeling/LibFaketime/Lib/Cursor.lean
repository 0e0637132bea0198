import Mathlib.Computability.StateTransition
import Mathlib.Data.List.Basic

/-!
# Running along a buffer

A loop over a buffer moves a cursor, one element a turn, and some loops write on the way what is
behind the cursor. Two things recur in the proofs about them. A turn that is repeated leads from
the first state to the last (`Cursor.reaches_of_forall`), and of what has been written over the
beginning of a buffer only the length matters for the rest of it (`Cursor.overwrite`).
-/

namespace Cursor

open StateTransition

/-! ### Deterministic runs -/

section Runs

variable {σ : Type} {f : σ → Option σ} {a b c : σ}

/-- A state for each turn, and a step from each to the next one. -/
theorem reaches_of_forall (g : ℕ → σ) (n : ℕ) (h : ∀ i < n, f (g i) = some (g (i + 1))) :
    Reaches f (g 0) (g n) := by
  induction n with
  | zero => exact Relation.ReflTransGen.refl
  | succ n ih => exact (ih fun i hi => h i (by omega)).tail (h n (by omega))

theorem reaches_step (h : f a = some b) : Reaches f a b := Relation.ReflTransGen.single h

/-- **What every step keeps holds in every state that is reached.** -/
theorem invariant_of_reaches {Inv : σ → Prop} (hstep : ∀ a b, Inv a → f a = some b → Inv b)
    (ha : Inv a) (h : Reaches f a b) : Inv b := by
  induction h with
  | refl => exact ha
  | tail _ hbc ih => exact hstep _ _ ih hbc

/-- **A run that comes to an end passes through every state that is reached.** -/
theorem reaches_last (hab : Reaches f a b) (hb : f b = none) (hac : Reaches f a c) :
    Reaches f c b := by
  rcases reaches_total hab hac with hbc | hcb
  · rcases Relation.ReflTransGen.cases_head hbc with rfl | ⟨d, hd, -⟩
    · exact Relation.ReflTransGen.refl
    · exact absurd (hb.symm.trans hd) (by simp)
  · exact hcb

/-- A state that is reached is the last one, or there is a next one. -/
theorem eq_or_isSome_of_reaches (hab : Reaches f a b) (hb : f b = none) (hac : Reaches f a c) :
    c = b ∨ (f c).isSome = true := by
  rcases Relation.ReflTransGen.cases_head (reaches_last hab hb hac) with rfl | ⟨d, hd, -⟩
  · exact Or.inl rfl
  · exact Or.inr (by rw [hd]; rfl)

end Runs

/-! ### Writing over the beginning -/

section Over

variable {α : Type} {out l : List α} {i : ℕ} {x : α}

/-- **The buffer `l` with `out` written over its beginning.** -/
def overwrite (out l : List α) : List α := out ++ l.drop out.length

@[simp] theorem overwrite_nil (l : List α) : overwrite [] l = l := rfl

theorem overwrite_append (out l : List α) : overwrite out (out ++ l) = out ++ l := by
  rw [overwrite, List.drop_left]

/-- Behind what has been written nothing has changed. -/
theorem getElem?_overwrite (h : out.length ≤ i) : (overwrite out l)[i]? = l[i]? := by
  rw [overwrite, List.getElem?_append_right h, List.getElem?_drop, Nat.add_sub_cancel' h]

theorem length_overwrite (h : out.length ≤ l.length) : (overwrite out l).length = l.length := by
  rw [overwrite, List.length_append, List.length_drop]
  omega

/-- One more element. -/
theorem set_overwrite (h : out.length < l.length) :
    (overwrite out l).set out.length x = overwrite (out ++ [x]) l := by
  rw [overwrite, overwrite, List.set_append_right _ _ le_rfl, Nat.sub_self,
    List.drop_eq_getElem_cons h, List.set_cons_zero, List.length_append, List.append_assoc]
  rfl

end Over

end Cursor
