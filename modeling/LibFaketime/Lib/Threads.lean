import Mathlib.Logic.Function.Basic
import Mathlib.Logic.Relation

/-!
# Threads with a state of their own

Any number of threads over one memory, each with a state of its own that only its own turns change.
What is claimed of the memory and of the thread at once need not survive the turns of the others by
itself: it is enough that a turn of one thread leaves every other one with what is claimed of it
(`Threads.reach_keeps`).
-/

namespace Threads

variable {T σ ρ : Type} [DecidableEq T]

/-- The memory, and the own state of every thread. -/
structure Pool (T σ ρ : Type) where
  mem : σ
  own : T → ρ

/-- **One turn of one thread.** -/
inductive Step (turn : T → σ × ρ → σ × ρ → Prop) : Pool T σ ρ → Pool T σ ρ → Prop
  | turn {c : Pool T σ ρ} {t : T} {m : σ} {r : ρ} (h : turn t (c.mem, c.own t) (m, r)) :
      Step turn c ⟨m, Function.update c.own t r⟩

/-- The pools any run reaches. -/
abbrev Reach (turn : T → σ × ρ → σ × ρ → Prop) : Pool T σ ρ → Pool T σ ρ → Prop :=
  Relation.ReflTransGen (Step turn)

variable {turn : T → σ × ρ → σ × ρ → Prop} {glob : σ → Prop} {loc : T → σ → ρ → Prop}
  {c c' : Pool T σ ρ}

/-- **What a turn keeps of the memory, of its thread and of every other one holds throughout.** -/
theorem reach_keeps
    (hturn : ∀ t m r m' r', glob m → loc t m r → turn t (m, r) (m', r') →
      glob m' ∧ loc t m' r' ∧ ∀ u, u ≠ t → ∀ q, loc u m q → loc u m' q)
    (hglob : glob c.mem) (hloc : ∀ t, loc t c.mem (c.own t)) (h : Reach turn c c') :
    glob c'.mem ∧ ∀ t, loc t c'.mem (c'.own t) := by
  induction h with
  | refl => exact ⟨hglob, hloc⟩
  | tail _ hstep ih =>
    obtain ⟨hg, hl⟩ := ih
    cases hstep with
    | @turn t m r hr =>
      obtain ⟨hg', hl', hothers⟩ := hturn t _ _ _ _ hg (hl t) hr
      refine ⟨hg', fun u => ?_⟩
      rcases eq_or_ne u t with rfl | hu
      · simp only [Function.update_self]
        exact hl'
      · simp only [Function.update_of_ne hu]
        exact hothers u hu _ (hl u)

end Threads
