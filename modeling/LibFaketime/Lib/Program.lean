import Mathlib.Data.Nat.Notation
import Mathlib.Order.Notation
import Mathlib.Logic.Basic

/-!
# Programs over an interface of outside calls

A program that talks to its surroundings – memory it shares, locks, clocks, files –
is a tree: it has returned, or it makes one call and goes on according to the
answer. `Effects.Prog` is that tree over an `Effects.Interface`, the calls with the
type of their answers, and it is a monad, so that a program is written as the
source writes it.

The tree says nothing about what a call does. That is settled afterwards, and in
two ways from the same tree:

* **one program alone**, under a `Effects.Handler` that answers each call from a
  state of the world or stops the program (`Effects.Prog.run`);
* **under arbitrary answers**, where a call may be answered in any way a relation
  allows and only an invariant of the state is kept (`Effects.Prog.Keeps`). The
  rules for it are those of a program logic without preconditions: what a program
  knows, it knows from the answers it got.

Often it is enough to know which calls a program makes at all, whatever the answers
are: `Effects.Prog.Uses`.

Several programs taking turns are the subject of a file of their own.
-/

namespace Effects

/-- The calls a program can make, and the type of the answer to each. -/
structure Interface where
  /-- The calls. -/
  Op : Type
  /-- The answers to a call. -/
  Ans : Op → Type

/-- **A program**: it has returned, or it makes a call and goes on with the
answer. -/
inductive Prog (I : Interface) (α : Type) : Type
  /-- The program has returned. -/
  | ret (a : α) : Prog I α
  /-- The program makes a call. -/
  | op (o : I.Op) (k : I.Ans o → Prog I α) : Prog I α

namespace Prog

variable {I : Interface} {α β : Type}

/-- Go on with `f` once the program has returned. -/
def bind : Prog I α → (α → Prog I β) → Prog I β
  | .ret a, f => f a
  | .op o k, f => .op o fun r => (k r).bind f

instance : Monad (Prog I) where
  pure := .ret
  bind := bind

/-- The program that makes one call and returns its answer. -/
def perform (o : I.Op) : Prog I (I.Ans o) := .op o .ret

@[simp] theorem ret_bind (a : α) (f : α → Prog I β) : (Prog.ret a >>= f) = f a := rfl

@[simp] theorem op_bind (o : I.Op) (k : I.Ans o → Prog I α) (f : α → Prog I β) :
    (Prog.op o k >>= f) = .op o fun r => k r >>= f := rfl

theorem bind_ret (p : Prog I α) : (p >>= .ret) = p := by
  induction p with
  | ret a => rfl
  | op o k ih => exact congrArg (Prog.op o) (funext ih)

theorem bind_assoc {γ : Type} (p : Prog I α) (f : α → Prog I β) (g : β → Prog I γ) :
    (p >>= f >>= g) = (p >>= fun a => f a >>= g) := by
  induction p with
  | ret a => rfl
  | op o k ih => exact congrArg (Prog.op o) (funext ih)

instance : LawfulMonad (Prog I) :=
  LawfulMonad.mk' _ (fun p => bind_ret p) (fun _ _ => rfl) bind_assoc

/-! ### The calls of a program -/

/-- **Every call the program can make is one of `A`.** -/
def Uses (A : I.Op → Prop) : Prog I α → Prop
  | .ret _ => True
  | .op o k => A o ∧ ∀ r, (k r).Uses A

section Uses

variable {A A' : I.Op → Prop}

theorem uses_pure (a : α) : (pure a : Prog I α).Uses A := trivial

theorem uses_perform {o : I.Op} (h : A o) : (perform o).Uses A := ⟨h, fun _ => trivial⟩

/-- The rule of a call, followed by the rest of the program. -/
theorem uses_perform_bind {o : I.Op} {f : I.Ans o → Prog I β} (h : A o)
    (hf : ∀ r, (f r).Uses A) : (perform o >>= f).Uses A := ⟨h, hf⟩

theorem Uses.mono {p : Prog I α} (hp : p.Uses A) (h : ∀ o, A o → A' o) : p.Uses A' := by
  induction p with
  | ret a => trivial
  | op o k ih => exact ⟨h o hp.1, fun r => ih r (hp.2 r)⟩

theorem Uses.and {p : Prog I α} (hp : p.Uses A) (hp' : p.Uses A') :
    p.Uses fun o => A o ∧ A' o := by
  induction p with
  | ret a => trivial
  | op o k ih => exact ⟨⟨hp.1, hp'.1⟩, fun r => ih r (hp.2 r) (hp'.2 r)⟩

theorem Uses.bind {p : Prog I α} {f : α → Prog I β} (hp : p.Uses A) (hf : ∀ a, (f a).Uses A) :
    (p >>= f).Uses A := by
  induction p with
  | ret a => exact hf a
  | op o k ih => exact ⟨hp.1, fun r => ih r (hp.2 r)⟩

end Uses

/-! ### A program alone -/

end Prog

/-- What answers the calls of a program that runs alone: from a state of the world,
the answer and the next state, or the reason why the program does not go on. -/
abbrev Handler (I : Interface) (W X : Type) := W → (o : I.Op) → Except X (I.Ans o × W)

namespace Prog

variable {I : Interface} {α β W X : Type} {h : Handler I W X} {w : W}

/-- Run a program to its end. -/
def run (h : Handler I W X) : Prog I α → W → Except X (α × W)
  | .ret a, w => .ok (a, w)
  | .op o k, w => (h w o).bind fun r => (k r.1).run h r.2

@[simp] theorem run_ret (a : α) : (Prog.ret a : Prog I α).run h w = .ok (a, w) := rfl

@[simp] theorem run_pure (a : α) : (pure a : Prog I α).run h w = .ok (a, w) := rfl

@[simp] theorem run_op (o : I.Op) (k : I.Ans o → Prog I α) :
    (Prog.op o k).run h w = (h w o).bind fun r => (k r.1).run h r.2 := rfl

@[simp] theorem run_perform (o : I.Op) : (perform o).run h w = h w o := by
  change (h w o).bind (fun r => Except.ok (r.1, r.2)) = h w o
  cases h w o <;> rfl

/-- **A sequence runs in sequence.** -/
@[simp] theorem run_bind (p : Prog I α) (f : α → Prog I β) :
    (p >>= f).run h w = (p.run h w).bind fun r => (f r.1).run h r.2 := by
  induction p generalizing w with
  | ret a => rfl
  | op o k ih =>
    simp only [op_bind, run_op, ih]
    cases h w o <;> rfl

theorem exists_of_run_bind {p : Prog I α} {f : α → Prog I β} {b : β} {w' : W}
    (hr : (p >>= f).run h w = .ok (b, w')) :
    ∃ a w₁, p.run h w = .ok (a, w₁) ∧ (f a).run h w₁ = .ok (b, w') := by
  rw [run_bind] at hr
  cases hp : p.run h w with
  | error x =>
    rw [hp] at hr
    cases hr
  | ok r =>
    rw [hp] at hr
    exact ⟨r.1, r.2, rfl, hr⟩

/-- **The program runs to its end**, and its result and the last state are in `Q`. -/
def Runs (h : Handler I W X) (p : Prog I α) (w : W) (Q : α → W → Prop) : Prop :=
  ∃ a w', p.run h w = .ok (a, w') ∧ Q a w'

section Runs

variable {Q Q' : α → W → Prop} {p : Prog I α}

theorem runs_pure {a : α} (hq : Q a w) : (pure a : Prog I α).Runs h w Q := ⟨a, w, rfl, hq⟩

theorem Runs.mono (hp : p.Runs h w Q) (hq : ∀ a w', Q a w' → Q' a w') : p.Runs h w Q' := by
  obtain ⟨a, w', hr, ha⟩ := hp
  exact ⟨a, w', hr, hq a w' ha⟩

/-- A run that is known is the only one. -/
theorem runs_iff_of_run {a : α} {w' : W} (hr : p.run h w = .ok (a, w')) :
    p.Runs h w Q ↔ Q a w' := by
  refine ⟨?_, fun hq => ⟨a, w', hr, hq⟩⟩
  rintro ⟨a', w'', hr', hq⟩
  rw [hr] at hr'
  cases hr'
  exact hq

/-- What is known of the result of a run is all there is to say about it. -/
theorem Runs.iff_of_eq {f : α → β} {b : β} (hp : p.Runs h w fun r _ => f r = b) {P : β → Prop} :
    (p.Runs h w fun r _ => P (f r)) ↔ P b := by
  obtain ⟨a, w', hr, rfl⟩ := hp
  exact runs_iff_of_run hr

/-- The rule of sequence. -/
theorem Runs.bind {R : β → W → Prop} {f : α → Prog I β} (hp : p.Runs h w Q)
    (hf : ∀ a w', Q a w' → (f a).Runs h w' R) : (p >>= f).Runs h w R := by
  obtain ⟨a, w', hr, ha⟩ := hp
  obtain ⟨b, w'', hr', hb⟩ := hf a w' ha
  exact ⟨b, w'', by rw [run_bind, hr]; exact hr', hb⟩

/-- What comes after a program that returns. -/
theorem Runs.exists_run_bind (hp : p.Runs h w Q) :
    ∃ a w', Q a w' ∧ ∀ {β : Type} (f : α → Prog I β), (p >>= f).run h w = (f a).run h w' := by
  obtain ⟨a, w', hr, ha⟩ := hp
  refine ⟨a, w', ha, fun f => ?_⟩
  rw [run_bind, hr]
  rfl

theorem runs_perform {o : I.Op} {r : I.Ans o} {w' : W} (ho : h w o = .ok (r, w')) :
    (perform o).Runs h w fun a v => a = r ∧ v = w' :=
  ⟨r, w', by rw [run_perform, ho], rfl, rfl⟩

/-- The rule of a call that is answered. -/
theorem runs_perform_bind {o : I.Op} {r : I.Ans o} {w' : W} {R : β → W → Prop}
    {f : I.Ans o → Prog I β} (ho : h w o = .ok (r, w')) (hf : (f r).Runs h w' R) :
    (perform o >>= f).Runs h w R := by
  obtain ⟨b, w'', hr, hb⟩ := hf
  refine ⟨b, w'', ?_, hb⟩
  rw [run_bind, run_perform, ho]
  exact hr

end Runs

/-- **Whenever the program runs to its end**, its result and the last state are in `Q`. -/
def Ends (h : Handler I W X) (p : Prog I α) (w : W) (Q : α → W → Prop) : Prop :=
  ∀ a w', p.run h w = .ok (a, w') → Q a w'

section Ends

variable {Q Q' : α → W → Prop} {p : Prog I α}

theorem ends_pure {a : α} (hq : Q a w) : (pure a : Prog I α).Ends h w Q := by
  rintro _ _ ⟨⟩
  exact hq

theorem Ends.mono (hp : p.Ends h w Q) (hq : ∀ a w', Q a w' → Q' a w') : p.Ends h w Q' :=
  fun a w' hr => hq a w' (hp a w' hr)

/-- The rule of sequence. -/
theorem Ends.bind {R : β → W → Prop} {f : α → Prog I β} (hp : p.Ends h w Q)
    (hf : ∀ a w', Q a w' → (f a).Ends h w' R) : (p >>= f).Ends h w R := by
  intro b w'' hr
  obtain ⟨a, w', hr, hr'⟩ := exists_of_run_bind hr
  exact hf a w' (hp a w' hr) b w'' hr'

/-- The rule of a call: it need not be answered. -/
theorem ends_perform_bind {o : I.Op} {R : β → W → Prop} {f : I.Ans o → Prog I β}
    (hf : ∀ r w', h w o = .ok (r, w') → (f r).Ends h w' R) : (perform o >>= f).Ends h w R := by
  intro b w'' hr
  obtain ⟨r, w', ho, hr'⟩ := exists_of_run_bind hr
  rw [run_perform] at ho
  exact hf r w' ho b w'' hr'

end Ends

/-- **The program does not go on**, for the reason `x`. -/
def Halts (h : Handler I W X) (p : Prog I α) (w : W) (x : X) : Prop := p.run h w = .error x

section Halts

variable {x : X} {p : Prog I α}

theorem Halts.unique {x' : X} (hp : p.Halts h w x) (hp' : p.Halts h w x') : x = x' :=
  Except.error.inj (hp.symm.trans hp')

/-- The rule of sequence, for the second program. -/
theorem Runs.halts_bind {Q : α → W → Prop} {f : α → Prog I β} (hp : p.Runs h w Q)
    (hf : ∀ a w', Q a w' → (f a).Halts h w' x) : (p >>= f).Halts h w x := by
  obtain ⟨a, w', hr, ha⟩ := hp
  rw [Halts, run_bind, hr]
  exact hf a w' ha

theorem Halts.bind {f : α → Prog I β} (hp : p.Halts h w x) : (p >>= f).Halts h w x := by
  rw [Halts, run_bind, show p.run h w = _ from hp]
  rfl

theorem halts_perform {o : I.Op} (ho : h w o = .error x) : (perform o).Halts h w x := by
  rw [Halts, run_perform, ho]

theorem Halts.not_runs {Q : α → W → Prop} (hp : p.Halts h w x) : ¬ p.Runs h w Q := by
  rintro ⟨a, w', hr, -⟩
  rw [hp] at hr
  cases hr

theorem Halts.ends {Q : α → W → Prop} (hp : p.Halts h w x) : p.Ends h w Q := by
  intro a w' hr
  rw [hp] at hr
  cases hr

theorem Runs.ends {Q : α → W → Prop} (hp : p.Runs h w Q) : p.Ends h w Q := by
  obtain ⟨a, w', hr, hq⟩ := hp
  intro a' w'' hr'
  rw [hr] at hr'
  cases hr'
  exact hq

/-- What is known of a program that comes to an end is known if it does. -/
theorem Runs.and_ends {Q Q' : α → W → Prop} (hp : p.Runs h w Q) (he : p.Ends h w Q') :
    p.Runs h w fun a w' => Q a w' ∧ Q' a w' := by
  obtain ⟨a, w', hr, hq⟩ := hp
  exact ⟨a, w', hr, hq, he a w' hr⟩

end Halts

/-- **An invariant of every call of a program is an invariant of its run.** -/
theorem Uses.invariant_run {A : I.Op → Prop} {J : W → Prop} {p : Prog I α} (hp : p.Uses A)
    (hop : ∀ w o r w', A o → J w → h w o = .ok (r, w') → J w') {a : α} {w' : W} (hw : J w)
    (hr : p.run h w = .ok (a, w')) : J w' := by
  induction p generalizing w with
  | ret b =>
    cases hr
    exact hw
  | op o k ih =>
    rw [run_op] at hr
    cases ho : h w o with
    | error x =>
      rw [ho] at hr
      cases hr
    | ok r =>
      rw [ho] at hr
      exact ih r.1 (hp.2 r.1) (hop w o r.1 r.2 hp.1 hw ho) hr

theorem Uses.ends {A : I.Op → Prop} {J : W → Prop} {p : Prog I α} (hp : p.Uses A)
    (hop : ∀ w o r w', A o → J w → h w o = .ok (r, w') → J w') (hw : J w) :
    p.Ends h w fun _ w' => J w' := fun _ _ hr => hp.invariant_run hop hw hr

/-- **What a handler notes besides** the state does not matter to a program whose calls it does
not note. -/
theorem Uses.run_noted {N : Type} {A : I.Op → Prop} {h' : Handler I (W × N) X} {p : Prog I α}
    (hp : p.Uses A)
    (hop : ∀ w n o, A o → h' (w, n) o = (h w o).map fun r => (r.1, r.2, n)) (n : N) :
    p.run h' (w, n) = (p.run h w).map fun r => (r.1, r.2, n) := by
  induction p generalizing w with
  | ret a => rfl
  | op o k ih =>
    rw [run_op, run_op, hop w n o hp.1]
    cases h w o with
    | error x => rfl
    | ok r => exact ih r.1 (hp.2 r.1)

/-! ### The last state of a program -/

/-- **The state a program leaves**, whether it returns or stops on the way. -/
def last (h : Handler I W X) : Prog I α → W → W
  | .ret _, w => w
  | .op o k, w => match h w o with
    | .ok r => (k r.1).last h r.2
    | .error _ => w

theorem last_of_run {p : Prog I α} {a : α} {w' : W} (hr : p.run h w = .ok (a, w')) :
    p.last h w = w' := by
  induction p generalizing w with
  | ret b =>
    cases hr
    rfl
  | op o k ih =>
    rw [run_op] at hr
    rw [last]
    cases ho : h w o with
    | error x =>
      rw [ho] at hr
      cases hr
    | ok r =>
      rw [ho] at hr
      exact ih r.1 hr

/-- After a program that returns, it is the second one that counts. -/
theorem last_bind {p : Prog I α} {f : α → Prog I β} {a : α} {w' : W}
    (hr : p.run h w = .ok (a, w')) : (p >>= f).last h w = (f a).last h w' := by
  induction p generalizing w with
  | ret b =>
    cases hr
    rfl
  | op o k ih =>
    rw [run_op] at hr
    rw [op_bind, last]
    cases ho : h w o with
    | error x =>
      rw [ho] at hr
      cases hr
    | ok r =>
      rw [ho] at hr
      exact ih r.1 hr

/-! ### Calls that are counted -/

/-- **How many calls in `c` a program makes**, until it returns or stops. -/
def count (h : Handler I W X) (c : I.Op → Bool) : Prog I α → W → ℕ
  | .ret _, _ => 0
  | .op o k, w => (if c o then 1 else 0) + match h w o with
    | .ok r => (k r.1).count h c r.2
    | .error _ => 0

section Count

variable {c : I.Op → Bool}

/-- A sequence makes the calls of both programs. -/
theorem count_bind {p : Prog I α} {f : α → Prog I β} {a : α} {w' : W}
    (hr : p.run h w = .ok (a, w')) :
    (p >>= f).count h c w = p.count h c w + (f a).count h c w' := by
  induction p generalizing w with
  | ret b =>
    cases hr
    exact (Nat.zero_add _).symm
  | op o k ih =>
    rw [run_op] at hr
    rw [op_bind, count, count]
    cases ho : h w o with
    | error x =>
      rw [ho] at hr
      cases hr
    | ok r =>
      rw [ho] at hr
      exact (congrArg _ (ih r.1 hr)).trans (Nat.add_assoc ..).symm

/-- A sequence that returns, taken apart. -/
theorem exists_of_run_bind_count {p : Prog I α} {f : α → Prog I β} {b : β} {w' : W}
    (hr : (p >>= f).run h w = .ok (b, w')) :
    ∃ a w₁, p.run h w = .ok (a, w₁) ∧ (f a).run h w₁ = .ok (b, w') ∧
      (p >>= f).count h c w = p.count h c w + (f a).count h c w₁ := by
  obtain ⟨a, w₁, hp, hf⟩ := exists_of_run_bind hr
  exact ⟨a, w₁, hp, hf, count_bind hp⟩

theorem Uses.count_eq_zero {A : I.Op → Prop} {p : Prog I α} (hp : p.Uses A)
    (hA : ∀ o, A o → c o = false) : p.count h c w = 0 := by
  induction p generalizing w with
  | ret a => rfl
  | op o k ih =>
    rw [count, hA o hp.1]
    cases h w o with
    | error x => rfl
    | ok r => exact (Nat.zero_add _).trans (ih r.1 (hp.2 r.1))

end Count

/-! ### Two states that a program cannot tell apart -/

/-- Two ends of a run: the same answer in related states, or the same reason to stop. -/
inductive Matches (R : W → W → Prop) : Except X (α × W) → Except X (α × W) → Prop
  | ok {a : α} {w w' : W} (h : R w w') : Matches R (.ok (a, w)) (.ok (a, w'))
  | error {x : X} : Matches R (.error x) (.error x)

/-- The answer of a program, or the reason why there is none. -/
def answer (h : Handler I W X) (p : Prog I α) (w : W) : Except X α := (p.run h w).map Prod.fst

/-- **A program answers the same in related states** if every call does. -/
theorem run_matches {R : W → W → Prop} (hop : ∀ w w' o, R w w' → Matches R (h w o) (h w' o))
    (p : Prog I α) {w w' : W} (hw : R w w') : Matches R (p.run h w) (p.run h w') := by
  induction p generalizing w w' with
  | ret a => exact .ok hw
  | op o k ih =>
    rw [run_op, run_op]
    generalize hx : h w o = x
    generalize hx' : h w' o = x'
    have hm := hop w w' o hw
    rw [hx, hx'] at hm
    cases hm with
    | ok hR => exact ih _ hR
    | error => exact .error

theorem answer_eq_of_matches {R : W → W → Prop} {p q : Prog I α} {w w' : W}
    (hm : Matches R (p.run h w) (q.run h w')) : p.answer h w = q.answer h w' := by
  unfold answer
  generalize p.run h w = x at hm ⊢
  generalize q.run h w' = y at hm ⊢
  cases hm <;> rfl

theorem Runs.answer_eq {p : Prog I α} {a : α} {Q : W → Prop}
    (hp : p.Runs h w fun r w' => r = a ∧ Q w') : p.answer h w = .ok a := by
  obtain ⟨_, w', hr, rfl, -⟩ := hp
  rw [answer, hr]
  rfl

/-- **On its way the program makes a call that is in `P`**, in the state it is made
from. -/
def Makes (h : Handler I W X) (P : (o : I.Op) → W → Prop) : Prog I α → W → Prop
  | .ret _, _ => False
  | .op o k, w => P o w ∨ ∃ r w', h w o = .ok (r, w') ∧ (k r).Makes h P w'

section Makes

variable {P : I.Op → W → Prop}

theorem makes_perform_bind {o : I.Op} {f : I.Ans o → Prog I β} (ho : P o w) :
    (perform o >>= f).Makes h P w := Or.inl ho

/-- The rule of sequence, for a call of the second program. -/
theorem Runs.makes_bind {Q : α → W → Prop} {p : Prog I α} {f : α → Prog I β} (hp : p.Runs h w Q)
    (hf : ∀ a w', Q a w' → (f a).Makes h P w') : (p >>= f).Makes h P w := by
  obtain ⟨a, w', hr, ha⟩ := hp
  induction p generalizing w with
  | ret b =>
    cases hr
    exact hf _ _ ha
  | op o k ih =>
    cases ho : h w o with
    | error x =>
      rw [run_op, ho] at hr
      cases hr
    | ok r =>
      rw [run_op, ho] at hr
      exact Or.inr ⟨r.1, r.2, ho, ih r.1 hr⟩

theorem Uses.not_makes {A : I.Op → Prop} {p : Prog I α} (hp : p.Uses A)
    (hA : ∀ o w, A o → ¬ P o w) : ¬ p.Makes h P w := by
  induction p generalizing w with
  | ret a => exact id
  | op o k ih =>
    rintro (ho | ⟨r, w', -, hm⟩)
    · exact hA o w hp.1 ho
    · exact ih r (hp.2 r) hm

theorem not_makes_perform_bind {o : I.Op} {f : I.Ans o → Prog I β} (ho : ¬ P o w)
    (hf : ∀ r w', h w o = .ok (r, w') → ¬ (f r).Makes h P w') :
    ¬ (perform o >>= f).Makes h P w := by
  rintro (h₀ | ⟨r, w', hr, hm⟩)
  · exact ho h₀
  · exact hf r w' hr hm

/-- A sequence makes no such call if neither program does. -/
theorem Runs.not_makes_bind {Q : α → W → Prop} {p : Prog I α} {f : α → Prog I β}
    (hp : p.Runs h w Q) (hno : ¬ p.Makes h P w) (hf : ∀ a w', Q a w' → ¬ (f a).Makes h P w') :
    ¬ (p >>= f).Makes h P w := by
  obtain ⟨a, w', hr, ha⟩ := hp
  induction p generalizing w with
  | ret b =>
    cases hr
    exact hf _ _ ha
  | op o k ih =>
    rintro (ho | ⟨r, w'', hr', hm⟩)
    · exact hno (Or.inl ho)
    · rw [run_op, hr'] at hr
      exact ih r (fun hk => hno (Or.inr ⟨r, w'', hr', hk⟩)) hr hm

/-- If the first program makes no such call, the second one does. -/
theorem Uses.exists_run_of_makes_bind {A : I.Op → Prop} {p : Prog I α} {f : α → Prog I β}
    (hp : p.Uses A) (hA : ∀ o w, A o → ¬ P o w) (hm : (p >>= f).Makes h P w) :
    ∃ a w', p.run h w = .ok (a, w') ∧ (f a).Makes h P w' := by
  induction p generalizing w with
  | ret a => exact ⟨a, w, rfl, hm⟩
  | op o k ih =>
    obtain ho | ⟨r, w', hr, hm⟩ := hm
    · exact absurd ho (hA o w hp.1)
    · obtain ⟨a, w'', hr', hm'⟩ := ih r (hp.2 r) hm
      refine ⟨a, w'', ?_, hm'⟩
      rw [run_op, hr]
      exact hr'

end Makes

/-! ### A program under arbitrary answers -/

variable {σ : Type} (ops : σ → (o : I.Op) → I.Ans o → σ → Prop) (inv : σ → Prop)

/-- **The program keeps the invariant and returns only values in `Q`**, whatever
happens to the state between its calls as long as the invariant survives it. -/
def Keeps (Q : α → Prop) : Prog I α → Prop
  | .ret a => Q a
  | .op o k => ∀ m r m', inv m → ops m o r m' → inv m' ∧ (k r).Keeps Q

variable {ops inv} {Q Q' : α → Prop}

theorem Keeps.mono {p : Prog I α} (hp : p.Keeps ops inv Q) (h : ∀ a, Q a → Q' a) :
    p.Keeps ops inv Q' := by
  induction p with
  | ret a => exact h a hp
  | op o k ih => exact fun m r m' hm ho => ⟨(hp m r m' hm ho).1, ih r (hp m r m' hm ho).2⟩

/-- The rule of sequence. -/
theorem Keeps.bind {R : β → Prop} {p : Prog I α} {f : α → Prog I β} (hp : p.Keeps ops inv Q)
    (hf : ∀ a, Q a → (f a).Keeps ops inv R) : (p >>= f).Keeps ops inv R := by
  induction p with
  | ret a => exact hf a hp
  | op o k ih => exact fun m r m' hm ho => ⟨(hp m r m' hm ho).1, ih r (hp m r m' hm ho).2⟩

/-- A program keeps what every call it can make keeps. -/
theorem Uses.keeps {A : I.Op → Prop} {p : Prog I α} (hp : p.Uses A)
    (h : ∀ m o r m', A o → inv m → ops m o r m' → inv m') : p.Keeps ops inv fun _ => True := by
  induction p with
  | ret a => trivial
  | op o k ih => exact fun m r m' hm ho => ⟨h m o r m' hp.1 hm ho, ih r (hp.2 r)⟩

/-- The rule of a single call: what its answer satisfies. -/
theorem keeps_perform {o : I.Op} {Q : I.Ans o → Prop}
    (h : ∀ m r m', inv m → ops m o r m' → inv m' ∧ Q r) : (perform o).Keeps ops inv Q := h

/-! ### A program with a state of its own -/

/-- **Every call the program makes from the state `v` is allowed by `A`, and it returns
only in states of `Q`.** -/
def Wp (A : σ → I.Op → Prop) (ops : σ → (o : I.Op) → I.Ans o → σ → Prop) (Q : α → σ → Prop) :
    Prog I α → σ → Prop
  | .ret a, v => Q a v
  | .op o k, v => A v o ∧ ∀ r v', ops v o r v' → (k r).Wp A ops Q v'

section Wp

variable {A : σ → I.Op → Prop} {Q : α → σ → Prop} {v : σ}

theorem Wp.mono {Q' : α → σ → Prop} {p : Prog I α} (hp : p.Wp A ops Q v)
    (h : ∀ a v, Q a v → Q' a v) : p.Wp A ops Q' v := by
  induction p generalizing v with
  | ret a => exact h a v hp
  | op o k ih => exact ⟨hp.1, fun r v' ho => ih r (hp.2 r v' ho)⟩

/-- The rule of sequence. -/
theorem Wp.bind {R : β → σ → Prop} {p : Prog I α} {f : α → Prog I β} (hp : p.Wp A ops Q v)
    (hf : ∀ a v, Q a v → (f a).Wp A ops R v) : (p >>= f).Wp A ops R v := by
  induction p generalizing v with
  | ret a => exact hf a v hp
  | op o k ih => exact ⟨hp.1, fun r v' ho => ih r (hp.2 r v' ho)⟩

end Wp

/-! ### A program over a wider interface -/

/-- The program over an interface that has its calls under other names. -/
def via {J : Interface} (f : I.Op → J.Op) (g : ∀ o, J.Ans (f o) → I.Ans o) : Prog I α → Prog J α
  | .ret a => .ret a
  | .op o k => .op (f o) fun r => (k (g o r)).via f g

/-- What is known of a program is known of it over the wider interface. -/
theorem Wp.via {J : Interface} {f : I.Op → J.Op} {g : ∀ o, J.Ans (f o) → I.Ans o}
    {A : σ → I.Op → Prop} {A' : σ → J.Op → Prop} {ops' : σ → (o : J.Op) → J.Ans o → σ → Prop}
    {Q : α → σ → Prop} {v : σ} {p : Prog I α} (hp : p.Wp A ops Q v)
    (hA : ∀ v o, A v o → A' v (f o)) (hops : ∀ v o r v', ops' v (f o) r v' → ops v o (g o r) v') :
    (p.via f g).Wp A' ops' Q v := by
  induction p generalizing v with
  | ret a => exact hp
  | op o k ih => exact ⟨hA v o hp.1, fun r v' ho => ih _ (hp.2 _ v' (hops v o r v' ho))⟩

end Prog

end Effects
