import LibFaketime.Lib.Program
import Mathlib.Logic.Function.Basic
import Mathlib.Logic.Relation

/-!
# Programs taking turns

Any number of threads run programs over one interface, one call at a time and in
any order. A machine (`Effects.Machine`) says what a call of a thread does to the
common memory, which programs an idle thread may start, and what happens to the
memory when one returns; a state is a pool (`Effects.Pool`), the memory with what is
left of every thread's program.

Reasoning about all interleavings at once is reasoning about one thread against the
others. What the others may do while a thread is between two of its calls is its
*rely*, a preorder on memories; a step of a thread must be allowed by the rely of
every other one. `Effects.Protocol.Safe` is the resulting judgement on a program,
by recursion on the tree: whatever the others have done since, each call keeps the
invariant, disturbs nobody, and leaves a program that is safe again.
`Effects.Protocol.reach_safe` says that this is enough: in every reachable pool the
invariant holds and every thread has a safe program left.

When nothing has to be known about the others, the rely is trivial, and
`Effects.Prog.Keeps` is all there is to prove (`Effects.Machine.reach_keeps`). And when
every thread has a part of the memory to itself, it is enough to look at each program alone
with its part (`Effects.Machine.Views`).
-/

namespace Effects

variable {I : Interface} {T σ α : Type}

/-- What threads can do to a common memory. -/
structure Machine (I : Interface) (T σ α : Type) where
  /-- What a call of a thread may answer, and what it makes of the memory. -/
  ops : T → σ → (o : I.Op) → I.Ans o → σ → Prop
  /-- The programs an idle thread may start. -/
  start : T → σ → Prog I α → Prop
  /-- What the return of a program makes of the memory. -/
  finish : T → α → σ → σ → Prop

/-- The memory, and what is left of the program of every thread that is not
idle. -/
structure Pool (I : Interface) (T σ α : Type) where
  /-- The common memory. -/
  mem : σ
  /-- What is left to run. -/
  code : T → Option (Prog I α)

namespace Machine

variable [DecidableEq T] (M : Machine I T σ α)

/-- **One step of one thread**: it starts a program, makes a call, or returns. -/
inductive Step : Pool I T σ α → Pool I T σ α → Prop
  /-- An idle thread starts a program. -/
  | start {s : Pool I T σ α} {t : T} {p : Prog I α} (h : s.code t = none)
      (hp : M.start t s.mem p) : Step s ⟨s.mem, Function.update s.code t (some p)⟩
  /-- A thread makes its next call. -/
  | call {s : Pool I T σ α} {t : T} {o : I.Op} {k : I.Ans o → Prog I α} {r : I.Ans o} {m : σ}
      (h : s.code t = some (.op o k)) (ho : M.ops t s.mem o r m) :
      Step s ⟨m, Function.update s.code t (some (k r))⟩
  /-- A thread returns and is idle again. -/
  | finish {s : Pool I T σ α} {t : T} {a : α} {m : σ} (h : s.code t = some (.ret a))
      (hf : M.finish t a s.mem m) : Step s ⟨m, Function.update s.code t none⟩

/-- The pools any run reaches. -/
abbrev Reach : Pool I T σ α → Pool I T σ α → Prop := Relation.ReflTransGen M.Step

end Machine

/-- The pool in which every thread is idle. -/
def Pool.init (I : Interface) (T α : Type) {σ : Type} (m : σ) : Pool I T σ α := ⟨m, fun _ => none⟩

/-! ### Rely and guarantee -/

/-- What the threads of a machine may rely on. -/
structure Protocol (T σ : Type) where
  /-- What holds of the memory between any two calls. -/
  inv : σ → Prop
  /-- What the other threads may do between two calls of a thread. -/
  rely : T → σ → σ → Prop
  rely_refl : ∀ t m, rely t m m
  rely_trans : ∀ t {m₁ m₂ m₃}, rely t m₁ m₂ → rely t m₂ m₃ → rely t m₁ m₃

namespace Protocol

variable (P : Protocol T σ) (M : Machine I T σ α)

/-- A step of `t` that every other thread may rely on. -/
def Guar (t : T) (m m' : σ) : Prop := ∀ u, u ≠ t → P.rely u m m'

/-- **A safe program of thread `t`**: after any interference its next call keeps
the invariant, is allowed by the rely of every other thread, and leaves a safe
program; and when it returns, `Q` holds. -/
def Safe (t : T) {β : Type} (Q : β → σ → Prop) : Prog I β → σ → Prop
  | .ret a, m => ∀ m₁, P.rely t m m₁ → P.inv m₁ → Q a m₁
  | .op o k, m => ∀ m₁, P.rely t m m₁ → P.inv m₁ → ∀ r m₂, M.ops t m₁ o r m₂ →
      P.inv m₂ ∧ P.Guar t m₁ m₂ ∧ Safe t Q (k r) m₂

variable {P M} {t : T} {β γ : Type} {Q : β → σ → Prop}

/-- Safety survives what the others do. -/
theorem Safe.stable {p : Prog I β} {m m' : σ} (h : P.Safe M t Q p m) (hr : P.rely t m m') :
    P.Safe M t Q p m' := by
  cases p with
  | ret a => exact fun m₁ h₁ hi => h m₁ (P.rely_trans t hr h₁) hi
  | op o k => exact fun m₁ h₁ hi r m₂ ho => h m₁ (P.rely_trans t hr h₁) hi r m₂ ho

/-- To be safe now it is enough to be safe after any interference. -/
theorem safe_of_forall {p : Prog I β} {m : σ}
    (h : ∀ m₁, P.rely t m m₁ → P.inv m₁ → P.Safe M t Q p m₁) : P.Safe M t Q p m := by
  cases p with
  | ret a => exact fun m₁ h₁ hi => h m₁ h₁ hi m₁ (P.rely_refl t m₁) hi
  | op o k => exact fun m₁ h₁ hi r m₂ ho => h m₁ h₁ hi m₁ (P.rely_refl t m₁) hi r m₂ ho

theorem Safe.mono {Q' : β → σ → Prop} {p : Prog I β} {m : σ} (hp : P.Safe M t Q p m)
    (h : ∀ a m, P.inv m → Q a m → Q' a m) : P.Safe M t Q' p m := by
  induction p generalizing m with
  | ret a => exact fun m₁ h₁ hi => h a m₁ hi (hp m₁ h₁ hi)
  | op o k ih =>
    intro m₁ h₁ hi r m₂ ho
    obtain ⟨hi₂, hg, hs⟩ := hp m₁ h₁ hi r m₂ ho
    exact ⟨hi₂, hg, ih r hs⟩

/-- **The rule of critical sections.** As long as a local fact `L` keeps the others
away from what the thread sees of the memory, its view, the program runs as if it
were alone with that view. -/
theorem safe_of_wp {ν : Type} {V : σ → ν} {A : ν → I.Op → Prop}
    {O : ν → (o : I.Op) → I.Ans o → ν → Prop} {L : σ → Prop} {Q : β → ν → Prop} {p : Prog I β}
    {m : σ} (hstable : ∀ m m', P.rely t m m' → P.inv m' → L m → L m' ∧ V m' = V m)
    (hstep : ∀ m o r m', A (V m) o → P.inv m → L m → M.ops t m o r m' →
      P.inv m' ∧ P.Guar t m m' ∧ L m' ∧ O (V m) o r (V m'))
    (hp : p.Wp A O Q (V m)) (hL : L m) :
    P.Safe M t (fun a m => L m ∧ Q a (V m)) p m := by
  induction p generalizing m with
  | ret a =>
    intro m₁ h₁ hi
    obtain ⟨hL₁, hv⟩ := hstable m m₁ h₁ hi hL
    exact ⟨hL₁, hv ▸ hp⟩
  | op o k ih =>
    intro m₁ h₁ hi r m₂ ho
    obtain ⟨hL₁, hv⟩ := hstable m m₁ h₁ hi hL
    rw [← hv] at hp
    obtain ⟨hi₂, hg, hL₂, hvo⟩ := hstep m₁ o r m₂ hp.1 hi hL₁ ho
    exact ⟨hi₂, hg, ih r (hp.2 r _ hvo) hL₂⟩

/-- The rule of sequence. -/
theorem Safe.bind {R : γ → σ → Prop} {p : Prog I β} {f : β → Prog I γ} {m : σ}
    (hp : P.Safe M t Q p m) (hf : ∀ a m₁, P.inv m₁ → Q a m₁ → P.Safe M t R (f a) m₁) :
    P.Safe M t R (p >>= f) m := by
  induction p generalizing m with
  | ret a => exact safe_of_forall fun m₁ h₁ hi => hf a m₁ hi (hp m₁ h₁ hi)
  | op o k ih =>
    intro m₁ h₁ hi r m₂ ho
    obtain ⟨hi₂, hg, hs⟩ := hp m₁ h₁ hi r m₂ ho
    exact ⟨hi₂, hg, ih r hs⟩

variable [DecidableEq T] {D : T → σ → Prop} {Q : T → α → σ → Prop}

/-- What a thread has left to run is safe, or it is idle. -/
def Left (P : Protocol T σ) (M : Machine I T σ α) (D : T → σ → Prop) (Q : T → α → σ → Prop)
    (s : Pool I T σ α) (t : T) : Prop :=
  match s.code t with
  | none => D t s.mem
  | some p => P.Safe M t (Q t) p s.mem

/-- A step of one thread leaves the others with what they had. -/
theorem Left.of_ne {s : Pool I T σ α} {t u : T} {m : σ} {c : Option (Prog I α)}
    (hstable : ∀ t m m', D t m → P.rely t m m' → D t m') (hu : u ≠ t)
    (h : P.Left M D Q s u) (hr : P.rely u s.mem m) :
    P.Left M D Q ⟨m, Function.update s.code t c⟩ u := by
  unfold Left at h ⊢
  simp only [Function.update_of_ne hu]
  cases hc : s.code u with
  | none =>
    rw [hc] at h
    exact hstable u _ _ h hr
  | some p =>
    rw [hc] at h
    exact h.stable hr

theorem Left.self {s : Pool I T σ α} {t : T} {m : σ} {c : Option (Prog I α)} :
    P.Left M D Q ⟨m, Function.update s.code t c⟩ t ↔
      match c with
      | none => D t m
      | some p => P.Safe M t (Q t) p m := by
  simp only [Left, Function.update_self]

/-- **Rely and guarantee are sound.** If what is idle stays idle under
interference, every program a thread starts is safe, and a return keeps the
invariant, disturbs nobody and leaves the thread idle, then in every pool a run
reaches the invariant holds and every thread has a safe program left. -/
theorem reach_safe
    (hstable : ∀ t m m', D t m → P.rely t m m' → D t m')
    (hstart : ∀ t m p, P.inv m → D t m → M.start t m p → P.Safe M t (Q t) p m)
    (hfinish : ∀ t a m m', P.inv m → Q t a m → M.finish t a m m' →
      P.inv m' ∧ P.Guar t m m' ∧ D t m')
    {s₀ s : Pool I T σ α} (hr : M.Reach s₀ s) (hinv : P.inv s₀.mem)
    (hleft : ∀ t, P.Left M D Q s₀ t) : P.inv s.mem ∧ ∀ t, P.Left M D Q s t := by
  induction hr with
  | refl => exact ⟨hinv, hleft⟩
  | tail _ hstep ih =>
    obtain ⟨hi, hl⟩ := ih
    cases hstep with
    | @start t p h hp =>
      have ht := hl t
      rw [Left, h] at ht
      refine ⟨hi, fun u => ?_⟩
      rcases eq_or_ne u t with rfl | hu
      · exact Left.self.mpr (hstart u _ p hi ht hp)
      · exact (hl u).of_ne hstable hu (P.rely_refl u _)
    | @call t o k r m h ho =>
      have ht := hl t
      rw [Left, h] at ht
      obtain ⟨hi', hg, hs⟩ := ht _ (P.rely_refl t _) hi r m ho
      refine ⟨hi', fun u => ?_⟩
      rcases eq_or_ne u t with rfl | hu
      · exact Left.self.mpr hs
      · exact (hl u).of_ne hstable hu (hg u hu)
    | @finish t a m h hf =>
      have ht := hl t
      rw [Left, h] at ht
      obtain ⟨hi', hg, hd⟩ := hfinish t a _ m hi (ht _ (P.rely_refl t _) hi) hf
      refine ⟨hi', fun u => ?_⟩
      rcases eq_or_ne u t with rfl | hu
      · exact Left.self.mpr hd
      · exact (hl u).of_ne hstable hu (hg u hu)

end Protocol

/-! ### Invariants without a protocol -/

namespace Machine

variable [DecidableEq T] {M : Machine I T σ α} {inv : σ → Prop} {Q : T → α → Prop}

/-- **Programs that keep an invariant keep it together.** In every reachable pool
the invariant holds and every thread has a program left that keeps it. -/
theorem reach_keeps (hstart : ∀ t m p, inv m → M.start t m p → p.Keeps (M.ops t) inv (Q t))
    (hfinish : ∀ t a m m', inv m → Q t a → M.finish t a m m' → inv m')
    {m₀ : σ} {s : Pool I T σ α} (hinv : inv m₀) (hr : M.Reach (Pool.init I T α m₀) s) :
    inv s.mem ∧ ∀ t p, s.code t = some p → p.Keeps (M.ops t) inv (Q t) := by
  induction hr with
  | refl => exact ⟨hinv, fun t p h => by cases h⟩
  | tail _ hstep ih =>
    obtain ⟨hi, hl⟩ := ih
    have key : ∀ {c : T → Option (Prog I α)} {t : T} {x : Option (Prog I α)},
        (∀ u p, c u = some p → p.Keeps (M.ops u) inv (Q u)) →
        (∀ p, x = some p → p.Keeps (M.ops t) inv (Q t)) →
        ∀ u p, Function.update c t x u = some p → p.Keeps (M.ops u) inv (Q u) := by
      intro c t x hc hx u p hp
      rcases eq_or_ne u t with rfl | hu
      · rw [Function.update_self] at hp
        exact hx p hp
      · rw [Function.update_of_ne hu] at hp
        exact hc u p hp
    cases hstep with
    | @start t p h hp =>
      refine ⟨hi, key hl fun q hq => ?_⟩
      cases hq
      exact hstart t _ p hi hp
    | @call t o k r m h ho =>
      obtain ⟨hi', hk⟩ := hl t _ h _ r m hi ho
      refine ⟨hi', key hl fun q hq => ?_⟩
      cases hq
      exact hk
    | @finish t a m h hf =>
      exact ⟨hfinish t a _ m hi (hl t _ h) hf, key hl fun q hq => by cases hq⟩

end Machine

/-! ### Threads with views of their own -/

namespace Machine

/-- **What every thread sees of the memory**, where a call of a thread shows in its own view
only. In its view a thread makes only the calls that are allowed, and it returns only where it
is done. -/
structure Views (M : Machine I T σ α) where
  /-- The views of a thread. -/
  View : T → Type
  /-- What the thread sees. -/
  view : (t : T) → σ → View t
  /-- The calls a thread may make. -/
  allowed : (t : T) → View t → I.Op → Prop
  /-- What the thread sees of its own calls. -/
  answers : (t : T) → View t → (o : I.Op) → I.Ans o → View t → Prop
  /-- What holds when the thread returns. -/
  done : (t : T) → α → View t → Prop
  /-- What holds while the thread is idle. -/
  idle : T → σ → Prop
  /-- What always holds. -/
  inv : σ → Prop
  start : ∀ t m p, inv m → idle t m → M.start t m p →
    p.Wp (allowed t) (answers t) (done t) (view t m)
  call : ∀ t m o r m', inv m → allowed t (view t m) o → M.ops t m o r m' →
    inv m' ∧ answers t (view t m) o r (view t m') ∧
      ∀ u, u ≠ t → view u m' = view u m ∧ (idle u m → idle u m')
  finish : ∀ t a m m', inv m → done t a (view t m) → M.finish t a m m' →
    inv m' ∧ idle t m' ∧ ∀ u, u ≠ t → view u m' = view u m ∧ (idle u m → idle u m')

namespace Views

variable {M : Machine I T σ α} {V : M.Views} {s₀ s : Pool I T σ α} {t u : T}

/-- What a thread has left to run is right for what it sees. -/
def Left (V : M.Views) (s : Pool I T σ α) (t : T) : Prop :=
  match s.code t with
  | none => V.idle t s.mem
  | some p => p.Wp (V.allowed t) (V.answers t) (V.done t) (V.view t s.mem)

theorem Left.self [DecidableEq T] {m : σ} {c : Option (Prog I α)} :
    V.Left ⟨m, Function.update s.code t c⟩ t ↔
      match c with
      | none => V.idle t m
      | some p => p.Wp (V.allowed t) (V.answers t) (V.done t) (V.view t m) := by
  simp only [Left, Function.update_self]

/-- A step of one thread leaves the others with what they had. -/
theorem Left.of_ne [DecidableEq T] {m : σ} {c : Option (Prog I α)} (hu : u ≠ t) (h : V.Left s u)
    (hm : V.view u m = V.view u s.mem ∧ (V.idle u s.mem → V.idle u m)) :
    V.Left ⟨m, Function.update s.code t c⟩ u := by
  unfold Left at h ⊢
  simp only [Function.update_of_ne hu]
  cases hc : s.code u with
  | none =>
    rw [hc] at h
    exact hm.2 h
  | some p =>
    rw [hc] at h
    exact hm.1 ▸ h

/-- **Views are sound.** In every pool a run reaches, the invariant holds, and every thread has
left what is right for what it sees. -/
theorem reach [DecidableEq T] (V : M.Views) (hr : M.Reach s₀ s) (hinv : V.inv s₀.mem)
    (hleft : ∀ t, V.Left s₀ t) : V.inv s.mem ∧ ∀ t, V.Left s t := by
  induction hr with
  | refl => exact ⟨hinv, hleft⟩
  | tail _ hstep ih =>
    obtain ⟨hi, hl⟩ := ih
    cases hstep with
    | @start t p h hp =>
      have ht := hl t
      rw [Left, h] at ht
      refine ⟨hi, fun u => ?_⟩
      rcases eq_or_ne u t with rfl | hu
      · exact Left.self.mpr (V.start u _ p hi ht hp)
      · exact (hl u).of_ne hu ⟨rfl, id⟩
    | @call t o k r m h ho =>
      have ht := hl t
      rw [Left, h] at ht
      obtain ⟨hi', ha, hothers⟩ := V.call t _ o r m hi ht.1 ho
      refine ⟨hi', fun u => ?_⟩
      rcases eq_or_ne u t with rfl | hu
      · exact Left.self.mpr (ht.2 r _ ha)
      · exact (hl u).of_ne hu (hothers u hu)
    | @finish t a m h hf =>
      have ht := hl t
      rw [Left, h] at ht
      obtain ⟨hi', hd, hothers⟩ := V.finish t a _ m hi ht hf
      refine ⟨hi', fun u => ?_⟩
      rcases eq_or_ne u t with rfl | hu
      · exact Left.self.mpr hd
      · exact (hl u).of_ne hu (hothers u hu)

theorem Left.allows {o : I.Op} {k : I.Ans o → Prog I α} (h : V.Left s t)
    (hc : s.code t = some (.op o k)) : V.allowed t (V.view t s.mem) o := by
  rw [Left, hc] at h
  exact h.1

theorem Left.returns {a : α} (h : V.Left s t) (hc : s.code t = some (.ret a)) :
    V.done t a (V.view t s.mem) := by
  rw [Left, hc] at h
  exact h

end Views

/-! ### Machines that answer alike -/

section Alike

variable [DecidableEq T] {M N : Machine I T σ α} {s₀ s s' : Pool I T σ α}

/-- A step of one machine is a step of another that answers alike. -/
theorem Step.of_ops (hstart : M.start = N.start) (hfinish : M.finish = N.finish)
    (hops : ∀ t o k, s.code t = some (.op o k) → ∀ r m, M.ops t s.mem o r m → N.ops t s.mem o r m)
    (h : M.Step s s') : N.Step s s' := by
  cases h with
  | start h hp => exact .start h (hstart ▸ hp)
  | call h ho => exact .call h (hops _ _ _ h _ _ ho)
  | finish h hf => exact .finish h (hfinish ▸ hf)

/-- **Two machines reach the same pools** if they answer alike in those that one of them
reaches. -/
theorem reach_iff_of_ops (hstart : M.start = N.start) (hfinish : M.finish = N.finish)
    (hops : ∀ s, N.Reach s₀ s → ∀ t o k, s.code t = some (.op o k) → ∀ r m,
      M.ops t s.mem o r m ↔ N.ops t s.mem o r m) : M.Reach s₀ s ↔ N.Reach s₀ s := by
  constructor
  · intro h
    induction h with
    | refl => exact .refl
    | tail _ hstep ih =>
      refine ih.tail (hstep.of_ops hstart hfinish fun t o k hc r m => ?_)
      exact (hops _ ih t o k hc r m).mp
  · intro h
    induction h with
    | refl => exact .refl
    | tail hr hstep ih =>
      refine ih.tail (hstep.of_ops hstart.symm hfinish.symm fun t o k hc r m => ?_)
      exact (hops _ hr t o k hc r m).mpr

end Alike

/-! ### A thread that runs on its own -/

section Alone

variable {β γ : Type} {M : Machine I T σ α} {t : T}

/-- **What one thread may do while the others wait.** -/
inductive Runs (M : Machine I T σ α) (t : T) {β : Type} : σ → Prog I β → σ → Prog I β → Prop
  | refl {m : σ} {p : Prog I β} : Runs M t m p m p
  | call {m m₁ m' : σ} {o : I.Op} {k : I.Ans o → Prog I β} {r : I.Ans o} {p : Prog I β}
      (ho : M.ops t m o r m₁) (h : Runs M t m₁ (k r) m' p) : Runs M t m (.op o k) m' p

theorem Runs.trans {m m₁ m' : σ} {p p₁ p' : Prog I β} (h : M.Runs t m p m₁ p₁)
    (h' : M.Runs t m₁ p₁ m' p') : M.Runs t m p m' p' := by
  induction h with
  | refl => exact h'
  | call ho _ ih => exact .call ho (ih h')

/-- The rule of sequence. -/
theorem Runs.bind {m m' : σ} {p p' : Prog I β} (h : M.Runs t m p m' p') (f : β → Prog I γ) :
    M.Runs t m (p >>= f) m' (p' >>= f) := by
  induction h with
  | refl => exact .refl
  | call ho _ ih => exact .call ho ih

/-- A run under a handler that answers as the machine may, on a state that shows the memory. -/
theorem runs_of_run {ρ X : Type} {h : Handler I ρ X} (mem : ρ → σ)
    (hh : ∀ v o r v', h v o = .ok (r, v') → M.ops t (mem v) o r (mem v')) {v v' : ρ}
    {p : Prog I β} {a : β} (hr : p.run h v = .ok (a, v')) :
    M.Runs t (mem v) p (mem v') (.ret a) := by
  induction p generalizing v with
  | ret b =>
    cases hr
    exact .refl
  | op o k ih =>
    rw [Prog.run_op] at hr
    cases ho : h v o with
    | error x =>
      rw [ho] at hr
      cases hr
    | ok r =>
      rw [ho] at hr
      exact .call (hh v o r.1 r.2 ho) (ih r.1 hr)

variable [DecidableEq T] {s : Pool I T σ α} {m' m'' : σ} {p p' : Prog I α} {a : α}

theorem Runs.reach {m : σ} (h : M.Runs t m p m' p') (c : T → Option (Prog I α)) :
    M.Reach ⟨m, Function.update c t (some p)⟩ ⟨m', Function.update c t (some p')⟩ := by
  induction h with
  | refl => exact .refl
  | call ho _ ih =>
    refine .head (.call (Function.update_self ..) ho) ?_
    rwa [Function.update_idem]

/-- An idle thread starts, and comes as far as it may. -/
theorem Runs.reach_of_start (hc : s.code t = none) (hp : M.start t s.mem p)
    (h : M.Runs t s.mem p m' p') : M.Reach s ⟨m', Function.update s.code t (some p')⟩ :=
  .head (.start hc hp) (h.reach s.code)

/-- It starts and returns. -/
theorem Runs.reach_of_return (hc : s.code t = none) (hp : M.start t s.mem p)
    (h : M.Runs t s.mem p m' (.ret a)) (hf : M.finish t a m' m'') : M.Reach s ⟨m'', s.code⟩ := by
  have hcode : s.code = Function.update (Function.update s.code t (some (.ret a))) t none := by
    rw [Function.update_idem, ← hc, Function.update_eq_self]
  have hr := (h.reach_of_start hc hp).tail (.finish (Function.update_self ..) hf)
  rwa [← hcode] at hr

/-- **A run between whose calls the others act**: before a call is answered, they may have made
another memory of the one that the thread has left. -/
theorem reach_of_run {X : Type} {h : Handler I σ X} {J : σ → Prop} {c : T → Option (Prog I α)}
    (hh : ∀ m o r m', J m → h m o = .ok (r, m') → J m' ∧ ∃ m₁, M.ops t m₁ o r m' ∧
      ∀ q, M.Reach ⟨m, Function.update c t (some q)⟩ ⟨m₁, Function.update c t (some q)⟩)
    {m m' : σ} {p : Prog I α} (hm : J m) (hr : p.run h m = .ok (a, m')) :
    M.Reach ⟨m, Function.update c t (some p)⟩ ⟨m', Function.update c t (some (.ret a))⟩ := by
  induction p generalizing m with
  | ret b =>
    cases hr
    exact .refl
  | op o k ih =>
    rw [Prog.run_op] at hr
    cases ho : h m o with
    | error x =>
      rw [ho] at hr
      cases hr
    | ok r =>
      rw [ho] at hr
      obtain ⟨hm', m₁, hcall, hothers⟩ := hh m o r.1 r.2 hm ho
      refine (hothers _).trans (.head (.call (Function.update_self ..) hcall) ?_)
      rw [Function.update_idem]
      exact ih r.1 hm' hr

end Alone

/-! ### A thread that is handled -/

section Handled

variable [DecidableEq T] {M : Machine I T σ α} {ρ X : Type} {h : Handler I ρ X} {t : T}
  {s : Pool I T σ α} {p : Prog I α}

/-- **A run that stops leaves the thread in front of the call at which it stopped**, where the
handler answers as the machine may, on a state that shows the memory. -/
theorem reach_of_error (mem : ρ → σ)
    (hh : ∀ v o r v', h v o = .ok (r, v') → M.ops t (mem v) o r (mem v')) {v : ρ}
    (hv : s.mem = mem v)
    (hc : s.code t = some p) {x : X} (hx : p.run h v = .error x) :
    ∃ v' o k, M.Reach s ⟨mem v', Function.update s.code t (some (.op o k))⟩ ∧
      h v' o = .error x := by
  induction p generalizing s v with
  | ret a => cases hx
  | op o k ih =>
    rw [Prog.run_op] at hx
    cases ho : h v o with
    | error y =>
      rw [ho] at hx
      cases hx
      refine ⟨v, o, k, ?_, ho⟩
      rw [← hv, ← hc, Function.update_eq_self]
    | ok r =>
      rw [ho] at hx
      obtain ⟨v', o', k', hr, hx'⟩ := ih r.1
        (s := ⟨mem r.2, Function.update s.code t (some (k r.1))⟩) rfl (Function.update_self ..) hx
      refine ⟨v', o', k', .head (.call hc (hv ▸ hh _ _ _ _ ho)) ?_, hx'⟩
      rwa [Function.update_idem] at hr

/-- The same for an idle thread that starts such a run. -/
theorem reach_of_start (mem : ρ → σ)
    (hh : ∀ v o r v', h v o = .ok (r, v') → M.ops t (mem v) o r (mem v')) {v : ρ}
    (hv : s.mem = mem v)
    (hc : s.code t = none) (hp : M.start t s.mem p) {x : X} (hx : p.run h v = .error x) :
    ∃ v' o k, M.Reach s ⟨mem v', Function.update s.code t (some (.op o k))⟩ ∧
      h v' o = .error x := by
  obtain ⟨v', o, k, hr, hx'⟩ := reach_of_error (M := M) (t := t) mem hh
    (s := ⟨s.mem, Function.update s.code t (some p)⟩) hv (Function.update_self ..) hx
  rw [Function.update_idem] at hr
  exact ⟨v', o, k, .head (.start hc hp) hr, hx'⟩

end Handled

end Machine

end Effects
