import LibFaketime.State
import LibFaketime.Lib.Interleave
import LibFaketime.Lib.Turns

/-!
# Processes and threads

The machine the programs of the library run on when more than one of them runs:
threads `T` of processes `P`, each process with its variables and its `time_mutex`,
all of them attached to one shared block and its semaphore. The memory of the
machine is `LibFaketime.Mem` and what a call does to it `LibFaketime.Mem.Answers`.

Everything the machine does not decide – what a clock shows, what a file holds,
whether a lock is interrupted – is left open, up to what a `LibFaketime.Surroundings`
excludes. Three things are recorded that no program can see: the turns taken at the
semaphore (`LibFaketime.Mem.turns`), so that *the `k`-th call in lock order* can be
spoken of, the last reading of every clock (`LibFaketime.Mem.seen`), and the first
reading a call has made (`LibFaketime.Mem.heard`), which for a function that reports the
time is the real time it was asked about.
-/

namespace LibFaketime

open Effects

variable {P T α : Type}

/-! ### The memory -/

/-- A reading of a real clock, with the result of the call. -/
inductive Reading where
  | clock (c : ClockId) (r : Option Timespec)
  | timeofday (r : Option Timeval)
deriving DecidableEq, Repr

/-- The memory of a system of processes whose threads return values of `α`. -/
structure Mem (P T α : Type) where
  /-- The variables of each process. -/
  proc : P → Proc
  /-- The shared block. -/
  shm : FtShared
  /-- Who holds the semaphore. -/
  sem : Option T
  /-- Who holds the mutex of a process. -/
  mutex : P → Option T
  /-- The thread-local `dont_fake`. -/
  dontFake : T → Bool
  /-- What is left of the configuration file a thread is reading. -/
  rest : T → CStr
  /-- The process has been initialized. -/
  ready : P → Bool
  /-- The turns taken at the semaphore. -/
  turns : Turns T α
  /-- What a thread last read from a clock. -/
  seen : T → ClockId → Option Timespec
  /-- What the call a thread is in has read first. -/
  heard : T → Option Reading

/-- What the surroundings of the processes may answer. -/
structure Surroundings where
  /-- The answers a call of the system may give. -/
  admits : (o : Op) → o.Ans → Prop
  /-- The contents a file may have when it is opened; nothing for a file that cannot
  be opened. -/
  file : CStr → Option CStr → Prop
  /-- What other processes may have made of the shared block when it is read. -/
  others : FtShared → FtShared → Prop

/-! ### What a call does -/

section Answers

variable [DecidableEq P] [DecidableEq T]

/-- Assign variables of a process. -/
def Mem.assign (m : Mem P T α) (p : P) (f : Proc → Proc) : Mem P T α :=
  { m with proc := Function.update m.proc p (f (m.proc p)) }

omit [DecidableEq T] in
theorem Mem.assign_proc_self {m : Mem P T α} {p : P} {f : Proc → Proc} :
    (m.assign p f).proc p = f (m.proc p) := Function.update_self ..

omit [DecidableEq T] in
theorem Mem.assign_proc_of_ne {m : Mem P T α} {p q : P} {f : Proc → Proc} (h : q ≠ p) :
    (m.assign p f).proc q = m.proc q := Function.update_of_ne h ..

/-- Take the semaphore, and a turn. -/
def Mem.acquire (m : Mem P T α) (t : T) : Mem P T α :=
  { m with sem := some t, turns := m.turns.take t }

/-- The first reading of a call is remembered. -/
def Mem.hear (m : Mem P T α) (t : T) (r : Reading) : Mem P T α :=
  { m with heard := Function.update m.heard t ((m.heard t).or (some r)) }

/-- **What a call of a thread may answer, and what it makes of the memory.** The
semaphore and the mutex block while somebody holds them, and releasing them does
not ask who holds them. A call about a file reads a piece of what is left of it, and
nothing only at its end. -/
def Mem.Answers (E : Surroundings) (pid : T → P) (t : T) (m : Mem P T α) :
    (o : Op) → o.Ans → Mem P T α → Prop
  | .load, s, m' => s = m.proc (pid t) ∧ m' = m
  | .store f, _, m' => m' = m.assign (pid t) f
  | .dontFake, b, m' => b = m.dontFake t ∧ m' = m
  | .setDontFake b, _, m' => m' = { m with dontFake := Function.update m.dontFake t b }
  | .ftSemLock, .acquired, m' => m.sem = none ∧ m' = m.acquire t
  | .ftSemLock, _, m' => m' = m
  | .ftSemUnlock, true, m' => m' = { m with sem := none }
  | .ftSemUnlock, false, m' => m' = m
  | .timeMutexLock, _, m' => m.mutex (pid t) = none ∧
      m' = { m with mutex := Function.update m.mutex (pid t) (some t) }
  | .timeMutexUnlock, _, m' => m' = { m with mutex := Function.update m.mutex (pid t) none }
  | .readShared, d, m' => E.others m.shm d ∧ m' = { m with shm := d }
  | .writeShared f, _, m' => m' = { m with shm := f m.shm }
  | .realClockGettime c, r, m' => E.admits (.realClockGettime c) r ∧
      m' = { m.hear t (.clock c r) with
        seen := Function.update m.seen t (Function.update (m.seen t) c r) }
  | .realGettimeofday, r, m' => E.admits .realGettimeofday r ∧ m' = m.hear t (.timeofday r)
  | .openRead path, r, m' => ∃ contents, E.file path contents ∧
      r.isSome = contents.isSome ∧
      m' = { m with rest := Function.update m.rest t (contents.getD []) }
  | .read _ count, .bytes l, m' => l <+: m.rest t ∧ l.length ≤ count ∧
      (l = [] → count = 0 ∨ m.rest t = []) ∧
      m' = { m with rest := Function.update m.rest t ((m.rest t).drop l.length) }
  | o, r, m' => E.admits o r ∧ m' = m

/-! ### The machine -/

/-- The return of a program: the turn it has taken is given back, and after a result
of `inits` the process is initialized. -/
def Mem.returned (inits : α → Bool) (p : P) (t : T) (a : α) (m : Mem P T α) : Mem P T α :=
  { m with
    turns := m.turns.give t a
    heard := Function.update m.heard t none
    ready := if inits a then Function.update m.ready p true else m.ready }

/-- The machine on which the threads `T` run programs of `start`. -/
def system (E : Surroundings) (pid : T → P) (inits : α → Bool)
    (start : T → Mem P T α → Sys α → Prop) : Machine sys T (Mem P T α) α where
  ops := Mem.Answers E pid
  start := start
  finish t a m m' := m' = m.returned inits (pid t) t a

end Answers

/-! ### Rules for the calls

One rule for each call that touches the memory, for any protocol. A call that only
reads disturbs nobody, so what is left to show is the rest of the program. -/

section Rules

variable [DecidableEq P] [DecidableEq T] {E : Surroundings} {pid : T → P} {inits : α → Bool}
  {start : T → Mem P T α → Sys α → Prop} {R : Protocol T (Mem P T α)} {t : T} {β : Type}
  {Q : β → Mem P T α → Prop} {m : Mem P T α}

omit [DecidableEq P] [DecidableEq T] in
theorem guar_refl (m : Mem P T α) : R.Guar t m m := fun u _ => R.rely_refl u m

theorem safe_pure {a : β} (h : ∀ m₁, R.rely t m m₁ → R.inv m₁ → Q a m₁) :
    R.Safe (system E pid inits start) t Q (pure a : Sys β) m := h

theorem safe_exit {code : ℤ} {msg : String} :
    R.Safe (system E pid inits start) t Q (exit code msg : Sys β) m :=
  fun _ _ _ r => Empty.elim r

theorem safe_exit_bind {γ : Type} {code : ℤ} {msg : String} {f : γ → Sys β} :
    R.Safe (system E pid inits start) t Q (exit code msg >>= f) m :=
  fun _ _ _ r => Empty.elim r

theorem safe_stalled : R.Safe (system E pid inits start) t Q (stalled : Sys β) m :=
  fun _ _ _ r => Empty.elim r

theorem safe_load {f : Proc → Sys β} (h : ∀ m₁, R.rely t m m₁ → R.inv m₁ →
    R.Safe (system E pid inits start) t Q (f (m₁.proc (pid t))) m₁) :
    R.Safe (system E pid inits start) t Q (load >>= f) m := by
  rintro m₁ h₁ hi r m₂ ⟨rfl, rfl⟩
  exact ⟨hi, guar_refl _, h _ h₁ hi⟩

theorem safe_store {g : Proc → Proc} {f : Unit → Sys β} (h : ∀ m₁, R.rely t m m₁ → R.inv m₁ →
    R.inv (m₁.assign (pid t) g) ∧ R.Guar t m₁ (m₁.assign (pid t) g) ∧
      R.Safe (system E pid inits start) t Q (f ()) (m₁.assign (pid t) g)) :
    R.Safe (system E pid inits start) t Q (store g >>= f) m := by
  rintro m₁ h₁ hi r m₂ rfl
  exact h m₁ h₁ hi

theorem safe_ftSemLock {f : LockResult → Sys β}
    (hacquired : ∀ m₁, R.rely t m m₁ → R.inv m₁ → m₁.sem = none →
      R.inv (m₁.acquire t) ∧ R.Guar t m₁ (m₁.acquire t) ∧
        R.Safe (system E pid inits start) t Q (f .acquired) (m₁.acquire t))
    (hother : ∀ m₁ r, R.rely t m m₁ → R.inv m₁ → r ≠ .acquired →
      R.Safe (system E pid inits start) t Q (f r) m₁) :
    R.Safe (system E pid inits start) t Q (ftSemLock >>= f) m := by
  intro m₁ h₁ hi r m₂ ho
  cases r with
  | acquired =>
    obtain ⟨hs, rfl⟩ := ho
    exact hacquired m₁ h₁ hi hs
  | interrupted =>
    obtain rfl : m₂ = m₁ := ho
    exact ⟨hi, guar_refl _, hother m₂ _ h₁ hi LockResult.noConfusion⟩
  | failed =>
    obtain rfl : m₂ = m₁ := ho
    exact ⟨hi, guar_refl _, hother m₂ _ h₁ hi LockResult.noConfusion⟩

/-- Release the semaphore. -/
def Mem.release (m : Mem P T α) : Mem P T α := { m with sem := none }

theorem safe_ftSemUnlock {f : Bool → Sys β}
    (h : ∀ m₁, R.rely t m m₁ → R.inv m₁ → R.inv m₁.release ∧ R.Guar t m₁ m₁.release ∧
      R.Safe (system E pid inits start) t Q (f true) m₁.release)
    (hfail : ∀ m₁, R.Safe (system E pid inits start) t Q (f false) m₁) :
    R.Safe (system E pid inits start) t Q (ftSemUnlock >>= f) m := by
  intro m₁ h₁ hi r m₂ ho
  cases r with
  | true =>
    obtain rfl : m₂ = m₁.release := ho
    exact h m₁ h₁ hi
  | false =>
    obtain rfl : m₂ = m₁ := ho
    exact ⟨hi, guar_refl _, hfail m₂⟩

theorem safe_readShared {f : FtShared → Sys β} (hE : ∀ d d', E.others d d' → d' = d)
    (h : ∀ m₁, R.rely t m m₁ → R.inv m₁ →
      R.Safe (system E pid inits start) t Q (f m₁.shm) m₁) :
    R.Safe (system E pid inits start) t Q (readShared >>= f) m := by
  rintro m₁ h₁ hi r m₂ ⟨ho, rfl⟩
  cases hE _ _ ho
  exact ⟨hi, guar_refl _, h _ h₁ hi⟩

theorem safe_writeShared {g : FtShared → FtShared} {f : Unit → Sys β}
    (h : ∀ m₁, R.rely t m m₁ → R.inv m₁ → R.inv { m₁ with shm := g m₁.shm } ∧
      R.Guar t m₁ { m₁ with shm := g m₁.shm } ∧
      R.Safe (system E pid inits start) t Q (f ()) { m₁ with shm := g m₁.shm }) :
    R.Safe (system E pid inits start) t Q (writeShared g >>= f) m := by
  rintro m₁ h₁ hi r m₂ rfl
  exact h m₁ h₁ hi

end Rules

/-! ### What a thread sees in a critical section -/

/-- The shared block, the variables of the process, and the clocks as a thread has
read them. -/
structure View where
  shm : FtShared
  proc : Proc
  seen : ClockId → Option Timespec

/-- The view of a thread. -/
def Mem.view (m : Mem P T α) (p : P) (t : T) : View := ⟨m.shm, m.proc p, m.seen t⟩

/-- The calls that are about nothing but the view. -/
def Op.Plain : Op → Prop
  | .load | .store _ | .readShared | .writeShared _ | .realClockGettime _ | .munmapStss => True
  | .setDontFake _ | .getenv _ | .openSave _ | .mapLoad _ | .ftShmInit | .exit _ _ => True
  | _ => False

/-- What such a call does to the view. -/
def View.Answers (E : Surroundings) (v : View) : (o : Op) → o.Ans → View → Prop
  | .load, s, v' => s = v.proc ∧ v' = v
  | .store f, _, v' => v' = { v with proc := f v.proc }
  | .readShared, d, v' => d = v.shm ∧ v' = v
  | .writeShared f, _, v' => v' = { v with shm := f v.shm }
  | .realClockGettime c, r, v' => E.admits (.realClockGettime c) r ∧
      v' = { v with seen := Function.update v.seen c r }
  | .setDontFake _, _, v' => v' = v
  | o, r, v' => E.admits o r ∧ v' = v

/-- A plain call does to the view what it does to the memory. -/
theorem Mem.Answers.view [DecidableEq P] [DecidableEq T] {E : Surroundings} {pid : T → P} {t : T}
    {m m' : Mem P T α} {o : Op} {r : o.Ans} (hE : ∀ d d', E.others d d' → d' = d)
    (h : m.Answers E pid t o r m') (ho : o.Plain) :
    (m.view (pid t) t).Answers E o r (m'.view (pid t) t) := by
  cases o with
  | load =>
    obtain ⟨rfl, rfl⟩ := h
    exact ⟨rfl, rfl⟩
  | store f =>
    obtain rfl : m' = _ := h
    simp [View.Answers, Mem.view, Mem.assign]
  | readShared =>
    obtain ⟨hd, rfl⟩ := h
    cases hE _ _ hd
    exact ⟨rfl, rfl⟩
  | writeShared f =>
    obtain rfl : m' = _ := h
    rfl
  | realClockGettime c =>
    obtain ⟨ha, rfl⟩ := h
    exact ⟨ha, by simp [Mem.view, Mem.hear]⟩
  | munmapStss =>
    obtain ⟨ha, rfl⟩ := h
    exact ⟨ha, rfl⟩
  | getenv w =>
    obtain ⟨ha, rfl⟩ := h
    exact ⟨ha, rfl⟩
  | openSave path =>
    obtain ⟨ha, rfl⟩ := h
    exact ⟨ha, rfl⟩
  | mapLoad path =>
    obtain ⟨ha, rfl⟩ := h
    exact ⟨ha, rfl⟩
  | ftShmInit =>
    obtain ⟨ha, rfl⟩ := h
    exact ⟨ha, rfl⟩
  | setDontFake b =>
    obtain rfl : m' = _ := h
    rfl
  | exit code msg => exact Empty.elim r
  | _ => exact ho.elim

section ViewRules

variable {E : Surroundings} {A : View → Op → Prop} {β : Type} {Q : β → View → Prop} {v : View}

theorem wp_load {f : Proc → Sys β} (hA : A v .load)
    (h : (f v.proc).Wp A (View.Answers E) Q v) : (load >>= f).Wp A (View.Answers E) Q v := by
  refine ⟨hA, ?_⟩
  rintro s v₁ ⟨rfl, rfl⟩
  exact h

theorem wp_store {g : Proc → Proc} {f : Unit → Sys β} (hA : A v (.store g))
    (h : (f ()).Wp A (View.Answers E) Q { v with proc := g v.proc }) :
    (store g >>= f).Wp A (View.Answers E) Q v := by
  refine ⟨hA, ?_⟩
  rintro - v₁ rfl
  exact h

theorem wp_readShared {f : FtShared → Sys β} (hA : A v .readShared)
    (h : (f v.shm).Wp A (View.Answers E) Q v) :
    (readShared >>= f).Wp A (View.Answers E) Q v := by
  refine ⟨hA, ?_⟩
  rintro s v₁ ⟨rfl, rfl⟩
  exact h

theorem wp_writeShared {g : FtShared → FtShared} {f : Unit → Sys β} (hA : A v (.writeShared g))
    (h : (f ()).Wp A (View.Answers E) Q { v with shm := g v.shm }) :
    (writeShared g >>= f).Wp A (View.Answers E) Q v := by
  refine ⟨hA, ?_⟩
  rintro - v₁ rfl
  exact h

theorem wp_munmapStss {f : Unit → Sys β} (hA : A v .munmapStss)
    (h : (f ()).Wp A (View.Answers E) Q v) :
    (munmapStss >>= f).Wp A (View.Answers E) Q v := by
  refine ⟨hA, ?_⟩
  rintro - v₁ ⟨-, rfl⟩
  exact h

theorem wp_getenv {x : EnvVar} {f : Option CStr → Sys β} (hA : A v (.getenv x))
    (h : ∀ r : Option CStr, E.admits (.getenv x) r → (f r).Wp A (View.Answers E) Q v) :
    (getenv x >>= f).Wp A (View.Answers E) Q v := by
  refine ⟨hA, ?_⟩
  rintro r v₁ ⟨hr, rfl⟩
  exact h r hr

theorem wp_exit {code : ℤ} {msg : String} (hA : A v (.exit code msg)) :
    (exit code msg : Sys β).Wp A (View.Answers E) Q v :=
  ⟨hA, fun r => Empty.elim r⟩

end ViewRules

end LibFaketime
