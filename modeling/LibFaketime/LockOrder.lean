import LibFaketime.Entry
import LibFaketime.RefreshCalls
import LibFaketime.Setting
import LibFaketime.Lib.WaitFor
import Mathlib.Data.Fintype.EquivFin

/-!
# The order of the locks

Two locks are taken on the way of a query: `time_mutex`, which the threads of a process share, and
the semaphore, which all processes share. Each function that takes the semaphore gives it back
before it returns, and takes no lock in between, and a query that takes the mutex does so first.

What a thread holds (`LibFaketime.Held`) is all that has to be known of it, and no other thread can
change that. So in any interleaving of threads of any number of processes, the initialization among
them, a lock is released by the thread that holds it, and the threads never wait for each other in a
circle (`LibFaketime.locks_never_deadlock`). The functions of the `stat` family are the exception:
they hold the semaphore around whole queries.
-/

namespace LibFaketime

open Effects Effects.Prog

/-! ### What a thread holds -/

/-- Which of the two locks a thread holds. -/
structure Held where
  sem : Bool
  mutex : Bool
deriving DecidableEq, Repr

/-- The calls a thread may make. -/
def Held.May (v : Held) : Op → Prop
  | .ftSemLock => v.sem = false
  | .ftSemUnlock => v.sem = true
  | .timeMutexLock => v = ⟨false, false⟩
  | .timeMutexUnlock => v = ⟨false, true⟩
  | _ => True

/-- What a thread holds after a call. -/
def Held.After (v : Held) : (o : Op) → o.Ans → Held → Prop
  | .ftSemLock, .acquired, v' => v' = { v with sem := true }
  | .ftSemUnlock, true, v' => v' = { v with sem := false }
  | .timeMutexLock, _, v' => v' = { v with mutex := true }
  | .timeMutexUnlock, _, v' => v' = { v with mutex := false }
  | _, _, v' => v' = v

/-- **A program that gives back what it takes.** The mutex may be held meanwhile. -/
def Balanced (mutex : Bool) {β : Type} (p : Sys β) : Prop :=
  p.Wp Held.May Held.After (fun _ v => v = ⟨false, mutex⟩) ⟨false, mutex⟩

/-- The calls that are not about the locks. -/
def Op.Lockless : Op → Prop
  | .ftSemLock | .ftSemUnlock | .timeMutexLock | .timeMutexUnlock => False
  | _ => True

section Balanced

variable {β γ : Type} {mutex : Bool} {v : Held} {Q : β → Held → Prop}

theorem Held.may_of_lockless {o : Op} (ho : o.Lockless) : v.May o := by
  cases o with
  | ftSemLock | ftSemUnlock | timeMutexLock | timeMutexUnlock => exact ho.elim
  | _ => trivial

theorem Held.After.eq {o : Op} {r : o.Ans} {v' : Held} (ho : o.Lockless) (h : v.After o r v') :
    v' = v := by
  cases o with
  | ftSemLock | ftSemUnlock | timeMutexLock | timeMutexUnlock => exact ho.elim
  | _ => exact h

theorem Held.after_of_lockless {o : Op} {r : o.Ans} (ho : o.Lockless) : v.After o r v := by
  cases o with
  | ftSemLock | ftSemUnlock | timeMutexLock | timeMutexUnlock => exact ho.elim
  | _ => rfl

/-- A program without locks holds at its end what it held. -/
theorem wp_of_lockless {p : Sys β} (hp : p.Uses Op.Lockless) :
    p.Wp Held.May Held.After (fun _ v' => v' = v) v := by
  induction p with
  | ret a => rfl
  | op o k ih =>
    refine ⟨Held.may_of_lockless hp.1, fun r v' hv' => ?_⟩
    obtain rfl : v' = v := Held.After.eq hp.1 hv'
    exact ih r (hp.2 r)

theorem balanced_of_lockless {p : Sys β} (hp : p.Uses Op.Lockless) : Balanced mutex p :=
  wp_of_lockless hp

theorem balanced_pure (a : β) : Balanced mutex (pure a : Sys β) := rfl

theorem Balanced.bind {p : Sys β} {f : β → Sys γ} (hp : Balanced mutex p)
    (hf : ∀ a, Balanced mutex (f a)) : Balanced mutex (p >>= f) := by
  refine Wp.bind hp ?_
  rintro a _ rfl
  exact hf a

/-- A call that is not about the locks. -/
theorem balanced_step {o : Op} {f : o.Ans → Sys γ} (ho : o.Lockless)
    (hf : ∀ r, Balanced mutex (f r)) : Balanced mutex (perform (I := sys) o >>= f) :=
  (balanced_of_lockless (uses_perform ho)).bind hf

theorem wp_step {o : Op} {f : o.Ans → Sys β} (ho : o.Lockless)
    (hf : ∀ r, (f r).Wp Held.May Held.After Q v) :
    (perform (I := sys) o >>= f).Wp Held.May Held.After Q v := by
  refine ⟨Held.may_of_lockless ho, fun r v' hv' => ?_⟩
  obtain rfl : v' = v := Held.After.eq ho hv'
  exact hf r

theorem balanced_exit {code : ℤ} {msg : String} : Balanced mutex (exit code msg : Sys β) :=
  ⟨trivial, fun e => Empty.elim e⟩

theorem balanced_stalled : Balanced mutex (stalled : Sys β) := ⟨trivial, fun e => Empty.elim e⟩

/-- The semaphore is taken, or it is not. -/
theorem balanced_ftSemLock {f : LockResult → Sys β}
    (hacquired : (f .acquired).Wp Held.May Held.After (fun _ v => v = ⟨false, mutex⟩) ⟨true, mutex⟩)
    (hother : ∀ r, r ≠ .acquired → Balanced mutex (f r)) : Balanced mutex (ftSemLock >>= f) := by
  refine ⟨rfl, fun r v' hv' => ?_⟩
  cases r with
  | acquired =>
    obtain rfl : v' = _ := hv'
    exact hacquired
  | interrupted =>
    obtain rfl : v' = _ := hv'
    exact hother _ LockResult.noConfusion
  | failed =>
    obtain rfl : v' = _ := hv'
    exact hother _ LockResult.noConfusion

/-- **The end of a critical section**: the semaphore is released, or the process exits. -/
theorem wp_ftSemUnlock {f : Bool → Sys β} (htrue : (f true).Wp Held.May Held.After Q ⟨false, mutex⟩)
    (hfalse : (f false).Wp Held.May Held.After Q ⟨true, mutex⟩) :
    (ftSemUnlock >>= f).Wp Held.May Held.After Q ⟨true, mutex⟩ := by
  refine ⟨rfl, fun b v' hv' => ?_⟩
  cases b with
  | true =>
    obtain rfl : v' = _ := hv'
    exact htrue
  | false =>
    obtain rfl : v' = _ := hv'
    exact hfalse

theorem wp_heldExit {code : ℤ} {msg : String} {f : γ → Sys β} :
    (exit code msg >>= f).Wp Held.May Held.After Q v := ⟨trivial, fun e => Empty.elim e⟩

/-- The critical section that ends a function. -/
theorem wp_release (msg : String) :
    (ftSemUnlock >>= fun b => if b = true then pure () else exit 1 msg : Sys Unit).Wp Held.May
      Held.After (fun _ v => v = ⟨false, mutex⟩) ⟨true, mutex⟩ :=
  wp_ftSemUnlock rfl ⟨trivial, fun e => Empty.elim e⟩

/-- The mutex is taken by a thread that holds nothing. -/
theorem wp_timeMutexLock {f : Unit → Sys β} (hf : (f ()).Wp Held.May Held.After Q ⟨false, true⟩) :
    (timeMutexLock >>= f).Wp Held.May Held.After Q ⟨false, false⟩ := by
  refine ⟨rfl, fun _ v' hv' => ?_⟩
  obtain rfl : v' = _ := hv'
  exact hf

theorem wp_timeMutexUnlock {f : Unit → Sys β}
    (hf : (f ()).Wp Held.May Held.After Q ⟨false, false⟩) :
    (timeMutexUnlock >>= f).Wp Held.May Held.After Q ⟨false, true⟩ := by
  refine ⟨rfl, fun _ v' hv' => ?_⟩
  obtain rfl : v' = _ := hv'
  exact hf

end Balanced

/-! ### The functions that take the semaphore -/

section Functions

variable {B : Build} {β : Type} {mutex : Bool}

/-- What has been shown of the functions without locks is that they use none. -/
theorem lockless_of_routine {p : Sys β} (hp : p.Uses (Routine False)) : p.Uses Op.Lockless := by
  refine hp.mono fun o ho => ?_
  cases o with
  | ftSemLock | ftSemUnlock | timeMutexLock | timeMutexUnlock => exact ho.elim
  | _ => trivial

theorem lockless_of_plain {p : Sys β} (hp : p.Uses (Plain False)) : p.Uses Op.Lockless :=
  lockless_of_routine (routine_of_plain hp)

theorem lockless_of_sets {p : Sys β} (hp : p.Uses (Sets fun _ => True)) : p.Uses Op.Lockless := by
  refine hp.mono fun o ho => ?_
  cases o with
  | ftSemLock | ftSemUnlock | timeMutexLock | timeMutexUnlock => exact ho.elim
  | _ => trivial

theorem lockless_publishStarttime : publishStarttime.Uses Op.Lockless :=
  uses_perform_bind trivial fun _ => ⟨trivial, fun _ => ⟨trivial, fun _ => ⟨trivial, fun _ =>
    ⟨trivial, fun _ => ⟨trivial, fun _ => ⟨trivial, fun _ => ⟨trivial, fun _ => ⟨trivial, fun _ =>
      trivial⟩⟩⟩⟩⟩⟩⟩⟩

theorem lockless_setGlobalStarttime : setGlobalStarttime.Uses Op.Lockless :=
  (lockless_of_plain plain_systemTimeFromSystem).bind fun _ => lockless_publishStarttime

theorem lockless_leaveReplay : leaveReplay.Uses Op.Lockless := by
  have hhand : handOver.Uses Op.Lockless := by
    refine uses_perform_bind trivial fun d => ?_
    split
    · exact uses_perform_bind trivial fun _ => lockless_setGlobalStarttime
    · exact lockless_of_plain plain_sharedToSystemTime
  refine uses_perform_bind trivial fun _ => hhand.bind fun _ => ?_
  exact uses_perform_bind trivial fun _ => uses_perform trivial

theorem balanced_resetTime : Balanced mutex resetTime := by
  refine (balanced_of_lockless (lockless_of_plain plain_systemTimeFromSystem)).bind fun _ => ?_
  refine balanced_step trivial fun s => ?_
  split
  · refine balanced_ftSemLock ?_ fun r hr => ?_
    · refine (wp_of_lockless lockless_publishStarttime).bind ?_
      rintro _ _ rfl
      exact wp_release _
    · cases r with
      | acquired => exact absurd rfl hr
      | interrupted | failed => exact balanced_exit
  · exact balanced_pure _

theorem balanced_nextTime (retries : ℕ) (tp : Timespec) (ticklen : Proc → Timespec) :
    Balanced mutex (nextTime retries tp ticklen) := by
  induction retries with
  | zero => exact balanced_stalled
  | succ retries ih =>
    refine balanced_step trivial fun s => ?_
    split
    · refine balanced_ftSemLock ?_ fun r hr => ?_
      · refine wp_step trivial fun _ => wp_step trivial fun _ => wp_step trivial fun _ => ?_
        exact wp_step trivial fun _ => wp_ftSemUnlock (balanced_pure _) wp_heldExit
      · cases r with
        | acquired => exact absurd rfl hr
        | interrupted => exact ih
        | failed => exact balanced_exit
    · exact balanced_pure _

theorem balanced_loadTime (retries : ℕ) (tp : Timespec) :
    Balanced mutex (loadTime retries tp) := by
  induction retries with
  | zero => exact balanced_stalled
  | succ retries ih =>
    refine balanced_step trivial fun s => ?_
    dsimp only
    split
    · refine balanced_ftSemLock ?_ fun r hr => ?_
      · refine wp_step trivial fun d => ?_
        split
        · refine (wp_of_lockless lockless_leaveReplay).bind ?_
          rintro _ _ rfl
          exact wp_ftSemUnlock (balanced_pure _) wp_heldExit
        · refine wp_step trivial fun s => wp_step trivial fun _ => ?_
          exact wp_ftSemUnlock (balanced_pure _) wp_heldExit
      · cases r with
        | acquired => exact absurd rfl hr
        | interrupted => exact ih
        | failed => exact balanced_exit
    · exact balanced_pure _

theorem uses_writeAllLoop {A : Op → Prop} (hwrite : ∀ bytes, A (.write bytes))
    (hstalled : A .stalled)
    (fuel : ℕ) (rest : List UInt8) (interrupted : ℕ) :
    (writeAllLoop fuel rest interrupted).Uses A := by
  induction fuel generalizing rest interrupted with
  | zero => exact ⟨hstalled, fun e => Empty.elim e⟩
  | succ fuel ih =>
    unfold writeAllLoop
    split
    · exact uses_pure _
    · refine uses_perform_bind (hwrite _) fun r => ?_
      split
      · split
        · exact uses_pure _
        · exact ih _ _
      · exact uses_pure _
      · split
        · exact uses_pure _
        · split
          · exact uses_pure _
          · exact ih _ _

/-- The record is written under the semaphore. -/
theorem balanced_saveTime (retries : ℕ) (tp : Timespec) :
    Balanced mutex (saveTime retries tp) := by
  have hwrite : (writeAll (savedTimestamp tp).bytes).Uses Op.Lockless :=
    uses_writeAllLoop (fun _ => trivial) trivial _ _ _
  have hlock : (lockForSave retries).Wp Held.May Held.After (fun _ v => v = ⟨true, mutex⟩)
      ⟨false, mutex⟩ := by
    induction retries with
    | zero => exact ⟨trivial, fun e => Empty.elim e⟩
    | succ retries ih =>
      refine ⟨rfl, fun r v' hv' => ?_⟩
      cases r with
      | acquired => exact hv'
      | interrupted =>
        obtain rfl : v' = _ := hv'
        exact ih
      | failed => exact ⟨trivial, fun e => Empty.elim e⟩
  refine balanced_step trivial fun s => ?_
  dsimp only
  split
  · refine hlock.bind ?_
    rintro _ _ rfl
    refine (wp_of_lockless hwrite).bind ?_
    rintro b _ rfl
    split
    · exact wp_release _
    · exact wp_step trivial fun _ => wp_release _
  · exact balanced_pure _

theorem balanced_agreeOnStarttime : Balanced mutex agreeOnStarttime := by
  refine balanced_step trivial fun s => ?_
  split
  · refine balanced_ftSemLock ?_ fun r hr => ?_
    · refine wp_step trivial fun d => ?_
      split
      · refine (wp_of_lockless lockless_setGlobalStarttime).bind ?_
        rintro _ _ rfl
        exact wp_release _
      · refine (wp_of_lockless (lockless_of_plain plain_sharedToSystemTime)).bind ?_
        rintro _ _ rfl
        exact wp_release _
    · cases r with
      | acquired => exact absurd rfl hr
      | interrupted | failed => exact balanced_exit
  · exact balanced_of_lockless (lockless_of_plain plain_systemTimeFromSystem)

/-! ### Queries and the initialization -/

theorem covers_balanced_refresh : RefreshCovers fun p => Balanced mutex p where
  ret := balanced_pure
  seq := Balanced.bind
  call o ho := balanced_of_lockless (uses_perform (by cases o <;> trivial))
  set _ _ := balanced_of_lockless (uses_perform trivial)
  reset := balanced_resetTime
  xreset := balanced_of_lockless (lockless_of_plain plain_xreset)

theorem balanced_refreshConfig : Balanced mutex (refreshConfig B) :=
  covers_balanced_refresh.refreshConfig (fun _ => balanced_of_lockless (uses_perform trivial))
    (balanced_of_lockless
      (lockless_of_routine (routine_of_refreshing refreshing_getFakeMonotonicSetting)))

theorem balanced_parseFtString (text : CStr) : Balanced mutex (parseFtString B text) :=
  covers_balanced_refresh.parseFtString (covers_balanced_refresh.parseByPrefix
    (fun _ => balanced_of_lockless (uses_perform trivial)) text)

theorem balanced_fakeByMode (clkId : ClockId) (tp : Timespec) :
    Balanced mutex (fakeByMode B clkId tp) := by
  refine balanced_step trivial fun s => ?_
  split
  · exact balanced_pure _
  · split
    · exact (balanced_nextTime _ _ _).bind fun _ => balanced_pure _
    · exact balanced_pure _
  · exact balanced_pure _

theorem balanced_fakeLocked (clkId : ClockId) (tp : Timespec) :
    Balanced mutex (fakeLocked B clkId tp) := by
  refine (balanced_of_lockless
    (lockless_of_routine (routine_of_aloof (aloof_limitsAndSpawn _ _)))).bind fun b => ?_
  split
  · exact balanced_pure _
  · refine balanced_refreshConfig.bind fun _ => balanced_step trivial fun s => ?_
    split
    · refine (balanced_loadTime _ _).bind fun r => ?_
      dsimp only
      split
      · exact balanced_pure _
      · exact balanced_fakeByMode _ _
    · exact balanced_fakeByMode _ _

/-- **A query takes the mutex before the semaphore**, and gives back both. -/
theorem balanced_fakeClockGettime (clkId : ClockId) (tp : Timespec) :
    Balanced false (fakeClockGettime B clkId tp) := by
  have hlast : ∀ out, Balanced false (finishQuery B clkId tp out) := by
    intro out
    cases out with
    | abort code tp' => exact balanced_pure _
    | faked tp' =>
      refine (balanced_saveTime _ _).bind fun _ => ?_
      exact balanced_step trivial fun _ => balanced_pure _
  refine balanced_step trivial fun b => ?_
  split
  · exact balanced_pure _
  · split
    · exact balanced_step trivial fun s => balanced_pure _
    · cases B.pthreadSinglethreadedTime with
      | true =>
        refine wp_timeMutexLock (Wp.bind (balanced_fakeLocked clkId tp) ?_)
        rintro out _ rfl
        exact wp_timeMutexUnlock (hlast out)
      | false => exact (balanced_fakeLocked clkId tp).bind fun out => hlast out

theorem covers_balanced : Covers B fun p => Balanced false p where
  ret := balanced_pure
  seq := Balanced.bind
  call o ho := balanced_of_lockless (uses_perform (by cases o <;> trivial))
  query := balanced_fakeClockGettime
  monotonic := balanced_of_lockless
    (lockless_of_routine (routine_of_refreshing refreshing_getFakeMonotonicSetting))
  normalize := balanced_of_lockless (uses_perform trivial)

/-- So does the initialization. -/
theorem balanced_initProg : Balanced false (initProg B) := by
  have hfirst : Balanced false (firstSetting B) := by
    refine balanced_step trivial fun r => ?_
    cases r with
    | some text => exact balanced_step trivial fun _ => balanced_parseFtString text
    | none =>
      refine Balanced.bind ?_ fun _ => balanced_pure _
      exact covers_balanced_refresh.readConfigFile balanced_parseFtString
  have hsets : ∀ {β : Type} {p : Sys β}, p.Uses (Sets fun _ => True) → Balanced false p :=
    fun hp => balanced_of_lockless (lockless_of_sets hp)
  refine Balanced.bind ?_ fun _ => balanced_pure _
  refine balanced_step trivial fun _ => ?_
  refine (hsets (uses_readSettings unaffected_true (fun _ _ h => h)
    fun _ _ h => h)).bind fun _ => ?_
  refine (hsets (uses_skipCmds fun _ h => h)).bind fun _ => ?_
  refine (hsets (uses_onlyCmds fun _ h => h)).bind fun _ => ?_
  refine (hsets (uses_readLimitsAndFiles unaffected_true (fun _ _ _ _ h => h)
    fun _ _ h => h)).bind fun _ => ?_
  refine balanced_agreeOnStarttime.bind fun _ => hfirst.bind fun _ => ?_
  exact balanced_of_lockless (uses_perform trivial)

/-- **Every function outside of the `stat` family gives back what it takes.** -/
theorem balanced_entry {e : Entry} (he : e.IsStat = false) : Balanced false (e.prog B) :=
  covers_balanced.entry_of_not_stat he

end Functions

/-! ### All threads -/

section Threads

variable {P T : Type} [DecidableEq P] [DecidableEq T]

/-- The two kinds of locks. -/
inductive Lock (P : Type) where
  | timeMutex (p : P)
  | sharedSem
deriving DecidableEq

/-- The semaphore comes after the mutexes. -/
def Lock.rank : Lock P → Fin 2
  | .timeMutex _ => 0
  | .sharedSem => 1

/-- Who holds a lock. -/
def Mem.holder {α : Type} (m : Mem P T α) : Lock P → Option T
  | .timeMutex p => m.mutex p
  | .sharedSem => m.sem

/-- What a thread holds. -/
def Mem.held {α : Type} (pid : T → P) (m : Mem P T α) (t : T) : Held :=
  ⟨m.sem = some t, m.mutex (pid t) = some t⟩

/-- The lock a program asks for. -/
def nextLock {α : Type} (p : P) : Option (Sys α) → Option (Lock P)
  | some (.op .ftSemLock _) => some .sharedSem
  | some (.op .timeMutexLock _) => some (.timeMutex p)
  | _ => none

/-- **Who waits for whom** in a pool. -/
def waiting {α : Type} (pid : T → P) (s : Pool sys T (Mem P T α) α) : WaitFor.State T (Lock P) where
  holder := s.mem.holder
  wants t := nextLock (pid t) (s.code t)

variable {α : Type} {E : Surroundings} {pid : T → P} {t u : T} {m m' : Mem P T α} {o : Op}
  {r : o.Ans}

/-- A call that is not about the locks leaves both of them alone. -/
theorem Mem.Answers.locks_eq (h : m.Answers E pid t o r m') (ho : o.Lockless) :
    m'.sem = m.sem ∧ m'.mutex = m.mutex := by
  cases o with
  | load => rw [h.2]; exact ⟨rfl, rfl⟩
  | ftSemLock | ftSemUnlock | timeMutexLock | timeMutexUnlock => exact ho.elim
  | store f => rw [show m' = _ from h]; exact ⟨rfl, rfl⟩
  | setDontFake b => rw [show m' = _ from h]; exact ⟨rfl, rfl⟩
  | writeShared f => rw [show m' = _ from h]; exact ⟨rfl, rfl⟩
  | readShared => rw [h.2]; exact ⟨rfl, rfl⟩
  | realClockGettime c => rw [h.2]; exact ⟨rfl, rfl⟩
  | realGettimeofday => rw [h.2]; exact ⟨rfl, rfl⟩
  | openRead path =>
    obtain ⟨contents, -, -, rfl⟩ := h
    exact ⟨rfl, rfl⟩
  | read fd count =>
    cases r with
    | bytes l => rw [h.2.2.2]; exact ⟨rfl, rfl⟩
    | failed => rw [h.2]; exact ⟨rfl, rfl⟩
  | _ => rw [h.2]; exact ⟨rfl, rfl⟩

omit [DecidableEq P] in
theorem held_congr (hsem : m'.sem = some u ↔ m.sem = some u)
    (hmutex : m'.mutex (pid u) = some u ↔ m.mutex (pid u) = some u) :
    m'.held pid u = m.held pid u := by
  unfold Mem.held
  congr 1
  · exact decide_eq_decide.mpr hsem
  · exact decide_eq_decide.mpr hmutex

omit [DecidableEq T] in
/-- The mutex of `t`'s process passes between `t` and nobody. -/
theorem mutex_update_iff {x y : Option T} (hx : m.mutex (pid t) = x) (hu : u ≠ t)
    (hxt : x = none ∨ x = some t) (hyt : y = none ∨ y = some t) :
    Function.update m.mutex (pid t) y (pid u) = some u ↔ m.mutex (pid u) = some u := by
  have hne : ∀ z : Option T, z = none ∨ z = some t → z ≠ some u := by
    rintro z (rfl | rfl)
    · exact nofun
    · exact fun h => hu (Option.some.inj h).symm
  by_cases hpid : pid u = pid t
  · rw [hpid, Function.update_self, hx]
    exact iff_of_false (hne y hyt) (hne x hxt)
  · rw [Function.update_of_ne hpid]

/-- **A call does to what its thread holds what it should**, and takes nothing from the others. -/
theorem Mem.Answers.held (h : m.Answers E pid t o r m') (ho : (m.held pid t).May o) :
    (m.held pid t).After o r (m'.held pid t) ∧ ∀ u, u ≠ t → m'.held pid u = m.held pid u := by
  have hother : ∀ u, u ≠ t → some t ≠ some u := fun u hu h => hu (Option.some.inj h).symm
  -- only the four calls about the two locks change what is held
  by_cases hlock : o.Lockless
  · obtain ⟨hsem, hmutex⟩ := h.locks_eq hlock
    have hsame : ∀ u, m'.held pid u = m.held pid u :=
      fun u => held_congr (by rw [hsem]) (by rw [hmutex])
    rw [hsame t]
    exact ⟨Held.after_of_lockless hlock, fun u _ => hsame u⟩
  · cases o with
    | ftSemLock =>
      cases r with
      | acquired =>
        obtain ⟨hfree, rfl⟩ := h
        refine ⟨?_, fun u hu => held_congr ?_ Iff.rfl⟩
        · exact congrArg (Held.mk · (m.held pid t).mutex) (decide_eq_true rfl)
        · rw [hfree]
          exact iff_of_false (hother u hu) nofun
      | interrupted | failed =>
        obtain rfl : m' = m := h
        exact ⟨rfl, fun _ _ => rfl⟩
    | ftSemUnlock =>
      have hheld : m.sem = some t := of_decide_eq_true ho
      cases r with
      | true =>
        obtain rfl : m' = _ := h
        refine ⟨?_, fun u hu => held_congr ?_ Iff.rfl⟩
        · simp [Held.After, Mem.held]
        · rw [hheld]
          exact iff_of_false nofun (hother u hu)
      | false =>
        obtain rfl : m' = m := h
        exact ⟨rfl, fun _ _ => rfl⟩
    | timeMutexLock =>
      obtain ⟨hfree, rfl⟩ := h
      refine ⟨?_, fun u hu => held_congr Iff.rfl ?_⟩
      · simp [Held.After, Mem.held]
      · exact mutex_update_iff hfree hu (Or.inl rfl) (Or.inr rfl)
    | timeMutexUnlock =>
      obtain rfl : m' = _ := h
      have hheld : m.mutex (pid t) = some t := of_decide_eq_true (congrArg Held.mutex ho)
      refine ⟨?_, fun u hu => held_congr Iff.rfl ?_⟩
      · simp [Held.After, Mem.held]
      · exact mutex_update_iff hheld hu (Or.inr rfl) (Or.inl rfl)
    | _ => exact absurd trivial hlock

/-- The mutex of a process is held by its own threads only. -/
def Mem.OwnMutex (pid : T → P) (m : Mem P T α) : Prop := ∀ p t, m.mutex p = some t → pid t = p

theorem Mem.OwnMutex.answers (hm : m.OwnMutex pid) (h : m.Answers E pid t o r m') :
    m'.OwnMutex pid := by
  have hupdate : ∀ x : Option T, x = none ∨ x = some t → ∀ p u,
      Function.update m.mutex (pid t) x p = some u → pid u = p := by
    intro x hx p u hu
    by_cases hp : p = pid t
    · rw [hp, Function.update_self] at hu
      rcases hx with rfl | rfl
      · cases hu
      · rw [← Option.some.inj hu, hp]
    · rw [Function.update_of_ne hp] at hu
      exact hm p u hu
  by_cases hlock : o.Lockless
  · rw [Mem.OwnMutex, (h.locks_eq hlock).2]
    exact hm
  · cases o with
    | ftSemLock =>
      cases r with
      | acquired =>
        obtain ⟨-, rfl⟩ := h
        exact hm
      | interrupted | failed => rwa [show m' = m from h]
    | ftSemUnlock =>
      cases r with
      | true =>
        obtain rfl : m' = _ := h
        exact hm
      | false => rwa [show m' = m from h]
    | timeMutexLock =>
      obtain ⟨-, rfl⟩ := h
      exact hupdate _ (Or.inr rfl)
    | timeMutexUnlock =>
      obtain rfl : m' = _ := h
      exact hupdate _ (Or.inl rfl)
    | _ => exact absurd trivial hlock

/-- What the threads see of the locks when all of them give back what they take. -/
def lockViews (E : Surroundings) (pid : T → P) (inits : α → Bool)
    (start : T → Mem P T α → Sys α → Prop) (hstart : ∀ t m p, start t m p → Balanced false p) :
    (system E pid inits start).Views where
  View _ := Held
  view t m := m.held pid t
  allowed _ := Held.May
  answers _ := Held.After
  done _ _ v := v = ⟨false, false⟩
  idle t m := m.held pid t = ⟨false, false⟩
  inv m := m.OwnMutex pid
  start t m p _ hidle hp := by
    rw [hidle]
    exact hstart t m p hp
  call t m o r m' hm ho h := by
    obtain ⟨hself, hothers⟩ := Mem.Answers.held h ho
    refine ⟨hm.answers h, hself, fun u hu => ⟨hothers u hu, fun hidle => ?_⟩⟩
    rw [hothers u hu]
    exact hidle
  finish t a m m' hm hdone h := by
    obtain rfl : m' = _ := h
    exact ⟨hm, hdone, fun _ _ => ⟨rfl, id⟩⟩

/-- **What the threads hold** in any pool a run reaches, if all programs give back what they
take. -/
theorem held_of_reach {inits : α → Bool} {start : T → Mem P T α → Sys α → Prop}
    (hstart : ∀ t m p, start t m p → Balanced false p) {m₀ : Mem P T α} (hsem : m₀.sem = none)
    (hmutex : ∀ p, m₀.mutex p = none) {s : Pool sys T (Mem P T α) α}
    (hr : (system E pid inits start).Reach (Pool.init sys T α m₀) s) :
    s.mem.OwnMutex pid ∧ (∀ t o k, s.code t = some (.op o k) → (s.mem.held pid t).May o) ∧
      ∀ t, (s.code t = none ∨ ∃ a, s.code t = some (.ret a)) →
        s.mem.held pid t = ⟨false, false⟩ := by
  have hfree₀ : ∀ t, m₀.held pid t = ⟨false, false⟩ := by
    intro t
    simp [Mem.held, hsem, hmutex]
  obtain ⟨hown, hleft⟩ := (lockViews E pid inits start hstart).reach hr
    (fun p t hp => by rw [Pool.init, hmutex] at hp; cases hp) hfree₀
  refine ⟨hown, fun t o k hc => (hleft t).allows hc, ?_⟩
  rintro t (hc | ⟨a, hc⟩)
  · have ht := hleft t
    rwa [Machine.Views.Left, hc] at ht
  · exact (hleft t).returns hc

end Threads

/-! ### The main result -/

section Main

variable {P T : Type} [DecidableEq P] [DecidableEq T] {B : Build} {E : Surroundings} {pid : T → P}
  {first : P → T} {may : T → Mem P T Reply → Entry → Prop}

omit [DecidableEq P] in
/-- **The order of the locks is kept** by threads that only make the calls they may. -/
theorem ordered_waiting {s : Pool sys T (Mem P T Reply) Reply} (hm : s.mem.OwnMutex pid)
    (hmay : ∀ t o k, s.code t = some (.op o k) → (s.mem.held pid t).May o) :
    (waiting pid s).Ordered Lock.rank := by
  intro t l l' hl hl'
  have hheld : ∀ p, s.mem.mutex p = some t → (s.mem.held pid t).mutex = true := by
    intro p hp
    obtain rfl : pid t = p := hm p t hp
    exact decide_eq_true hp
  change nextLock (pid t) (s.code t) = some l at hl
  unfold nextLock at hl
  split at hl
  next k hc =>
    cases hl
    have hsem : (s.mem.held pid t).sem = false := hmay t _ k hc
    cases l' with
    | timeMutex p => exact Fin.zero_lt_one
    | sharedSem => exact absurd hl' (of_decide_eq_false hsem)
  next k hc =>
    cases hl
    have hfree : s.mem.held pid t = ⟨false, false⟩ := hmay t _ k hc
    cases l' with
    | timeMutex p =>
      have htrue := hheld p hl'
      rw [hfree] at htrue
      cases htrue
    | sharedSem => exact absurd hl' (of_decide_eq_false (congrArg Held.sem hfree))
  next => cases hl

omit [DecidableEq P] in
/-- Who holds a lock holds something. -/
theorem held_ne_of_holder {s : Pool sys T (Mem P T Reply) Reply} (hm : s.mem.OwnMutex pid) {u : T}
    {l : Lock P} (hl : (waiting pid s).holder l = some u) :
    s.mem.held pid u ≠ ⟨false, false⟩ := by
  intro hfree
  cases l with
  | timeMutex p =>
    obtain rfl : pid u = p := hm p u hl
    exact of_decide_eq_false (congrArg Held.mutex hfree) hl
  | sharedSem => exact of_decide_eq_false (congrArg Held.sem hfree) hl

/-- **The threads never wait for each other in a circle.** Whatever the threads of any number of
processes call apart from `stat`, and however their calls are interleaved: a thread releases only
what it holds and takes the mutex of its process before the semaphore, one that has returned holds
nothing, and whenever a thread has to wait, one that holds a lock does not have to. -/
theorem locks_never_deadlock (hmay : ∀ t m e, may t m e → e.IsStat = false)
    {m₀ : Mem P T Reply} (hsem : m₀.sem = none) (hmutex : ∀ p, m₀.mutex p = none)
    {s : Pool sys T (Mem P T Reply) Reply}
    (hr : (library B E pid first may).Reach (Pool.init sys T Reply m₀) s) :
    (∀ t, s.code t = none → s.mem.held pid t = ⟨false, false⟩) ∧
      (∀ t o k, s.code t = some (.op o k) → (s.mem.held pid t).May o) ∧
      (∀ t, ¬ Relation.TransGen (waiting pid s).WaitsFor t t) ∧
      ∀ t, (waiting pid s).Blocked t → ∃ u o k, s.code u = some (.op o k) ∧
        ¬ (waiting pid s).Blocked u ∧ s.mem.held pid u ≠ ⟨false, false⟩ := by
  have hstart : ∀ t (m : Mem P T Reply) (p : Sys Reply),
      ((t = first (pid t) ∧ m.ready (pid t) = false ∧ p = initProg B) ∨
        (m.ready (pid t) = true ∧ ∃ e, may t m e ∧ p = e.prog B)) → Balanced false p := by
    rintro t m p (⟨-, -, rfl⟩ | ⟨-, e, he, rfl⟩)
    · exact balanced_initProg
    · exact balanced_entry (hmay t m e he)
  obtain ⟨hown, hallowed, hfree⟩ := held_of_reach hstart hsem hmutex hr
  have hordered := ordered_waiting hown hallowed
  refine ⟨fun t hc => hfree t (Or.inl hc), hallowed, fun t => hordered.acyclic, fun t hb => ?_⟩
  obtain ⟨u, ⟨l, hu⟩, hub⟩ := hordered.exists_free hb
  have hholds := held_ne_of_holder hown hu
  -- one that holds a lock has not returned
  cases hc : s.code u with
  | none => exact absurd (hfree u (Or.inl hc)) hholds
  | some p =>
    cases p with
    | ret a => exact absurd (hfree u (Or.inr ⟨a, hc⟩)) hholds
    | op o k => exact ⟨u, o, k, hc, hub, hholds⟩

end Main

/-! ### A thread that has to wait -/

/-- A build in which the threads of a process take turns. -/
def threadedBuild : Build := { plainBuild with pthreadSinglethreadedTime := true }

/-- A process with two threads that is initialized. -/
def twoThreads : Mem Unit (Fin 2) Reply := { Mem.fresh startedAt with ready := fun _ => true }

/-- The first of them has taken the mutex. -/
def firstHolds : Mem Unit (Fin 2) Reply :=
  { twoThreads with mutex := Function.update twoThreads.mutex () (some 0) }

/-- A thread that asks for the time comes to the mutex. -/
theorem exists_reach_mutex {s : Pool sys (Fin 2) (Mem Unit (Fin 2) Reply) Reply} {t : Fin 2}
    (hc : s.code t = none) (hready : s.mem.ready () = true) (hdont : s.mem.dontFake t = false) :
    ∃ k, (library threadedBuild anySurroundings (fun _ => ()) (fun _ => 0)
      fun _ _ e => e.IsStat = false).Reach s
        ⟨s.mem, Function.update s.code t (some (.op .timeMutexLock k))⟩ := by
  have hcall : s.mem.Answers anySurroundings (fun _ => ()) t .dontFake false s.mem :=
    ⟨hdont.symm, rfl⟩
  obtain ⟨k₀, hprog, k, hk⟩ : ∃ k₀, (Entry.fakeClockGettime .realtime ⟨0, 0⟩).prog threadedBuild =
      .op .dontFake k₀ ∧ ∃ k, k₀ false = .op .timeMutexLock k := ⟨_, rfl, _, rfl⟩
  refine ⟨k, .head (.start hc (Or.inr ⟨hready, _, rfl, hprog.symm⟩)) (.head
    (.call (Function.update_self ..) hcall) ?_)⟩
  rw [Function.update_idem, hk]

/-- Two threads ask for the time, and the second one has to wait for the first. -/
theorem locks_never_deadlock_two_threads :
    ∃ s : Pool sys (Fin 2) (Mem Unit (Fin 2) Reply) Reply,
      (library threadedBuild anySurroundings (fun _ => ()) (fun _ => 0)
        fun _ _ e => e.IsStat = false).Reach (Pool.init sys (Fin 2) Reply twoThreads) s ∧
      (waiting (fun _ => ()) s).Blocked 1 ∧ ∃ u o k, s.code u = some (.op o k) ∧
        ¬ (waiting (fun _ => ()) s).Blocked u ∧ s.mem.held (fun _ => ()) u ≠ ⟨false, false⟩ := by
  obtain ⟨k, hr₁⟩ := exists_reach_mutex (s := Pool.init sys (Fin 2) Reply twoThreads) (t := 0)
    rfl rfl rfl
  have hcall : twoThreads.Answers anySurroundings (fun _ => ()) 0 .timeMutexLock ()
      firstHolds := ⟨rfl, rfl⟩
  have hr₂ := hr₁.tail (.call (r := ()) (Function.update_self ..) hcall)
  rw [Function.update_idem] at hr₂
  obtain ⟨k', hr₃⟩ := exists_reach_mutex (t := 1)
    (s := ⟨firstHolds, Function.update (fun _ => none) 0 (some (k ()))⟩) rfl rfl rfl
  have hr := hr₂.trans hr₃
  have hb : (waiting (fun _ => ()) ⟨firstHolds, Function.update (Function.update (fun _ => none) 0
      (some (k ()))) 1 (some (.op .timeMutexLock k'))⟩).Blocked 1 := ⟨0, .timeMutex (), rfl, rfl⟩
  exact ⟨_, hr, hb, (locks_never_deadlock (fun _ _ _ h => h) rfl (fun _ => rfl) hr).2.2.2 1 hb⟩

end LibFaketime
