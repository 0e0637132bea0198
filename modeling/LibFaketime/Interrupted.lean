import LibFaketime.Calls
import LibFaketime.Clock

/-!
# Interrupted locks

A signal may arrive while a thread waits for the lock between processes, and then the lock is
not taken. Five functions take it once a process is initialized: `next_time`, `load_time` and
`lock_for_stat` call themselves again, `save_time` has a loop around the call, and `reset_time`
takes an interrupted lock for one that failed and terminates the process. So a signal goes
unnoticed everywhere but there (`LibFaketime.interruption_is_transparent_iff`).
-/

namespace LibFaketime

open Effects Effects.Prog

/-- **A world in which the next attempts to take the lock are interrupted**, as many of them as
the number says. -/
def interrupting : Handler sys (World × ℕ) Stop
  | (w, n + 1), .ftSemLock => .ok (.interrupted, w, n)
  | (w, n), o => (seq w o).map fun r => (r.1, r.2, n)

/-- The result of a run and the world it ends in, whatever is left to be interrupted. -/
def outcome {α : Type} (r : Except Stop (α × World × ℕ)) : Except Stop (α × World) :=
  r.map fun r => (r.1, r.2.1)

theorem outcome_map {α : Type} (r : Except Stop (α × World)) (n : ℕ) :
    outcome (r.map fun r => (r.1, r.2, n)) = r := by
  cases r <;> rfl

/-! ### The functions that take the lock -/

/-- The functions that take the lock after the initialization, with their arguments. -/
inductive Locking where
  | nextTime (tp : Timespec) (ticklen : Proc → Timespec)
  | saveTime (tp : Timespec)
  | loadTime (tp : Timespec)
  | lockForStat
  | resetTime

/-- What such a function returns. -/
def Locking.Result : Locking → Type
  | .nextTime _ _ => Timespec
  | .saveTime _ => Unit
  | .loadTime _ => Bool × Timespec
  | .lockForStat => Unit
  | .resetTime => Unit

/-- The function itself. -/
def Locking.prog (retries : ℕ) : (p : Locking) → Sys p.Result
  | .nextTime tp ticklen => LibFaketime.nextTime retries tp ticklen
  | .saveTime tp => LibFaketime.saveTime retries tp
  | .loadTime tp => LibFaketime.loadTime retries tp
  | .lockForStat => LibFaketime.lockForStat retries
  | .resetTime => LibFaketime.resetTime

/-! ### With nothing left to be interrupted -/

section Erase

variable {α : Type} {w : World}

/-- With nothing left to be interrupted, the world is as it was. -/
theorem run_interrupting_zero (p : Sys α) :
    p.run interrupting (w, 0) = (p.run seq w).map fun r => (r.1, r.2, 0) := by
  induction p generalizing w with
  | ret a => rfl
  | op o k ih =>
    rw [run_op, run_op, show interrupting (w, 0) o = (seq w o).map fun r => (r.1, r.2, 0) from rfl]
    cases seq w o with
    | error x => rfl
    | ok r => exact ih r.1

theorem outcome_zero (p : Sys α) : outcome (p.run interrupting (w, 0)) = p.run seq w := by
  rw [run_interrupting_zero, outcome_map]

/-- The variables of the process can be read whatever is left to be interrupted. -/
theorem run_load_interrupting (k : ℕ) (f : Proc → Sys α) :
    (load >>= f).run interrupting (w, k) = (f w.proc).run interrupting (w, k) := by
  cases k <;> rfl

theorem run_store_interrupting (k : ℕ) (g : Proc → Proc) (f : Unit → Sys α) :
    (store g >>= f).run interrupting (w, k) =
      (f ()).run interrupting ({ w with proc := g w.proc }, k) := by
  cases k <;> rfl

end Erase

/-! ### One function at a time

A function that takes the lock again is followed for one interruption, the rest is an induction
on their number. A function that does not come to the lock leaves the interruptions alone. -/

section Rules

variable {α : Type} {w : World} {f : ℕ → Sys α}

/-- **A function that starts again does not notice the interruptions.** -/
theorem outcome_of_restarts (hf : ∀ k n, (f (n + 1)).run interrupting (w, k + 1) =
      (f n).run interrupting (w, k)) (k n : ℕ) :
    outcome ((f (k + n)).run interrupting (w, k)) = (f n).run seq w := by
  induction k with
  | zero => rw [Nat.zero_add, outcome_zero]
  | succ k ih => rw [Nat.succ_add, hf, ih]

theorem outcome_of_unlocked {x : Except Stop (α × World)}
    (hf : ∀ k n, outcome ((f (n + 1)).run interrupting (w, k)) = x) (k n : ℕ) :
    outcome ((f (k + (n + 1))).run interrupting (w, k)) = (f (n + 1)).run seq w := by
  rw [← Nat.add_assoc, hf, ← outcome_zero, hf]

end Rules

section Functions

variable (w : World) (k n : ℕ) (tp : Timespec)

theorem outcome_nextTime (ticklen : Proc → Timespec) :
    outcome ((nextTime (k + (n + 1)) tp ticklen).run interrupting (w, k)) =
      (nextTime (n + 1) tp ticklen).run seq w := by
  cases hs : w.proc.sharedSemInitialized with
  | true =>
    refine outcome_of_restarts (f := fun n => nextTime n tp ticklen) (fun k n => ?_) k (n + 1)
    rw [nextTime, run_load_interrupting, hs, if_pos rfl]
    rfl
  | false =>
    refine outcome_of_unlocked (x := .ok (tp, w)) (f := fun n => nextTime n tp ticklen)
      (fun k n => ?_) k n
    rw [nextTime, run_load_interrupting, hs, if_neg (by simp)]
    rfl

theorem outcome_loadTime : outcome ((loadTime (k + (n + 1)) tp).run interrupting (w, k)) =
    (loadTime (n + 1) tp).run seq w := by
  cases hs : w.proc.sharedSemInitialized && w.proc.infileSet with
  | true =>
    refine outcome_of_restarts (f := fun n => loadTime n tp) (fun k n => ?_) k (n + 1)
    rw [loadTime, run_load_interrupting, hs, if_pos rfl]
    rfl
  | false =>
    refine outcome_of_unlocked (x := .ok ((false, tp), w)) (f := fun n => loadTime n tp)
      (fun k n => ?_) k n
    rw [loadTime, run_load_interrupting, hs, if_neg (by simp)]
    rfl

theorem outcome_lockForStat : outcome ((lockForStat (k + (n + 1))).run interrupting (w, k)) =
    (lockForStat (n + 1)).run seq w := by
  cases hs : w.proc.sharedSemInitialized with
  | true =>
    refine outcome_of_restarts (f := lockForStat) (fun k n => ?_) k (n + 1)
    rw [lockForStat, run_load_interrupting, hs, if_pos rfl]
    rfl
  | false =>
    refine outcome_of_unlocked (x := .ok ((), { w with proc := w.proc.forStat }))
      (f := lockForStat) (fun k n => ?_) k n
    rw [lockForStat, run_load_interrupting, hs, if_neg (by simp), run_store_interrupting]
    cases k <;> rfl

theorem outcome_saveTime : outcome ((saveTime (k + (n + 1)) tp).run interrupting (w, k)) =
    (saveTime (n + 1) tp).run seq w := by
  cases hs : w.proc.sharedSemInitialized && w.proc.outfileOpen with
  | true =>
    refine outcome_of_restarts (f := fun n => saveTime n tp) (fun k n => ?_) k (n + 1)
    rw [saveTime, saveTime, run_load_interrupting, run_load_interrupting, hs, if_pos rfl,
      if_pos rfl]
    rfl
  | false =>
    refine outcome_of_unlocked (x := .ok ((), w)) (f := fun n => saveTime n tp) (fun k n => ?_) k n
    rw [saveTime, run_load_interrupting, hs, if_neg (by simp)]
    rfl

end Functions

/-! ### Starting over -/

section Reset

variable {w : World}

/-- **A world in which the first attempt succeeds**: nobody holds the lock, and the real clocks,
which `reset_time` reads before, answer. -/
structure World.Grants (w : World) : Prop where
  free : w.semHeld = false
  lock : ∀ n, w.os n .ftSemLock = some .acquired
  clock : ∀ n c, ∃ r, w.os n (.realClockGettime c) = some r

/-- Everything but the lock is done as if there were no interruptions. -/
theorem interrupting_of_aloof (w : World) (k : ℕ) {o : Op} (ho : Aloof False o) :
    interrupting (w, k) o = (seq w o).map fun r => (r.1, r.2, k) := by
  cases k with
  | zero => rfl
  | succ k =>
    cases o
    case ftSemLock => exact ho.1.1.1.elim
    all_goals rfl

/-- What is left of `reset_time` when the clocks have been read. -/
theorem run_resetTime_interrupting (k : ℕ) : resetTime.run interrupting (w, k) =
    (systemTimeFromSystem.run seq w).bind fun r =>
      Prog.run interrupting (if r.2.proc.sharedSemInitialized then
        ftSemLock >>= fun
          | .acquired => do
            publishStarttime
            unless ← ftSemUnlock do
              exit 1 "libfaketime: In reset_time(), ft_sem_unlock failed"
          | _ => exit 1 "libfaketime: In reset_time(), ft_sem_lock failed"
        else pure ()) (r.2, k) := by
  have haloof : systemTimeFromSystem.Uses (Aloof False) :=
    aloof_of_plain plain_systemTimeFromSystem
  rw [resetTime, run_bind, haloof.run_noted fun w n o ho => interrupting_of_aloof w n ho]
  cases systemTimeFromSystem.run seq w with
  | error x => rfl
  | ok r => exact run_load_interrupting k _

theorem outcome_resetTime_of_not (hs : w.proc.sharedSemInitialized = false) (k : ℕ) :
    outcome (resetTime.run interrupting (w, k)) = resetTime.run seq w := by
  rw [← outcome_zero resetTime, run_resetTime_interrupting, run_resetTime_interrupting]
  cases hr : systemTimeFromSystem.run seq w with
  | error x => rfl
  | ok r =>
    have hs₁ : r.2.proc.sharedSemInitialized = false := by
      have hplain : systemTimeFromSystem.Uses (Plain True) := plain_systemTimeFromSystem
      have hfixed := fixed_of_run (routine_of_plain hplain) _ _ hr
      exact (congrArg (fun f => f.2.1) hfixed).trans hs
    change outcome (Prog.run _ (if r.2.proc.sharedSemInitialized then _ else _) _) =
      outcome (Prog.run _ (if r.2.proc.sharedSemInitialized then _ else _) _)
    rw [hs₁, if_neg (by simp), run_pure, run_pure]
    rfl

theorem runs_readClock_of_grants (hw : w.Grants) (c : ClockId)
    (set : Timespec → SystemTime → SystemTime) :
    (readClock c set).Runs seq w fun _ w' => w'.Grants ∧
      w'.proc.sharedSemInitialized = w.proc.sharedSemInitialized := by
  obtain ⟨r, hr⟩ := hw.clock w.now c
  refine runs_realClockGettime hr ?_
  cases r with
  | none => exact runs_pure ⟨⟨hw.free, hw.lock, hw.clock⟩, rfl⟩
  | some t => exact ⟨(), _, rfl, ⟨hw.free, hw.lock, hw.clock⟩, rfl⟩

theorem runs_systemTimeFromSystem_of_grants (hw : w.Grants) :
    systemTimeFromSystem.Runs seq w fun _ w' => w'.Grants ∧
      w'.proc.sharedSemInitialized = w.proc.sharedSemInitialized := by
  refine (runs_readClock_of_grants hw _ _).bind ?_
  rintro _ w₁ ⟨h₁, hs₁⟩
  refine (runs_readClock_of_grants h₁ _ _).bind ?_
  rintro _ w₂ ⟨h₂, hs₂⟩
  refine (runs_readClock_of_grants h₂ _ _).bind ?_
  rintro _ w₃ ⟨h₃, hs₃⟩
  refine (runs_readClock_of_grants h₃ _ _).mono ?_
  rintro _ w₄ ⟨h₄, hs₄⟩
  exact ⟨h₄, by rw [hs₄, hs₃, hs₂, hs₁]⟩

/-- **A single interruption ends the process**, where the lock could have been taken. -/
theorem outcome_resetTime_ne (hw : w.Grants) (hs : w.proc.sharedSemInitialized = true) (k : ℕ) :
    outcome (resetTime.run interrupting (w, k + 1)) ≠ resetTime.run seq w := by
  obtain ⟨u, w₁, hr, h₁, hs₁⟩ := runs_systemTimeFromSystem_of_grants hw
  rw [hs] at hs₁
  have hexit : outcome (resetTime.run interrupting (w, k + 1)) =
      .error (.exited 1 "libfaketime: In reset_time(), ft_sem_lock failed") := by
    rw [run_resetTime_interrupting, hr]
    change outcome (Prog.run _ (if w₁.proc.sharedSemInitialized then _ else _) _) = _
    rw [hs₁, if_pos rfl]
    cases k <;> rfl
  have hrest : ∃ v : World, resetTime.run seq w = (seq v .ftSemUnlock).bind fun r =>
      Prog.run seq (if r.1 then pure () else
        exit 1 "libfaketime: In reset_time(), ft_sem_unlock failed") r.2 := by
    obtain ⟨v, hpublish⟩ : ∃ v, publishStarttime.run seq { w₁.tick with semHeld := true } =
      .ok ((), v) := ⟨_, rfl⟩
    refine ⟨v, ?_⟩
    rw [resetTime, run_bind, hr]
    change Prog.run seq (if w₁.proc.sharedSemInitialized then _ else _) w₁ = _
    rw [hs₁, if_pos rfl, ftSemLock, run_bind, run_perform, seq_ftSemLock,
      if_neg (by simp [h₁.free]), World.ask_of_some (h₁.lock _)]
    change Prog.run seq (publishStarttime >>= _) { w₁.tick with semHeld := true } = _
    rw [run_bind, hpublish]
    rfl
  -- with the lock in its hands the process exits with another message, if it does
  obtain ⟨v, hv⟩ := hrest
  rw [hexit, hv, seq_ftSemUnlock, World.ask]
  cases v.os v.now .ftSemUnlock with
  | none => exact fun h => by cases h
  | some r =>
    cases r with
    | true => exact fun h => by cases h
    | false =>
      intro h
      have hmsg : "libfaketime: In reset_time(), ft_sem_lock failed" =
          "libfaketime: In reset_time(), ft_sem_unlock failed" := by injection h with h; injection h
      exact absurd hmsg (by decide)

end Reset

/-- **An interrupted lock goes unnoticed** – the same result in the same world, as if the first
attempt had succeeded – **exactly if the function is not `reset_time`**, or was not interrupted,
or does not come to the lock because there is no shared memory. -/
theorem interruption_is_transparent_iff {w : World} (hw : w.Grants) (p : Locking) (k retries : ℕ) :
    outcome ((p.prog (k + (retries + 1))).run interrupting (w, k)) =
        (p.prog (retries + 1)).run seq w ↔
      p ≠ .resetTime ∨ k = 0 ∨ w.proc.sharedSemInitialized = false := by
  cases p with
  | nextTime tp ticklen => exact iff_of_true (outcome_nextTime w k retries tp ticklen) (by simp)
  | saveTime tp => exact iff_of_true (outcome_saveTime w k retries tp) (by simp)
  | loadTime tp => exact iff_of_true (outcome_loadTime w k retries tp) (by simp)
  | lockForStat => exact iff_of_true (outcome_lockForStat w k retries) (by simp)
  | resetTime =>
    cases k with
    | zero => exact iff_of_true (outcome_zero resetTime) (by simp)
    | succ k =>
      cases hs : w.proc.sharedSemInitialized with
      | true => exact iff_of_false (outcome_resetTime_ne hw hs k) (by simp)
      | false => exact iff_of_true (outcome_resetTime_of_not hs (k + 1)) (by simp)

/-- A process that is attached to shared memory, with a base and a tick of two seconds. -/
def attached : World :=
  calmWorld (fun _ => none) (fun _ _ => ⟨1000, 0⟩) ⟨0, 0⟩
    { Proc.initial with
      sharedSemInitialized := true, userFakedTimeTimespec := ⟨100, 0⟩, userPerTickInc := ⟨2, 0⟩ }

theorem attached_grants : attached.Grants := ⟨rfl, fun _ => rfl, fun _ _ => ⟨_, rfl⟩⟩

/-- A tick that is taken at the third attempt. -/
theorem tick_after_two_interruptions :
    outcome ((nextTime 3 ⟨1000, 0⟩ (·.userPerTickInc)).run interrupting (attached, 2)) =
      (nextTime 1 ⟨1000, 0⟩ (·.userPerTickInc)).run seq attached :=
  (interruption_is_transparent_iff attached_grants (.nextTime ⟨1000, 0⟩ (·.userPerTickInc)) 2 0).mpr
    (Or.inl (by simp))

/-- A process that starts over and is interrupted once is terminated. -/
theorem reset_is_not_transparent :
    outcome (resetTime.run interrupting (attached, 1)) =
        .error (.exited 1 "libfaketime: In reset_time(), ft_sem_lock failed") ∧
      resetTime.Runs seq attached fun _ w => w.shm.startTimeReal = ⟨1000, 0⟩ :=
  ⟨rfl, _, _, rfl, rfl⟩

end LibFaketime
