import LibFaketime.LockOrder
import LibFaketime.Ticks

/-!
# The semaphore as a file lock

By default the semaphore of the library is an advisory lock on a file. Such a lock belongs to the
open file description, not to the thread or the process: whoever asks for it through the
description that has it gets it at once, and whoever gives it up through that description gives it
up for all. A process that calls `fork` hands its description on, so parent and child do not keep
each other out.

Nothing is lost as long as every thread has a description of its own: then the machine with the
file lock reaches what the machine with the semaphore reaches (`LibFaketime.flocked_reach_iff`), and
all that has been shown of the one holds of the other. And for the clock that ticks this is exactly
what it takes (`LibFaketime.flock_ticks_iff`): of two threads that share a description one can
overtake the other, and both report the same tick.
-/

namespace LibFaketime

open Effects Effects.Prog

/-! ### The lock of a file -/

section Answers

variable {P T F α : Type} [DecidableEq P] [DecidableEq T] [DecidableEq F]

/-- **What a call answers over `flock`.** The lock is had by the description of its holder: it
blocks whoever comes with another one, and is given up only through the one that has it. -/
def Mem.FlockAnswers (E : Surroundings) (pid : T → P) (desc : T → F) (t : T) (m : Mem P T α) :
    (o : Op) → o.Ans → Mem P T α → Prop
  | .ftSemLock, .acquired, m' => (∀ u, m.sem = some u → desc u = desc t) ∧ m' = m.acquire t
  | .ftSemUnlock, true, m' => m' = { m with sem := m.sem.filter fun u => desc u != desc t }
  | o, r, m' => m.Answers E pid t o r m'

/-- The machine of `LibFaketime.system` over `flock`. -/
def flocked (E : Surroundings) (pid : T → P) (desc : T → F) (inits : α → Bool)
    (start : T → Mem P T α → Sys α → Prop) : Machine sys T (Mem P T α) α :=
  { system E pid inits start with ops := Mem.FlockAnswers E pid desc }

variable {E : Surroundings} {pid : T → P} {desc : T → F} {t : T} {m m' : Mem P T α} {o : Op}
  {r : o.Ans}

/-- The calls that are not about the semaphore answer as before. -/
theorem flockAnswers_iff_of_lockless (ho : o.Lockless) :
    m.FlockAnswers E pid desc t o r m' ↔ m.Answers E pid t o r m' := by
  cases o with
  | ftSemLock | ftSemUnlock | timeMutexLock | timeMutexUnlock => exact ho.elim
  | _ => rfl

/-- **With descriptions of their own**, threads that give back what they take see no difference. -/
theorem flockAnswers_iff (hdesc : Function.Injective desc) (ho : (m.held pid t).May o) :
    m.FlockAnswers E pid desc t o r m' ↔ m.Answers E pid t o r m' := by
  by_cases hlock : o.Lockless
  · exact flockAnswers_iff_of_lockless hlock
  cases o with
  | ftSemLock =>
    cases r with
    | acquired =>
      have hnot : m.sem ≠ some t := of_decide_eq_false ho
      refine and_congr_left fun _ => ⟨fun h => ?_, fun h u hu => ?_⟩
      · -- whoever has it has the description of `t`
        cases hs : m.sem with
        | none => rfl
        | some u => exact absurd (hs.trans (congrArg some (hdesc (h u hs)))) hnot
      · rw [h] at hu
        cases hu
    | interrupted | failed => rfl
  | ftSemUnlock =>
    cases r with
    | true =>
      have hs : m.sem = some t := of_decide_eq_true ho
      have hfree : m.sem.filter (fun u => desc u != desc t) = none := by
        rw [hs]
        simp
      change m' = { m with sem := _ } ↔ m' = { m with sem := none }
      rw [hfree]
    | false => rfl
  | timeMutexLock | timeMutexUnlock => rfl
  | _ => exact absurd trivial hlock

end Answers

/-! ### Descriptions of their own -/

section Alike

variable {P T F α : Type} [DecidableEq P] [DecidableEq T] [DecidableEq F] {E : Surroundings}
  {pid : T → P} {desc : T → F} {inits : α → Bool} {start : T → Mem P T α → Sys α → Prop}
  {m₀ : Mem P T α} {s : Pool sys T (Mem P T α) α}

/-- **The file lock stands for the semaphore**: with a description for every thread, programs that
give back what they take reach over `flock` what they reach over a semaphore, and nothing else. -/
theorem flocked_reach_iff (hdesc : Function.Injective desc)
    (hstart : ∀ t m p, start t m p → Balanced false p) (hsem : m₀.sem = none)
    (hmutex : ∀ p, m₀.mutex p = none) :
    (flocked E pid desc inits start).Reach (Pool.init sys T α m₀) s ↔
      (system E pid inits start).Reach (Pool.init sys T α m₀) s := by
  refine Machine.reach_iff_of_ops rfl rfl fun s hr t o k hc r m => ?_
  obtain ⟨-, hmay, -⟩ := held_of_reach hstart hsem hmutex hr
  exact flockAnswers_iff hdesc (hmay t o k hc)

end Alike

/-! ### The clock that ticks -/

section Ticks

variable {P T F : Type} [DecidableEq P] [DecidableEq T] [DecidableEq F] {base d : Timespec}
  {B : Build} {E : Surroundings} {pid : T → P} {desc : T → F} {m₀ : Mem P T Outcome}

/-- The machine of the queries over `flock`. As in a build without it, they do not take
`time_mutex`. -/
def flockedTicks (B : Build) (E : Surroundings) (pid : T → P) (desc : T → F) :
    Machine sys T (Mem P T Outcome) Outcome :=
  flocked E pid desc (fun _ => false) fun _ _ p => ∃ clkId tp, p = fakeByMode B clkId tp

/-- One step of the counter. -/
def FtShared.ticked (b : FtShared) : FtShared := { b with ticks := (b.ticks + 1) % 2 ^ 64 }

/-- What is left of `next_time` once the counter has been read. -/
def moveOn (tp : Timespec) : Sys Timespec := do
  writeShared FtShared.ticked
  unless ← ftSemUnlock do
    exit 1 "libfaketime: In next_time(), ft_sem_unlock failed"
  pure tp

section Query

variable {t : T} {m : Mem P T Outcome}

/-- Whoever gets the lock comes as far as the counter. -/
theorem runs_nextTime_counter (tp : Timespec) (hretries : B.retries ≠ 0) (hE : ∀ b, E.others b b)
    (hm : Ticking base d (m.proc (pid t))) (hfree : ∀ u, m.sem = some u → desc u = desc t) :
    (flockedTicks B E pid desc).Runs t m (nextTime B.retries tp (·.userPerTickInc)) (m.acquire t)
      (moveOn (timespecadd base (timespecmul d m.shm.ticks))) := by
  obtain ⟨n, hn⟩ := Nat.exists_eq_succ_of_ne_zero hretries
  have hload : ∀ m : Mem P T Outcome,
      (flockedTicks B E pid desc).ops t m .load (m.proc (pid t)) m := fun _ => ⟨rfl, rfl⟩
  have hlock : (flockedTicks B E pid desc).ops t m .ftSemLock .acquired (m.acquire t) :=
    ⟨hfree, rfl⟩
  have hread : (flockedTicks B E pid desc).ops t (m.acquire t) .readShared m.shm (m.acquire t) :=
    ⟨hE _, rfl⟩
  rw [hn]
  refine .call (hload m) ?_
  dsimp only [Prog.bind]
  rw [if_pos hm.shared]
  refine .call hlock (.call (hload _) (.call hread (.call (hload _) ?_)))
  rw [← hm.base_eq, ← hm.inc_eq]
  exact .refl

/-- And from there to its return, through the counter as it is by then. -/
theorem runs_moveOn {tp : Timespec} : (flockedTicks B E pid desc).Runs t m (moveOn tp)
    { m with
      shm := m.shm.ticked
      sem := m.sem.filter fun u => desc u != desc t } (.ret tp) := by
  have hwrite : (flockedTicks B E pid desc).ops t m (.writeShared FtShared.ticked) ()
      { m with shm := m.shm.ticked } := rfl
  have hunlock : (flockedTicks B E pid desc).ops t { m with shm := m.shm.ticked } .ftSemUnlock true
      { m with
        shm := m.shm.ticked
        sem := m.sem.filter fun u => desc u != desc t } := rfl
  exact .call hwrite (.call hunlock .refl)

/-- The query around `next_time`. -/
theorem runs_fakeByMode (clkId : ClockId) {tp : Timespec} {m' : Mem P T Outcome}
    {p : Sys Timespec} (hm : Ticking base d (m.proc (pid t)))
    (h : (flockedTicks B E pid desc).Runs t m (nextTime B.retries tp (·.userPerTickInc)) m' p) :
    (flockedTicks B E pid desc).Runs t m (fakeByMode B clkId tp) m'
      (p >>= fun tp => pure (Outcome.faked tp)) := by
  have hload : (flockedTicks B E pid desc).ops t m .load (m.proc (pid t)) m := ⟨rfl, rfl⟩
  refine .call hload ?_
  dsimp only [Prog.bind]
  rw [hm.startAt]
  dsimp only
  rw [if_pos hm.tickSet]
  exact h.bind fun tp => pure (Outcome.faked tp)

end Query

/-- **With descriptions of their own** the queries read one clock. -/
theorem flocked_served (hE : ∀ b b', E.others b b' → b' = b)
    (hset : ∀ p, Ticking base d (m₀.proc p)) (hticks : m₀.shm.ticks = 0) (hsem : m₀.sem = none)
    (hmutex : ∀ p, m₀.mutex p = none) (hturns : m₀.turns = Turns.start T Outcome)
    (hdesc : Function.Injective desc) {s : Pool sys T (Mem P T Outcome) Outcome}
    (hr : (flockedTicks B E pid desc).Reach (Pool.init sys T Outcome m₀) s) :
    ∀ k o, (k, o) ∈ s.mem.turns.served → o = .faked (tickTime base d k) := by
  have hbalanced : ∀ (t : T) (m : Mem P T Outcome) (p : Sys Outcome),
      (∃ clkId tp, p = fakeByMode B clkId tp) → Balanced false p := by
    rintro t m p ⟨clkId, tp, rfl⟩
    exact balanced_fakeByMode clkId tp
  have h₀ : TickInv base d m₀ := by
    refine ⟨by rw [hturns]; exact Turns.fair_start, hset, fun _ => ?_, ?_, by rw [hturns]; rfl⟩
    · rw [hticks, hturns]
      rfl
    · rw [hturns]
      exact fun e he => nomatch he
  have hr' := (flocked_reach_iff hdesc hbalanced hsem hmutex).mp hr
  exact fun k o ho => (reach_tickInv hE h₀ (fun t => by rw [hturns]; rfl) hsem hr').served _ ho

/-- **Of two threads that share a description one can overtake the other**: the second to take the
lock reports the tick of the first. -/
theorem exists_overtaken (hretries : B.retries ≠ 0) (hE : ∀ b, E.others b b)
    (hset : ∀ p, Ticking base d (m₀.proc p)) (hticks : m₀.shm.ticks = 0) (hsem : m₀.sem = none)
    (hturns : m₀.turns = Turns.start T Outcome) {t u : T} (hne : t ≠ u) (hdesc : desc t = desc u) :
    ∃ s, (flockedTicks B E pid desc).Reach (Pool.init sys T Outcome m₀) s ∧
      (1, .faked (tickTime base d 0)) ∈ s.mem.turns.served := by
  have hfree : ∀ v, m₀.sem = some v → desc v = desc t := by
    rw [hsem]
    exact fun v hv => nomatch hv
  have hquery : ∃ clkId tp, fakeByMode B .realtime ⟨0, 0⟩ = fakeByMode B clkId tp := ⟨_, _, rfl⟩
  have hacquired : ∀ v, (m₀.acquire t).sem = some v → desc v = desc u := by
    intro v hv
    rw [← Option.some.inj hv, hdesc]
  -- the first is about to move the counter on
  have hfirst := runs_fakeByMode .realtime (hset (pid t))
    (runs_nextTime_counter ⟨0, 0⟩ hretries hE (hset _) hfree)
  -- and the second passes
  have hsecond := runs_fakeByMode .realtime (m := m₀.acquire t) (hset (pid u))
    ((runs_nextTime_counter ⟨0, 0⟩ (m := m₀.acquire t) hretries hE (hset _) hacquired).trans
      runs_moveOn)
  have hr := (hfirst.reach_of_start (s := Pool.init sys T Outcome m₀) rfl hquery).trans
    (hsecond.reach_of_return (s := ⟨m₀.acquire t, _⟩) (Function.update_of_ne hne.symm ..) hquery
      rfl)
  refine ⟨_, hr, ?_⟩
  have hheld : ((m₀.acquire t).acquire u).turns.held u = some 1 := by
    change ((m₀.turns.take t).take u).held u = some 1
    rw [Turns.take_held_self, Turns.take_next, hturns]
    rfl
  change _ ∈ (Turns.give ((m₀.acquire t).acquire u).turns u _).served
  rw [Turns.give_served_of_some hheld, List.mem_append, List.mem_singleton]
  refine Or.inr ?_
  have hzero : (m₀.acquire t).shm.ticks = 0 := hticks
  rw [hzero]
  rfl

/-- **The clock that ticks is one clock over `flock` if and only if no description is shared.** The
threads have one setting and the counter starts at zero. Then every query is answered by the tick of
its turn, in every interleaving, exactly if every thread has an open file description of its own:
one that a forked process inherits, or that two threads of a process use, lets two turns report one
tick. -/
theorem flock_ticks_iff (hretries : B.retries ≠ 0) (hE : ∀ b b', E.others b b' ↔ b' = b)
    (hset : ∀ p, Ticking base d (m₀.proc p)) (hticks : m₀.shm.ticks = 0) (hsem : m₀.sem = none)
    (hmutex : ∀ p, m₀.mutex p = none) (hturns : m₀.turns = Turns.start T Outcome)
    (hd : tickTime base d 0 ≠ tickTime base d 1) :
    (∀ s, (flockedTicks B E pid desc).Reach (Pool.init sys T Outcome m₀) s →
      ∀ k o, (k, o) ∈ s.mem.turns.served → o = .faked (tickTime base d k)) ↔
      Function.Injective desc := by
  constructor
  · intro h t u hdesc
    by_contra hne
    obtain ⟨s, hr, hs⟩ := exists_overtaken hretries (fun b => (hE b b).mpr rfl) hset hticks hsem
      hturns hne hdesc
    exact hd (Outcome.faked.inj (h s hr 1 _ hs))
  · exact fun hdesc s hr => flocked_served (fun b b' => (hE b b').mp) hset hticks hsem hmutex hturns
      hdesc hr

end Ticks

/-! ### A process and its child -/

/-- A process and the one it has forked use one description. -/
theorem flock_ticks_iff_forked :
    ¬ ∀ s, (flockedTicks plainBuild anySurroundings (id : Fin 2 → Fin 2) fun _ => ()).Reach
        (Pool.init sys (Fin 2) Outcome (Mem.fresh halfSecondTicks)) s →
      ∀ k o, (k, o) ∈ s.mem.turns.served → o = .faked (tickTime ⟨100, 0⟩ ⟨0, 500000000⟩ k) := by
  rw [flock_ticks_iff (by decide) (fun _ _ => Iff.rfl) (fun _ => ⟨rfl, rfl, rfl, rfl, rfl⟩) rfl rfl
    (fun _ => rfl) rfl (by decide +kernel)]
  intro h
  exact absurd (@h 0 1 rfl) (by decide)

end LibFaketime
