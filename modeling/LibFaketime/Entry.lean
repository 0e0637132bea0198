import LibFaketime.Calls
import LibFaketime.Setting
import LibFaketime.Sleep
import LibFaketime.Solo

/-!
# The intercepted functions

What a program can ask of the library (`LibFaketime.Entry`), and the machine on which
threads ask (`LibFaketime.library`). A process is initialized once, by one of its threads,
before any function does its work; which thread that is, is a parameter.

What no call of a query touches is here too: the answers of the machine to ordinary calls
leave what is set up once and for all as it is (`LibFaketime.fixed_of_ordinary`).
-/

namespace LibFaketime

open Effects Effects.Prog

/-! ### The functions -/

/-- A call of an intercepted function with its arguments. The real function that fills
the buffer of a `stat` call has been called already. -/
inductive Entry where
  | clockGettime (clkId : ClockId)
  | gettimeofday
  | time
  | ftime
  /-- The conversion of a real time, which other intercepted functions use as well. -/
  | fakeClockGettime (clkId : ClockId) (tp : Timespec)
  | stat (buf : Stat)
  | statx (buf : Statx)
  | clockNanosleep (clkId : ClockId) (abstime : Bool) (req : Timespec)
  | timerSettime (abstime : Bool) (new : Option Itimerspec)
  | timerfdSettime (abstime : Bool) (clkId : ClockId) (new : Option Itimerspec)
  | pthreadCondTimedwait (clkId : ClockId) (abstime : Timespec)

/-- What a call returns. -/
inductive Reply where
  /-- The process has been initialized. -/
  | initialized
  /-- What is returned about a clock. -/
  | gettime (clkId : ClockId) (ret : ℤ) (tp : Option Timespec)
  | timeofday (ret : ℤ) (tv : Option Timeval)
  | seconds (ret : ℤ)
  | timeb (ret : ℤ) (tb : Option (ℤ × ℤ))
  /-- The result of a function that does not report the time. -/
  | done
deriving DecidableEq, Repr

/-- The program of an intercepted function. -/
def Entry.prog (B : Build) : Entry → Sys Reply
  | .clockGettime clkId => do
    let r ← LibFaketime.clockGettime B clkId
    pure (.gettime clkId r.1 r.2)
  | .gettimeofday => do
    let r ← LibFaketime.gettimeofday B
    pure (.timeofday r.1 r.2)
  | .time => do
    let r ← LibFaketime.time B
    pure (.seconds r)
  | .ftime => do
    let r ← LibFaketime.ftime B
    pure (.timeb r.1 r.2)
  | .fakeClockGettime clkId tp => do
    let r ← LibFaketime.fakeClockGettime B clkId tp
    pure (.gettime clkId r.1 (some r.2))
  | .stat buf => do
    let _ ← statHandlerCommon (fakeStatbuf B) buf
    pure .done
  | .statx buf => do
    let _ ← statHandlerCommon (fakeStatxbuf B) buf
    pure .done
  | .clockNanosleep clkId abstime req => do
    let _ ← LibFaketime.clockNanosleep clkId abstime req
    pure .done
  | .timerSettime abstime new => do
    let _ ← LibFaketime.timerSettime B abstime new
    pure .done
  | .timerfdSettime abstime clkId new => do
    let _ ← LibFaketime.timerfdSettime B abstime clkId new
    pure .done
  | .pthreadCondTimedwait clkId abstime => do
    let _ ← pthreadCondTimedwaitCommon B clkId abstime
    pure .done

/-- The `stat` family. -/
def Entry.IsStat : Entry → Bool
  | .stat _ | .statx _ => true
  | _ => false

/-- What is shown of the parts is shown of every intercepted function outside the `stat` family. -/
theorem Covers.entry_of_not_stat {B : Build} {J : {β : Type} → Sys β → Prop} (hJ : Covers B J)
    {e : Entry} (he : e.IsStat = false) : J (e.prog B) := by
  cases e with
  | stat buf => cases he
  | statx buf => cases he
  | clockGettime clkId =>
    refine hJ.seq (hJ.step trivial fun r => ?_) fun _ => hJ.ret _
    cases r with
    | none => exact hJ.ret _
    | some tp =>
      refine hJ.step trivial fun s => ?_
      split
      · exact hJ.seq (hJ.query _ _) fun _ => hJ.ret _
      · exact hJ.ret _
  | gettimeofday =>
    refine hJ.seq (hJ.step trivial fun r => ?_) fun _ => hJ.ret _
    cases r with
    | none => exact hJ.ret _
    | some tv =>
      refine hJ.seq (hJ.step trivial fun s => ?_) fun _ => hJ.ret _
      exact hJ.seq (hJ.query _ _) fun _ => hJ.ret _
  | time =>
    refine hJ.seq (hJ.step trivial fun r => ?_) fun _ => hJ.ret _
    cases r with
    | none => exact hJ.ret _
    | some tp => exact hJ.seq (hJ.query _ _) fun _ => hJ.ret _
  | ftime =>
    refine hJ.seq (hJ.step trivial fun b => ?_) fun _ => hJ.ret _
    split
    · exact hJ.ret _
    · refine hJ.step trivial fun r => ?_
      cases r with
      | none => exact hJ.ret _
      | some tp => exact hJ.seq (hJ.query _ _) fun _ => hJ.ret _
  | fakeClockGettime clkId tp => exact hJ.seq (hJ.query _ _) fun _ => hJ.ret _
  | clockNanosleep clkId abstime req =>
    exact hJ.seq (hJ.clockNanosleep _ _ _) fun _ => hJ.ret _
  | timerSettime abstime new => exact hJ.seq (hJ.timerSettimeCommon _ _ _) fun _ => hJ.ret _
  | timerfdSettime abstime clkId new =>
    exact hJ.seq (hJ.timerSettimeCommon _ _ _) fun _ => hJ.ret _
  | pthreadCondTimedwait clkId abstime =>
    exact hJ.seq (hJ.pthreadCondTimedwaitCommon _ _) fun _ => hJ.ret _

/-- What is shown of the parts is shown of every intercepted function. -/
theorem Covers.entry {B : Build} {J : {β : Type} → Sys β → Prop} (hJ : Covers B J)
    (hlock : J (lockForStat B.retries)) (hunlock : J unlockForStat) (e : Entry) : J (e.prog B) := by
  cases e with
  | stat buf =>
    exact hJ.seq (hJ.statHandlerCommon (hJ.fakeStatbuf hlock hunlock) _) fun _ => hJ.ret _
  | statx buf =>
    exact hJ.seq (hJ.statHandlerCommon (hJ.fakeStatxbuf hlock hunlock) _) fun _ => hJ.ret _
  | _ => exact hJ.entry_of_not_stat rfl

/-- The initialization of a process. -/
def initProg (B : Build) : Sys Reply := do
  ftplReallyInit B
  pure .initialized

/-! ### The machine -/

variable {P T : Type} [DecidableEq P] [DecidableEq T]

/-- **The library in use.** The thread `first p` initializes process `p`; after that every
thread of it may call the functions that `may` allows. -/
def library (B : Build) (E : Surroundings) (pid : T → P) (first : P → T)
    (may : T → Mem P T Reply → Entry → Prop) : Machine sys T (Mem P T Reply) Reply :=
  system E pid (fun r => r == .initialized) fun t m p =>
    (t = first (pid t) ∧ m.ready (pid t) = false ∧ p = initProg B) ∨
      (m.ready (pid t) = true ∧ ∃ e, may t m e ∧ p = e.prog B)

section Ordinary

variable {α : Type} {E : Surroundings} {pid : T → P} {t : T} {m m' : Mem P T α} {o : Op}
  {r : o.Ans} {locks : Prop}

/-- A call other than an assignment leaves the variables of all processes alone. -/
theorem Mem.Answers.proc_eq (h : m.Answers E pid t o r m') (ho : ∀ f, o ≠ .store f) :
    m'.proc = m.proc := by
  cases o with
  | store f => exact absurd rfl (ho f)
  | load => rw [h.2]
  | dontFake => rw [h.2]
  | setDontFake b => rw [show m' = _ from h]
  | ftSemLock =>
    cases r with
    | acquired => rw [h.2]; rfl
    | interrupted => rw [show m' = m from h]
    | failed => rw [show m' = m from h]
  | ftSemUnlock => cases r <;> rw [show m' = _ from h]
  | timeMutexLock => rw [h.2]
  | timeMutexUnlock => rw [show m' = _ from h]
  | readShared => rw [h.2]
  | writeShared f => rw [show m' = _ from h]
  | realClockGettime c => rw [h.2]; rfl
  | realGettimeofday => rw [h.2]; rfl
  | openRead path =>
    obtain ⟨contents, -, -, rfl⟩ := h
    rfl
  | read fd count =>
    cases r with
    | bytes l => rw [h.2.2.2]
    | failed => rw [h.2]
  | _ => rw [h.2]

/-- **An ordinary call leaves what is set up once and for all.** -/
theorem fixed_of_ordinary (ho : Ordinary locks o) (h : m.Answers E pid t o r m') (p : P) :
    (m'.proc p).fixed = (m.proc p).fixed ∧
      ((m.proc p).infileSet = false → (m'.proc p).infileSet = false) := by
  by_cases hs : ∃ f, o = .store f
  · obtain ⟨f, rfl⟩ := hs
    obtain rfl : m' = m.assign (pid t) f := h
    by_cases hp : p = pid t
    · rw [hp, Mem.assign_proc_self]
      exact ho _
    · rw [Mem.assign_proc_of_ne hp]
      exact ⟨rfl, id⟩
  · rw [h.proc_eq fun f hf => hs ⟨f, hf⟩]
    exact ⟨rfl, id⟩

end Ordinary

/-! ### Runs of one thread -/

section Alone

variable (B : Build) {E : Surroundings} {pid : T → P} (first : P → T)
  (may : T → Mem P T Reply → Entry → Prop) {p : P} {t : T} {w w' : World} {m m₀ : Mem P T Reply}

/-- A process that is initialized while the others do nothing: what its threads find. -/
theorem exists_reach_ready (hE : E.Allows w) (hs : Stands pid (first p) w m₀)
    (hp : pid (first p) = p) (hready : m₀.ready p = false)
    (h : (initProg B).run seq w = .ok (.initialized, w')) (hsem : w'.semHeld = false)
    (hmutex : w'.mutexHeld = false) :
    ∃ m, (library B E pid first may).Reach (Pool.init sys T Reply m₀) (Pool.init sys T Reply m) ∧
      m.ready p = true ∧ m.dontFake (first p) = w'.dontFake ∧
      (∀ u, u ≠ first p → m.dontFake u = m₀.dontFake u) ∧
      ∀ u, pid u = p →
        Stands pid u { w' with dontFake := m.dontFake u, rest := m.rest u } m := by
  obtain ⟨m', hr, hs', hap⟩ := reach_of_call pid (fun r => r == .initialized)
    (fun t m p => (t = first (pid t) ∧ m.ready (pid t) = false ∧ p = initProg B) ∨
      (m.ready (pid t) = true ∧ ∃ e, may t m e ∧ p = e.prog B))
    (s := Pool.init sys T Reply m₀) hE hs rfl (Or.inl ⟨by rw [hp], by rw [hp]; exact hready, rfl⟩) h
  refine ⟨_, hr, ?_, hs'.dontFake, hap.dontFake, fun u hu => ?_⟩
  · change Function.update m'.ready (pid (first p)) true p = true
    rw [hp, Function.update_self]
  · -- nobody holds a lock, so it does not matter who looks
    refine ⟨?_, hs'.shm, ?_, ?_, rfl, rfl⟩
    · rw [hu, ← hp]
      exact hs'.proc
    · have hs := hs'.sem
      rw [hsem] at hs
      change m'.sem = if w'.semHeld = true then _ else _
      rw [hsem]
      exact hs
    · have hs := hs'.mutex
      rw [hmutex, hp] at hs
      change m'.mutex (pid u) = if w'.mutexHeld = true then _ else _
      rw [hmutex, hu]
      exact hs

/-- A call of one thread while the others do nothing, up to its return. -/
theorem exists_reach_reply {e : Entry} {a : Reply} (hE : E.Allows w) (hs : Stands pid t w m)
    (hready : m.ready (pid t) = true) (hmay : may t m e)
    (h : (e.prog B).run seq w = .ok (a, w')) :
    ∃ m' c, (library B E pid first may).Reach (Pool.init sys T Reply m) ⟨m', c⟩ ∧
      c t = some (.ret a) ∧ Stands pid t w' m' := by
  obtain ⟨m', hr, hs', -⟩ := reach_of_run pid (fun r => r == .initialized)
    (fun t m p => (t = first (pid t) ∧ m.ready (pid t) = false ∧ p = initProg B) ∨
      (m.ready (pid t) = true ∧ ∃ e, may t m e ∧ p = e.prog B))
    (s := ⟨m, Function.update (Pool.init sys T Reply m).code t (some (e.prog B))⟩) hE hs
    (Function.update_self ..) h
  exact ⟨m', _, .head (.start rfl (Or.inr ⟨hready, e, hmay, rfl⟩)) hr, Function.update_self .., hs'⟩

end Alone

/-! ### A process of `FAKETIME='@1970-01-01 00:01:40'` -/

/-- Its variables, if every clock showed `⟨50, 999⟩` when it was initialized. -/
def startedAt : Proc :=
  { Proc.initial with
    ftMode := .startAt
    ftplStarttime := ⟨⟨50, 999⟩, ⟨50, 999⟩, ⟨50, 999⟩, ⟨50, 999⟩⟩
    userFakedTimeFmt := "%Y-%m-%d %T".toList
    userFakedTimeTimespec := ⟨100, 0⟩
    userFakedTimeSaved := "@1970-01-01 00:01:40".toList
    parseConfigFile := false
    sharedSemInitialized := true }

/-- Its world before it is initialized. -/
def startWorld : World :=
  calmWorld startAtEnv (fun _ _ => ⟨50, 999⟩) ⟨0, 0⟩ Proc.initial

/-- Its world after that. -/
def startedWorld : World :=
  { startWorld with
    now := 26
    proc := startedAt
    shm := ⟨ftSharedMagic, ftSharedVersion, ftSharedSize, 0, 0, ⟨50, 999⟩, ⟨50, 999⟩, ⟨50, 999⟩,
      ⟨50, 999⟩⟩ }

theorem run_initProg_started :
    (initProg epochBuild).run seq startWorld = .ok (.initialized, startedWorld) := rfl

end LibFaketime
