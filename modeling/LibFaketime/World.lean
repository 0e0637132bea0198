import LibFaketime.Parse

/-!
# A process alone

The handler under which a single thread of a single process runs: the variables, the
shared block and the locks are a state (`LibFaketime.World`), and everything else is
answered by an oracle that is asked once for each call, in the order of the calls
(`LibFaketime.World.os`). A statement about every oracle is a statement about every
system the process may run on.

A run ends with a result, or it stops (`LibFaketime.Stop`): the process has exited,
it waits for a lock that it holds itself, or it is still inside a call of the system
that has not returned. A thread that sleeps is inside such a call, and the call says
until when.

The shared lock is a semaphore here: a thread waits for it though it holds it itself. A lock on a
file would let it in (`LibFaketime.flock`), which makes a difference when the time of a file is
recorded.
-/

namespace LibFaketime

open Effects Effects.Prog

/-- Why a run does not go on. -/
inductive Stop where
  /-- The process has exited. -/
  | exited (code : ℤ) (msg : String)
  /-- The thread waits for a lock it holds. -/
  | blocked
  /-- The thread is inside a call that has not returned. -/
  | inside (o : Op)
  /-- A lock was interrupted more often than the model follows. -/
  | stalled

/-- The state of a thread, its process and the system around it. -/
structure World where
  /-- The answer to a call that is made as the `n`-th one; nothing while it has not
  returned. -/
  os : ℕ → (o : Op) → Option o.Ans
  /-- The contents of a file that is opened at the `n`-th call. -/
  file : ℕ → CStr → Option CStr
  /-- The number of calls made so far. -/
  now : ℕ
  proc : Proc
  dontFake : Bool
  shm : FtShared
  /-- The thread holds the semaphore. -/
  semHeld : Bool
  /-- The thread holds the mutex. -/
  mutexHeld : Bool
  /-- What is left of the configuration file that is open. -/
  rest : CStr
  /-- The bytes in the save file. -/
  saved : List UInt8

namespace World

/-- One more call has been made. -/
def tick (w : World) : World := { w with now := w.now + 1 }

/-- Ask the oracle, and go on from the state its answer leads to. -/
def ask (w : World) (o : Op) (f : o.Ans → World → World) : Except Stop (o.Ans × World) :=
  match w.os w.now o with
  | some r => .ok (r, f r w.tick)
  | none => .error (.inside o)

/-- From now on the environment has a value for `v`. -/
def setEnv (w : World) (v : EnvVar) (value : CStr) : World :=
  { w with os := fun n o => match o with
      | .getenv x => if x = v then some (some value) else w.os n (.getenv x)
      | o => w.os n o }

theorem ask_eq_ok {w w' : World} {o : Op} {f : o.Ans → World → World} {r : o.Ans}
    (h : w.ask o f = .ok (r, w')) : w.os w.now o = some r ∧ w' = f r w.tick := by
  unfold ask at h
  cases hr : w.os w.now o with
  | none =>
    rw [hr] at h
    cases h
  | some r' =>
    rw [hr] at h
    cases h
    exact ⟨rfl, rfl⟩

end World

/-- **What a call does in a world.** -/
def seq : Handler sys World Stop
  | w, .load => .ok (w.proc, w)
  | w, .store f => .ok ((), { w with proc := f w.proc })
  | w, .dontFake => .ok (w.dontFake, w)
  | w, .setDontFake b => .ok ((), { w with dontFake := b })
  | w, .ftSemLock =>
    if w.semHeld then .error .blocked
    else w.ask .ftSemLock fun (r : LockResult) w => { w with semHeld := r == .acquired }
  | w, .ftSemUnlock => w.ask .ftSemUnlock fun (r : Bool) w => { w with semHeld := w.semHeld && !r }
  | w, .timeMutexLock =>
    if w.mutexHeld then .error .blocked else .ok ((), { w with mutexHeld := true })
  | w, .timeMutexUnlock => .ok ((), { w with mutexHeld := false })
  | w, .readShared => .ok (w.shm, w)
  | w, .writeShared f => .ok ((), { w with shm := f w.shm })
  | w, .openRead path =>
    match w.file w.now path with
    | some contents => .ok (some 3, { w.tick with rest := contents })
    | none => .ok (none, { w.tick with rest := [] })
  | w, .read _ count => .ok (.bytes (w.rest.take count), { w with rest := w.rest.drop count })
  | w, .write bytes => w.ask (.write bytes) fun r w =>
      { w with saved := w.saved ++ match r with
        | .wrote n => bytes.take n
        | _ => [] }
  | w, .setenv v value => w.ask (.setenv v value) fun (r : Bool) w =>
      if r then w.setEnv v value else w
  | w, .munmapStss => .ok ((), w)
  | w, .spawn => .ok ((), w)
  | w, .perror _ => .ok ((), w)
  | _, .exit code msg => .error (.exited code msg)
  | _, .stalled => .error .stalled
  | w, o => w.ask o fun _ w => w

/-! ### What the kernel is handed -/

/-- The calls that hand a time to wait for to the kernel. -/
def Op.Waits : Op → Bool
  | .realClockNanosleep _ _ _ | .syscallClockNanosleep _ _ _ | .realSelect _ => true
  | .realSemTimedwait _ | .realTimerSettime _ _ | .realPthreadCondTimedwait _ => true
  | .realSemClockwait _ _ | .syscallFutex _ _ => true
  | .realNanosleep _ | .realSleep _ | .realPoll _ _ | .realPpoll _ | .realPselect _ => true
  | _ => false

/-- The same world, as long as no such call has returned. -/
def World.silent (w : World) : World :=
  { w with os := fun n o => if o.Waits then none else w.os n o }

/-- **The program hands a request to the kernel**: it gets as far as the call `o`. -/
def Hands {α : Type} (p : Sys α) (w : World) (o : Op) : Prop := p.Halts seq w.silent (.inside o)

theorem Hands.unique {α : Type} {p : Sys α} {w : World} {o o' : Op} (h : Hands p w o)
    (h' : Hands p w o') : o = o' := Stop.inside.inj (Halts.unique h h')

/-! ### A system on which everything goes well -/

/-- The oracle of a system on which locks are free and calls succeed: `env` is the
environment, `clock` the reading of a clock at a call, `mtime` the modification time
of files. A call that waits does not return. -/
def calmOs (env : EnvVar → Option CStr) (clock : ℕ → ClockId → Timespec) (mtime : Timespec) :
    ℕ → (o : Op) → Option o.Ans
  | _, .ftSemLock => some .acquired
  | _, .ftSemUnlock => some true
  | _, .getenv v => some (env v)
  | n, .realClockGettime c => some (some (clock n c))
  | n, .realGettimeofday =>
    some (some ⟨(clock n .realtime).tvSec, (clock n .realtime).tvNsec / 1000⟩)
  | _, .realFtime => some true
  | n, .realTimespecGet base => some (some (base, clock n .realtime))
  | _, .realStat _ => some (some mtime)
  | _, .openSave _ => some true
  | _, .ftShmInit => some true
  | _, .close _ => some true
  | _, .write bytes => some (.wrote bytes.length)
  | _, _ => none

/-- A process on such a system, without configuration files. -/
def calmWorld (env : EnvVar → Option CStr) (clock : ℕ → ClockId → Timespec) (mtime : Timespec)
    (s : Proc) : World where
  os := calmOs env clock mtime
  file _ _ := none
  now := 0
  proc := s
  dontFake := false
  shm := .created
  semHeld := false
  mutexHeld := false
  rest := []
  saved := []

/-- A build whose C library reads no dates. -/
def plainBuild : Build where
  strptime _ _ _ := none
  mktime _ := -1
  pthreadSinglethreadedTime := false
  progname := "date".toList
  retries := 1

/-- A C library in UTC, as far as one date is concerned. -/
def epochBuild : Build where
  strptime s fmt _ := if s = "1970-01-01 00:01:40".toList ∧ fmt = "%Y-%m-%d %T".toList then
    some (⟨40, 1, 0, 1, 0, 70, 4, 0, -1⟩, []) else none
  mktime tm := if tm = ⟨40, 1, 0, 1, 0, 70, 4, 0, -1⟩ then 100 else -1
  pthreadSinglethreadedTime := false
  progname := "date".toList
  retries := 1

/-- The environment of `FAKETIME='@1970-01-01 00:01:40'` with `FAKETIME_DONT_RESET`. -/
def startAtEnv : EnvVar → Option CStr
  | .faketime => some "@1970-01-01 00:01:40".toList
  | .faketimeDontReset => some ['1']
  | _ => none

/-! ### The calls, one by one -/

section Simp

variable {w : World}

@[simp] theorem seq_load : seq w .load = .ok (w.proc, w) := rfl

@[simp] theorem seq_store {f : Proc → Proc} :
    seq w (.store f) = .ok ((), { w with proc := f w.proc }) := rfl

@[simp] theorem seq_dontFake : seq w .dontFake = .ok (w.dontFake, w) := rfl

@[simp] theorem seq_setDontFake {b : Bool} :
    seq w (.setDontFake b) = .ok ((), { w with dontFake := b }) := rfl

theorem seq_ftSemLock : seq w .ftSemLock = if w.semHeld then .error .blocked
    else w.ask .ftSemLock fun (r : LockResult) w => { w with semHeld := r == .acquired } := rfl

theorem seq_ftSemUnlock : seq w .ftSemUnlock =
    w.ask .ftSemUnlock fun (r : Bool) w => { w with semHeld := w.semHeld && !r } := rfl

theorem seq_timeMutexLock : seq w .timeMutexLock =
    if w.mutexHeld then .error .blocked else .ok ((), { w with mutexHeld := true }) := rfl

@[simp] theorem seq_timeMutexUnlock :
    seq w .timeMutexUnlock = .ok ((), { w with mutexHeld := false }) := rfl

@[simp] theorem seq_readShared : seq w .readShared = .ok (w.shm, w) := rfl

@[simp] theorem seq_writeShared {f : FtShared → FtShared} :
    seq w (.writeShared f) = .ok ((), { w with shm := f w.shm }) := rfl

theorem seq_openRead {path : CStr} : seq w (.openRead path) =
    match w.file w.now path with
    | some contents => .ok (some 3, { w.tick with rest := contents })
    | none => .ok (none, { w.tick with rest := [] }) := rfl

theorem seq_write {bytes : List UInt8} : seq w (.write bytes) =
    w.ask (.write bytes) fun r w => { w with saved := w.saved ++ match r with
      | .wrote n => bytes.take n
      | _ => [] } := rfl

theorem seq_setenv {v : EnvVar} {value : CStr} : seq w (.setenv v value) =
    w.ask (.setenv v value) fun (r : Bool) w => if r then w.setEnv v value else w := rfl

theorem seq_realClockGettime {c : ClockId} :
    seq w (.realClockGettime c) = w.ask (.realClockGettime c) fun _ w => w := rfl

end Simp

/-! ### Rules for runs -/

section Rules

variable {w : World} {β : Type} {Q : β → World → Prop}

theorem runs_load {f : Proc → Sys β} (h : (f w.proc).Runs seq w Q) :
    (load >>= f).Runs seq w Q := runs_perform_bind (I := sys) rfl h

theorem runs_store {g : Proc → Proc} {f : Unit → Sys β}
    (h : (f ()).Runs seq { w with proc := g w.proc } Q) : (store g >>= f).Runs seq w Q :=
  runs_perform_bind (I := sys) rfl h

theorem runs_dontFake {f : Bool → Sys β} (h : (f w.dontFake).Runs seq w Q) :
    (dontFake >>= f).Runs seq w Q := runs_perform_bind (I := sys) rfl h

theorem runs_spawn {f : Unit → Sys β} (h : (f ()).Runs seq w Q) :
    (spawn >>= f).Runs seq w Q := runs_perform_bind (I := sys) rfl h

theorem runs_perror {msg : String} {f : Unit → Sys β} (h : (f ()).Runs seq w Q) :
    (perror msg >>= f).Runs seq w Q := runs_perform_bind (I := sys) rfl h

theorem runs_readShared {f : FtShared → Sys β} (h : (f w.shm).Runs seq w Q) :
    (readShared >>= f).Runs seq w Q := runs_perform_bind (I := sys) rfl h

theorem runs_writeShared {g : FtShared → FtShared} {f : Unit → Sys β}
    (h : (f ()).Runs seq { w with shm := g w.shm } Q) : (writeShared g >>= f).Runs seq w Q :=
  runs_perform_bind (I := sys) rfl h

theorem World.ask_of_some {o : Op} {f : o.Ans → World → World} {r : o.Ans}
    (h : w.os w.now o = some r) : w.ask o f = .ok (r, f r w.tick) := by
  rw [ask, h]

theorem runs_getenv {v : EnvVar} {r : Option CStr} {f : Option CStr → Sys β}
    (ho : w.os w.now (.getenv v) = some r) (h : (f r).Runs seq w.tick Q) :
    (getenv v >>= f).Runs seq w Q :=
  runs_perform_bind (I := sys) (World.ask_of_some (f := fun _ w => w) ho) h

theorem runs_realClockGettime {c : ClockId} {r : Option Timespec} {f : Option Timespec → Sys β}
    (ho : w.os w.now (.realClockGettime c) = some r) (h : (f r).Runs seq w.tick Q) :
    (realClockGettime c >>= f).Runs seq w Q :=
  runs_perform_bind (I := sys) (World.ask_of_some (f := fun _ w => w) ho) h

theorem runs_setenv {v : EnvVar} {value : CStr} {f : Bool → Sys β}
    (ho : w.os w.now (.setenv v value) = some true)
    (h : (f true).Runs seq (w.tick.setEnv v value) Q) : (setenv v value >>= f).Runs seq w Q :=
  runs_perform_bind (I := sys) (seq_setenv.trans (World.ask_of_some ho)) h

theorem eq_of_run_setenv {v : EnvVar} {value : CStr} {r : Bool} {w' : World}
    (h : (setenv v value).run seq w = .ok (r, w')) :
    w' = if r then w.tick.setEnv v value else w.tick := by
  rw [setenv, run_perform, seq_setenv] at h
  exact (World.ask_eq_ok h).2

theorem runs_ask {o : Op} {r : o.Ans} {f : o.Ans → Sys β}
    (hseq : seq w o = w.ask o fun _ w => w) (ho : w.os w.now o = some r)
    (h : (f r).Runs seq w.tick Q) : (perform (I := sys) o >>= f).Runs seq w Q :=
  runs_perform_bind (I := sys) (hseq.trans (World.ask_of_some (f := fun _ w => w) ho)) h

/-- What comes after a call that returns. -/
theorem run_ask {o : Op} {r : o.Ans} (hseq : seq w o = w.ask o fun _ w => w)
    (ho : w.os w.now o = some r) (f : o.Ans → Sys β) :
    (perform (I := sys) o >>= f).run seq w = (f r).run seq w.tick := by
  rw [run_bind, run_perform, hseq, World.ask_of_some ho]
  rfl

theorem run_load (w : World) (f : Proc → Sys β) :
    (load >>= f).run seq w = (f w.proc).run seq w := rfl

theorem run_store (w : World) (g : Proc → Proc) (f : Unit → Sys β) :
    (store g >>= f).run seq w = (f ()).run seq { w with proc := g w.proc } := rfl

theorem run_dontFake (w : World) (f : Bool → Sys β) :
    (dontFake >>= f).run seq w = (f w.dontFake).run seq w := rfl

/-- A call that does not return is where the thread is. -/
theorem halts_ask {o : Op} (hseq : seq w o = w.ask o fun _ w => w) (ho : w.os w.now o = none) :
    (perform (I := sys) o).Halts seq w (.inside o) := by
  refine halts_perform (hseq.trans ?_)
  rw [World.ask, ho]

theorem halts_load {f : Proc → Sys β} {x : Stop} (h : (f w.proc).Halts seq w x) :
    (load >>= f).Halts seq w x :=
  (runs_perform (I := sys) (seq_load (w := w))).halts_bind fun _ _ hw => hw.1 ▸ hw.2 ▸ h

theorem halts_store {g : Proc → Proc} {f : Unit → Sys β} {x : Stop}
    (h : (f ()).Halts seq { w with proc := g w.proc } x) : (store g >>= f).Halts seq w x := by
  unfold Halts
  rw [run_store]
  exact h

theorem halts_dontFake {f : Bool → Sys β} {x : Stop} (h : (f w.dontFake).Halts seq w x) :
    (dontFake >>= f).Halts seq w x :=
  (runs_perform (I := sys) (seq_dontFake (w := w))).halts_bind fun _ _ hw => hw.1 ▸ hw.2 ▸ h

theorem runs_ftSemLock {f : LockResult → Sys β} (hheld : w.semHeld = false)
    (ho : w.os w.now .ftSemLock = some .acquired)
    (h : (f .acquired).Runs seq { w.tick with semHeld := true } Q) :
    (ftSemLock >>= f).Runs seq w Q := by
  refine runs_perform_bind (I := sys) ?_ h
  rw [seq_ftSemLock, if_neg (by rw [hheld]; simp), World.ask_of_some ho]
  rfl

theorem runs_ftSemUnlock {f : Bool → Sys β} (ho : w.os w.now .ftSemUnlock = some true)
    (h : (f true).Runs seq { w.tick with semHeld := false } Q) :
    (ftSemUnlock >>= f).Runs seq w Q := by
  refine runs_perform_bind (I := sys) ?_ h
  rw [seq_ftSemUnlock, World.ask_of_some ho, Bool.not_true, Bool.and_false]

theorem runs_timeMutexLock {f : Unit → Sys β} (hheld : w.mutexHeld = false)
    (h : (f ()).Runs seq { w with mutexHeld := true } Q) :
    (timeMutexLock >>= f).Runs seq w Q := by
  refine runs_perform_bind (I := sys) ?_ h
  rw [seq_timeMutexLock, if_neg (by rw [hheld]; simp)]

theorem runs_timeMutexUnlock {f : Unit → Sys β}
    (h : (f ()).Runs seq { w with mutexHeld := false } Q) :
    (timeMutexUnlock >>= f).Runs seq w Q := runs_perform_bind (I := sys) rfl h

/-- Where the bytes of a `write` go. -/
def WriteResult.taken (bytes : List UInt8) : WriteResult → List UInt8
  | .wrote n => bytes.take n
  | _ => []

theorem runs_writeOut {bytes : List UInt8} {r : WriteResult} {f : WriteResult → Sys β}
    (ho : w.os w.now (.write bytes) = some r)
    (h : (f r).Runs seq { w.tick with saved := w.saved ++ r.taken bytes } Q) :
    (writeOut bytes >>= f).Runs seq w Q := by
  refine runs_perform_bind (I := sys) ?_ h
  rw [seq_write, World.ask_of_some ho]
  cases r <;> rfl

/-! ### Rules for runs that come to an end -/

theorem ends_load {f : Proc → Sys β} (h : (f w.proc).Ends seq w Q) :
    (load >>= f).Ends seq w Q := by
  refine ends_perform_bind (I := sys) ?_
  rintro _ _ ⟨⟩
  exact h

theorem ends_store {g : Proc → Proc} {f : Unit → Sys β}
    (h : (f ()).Ends seq { w with proc := g w.proc } Q) : (store g >>= f).Ends seq w Q := by
  refine ends_perform_bind (I := sys) ?_
  rintro _ _ ⟨⟩
  exact h

theorem ends_dontFake {f : Bool → Sys β} (h : (f w.dontFake).Ends seq w Q) :
    (dontFake >>= f).Ends seq w Q := by
  refine ends_perform_bind (I := sys) ?_
  rintro _ _ ⟨⟩
  exact h

theorem ends_readShared {f : FtShared → Sys β} (h : (f w.shm).Ends seq w Q) :
    (readShared >>= f).Ends seq w Q := by
  refine ends_perform_bind (I := sys) ?_
  rintro _ _ ⟨⟩
  exact h

theorem ends_writeShared {g : FtShared → FtShared} {f : Unit → Sys β}
    (h : (f ()).Ends seq { w with shm := g w.shm } Q) : (writeShared g >>= f).Ends seq w Q := by
  refine ends_perform_bind (I := sys) ?_
  rintro _ _ ⟨⟩
  exact h

theorem ends_ask {o : Op} {f : o.Ans → Sys β} (hseq : seq w o = w.ask o fun _ w => w)
    (h : ∀ r, w.os w.now o = some r → (f r).Ends seq w.tick Q) :
    (perform (I := sys) o >>= f).Ends seq w Q := by
  refine ends_perform_bind (I := sys) fun r w' ho => ?_
  rw [hseq] at ho
  obtain ⟨hr, rfl⟩ := World.ask_eq_ok ho
  exact h r hr

theorem ends_ftSemLock {f : LockResult → Sys β}
    (h : ∀ r, (f r).Ends seq { w.tick with semHeld := r == .acquired } Q) :
    (ftSemLock >>= f).Ends seq w Q := by
  refine ends_perform_bind (I := sys) fun r w' ho => ?_
  rw [seq_ftSemLock] at ho
  split at ho
  · cases ho
  · obtain ⟨-, rfl⟩ := World.ask_eq_ok ho
    exact h r

theorem ends_ftSemUnlock {f : Bool → Sys β}
    (h : ∀ r, (f r).Ends seq { w.tick with semHeld := w.semHeld && !r } Q) :
    (ftSemUnlock >>= f).Ends seq w Q := by
  refine ends_perform_bind (I := sys) fun r w' ho => ?_
  rw [seq_ftSemUnlock] at ho
  obtain ⟨-, rfl⟩ := World.ask_eq_ok ho
  exact h r

theorem ends_exit {code : ℤ} {msg : String} : (exit code msg : Sys β).Ends seq w Q :=
  (show (exit code msg : Sys β).Halts seq w (.exited code msg) from rfl).ends

theorem ends_stalled : (stalled : Sys β).Ends seq w Q :=
  (show (stalled : Sys β).Halts seq w .stalled from rfl).ends

end Rules

end LibFaketime
