import LibFaketime.Frozen
import LibFaketime.Futex
import LibFaketime.Limits
import LibFaketime.Recording

/-!
# Lost wake-ups

A real futex call that returns zero has been woken, and the wake-up is gone with it: whoever
waits has to be told. `handle_futex_syscall` asks the clock first whether the timeout has
passed, and if not, it waits again. What it asks the clock about is a variable that has not
been assigned.

The results of the real calls and the contents of such a variable are left open
(`LibFaketime.World.given`), and a run is watched for a wait after a wake-up
(`LibFaketime.watched`). Wake-ups are kept if and only if the clock gives up or is past the
timeout whatever it is asked about (`LibFaketime.keepsWakeups_iff_pastAfterQuery`), and the
settings say when this is so (`LibFaketime.keeps_wakeups_iff`): a clock that is frozen at a later
time is one such case, and a replay whose next record is later is another one.
-/

namespace LibFaketime

open Effects Effects.Prog

/-! ### The property -/

/-- The calls whose answers are left open. -/
def Op.LeftOpen : Op → Bool
  | .syscallFutex _ _ | .uninitialized => true
  | _ => false

/-- The same world, with these results of the futex calls and these contents of the variables
that have not been assigned. -/
def World.given (w : World) (results : ℕ → ℤ) (contents : ℕ → Timespec) : World :=
  w.masked Op.LeftOpen fun n o => match o with
    | .syscallFutex _ _ => some (results n)
    | .uninitialized => some (contents n)
    | _ => none

/-- A process alone that is watched: it is noted whether a futex call has returned zero, and a
process that waits on a futex after that has stopped for good. -/
def watched : Handler sys (World × Bool) Stop
  | (w, woken), .syscallFutex args timeout =>
    if woken then .error (.inside (.syscallFutex args timeout))
    else (seq w (.syscallFutex args timeout)).map fun (r : ℤ × World) =>
      (r.1, r.2, decide (r.1 = 0))
  | (w, woken), o => (seq w o).map fun r => (r.1, r.2, woken)

/-- The call is a futex call that returns zero. -/
def Wakes : (o : Op) → World → Prop
  | .syscallFutex args timeout, w => w.os w.now (.syscallFutex args timeout) = some (0 : ℤ)
  | _, _ => False

/-- **No wake-up is lost**, whatever the real calls return and whatever is in a variable that has
not been assigned: if a call is woken, the function returns zero without a further wait, and
what is in the variable makes no difference. -/
structure KeepsWakeups (B : Build) (w : World) (args : FutexArgs) (timeout : Timespec) : Prop where
  returns : ∀ results contents,
    (handleFutexSyscall B args (some timeout)).Makes seq Wakes (w.given results contents) →
      (handleFutexSyscall B args (some timeout)).Runs watched (w.given results contents, false)
        fun r _ => r = 0
  independent : ∀ results contents contents',
    (handleFutexSyscall B args (some timeout)).Makes seq Wakes (w.given results contents) →
      (handleFutexSyscall B args (some timeout)).Makes seq Wakes (w.given results contents') →
        (handleFutexSyscall B args (some timeout)).answer watched
          (w.given results contents, false) =
          (handleFutexSyscall B args (some timeout)).answer watched
            (w.given results contents', false)

/-! ### The condition -/

/-- The real clock is read as `tp`, which leads to the world `w₀`. If it cannot be read, `tp` may
be anything. -/
def World.Reads (w : World) (c : ClockId) (tp : Timespec) (w₀ : World) : Prop :=
  w.os w.now (.realClockGettime c) = some (some tp) ∧ w₀ = w.tick ∨
    w.os w.now (.realClockGettime c) = some none ∧ w₀ = w.tick.tick

/-- Whatever it is asked about, the clock gives up or is past the timeout. -/
def World.AlwaysPast (B : Build) (w : World) (c : ClockId) (timeout : Timespec) : Prop :=
  ∀ tp, (fakeClockGettime B c tp).Runs seq w fun r _ => r.1 ≠ 0 ∨ timeout ≤ r.2

/-- **The clock gives up at the first query, or is past the timeout at the second one**, whatever
that is about. -/
def World.PastAfterQuery (B : Build) (w : World) (c : ClockId) (timeout : Timespec) : Prop :=
  ∀ tp w₀, w.Reads c tp w₀ → (fakeClockGettime B c tp).Ends seq w₀ fun r w₁ =>
    r.1 = -1 ∨ w₁.tick.tick.AlwaysPast B c timeout

/-- The real clock may be read as `tp`. -/
def World.CanRead (w : World) (c : ClockId) (tp : Timespec) : Prop :=
  w.os w.now (.realClockGettime c) = some (some tp) ∨ w.os w.now (.realClockGettime c) = some none

/-- A query about `tp` leaves this behind: it is counted, and it takes a tick. -/
def World.asked (w : World) (c : ClockId) (tp : Timespec) : World :=
  { w with proc := w.proc.counted, shm := w.limitedShm c tp }

/-- **By its settings, a clock is past the timeout whatever it is asked about.** What the limits
shut out is handed back as it is, and otherwise the mode decides. -/
def World.AlwaysLate (w : World) (c : ClockId) (timeout : Timespec) : Prop :=
  ∀ t, if w.proc.shutsOut c t then timeout ≤ t
    else match w.proc.ftMode with
      | .noop => True
      | .freeze => timeout ≤ normalizeTimespecValue
          (if w.proc.userFakedTimeSet then w.proc.userFakedTimeTimespec else t)
      | .startAt =>
        if w.proc.userPerTickIncSet then
          if w.proc.sharedSemInitialized then
            timeout ≤ normalizeTimespecValue (timespecadd w.proc.userFakedTimeTimespec
              (timespecmul w.proc.userPerTickInc w.shm.ticks))
          else timeout ≤ normalizeTimespecValue t
        else timeout ≤ normalizeTimespecValue (w.proc.startAt c t)

/-- **The settings under which a wake-up is kept**: the thread is faked, and the mode is `FT_NOOP`
within the limits, or the clock is past the timeout after one query, whatever it is asked about. -/
def World.LateBySettings (w : World) (c : ClockId) (timeout tp : Timespec) : Prop :=
  w.dontFake = false ∧
    (w.proc.shutsOut c tp = false ∧ w.proc.ftMode = .noop ∨ (w.asked c tp).AlwaysLate c timeout)

/-! ### Runs that are watched -/

section Watched

variable {B : Build} {w w' w₀ w₁ : World} {c : ClockId} {args : FutexArgs} {timeout tp t : Timespec}
  {results : ℕ → ℤ} {contents : ℕ → Timespec} {locks : Prop}

theorem leftOpen_of_unsettled {o : Op} (h : o.Unsettled = false) : o.LeftOpen = false := by
  cases o <;> first | rfl | exact h

/-- A prompt program goes the same way whatever is left open. -/
theorem run_given {β : Type} {p : Sys β} (hp : p.Uses (Prompt locks)) (w : World) :
    p.run seq (w.given results contents) =
      (p.run seq w).map fun r => (r.1, r.2.given results contents) :=
  run_masked hp (fun _ => leftOpen_of_unsettled) w

/-- The other calls are of no interest to the watch. -/
theorem watched_of_ne {o : Op} (ho : ∀ args timeout, o ≠ .syscallFutex args timeout) (w : World)
    (woken : Bool) : watched (w, woken) o = (seq w o).map fun r => (r.1, r.2, woken) := by
  cases o
  case syscallFutex args timeout => exact absurd rfl (ho args timeout)
  all_goals rfl

theorem run_watched {β : Type} {p : Sys β} (hp : p.Uses (Prompt locks)) (w : World) (woken : Bool) :
    p.run watched (w, woken) = (p.run seq w).map fun r => (r.1, r.2, woken) := by
  refine hp.run_noted (fun w woken o ho => watched_of_ne ?_ w woken) woken
  rintro args timeout rfl
  cases ho.2

/-- A reading of the real clock waits for nothing. -/
theorem uses_readRealClock : (readRealClock c).Uses fun o : Op => o.Waits = false := by
  refine uses_perform_bind rfl fun r => ?_
  cases r with
  | none => exact uses_perform rfl
  | some tp => exact uses_pure tp

theorem run_watched_readRealClock (woken : Bool) :
    (readRealClock c).run watched (w, woken) =
      ((readRealClock c).run seq w).map fun r => (r.1, r.2, woken) := by
  refine uses_readRealClock.run_noted (fun w woken o ho => watched_of_ne ?_ w woken) woken
  rintro args timeout rfl
  cases ho

theorem uses_true {β : Type} (p : Sys β) : p.Uses fun _ => True := by
  induction p with
  | ret a => trivial
  | op o k ih => exact ⟨trivial, ih⟩

/-- Once woken, always woken. -/
theorem ends_woken {β : Type} (p : Sys β) : p.Ends watched (w, true) fun _ v => v.2 = true := by
  refine (uses_true p).ends (J := fun v : World × Bool => v.2 = true) ?_ rfl
  rintro ⟨v, _⟩ o r v' - rfl hr
  by_cases hfutex : ∃ args timeout, o = .syscallFutex args timeout
  · obtain ⟨args, timeout, rfl⟩ := hfutex
    cases hr
  · rw [watched_of_ne (fun args timeout ho => hfutex ⟨args, timeout, ho⟩)] at hr
    cases hseq : seq v o with
    | error x =>
      rw [hseq] at hr
      cases hr
    | ok s =>
      rw [hseq] at hr
      cases hr
      rfl

/-- **Once woken, the loop returns only at its beginning**: if the timeout has not passed, it comes
to a wait. -/
theorem ends_futexLoop_woken (hcmd : args.futexCmd = futexWaitBitset) (n : ℕ)
    (ht : ¬ timeout ≤ t) :
    (futexLoop B args timeout n t).Ends watched (w, true) fun _ _ => False := by
  cases n with
  | zero =>
    have hstalled : (futexLoop B args timeout 0 t).Halts watched (w, true) .stalled := rfl
    exact hstalled.ends
  | succ n =>
    unfold futexLoop
    rw [if_neg ht]
    refine (ends_woken _).bind ?_
    rintro realNow ⟨v, _⟩ rfl
    refine (ends_woken _).bind ?_
    rintro garbage ⟨v, _⟩ rfl
    refine (ends_woken _).bind ?_
    rintro fakeNow ⟨v, _⟩ rfl
    refine (ends_woken _).bind ?_
    rintro s ⟨v, _⟩ rfl
    refine (ends_woken _).bind ?_
    rintro skip ⟨v, _⟩ rfl
    dsimp only
    rw [makeFutexSyscall_bitset hcmd]
    refine ends_perform_bind (I := sys) ?_
    rintro r v' ⟨⟩

/-! ### The function up to the first wait -/

/-- What the function does after the first query. -/
def afterQuery (B : Build) (args : FutexArgs) (timeout tp : Timespec) (r : ℤ × Timespec) : Sys ℤ :=
  if r.1 = -1 then makeFutexSyscall args (some timeout)
  else makeFutexSyscall args (some (timespecsub timeout (timespecsub r.2 tp))) >>=
    afterFutex B args timeout

theorem handleFutexSyscall_eq (hcmd : args.futexCmd = futexWaitBitset) :
    handleFutexSyscall B args (some timeout) = readRealClock args.clkId >>= fun tp =>
      fakeClockGettime B args.clkId tp >>= afterQuery B args timeout tp := by
  unfold handleFutexSyscall
  dsimp only
  rw [if_pos hcmd]
  rfl

/-- The readings of the real clock. -/
theorem reads_of_run
    (h : (readRealClock c).run seq (w.given results contents) = .ok (tp, w')) :
    ∃ w₀, w' = w₀.given results contents ∧ w.Reads c tp w₀ := by
  obtain ⟨r, v, hr, hrest⟩ := exists_of_run_bind h
  rw [realClockGettime, run_perform] at hr
  obtain ⟨hos, rfl⟩ := World.ask_eq_ok (f := fun _ w => w) hr
  have hos : w.os w.now (.realClockGettime c) = some r := hos
  cases r with
  | some tp' =>
    cases hrest
    exact ⟨w.tick, rfl, Or.inl ⟨hos, rfl⟩⟩
  | none =>
    rw [uninitialized, run_perform] at hrest
    have hrest : (w.given results contents).tick.ask .uninitialized (fun _ w => w) = .ok (tp, w') :=
      hrest
    obtain ⟨-, rfl⟩ := World.ask_eq_ok hrest
    exact ⟨w.tick.tick, rfl, Or.inr ⟨hos, rfl⟩⟩

theorem run_of_reads (h : w.Reads c tp w₀) (hcontents : contents (w.now + 1) = tp) :
    (readRealClock c).run seq (w.given results contents) = .ok (tp, w₀.given results contents) := by
  obtain ⟨hos, rfl⟩ | ⟨hos, rfl⟩ := h
  · exact run_ask (w := w.given results contents) (o := .realClockGettime c) rfl hos _
  · refine (run_ask (w := w.given results contents) (o := .realClockGettime c) rfl hos _).trans ?_
    rw [← hcontents]
    rfl

/-- Calls are counted upwards. -/
theorem now_le_of_seq {o : Op} {r : o.Ans} (h : seq w o = .ok (r, w')) : w.now ≤ w'.now := by
  have hask : ∀ {f : o.Ans → World → World}, w.ask o f = .ok (r, w') →
      (∀ r v, (f r v).now = v.now) → w.now ≤ w'.now := by
    intro f heq hf
    obtain ⟨-, rfl⟩ := World.ask_eq_ok heq
    rw [hf]
    exact Nat.le_succ w.now
  -- a call that is answered from outside takes one instant, and the others none
  cases o
  case store | setDontFake | load | dontFake | timeMutexUnlock | readShared | writeShared | read |
      munmapStss | spawn | perror =>
    cases h
    exact le_rfl
  case setenv v value =>
    rw [seq_setenv] at h
    refine hask h fun r v => ?_
    split <;> rfl
  case ftSemLock =>
    rw [seq_ftSemLock] at h
    split at h
    · cases h
    · exact hask h fun _ _ => rfl
  case ftSemUnlock =>
    rw [seq_ftSemUnlock] at h
    exact hask h fun _ _ => rfl
  case write bytes =>
    rw [seq_write] at h
    exact hask h fun _ _ => rfl
  case timeMutexLock =>
    rw [seq_timeMutexLock] at h
    split at h
    · cases h
    · cases h
      exact le_rfl
  case openRead path =>
    rw [seq_openRead] at h
    split at h
    · cases h
      exact Nat.le_succ w.now
    · cases h
      exact Nat.le_succ w.now
  case exit => cases h
  case stalled => cases h
  all_goals exact hask (f := fun _ w => w) h fun _ _ => rfl

theorem now_le_of_run {β : Type} {p : Sys β} {r : β} (h : p.run seq w = .ok (r, w')) :
    w.now ≤ w'.now :=
  (uses_true p).invariant_run (J := fun v => w.now ≤ v.now)
    (fun _ _ _ _ _ hv hr => hv.trans (now_le_of_seq hr)) le_rfl h

/-- The first query, whatever is left open. -/
theorem run_query_given (results : ℕ → ℤ) (contents : ℕ → Timespec) (woken : Bool)
    {r : ℤ × Timespec}
    (h : (fakeClockGettime B c tp).run seq w = .ok (r, w₁)) :
    (fakeClockGettime B c tp).run watched (w.given results contents, woken) =
      .ok (r, w₁.given results contents, woken) := by
  have hp := prompt_fakeClockGettime (B := B) (trivial : True) c tp
  rw [run_watched hp, run_given hp, h]
  rfl

/-- A futex call that is watched. -/
theorem run_watched_makeFutexSyscall (hcmd : args.futexCmd = futexWaitBitset) (x : Timespec) :
    (makeFutexSyscall args (some x)).run watched (w.given results contents, false) =
      .ok (results w.now, w.tick.given results contents, decide (results w.now = 0)) := by
  rw [makeFutexSyscall_bitset hcmd, syscallFutex, run_perform]
  rfl

/-- **What a woken process returns** is decided by the clock, asked about whatever there is. -/
theorem runs_afterFutex_iff (hcmd : args.futexCmd = futexWaitBitset) :
    (afterFutex B args timeout 0).Runs watched (w.given results contents, true) (fun r _ => r = 0) ↔
      (fakeClockGettime B args.clkId (contents w.now)).Runs seq w.tick fun r _ =>
        r.1 ≠ 0 ∨ timeout ≤ r.2 := by
  have hstart : (afterFutex B args timeout 0).run watched (w.given results contents, true) =
      (fakeClockGettime B args.clkId (contents w.now) >>= fun r => if r.1 ≠ 0 then pure 0
        else futexLoop B args timeout (B.retries + 1) r.2).run watched
          (w.tick.given results contents, true) := rfl
  unfold Prog.Runs
  rw [hstart]
  constructor
  · rintro ⟨_, v, hr, rfl⟩
    obtain ⟨r, v₁, hr₁, hr₂⟩ := exists_of_run_bind hr
    have hp := prompt_fakeClockGettime (B := B) (trivial : True) args.clkId (contents w.now)
    rw [run_watched hp, run_given hp] at hr₁
    cases hquery : (fakeClockGettime B args.clkId (contents w.now)).run seq w.tick with
    | error x =>
      rw [hquery] at hr₁
      cases hr₁
    | ok x =>
      rw [hquery] at hr₁
      cases hr₁
      refine ⟨x.1, x.2, rfl, ?_⟩
      -- a clock that is before the timeout leads to another wait, which the handler forbids
      by_contra hlost
      obtain ⟨hret, hlate⟩ := not_or.mp hlost
      rw [if_neg hret] at hr₂
      exact ends_futexLoop_woken hcmd _ hlate _ _ hr₂
  · rintro ⟨r, w₁, hr, hpast⟩
    have hquery := run_query_given results contents true hr
    refine ⟨0, (w₁.given results contents, true), ?_, rfl⟩
    rw [run_bind, hquery]
    change Prog.run watched
      (if r.1 ≠ 0 then pure 0 else futexLoop B args timeout (B.retries + 1) r.2)
      (w₁.given results contents, true) = _
    by_cases hret : r.1 = 0
    · rw [if_neg (not_not_intro hret), futexLoop, if_pos (hpast.resolve_left (not_not_intro hret))]
      rfl
    · rw [if_pos hret]
      rfl

/-- What is left of the function after the first query. -/
theorem run_handleFutexSyscall (timeout : Timespec) {r : ℤ × Timespec}
    (hcmd : args.futexCmd = futexWaitBitset)
    (hread : (readRealClock args.clkId).run seq (w.given results contents) =
      .ok (tp, w₀.given results contents))
    (hquery : (fakeClockGettime B args.clkId tp).run seq w₀ = .ok (r, w₁)) :
    (handleFutexSyscall B args (some timeout)).run watched (w.given results contents, false) =
        (afterQuery B args timeout tp r).run watched (w₁.given results contents, false) ∧
      ((afterQuery B args timeout tp r).Makes seq Wakes (w₁.given results contents) →
        (handleFutexSyscall B args (some timeout)).Makes seq Wakes (w.given results contents)) := by
  rw [handleFutexSyscall_eq hcmd]
  constructor
  · rw [run_bind, run_watched_readRealClock, hread]
    change (fakeClockGettime B args.clkId tp >>= afterQuery B args timeout tp).run watched
      (w₀.given results contents, false) = _
    rw [run_bind, run_query_given results contents false hquery]
    rfl
  · intro hmakes
    have hp := prompt_fakeClockGettime (B := B) (trivial : True) args.clkId tp
    have hgiven : (fakeClockGettime B args.clkId tp).Runs seq (w₀.given results contents)
        fun a v => a = r ∧ v = w₁.given results contents :=
      ⟨r, w₁.given results contents, by rw [run_given hp, hquery]; rfl, rfl, rfl⟩
    refine Runs.makes_bind (Q := fun a v => a = tp ∧ v = w₀.given results contents)
      ⟨_, _, hread, rfl, rfl⟩ ?_
    rintro _ _ ⟨rfl, rfl⟩
    refine hgiven.makes_bind ?_
    rintro _ _ ⟨rfl, rfl⟩
    exact hmakes

/-- The first call decides whether the process is woken. -/
theorem makes_afterQuery_iff {r : ℤ × Timespec} (hcmd : args.futexCmd = futexWaitBitset) :
    (afterQuery B args timeout tp r).Makes seq Wakes (w.given results contents) ↔
      results w.now = 0 := by
  have hwakes : ∀ x : Option Timespec, Wakes (.syscallFutex args x) (w.given results contents) ↔
      results w.now = 0 := fun x => Option.some_inj
  unfold afterQuery
  rw [makeFutexSyscall_bitset hcmd, makeFutexSyscall_bitset hcmd]
  split
  · exact ⟨fun h => (hwakes _).mp (h.resolve_right fun ⟨_, _, _, hnone⟩ => hnone),
      fun h => Or.inl ((hwakes _).mpr h)⟩
  · refine ⟨fun h => ?_, fun h => Or.inl ((hwakes _).mpr h)⟩
    obtain h | ⟨r', w', hr, hmakes⟩ := h
    · exact (hwakes _).mp h
    · -- a process that has not been woken makes no further call
      have hr : (w.given results contents).ask (.syscallFutex args _) (fun _ w => w) =
          .ok (r', w') := hr
      obtain ⟨hos, rfl⟩ := World.ask_eq_ok hr
      obtain rfl : results w.now = r' := Option.some_inj.mp hos
      by_contra hne
      change (afterFutex B args timeout (results w.now)).Makes seq Wakes _ at hmakes
      rw [afterFutex, if_pos hne] at hmakes
      exact hmakes

/-- A process that has been woken. -/
theorem run_afterQuery {r : ℤ × Timespec} (hcmd : args.futexCmd = futexWaitBitset)
    (hwoken : results w.now = 0) :
    (afterQuery B args timeout tp r).run watched (w.given results contents, false) =
      if r.1 = -1 then .ok (0, w.tick.given results contents, true)
      else (afterFutex B args timeout 0).run watched (w.tick.given results contents, true) := by
  unfold afterQuery
  split
  · rw [run_watched_makeFutexSyscall hcmd, hwoken]
    rfl
  · rw [run_bind, run_watched_makeFutexSyscall hcmd, hwoken]
    rfl

end Watched

/-! ### Wake-ups are kept -/

section Kept

variable {B : Build} {w w₀ : World} {c : ClockId} {args : FutexArgs} {timeout tp t : Timespec}

theorem World.CanRead.reads (h : w.CanRead c tp) : ∃ w₀, w.Reads c tp w₀ := by
  obtain h | h := h
  · exact ⟨_, Or.inl ⟨h, rfl⟩⟩
  · exact ⟨_, Or.inr ⟨h, rfl⟩⟩

/-- A reading changes nothing, and it may be what has been read. -/
theorem World.Reads.canRead (h : w.Reads c tp w₀) :
    w.CanRead c tp ∧ ∃ n, w₀ = { w with now := n } := by
  obtain ⟨h, rfl⟩ | ⟨h, rfl⟩ := h
  · exact ⟨Or.inl h, _, rfl⟩
  · exact ⟨Or.inr h, _, rfl⟩

/-- What a query makes of a reading is up to the settings, the number of the call and the shared
block. -/
theorem limited_eq {v v' : World} (hcore : v'.proc.core = v.proc.core)
    (hcalls : v'.proc.callcounter = v.proc.callcounter) (hshm : v'.shm = v.shm) :
    v'.limited c t = v.limited c t := by
  have houtcome := Proc.field_eq hcore (fun s => ({ v with proc := s } : World).outcome c t)
    (fun _ => rfl)
  have hv : v'.outcome c t = ({ v with proc := v'.proc } : World).outcome c t := by
    unfold World.outcome
    rw [hshm]
  unfold World.limited
  rw [shutsOut_eq hcore hcalls, hv, houtcome]

/-- **The settings say whether the clock is past the timeout.** -/
theorem alwaysLate_iff {v : World} : v.AlwaysLate c timeout ↔
    ∀ t, (v.limited c t).result.1 ≠ 0 ∨ timeout ≤ (v.limited c t).result.2 := by
  refine forall_congr' fun t => ?_
  unfold World.limited World.outcome
  cases v.proc.shutsOut c t with
  | true => exact ⟨Or.inr, fun h => h.resolve_left (not_not_intro rfl)⟩
  | false =>
    rw [if_neg Bool.false_ne_true, if_neg Bool.false_ne_true]
    cases v.proc.ftMode with
    | noop => exact iff_of_true trivial (Or.inl (by simp [Outcome.result]))
    | freeze => exact ⟨Or.inr, fun h => h.resolve_left (not_not_intro rfl)⟩
    | startAt =>
      dsimp only
      split
      · split
        · exact ⟨Or.inr, fun h => h.resolve_left (not_not_intro rfl)⟩
        · exact ⟨Or.inr, fun h => h.resolve_left (not_not_intro rfl)⟩
      · exact ⟨Or.inr, fun h => h.resolve_left (not_not_intro rfl)⟩

/-- A query gives up in `FT_NOOP`, if the limits let it through. -/
theorem limited_gives_up_iff :
    (w.limited c tp).result.1 = -1 ↔ w.proc.shutsOut c tp = false ∧ w.proc.ftMode = .noop := by
  unfold World.limited World.outcome
  cases w.proc.shutsOut c tp <;> cases w.proc.ftMode <;> simp [Outcome.result]

/-- A thread that is not faked is handed back whatever it asks about. -/
theorem not_pastAfterQuery_of_dontFake (hdont : w.dontFake = true) (hread : w.CanRead c tp) :
    ¬ w.PastAfterQuery B c timeout := by
  intro hpast
  have hquery : ∀ (v : World) t, v.dontFake = true →
      (fakeClockGettime B c t).run seq v = .ok ((0, t), v) := by
    intro v t hv
    rw [fakeClockGettime, run_bind, dontFake, run_perform]
    change Prog.run seq (if v.dontFake = true then pure (0, t) else _) v = _
    rw [hv, if_pos rfl]
    rfl
  obtain ⟨w₀, hreads⟩ := hread.reads
  obtain ⟨-, n, rfl⟩ := hreads.canRead
  have halways := (hpast tp _ hreads _ _ (hquery _ tp hdont)).resolve_left (by simp)
  -- the variable may hold a time before the timeout
  obtain ⟨r, v, hr, hlate⟩ := halways ⟨timeout.tvSec - 1, 0⟩
  cases (hquery ({ w with now := n } : World).tick.tick _ hdont).symm.trans hr
  have hle : timeout.le ⟨timeout.tvSec - 1, 0⟩ := hlate.resolve_left (not_not_intro rfl)
  unfold Timespec.le at hle
  dsimp only at hle
  split at hle <;> omega

/-- **What the condition says of a setting in force.** -/
theorem pastAfterQuery_standing_iff (hs : Standing B w) (hcpu : c.IsCpu = false) :
    w.PastAfterQuery B c timeout ↔ ∀ tp, w.CanRead c tp → w.LateBySettings c timeout tp := by
  cases hdont : w.dontFake with
  | true =>
    refine ⟨fun hpast tp hread => absurd hpast (not_pastAfterQuery_of_dontFake hdont hread), ?_⟩
    intro hlate tp w₀ hreads
    have h := (hlate tp hreads.canRead.1).1
    rw [hdont] at h
    cases h
  | false =>
    -- the second query, whatever it is about, after one about `tp`
    have hsecond : ∀ tp w₀ r w₁, w.Reads c tp w₀ →
        (fakeClockGettime B c tp).run seq w₀ = .ok (r, w₁) →
        (r.1 = -1 ↔ w.proc.shutsOut c tp = false ∧ w.proc.ftMode = .noop) ∧
          (w₁.tick.tick.AlwaysPast B c timeout ↔ (w.asked c tp).AlwaysLate c timeout) := by
      intro tp w₀ r w₁ hreads hr
      obtain ⟨-, n, rfl⟩ := hreads.canRead
      have h₀ : Like w { w with now := n } := ⟨rfl, rfl, rfl, rfl, rfl, rfl⟩
      obtain ⟨_, v, hv, rfl, h₁, hshm, hcalls⟩ :=
        (hs.like h₀).runs_query (c := c) hdont hcpu tp
      rw [hr] at hv
      cases hv
      refine ⟨limited_gives_up_iff, ?_⟩
      rw [alwaysLate_iff]
      refine forall_congr' fun t => ?_
      have h₂ : Like w w₁.tick.tick := (h₀.trans h₁).trans ⟨rfl, rfl, rfl, rfl, rfl, rfl⟩
      have hlimited : w₁.tick.tick.limited c t = (w.asked c tp).limited c t :=
        limited_eq (h₂.core.trans (core_counted w.proc).symm) hcalls hshm
      obtain ⟨_, v, hv, rfl, -⟩ := (hs.like h₂).runs_query (c := c)
        (h₂.dontFake.trans hdont) hcpu t
      rw [← hlimited]
      refine ⟨?_, fun h => ⟨_, v, hv, h⟩⟩
      rintro ⟨_, _, hv', h⟩
      rw [hv] at hv'
      cases hv'
      exact h
    constructor
    · intro hpast tp hread
      obtain ⟨w₀, hreads⟩ := hread.reads
      obtain ⟨-, n, rfl⟩ := hreads.canRead
      have h₀ : Like w { w with now := n } := ⟨rfl, rfl, rfl, rfl, rfl, rfl⟩
      obtain ⟨r, w₁, hr, -⟩ := (hs.like h₀).runs_query (c := c) hdont hcpu tp
      obtain ⟨hnoop, hlate⟩ := hsecond tp _ r w₁ hreads hr
      exact ⟨hdont, (hpast tp _ hreads r w₁ hr).imp hnoop.mp hlate.mp⟩
    · intro hlate tp w₀ hreads r w₁ hr
      obtain ⟨hnoop, hpast⟩ := hsecond tp w₀ r w₁ hreads hr
      exact (hlate tp hreads.canRead.1).2.imp hnoop.mpr hpast.mpr

/-- **What the condition says of a replay**: the record after the next one is past the timeout. -/
theorem pastAfterQuery_replays_iff {mono : Bool} {recs : List SavedTimestamp} {k : ℕ}
    (h : Replays B mono recs k w) (hmutex : w.mutexHeld = false) (hcpu : c.IsCpu = false)
    (hk : k + 1 < recs.length) (hsmall : recs.length < 2 ^ 64) :
    w.PastAfterQuery B c timeout ↔ timeout ≤ timespecFromSaved (recs.getD (k + 1) ⟨[], []⟩) := by
  -- the first query takes the record at the position, and the second one the next
  have hsecond : ∀ tp w₀ r w₁, w.Reads c tp w₀ →
      (fakeClockGettime B c tp).run seq w₀ = .ok (r, w₁) →
      r.1 = 0 ∧ ∀ t, (fakeClockGettime B c t).Runs seq w₁.tick.tick fun x _ =>
        x = (0, timespecFromSaved (recs.getD (k + 1) ⟨[], []⟩)) := by
    intro tp w₀ r w₁ hreads hr
    obtain ⟨-, n, rfl⟩ := hreads.canRead
    have h₀ : Replays B mono recs k { w with now := n } := h.later rfl rfl rfl rfl rfl h.position
    obtain ⟨_, v, hv, rfl, h₁, hmutex₁⟩ :=
      runs_query_replay (c := c) h₀ hmutex hcpu (by omega) hsmall tp
    rw [hr] at hv
    cases hv
    have h₂ : Replays B mono recs (k + 1) w₁.tick.tick := h₁.later rfl rfl rfl rfl rfl h₁.position
    exact ⟨rfl, fun t => (runs_query_replay h₂ hmutex₁ hcpu hk hsmall t).mono fun _ _ h => h.1⟩
  constructor
  · intro hpast
    obtain ⟨tp, htp⟩ := h.clocks.clock w.now c
    have hreads : w.Reads c tp w.tick := Or.inl ⟨htp, rfl⟩
    have h₀ : Replays B mono recs k w.tick := h.later rfl rfl rfl rfl rfl h.position
    obtain ⟨r, w₁, hr, -⟩ := runs_query_replay (c := c) h₀ hmutex hcpu (by omega) hsmall tp
    obtain ⟨hret, hnext⟩ := hsecond tp _ r w₁ hreads hr
    have halways := (hpast tp _ hreads r w₁ hr).resolve_left (by rw [hret]; decide)
    obtain ⟨_, v, hv, hlate⟩ := halways tp
    obtain ⟨_, v', hv', rfl⟩ := hnext tp
    rw [hv] at hv'
    cases hv'
    exact hlate.resolve_left (not_not_intro rfl)
  · intro hlate tp w₀ hreads r w₁ hr
    obtain ⟨-, hnext⟩ := hsecond tp w₀ r w₁ hreads hr
    refine Or.inr fun t => (hnext t).mono ?_
    rintro _ _ rfl
    exact Or.inr hlate

/-- **Wake-ups are kept if and only if the clock gives up or is always past the timeout.** -/
theorem keepsWakeups_iff_pastAfterQuery (hcmd : args.futexCmd = futexWaitBitset) :
    KeepsWakeups B w args timeout ↔ w.PastAfterQuery B args.clkId timeout := by
  constructor
  · intro hkeeps tp w₀ hreads r w₁ hquery
    by_cases hret : r.1 = -1
    · exact Or.inl hret
    refine Or.inr fun t => ?_
    -- the variable is looked into twice at most, and `t` is in it the second time
    have hlater : w.now < w₁.now := by
      have hfirst : w.now < w₀.now := by
        obtain ⟨-, rfl⟩ | ⟨-, rfl⟩ := hreads
        · exact Nat.lt_succ_self w.now
        · exact (Nat.lt_succ_self w.now).trans (Nat.lt_succ_self _)
      exact hfirst.trans_le (now_le_of_run hquery)
    let contents : ℕ → Timespec := fun n => if n = w.now + 1 then tp else t
    have hread : (readRealClock args.clkId).run seq (w.given (fun _ => 0) contents) =
        .ok (tp, w₀.given (fun _ => 0) contents) := run_of_reads hreads (if_pos rfl)
    obtain ⟨hrun, hmakes⟩ := run_handleFutexSyscall timeout hcmd hread hquery
    obtain ⟨_, v, hr, rfl⟩ := hkeeps.returns _ _ (hmakes ((makes_afterQuery_iff hcmd).mpr rfl))
    rw [hrun, run_afterQuery hcmd rfl, if_neg hret] at hr
    have hpast := (runs_afterFutex_iff hcmd).mp ⟨_, _, hr, rfl⟩
    have hcontents : contents w₁.tick.now = t := if_neg (by simp only [World.tick]; omega)
    rwa [hcontents] at hpast
  · intro hpast
    have hreturns : ∀ results contents,
        (handleFutexSyscall B args (some timeout)).Makes seq Wakes (w.given results contents) →
          (handleFutexSyscall B args (some timeout)).Runs watched (w.given results contents, false)
            fun r _ => r = 0 := by
      intro results contents hmakes
      have hsilent : ∀ (o : Op) (v : World), o.Waits = false → ¬ Wakes o v := by
        intro o v ho hwakes
        cases o
        case syscallFutex => cases ho
        all_goals exact hwakes
      rw [handleFutexSyscall_eq hcmd] at hmakes
      obtain ⟨tp, v, hread, hmakes⟩ := uses_readRealClock.exists_run_of_makes_bind hsilent hmakes
      obtain ⟨w₀, rfl, hreads⟩ := reads_of_run hread
      have hp := prompt_fakeClockGettime (B := B) (trivial : True) args.clkId tp
      obtain ⟨r, v, hquery, hmakes⟩ := hp.exists_run_of_makes_bind
        (fun o v ho => hsilent o v (Op.waits_of_unsettled ho.2)) hmakes
      rw [run_given hp] at hquery
      cases hr : (fakeClockGettime B args.clkId tp).run seq w₀ with
      | error x =>
        rw [hr] at hquery
        cases hquery
      | ok x =>
        rw [hr] at hquery
        cases hquery
        have hwoken := (makes_afterQuery_iff hcmd).mp hmakes
        obtain ⟨hrun, -⟩ := run_handleFutexSyscall timeout hcmd hread hr
        unfold Prog.Runs
        rw [hrun, run_afterQuery hcmd hwoken]
        split
        next => exact ⟨0, _, rfl, rfl⟩
        next hret =>
          have halways := (hpast tp w₀ hreads x.1 x.2 hr).resolve_left hret
          exact (runs_afterFutex_iff hcmd).mpr (halways _)
    refine ⟨hreturns, fun results contents contents' hm hm' => ?_⟩
    have hanswer : ∀ contents, (handleFutexSyscall B args (some timeout)).Makes seq Wakes
        (w.given results contents) → (handleFutexSyscall B args (some timeout)).answer watched
          (w.given results contents, false) = .ok 0 := fun contents hm =>
      Runs.answer_eq (Q := fun _ => True)
        ((hreturns results contents hm).mono fun _ _ h => ⟨h, trivial⟩)
    rw [hanswer contents hm, hanswer contents' hm']

theorem isCpu_clkId (args : FutexArgs) : args.clkId.IsCpu = false := by
  unfold FutexArgs.clkId
  split <;> rfl

/-- **No wake-up is lost if and only if the settings are past the timeout.** For every request and
every timeout: `handle_futex_syscall` returns zero without a further wait whenever a real call
has returned zero, whatever the real calls return and whatever is in the variable that has not
been assigned,

* under a setting in force, in any mode, with any limits and with ticks, if and only if the thread
  is faked, and the mode is `FT_NOOP` within the limits or the clock is past the timeout after one
  query, whatever it is asked about;
* during a replay, if and only if the record after the next one is past the timeout;
* and in any state if and only if `fake_clock_gettime` gives up when it is first asked, or comes
  back the second time, having given up or with a time past the timeout, whatever it is asked
  about. -/
theorem keeps_wakeups_iff (hcmd : args.futexCmd = futexWaitBitset) :
    (Standing B w → (KeepsWakeups B w args timeout ↔
      ∀ tp, w.CanRead args.clkId tp → w.LateBySettings args.clkId timeout tp)) ∧
    (∀ mono recs k, Replays B mono recs k w → w.mutexHeld = false → k + 1 < recs.length →
      recs.length < 2 ^ 64 → (KeepsWakeups B w args timeout ↔
        timeout ≤ timespecFromSaved (recs.getD (k + 1) ⟨[], []⟩))) ∧
    (KeepsWakeups B w args timeout ↔ w.PastAfterQuery B args.clkId timeout) := by
  have hkeeps : KeepsWakeups B w args timeout ↔ w.PastAfterQuery B args.clkId timeout :=
    keepsWakeups_iff_pastAfterQuery hcmd
  have hcpu := isCpu_clkId args
  refine ⟨fun hs => hkeeps.trans (pastAfterQuery_standing_iff hs hcpu), ?_, hkeeps⟩
  intro mono recs k h hmutex hk hsmall
  exact hkeeps.trans (pastAfterQuery_replays_iff h hmutex hcpu hk hsmall)

theorem standing_frozenWorld (t : Timespec) : Standing epochBuild (frozenWorld t) where
  calm := ⟨fun _ => ⟨_, rfl⟩, fun _ => rfl, fun _ => rfl, fun _ _ => ⟨_, rfl⟩⟩
  tries := by decide
  noReplay := rfl
  mutexFree := rfl
  semFree := nofun
  saves := nofun
  fixed w₁ hos _ hcore := refresh_of_unchanged (fun _ => ⟨_, rfl⟩) (fun _ => rfl) rfl rfl
    (⟨fun _ => rfl, fun _ => rfl, nofun⟩ : MonotonicFixed (frozenWorld t) none none) w₁ hos hcore

/-- A wait until `⟨90, 0⟩` on a clock that is frozen at `⟨100, 0⟩`. -/
theorem keeps_wakeups_of_frozen :
    KeepsWakeups epochBuild (frozenWorld ⟨60, 0⟩) (bitsetArgs futexClockRealtime) ⟨90, 0⟩ := by
  refine ((keeps_wakeups_iff rfl).1 (standing_frozenWorld _)).mpr fun tp _ =>
    ⟨rfl, Or.inr fun t => ?_⟩
  exact (by decide : (⟨90, 0⟩ : Timespec) ≤ ⟨100, 0⟩)

/-- The clock of a process with an offset of fifty seconds shows `⟨110, 0⟩`. A wait until `⟨100, 0⟩`
is woken at once. It returns if the time of the real clock happens to be in the variable, and not
if there are zeros in it. -/
theorem wakeup_is_lost :
    let w := calmWorld fiftyAheadEnv (fun _ _ => ⟨60, 0⟩) ⟨0, 0⟩ fiftyAhead
    let p := handleFutexSyscall plainBuild (bitsetArgs futexClockRealtime) (some ⟨100, 0⟩)
    (clockGettime plainBuild .realtime).answer seq w = .ok (0, some ⟨110, 0⟩) ∧
      (∀ t, p.Makes seq Wakes (w.given (fun _ => 0) fun _ => t)) ∧
      p.Runs watched (w.given (fun _ => 0) fun _ => ⟨60, 0⟩, false) (fun r _ => r = 0) ∧
      ¬ p.Runs watched (w.given (fun _ => 0) fun _ => ⟨0, 0⟩, false) fun r _ => r = 0 := by
  intro w p
  have hread : ∀ t : Timespec, (readRealClock (bitsetArgs futexClockRealtime).clkId).run seq
      (w.given (fun _ => 0) fun _ => t) = .ok (⟨60, 0⟩, w.tick.given (fun _ => 0) fun _ => t) :=
    fun _ => rfl
  have hquery : (fakeClockGettime plainBuild (bitsetArgs futexClockRealtime).clkId ⟨60, 0⟩).Runs seq
      w.tick fun r w₁ => r.1 ≠ -1 ∧
        (fakeClockGettime plainBuild .realtime ⟨60, 0⟩).Runs seq w₁.tick.tick (fun x _ =>
          x = (0, ⟨110, 0⟩)) ∧
        (fakeClockGettime plainBuild .realtime ⟨0, 0⟩).Runs seq w₁.tick.tick fun x _ =>
          x = (0, ⟨50, 0⟩) :=
    ⟨_, _, rfl, by decide, ⟨_, _, rfl, rfl⟩, _, _, rfl, rfl⟩
  obtain ⟨r, w₁, hr, hret, hpast, hlate⟩ := hquery
  have hrun : ∀ t : Timespec, p.run watched (w.given (fun _ => 0) fun _ => t, false) =
      (afterFutex plainBuild (bitsetArgs futexClockRealtime) ⟨100, 0⟩ 0).run watched
        (w₁.tick.given (fun _ => 0) fun _ => t, true) := by
    intro t
    rw [(run_handleFutexSyscall _ rfl (hread t) hr).1, run_afterQuery rfl rfl, if_neg hret]
  refine ⟨rfl, fun t =>
    (run_handleFutexSyscall _ rfl (hread t) hr).2 ((makes_afterQuery_iff rfl).mpr rfl), ?_, ?_⟩
  · unfold Prog.Runs
    rw [hrun]
    refine (runs_afterFutex_iff rfl).mpr (hpast.mono ?_)
    rintro _ _ rfl
    exact Or.inr (by decide)
  · unfold Prog.Runs
    rw [hrun]
    intro h
    obtain ⟨x, w₂, hx, hdone⟩ := (runs_afterFutex_iff rfl).mp h
    obtain ⟨_, w₂', hx', rfl⟩ := hlate
    cases hx.symm.trans hx'
    revert hdone
    decide

end Kept

end LibFaketime
