import LibFaketime.Clock
import LibFaketime.Deadline
import LibFaketime.Calls

/-!
# Futexes

`handle_futex_syscall` translates the timeout of a raw futex call. The absolute timeout of
`FUTEX_WAIT_BITSET` is moved by the difference of the faked and the real time at the call, and
once the kernel says that the wait is over, the clock is asked whether it is; if it shows an
earlier time, the call is made again with what is left.

Moving a deadline by the difference at the call is right as long as the faked clock keeps pace
with the real one from then on, and is the clock the program sees. With a rate it does not keep
pace, and a monotonic clock that is not faked is not the one that was asked. A deadline that has
passed may be moved to before the epoch, and is then replaced by a time in the first second after it
(`LibFaketime.futex_deadline_follows_clock_iff`).
-/

namespace LibFaketime

/-! ### The functions -/

/-- `FUTEX_CLOCK_REALTIME`. -/
def futexClockRealtime : BitVec 32 := 256

/-- `FUTEX_CMD_MASK`: everything but `FUTEX_PRIVATE_FLAG` and `FUTEX_CLOCK_REALTIME`. -/
def futexCmdMask : BitVec 32 := ~~~(128 ||| futexClockRealtime)

/-- `FUTEX_WAIT`. -/
def futexWait : BitVec 32 := 0

/-- `FUTEX_WAIT_BITSET`. -/
def futexWaitBitset : BitVec 32 := 9

/-- `futex_op & FUTEX_CMD_MASK`. -/
def FutexArgs.futexCmd (args : FutexArgs) : BitVec 32 := args.futexOp &&& futexCmdMask

/-- The clock of the timeout. -/
def FutexArgs.clkId (args : FutexArgs) : ClockId :=
  if args.futexOp &&& futexClockRealtime ≠ 0 then .realtime else .monotonic

/-- `futex_cmd_has_timeout`: `FUTEX_WAIT`, `FUTEX_LOCK_PI`, `FUTEX_LOCK_PI2`,
`FUTEX_WAIT_BITSET` and `FUTEX_WAIT_REQUEUE_PI`. -/
def futexCmdHasTimeout (cmd : BitVec 32) : Bool :=
  cmd == futexWait || cmd == 6 || cmd == 13 || cmd == futexWaitBitset || cmd == 11

/-- A timeout without negative fields. -/
def Timespec.nonneg (t : Timespec) : Timespec :=
  ⟨if t.tvSec < 0 then 0 else t.tvSec, if t.tvNsec < 0 then 0 else t.tvNsec⟩

/-- `make_futex_syscall`. -/
def makeFutexSyscall (args : FutexArgs) (timeout : Option Timespec) : Sys ℤ :=
  if futexCmdHasTimeout args.futexCmd then syscallFutex args (timeout.map Timespec.nonneg)
  else syscallFutex args timeout

/-- A real reading into a variable that keeps what it had if the clock cannot be read. -/
def readRealClock (clkId : ClockId) : Sys Timespec := do
  match ← realClockGettime clkId with
  | some tp => pure tp
  | none => uninitialized

/-- The loop of `handle_futex_syscall` for `FUTEX_WAIT_BITSET`, the variable `now_fake` holding
`nowFake`, followed for as many rounds as the first number says. -/
def futexLoop (B : Build) (args : FutexArgs) (timeout : Timespec) : ℕ → Timespec → Sys ℤ
  | 0, _ => stalled
  | retries + 1, nowFake => do
    if timeout ≤ nowFake then pure 0
    else
      let realNow ← readRealClock args.clkId
      let (_, fakeNow) ← fakeClockGettime B args.clkId (← uninitialized)
      let s ← load
      let fakeTimeLeft := timespecsub timeout fakeNow
      let waitTime := if s.userRateSet && !(← dontFake) then
          timespecmul fakeTimeLeft (1 / s.userRate) else fakeTimeLeft
      let result ← makeFutexSyscall args (some (timespecadd realNow waitTime))
      if result ≠ 0 then pure result
      else
        let (ret, nowFake) ← fakeClockGettime B args.clkId nowFake
        if ret ≠ 0 then pure result else futexLoop B args timeout retries nowFake

/-- `handle_futex_syscall` after the first call for `FUTEX_WAIT_BITSET`. The variable that is
passed to `fake_clock_gettime` has not been assigned. -/
def afterFutex (B : Build) (args : FutexArgs) (timeout : Timespec) (result : ℤ) : Sys ℤ := do
  if result ≠ 0 then pure result
  else
    let (ret, nowFake) ← fakeClockGettime B args.clkId (← uninitialized)
    if ret ≠ 0 then pure result else futexLoop B args timeout (B.retries + 1) nowFake

/-- **`handle_futex_syscall`.** -/
def handleFutexSyscall (B : Build) (args : FutexArgs) (timeout : Option Timespec) : Sys ℤ :=
  match timeout with
  | none => makeFutexSyscall args none
  | some timeout => do
    if args.futexCmd = futexWaitBitset then
      let realTp ← readRealClock args.clkId
      let (ret, fakeTp) ← fakeClockGettime B args.clkId realTp
      if ret = -1 then makeFutexSyscall args (some timeout)
      else
        let adjusted := timespecsub timeout (timespecsub fakeTp realTp)
        let result ← makeFutexSyscall args (some adjusted)
        afterFutex B args timeout result
    else if args.futexCmd = futexWait then
      -- the clock is one of the two for which a rate counts
      let s ← load
      if s.userRateSet && !(← dontFake) then
        makeFutexSyscall args (some (timespecmul timeout (1 / s.userRate)))
      else makeFutexSyscall args (some timeout)
    else makeFutexSyscall args (some timeout)

open Effects Effects.Prog Saturate

theorem FutexArgs.clkId_eq (args : FutexArgs) :
    args.clkId = .realtime ∨ args.clkId = .monotonic := by
  unfold FutexArgs.clkId
  split
  · exact Or.inl rfl
  · exact Or.inr rfl

theorem FutexArgs.notCpu (args : FutexArgs) : args.clkId.IsCpu = false := by
  rcases args.clkId_eq with h | h <;> rw [h] <;> rfl

/-- `FUTEX_WAIT_BITSET` has a timeout. -/
theorem makeFutexSyscall_bitset {args : FutexArgs} (hcmd : args.futexCmd = futexWaitBitset)
    (t : Timespec) : makeFutexSyscall args (some t) = syscallFutex args (some t.nonneg) := by
  rw [makeFutexSyscall, hcmd, if_pos (by decide)]
  rfl

theorem Timespec.Normal.nonneg {t : Timespec} (h : t.Normal) : t.nonneg.Normal := by
  unfold Timespec.nonneg Timespec.Normal at *
  dsimp only
  split <;> omega

/-- A time before the epoch keeps its nanoseconds only. -/
theorem Timespec.Normal.ns_nonneg {t : Timespec} (h : t.Normal) :
    t.nonneg.ns = if 0 ≤ t.ns then t.ns else t.ns % 1000000000 := by
  obtain ⟨h0, h1⟩ := h
  have hnonneg : t.nonneg.ns = (if t.tvSec < 0 then 0 else t.tvSec) * 1000000000 + t.tvNsec := by
    rw [Timespec.ns_eq, Timespec.nonneg, if_neg (Int.not_lt.mpr h0)]
  have hns := Timespec.ns_eq t
  rw [hnonneg]
  split
  next hneg =>
    rw [if_neg (by omega)]
    omega
  next hpos =>
    rw [if_pos (by omega)]
    omega

/-! ### What `clock_gettime` reports -/

section Reports

variable {B : Build} {w : World} {s : Proc} {c : ClockId} {t : Timespec}

/-- What `clock_gettime` makes of a real reading. -/
def reportOf (B : Build) (c : ClockId) (tp : Timespec) : Sys (ℤ × Timespec) := do
  if (← load).fakeMonotonicClock || !c.IsMonotonic then fakeClockGettime B c tp else pure (0, tp)

/-- The clock is one that `clock_gettime` fakes. -/
def Proc.Fakes (s : Proc) (c : ClockId) : Bool := s.fakeMonotonicClock || !c.IsMonotonic

/-- What `clock_gettime` reports for a real reading in a start-at mode. -/
def Proc.report (s : Proc) (c : ClockId) (tp : Timespec) : Timespec :=
  if s.Fakes c then s.fakeTime c tp else tp

theorem runs_reportOf (hs : Serves B w) (ht : w.proc.TimesStored) (hn : t.Normal) :
    (reportOf B c t).Runs seq w fun r _ => r = (0, w.proc.report c t) := by
  refine runs_load ?_
  unfold Proc.report
  change (if w.proc.Fakes c = true then _ else _ : Sys _).Runs seq w _
  split
  · exact (runs_fakeClockGettime hs ht hn).mono fun _ _ h => h.1
  · exact runs_pure rfl

end Reports

/-! ### The deadline of the first call -/

section Deadline

variable {B : Build} {w : World} {s : Proc} {c : ClockId} {args : FutexArgs} {D now : Timespec}

/-- The deadline the kernel is handed first, the real clock showing `now`. -/
def Proc.futexDeadline (s : Proc) (c : ClockId) (now D : Timespec) : Timespec :=
  (timespecsub D (timespecsub (s.fakeTime c now) now)).nonneg

theorem hands_handleFutexSyscall (hs : Serves B w) (ht : w.proc.TimesStored)
    (hcmd : args.futexCmd = futexWaitBitset)
    (hnow : w.os w.now (.realClockGettime args.clkId) = some (some now)) (hn : now.Normal) :
    Hands (handleFutexSyscall B args (some D)) w
      (.syscallFutex args (some (w.proc.futexDeadline args.clkId now D))) := by
  have htick : Like w w.tick := ⟨rfl, rfl, rfl, rfl, rfl, rfl⟩
  have hquery := runs_silent (prompt_fakeClockGettime (trivial : True) args.clkId now)
    (runs_fakeClockGettime (hs.like htick) (ht.of_core htick.core) hn)
  have hread : (readRealClock args.clkId).Runs seq w.silent fun r w' =>
      r = now ∧ w' = w.tick.silent := by
    refine runs_realClockGettime (r := some now) ?_ (runs_pure ⟨rfl, rfl⟩)
    exact hnow
  unfold handleFutexSyscall
  dsimp only
  rw [if_pos hcmd]
  refine hread.halts_bind ?_
  rintro _ _ ⟨rfl, rfl⟩
  refine hquery.halts_bind ?_
  rintro _ _ ⟨v, rfl, rfl, -⟩
  dsimp only
  rw [if_neg (by decide), makeFutexSyscall_bitset hcmd]
  exact (halts_ask rfl rfl).bind

/-- How far from a deadline the clock may be when the wait is over. -/
def Proc.tolerance (s : Proc) : ℚ := if s.userRateSet then s.userRate + 2 else 0

/-- The time until the instant the kernel is asked to wait for: what is left until the deadline `d`,
the real clock showing `x`, unless this is before the epoch. -/
def Proc.futexPause (s : Proc) (c : ClockId) (x d : ℤ) : ℤ :=
  if 0 ≤ x + (d - s.exactTime c x) then d - s.exactTime c x
  else (x + (d - s.exactTime c x)) % 1000000000 - x

/-- Nothing saturates for the deadline `d`, the real clock showing `x`. -/
structure Proc.FutexFits (s : Proc) (c : ClockId) (x d : ℤ) : Prop where
  query : s.ClockFits c x
  ahead : Fits (s.exactTime c x - x)
  deadline : Fits (x + (d - s.exactTime c x))
  clock : s.Fakes c = true → s.ClockFits c (x + s.futexPause c x d)

/-- **The clock keeps pace.** If it is faked with a rate, it advances by the time that is left while
the real one goes on to the instant the kernel waits for; without a rate it is enough that this is
not before the epoch. If it is not faked, it shows what the faked one does. -/
def Proc.KeepsPace (s : Proc) (c : ClockId) (x d : ℤ) : Prop :=
  let elapsed := x - (s.ftplStarttime.of c).ns
  let left := d - s.exactTime c x
  let pause := s.futexPause c x d
  if s.Fakes c then
    if s.userRateSet then
      |((s.speedUp (elapsed + pause) - s.speedUp elapsed - left : ℤ) : ℚ)| ≤ s.userRate + 2
    else 0 ≤ x + left
  else |((s.exactTime c x - x + (left - pause) : ℤ) : ℚ)| ≤ s.tolerance

/-- **The deadline follows the clock**: nothing saturates, and the clock keeps pace. -/
def Proc.FollowsClock (s : Proc) (c : ClockId) (x d : ℤ) : Prop :=
  s.FutexFits c x d ∧ s.KeepsPace c x d

theorem Proc.TimesStored.normal_futexDeadline (ht : s.TimesStored) (hn : now.Normal)
    (hD : D.Normal) : (s.futexDeadline c now D).Normal := by
  have hfake : (s.fakeTime c now).Stored := (ht.normal_fakeTime hn).stored
  have hahead := normal_timespecsub hfake hn.stored
  exact (normal_timespecsub hD.stored hahead.stored).nonneg

theorem Proc.TimesStored.ns_futexDeadline (ht : s.TimesStored) (hc : c.IsCpu = false)
    (hn : now.Normal) (hD : D.Normal) (hfit : s.FutexFits c now.ns D.ns) :
    (s.futexDeadline c now D).ns = now.ns + s.futexPause c now.ns D.ns := by
  have hfake : (s.fakeTime c now).Stored := (ht.normal_fakeTime hn).stored
  have hahead : (timespecsub (s.fakeTime c now) now).ns = s.exactTime c now.ns - now.ns := by
    rw [ns_timespecsub hfake hn.stored, ht.ns_fakeTime_of_fits hc hn hfit.query, hfit.ahead.satNs]
  have hst := (normal_timespecsub hfake hn.stored).stored
  have hns : (timespecsub D (timespecsub (s.fakeTime c now) now)).ns =
      now.ns + (D.ns - s.exactTime c now.ns) := by
    rw [ns_timespecsub hD.stored hst, hahead, ← hfit.deadline.satNs]
    exact congrArg satNs (by ring)
  rw [Proc.futexDeadline, (normal_timespecsub hD.stored hst).ns_nonneg, hns, Proc.futexPause]
  split
  · rfl
  · ring

theorem Proc.futexPause_eq_iff {x d : ℤ} :
    s.futexPause c x d = d - s.exactTime c x ↔ 0 ≤ x + (d - s.exactTime c x) := by
  unfold Proc.futexPause
  split
  next h => exact iff_of_true rfl h
  next h => exact iff_of_false (by omega) h

/-- Where nothing saturates, the deadline is right if and only if the clock keeps pace. -/
theorem Proc.TimesStored.report_futexDeadline_iff (ht : s.TimesStored) (hc : c.IsCpu = false)
    (hn : now.Normal) (hD : D.Normal) (hfit : s.FutexFits c now.ns D.ns) :
    |(((s.report c (s.futexDeadline c now D)).ns - D.ns : ℤ) : ℚ)| ≤ s.tolerance ↔
      s.KeepsPace c now.ns D.ns := by
  have hR := ht.normal_futexDeadline (c := c) hn hD
  have hns := ht.ns_futexDeadline hc hn hD hfit
  unfold Proc.report Proc.KeepsPace
  dsimp only
  split
  next hfaked =>
    have hshown : (s.fakeTime c (s.futexDeadline c now D)).ns =
        s.exactTime c (now.ns + s.futexPause c now.ns D.ns) := by
      rw [ht.ns_fakeTime_of_fits hc hR (hns ▸ hfit.clock hfaked), hns]
    have hdiff : (s.fakeTime c (s.futexDeadline c now D)).ns - D.ns =
        s.speedUp (now.ns - (s.ftplStarttime.of c).ns + s.futexPause c now.ns D.ns) -
          s.speedUp (now.ns - (s.ftplStarttime.of c).ns) - (D.ns - s.exactTime c now.ns) := by
      rw [hshown, Proc.exactTime, add_sub_right_comm now.ns]
      simp only [Proc.exactTime]
      ring
    rw [hdiff, Proc.tolerance]
    cases hrate : s.userRateSet with
    | true => simp only [if_true]
    | false =>
      -- without a rate the clock advances by what the real one does
      rw [Proc.speedUp_of_not hrate, Proc.speedUp_of_not hrate, add_sub_cancel_left,
        if_neg Bool.false_ne_true, if_neg Bool.false_ne_true, ← Proc.futexPause_eq_iff]
      constructor
      · intro h
        rw [← sub_eq_zero]
        exact_mod_cast abs_nonpos_iff.mp h
      · intro h
        rw [h, sub_self]
        simp
  next =>
    have hdiff : (s.futexDeadline c now D).ns - D.ns = -(s.exactTime c now.ns - now.ns +
        (D.ns - s.exactTime c now.ns - s.futexPause c now.ns D.ns)) := by
      rw [hns]
      ring
    rw [hdiff, Int.cast_neg, abs_neg]

/-- **An absolute futex deadline follows the visible clock if the clock keeps pace**, and only then
where nothing saturates. A process serves a start-at clock, at any rate. `FUTEX_WAIT_BITSET` on
either clock, whether or not the monotonic clock is faked, hands a real deadline to the kernel
first. What `clock_gettime` reports at that deadline is the deadline that was asked for – exactly,
or up to `r + 2` nanoseconds with a rate `r` – if the visible clock keeps pace with the real one
until then and no computation saturates, and if none does, it has to keep pace. -/
theorem futex_deadline_follows_clock_iff (hs : Serves B w) (ht : w.proc.TimesStored)
    (hcmd : args.futexCmd = futexWaitBitset)
    (hnow : w.os w.now (.realClockGettime args.clkId) = some (some now)) (hn : now.Normal)
    (hD : D.Normal) :
    ∃ R, Hands (handleFutexSyscall B args (some D)) w (.syscallFutex args (some R)) ∧
      ∃ v, (∀ w', Like w w' → (reportOf B args.clkId R).Runs seq w' fun r _ => r = (0, v)) ∧
        (w.proc.FollowsClock args.clkId now.ns D.ns →
          |((v.ns - D.ns : ℤ) : ℚ)| ≤ w.proc.tolerance) ∧
        (w.proc.FutexFits args.clkId now.ns D.ns →
          |((v.ns - D.ns : ℤ) : ℚ)| ≤ w.proc.tolerance →
            w.proc.FollowsClock args.clkId now.ns D.ns) := by
  have hR := ht.normal_futexDeadline (c := args.clkId) hn hD
  refine ⟨_, hands_handleFutexSyscall hs ht hcmd hnow hn,
    w.proc.report args.clkId (w.proc.futexDeadline args.clkId now D), fun w' hw => ?_, ?_, ?_⟩
  · have hreport := runs_reportOf (c := args.clkId) (hs.like hw) (ht.of_core hw.core) hR
    rwa [hw.field Proc.report] at hreport
  · rintro ⟨hfit, hpace⟩
    exact (ht.report_futexDeadline_iff args.notCpu hn hD hfit).mpr hpace
  · intro hfit hclose
    exact ⟨hfit, (ht.report_futexDeadline_iff args.notCpu hn hD hfit).mp hclose⟩

/-- `FUTEX_WAIT_BITSET`, as the C library calls it. -/
def bitsetArgs (clock : BitVec 32) : FutexArgs :=
  ⟨4096, futexWaitBitset ||| clock, 0, 0, 4294967295⟩

/-- The realtime clock without a rate. -/
theorem futex_deadline_follows_clock_at_real_speed :
    ∃ R, Hands (handleFutexSyscall plainBuild (bitsetArgs futexClockRealtime) (some ⟨200, 0⟩))
        (calmWorld fiftyAheadEnv (fun _ _ => ⟨60, 0⟩) ⟨0, 0⟩ fiftyAhead)
        (.syscallFutex (bitsetArgs futexClockRealtime) (some R)) ∧
      ∃ v, (reportOf plainBuild .realtime R).Runs seq
          (calmWorld fiftyAheadEnv (fun _ _ => ⟨60, 0⟩) ⟨0, 0⟩ fiftyAhead) (fun r _ => r = (0, v)) ∧
        |((v.ns - (⟨200, 0⟩ : Timespec).ns : ℤ) : ℚ)| ≤ 0 := by
  have hfit : fiftyAhead.FutexFits .realtime (⟨60, 0⟩ : Timespec).ns (⟨200, 0⟩ : Timespec).ns := by
    refine ⟨⟨?_, ?_, ?_⟩, ?_, ?_, fun _ => ⟨?_, ?_, ?_⟩⟩ <;> decide +kernel
  obtain ⟨R, hR, v, hv, hclose, -⟩ := futex_deadline_follows_clock_iff (D := ⟨200, 0⟩)
    (fiftyAhead_serves fun _ _ => ⟨60, 0⟩) fiftyAhead_timesStored
    (show (bitsetArgs futexClockRealtime).futexCmd = futexWaitBitset by decide) rfl (by decide)
    (by decide)
  have hpace : fiftyAhead.KeepsPace .realtime (⟨60, 0⟩ : Timespec).ns (⟨200, 0⟩ : Timespec).ns := by
    have hfaked : fiftyAhead.Fakes .realtime = true := rfl
    have hrate : ¬ fiftyAhead.userRateSet = true := by decide
    unfold Proc.KeepsPace
    dsimp only
    rw [if_pos hfaked, if_neg hrate]
    decide +kernel
  exact ⟨R, hR, v, hv _ (.refl _), hclose ⟨hfit, hpace⟩⟩

/-- The process with the offset of fifty seconds, whose monotonic clock is not faked. -/
def realMonotonic : Proc := { fiftyAhead with fakeMonotonicClock := false }

/-- At double speed a wait on the realtime clock for `⟨200, 0⟩` is to end when the clock shows
`⟨280, 0⟩`. A wait on a monotonic clock that is not faked ends fifty seconds early. -/
theorem futex_deadline_misses_clock :
    (∃ R v, Hands (handleFutexSyscall plainBuild (bitsetArgs futexClockRealtime) (some ⟨200, 0⟩))
        (calmWorld doubleSpeedEnv (fun _ _ => ⟨60, 0⟩) ⟨0, 0⟩ doubleSpeed)
        (.syscallFutex (bitsetArgs futexClockRealtime) (some R)) ∧
      (reportOf plainBuild .realtime R).answer seq
        (calmWorld doubleSpeedEnv (fun _ _ => ⟨60, 0⟩) ⟨0, 0⟩ doubleSpeed) = .ok (0, v) ∧
      ¬ |((v.ns - (⟨200, 0⟩ : Timespec).ns : ℤ) : ℚ)| ≤ doubleSpeed.userRate + 2) ∧
    ∃ R v, Hands (handleFutexSyscall plainBuild (bitsetArgs 0) (some ⟨200, 0⟩))
        (calmWorld fiftyAheadEnv (fun _ _ => ⟨60, 0⟩) ⟨0, 0⟩ realMonotonic)
        (.syscallFutex (bitsetArgs 0) (some R)) ∧
      (reportOf plainBuild .monotonic R).answer seq
        (calmWorld fiftyAheadEnv (fun _ _ => ⟨60, 0⟩) ⟨0, 0⟩ realMonotonic) = .ok (0, v) ∧
      v ≠ ⟨200, 0⟩ := by
  refine ⟨⟨⟨140, 0⟩, ⟨280, 0⟩, ?_, ?_, ?_⟩, ⟨150, 0⟩, ⟨150, 0⟩, rfl, rfl, by decide⟩
  · have hR : doubleSpeed.futexDeadline .realtime ⟨60, 0⟩ ⟨200, 0⟩ = ⟨140, 0⟩ := by decide +kernel
    rw [← hR]
    exact hands_handleFutexSyscall (doubleSpeed_serves fun _ _ => ⟨60, 0⟩) doubleSpeed_timesStored
      rfl rfl (by decide)
  · have hv : doubleSpeed.report .realtime ⟨140, 0⟩ = ⟨280, 0⟩ := by decide +kernel
    rw [← hv]
    exact Runs.answer_eq (Q := fun _ => True)
      ((runs_reportOf (doubleSpeed_serves fun _ _ => ⟨60, 0⟩)
      doubleSpeed_timesStored (by decide)).mono fun _ _ h => ⟨h, trivial⟩)
  · norm_num [doubleSpeed, Timespec.ns_eq]

end Deadline

end LibFaketime
