import LibFaketime.Fake

/-!
# Waiting

The functions that hand a deadline to the real system: `clock_nanosleep`,
`timer_settime` and `timerfd_settime`, `sem_timedwait` and `sem_clockwait`,
`pthread_cond_timedwait`. Each of them has its own translation of a time on the faked
clock to one on the real clock, and that translation is a definition of its own here.
-/

namespace LibFaketime

/-! ### `clock_nanosleep` -/

/-- The distance of a deadline from the base, at the rate of real time. -/
def Proc.realDistance (s : Proc) (d base : Timespec) : Timespec :=
  let timeadj := timespecsub d base
  if s.userRateSet then timespecmul timeadj (1 / s.userRate) else timeadj

/-- The request of a sleep until an absolute time. -/
def sleepUntil (clockId : ClockId) (req : Timespec) : Sys Timespec := do
  let s ← load
  let tdiff := s.realDistance req s.userFakedTimeTimespec
  if clockId = .realtime then
    pure (timespecadd (← load).ftplStarttime.real tdiff)
  else if clockId = .monotonic then do
    getFakeMonotonicSetting
    let s ← load
    pure (if s.fakeMonotonicClock then timespecadd s.ftplStarttime.mon tdiff else req)
  else pure req

/-- The request of a sleep for a relative time interval. -/
def sleepFor (clockId : ClockId) (req : Timespec) : Sys Timespec := do
  let s ← load
  if s.userRateSet && !(← dontFake) && (clockId == .realtime || clockId == .monotonic) then
    pure (timespecmul req (1 / s.userRate))
  else pure req

/-- The request handed to the real function. -/
def realRequest (clockId : ClockId) (abstime : Bool) (req : Timespec) : Sys Timespec :=
  if abstime then sleepUntil clockId req else sleepFor clockId req

/-- `clock_nanosleep` on a request that is not null: its result, and the remainder
it leaves in `*rem` if that was written. -/
def clockNanosleep (clockId : ClockId) (abstime : Bool) (req : Timespec) :
    Sys (ℤ × Option Timespec) := do
  let realReq ← realRequest clockId abstime req
  let (result, rem) ← realClockNanosleep clockId abstime realReq
  if result = -1 then pure (result, rem)
  else
    match rem with
    | none => pure (result, none)
    | some rem =>
      let s ← load
      if (rem.tvSec ≠ 0 ∨ rem.tvNsec ≠ 0) ∧ s.userRateSet = true ∧ !(← dontFake) then
        pure (result, some (timespecmul rem s.userRate))
      else pure (result, some rem)

/-! ### `select` -/

/-- A timeout scaled by `c`, to the microsecond. -/
def Timeval.scale (tv : Timeval) (c : ℚ) : Timeval :=
  let ts := timespecmul ⟨tv.tvSec, tv.tvUsec * 1000⟩ c
  ⟨ts.tvSec, ts.tvNsec.tdiv 1000⟩

/-- The timeout handed to the real function. -/
def realTimeout (timeout : Timeval) : Sys Timeval := do
  let s ← load
  if s.userRateSet && !(← dontFake) &&
      (decide (0 < timeout.tvSec) || decide (0 < timeout.tvUsec)) then
    pure (timeout.scale (1 / s.userRate))
  else pure timeout

/-- `select`: its result, and the timeout it leaves to the caller. The timeout is scaled back
whenever there is a rate, and is the caller's own otherwise, whatever the real function made
of its copy. -/
def select : Option Timeval → Sys (ℤ × Option Timeval)
  | none => do
    let (ret, _) ← realSelect none
    pure (ret, none)
  | some timeout => do
    let timeoutReal ← realTimeout timeout
    let (ret, left) ← realSelect (some timeoutReal)
    let s ← load
    if s.userRateSet then pure (ret, some ((left.getD timeoutReal).scale s.userRate))
    else pure (ret, some timeout)

/-! ### Semaphores -/

/-- `sem_timedwait`. Unlike its siblings it multiplies the distance from the base by the
rate. -/
def semTimedwait (absTimeout : Timespec) : Sys ℤ := do
  if ← dontFake then realSemTimedwait absTimeout
  else
    let s ← load
    let tdiff := timespecsub absTimeout s.userFakedTimeTimespec
    let timeadj := if s.userRateSet then timespecmul tdiff s.userRate else tdiff
    realSemTimedwait (timespecadd s.ftplStarttime.real timeadj)

/-- The deadline `sem_clockwait` computes; a result to return if the clock cannot be read. On the
monotonic clock the distance is the one from now, and it is added to the start time. -/
def clockwaitDeadline (B : Build) (clockid : ClockId) (abstime : Timespec) :
    Sys (Except ℤ Timespec) := do
  if clockid = .monotonic then
    match ← realClockGettime .monotonic with
    | none => pure (.error (-1))
    | some now =>
      let (result, fakeNow) ← fakeClockGettime B .monotonic now
      if result = -1 then pure (.error (-1))
      else
        let s ← load
        pure (.ok (timespecadd s.ftplStarttime.mon (s.realDistance abstime fakeNow)))
  else
    let s ← load
    pure (.ok (timespecadd s.ftplStarttime.real (s.realDistance abstime s.userFakedTimeTimespec)))

/-- `sem_clockwait_common`. -/
def semClockwaitCommon (B : Build) (clockid : ClockId) (abstime : Option Timespec) : Sys ℤ := do
  let s ← load
  if !s.fakeMonotonicClock && clockid == .monotonic then realSemClockwait clockid abstime
  else
    match abstime with
    | none => pure (-1)
    | some abstime =>
      if clockid ≠ .realtime ∧ clockid ≠ .monotonic then realSemClockwait clockid (some abstime)
      else if ← dontFake then realSemClockwait clockid (some abstime)
      else
        match ← clockwaitDeadline B clockid abstime with
        | .error result => pure result
        | .ok deadline => realSemClockwait clockid (some deadline)

/-! ### Timers -/

/-- A time of zero disarms a timer. -/
def Timespec.isZero (t : Timespec) : Bool := t.tvSec == 0 && t.tvNsec == 0

theorem ns_of_isZero {t : Timespec} (h : t.isZero = true) : t.ns = 0 := by
  simp only [Timespec.isZero, Bool.and_eq_true, beq_iff_eq] at h
  rw [Timespec.ns_eq, h.1, h.2]
  rfl

/-- `it_value` of an absolute request, for a timer of clock `clockId`. -/
def timerAbsolute (clockId : ClockId) (value : Timespec) : Sys Timespec := do
  let s ← load
  if clockId = .monotonic ∧ s.fakeMonotonicClock = true then do
    store fun s => { s with
      userFakedTimeTimespec := normalizeTimespecValue s.userFakedTimeTimespec }
    let s ← load
    pure (timespecadd s.ftplStarttime.mon (s.realDistance value s.userFakedTimeTimespec))
  else if clockId = .monotonic then pure value
  else pure (timespecadd s.ftplStarttime.real (s.realDistance value s.userFakedTimeTimespec))

/-- `it_value` of a relative request, and every `it_interval`, by the rate alone. -/
def Proc.scaleDown (s : Proc) (t : Timespec) : Timespec :=
  if s.userRateSet then timespecmul t (1 / s.userRate) else t

/-- `it_value` of a new timer. -/
def realValue (abstime : Bool) (clockId : ClockId) (value : Timespec) : Sys Timespec :=
  if value.isZero then pure value
  else if abstime then timerAbsolute clockId value
  else do pure ((← load).scaleDown value)

/-- `it_interval` of a new timer. -/
def realInterval (interval : Timespec) : Sys Timespec := do
  let s ← load
  pure (if interval.isZero then interval else s.scaleDown interval)

/-- The setting of a timer handed to the real function; `skip` is `dont_fake`. -/
def realSetting (skip abstime : Bool) (clockId : ClockId) :
    Option Itimerspec → Sys (Option Itimerspec)
  | none => pure none
  | some v =>
    if skip then pure (some v)
    else do
      let value ← realValue abstime clockId v.itValue
      let interval ← realInterval v.itInterval
      pure (some ⟨interval, value⟩)

/-- `timer_settime_common`: its result, and what it leaves in `*old_value`. -/
def timerSettimeCommon (B : Build) (abstime : Bool) (clockId : ClockId)
    (new : Option Itimerspec) : Sys (ℤ × Option Itimerspec) := do
  let skip ← dontFake
  let newReal ← realSetting skip abstime clockId new
  let (result, old) ← realTimerSettime abstime newReal
  if result = -1 then pure (result, old)
  else
    match old with
    | none => pure (result, none)
    | some old =>
      if skip then pure (result, some old)
      else
        let (result, value) ← if old.itValue.isZero then pure (result, old.itValue)
          else fakeClockGettime B .realtime old.itValue
        let s ← load
        let interval := if s.userRateSet && !old.itInterval.isZero then
            timespecmul old.itInterval s.userRate else old.itInterval
        pure (result, some ⟨interval, value⟩)

/-- `timer_gettime_common`, through which both `timer_gettime` and `timerfd_gettime` go: its
result, and what it leaves in `*curr_value`. -/
def timerGettimeCommon : Sys (ℤ × Option Itimerspec) := do
  let (result, curr) ← realTimerGettime
  if result = -1 then pure (result, curr)
  else
    match curr with
    | none => pure (result, none)
    | some curr =>
      let s ← load
      if s.userRateSet && !(← dontFake) then
        pure (result, some ⟨timespecmul curr.itInterval s.userRate,
          timespecmul curr.itValue s.userRate⟩)
      else pure (result, some curr)

/-- `timerfd_settime` on a descriptor whose clock `timerfd_clock` reports as
`clockId`. -/
def timerfdSettime (B : Build) (abstime : Bool) (clockId : ClockId) (new : Option Itimerspec) :
    Sys (ℤ × Option Itimerspec) := timerSettimeCommon B abstime clockId new

/-- `timer_settime`, in both of its versions: the clock of the timer is not known
to the library, and `CLOCK_REALTIME` is passed. -/
def timerSettime (B : Build) (abstime : Bool) (new : Option Itimerspec) :
    Sys (ℤ × Option Itimerspec) := timerSettimeCommon B abstime .realtime new

/-! ### Condition variables -/

/-- `EINVAL`. -/
def einval : ℤ := 22

/-- `needs_forced_monotonic_fix` on Linux: forced on or off by the environment, and
on otherwise. -/
def needsForcedMonotonicFix : Sys Bool := do
  match ← getenv .faketimeForceMonotonicFix with
  | some v => pure (v.head? != some '0')
  | none => pure true

/-- The conversion of the `long` of `FAKETIME_WAIT_MS` to the `int` that holds it. -/
def toInt32 (n : ℤ) : ℤ := (n + 2 ^ 31) % 2 ^ 32 - 2 ^ 31

/-- The wait `pthread_cond_timedwait` computes, as a length of real time, and the
real reading it counts from; a result to return if a clock cannot be read. -/
def condWait (clkId : ClockId) (abstime realtime faketime : Timespec) :
    Sys (Except ℤ (Timespec × Timespec)) := do
  match ← getenv .faketimeWaitMs with
  | some v =>
    match parseLongSetting v with
    | none => exit 1 (message "libfaketime: invalid numeric value for FAKETIME_WAIT_MS: " v)
    | some n =>
      if n < 0 then exit 1 (message "libfaketime: negative value for FAKETIME_WAIT_MS: " v)
      else
        match ← realClockGettime clkId with
        | none => pure (.error einval)
        | some realtime =>
          let waitMs := toInt32 n
          pure (.ok (⟨waitMs.tdiv 1000, waitMs.tmod 1000 * 1000000⟩, realtime))
  | none =>
    let s ← load
    if !s.fakeMonotonicClock && clkId == .monotonic then
      match ← realClockGettime .monotonic with
      | none => pure (.error (-1))
      | some current => pure (.ok (s.realDistance abstime current, realtime))
    else pure (.ok (s.realDistance abstime faketime, realtime))

/-- The deadline for the real function, a wait after a reading. -/
def condDeadline (clkId : ClockId) (tdiff realtime faketime : Timespec) :
    Sys (Except ℤ Timespec) := do
  if clkId = .monotonic then
    if !(← load).fakeMonotonicClock then
      match ← realClockGettime .monotonic with
      | none => pure (.error (-1))
      | some current => pure (.ok (timespecadd current tdiff))
    else if ← needsForcedMonotonicFix then pure (.ok (timespecadd realtime tdiff))
    else pure (.ok (timespecadd faketime tdiff))
  else pure (.ok (timespecadd realtime tdiff))

/-- `pthread_cond_timedwait_common` on a condition whose clock is `clkId`, which is
`CLOCK_MONOTONIC` if the condition was initialized so and `CLOCK_REALTIME`
otherwise. -/
def pthreadCondTimedwaitCommon (B : Build) (clkId : ClockId) (abstime : Timespec) : Sys ℤ := do
  match ← realClockGettime clkId with
  | none => pure einval
  | some realtime =>
    let (_, faketime) ← fakeClockGettime B clkId realtime
    match ← condWait clkId abstime realtime faketime with
    | .error result => pure result
    | .ok (tdiff, realtime) =>
      match ← condDeadline clkId tdiff realtime faketime with
      | .error result => pure result
      | .ok deadline => realPthreadCondTimedwait (some deadline)

end LibFaketime
