import LibFaketime.Save
import LibFaketime.Config

/-!
# The faked clock

`fake_clock_gettime`, through which every time the library reports goes: the real
reading of a clock is passed in and the faked one comes back. The stages of the
function are definitions of their own, in its order –

* limits and the external command (`LibFaketime.limitsAndSpawn`),
* the refresh of the configuration (`LibFaketime.refreshConfig`),
* replay (`LibFaketime.fakeLocked`),
* the switch on the mode (`LibFaketime.fakeByMode`),
* the save file and the caches (`LibFaketime.fakeClockGettime`)

– and below them are the functions a program calls to ask for the time.
-/

namespace LibFaketime

/-! ### Limits -/

/-- `LONG_MAX`. -/
def longMax : ℤ := 2 ^ 63 - 1

/-- Calls are counted for the limits on their number. -/
def Proc.countsCalls (s : Proc) : Bool :=
  (s.limitedFaking && (s.ftStartAfterNcalls != -1 || s.ftStopAfterNcalls != -1)) ||
    (s.spawnsupport && s.ftSpawnNcalls != 0)

/-- The limits say that the time is not to be faked, `elapsed` seconds after the
start. -/
def Proc.outsideLimits (s : Proc) (elapsed : ℤ) : Bool :=
  (s.ftStartAfterSecs != -1 && decide (elapsed < s.ftStartAfterSecs)) ||
    (s.ftStopAfterSecs != -1 && decide (s.ftStopAfterSecs ≤ elapsed)) ||
    (s.ftStartAfterNcalls != -1 && decide (s.callcounter < s.ftStartAfterNcalls)) ||
    (s.ftStopAfterNcalls != -1 && decide (s.ftStopAfterNcalls ≤ s.callcounter))

/-- It is time for the external command. -/
def Proc.spawnsNow (s : Proc) (elapsed : ℤ) : Bool :=
  s.spawnsupport && !s.spawned &&
    ((decide (-1 < s.ftSpawnSecs) && decide (s.ftSpawnSecs ≤ elapsed)) ||
      s.callcounter == s.ftSpawnNcalls)

/-- Count the call, if calls are counted. -/
def countCall : Sys Unit := do
  if (← load).countsCalls then
    store fun s => { s with
      callcounter := if s.callcounter < longMax then s.callcounter + 1 else s.callcounter }

/-- The limits, and the external command; `true` if the real time is to be
reported. -/
def limitsAndSpawn (clkId : ClockId) (tp : Timespec) : Sys Bool := do
  countCall
  let s ← load
  if s.limitedFaking || s.spawnsupport then
    let elapsed := (timespecsub tp (s.ftplStarttime.of clkId)).tvSec
    if s.limitedFaking && s.outsideLimits elapsed then pure true
    else
      if s.spawnsNow elapsed then
        store fun s => { s with spawned := true }
        spawn
      pure false
  else pure false

/-! ### The refresh of the configuration -/

/-- The tests that decide whether the cached configuration has expired at the real
time `now`. -/
def Proc.expireCache (now : ℤ) (s : Proc) : Proc :=
  let s := if 0 < s.lastDataFetch then
      { s with cacheExpired := decide (s.cacheDuration < now - s.lastDataFetch) } else s
  let s := if s.cacheEnabled then s else { s with cacheExpired := true }
  if s.forceCacheExpiration then { s with cacheExpired := true, forceCacheExpiration := false }
  else s

/-- Expiring touches two flags at most. -/
theorem Proc.exists_expireCache (now : ℤ) (s : Proc) : ∃ expired force,
    Proc.expireCache now s = { s with cacheExpired := expired, forceCacheExpiration := force } := by
  unfold Proc.expireCache
  dsimp only
  split <;> split <;> split <;> exact ⟨_, _, rfl⟩

/-- The setting a refresh starts from: the environment variable, or no offset. -/
def defaultSetting (env : Option CStr) : CStr :=
  match env with
  | some v => v.take (bufferlen - 1)
  | none => "+0".toList

/-- Read the configuration again if the cache has expired. -/
def refreshConfig (B : Build) : Sys Unit := do
  let now := ((← realClockGettime .realtime).getD .unset).tvSec
  store (Proc.expireCache now)
  if (← load).cacheExpired then
    let userFakedTime := defaultSetting (← getenv .faketime)
    store fun s => { s with lastDataFetch := now }
    if (← load).parseConfigFile then
      if (← readConfigFile B) = 0 then parseFtString B userFakedTime
    else parseFtString B userFakedTime
    getFakeMonotonicSetting

/-! ### The switch on the mode -/

/-- The clock of `FT_START_AT`: the base, plus the time since the start time of the
clock, at the rate of the user. -/
def Proc.startAt (s : Proc) (clkId : ClockId) (tp : Timespec) : Timespec :=
  let tdiff := timespecsub tp (s.ftplStarttime.of clkId)
  let timeadj := if s.userRateSet then timespecmul tdiff s.userRate else tdiff
  timespecadd s.userFakedTimeTimespec timeadj

/-- How the locked part of `fake_clock_gettime` ends. -/
inductive Outcome where
  /-- `goto abort` with a value to return. -/
  | abort (ret : ℤ) (tp : Timespec)
  /-- The time has been faked by the rules of the mode. -/
  | faked (tp : Timespec)
deriving DecidableEq, Repr

/-- The time in an outcome. -/
def Outcome.tp : Outcome → Timespec
  | .abort _ tp => tp
  | .faked tp => tp

/-- The switch on `ft_mode`. -/
def fakeByMode (B : Build) (clkId : ClockId) (tp : Timespec) : Sys Outcome := do
  let s ← load
  match s.ftMode with
  | .freeze => pure (.faked (if s.userFakedTimeSet then s.userFakedTimeTimespec else tp))
  | .startAt =>
    if s.userPerTickIncSet then do
      let tp ← nextTime B.retries tp (·.userPerTickInc)
      pure (.faked tp)
    else pure (.faked (s.startAt clkId tp))
  | .noop => pure (.abort (-1) tp)

/-- What `fake_clock_gettime` does while it holds `time_mutex`. -/
def fakeLocked (B : Build) (clkId : ClockId) (tp : Timespec) : Sys Outcome := do
  if ← limitsAndSpawn clkId tp then pure (.abort 0 tp)
  else
    refreshConfig B
    if (← load).infileSet then
      let (loaded, tp) ← loadTime B.retries tp
      if loaded then pure (.abort 0 tp) else fakeByMode B clkId tp
    else fakeByMode B clkId tp

/-! ### The whole function -/

/-- Remember the last real and faked time of a clock. -/
def Proc.cacheTimes (clkId : ClockId) (real fake : Timespec) (s : Proc) : Proc :=
  match clkId with
  | .realtime => { s with ftplTimecache.real := real, ftplFaketimecache.real := fake }
  | .monotonic => { s with ftplTimecache.mon := real, ftplFaketimecache.mon := fake }
  | .monotonicRaw => { s with ftplTimecache.monRaw := real, ftplFaketimecache.monRaw := fake }
  | .boottime => { s with ftplTimecache.boot := real, ftplFaketimecache.boot := fake }
  | _ => s

/-- Keeping the times touches the caches at most. -/
theorem Proc.exists_cacheTimes (clkId : ClockId) (real fake : Timespec) (s : Proc) :
    ∃ reals fakes, Proc.cacheTimes clkId real fake s =
      { s with ftplTimecache := reals, ftplFaketimecache := fakes } := by
  unfold Proc.cacheTimes
  split <;> exact ⟨_, _, rfl⟩

/-- **`fake_clock_gettime`**: its result, and the time it leaves in `*tp`. -/
def fakeClockGettime (B : Build) (clkId : ClockId) (tp : Timespec) : Sys (ℤ × Timespec) := do
  if ← dontFake then pure (0, tp)
  else if clkId.IsCpu then
    -- per process timers are only sped up or slowed down
    let s ← load
    pure (0, if s.userRateSet then timespecmul tp s.userRate else tp)
  else
    if B.pthreadSinglethreadedTime then timeMutexLock
    let out ← fakeLocked B clkId tp
    if B.pthreadSinglethreadedTime then timeMutexUnlock
    match out with
    | .abort ret tp' => pure (ret, tp')
    | .faked tp' =>
      let tp' := normalizeTimespecValue tp'
      saveTime B.retries tp'
      store (Proc.cacheTimes clkId tp tp')
      pure (0, tp')

/-- The end of `fake_clock_gettime`, after its locked part. -/
def finishQuery (B : Build) (c : ClockId) (tp : Timespec) : Outcome → Sys (ℤ × Timespec)
  | .abort result tp' => pure (result, tp')
  | .faked tp' => do
    saveTime B.retries (normalizeTimespecValue tp')
    store (Proc.cacheTimes c tp (normalizeTimespecValue tp'))
    pure (0, normalizeTimespecValue tp')

/-- `fake_gettimeofday`. -/
def fakeGettimeofday (B : Build) (tv : Timeval) : Sys (ℤ × Timeval) := do
  let s ← load
  let ts : Timespec := ⟨tv.tvSec, tv.tvUsec * 1000 + s.ftplStarttime.real.tvNsec.tmod 1000⟩
  let (ret, ts) ← fakeClockGettime B .realtime ts
  pure (ret, ⟨ts.tvSec, ts.tvNsec.tdiv 1000⟩)

/-! ### The functions a program calls -/

/-- `time`. -/
def time (B : Build) : Sys ℤ := do
  match ← realClockGettime .realtime with
  | none => pure (-1)
  | some tp =>
    let (_, tp) ← fakeClockGettime B .realtime tp
    pure tp.tvSec

/-- `ftime`: its result, and the seconds and milliseconds it leaves in `*tb`. -/
def ftime (B : Build) : Sys (ℤ × Option (ℤ × ℤ)) := do
  if !(← realFtime) then pure (-1, none)
  else
    match ← realClockGettime .realtime with
    | none => pure (-1, none)
    | some tp =>
      let (_, tp) ← fakeClockGettime B .realtime tp
      pure (0, some (tp.tvSec, tp.tvNsec.tdiv 1000000))

/-- `gettimeofday`. -/
def gettimeofday (B : Build) : Sys (ℤ × Option Timeval) := do
  match ← realGettimeofday with
  | none => pure (-1, none)
  | some tv =>
    let (ret, tv) ← fakeGettimeofday B tv
    pure (ret, some tv)

/-- `timespec_get`: its result, and the time it leaves in `*ts`. -/
def timespecGet (B : Build) (base : ℤ) : Sys (ℤ × Option Timespec) := do
  match ← realTimespecGet base with
  | none => pure (0, none)
  | some (result, ts) =>
    let (_, ts) ← fakeClockGettime B .realtime ts
    pure (result, some ts)

/-- `clock_gettime`. -/
def clockGettime (B : Build) (clkId : ClockId) : Sys (ℤ × Option Timespec) := do
  match ← realClockGettime clkId with
  | none => pure (-1, none)
  | some tp =>
    if (← load).fakeMonotonicClock || !clkId.IsMonotonic then
      let (ret, tp) ← fakeClockGettime B clkId tp
      pure (ret, some tp)
    else pure (0, some tp)

end LibFaketime
