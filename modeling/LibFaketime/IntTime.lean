import LibFaketime.State

/-!
# Internal time retrieval

Start times and ticks: the functions that read the real clocks into the start time
of the process, pass start times through the shared block, and take a tick from it.

A lock that is interrupted is taken again by calling the function again
(`LibFaketime.nextTime`). The argument `retries` says how often the model follows
that; a theorem about every value of it is a theorem about any finite number of
interruptions.
-/

namespace LibFaketime

/-! ### Start times -/

/-- Assign one field of `ftpl_starttime` from a real clock. A clock that cannot be
read leaves the field as it is. -/
def readClock (c : ClockId) (set : Timespec → SystemTime → SystemTime) : Sys Unit := do
  match ← realClockGettime c with
  | some t => store fun s => { s with ftplStarttime := set t s.ftplStarttime }
  | none => pure ()

/-- `system_time_from_system(&ftpl_starttime)`. -/
def systemTimeFromSystem : Sys Unit := do
  readClock .realtime fun t s => { s with real := t }
  readClock .monotonic fun t s => { s with mon := t }
  readClock .monotonicRaw fun t s => { s with monRaw := t }
  readClock .boottime fun t s => { s with boot := t }

/-- `system_time_to_shared`: the fields are assigned one by one, seconds before
nanoseconds. -/
def systemTimeToShared (src : SystemTime) : Sys Unit := do
  writeShared fun d => { d with startTimeReal.tvSec := src.real.tvSec }
  writeShared fun d => { d with startTimeReal.tvNsec := src.real.tvNsec }
  writeShared fun d => { d with startTimeMon.tvSec := src.mon.tvSec }
  writeShared fun d => { d with startTimeMon.tvNsec := src.mon.tvNsec }
  writeShared fun d => { d with startTimeMonRaw.tvSec := src.monRaw.tvSec }
  writeShared fun d => { d with startTimeMonRaw.tvNsec := src.monRaw.tvNsec }
  writeShared fun d => { d with startTimeBoot.tvSec := src.boot.tvSec }
  writeShared fun d => { d with startTimeBoot.tvNsec := src.boot.tvNsec }

/-- `system_time_to_shared(&ftpl_starttime, ft_shared)`. -/
def publishStarttime : Sys Unit := do
  let s ← load
  systemTimeToShared s.ftplStarttime

/-- Set up the start time of all processes from the real clocks. -/
def setGlobalStarttime : Sys Unit := do
  systemTimeFromSystem
  publishStarttime

/-- `shared_to_system_time(ft_shared, &ftpl_starttime)`. -/
def sharedToSystemTime : Sys Unit := do
  let d ← readShared
  store fun s => { s with ftplStarttime := d.startTime }

/-- `reset_time`. An interrupted lock is a failed lock here. -/
def resetTime : Sys Unit := do
  systemTimeFromSystem
  if (← load).sharedSemInitialized then
    match ← ftSemLock with
    | .acquired =>
      publishStarttime
      unless ← ftSemUnlock do
        exit 1 "libfaketime: In reset_time(), ft_sem_unlock failed"
    | _ => exit 1 "libfaketime: In reset_time(), ft_sem_lock failed"

/-! ### Ticks -/

/-- `next_time`; `ticklen` points to a variable of the process. Without shared
memory the caller's time is left in place. -/
def nextTime : ℕ → Timespec → (Proc → Timespec) → Sys Timespec
  | 0, _, _ => stalled
  | retries + 1, tp, ticklen => do
    if (← load).sharedSemInitialized then
      match ← ftSemLock with
      | .interrupted => nextTime retries tp ticklen
      | .failed => exit 1 "libfaketime: In next_time(), ft_sem_lock failed"
      | .acquired =>
        let inc := timespecmul (ticklen (← load)) (← readShared).ticks
        let tp := timespecadd (← load).userFakedTimeTimespec inc
        writeShared fun d => { d with ticks := (d.ticks + 1) % 2 ^ 64 }
        unless ← ftSemUnlock do
          exit 1 "libfaketime: In next_time(), ft_sem_unlock failed"
        pure tp
    else pure tp

end LibFaketime
