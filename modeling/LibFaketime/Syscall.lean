import LibFaketime.Sleep

/-!
# Raw system calls

The two requests the intercepted `syscall` answers itself, those for `clock_gettime` and
`clock_nanosleep`. It does so if one of two environment variables is set, whatever the
configuration of the process is; otherwise the call goes to the kernel as it is.
-/

namespace LibFaketime

/-- `getenv("FAKETIME") || getenv("FAKETIME_TIMESTAMP_FILE")`. -/
def interceptsSyscall : Sys Bool := do
  if (← getenv .faketime).isSome then pure true
  else pure (← getenv .faketimeTimestampFile).isSome

/-- `syscall(__NR_clock_gettime, clk_id, tp)`. -/
def syscallGettime (B : Build) (clkId : ClockId) : Sys (ℤ × Option Timespec) := do
  if ← interceptsSyscall then clockGettime B clkId
  else
    match ← syscallClockGettime clkId with
    | none => pure (-1, none)
    | some tp => pure (0, some tp)

/-- `syscall(__NR_clock_nanosleep, clk_id, flags, req, rem)` on a request that is not null.
The remainder is only touched after a result of zero. -/
def syscallNanosleep (clkId : ClockId) (abstime : Bool) (req : Timespec) :
    Sys (ℤ × Option Timespec) := do
  if ← interceptsSyscall then
    let realReq ← realRequest clkId abstime req
    let (rc, rem) ← syscallClockNanosleep clkId abstime realReq
    if rc ≠ 0 then pure (rc, rem)
    else
      match rem with
      | none => pure (rc, none)
      | some rem =>
        let s ← load
        if (rem.tvSec ≠ 0 ∨ rem.tvNsec ≠ 0) ∧ s.userRateSet = true ∧ !(← dontFake) then
          pure (rc, some (timespecmul rem s.userRate))
        else pure (rc, some rem)
  else syscallClockNanosleep clkId abstime req

end LibFaketime
