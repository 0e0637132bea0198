import LibFaketime.Fake

/-!
# File timestamps

The functions behind the `stat` family. The times of a file are converted like
readings of `CLOCK_REALTIME`, three or four of them in one critical section, with the
tick modifier switched off while it lasts.
-/

namespace LibFaketime

/-- `lock_for_stat`. -/
def lockForStat : ℕ → Sys Unit
  | 0 => stalled
  | retries + 1 => do
    let switchOff : Sys Unit := do
      store fun s => { s with userPerTickIncSetBackup := s.userPerTickIncSet }
      store fun s => { s with userPerTickIncSet := false }
    if (← load).sharedSemInitialized then
      match ← ftSemLock with
      | .interrupted => lockForStat retries
      | .failed => exit 1 "libfaketime: In lock_for_stat(), ft_sem_lock failed"
      | .acquired => switchOff
    else switchOff

/-- `unlock_for_stat`. -/
def unlockForStat : Sys Unit := do
  store fun s => { s with userPerTickIncSet := s.userPerTickIncSetBackup }
  if (← load).sharedSemInitialized then
    unless ← ftSemUnlock do
      exit 1 "libfaketime: In unlock_for_stat(), ft_sem_unlock failed"

/-- The times of `struct stat`. -/
structure Stat where
  stCtim : Timespec
  stAtim : Timespec
  stMtim : Timespec
deriving DecidableEq, Repr

/-- Convert one timestamp of a file; the result of the conversion is ignored. -/
def fakeTimestamp (B : Build) (t : Timespec) : Sys Timespec := do
  let (_, t) ← fakeClockGettime B .realtime t
  pure t

/-- `fake_statbuf`, and `fake_stat64buf`. -/
def fakeStatbuf (B : Build) (buf : Stat) : Sys Stat := do
  lockForStat B.retries
  let c ← fakeTimestamp B buf.stCtim
  let a ← fakeTimestamp B buf.stAtim
  let m ← fakeTimestamp B buf.stMtim
  unlockForStat
  pure ⟨c, a, m⟩

/-- The times of `struct statx`, those that are present. -/
structure Statx where
  stxAtime : Option Timespec
  stxCtime : Option Timespec
  stxMtime : Option Timespec
  stxBtime : Option Timespec
deriving DecidableEq, Repr

/-- `fake_statx_timestamp`, if the mask has the field. -/
def fakeStatxTimestamp (B : Build) : Option Timespec → Sys (Option Timespec)
  | none => pure none
  | some t => do
    let t ← fakeTimestamp B t
    pure (some t)

/-- `fake_statxbuf`. -/
def fakeStatxbuf (B : Build) (buf : Statx) : Sys Statx := do
  lockForStat B.retries
  let a ← fakeStatxTimestamp B buf.stxAtime
  let c ← fakeStatxTimestamp B buf.stxCtime
  let m ← fakeStatxTimestamp B buf.stxMtime
  let b ← fakeStatxTimestamp B buf.stxBtime
  unlockForStat
  pure ⟨a, c, m, b⟩

/-- `STAT_HANDLER_COMMON`, once the real function has filled the buffer. -/
def statHandlerCommon {β : Type} (fake : β → Sys β) (buf : β) : Sys β := do
  if (← load).fakeStatDisabled then pure buf
  else if ← dontFake then pure buf
  else fake buf

end LibFaketime
