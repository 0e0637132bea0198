import LibFaketime.IntTime

/-!
# Saving and loading time

The record and replay files: sixteen bytes a timestamp, two big-endian words
(`LibFaketime.savedTimestamp`), appended by `save_time` and handed out one by one, to
whichever process asks next, by `load_time`.
-/

namespace LibFaketime

/-! ### The storage format -/

/-- `htobe64`: the bytes of a 64-bit word, the most significant first. -/
def htobe64 (x : ℤ) : List UInt8 :=
  (List.range 8).map fun i => UInt8.ofNat ((x % 2 ^ 64).toNat / 256 ^ (7 - i))

/-- `be64toh`: the unsigned word of eight bytes. -/
def be64toh (l : List UInt8) : ℕ := l.foldl (fun n b => n * 256 + b.toNat) 0

/-- The conversion of an unsigned word to a signed one. -/
def toInt64 (n : ℕ) : ℤ := if n < 2 ^ 63 then n else (n : ℤ) - 2 ^ 64

/-- The record `save_time` writes. -/
def savedTimestamp (tp : Timespec) : SavedTimestamp := ⟨htobe64 tp.tvSec, htobe64 tp.tvNsec⟩

/-- The bytes of a record. -/
def SavedTimestamp.bytes (s : SavedTimestamp) : List UInt8 := s.sec ++ s.nsec

/-- `timespec_from_saved`. -/
def timespecFromSaved (s : SavedTimestamp) : Timespec :=
  ⟨toInt64 (be64toh s.sec), toInt64 (be64toh s.nsec)⟩

/-- `saved_timestamp_valid`. -/
def savedTimestampValid (s : SavedTimestamp) : Bool := decide (be64toh s.nsec < 1000000000)

/-- `sizeof(struct saved_timestamp)`. -/
def savedTimestampSize : ℕ := 16

/-! ### Saving -/

/-- The loop of `write_all`: the bytes left, and the interruptions since the last
progress. The first argument bounds the turns of the loop. -/
def writeAllLoop : ℕ → List UInt8 → ℕ → Sys Bool
  | 0, _, _ => stalled
  | fuel + 1, rest, interrupted =>
    if rest = [] then pure true
    else do
      match ← writeOut rest with
      | .interrupted =>
        if 1000 ≤ interrupted + 1 then pure false else writeAllLoop fuel rest (interrupted + 1)
      | .failed => pure false
      | .wrote n =>
        if n = 0 then pure false
        else if rest.length < n then pure false
        else writeAllLoop fuel (rest.drop n) 0

/-- `write_all`. Each byte costs at most a thousand turns. -/
def writeAll (bytes : List UInt8) : Sys Bool := writeAllLoop (1000 * bytes.length + 1) bytes 0

/-- The loop of `save_time` that waits for the lock. -/
def lockForSave : ℕ → Sys Unit
  | 0 => stalled
  | retries + 1 => do
    match ← ftSemLock with
    | .acquired => pure ()
    | .interrupted => lockForSave retries
    | .failed => exit 1 "libfaketime: In save_time(), ft_sem_lock failed"

/-- `save_time`. -/
def saveTime (retries : ℕ) (tp : Timespec) : Sys Unit := do
  let s ← load
  if s.sharedSemInitialized && s.outfileOpen then
    lockForSave retries
    unless ← writeAll (savedTimestamp tp).bytes do
      perror "libfaketime: In save_time(), saving timestamp to file failed"
    unless ← ftSemUnlock do
      exit 1 "libfaketime: In save_time(), ft_sem_unlock failed"

/-! ### Loading -/

/-- The start time of the rules that follow the file: the first process to get here
sets it for all of them. -/
def handOver : Sys Unit := do
  if (← readShared).ticks = 0 then
    writeShared fun d => { d with ticks := 1 }
    setGlobalStarttime
  else
    sharedToSystemTime

/-- The branch of `load_time` for a file that is used up: return to faking by rules,
from the last record of the file and from one start time for all processes. -/
def leaveReplay : Sys Unit := do
  store fun s => { s with
    userFakedTimeTimespec := timespecFromSaved (s.stss.getLastD ⟨[], []⟩) }
  handOver
  munmapStss
  store fun s => { s with infileSet := false }

/-- `load_time`: whether a record was there, and the time. -/
def loadTime : ℕ → Timespec → Sys (Bool × Timespec)
  | 0, _ => stalled
  | retries + 1, tp => do
    let s ← load
    if s.sharedSemInitialized && s.infileSet then
      let timestampCount := s.stss.length
      match ← ftSemLock with
      | .interrupted => loadTime retries tp
      | .failed => exit 1 "libfaketime: In load_time(), ft_sem_lock failed"
      | .acquired =>
        let idx := (← readShared).fileIdx
        let r ← if timestampCount ≤ idx then do
            leaveReplay
            pure (false, tp)
          else do
            let tp := timespecFromSaved ((← load).stss.getD idx ⟨[], []⟩)
            writeShared fun d => { d with fileIdx := (d.fileIdx + 1) % 2 ^ 64 }
            pure (true, tp)
        unless ← ftSemUnlock do
          exit 1 "libfaketime: In load_time(), ft_sem_unlock failed"
        pure r
    else pure (false, tp)

end LibFaketime
