import LibFaketime.TimeOps
import LibFaketime.Lib.Program

/-!
# The state of the library and what it asks of the system

The data every later file works on: the static variables of one process
(`LibFaketime.Proc`), the block of memory the processes of a run share
(`LibFaketime.FtShared`), and the calls the library makes to everything outside
itself (`LibFaketime.Op`), which are the interface its functions are programs over.

Variables are read and assigned by calls too (`LibFaketime.load`,
`LibFaketime.store`): between two statements of one thread another thread may have
assigned them. A statement of the source is one call.

Times of day are `struct timespec` values throughout, `time_t` and `long` are
64 bits wide and stand as integers, `double` and `long double` as rational numbers.
Text is a list of characters, one for each byte of the C string.
-/

namespace LibFaketime

/-- A C string, without its terminator. -/
abbrev CStr := List Char

/-- `BUFFERLEN`. -/
def bufferlen : ℕ := 256

/-! ### Clocks and modes -/

/-- The clock identifiers the library distinguishes. -/
inductive ClockId where
  | realtime
  | monotonic
  | processCputimeId
  | threadCputimeId
  | monotonicRaw
  | realtimeCoarse
  | monotonicCoarse
  | boottime
  /-- Any other identifier, such as that of `CLOCK_TAI`. -/
  | other (id : ℤ)
deriving DecidableEq, Repr

/-- The clocks that are only ever scaled. -/
def ClockId.IsCpu (c : ClockId) : Bool := c == .processCputimeId || c == .threadCputimeId

/-- The clocks `clock_gettime` leaves alone when the monotonic clock is not
faked. -/
def ClockId.IsMonotonic (c : ClockId) : Bool :=
  c == .monotonic || c == .monotonicRaw || c == .monotonicCoarse || c == .boottime

/-- `enum ft_mode_t`. -/
inductive FtMode where
  | freeze
  | startAt
  | noop
deriving DecidableEq, Repr

/-- `struct system_time_s`: one reading of every clock. -/
structure SystemTime where
  real : Timespec
  mon : Timespec
  monRaw : Timespec
  boot : Timespec
deriving DecidableEq, Repr

/-- The time of a variable nobody has assigned. -/
def Timespec.unset : Timespec := ⟨0, -1⟩

/-- The static initializer `{0, -1}` of every clock. -/
def SystemTime.unset : SystemTime := ⟨.unset, .unset, .unset, .unset⟩

/-- The start time a reading of clock `c` is compared with: `CLOCK_REALTIME` is
also the default of the switch. -/
def SystemTime.of (s : SystemTime) : ClockId → Timespec
  | .monotonic | .monotonicCoarse => s.mon
  | .monotonicRaw => s.monRaw
  | .boottime => s.boot
  | _ => s.real

/-! ### Shared memory -/

/-- `FT_SHARED_MAGIC`. -/
def ftSharedMagic : ℕ := 0x46544c42

/-- `FT_SHARED_VERSION`. -/
def ftSharedVersion : ℕ := 1

/-- `sizeof(struct ft_shared_s)`. -/
def ftSharedSize : ℕ := 88

/-- `struct ft_shared_s`. A `struct ft_shared_time_s` has the two fields of a
`struct timespec`, at a fixed width. -/
structure FtShared where
  magic : ℕ
  version : ℕ
  size : ℕ
  ticks : ℕ
  fileIdx : ℕ
  startTimeReal : Timespec
  startTimeMon : Timespec
  startTimeMonRaw : Timespec
  startTimeBoot : Timespec
deriving DecidableEq, Repr

/-- `ft_shared_time_valid`. -/
def ftSharedTimeValid (t : Timespec) : Bool :=
  t.tvNsec == -1 || (decide (0 ≤ t.tvNsec) && decide (t.tvNsec < 1000000000))

/-- `ft_shared_header_valid`. -/
def ftSharedHeaderValid (s : FtShared) : Bool :=
  s.magic == ftSharedMagic && s.version == ftSharedVersion && s.size == ftSharedSize &&
    ftSharedTimeValid s.startTimeReal && ftSharedTimeValid s.startTimeMon &&
    ftSharedTimeValid s.startTimeMonRaw && ftSharedTimeValid s.startTimeBoot

/-- The block `ft_shm_create` leaves: no tick taken, no record read, no start time
set. -/
def FtShared.created : FtShared :=
  ⟨ftSharedMagic, ftSharedVersion, ftSharedSize, 0, 0, .unset, .unset, .unset, .unset⟩

/-- The start times of the block, as `shared_to_system_time` reads them. -/
def FtShared.startTime (s : FtShared) : SystemTime :=
  ⟨s.startTimeReal, s.startTimeMon, s.startTimeMonRaw, s.startTimeBoot⟩

theorem ftSharedTimeValid_iff {t : Timespec} : ftSharedTimeValid t = true ↔ t.Stored := by
  simp only [ftSharedTimeValid, Timespec.Stored, Bool.or_eq_true, Bool.and_eq_true, beq_iff_eq,
    decide_eq_true_eq]
  omega

theorem ftSharedHeaderValid_iff {d : FtShared} : ftSharedHeaderValid d = true ↔
    (d.magic = ftSharedMagic ∧ d.version = ftSharedVersion ∧ d.size = ftSharedSize) ∧
      d.startTimeReal.Stored ∧ d.startTimeMon.Stored ∧ d.startTimeMonRaw.Stored ∧
      d.startTimeBoot.Stored := by
  simp only [ftSharedHeaderValid, Bool.and_eq_true, beq_iff_eq, ftSharedTimeValid_iff]
  tauto

/-- `struct saved_timestamp`, the eight bytes of each field as they stand in the
file. -/
structure SavedTimestamp where
  sec : List UInt8
  nsec : List UInt8
deriving DecidableEq, Repr

/-! ### The variables of a process -/

/-- The environment variables the modelled functions read. -/
inductive EnvVar where
  | faketime
  | faketimeDontReset
  | faketimeFollowFile
  | faketimeFollowAbsolute
  | faketimeXreset
  | faketimeTimestampFile
  | home
  | faketimeDontFakeMonotonic
  | dontFakeMonotonic
  | faketimeFmt
  | faketimeSkipCmds
  | faketimeOnlyCmds
  | faketimeCacheDuration
  | faketimeNoCache
  | faketimeStartAfterSeconds
  | faketimeStopAfterSeconds
  | faketimeStartAfterNumcalls
  | faketimeStopAfterNumcalls
  | faketimeSpawnTarget
  | faketimeSpawnExec
  /-- `FAKETIME_SPAWN_ARG_1`, `FAKETIME_SPAWN_ARG_2` and so on. -/
  | faketimeSpawnArg (n : ℕ)
  | faketimeSpawnSeconds
  | faketimeSpawnNumcalls
  | faketimeSaveFile
  | faketimeLoadFile
  | faketimeDisableShm
  | noFakeStat
  | faketimeForceMonotonicFix
  | faketimeWaitMs
  | fakerandomSeed
  | faketimeUpdateTimestampFile
deriving DecidableEq, Repr

/-- The static variables of the library in one process, under the source's
names. -/
structure Proc where
  ftMode : FtMode
  ftplStarttime : SystemTime
  ftplTimecache : SystemTime
  ftplFaketimecache : SystemTime
  userFakedTimeFmt : CStr
  userFakedTimeTimespec : Timespec
  userFakedTimeSet : Bool
  userFakedTimeSaved : CStr
  userOffset : Timespec
  userRate : ℚ
  userRateSet : Bool
  userPerTickInc : Timespec
  userPerTickIncSet : Bool
  userPerTickIncSetBackup : Bool
  parseConfigFile : Bool
  fakeMonotonicClock : Bool
  cacheEnabled : Bool
  cacheDuration : ℤ
  forceCacheExpiration : Bool
  lastDataFetch : ℤ
  cacheExpired : Bool
  limitedFaking : Bool
  callcounter : ℤ
  ftStartAfterSecs : ℤ
  ftStopAfterSecs : ℤ
  ftStartAfterNcalls : ℤ
  ftStopAfterNcalls : ℤ
  spawnsupport : Bool
  spawned : Bool
  ftSpawnSecs : ℤ
  ftSpawnNcalls : ℤ
  sharedSemInitialized : Bool
  /-- The records of the mapped load file, `infile_size / sizeof(stss[0])` of
  them. -/
  stss : List SavedTimestamp
  infileSet : Bool
  /-- `outfile != -1`. -/
  outfileOpen : Bool
  fakeStatDisabled : Bool

/-- The static initializers. -/
def Proc.initial : Proc where
  ftMode := .freeze
  ftplStarttime := .unset
  ftplTimecache := .unset
  ftplFaketimecache := .unset
  userFakedTimeFmt := []
  userFakedTimeTimespec := .unset
  userFakedTimeSet := false
  userFakedTimeSaved := []
  userOffset := .unset
  userRate := 1
  userRateSet := false
  userPerTickInc := .unset
  userPerTickIncSet := false
  userPerTickIncSetBackup := false
  parseConfigFile := true
  fakeMonotonicClock := true
  cacheEnabled := true
  cacheDuration := 10
  forceCacheExpiration := false
  lastDataFetch := 0
  cacheExpired := true
  limitedFaking := false
  callcounter := 0
  ftStartAfterSecs := -1
  ftStopAfterSecs := -1
  ftStartAfterNcalls := -1
  ftStopAfterNcalls := -1
  spawnsupport := false
  spawned := false
  ftSpawnSecs := -1
  ftSpawnNcalls := -1
  sharedSemInitialized := false
  stss := []
  infileSet := false
  outfileOpen := false
  fakeStatDisabled := false

/-! ### The calls to the system -/

/-- What `ft_sem_lock` can do. -/
inductive LockResult where
  | acquired
  /-- It returned `-1` with `errno = EINTR`. -/
  | interrupted
  /-- It returned `-1` for any other reason. -/
  | failed
deriving DecidableEq, Repr

/-- What `write` can do. -/
inductive WriteResult where
  | wrote (n : ℕ)
  | interrupted
  | failed
deriving DecidableEq, Repr

/-- What `read` can do; at the end of the file it reads nothing. -/
inductive ReadResult where
  | bytes (l : CStr)
  | failed
deriving DecidableEq, Repr

/-- `struct itimerspec`. -/
structure Itimerspec where
  itInterval : Timespec
  itValue : Timespec
deriving DecidableEq, Repr

/-- The arguments of a raw futex call apart from its timeout. Nothing but the operation is looked
at. -/
structure FutexArgs where
  uaddr : ℕ
  futexOp : BitVec 32
  val : ℕ
  uaddr2 : ℕ
  val3 : ℕ
deriving DecidableEq, Repr

/-- The functions that wait for a number of milliseconds. -/
inductive PollCall where
  | poll
  | epollWait
  | epollPwait
deriving DecidableEq, Repr

/-- **The calls of the library to everything outside a statement**: its own
variables, the shared block and the two locks, and the system. -/
inductive Op where
  /-- Read the static variables. -/
  | load
  /-- Assign static variables. -/
  | store (f : Proc → Proc)
  /-- Read the thread-local `dont_fake`. -/
  | dontFake
  /-- Assign the thread-local `dont_fake`. -/
  | setDontFake (b : Bool)
  /-- `ft_sem_lock(&shared_sem)`. -/
  | ftSemLock
  /-- `ft_sem_unlock(&shared_sem)`; `false` is a return value of `-1`. -/
  | ftSemUnlock
  /-- `pthread_mutex_lock(&time_mutex)`. -/
  | timeMutexLock
  /-- `pthread_mutex_unlock(&time_mutex)`. -/
  | timeMutexUnlock
  /-- Read the shared block. -/
  | readShared
  /-- Assign to the shared block. -/
  | writeShared (f : FtShared → FtShared)
  | getenv (v : EnvVar)
  /-- The real `clock_gettime`; `none` is a return value of `-1`. -/
  | realClockGettime (c : ClockId)
  | realGettimeofday
  /-- The real `ftime`; `false` is a return value of `-1`. -/
  | realFtime
  /-- The real `timespec_get`: its result and the time, or nothing if it returned `0`. -/
  | realTimespecGet (base : ℤ)
  /-- The modification time of a file, by the real `stat`. -/
  | realStat (path : CStr)
  | openRead (path : CStr)
  /-- Open the save file for appending; `false` is a failure. -/
  | openSave (path : CStr)
  /-- Open, inspect and map the load file: its bytes. -/
  | mapLoad (path : CStr)
  /-- `ft_shm_init`: whether the process is attached to a shared block. -/
  | ftShmInit
  | read (fd : ℕ) (count : ℕ)
  | close (fd : ℕ)
  /-- `write` to the save file. -/
  | write (bytes : List UInt8)
  /-- `munmap(stss, infile_size)`. -/
  | munmapStss
  /-- Run the external command of the spawn settings. -/
  | spawn
  /-- The real `clock_nanosleep`: its result, and the remainder it wrote. -/
  | realClockNanosleep (c : ClockId) (abstime : Bool) (req : Timespec)
  /-- The real `timer_settime` or `timerfd_settime`: its result and the old value. -/
  | realTimerSettime (abstime : Bool) (new : Option Itimerspec)
  | realPthreadCondTimedwait (abstime : Option Timespec)
  /-- The real `select`: its result, and what it leaves in the timeout. -/
  | realSelect (timeout : Option Timeval)
  | realSemTimedwait (abstime : Timespec)
  /-- The real `sem_clockwait`; the time may be a null pointer. -/
  | realSemClockwait (c : ClockId) (abstime : Option Timespec)
  /-- The real `timer_gettime` or `timerfd_gettime`: its result and the value. -/
  | realTimerGettime
  /-- The system call `futex`; the timeout may be a null pointer. -/
  | syscallFutex (args : FutexArgs) (timeout : Option Timespec)
  /-- Read a variable that has not been assigned. -/
  | uninitialized
  /-- The system call `clock_gettime`; `none` is a return value of `-1`. -/
  | syscallClockGettime (c : ClockId)
  /-- The system call `clock_nanosleep`: its result, and the remainder it wrote. -/
  | syscallClockNanosleep (c : ClockId) (abstime : Bool) (req : Timespec)
  /-- `setenv` with its overwriting flag set; `false` is a return value of `-1`. -/
  | setenv (v : EnvVar) (value : CStr)
  /-- `fopen(path, "wt")`; `false` is a null pointer. -/
  | fopenWrite (path : CStr)
  /-- `fprintf` to the file that is open for writing; `false` is a negative result. -/
  | fprintf (text : CStr)
  /-- `fclose` of that file; `false` is a result other than `0`. -/
  | fclose
  /-- The real `nanosleep`: its result, and the remainder it wrote. -/
  | realNanosleep (req : Timespec)
  | realSleep (seconds : ℕ)
  /-- The real `poll`, `epoll_wait` or `epoll_pwait`. -/
  | realPoll (call : PollCall) (timeout : ℤ)
  /-- The real `ppoll`; the timeout may be a null pointer. -/
  | realPpoll (timeout : Option Timespec)
  /-- The real `pselect`; the timeout may be a null pointer. -/
  | realPselect (timeout : Option Timespec)
  /-- The real `getrandom`: its result, and the bytes it wrote. -/
  | realGetrandom (buflen flags : ℕ)
  /-- The real `getentropy`: its result, and the bytes it wrote. -/
  | realGetentropy (length : ℕ)
  /-- Print a message and go on. -/
  | perror (msg : String)
  /-- Print a message and terminate the process. -/
  | exit (code : ℤ) (msg : String)
  /-- A lock was interrupted more often than the model follows. -/
  | stalled

/-- The answer to a call. -/
@[reducible] def Op.Ans : Op → Type
  | .load => Proc
  | .dontFake => Bool
  | .ftSemLock => LockResult
  | .ftSemUnlock => Bool
  | .readShared => FtShared
  | .getenv _ => Option CStr
  | .realClockGettime _ => Option Timespec
  | .realGettimeofday => Option Timeval
  | .realFtime => Bool
  | .realTimespecGet _ => Option (ℤ × Timespec)
  | .realStat _ => Option Timespec
  | .openRead _ => Option ℕ
  | .openSave _ => Bool
  | .mapLoad _ => Option (List UInt8)
  | .ftShmInit => Bool
  | .read _ _ => ReadResult
  | .close _ => Bool
  | .write _ => WriteResult
  | .realClockNanosleep _ _ _ => ℤ × Option Timespec
  | .realTimerSettime _ _ => ℤ × Option Itimerspec
  | .realPthreadCondTimedwait _ => ℤ
  | .realSelect _ => ℤ × Option Timeval
  | .realSemTimedwait _ => ℤ
  | .realSemClockwait _ _ => ℤ
  | .realTimerGettime => ℤ × Option Itimerspec
  | .syscallFutex _ _ => ℤ
  | .uninitialized => Timespec
  | .syscallClockGettime _ => Option Timespec
  | .syscallClockNanosleep _ _ _ => ℤ × Option Timespec
  | .setenv _ _ => Bool
  | .fopenWrite _ => Bool
  | .fprintf _ => Bool
  | .fclose => Bool
  | .realNanosleep _ => ℤ × Option Timespec
  | .realSleep _ => ℕ
  | .realPoll _ _ => ℤ
  | .realPpoll _ => ℤ
  | .realPselect _ => ℤ
  | .realGetrandom _ _ => ℤ × List UInt8
  | .realGetentropy _ => ℤ × List UInt8
  | .exit _ _ => Empty
  | .stalled => Empty
  | _ => Unit

/-- The interface of the library. -/
abbrev sys : Effects.Interface := ⟨Op, Op.Ans⟩

/-- A function of the library, as a program over its calls. -/
abbrev Sys (α : Type) := Effects.Prog sys α

open Effects.Prog (perform)

/-- Read the static variables. -/
def load : Sys Proc := perform (I := sys) .load

/-- Assign static variables. -/
def store (f : Proc → Proc) : Sys Unit := perform (I := sys) (.store f)

/-- Read `dont_fake`. -/
def dontFake : Sys Bool := perform (I := sys) .dontFake

/-- Assign `dont_fake`. -/
def setDontFake (b : Bool) : Sys Unit := perform (I := sys) (.setDontFake b)

/-- `ft_sem_lock(&shared_sem)`. -/
def ftSemLock : Sys LockResult := perform (I := sys) .ftSemLock

/-- `ft_sem_unlock(&shared_sem)`. -/
def ftSemUnlock : Sys Bool := perform (I := sys) .ftSemUnlock

/-- `pthread_mutex_lock(&time_mutex)`. -/
def timeMutexLock : Sys Unit := perform (I := sys) .timeMutexLock

/-- `pthread_mutex_unlock(&time_mutex)`. -/
def timeMutexUnlock : Sys Unit := perform (I := sys) .timeMutexUnlock

/-- Read the shared block. -/
def readShared : Sys FtShared := perform (I := sys) .readShared

/-- Assign to the shared block. -/
def writeShared (f : FtShared → FtShared) : Sys Unit := perform (I := sys) (.writeShared f)

/-- `getenv`. -/
def getenv (v : EnvVar) : Sys (Option CStr) := perform (I := sys) (.getenv v)

/-- The real `clock_gettime`. -/
def realClockGettime (c : ClockId) : Sys (Option Timespec) :=
  perform (I := sys) (.realClockGettime c)

/-- The real `gettimeofday`. -/
def realGettimeofday : Sys (Option Timeval) := perform (I := sys) .realGettimeofday

/-- The real `ftime`. -/
def realFtime : Sys Bool := perform (I := sys) .realFtime

/-- The real `timespec_get`. -/
def realTimespecGet (base : ℤ) : Sys (Option (ℤ × Timespec)) :=
  perform (I := sys) (.realTimespecGet base)

/-- The modification time of a file. -/
def realStat (path : CStr) : Sys (Option Timespec) := perform (I := sys) (.realStat path)

/-- `open(path, O_RDONLY | O_CLOEXEC)`. -/
def openRead (path : CStr) : Sys (Option ℕ) := perform (I := sys) (.openRead path)

/-- Open the save file. -/
def openSave (path : CStr) : Sys Bool := perform (I := sys) (.openSave path)

/-- Open and map the load file. -/
def mapLoad (path : CStr) : Sys (Option (List UInt8)) := perform (I := sys) (.mapLoad path)

/-- `ft_shm_init`. -/
def ftShmInit : Sys Bool := perform (I := sys) .ftShmInit

/-- `read`. -/
def readFd (fd count : ℕ) : Sys ReadResult := perform (I := sys) (.read fd count)

/-- `close`. -/
def closeFd (fd : ℕ) : Sys Bool := perform (I := sys) (.close fd)

/-- `write` to the save file. -/
def writeOut (bytes : List UInt8) : Sys WriteResult := perform (I := sys) (.write bytes)

/-- `munmap(stss, infile_size)`. -/
def munmapStss : Sys Unit := perform (I := sys) .munmapStss

/-- Run the external command. -/
def spawn : Sys Unit := perform (I := sys) .spawn

/-- The real `clock_nanosleep`. -/
def realClockNanosleep (c : ClockId) (abstime : Bool) (req : Timespec) :
    Sys (ℤ × Option Timespec) := perform (I := sys) (.realClockNanosleep c abstime req)

/-- The real `timer_settime` or `timerfd_settime`. -/
def realTimerSettime (abstime : Bool) (new : Option Itimerspec) : Sys (ℤ × Option Itimerspec) :=
  perform (I := sys) (.realTimerSettime abstime new)

/-- The real `pthread_cond_timedwait`. -/
def realPthreadCondTimedwait (abstime : Option Timespec) : Sys ℤ :=
  perform (I := sys) (.realPthreadCondTimedwait abstime)

/-- The real `select`. -/
def realSelect (timeout : Option Timeval) : Sys (ℤ × Option Timeval) :=
  perform (I := sys) (.realSelect timeout)

/-- The real `sem_timedwait`. -/
def realSemTimedwait (abstime : Timespec) : Sys ℤ := perform (I := sys) (.realSemTimedwait abstime)

/-- The real `sem_clockwait`. -/
def realSemClockwait (c : ClockId) (abstime : Option Timespec) : Sys ℤ :=
  perform (I := sys) (.realSemClockwait c abstime)

/-- The real `timer_gettime` or `timerfd_gettime`. -/
def realTimerGettime : Sys (ℤ × Option Itimerspec) := perform (I := sys) .realTimerGettime

/-- `real_syscall(__NR_futex, …)`. -/
def syscallFutex (args : FutexArgs) (timeout : Option Timespec) : Sys ℤ :=
  perform (I := sys) (.syscallFutex args timeout)

/-- Whatever is in a variable that has not been assigned. -/
def uninitialized : Sys Timespec := perform (I := sys) .uninitialized

/-- `real_syscall(__NR_clock_gettime, …)`. -/
def syscallClockGettime (c : ClockId) : Sys (Option Timespec) :=
  perform (I := sys) (.syscallClockGettime c)

/-- `real_syscall(__NR_clock_nanosleep, …)`. -/
def syscallClockNanosleep (c : ClockId) (abstime : Bool) (req : Timespec) :
    Sys (ℤ × Option Timespec) := perform (I := sys) (.syscallClockNanosleep c abstime req)

/-- `setenv`. -/
def setenv (v : EnvVar) (value : CStr) : Sys Bool := perform (I := sys) (.setenv v value)

/-- `fopen(path, "wt")`. -/
def fopenWrite (path : CStr) : Sys Bool := perform (I := sys) (.fopenWrite path)

/-- `fprintf` to the file that is open for writing. -/
def fprintf (text : CStr) : Sys Bool := perform (I := sys) (.fprintf text)

/-- `fclose` of the file that is open for writing. -/
def fclose : Sys Bool := perform (I := sys) .fclose

/-- The real `nanosleep`. -/
def realNanosleep (req : Timespec) : Sys (ℤ × Option Timespec) :=
  perform (I := sys) (.realNanosleep req)

/-- The real `sleep`. -/
def realSleep (seconds : ℕ) : Sys ℕ := perform (I := sys) (.realSleep seconds)

/-- The real `poll`, `epoll_wait` or `epoll_pwait`. -/
def realPoll (call : PollCall) (timeout : ℤ) : Sys ℤ := perform (I := sys) (.realPoll call timeout)

/-- The real `ppoll`. -/
def realPpoll (timeout : Option Timespec) : Sys ℤ := perform (I := sys) (.realPpoll timeout)

/-- The real `pselect`. -/
def realPselect (timeout : Option Timespec) : Sys ℤ := perform (I := sys) (.realPselect timeout)

/-- The real `getrandom`. -/
def realGetrandom (buflen flags : ℕ) : Sys (ℤ × List UInt8) :=
  perform (I := sys) (.realGetrandom buflen flags)

/-- The real `getentropy`. -/
def realGetentropy (length : ℕ) : Sys (ℤ × List UInt8) :=
  perform (I := sys) (.realGetentropy length)

/-- Print a message and go on. -/
def perror (msg : String) : Sys Unit := perform (I := sys) (.perror msg)

/-- Print a message and terminate the process. -/
def exit {α : Type} (code : ℤ) (msg : String) : Sys α :=
  Effects.Prog.op (I := sys) (.exit code msg) fun e => nomatch (show Empty from e)

/-- Stop following a lock that keeps being interrupted. -/
def stalled {α : Type} : Sys α :=
  Effects.Prog.op (I := sys) .stalled fun e => nomatch (show Empty from e)

end LibFaketime
