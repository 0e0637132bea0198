import LibFaketime.Fake

/-!
# Initialization

`ftpl_really_init`, which runs once in a process, before anything is faked: it
attaches the process to the shared block, reads the settings that are read only
once, agrees with the other processes on a start time, and applies the setting of
the user for the first time. The sections of the source are definitions of their
own, in its order.

The table of the real functions and the file-timestamp switch of `FAKE_UTIME` are
not here: nothing modelled reads them.
-/

namespace LibFaketime

/-! ### Settings of the environment -/

/-- `parse_long_setting(name, value)` with its exit. -/
def longSetting (name : String) (value : CStr) : Sys ℤ :=
  match parseLongSetting value with
  | some n => pure n
  | none => exit 1 (message ("libfaketime: invalid numeric value for " ++ name ++ ": ") value)

/-- A numeric setting that is assigned if it is there. -/
def assignLong (v : EnvVar) (name : String) (set : ℤ → Proc → Proc) : Sys Unit := do
  match ← getenv v with
  | none => pure ()
  | some value => do
    let n ← longSetting name value
    store (set n)

/-- Attach to the shared block, unless that is disabled. -/
def attachShared : Sys Unit := do
  let env ← getenv .faketimeDisableShm
  if env = none ∨ env.bind List.head? = some '0' then
    let attached ← ftShmInit
    store fun s => { s with sharedSemInitialized := attached }

/-- `FAKETIME_CACHE_DURATION`. -/
def cacheDurationSetting : Sys Unit := do
  match ← getenv .faketimeCacheDuration with
  | none => pure ()
  | some v => do
    let value ← longSetting "FAKETIME_CACHE_DURATION" v
    if value < -2 ^ 31 ∨ 2 ^ 31 - 1 < value then
      exit 1 (message "libfaketime: FAKETIME_CACHE_DURATION is out of range: " v)
    else store fun s => { s with cacheDuration := value }

/-- `FAKETIME_CACHE_DURATION` and `FAKETIME_NO_CACHE`. -/
def cacheSettings : Sys Unit := do
  cacheDurationSetting
  if (← getenv .faketimeNoCache) = some ['1'] then
    store fun s => { s with cacheEnabled := false }

/-! ### Excluded commands -/

/-- The pieces `strtok_r` finds between commas. -/
def tokens (s : CStr) : List CStr := (s.splitOn ',').filter (· ≠ [])

/-- `FAKETIME_SKIP_CMDS`: whether this command is skipped. -/
def skipCmds (B : Build) : Sys Bool := do
  match ← getenv .faketimeSkipCmds with
  | none => pure false
  | some cmds =>
    if B.progname ∈ tokens cmds then
      store fun s => { s with ftMode := .noop }
      pure true
    else pure false

/-- `FAKETIME_ONLY_CMDS`: whether this command is not among them. -/
def onlyCmds (B : Build) : Sys Bool := do
  match ← getenv .faketimeOnlyCmds with
  | none => pure false
  | some cmds =>
    if (← getenv .faketimeSkipCmds).isSome then
      exit 1 "Error: Both FAKETIME_SKIP_CMDS and FAKETIME_ONLY_CMDS can't be set.\n"
    else if B.progname ∈ tokens cmds then pure false
    else
      store fun s => { s with ftMode := .noop }
      pure true

/-! ### Limits and the external command -/

/-- The four limits. Any of them makes the faking limited. -/
def limitSettings : Sys Unit := do
  assignLong .faketimeStartAfterSeconds "FAKETIME_START_AFTER_SECONDS"
    fun n s => { s with ftStartAfterSecs := n, limitedFaking := true }
  assignLong .faketimeStopAfterSeconds "FAKETIME_STOP_AFTER_SECONDS"
    fun n s => { s with ftStopAfterSecs := n, limitedFaking := true }
  assignLong .faketimeStartAfterNumcalls "FAKETIME_START_AFTER_NUMCALLS"
    fun n s => { s with ftStartAfterNcalls := n, limitedFaking := true }
  assignLong .faketimeStopAfterNumcalls "FAKETIME_STOP_AFTER_NUMCALLS"
    fun n s => { s with ftStopAfterNcalls := n, limitedFaking := true }

/-- `FT_SPAWN_VALUE_SIZE`. -/
def ftSpawnValueSize : ℕ := 1024

/-- The loop over the arguments of the external command, from number `n` on; the
arguments have to be numbered without a gap. -/
def spawnArguments : ℕ → ℕ → Bool → Sys Unit
  | 0, _, _ => pure ()
  | left + 1, n, missing => do
    match ← getenv (.faketimeSpawnArg n) with
    | none => spawnArguments left (n + 1) true
    | some arg =>
      if missing = true ∨ ftSpawnValueSize ≤ arg.length then
        exit 1 "libfaketime: invalid FAKETIME_SPAWN_ARG configuration\n"
      else spawnArguments left (n + 1) missing

/-- `parse_spawn_limits`. -/
def parseSpawnLimits : Sys Unit := do
  assignLong .faketimeSpawnSeconds "FAKETIME_SPAWN_SECONDS" fun n s => { s with ftSpawnSecs := n }
  assignLong .faketimeSpawnNumcalls "FAKETIME_SPAWN_NUMCALLS"
    fun n s => { s with ftSpawnNcalls := n }

/-- `FAKETIME_SPAWN_TARGET`. -/
def spawnTarget : Sys Unit := do
  if (← getenv .faketimeSpawnTarget).isSome then
    if (← getenv .faketimeSpawnExec).isSome then
      exit 1 ("libfaketime: FAKETIME_SPAWN_TARGET and FAKETIME_SPAWN_EXEC are " ++
        "mutually exclusive\n")
    else store fun s => { s with spawnsupport := true }

/-- `FAKETIME_SPAWN_EXEC` and its arguments. -/
def spawnExec : Sys Unit := do
  match ← getenv .faketimeSpawnExec with
  | none => pure ()
  | some command => do
    if (← getenv .faketimeSpawnTarget).isSome = true ∨ command = [] ∨
        ftSpawnValueSize ≤ command.length then
      exit 1 "libfaketime: invalid FAKETIME_SPAWN_EXEC configuration\n"
    else
      spawnArguments 8 1 false
      store fun s => { s with spawnsupport := true }

/-- Whether an external command is to be spawned, and when. -/
def spawnSettings : Sys Unit := do
  spawnTarget
  spawnExec
  if (← load).spawnsupport then parseSpawnLimits

/-! ### The files of recorded times -/

/-- `FAKETIME_SAVE_FILE`. -/
def saveFile : Sys Unit := do
  match ← getenv .faketimeSaveFile with
  | none => pure ()
  | some path =>
    if ← openSave path then store fun s => { s with outfileOpen := true }
    else exit 1 "libfaketime: In ftpl_init(), opening file for saving timestamps failed"

/-- The records of a file of `n` records. -/
def records : ℕ → List UInt8 → List SavedTimestamp
  | 0, _ => []
  | n + 1, bytes => ⟨bytes.take 8, (bytes.drop 8).take 8⟩ :: records n (bytes.drop 16)

/-- The checks on the contents of the load file: at least one record, no part of a
record, and every record valid. -/
def loadChecks (bytes : List UInt8) : Except String (List SavedTimestamp) :=
  if bytes.length < savedTimestampSize then
    .error "There are no timestamps in the provided file to load timestamps from"
  else if bytes.length % savedTimestampSize ≠ 0 then
    .error "File size is not multiple of timestamp size. It is probably damaged."
  else
    let stss := records (bytes.length / savedTimestampSize) bytes
    if stss.all savedTimestampValid then .ok stss
    else .error "libfaketime: invalid nanoseconds in timestamp load file\n"

/-- `FAKETIME_LOAD_FILE`. -/
def loadFile : Sys Unit := do
  match ← getenv .faketimeLoadFile with
  | none => pure ()
  | some path =>
    match ← mapLoad path with
    | none => exit 1 "libfaketime: In ftpl_init(), opening file for loading timestamps failed"
    | some bytes =>
      match loadChecks bytes with
      | .error msg => exit 1 msg
      | .ok stss => store fun s => { s with stss := stss, infileSet := true }

/-- `FAKETIME_FMT`. -/
def formatSetting : Sys Unit := do
  match ← getenv .faketimeFmt with
  | none => store fun s => { s with userFakedTimeFmt := "%Y-%m-%d %T".toList }
  | some fmt =>
    if bufsiz ≤ fmt.length then exit 1 "libfaketime: FAKETIME_FMT is too long\n"
    else store fun s => { s with userFakedTimeFmt := fmt }

/-! ### The start time -/

/-- The critical section in which the processes agree on a start time: the first
one to come sets it, the others take it over. -/
def agreeOnStarttime : Sys Unit := do
  if (← load).sharedSemInitialized then
    match ← ftSemLock with
    | .acquired =>
      if (← readShared).startTimeReal.tvNsec = -1 then
        setGlobalStarttime
      else sharedToSystemTime
      unless ← ftSemUnlock do
        exit 1 "libfaketime: In ftpl_init(), ft_sem_unlock failed"
    | _ => exit 1 "libfaketime: In ftpl_init(), ft_sem_lock failed"
  else systemTimeFromSystem

/-- The first use of the setting of the user. -/
def firstSetting (B : Build) : Sys Unit := do
  match ← getenv .faketime with
  | some setting =>
    store fun s => { s with parseConfigFile := false }
    parseFtString B setting
  | none => do
    let _ ← readConfigFile B
    pure ()

/-! ### The whole function -/

/-- `NO_FAKE_STAT`. -/
def statSetting : Sys Unit := do
  if (← getenv .noFakeStat).isSome then store fun s => { s with fakeStatDisabled := true }

/-- The settings that are read once. -/
def readSettings : Sys Unit := do
  attachShared
  statSetting
  cacheSettings
  getFakeMonotonicSetting

/-- The settings that are read once, after those that may exclude the process. -/
def readLimitsAndFiles : Sys Unit := do
  limitSettings
  spawnSettings
  saveFile
  loadFile
  formatSetting

/-- **`ftpl_really_init`.** -/
def ftplReallyInit (B : Build) : Sys Unit := do
  setDontFake true
  readSettings
  let skipped ← skipCmds B
  let excluded ← onlyCmds B
  readLimitsAndFiles
  agreeOnStarttime
  firstSetting B
  setDontFake (skipped || excluded)

end LibFaketime
