import LibFaketime.Parse

/-!
# The configuration file

`read_config_file`: the file of `FAKETIME_TIMESTAMP_FILE`, of the home directory or
of the system, read into a buffer of fixed size, stripped of its comment lines and
handed to the parser.
-/

namespace LibFaketime

/-- The characters that end a line. -/
def isLineEnd (c : Char) : Bool := c == '\r' || c == '\n'

/-- A line is dropped if its first character that is not a blank starts a
comment. -/
def isComment (line : CStr) : Bool :=
  match line.dropWhile fun c => c == ' ' || c == '\t' with
  | c :: _ => c == '#' || c == ';'
  | [] => false

/-- The loop of `prepare_config_contents`, one line a turn. -/
def prepareLoop : ℕ → CStr → CStr
  | 0, _ => []
  | fuel + 1, contents =>
    if contents = [] then []
    else
      let line := contents.takeWhile fun c => !isLineEnd c
      let rest := (contents.dropWhile fun c => !isLineEnd c).dropWhile isLineEnd
      (if isComment line then [] else line) ++ prepareLoop fuel rest

/-- `prepare_config_contents`. -/
def prepareConfigContents (contents : CStr) : CStr := prepareLoop contents.length contents

/-- `BUFSIZ`. -/
def bufsiz : ℕ := 8192

/-- A path printed into a buffer of `BUFSIZ` bytes; one that does not fit is
dropped. -/
def boundedPath (env : Option CStr) (suffix : CStr) : CStr :=
  match env with
  | some dir => if dir ≠ [] ∧ (dir ++ suffix).length < bufsiz then dir ++ suffix else []
  | none => []

/-- The first of some files that can be opened. -/
def openFirst : List CStr → Sys (Option ℕ)
  | [] => pure none
  | path :: rest => do
    match ← openRead path with
    | some fd => pure (some fd)
    | none => openFirst rest

/-- The first of the three files that can be opened; a path that was dropped is
skipped. -/
def openConfig (custom filename : CStr) : Sys (Option ℕ) :=
  openFirst ([custom, filename].filter (· ≠ []) ++ ["/etc/faketimerc".toList])

/-- The read loop: the bytes so far, and what the last `read` returned. Every turn
that goes on reads a byte at least. -/
def readLoop : ℕ → ℕ → CStr → ℤ → Sys (CStr × ℤ)
  | 0, _, _, _ => stalled
  | fuel + 1, fd, buffer, bytes =>
    if buffer.length < bufferlen - 1 then do
      match ← readFd fd (bufferlen - 1 - buffer.length) with
      | .failed => pure (buffer, -1)
      | .bytes l => if l = [] then pure (buffer, 0) else readLoop fuel fd (buffer ++ l) l.length
    else pure (buffer, bytes)

/-- A full buffer is only accepted if nothing follows. -/
def probeEnd (fd : ℕ) (buffer : CStr) (bytes : ℤ) : Sys ℤ :=
  if buffer.length = bufferlen - 1 ∧ bytes = 0 then do
    match ← readFd fd 1 with
    | .failed => pure (-1)
    | .bytes l => pure (l.length : ℤ)
  else pure bytes

/-- The contents of the buffer, or the result of a failure. -/
def checkedContents (fd : ℕ) (buffer : CStr) (bytes : ℤ) : Sys (Except ℤ CStr) := do
  if !(← closeFd fd) then
    perror "libfaketime: closing timestamp configuration file failed"
    pure (.error (-1))
  else if 0 < bytes then
    perror "libfaketime: timestamp configuration file is too long\n"
    pure (.error (-1))
  else if bytes < 0 then
    perror "libfaketime: reading timestamp configuration file failed"
    pure (.error (-1))
  else if Char.ofNat 0 ∈ buffer then
    perror "libfaketime: timestamp configuration file contains a NUL byte\n"
    pure (.error (-1))
  else pure (.ok buffer)

/-- The contents of an open configuration file, or the result of a failure. -/
def configContents (fd : ℕ) : Sys (Except ℤ CStr) := do
  let r ← readLoop bufferlen fd [] 0
  let bytes ← probeEnd fd r.1 r.2
  checkedContents fd r.1 bytes

/-- The part of `read_config_file` before the parser: the contents of the file, or the
result to return. -/
def findConfig : Sys (Except ℤ CStr) := do
  let custom := boundedPath (← getenv .faketimeTimestampFile) []
  let filename := boundedPath (← getenv .home) "/.faketimerc".toList
  match ← openConfig custom filename with
  | none => pure (.error 0)
  | some fd => configContents fd

/-- `read_config_file`: `1` if a setting was applied, `0` if there is no file, `-1`
if there is one that cannot be used. -/
def readConfigFile (B : Build) : Sys ℤ := do
  match ← findConfig with
  | .error result => pure result
  | .ok contents => do
    parseFtString B (prepareConfigContents contents)
    pure 1

/-- `get_fake_monotonic_setting(&fake_monotonic_clock)`. -/
def getFakeMonotonicSetting : Sys Unit := do
  let v ← match ← getenv .faketimeDontFakeMonotonic with
    | some v => pure (some v)
    | none => getenv .dontFakeMonotonic
  match v with
  | none => pure ()
  | some v => store fun s => { s with fakeMonotonicClock := v != ['1'] }

/-- The assignment at the end of `LibFaketime.getFakeMonotonicSetting`, for what the
environment has. -/
def assignFakeMonotonic : Option CStr → Sys Unit
  | none => pure ()
  | some v => store fun s => { s with fakeMonotonicClock := v != ['1'] }

end LibFaketime
