import LibFaketime.Numbers
import LibFaketime.IntTime

/-!
# Parsing the requests of the user

`parse_ft_string`: the first character of the text selects what is set – a fixed
date, an offset, a date to start at, the time of a file – and a modifier may follow.
The cases of the source's `switch` are definitions of their own here, in its order,
and the jumps to `parse_modifiers` are calls of `LibFaketime.parseModifiers`.

Dates are read by `strptime` and `mktime` in the format, the locale and the time
zone of the user. They belong to the C library and are fields of
`LibFaketime.Build`, with the other things a build or a process fixes.
-/

namespace LibFaketime

/-- `struct tm`. -/
structure Tm where
  tmSec : ℤ
  tmMin : ℤ
  tmHour : ℤ
  tmMday : ℤ
  tmMon : ℤ
  tmYear : ℤ
  tmWday : ℤ
  tmYday : ℤ
  tmIsdst : ℤ
deriving DecidableEq, Repr

/-- The broken-down time the parser starts from: all zero, daylight saving
unknown. -/
def Tm.start : Tm := ⟨0, 0, 0, 0, 0, 0, 0, 0, -1⟩

/-- What is fixed when the library is built and loaded. -/
structure Build where
  /-- `strptime(text, format, &tm)`: the fields, and the rest of the text. -/
  strptime : CStr → CStr → Tm → Option (Tm × CStr)
  mktime : Tm → ℤ
  /-- `PTHREAD_SINGLETHREADED_TIME` is defined. -/
  pthreadSinglethreadedTime : Bool
  /-- `__progname`. -/
  progname : CStr
  /-- How many attempts at an interrupted lock the model follows. -/
  retries : ℕ

/-! ### Modifiers -/

/-- The text of a message about the setting `s`. -/
def message (text : String) (s : CStr) : String := text ++ String.ofList s ++ "\n"

/-- `FAKETIME_XRESET`: go on from the last time that was reported. -/
def xreset : Sys Unit := do
  if (← getenv .faketimeXreset).isSome then
    if 0 ≤ (← load).ftplTimecache.real.tvNsec then
      store fun p => { p with
        userFakedTimeTimespec := p.ftplFaketimecache.real
        ftplStarttime := p.ftplTimecache }

/-- The label `parse_modifiers`: a rate after the first `x` of the text, or else a
tick after the first `i`. -/
def parseModifiers (s : CStr) (fl : Floats := .exact) : Sys Unit := do
  match strchr s 'x' with
  | some rest =>
    match parseFiniteDouble rest.tail fl with
    | none => exit 1 (message "libfaketime: invalid clock rate in FAKETIME: " s)
    | some rate =>
      if rate ≤ 0 then exit 1 (message "libfaketime: invalid clock rate in FAKETIME: " s)
      else
        store fun p => { p with userRate := rate }
        store fun p => { p with userRateSet := true }
        xreset
  | none =>
    match strchr s 'i' with
    | none => pure ()
    | some rest =>
      match parseFiniteDouble rest.tail fl with
      | none => exit 1 (message "libfaketime: invalid tick increment in FAKETIME: " s)
      | some tick =>
        match doubleToTimespec tick fl with
        | none => exit 1 (message "libfaketime: tick increment is out of range: " s)
        | some inc =>
          store fun p => { p with userPerTickInc := inc }
          store fun p => { p with userPerTickIncSet := true }

/-! ### Dates -/

/-- The fraction of a date begins one character before the point, so that `strtod`
reads the last digit of the seconds with it; `text` is all that stands before the
rest. -/
def fractionText (text rest : CStr) : CStr := text.getLast?.toList ++ rest

/-- The part the absolute date and the start-at date have in common. The text
`strptime` reads is `s`, after `lead`; `failure` is the message for a date it does
not read, given the format. -/
def parseDate (B : Build) (lead s : CStr) (failure : CStr → String) (fl : Floats := .exact) :
    Sys Unit := do
  let fmt := (← load).userFakedTimeFmt
  match B.strptime s fmt Tm.start with
  | none => exit 1 (failure fmt)
  | some (tm, rest) =>
    store fun p => { p with userFakedTimeTimespec := ⟨B.mktime tm, 0⟩ }
    if rest.head? = some '.' then
      match parseFiniteDoublePrefix
          (fractionText (lead ++ s.take (s.length - rest.length)) rest) fl with
      | none => exit 1 (message "libfaketime: invalid fractional timestamp: " (lead ++ s))
      | some (nstime, _) =>
        store fun p => { p with userFakedTimeTimespec.tvNsec := fractionNsec nstime fl }

/-- The message for a date that cannot be read. -/
def dateMessage : String :=
  "libfaketime: In parse_ft_string(), failed to parse FAKETIME timestamp.\n"

/-- The default case: a specified time, at which the clock stands still. -/
def parseAbsolute (B : Build) (s : CStr) (fl : Floats := .exact) : Sys Unit := do
  store fun p => { p with ftMode := if p.ftMode ≠ .noop then .freeze else p.ftMode }
  parseDate B [] s (fun fmt => dateMessage ++ "Please check specification " ++
    String.ofList s ++ " with format " ++ String.ofList fmt ++ "\n") fl
  store fun p => { p with userFakedTimeSet := true }

/-- The case of `@`: a specified time, from which the clock goes on. Unlike its
neighbours it does not look at the mode it replaces. -/
def parseStartAt (B : Build) (s : CStr) (fl : Floats := .exact) : Sys Unit := do
  store fun p => { p with ftMode := .startAt }
  parseDate B ['@'] s.tail (fun _ => dateMessage) fl
  if (← getenv .faketimeDontReset).isNone then resetTime

/-! ### Offsets -/

/-- The seconds of the unit that may follow an offset. -/
def unitSeconds : Char → Option ℚ
  | 'm' => some 60
  | 'h' => some 3600
  | 'd' => some 86400
  | 'y' => some 31536000
  | _ => none

/-- The number, the factor of its unit, and what follows the blanks after it. -/
def splitOffset (s : CStr) (fl : Floats := .exact) : Option (ℚ × ℚ × CStr) :=
  match parseFiniteDoublePrefix s fl with
  | none => none
  | some (frac, rest) =>
    match rest with
    | c :: rest' =>
      match unitSeconds c with
      | some factor => some (frac, factor, rest'.dropWhile isspace)
      | none => some (frac, 1, rest.dropWhile isspace)
    | [] => some (frac, 1, [])

/-- The offset in seconds and nanoseconds; an offset without a unit is not
scaled. -/
def offsetTimespec (frac factor : ℚ) (fl : Floats := .exact) : Option Timespec :=
  (if factor = 1 then some frac else scaleFiniteDouble frac factor fl).bind
    fun value => doubleToTimespec value fl

/-- The cases of `+` and `-`: the time at which the process started, moved by an
offset. -/
def parseOffset (s : CStr) (fl : Floats := .exact) : Sys Unit := do
  store fun p => { p with ftMode := if p.ftMode ≠ .noop then .startAt else p.ftMode }
  match splitOffset s fl with
  | none => exit 1 (message "libfaketime: invalid time offset: " s)
  | some (frac, factor, rest) =>
    if rest ≠ [] ∧ rest.head? ≠ some 'x' ∧ rest.head? ≠ some 'i' then
      exit 1 (message "libfaketime: invalid time offset: " s)
    else
      match offsetTimespec frac factor fl with
      | none => exit 1 (message "libfaketime: time offset is out of range: " s)
      | some offset =>
        store fun p => { p with userOffset := offset }
        store fun p => { p with
          userFakedTimeTimespec := timespecadd p.ftplStarttime.real p.userOffset }

/-! ### The time of a file -/

/-- The case of `%`: follow the modification time of a file. The modifiers are not
looked at once an absolute time has been set. -/
def parseFollow (s : CStr) (fl : Floats := .exact) : Sys Unit := do
  store fun p => { p with ftMode := .startAt }
  match ← getenv .faketimeFollowFile with
  | none => exit 1 ("libfaketime: % operator in FAKETIME setting requires environment " ++
      "variable FAKETIME_FOLLOW_FILE set.\n")
  | some path =>
    match ← realStat path with
    | none => exit 1 ("libfaketime: Cannot get timestamp of file " ++ String.ofList path ++
        " as requested by % operator.\n")
    | some mtime =>
      store fun p => { p with userFakedTimeTimespec.tvSec := mtime.tvSec }
      if (← getenv .faketimeFollowAbsolute).isNone then
        store fun p => { p with userFakedTimeTimespec.tvNsec := 0 }
      else
        store fun p => { p with userFakedTimeTimespec.tvNsec := mtime.tvNsec }
        store fun p => { p with ftMode := if p.ftMode ≠ .noop then .freeze else p.ftMode }
        store fun p => { p with userFakedTimeSet := true }
      if (← getenv .faketimeDontReset).isNone then resetTime
      unless (← load).userFakedTimeSet do parseModifiers s fl

/-! ### The whole setting -/

/-- The `switch` on the first character. -/
def parseByPrefix (B : Build) (s : CStr) (fl : Floats := .exact) : Sys Unit := do
  match s.head? with
  | some '+' | some '-' =>
    parseOffset s fl
    parseModifiers s fl
  | some '@' =>
    parseStartAt B s fl
    parseModifiers s fl
  | some '%' => parseFollow s fl
  | some 'i' | some 'x' => parseModifiers s fl
  | _ =>
    parseAbsolute B s fl
    parseModifiers s fl

/-- A setting that has been applied already: `strncmp` with the text saved last.
A followed file is looked at again each time. -/
def unchangedSetting (s saved : CStr) : Bool :=
  s.take bufferlen == saved.take bufferlen && s.head? != some '%'

/-- `parse_ft_string`. -/
def parseFtString (B : Build) (s : CStr) (fl : Floats := .exact) : Sys Unit := do
  if unchangedSetting s (← load).userFakedTimeSaved then pure ()
  else
    parseByPrefix B s fl
    store fun p => { p with userFakedTimeSaved := s.take (bufferlen - 1) }

end LibFaketime
