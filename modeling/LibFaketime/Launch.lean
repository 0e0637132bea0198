import LibFaketime.Dates
import LibFaketime.Precedence
import LibFaketime.Wrapper

/-!
# From the wrapper to the library

The wrapper writes a setting into the environment of a program, and the library reads it there
when the program is initialized. They are two programs, and everything else in that environment
has been inherited: the commands that are excluded, and the format in which the library reads
dates.

A program that the wrapper has started is followed up to the point where the library comes to
the setting (`LibFaketime.Launched`). From there on a distance is taken over exactly, in whatever
environment, and a date is if the format of that environment is one for the dates of the
wrapper, like the one that is the default (`LibFaketime.wrapper_and_library_agree`).
-/

namespace LibFaketime

open Effects Effects.Prog

/-! ### The child -/

/-- The initialization up to the setting of the user, and whether the process is excluded. -/
def beforeSetting (B : Build) : Sys Bool := do
  setDontFake true
  readSettings
  let skipped ← skipCmds B
  let excluded ← onlyCmds B
  readLimitsAndFiles
  agreeOnStarttime
  pure (skipped || excluded)

theorem ftplReallyInit_eq (B : Build) : ftplReallyInit B =
    beforeSetting B >>= fun excluded => firstSetting B >>= fun _ => setDontFake excluded := by
  unfold beforeSetting
  simp only [bind_assoc]
  rfl

/-- **A process has come to the setting of the user**, in the environment `env`. -/
def Launched (B : Build) (env : EnvVar → Option CStr) (w : World) : Prop :=
  ∃ w₀ excluded, w₀.proc = Proc.initial ∧ (∀ n v, w₀.os n (.getenv v) = some (env v)) ∧
    (beforeSetting B).run seq w₀ = .ok (excluded, w)

/-- The environment excludes the command from faking. -/
def Excludes (B : Build) (env : EnvVar → Option CStr) : Prop :=
  (∃ cmds, env .faketimeSkipCmds = some cmds ∧ B.progname ∈ tokens cmds) ∨
    ∃ cmds, env .faketimeOnlyCmds = some cmds ∧ B.progname ∉ tokens cmds

section Child

variable {B : Build} {w w' : World} {e : Option CStr} {env : EnvVar → Option CStr}

theorem run_skipCmds {r : Bool} (he : w.os w.now (.getenv .faketimeSkipCmds) = some e)
    (h : (skipCmds B).run seq w = .ok (r, w')) : w'.os = w.os ∧
      (r = true ↔ ∃ cmds, e = some cmds ∧ B.progname ∈ tokens cmds) ∧
      w'.proc = if r then { w.proc with ftMode := .noop } else w.proc := by
  unfold skipCmds at h
  rw [getenv, run_ask rfl he] at h
  cases e with
  | none =>
    cases h
    exact ⟨rfl, by simp, rfl⟩
  | some cmds =>
    dsimp only at h
    split at h
    next hin =>
      cases h
      exact ⟨rfl, iff_of_true rfl ⟨cmds, rfl, hin⟩, rfl⟩
    next hout =>
      cases h
      refine ⟨rfl, iff_of_false Bool.false_ne_true ?_, rfl⟩
      rintro ⟨_, ⟨⟩, hin⟩
      exact hout hin

theorem run_onlyCmds {r : Bool} {e' : Option CStr}
    (he : ∀ n, w.os n (.getenv .faketimeOnlyCmds) = some e)
    (he' : ∀ n, w.os n (.getenv .faketimeSkipCmds) = some e')
    (h : (onlyCmds B).run seq w = .ok (r, w')) : w'.os = w.os ∧
      (r = true ↔ ∃ cmds, e = some cmds ∧ B.progname ∉ tokens cmds) ∧
      w'.proc = if r then { w.proc with ftMode := .noop } else w.proc := by
  unfold onlyCmds at h
  rw [getenv, run_ask rfl (he _)] at h
  cases e with
  | none =>
    cases h
    exact ⟨rfl, by simp, rfl⟩
  | some cmds =>
    dsimp only at h
    rw [getenv, run_ask (w := w.tick) rfl (he' _)] at h
    split at h
    · cases h
    split at h
    next hin =>
      cases h
      refine ⟨rfl, iff_of_false Bool.false_ne_true ?_, rfl⟩
      rintro ⟨_, ⟨⟩, hout⟩
      exact hout hin
    next hout =>
      cases h
      exact ⟨rfl, iff_of_true rfl ⟨cmds, rfl, hout⟩, rfl⟩

theorem run_formatSetting (he : w.os w.now (.getenv .faketimeFmt) = some e)
    (h : formatSetting.run seq w = .ok ((), w')) : w'.os = w.os ∧
      w'.proc = { w.proc with userFakedTimeFmt := formatOf e } := by
  unfold formatSetting at h
  rw [getenv, run_ask rfl he] at h
  cases e with
  | none =>
    cases h
    exact ⟨rfl, rfl⟩
  | some fmt =>
    dsimp only at h
    split at h
    · cases h
    · cases h
      exact ⟨rfl, rfl⟩

/-- The calls about the start time assign nothing but the start time. -/
def SetsStart : Op → Prop
  | .store f => ∀ s : Proc, ∃ t, f s = { s with ftplStarttime := t }
  | .setDontFake _ | .setenv _ _ => False
  | _ => True

theorem setsStart_agreeOnStarttime : agreeOnStarttime.Uses SetsStart := by
  have hread : ∀ c set, (readClock c set).Uses SetsStart := by
    intro c set
    refine uses_perform_bind trivial fun r => ?_
    cases r with
    | none => exact uses_pure _
    | some t => exact uses_perform fun s => ⟨_, rfl⟩
  have hsystem : systemTimeFromSystem.Uses SetsStart :=
    (hread _ _).bind fun _ => (hread _ _).bind fun _ => (hread _ _).bind fun _ => hread _ _
  have hpublish : publishStarttime.Uses SetsStart := by
    refine uses_perform_bind trivial fun s => ?_
    exact ⟨trivial, fun _ =>
      ⟨trivial, fun _ => ⟨trivial, fun _ => ⟨trivial, fun _ => ⟨trivial, fun _ =>
      ⟨trivial, fun _ => ⟨trivial, fun _ => ⟨trivial, fun _ => trivial⟩⟩⟩⟩⟩⟩⟩⟩
  have hshared : sharedToSystemTime.Uses SetsStart :=
    uses_perform_bind trivial fun d => uses_perform fun s => ⟨_, rfl⟩
  have hexit : ∀ {β : Type} {code : ℤ} {msg : String}, (exit code msg : Sys β).Uses SetsStart :=
    ⟨trivial, fun e => Empty.elim e⟩
  have hunlock : (ftSemUnlock >>= fun b => if b = true then pure ()
      else
        exit 1 "libfaketime: In ftpl_init(), ft_sem_unlock failed" : Sys Unit).Uses SetsStart := by
    refine uses_perform_bind trivial fun b => ?_
    split
    · exact uses_pure _
    · exact hexit
  refine uses_perform_bind trivial fun s => ?_
  split
  · refine uses_perform_bind trivial fun r => ?_
    cases r with
    | acquired =>
      refine uses_perform_bind trivial fun d => ?_
      split
      · exact (hsystem.bind fun _ => hpublish).bind fun _ => hunlock
      · exact hshared.bind fun _ => hunlock
    | interrupted => exact hexit
    | failed => exact hexit
  · exact hsystem

theorem run_agreeOnStarttime (h : agreeOnStarttime.run seq w = .ok ((), w')) :
    w'.os = w.os ∧ ∃ t, w'.proc = { w.proc with ftplStarttime := t } := by
  refine setsStart_agreeOnStarttime.invariant_run
    (J := fun v => v.os = w.os ∧ ∃ t, v.proc = { w.proc with ftplStarttime := t })
    (fun v o r v' ho hv hr => ?_) ⟨rfl, w.proc.ftplStarttime, rfl⟩ h
  obtain ⟨hos, t, ht⟩ := hv
  by_cases hstore : ∃ f, o = .store f
  · obtain ⟨f, rfl⟩ := hstore
    cases hr
    obtain ⟨t', ht'⟩ := ho v.proc
    refine ⟨hos, t', ht'.trans ?_⟩
    rw [ht]
  · obtain ⟨h₁, -, h₃⟩ := proc_of_seq (fun f hf => hstore ⟨f, hf⟩) (by rintro b rfl; exact ho)
      (by rintro x value rfl; exact ho) hr
    exact ⟨h₃.trans hos, t, h₁.trans ht⟩

/-- **What a process has found when it comes to the setting**: the format of dates, and whether
it is excluded. It has not read any setting. -/
theorem Launched.found (h : Launched B env w) : (∀ n v, w.os n (.getenv v) = some (env v)) ∧
    w.proc.userFakedTimeSaved = [] ∧ w.proc.userFakedTimeFmt = formatOf (env .faketimeFmt) ∧
      (Excludes B env → w.proc.ftMode = .noop) ∧ (¬ Excludes B env → w.proc.ftMode = .freeze) := by
  obtain ⟨w₀, excluded, hinit, henv, h⟩ := h
  have hkept : ∀ mode, Unaffected fun s => s.ftMode = mode ∧ s.userFakedTimeSaved = [] := by
    intro mode
    constructor
    all_goals intros
    all_goals assumption
  obtain ⟨_, w₁, h₁, h⟩ := exists_of_run_bind h
  obtain ⟨hK₁, hos₁⟩ := sets_of_run
    (K := fun s => s.ftMode = .freeze ∧ s.userFakedTimeSaved = [])
    (uses_perform (I := sys) (o := .setDontFake true) trivial) (by rw [hinit]; exact ⟨rfl, rfl⟩) h₁
  obtain ⟨_, w₂, h₂, h⟩ := exists_of_run_bind h
  obtain ⟨hK₂, hos₂⟩ := sets_of_run (uses_readSettings (hkept _) (fun _ _ h => h) fun _ _ h => h)
    hK₁ h₂
  have henv₂ : ∀ n v, w₂.os n (.getenv v) = some (env v) := by
    rw [hos₂, hos₁]
    exact henv
  -- the commands that are excluded
  obtain ⟨skipped, w₃, h₃, h⟩ := exists_of_run_bind h
  obtain ⟨hos₃, hskipped, hproc₃⟩ := run_skipCmds (henv₂ _ _) h₃
  obtain ⟨only, w₄, h₄, h⟩ := exists_of_run_bind h
  obtain ⟨hos₄, honly, hproc₄⟩ := run_onlyCmds (by rw [hos₃]; exact fun n => henv₂ n _)
    (by rw [hos₃]; exact fun n => henv₂ n _) h₄
  have hmode : (Excludes B env → w₄.proc.ftMode = .noop) ∧
      (¬ Excludes B env → w₄.proc.ftMode = .freeze) := by
    unfold Excludes
    rw [← hskipped, ← honly, hproc₄, hproc₃]
    cases skipped <;> cases only <;> simp [hK₂.1]
  have hsaved : w₄.proc.userFakedTimeSaved = [] := by
    rw [hproc₄, hproc₃]
    cases skipped <;> cases only <;> exact hK₂.2
  -- the limits, the files and the format
  obtain ⟨_, w₅, h₅, h⟩ := exists_of_run_bind h
  obtain ⟨hos₅, hproc₅⟩ : w₅.os = w₄.os ∧ (w₅.proc.ftMode = w₄.proc.ftMode ∧
      w₅.proc.userFakedTimeSaved = []) ∧
      w₅.proc.userFakedTimeFmt = formatOf (env .faketimeFmt) := by
    obtain ⟨_, v₁, g₁, h₅⟩ := exists_of_run_bind h₅
    obtain ⟨hk₁, ho₁⟩ := sets_of_run (uses_limitSettings (hkept _)) ⟨rfl, hsaved⟩ g₁
    obtain ⟨_, v₂, g₂, h₅⟩ := exists_of_run_bind h₅
    obtain ⟨hk₂, ho₂⟩ := sets_of_run (uses_spawnSettings (hkept _)) hk₁ g₂
    obtain ⟨_, v₃, g₃, h₅⟩ := exists_of_run_bind h₅
    obtain ⟨hk₃, ho₃⟩ := sets_of_run (uses_saveFile (hkept _).outfile) hk₂ g₃
    obtain ⟨_, v₄, g₄, h₅⟩ := exists_of_run_bind h₅
    obtain ⟨hk₄, ho₄⟩ := sets_of_run
      (K := fun s => s.ftMode = w₄.proc.ftMode ∧ s.userFakedTimeSaved = [])
      (uses_loadFile fun _ _ _ _ h => h) hk₃ g₄
    have hos : v₄.os = w₄.os := ho₄.trans (ho₃.trans (ho₂.trans ho₁))
    obtain ⟨ho₅, hp₅⟩ := run_formatSetting (e := env .faketimeFmt)
      (by rw [hos, hos₄, hos₃]; exact henv₂ _ _) h₅
    rw [hp₅]
    exact ⟨ho₅.trans hos, hk₄, rfl⟩
  obtain ⟨_, w₆, h₆, h⟩ := exists_of_run_bind h
  obtain ⟨hos₆, t, hproc₆⟩ := run_agreeOnStarttime h₆
  obtain rfl : w₆ = w := by
    cases h
    rfl
  rw [hproc₆]
  refine ⟨?_, hproc₅.1.2, hproc₅.2, ?_⟩
  · rw [hos₆, hos₅, hos₄, hos₃]
    exact henv₂
  · dsimp only
    rw [hproc₅.1.1]
    exact hmode

end Child

/-! ### Dates as they are specified -/

/-- The broken-down time, with daylight saving unknown. -/
def CalendarTime.tm (t : CalendarTime) : Tm where
  tmSec := t.second
  tmMin := t.minute
  tmHour := t.hour
  tmMday := t.day
  tmMon := t.month - 1
  tmYear := t.year - 1900
  tmWday := 0
  tmYday := 0
  tmIsdst := -1

/-- The fields that `mktime` looks at: not the days of the week and of the year. -/
def Tm.fields (tm : Tm) : List ℤ :=
  [tm.tmSec, tm.tmMin, tm.tmHour, tm.tmMday, tm.tmMon, tm.tmYear, tm.tmIsdst]

/-- The ranges of the fields. -/
structure CalendarTime.Valid (t : CalendarTime) : Prop where
  year : t.year < 10000
  month : 1 ≤ t.month ∧ t.month ≤ 12
  day : 1 ≤ t.day ∧ t.day ≤ 31
  hour : t.hour < 24
  minute : t.minute < 60
  second : t.second ≤ 60

/-- The format reads the whole text of `t` as `t`. -/
def CalendarTime.ReadIn (t : CalendarTime) (B : Build) (fmt : CStr) : Prop :=
  ∃ tm, B.strptime t.text fmt Tm.start = some (tm, []) ∧ tm.fields = t.tm.fields

/-- `strptime` and `mktime` are as they are specified, for the format that is the default. -/
structure ReadsDates (B : Build) : Prop where
  strptime : ∀ t : CalendarTime, t.Valid → t.ReadIn B "%Y-%m-%d %T".toList
  mktime : ∀ tm tm' : Tm, tm.fields = tm'.fields → B.mktime tm = B.mktime tm'

/-- The environment lets the date be read: it has no format of its own, or one that reads it. -/
def CalendarTime.Fits (t : CalendarTime) (B : Build) (env : EnvVar → Option CStr) : Prop :=
  env .faketimeFmt = none ∧ t.Valid ∨ t.ReadIn B (formatOf (env .faketimeFmt))

theorem CalendarTime.Fits.readIn {t : CalendarTime} {B : Build} {env : EnvVar → Option CStr}
    (hB : ReadsDates B) (h : t.Fits B env) : t.ReadIn B (formatOf (env .faketimeFmt)) := by
  rcases h with ⟨hnone, hvalid⟩ | h
  · rw [hnone]
    exact hB.strptime t hvalid
  · exact h

/-! ### The setting is taken over -/

section Taken

variable {B : Build} {w : World} {value s : CStr} {env : EnvVar → Option CStr} {offset : ℤ}

/-- A variable that is set is handed to the parser. -/
theorem runs_firstSetting {Q : Unit → World → Prop}
    (he : w.os w.now (.getenv .faketime) = some (some value))
    (h : (parseFtString B value).Runs seq
      { w.tick with proc := { w.proc with parseConfigFile := false } } Q) :
    (firstSetting B).Runs seq w Q := by
  refine runs_getenv he ?_
  exact runs_store h

theorem strchr_eq_none {c : Char} (h : c ∉ s) : strchr s c = none := by
  cases hs : strchr s c with
  | none => rfl
  | some rest => exact absurd (mem_of_strchr hs) h

/-- Neither a distance nor a date has a modifier. -/
theorem scanned_eq_plain (hx : 'x' ∉ s) (hi : 'i' ∉ s) : scanned s = some .plain := by
  rw [scanned, strchr_eq_none hx]
  dsimp only
  rw [strchr_eq_none hi]

theorem not_mem_signedLd {c : Char} (hc : c ≠ '+' ∧ c ≠ '-') (hdigit : isDigit 10 c = false) :
    c ∉ signedLd offset := by
  intro h
  rcases mem_signedLd h with h | h | h
  · exact hc.1 h
  · exact hc.2 h
  · rw [hdigit] at h
    cases h

/-- A distance that a `double` holds exactly is in the range of the parser. -/
theorem offsetPart_signedLd (h : |offset| ≤ 2 ^ 53) : OffsetPart (signedLd offset) offset 1 [] := by
  have hmin : ftTimeMin = -9223372036854775808 := by decide
  have hmax : ftTimeMax = 9223372036854775807 := by decide
  have htime : InTimeRange (offset : ℚ) := by
    obtain ⟨hlow, hhigh⟩ := abs_le.mp h
    rw [InTimeRange, Int.floor_intCast]
    omega
  have hrange : outOfRange (offset : ℚ) = false := by
    rw [outOfRange_exact, isfinite_of_inTimeRange htime]
    rfl
  refine ⟨?_, Or.inl rfl, by rw [mul_one]; exact htime⟩
  rw [splitOffset, parseFiniteDoublePrefix_of_exact (strtodExact_signedLd offset) hrange]

theorem floorTimespec_intCast (n : ℤ) : floorTimespec n = ⟨n, 0⟩ := by
  rw [floorTimespec_exact, Int.floor_intCast, sub_self, zero_mul, Int.floor_zero]

/-- A text without a modifier sets neither a rate nor a tick. -/
theorem runs_parseModifiers_plain (hx : 'x' ∉ s) (hi : 'i' ∉ s) :
    (parseModifiers s).Runs seq w fun _ w' => w' = w := by
  unfold parseModifiers
  rw [strchr_eq_none hx]
  dsimp only
  rw [strchr_eq_none hi]
  exact runs_pure rfl

theorem parseByPrefix_of_isDigit {c : Char} (h : s.head? = some c) (hc : isDigit 10 c = true) :
    parseByPrefix B s = parseAbsolute B s >>= fun _ => parseModifiers s := by
  refine parseByPrefix_of_date fun d hd hmem => ?_
  obtain rfl := Option.some.inj (h.symm.trans hd)
  simp only [List.mem_cons, List.not_mem_nil, or_false] at hmem
  rcases hmem with rfl | rfl | rfl | rfl | rfl | rfl <;> cases hc

/-- **A distance is taken over exactly.** -/
theorem Launched.runs_offset (hw : Launched B env w) (he : env .faketime = some (signedLd offset))
    (h : |offset| ≤ 2 ^ 53) : (firstSetting B).Runs seq w fun _ w' =>
      w'.proc.userOffset = ⟨offset, 0⟩ ∧ (Excludes B env → w'.proc.ftMode = .noop) ∧
        (¬ Excludes B env → w'.proc.ftMode = .startAt) := by
  obtain ⟨henv, hsaved, -, hnoop, hfreeze⟩ := hw.found
  refine runs_firstSetting (by rw [henv, he]) ?_
  have hhead := head?_signedLd offset
  have hne : signedLd offset ≠ [] := by
    intro hnil
    rw [hnil] at hhead
    rcases hhead with h | h <;> cases h
  have hnew : unchangedSetting (signedLd offset) w.proc.userFakedTimeSaved = false := by
    rw [hsaved, unchangedSetting_nil hne]
  have hplain : scanned (signedLd offset) = some .plain :=
    scanned_eq_plain (not_mem_signedLd (by decide) (by decide))
      (not_mem_signedLd (by decide) (by decide))
  have hparse := runs_parseFtString (B := B)
    (w := { w.tick with proc := { w.proc with parseConfigFile := false } })
    (fun n v => ⟨_, henv n v⟩) hhead hnew (offsetPart_signedLd h) hplain
  refine hparse.mono fun _ w' ⟨hoffset, _, hmode⟩ => ?_
  rw [mul_one, floorTimespec_intCast] at hoffset
  refine ⟨hoffset, fun hex => ?_, fun hex => ?_⟩
  · rw [hmode, hnoop hex]
    rfl
  · rw [hmode, hfreeze hex]
    rfl

/-- **A date is taken over**, if the environment lets it be read. -/
theorem Launched.runs_date {t : CalendarTime} (hB : ReadsDates B) (hw : Launched B env w)
    (ht : t.Prints) (he : env .faketime = some t.text) (hfits : t.Fits B env) :
    (firstSetting B).Runs seq w fun _ w' => w'.proc.userFakedTimeTimespec = ⟨B.mktime t.tm, 0⟩ ∧
      w'.proc.userFakedTimeSet = true ∧ (Excludes B env → w'.proc.ftMode = .noop) ∧
        (¬ Excludes B env → w'.proc.ftMode = .freeze) := by
  obtain ⟨henv, hsaved, hfmt, hnoop, hfreeze⟩ := hw.found
  obtain ⟨tm, hread, hfields⟩ := hfits.readIn hB
  obtain ⟨c, hhead, hdigit⟩ := CalendarTime.head?_text ht
  have hnot : ∀ {c : Char}, c ≠ '-' ∧ c ≠ ' ' ∧ c ≠ ':' → isDigit 10 c = false → c ∉ t.text := by
    intro c hc hdigit h
    rcases CalendarTime.mem_text ht h with h | h | h | h
    · exact hc.1 h
    · exact hc.2.1 h
    · exact hc.2.2 h
    · rw [hdigit] at h
      cases h
  have hne : t.text ≠ [] := by
    intro hnil
    rw [hnil] at hhead
    cases hhead
  refine runs_firstSetting (by rw [henv, he]) (runs_load ?_)
  rw [show w.proc.userFakedTimeSaved = [] from hsaved, unchangedSetting_nil hne, if_neg (by simp),
    parseByPrefix_of_isDigit hhead hdigit]
  rw [← hfmt] at hread
  refine Runs.bind (Runs.bind (runs_parseAbsolute (parsedDate_of_complete hread)) fun _ w₁ h₁ =>
    (runs_parseModifiers_plain (hnot (by decide) (by decide)) (hnot (by decide) (by decide))).mono
      fun _ w₂ h₂ => h₂ ▸ h₁) fun _ w₂ ⟨_, hproc⟩ => ⟨_, _, rfl, ?_, ?_, ?_, ?_⟩
  · change w₂.proc.userFakedTimeTimespec = _
    rw [hproc, hB.mktime tm t.tm hfields]
  · change w₂.proc.userFakedTimeSet = true
    rw [hproc]
  · intro hex
    change w₂.proc.ftMode = _
    rw [hproc, show w.proc.ftMode = .noop from hnoop hex]
    rfl
  · intro hex
    change w₂.proc.ftMode = _
    rw [hproc, show w.proc.ftMode = .freeze from hfreeze hex]
    rfl

theorem halts_parseAbsolute (h : B.strptime s w.proc.userFakedTimeFmt Tm.start = none) :
    ∃ msg, (parseAbsolute B s).Halts seq w (.exited 1 msg) := by
  have hdate : parsedDate B w.proc.userFakedTimeFmt [] s = none := by
    rw [parsedDate, h]
  obtain ⟨msg, hmsg⟩ := halts_parseDate
    (w := { w with proc := { w.proc with ftMode := w.proc.ftMode.stopped } }) hdate
  exact ⟨msg, halts_store hmsg.bind⟩

/-- A date that cannot be read ends the process. -/
theorem Launched.halts_date {t : CalendarTime} (hw : Launched B env w) (ht : t.Prints)
    (he : env .faketime = some t.text)
    (hread : B.strptime t.text (formatOf (env .faketimeFmt)) Tm.start = none) :
    ∃ msg, (firstSetting B).Halts seq w (.exited 1 msg) := by
  obtain ⟨henv, hsaved, hfmt, -⟩ := hw.found
  obtain ⟨c, hhead, hdigit⟩ := CalendarTime.head?_text ht
  have hne : t.text ≠ [] := by
    intro hnil
    rw [hnil] at hhead
    cases hhead
  rw [← hfmt] at hread
  obtain ⟨msg, hmsg⟩ := halts_parseAbsolute (B := B)
    (w := { w.tick with proc := { w.proc with parseConfigFile := false } }) hread
  have hparse : (parseFtString B t.text).Halts seq
      { w.tick with proc := { w.proc with parseConfigFile := false } } (.exited 1 msg) := by
    refine halts_load ?_
    rw [show w.proc.userFakedTimeSaved = [] from hsaved, unchangedSetting_nil hne, if_neg (by simp),
      parseByPrefix_of_isDigit hhead hdigit]
    exact hmsg.bind.bind
  refine ⟨msg, ?_⟩
  unfold firstSetting
  have hask := henv w.now .faketime
  rw [he] at hask
  unfold Halts
  rw [getenv, run_ask rfl hask]
  exact halts_store hparse

end Taken

/-! ### A C library in UTC -/

instance (t : CalendarTime) : Decidable t.Valid :=
  decidable_of_iff (t.year < 10000 ∧ (1 ≤ t.month ∧ t.month ≤ 12) ∧ (1 ≤ t.day ∧ t.day ≤ 31) ∧
      t.hour < 24 ∧ t.minute < 60 ∧ t.second ≤ 60)
    ⟨fun ⟨h₁, h₂, h₃, h₄, h₅, h₆⟩ => ⟨h₁, h₂, h₃, h₄, h₅, h₆⟩,
      fun h => ⟨h.year, h.month, h.day, h.hour, h.minute, h.second⟩⟩

/-- The time that a text is the date of. -/
def readDate (s : CStr) : Option CalendarTime :=
  if (numbersIn s).text = s ∧ (numbersIn s).Valid then some (numbersIn s) else none

/-- The days from the epoch to a day; the years begin in March, and `m` counts from there. -/
def daysFromEpoch (y m d : ℤ) : ℤ :=
  y * 365 + y / 4 - y / 100 + y / 400 + (153 * m + 2) / 5 + d - 719469

/-- A C library in UTC that knows the default format. -/
def utcBuild : Build where
  strptime s fmt start := if fmt = "%Y-%m-%d %T".toList then
    (readDate s).map fun t => ({ t.tm with tmIsdst := start.tmIsdst }, []) else none
  mktime tm :=
    (if tm.tmMon < 2 then daysFromEpoch (tm.tmYear + 1899) (tm.tmMon + 10) tm.tmMday
      else daysFromEpoch (tm.tmYear + 1900) (tm.tmMon - 2) tm.tmMday) * 86400 +
      tm.tmHour * 3600 + tm.tmMin * 60 + tm.tmSec
  pthreadSinglethreadedTime := false
  progname := "date".toList
  retries := 1

section Utc

variable {t : CalendarTime}

theorem CalendarTime.Valid.prints (h : t.Valid) : t.Prints where
  year := h.year
  month := by have := h.month; omega
  day := by have := h.day; omega
  hour := by have := h.hour; omega
  minute := by have := h.minute; omega
  second := by have := h.second; omega

theorem readDate_text (h : t.Valid) : readDate t.text = some t := by
  unfold readDate
  rw [h.prints.numbersIn_text]
  exact if_pos ⟨rfl, h⟩

theorem utcBuild_readsDates : ReadsDates utcBuild where
  strptime t ht := by
    have hfmt : utcBuild.strptime t.text "%Y-%m-%d %T".toList Tm.start =
        (readDate t.text).map fun t => ({ t.tm with tmIsdst := -1 }, []) := by
      simp only [utcBuild, if_true]
      rfl
    refine ⟨{ t.tm with tmIsdst := -1 }, ?_, rfl⟩
    rw [hfmt, readDate_text ht]
    rfl
  mktime tm tm' h := by
    simp only [Tm.fields, List.cons.injEq, and_true] at h
    obtain ⟨hsec, hmin, hhour, hmday, hmon, hyear, -⟩ := h
    simp only [utcBuild, hsec, hmin, hhour, hmday, hmon, hyear]

end Utc

/-! ### The two programs agree -/

/-- **The library takes over what the wrapper has written.** In a program that the wrapper has
started, and that has come to the setting, a distance of at most `2 ^ 53` seconds is taken over
exactly, whatever else is in the environment; and a date is, if the environment lets it be read.
The clock runs from the first and stands at the second, unless the environment excludes the
program. -/
theorem wrapper_and_library_agree {B : Build} {o : Options} {arg value : CStr} {d : DateRun}
    {now : ℤ}
    {env : EnvVar → Option CStr} {w : World} (hB : ReadsDates B) (hdirect : o.useDirect = false)
    (hvalue : faketimeValue o arg d now = .ok value)
    (hw : Launched B (childEnv o env value) w) :
    (o.freezeClock = false → ∃ seconds, parseDateSeconds d.buf = some seconds ∧
      (|seconds - now| ≤ 2 ^ 53 → (firstSetting B).Runs seq w fun _ w' =>
        w'.proc.userOffset = ⟨seconds - now, 0⟩ ∧ (Excludes B env → w'.proc.ftMode = .noop) ∧
          (¬ Excludes B env → w'.proc.ftMode = .startAt))) ∧
    (o.freezeClock = true → ∃ t : CalendarTime, t.Prints ∧ d.buf.rdropWhile isspace = t.text ∧
      (t.Fits B env → (firstSetting B).Runs seq w fun _ w' =>
        w'.proc.userFakedTimeTimespec = ⟨B.mktime t.tm, 0⟩ ∧ w'.proc.userFakedTimeSet = true ∧
          (Excludes B env → w'.proc.ftMode = .noop) ∧
            (¬ Excludes B env → w'.proc.ftMode = .freeze))) := by
  constructor
  · intro hfreeze
    obtain ⟨seconds, hseconds, rfl⟩ := exists_of_faketimeValue hdirect hfreeze hvalue
    exact ⟨seconds, hseconds, fun h => hw.runs_offset rfl h⟩
  · intro hfreeze
    obtain ⟨hbuf, t, ht, rfl⟩ := exists_of_faketimeValue_freeze hdirect hfreeze hvalue
    refine ⟨t, ht, hbuf.symm, fun h => ?_⟩
    have hfits : t.Fits B (childEnv o env t.text) := h
    have hruns := hw.runs_date hB ht rfl hfits
    exact hruns

/-! ### A program started in UTC -/

/-- No option, or `--freeze` alone. -/
def wrapperOptions (freeze : Bool) : Options := ⟨false, freeze, false, false⟩

/-- The world of the program before it is initialized. -/
def launchWorld (env : EnvVar → Option CStr) : World :=
  calmWorld env (fun _ _ => ⟨50, 999⟩) ⟨0, 0⟩ Proc.initial

/-- A hundred seconds from now, and a day in February at which the clock stands. -/
theorem wrapper_and_library_agree_in_utc :
    (∃ w, Launched utcBuild (childEnv (wrapperOptions false) (fun _ => none) "+100".toList) w ∧
      (firstSetting utcBuild).Runs seq w fun _ w' =>
        w'.proc.userOffset = ⟨100, 0⟩ ∧ w'.proc.ftMode = .startAt) ∧
    ∃ w, Launched utcBuild
        (childEnv (wrapperOptions true) (fun _ => none) "2024-02-29 12:34:56".toList) w ∧
      (firstSetting utcBuild).Runs seq w fun _ w' =>
        w'.proc.userFakedTimeTimespec = ⟨1709210096, 0⟩ ∧ w'.proc.ftMode = .freeze := by
  have hfree : ¬ Excludes utcBuild fun _ => none := by
    rintro (⟨_, ⟨⟩, -⟩ | ⟨_, ⟨⟩, -⟩)
  constructor
  · have hw : ∃ w, Launched utcBuild
        (childEnv (wrapperOptions false) (fun _ => none) "+100".toList) w :=
      ⟨_, launchWorld _, false, rfl, fun _ _ => rfl, rfl⟩
    obtain ⟨w, hw⟩ := hw
    have hvalue : faketimeValue (wrapperOptions false) [] ⟨"1700000100\n".toList, true⟩ 1700000000 =
        .ok "+100".toList := rfl
    obtain ⟨seconds, hseconds, hruns⟩ :=
      (wrapper_and_library_agree utcBuild_readsDates rfl hvalue hw).1 rfl
    have hread : parseDateSeconds (DateRun.buf ⟨"1700000100\n".toList, true⟩) =
        some 1700000100 := rfl
    obtain rfl := Option.some.inj (hread.symm.trans hseconds)
    exact ⟨w, hw, (hruns (by norm_num)).mono fun _ _ h => ⟨h.1, h.2.2 hfree⟩⟩
  · have hw : ∃ w, Launched utcBuild
        (childEnv (wrapperOptions true) (fun _ => none) "2024-02-29 12:34:56".toList) w :=
      ⟨_, launchWorld _, false, rfl, fun _ _ => rfl, rfl⟩
    obtain ⟨w, hw⟩ := hw
    have hvalue : faketimeValue (wrapperOptions true) [] ⟨"2024-02-29 12:34:56\n".toList, true⟩ 0 =
        .ok "2024-02-29 12:34:56".toList := rfl
    obtain ⟨t, ht, htext, hruns⟩ :=
      (wrapper_and_library_agree utcBuild_readsDates rfl hvalue hw).2 rfl
    obtain rfl : t = ⟨2024, 2, 29, 12, 34, 56⟩ := by
      rw [← ht.numbersIn_text, ← htext]
      rfl
    have hvalid : CalendarTime.Valid ⟨2024, 2, 29, 12, 34, 56⟩ := by decide
    exact ⟨w, hw, (hruns (Or.inl ⟨rfl, hvalid⟩)).mono fun _ _ h => ⟨h.1, h.2.2.2 hfree⟩⟩

/-- The environment of `FAKETIME_SKIP_CMDS=date`. -/
def skipDateEnv : EnvVar → Option CStr
  | .faketimeSkipCmds => some "date".toList
  | _ => none

/-- The environment of `FAKETIME_FMT=%d.%m.%Y`. -/
def germanFmtEnv : EnvVar → Option CStr
  | .faketimeFmt => some "%d.%m.%Y".toList
  | _ => none

/-- A program that the environment excludes keeps its mode. A text in the shape of a date that is
none ends the program, and so does a date if the environment has a format for other dates. -/
theorem environment_comes_between :
    (faketimeValue (wrapperOptions false) [] ⟨"1700000100\n".toList, true⟩ 1700000000 =
        .ok "+100".toList ∧
      ∃ w, Launched utcBuild (childEnv (wrapperOptions false) skipDateEnv "+100".toList) w ∧
        ¬ (firstSetting utcBuild).Runs seq w fun _ w' => w'.proc.ftMode = .startAt) ∧
    (faketimeValue (wrapperOptions true) [] ⟨"2024-13-01 00:00:00\n".toList, true⟩ 0 =
        .ok "2024-13-01 00:00:00".toList ∧
      ∃ w, Launched utcBuild
          (childEnv (wrapperOptions true) (fun _ => none) "2024-13-01 00:00:00".toList) w ∧
        ∃ msg, (firstSetting utcBuild).Halts seq w (.exited 1 msg)) ∧
    faketimeValue (wrapperOptions true) [] ⟨"2024-02-29 12:34:56\n".toList, true⟩ 0 =
        .ok "2024-02-29 12:34:56".toList ∧
      ∃ w, Launched utcBuild
          (childEnv (wrapperOptions true) germanFmtEnv "2024-02-29 12:34:56".toList) w ∧
        ∃ msg, (firstSetting utcBuild).Halts seq w (.exited 1 msg) := by
  have hprints : ∀ t : CalendarTime, (t.year < 10000 ∧ t.month < 100 ∧ t.day < 100 ∧ t.hour < 100 ∧
      t.minute < 100 ∧ t.second < 100) → t.Prints := fun t ⟨h₁, h₂, h₃, h₄, h₅, h₆⟩ =>
    ⟨h₁, h₂, h₃, h₄, h₅, h₆⟩
  refine ⟨⟨rfl, ?_⟩, ⟨rfl, ?_⟩, rfl, ?_⟩
  · have hw : ∃ w,
        Launched utcBuild (childEnv (wrapperOptions false) skipDateEnv "+100".toList) w :=
      ⟨_, launchWorld _, true, rfl, fun _ _ => rfl, rfl⟩
    obtain ⟨w, hw⟩ := hw
    have hex : Excludes utcBuild (childEnv (wrapperOptions false) skipDateEnv "+100".toList) :=
      Or.inl ⟨_, rfl, by decide⟩
    obtain ⟨_, v, hrun, -, hnoop, -⟩ := hw.runs_offset (rfl : _ = some (signedLd 100)) (by norm_num)
    refine ⟨w, hw, ?_⟩
    rintro ⟨_, w', hrun', hmode⟩
    rw [hrun] at hrun'
    cases hrun'
    rw [hnoop hex] at hmode
    cases hmode
  · have hw : ∃ w, Launched utcBuild
        (childEnv (wrapperOptions true) (fun _ => none) "2024-13-01 00:00:00".toList) w :=
      ⟨_, launchWorld _, false, rfl, fun _ _ => rfl, rfl⟩
    obtain ⟨w, hw⟩ := hw
    exact ⟨w, hw, hw.halts_date (t := ⟨2024, 13, 1, 0, 0, 0⟩) (hprints _ (by decide)) rfl rfl⟩
  · have hw : ∃ w, Launched utcBuild
        (childEnv (wrapperOptions true) germanFmtEnv "2024-02-29 12:34:56".toList) w :=
      ⟨_, launchWorld _, false, rfl, fun _ _ => rfl, rfl⟩
    obtain ⟨w, hw⟩ := hw
    exact ⟨w, hw, hw.halts_date (t := ⟨2024, 2, 29, 12, 34, 56⟩) (hprints _ (by decide)) rfl rfl⟩

end LibFaketime
