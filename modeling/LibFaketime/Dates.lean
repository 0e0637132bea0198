import LibFaketime.Grammar

/-!
# Dates

A text that `strptime` reads to its end is a date in the format of the user, and nothing else.
`parse_ft_string` takes the date from `strptime`, but then it looks for a modifier in the whole
text, the date included: an `x` in it begins a rate, and an `i` begins a tick. So a date is just a
date as long as neither is in it (`LibFaketime.date_is_just_a_date_iff`); that one is a Friday is
enough for it not to be accepted (`LibFaketime.friday_is_no_date`).
-/

namespace LibFaketime

open Effects Effects.Prog

/-! ### A new start time -/

/-- A system on which the calls of `parse_ft_string` return and no lock fails. The environment
is `env`. -/
structure Obliging (env : EnvVar → Option CStr) (w : World) : Prop where
  env : ∀ n v, w.os n (.getenv v) = some (env v)
  clock : ∀ n c, ∃ r, w.os n (.realClockGettime c) = some r
  lock : ∀ n, w.os n .ftSemLock = some .acquired
  unlock : ∀ n, w.os n .ftSemUnlock = some true
  semFree : w.semHeld = false

section Restart

variable {env : EnvVar → Option CStr} {w w₁ w' : World}

theorem Obliging.around (h : Obliging env w) (ha : Around w w') : Obliging env w' where
  env := by rw [ha.os]; exact h.env
  clock := by rw [ha.os]; exact h.clock
  lock := by rw [ha.os]; exact h.lock
  unlock := by rw [ha.os]; exact h.unlock
  semFree := ha.semHeld.trans h.semFree

/-- At most the start time is another one. -/
def Restarted (w w' : World) : Prop :=
  Around w w' ∧ ∃ start, w'.proc = { w.proc with ftplStarttime := start }

theorem Restarted.trans (h : Restarted w w₁) (h' : Restarted w₁ w') : Restarted w w' := by
  obtain ⟨ha, start, hproc⟩ := h
  obtain ⟨ha', start', hproc'⟩ := h'
  exact ⟨ha.trans ha', start', by rw [hproc', hproc]⟩

theorem runs_readClock (h : Obliging env w) (c : ClockId)
    (set : Timespec → SystemTime → SystemTime) :
    (readClock c set).Runs seq w fun _ w' => Restarted w w' := by
  obtain ⟨r, hr⟩ := h.clock w.now c
  refine runs_realClockGettime hr ?_
  cases r with
  | some t => exact ⟨_, _, rfl, ⟨rfl, rfl, rfl, rfl, rfl⟩, _, rfl⟩
  | none => exact runs_pure ⟨⟨rfl, rfl, rfl, rfl, rfl⟩, _, rfl⟩

theorem runs_systemTimeFromSystem (h : Obliging env w) :
    systemTimeFromSystem.Runs seq w fun _ w' => Restarted w w' := by
  refine (runs_readClock h _ _).bind fun _ w₁ h₁ => ?_
  refine (runs_readClock (h.around h₁.1) _ _).bind fun _ w₂ h₂ => ?_
  have h₁₂ := h₁.trans h₂
  refine (runs_readClock (h.around h₁₂.1) _ _).bind fun _ w₃ h₃ => ?_
  have h₁₃ := h₁₂.trans h₃
  exact (runs_readClock (h.around h₁₃.1) _ _).mono fun _ w₄ h₄ => h₁₃.trans h₄

theorem runs_publishStarttime (w : World) :
    publishStarttime.Runs seq w fun _ w' => Around w w' ∧ w'.proc = w.proc := by
  refine runs_load ?_
  exact ⟨_, _, rfl, ⟨rfl, rfl, rfl, rfl, rfl⟩, rfl⟩

/-- **`reset_time` sets the start time.** -/
theorem runs_resetTime (h : Obliging env w) :
    resetTime.Runs seq w fun _ w' => Restarted w w' := by
  refine (runs_systemTimeFromSystem h).bind fun _ w₁ h₁ => runs_load ?_
  have ho := h.around h₁.1
  split
  · refine runs_ftSemLock ho.semFree (ho.lock _) ?_
    refine (runs_publishStarttime _).bind fun _ w₂ h₂ => ?_
    obtain ⟨ha, hproc⟩ := h₂
    refine runs_ftSemUnlock ?_ (runs_pure ?_)
    · rw [ha.os]
      exact ho.unlock _
    · refine h₁.trans ⟨⟨ha.os, ha.file, ha.dontFake, ho.semFree.symm, ha.mutexHeld⟩, _, hproc⟩
  · exact runs_pure h₁

end Restart

/-! ### The date -/

section Date

variable {B : Build} {env : EnvVar → Option CStr} {w : World} {lead s : CStr} {t : Timespec}

/-- The time of a date, with its fraction; nothing if there is none to be read. -/
def parsedDate (B : Build) (fmt lead s : CStr) : Option Timespec :=
  match B.strptime s fmt Tm.start with
  | none => none
  | some (tm, rest) =>
    if rest.head? = some '.' then
      (parseFiniteDoublePrefix (fractionText (lead ++ s.take (s.length - rest.length)) rest)).map
        fun x => ⟨B.mktime tm, fractionNsec x.1⟩
    else some ⟨B.mktime tm, 0⟩

/-- The time of a date that is read to its end. -/
theorem parsedDate_of_complete {fmt : CStr} {tm : Tm}
    (h : B.strptime s fmt Tm.start = some (tm, [])) :
    parsedDate B fmt lead s = some ⟨B.mktime tm, 0⟩ := by
  rw [parsedDate, h]
  rfl

theorem runs_parseDate {failure : CStr → String}
    (h : parsedDate B w.proc.userFakedTimeFmt lead s = some t) :
    (parseDate B lead s failure).Runs seq w fun _ w' =>
      Around w w' ∧ w'.proc = { w.proc with userFakedTimeTimespec := t } := by
  refine runs_load ?_
  unfold parsedDate at h
  split at h
  · cases h
  next tm rest hread =>
    dsimp only
    rw [hread]
    refine runs_store ?_
    split at h
    next hpoint =>
      rw [if_pos hpoint]
      obtain ⟨x, hx, rfl⟩ := Option.map_eq_some_iff.mp h
      rw [hx]
      exact ⟨_, _, rfl, ⟨rfl, rfl, rfl, rfl, rfl⟩, rfl⟩
    next hpoint =>
      cases h
      rw [if_neg hpoint]
      exact runs_pure ⟨⟨rfl, rfl, rfl, rfl, rfl⟩, rfl⟩

theorem halts_parseDate {failure : CStr → String}
    (h : parsedDate B w.proc.userFakedTimeFmt lead s = none) :
    ∃ msg, (parseDate B lead s failure).Halts seq w (.exited 1 msg) := by
  unfold parsedDate at h
  unfold parseDate
  split at h
  next hread =>
    refine ⟨failure w.proc.userFakedTimeFmt, halts_load ?_⟩
    dsimp only
    rw [hread]
    rfl
  next tm rest hread =>
    split at h
    next hpoint =>
      have hx := Option.map_eq_none_iff.mp h
      refine ⟨message "libfaketime: invalid fractional timestamp: " (lead ++ s), halts_load ?_⟩
      dsimp only
      rw [hread]
      refine halts_store ?_
      rw [if_pos hpoint, hx]
      rfl
    next => cases h

/-- The mode of an absolute date. An excluded process keeps its own. -/
def FtMode.stopped (mode : FtMode) : FtMode := if mode ≠ .noop then .freeze else mode

/-- **An absolute date stops the clock.** -/
theorem runs_parseAbsolute (h : parsedDate B w.proc.userFakedTimeFmt [] s = some t) :
    (parseAbsolute B s).Runs seq w fun _ w' => Around w w' ∧ w'.proc = { w.proc with
      ftMode := w.proc.ftMode.stopped
      userFakedTimeTimespec := t
      userFakedTimeSet := true } := by
  refine runs_store ((runs_parseDate (t := t) ?_).bind ?_)
  · exact h
  · rintro _ w₁ ⟨ha, hproc⟩
    refine ⟨_, _, rfl, ⟨ha.os, ha.file, ha.dontFake, ha.semHeld, ha.mutexHeld⟩, ?_⟩
    change { w₁.proc with userFakedTimeSet := true } = _
    rw [hproc]
    rfl

/-- **A date after `@` is where the clock starts.** -/
theorem runs_parseStartAt (ho : Obliging env w)
    (h : parsedDate B w.proc.userFakedTimeFmt ['@'] s.tail = some t) :
    (parseStartAt B s).Runs seq w fun _ w' => Around w w' ∧ ∃ start, w'.proc = { w.proc with
      ftMode := .startAt
      userFakedTimeTimespec := t
      ftplStarttime := start } := by
  refine runs_store ((runs_parseDate (t := t) ?_).bind ?_)
  · exact h
  · rintro _ w₁ ⟨ha, hproc⟩
    have ha : Around w w₁ := ⟨ha.os, ha.file, ha.dontFake, ha.semHeld, ha.mutexHeld⟩
    refine runs_getenv ((ho.around ha).env _ _) ?_
    have htick : Around w₁ w₁.tick := ⟨rfl, rfl, rfl, rfl, rfl⟩
    split
    · refine (runs_resetTime ((ho.around ha).around htick)).mono ?_
      rintro _ w₂ ⟨ha', start, hproc'⟩
      refine ⟨ha.trans (htick.trans ha'), start, ?_⟩
      rw [hproc']
      change { w₁.proc with ftplStarttime := start } = _
      rw [hproc]
    · refine runs_pure ⟨ha.trans htick, w.proc.ftplStarttime, ?_⟩
      change w₁.proc = _
      rw [hproc]

end Date

/-! ### Just a date -/

/-- The two ways to give a date. -/
inductive DateKind where
  | frozen
  | started

/-- The text of a date. -/
def DateKind.text (k : DateKind) (s : CStr) : CStr :=
  match k with
  | .frozen => s
  | .started => '@' :: s

/-- The mode of a date, after another one. -/
def DateKind.mode (k : DateKind) (before : FtMode) : FtMode :=
  match k with
  | .frozen => before.stopped
  | .started => .startAt

/-- The text does not begin with a character that selects something else. -/
def BeginsDate (s : CStr) : Prop := ∀ c, s.head? = some c → c ∉ ['+', '-', '@', '%', 'i', 'x']

/-- The date is in effect, where `before` was the mode. -/
def Proc.HasDate (p : Proc) (k : DateKind) (before : FtMode) (t : Timespec) : Prop :=
  p.ftMode = k.mode before ∧ p.userFakedTimeTimespec = t ∧
    match k with
    | .frozen => p.userFakedTimeSet = true
    | .started => True

/-- **The text is accepted as a date**, and is nothing else: the rate and the tick are those
before. -/
def JustADate (B : Build) (w : World) (k : DateKind) (s : CStr) (tm : Tm) : Prop :=
  (parseFtString B (k.text s)).Runs seq w fun _ w' =>
    w'.proc.HasDate k w.proc.ftMode ⟨B.mktime tm, 0⟩ ∧ w'.proc.pace = w.proc.pace

section Letters

variable {s : CStr} {p : Proc} {isSet : Bool} {t : Timespec}

/-- There is an `x` in the text, but what follows it is the rate that is set, and the time is not
moved. -/
def SameRate (s : CStr) (isSet : Bool) (p : Proc) (t : Timespec) : Prop :=
  ∃ rest r, strchr s 'x' = some rest ∧ IsNumber rest.tail r ∧ 0 < r ∧
    (p.userRate = r ∧ p.userRateSet = true) ∧
      (isSet = true ∧ 0 ≤ p.ftplTimecache.real.tvNsec → p.ftplFaketimecache.real = t)

/-- There is an `i` in the text, but what follows it is the tick that is set. -/
def SameTick (s : CStr) (p : Proc) : Prop :=
  strchr s 'x' = none ∧ ∃ rest q, strchr s 'i' = some rest ∧ IsNumber rest.tail q ∧
    InTimeRange q ∧ p.userPerTickInc = floorTimespec q ∧ p.userPerTickIncSet = true

/-- **The letters of the modifiers are not in the text**, or they change nothing. -/
def LettersHarmless (s : CStr) (isSet : Bool) (p : Proc) (t : Timespec) : Prop :=
  ('x' ∉ s ∧ 'i' ∉ s) ∨ SameRate s isSet p t ∨ SameTick s p

theorem strchr_eq_none_iff {c : Char} : strchr s c = none ↔ c ∉ s := by
  refine ⟨mem_of_strchr_eq_none, fun h => ?_⟩
  cases hs : strchr s c with
  | none => rfl
  | some rest => exact absurd (mem_of_strchr hs) h

/-- The base of a process after `FAKETIME_XRESET`. -/
theorem rebase_base_iff : (p.rebase isSet).userFakedTimeTimespec = p.userFakedTimeTimespec ↔
    (isSet = true ∧ 0 ≤ p.ftplTimecache.real.tvNsec →
      p.ftplFaketimecache.real = p.userFakedTimeTimespec) := by
  unfold Proc.rebase
  split
  next h => exact ⟨fun heq _ => heq, fun heq => heq h⟩
  next h => exact iff_of_true rfl fun h' => absurd h' h

/-- **A modifier changes nothing** if it is none, or the one that is set. -/
theorem lettersHarmless_iff (ht : p.userFakedTimeTimespec = t) :
    LettersHarmless s isSet p t ↔ ∃ m, scanned s = some m ∧ m.apply p.pace = p.pace ∧
      (m.assign isSet p).userFakedTimeTimespec = t := by
  subst ht
  unfold LettersHarmless
  rw [← strchr_eq_none_iff, ← strchr_eq_none_iff]
  constructor
  · -- without either letter, with an x, and with an i only
    rintro (⟨hx, hi⟩ | ⟨rest, r, hx, hr, hpos, ⟨hrate, hset⟩, hbase⟩ |
      ⟨hx, rest, q, hi, hq, htime, hinc, hset⟩)
    · refine ⟨.plain, ?_, rfl, rfl⟩
      rw [scanned, hx]
      dsimp only
      rw [hi]
    · refine ⟨.rate r, (scanned_of_x hx).mpr ⟨r, rfl, hr, hpos⟩, ?_, ?_⟩
      · rw [Modifier.apply, ← hrate, ← hset]
        rfl
      · exact rebase_base_iff.mpr hbase
    · refine ⟨.tick q, ?_, ?_, rfl⟩
      · rw [scanned, hx]
        dsimp only
        rw [hi]
        dsimp only
        rw [parseFiniteDouble_iff.mpr hq, Option.bind_some, if_pos htime]
      · rw [Modifier.apply, ← hinc, ← hset]
        rfl
  · rintro ⟨m, hm, hpace, hbase⟩
    cases hx : strchr s 'x' with
    | some rest =>
      obtain ⟨r, rfl, hr, hpos⟩ := (scanned_of_x hx).mp hm
      obtain ⟨hrate, -⟩ := Prod.mk.inj hpace
      obtain ⟨hrate, hset⟩ := Prod.mk.inj hrate
      have hcache :=
        (rebase_base_iff (p := { p with userRate := r, userRateSet := true })).mp hbase
      exact Or.inr (Or.inl ⟨rest, r, hx, hr, hpos, ⟨hrate.symm, hset.symm⟩, hcache⟩)
    | none =>
      rw [scanned, hx] at hm
      dsimp only at hm
      cases hi : strchr s 'i' with
      | none => exact Or.inl ⟨rfl, rfl⟩
      | some rest =>
        rw [hi] at hm
        obtain ⟨q, hq, hm⟩ := Option.bind_eq_some_iff.mp hm
        split at hm
        next htime =>
          cases hm
          obtain ⟨-, htick⟩ := Prod.mk.inj hpace
          obtain ⟨hinc, hset⟩ := Prod.mk.inj htick
          exact Or.inr (Or.inr ⟨hx, rest, q, hi, parseFiniteDouble_iff.mp hq, htime, hinc.symm,
            hset.symm⟩)
        next => cases hm

end Letters

/-! ### The whole text -/

/-- A text is new to a process that has met none. -/
theorem unchangedSetting_nil {s : CStr} (h : s ≠ []) : unchangedSetting s [] = false := by
  have htake : (s.take bufferlen == ([] : CStr).take bufferlen) = false := by
    rw [List.take_nil, beq_eq_false_iff_ne, Ne, List.take_eq_nil_iff]
    rintro (h0 | h0)
    · exact absurd h0 (by decide)
    · exact h h0
  rw [unchangedSetting, htake, Bool.false_and]

section Text

variable {B : Build} {env : EnvVar → Option CStr} {w : World} {s : CStr} {tm : Tm} {k : DateKind}

theorem scanned_text (k : DateKind) (s : CStr) : scanned (k.text s) = scanned s := by
  have hcons : ∀ c, c ≠ '@' → strchr ('@' :: s) c = strchr s c := by
    intro c hc
    have hdrop : ('@' :: s).dropWhile (· ≠ c) = s.dropWhile (· ≠ c) :=
      List.dropWhile_cons_of_pos (decide_eq_true fun h => hc h.symm)
    rw [strchr, strchr, hdrop]
  cases k with
  | frozen => rfl
  | started =>
    unfold DateKind.text scanned
    dsimp only
    rw [hcons _ (by decide), hcons _ (by decide)]

theorem parseByPrefix_of_date (h : BeginsDate s) :
    parseByPrefix B s = parseAbsolute B s >>= fun _ => parseModifiers s := by
  unfold parseByPrefix
  split
  all_goals first
    | rfl
    | next hs => exact absurd (h _ hs) (by decide)

/-- What a date makes of a process, apart from its modifier. -/
def Proc.dated (p : Proc) (k : DateKind) (t : Timespec) : Proc :=
  match k with
  | .frozen => { p with
      ftMode := p.ftMode.stopped
      userFakedTimeTimespec := t
      userFakedTimeSet := true }
  | .started => { p with ftMode := .startAt, userFakedTimeTimespec := t }

/-- **The date is read**, and then the modifier is looked for. -/
theorem parseByPrefix_date (ho : Obliging env w) (hs : BeginsDate s)
    (hread : B.strptime s w.proc.userFakedTimeFmt Tm.start = some (tm, [])) :
    ∃ w₁, Around w w₁ ∧
      (∃ start, w₁.proc = { w.proc.dated k ⟨B.mktime tm, 0⟩ with ftplStarttime := start }) ∧
        (parseByPrefix B (k.text s)).run seq w = (parseModifiers (k.text s)).run seq w₁ := by
  cases k with
  | frozen =>
    obtain ⟨_, w₁, hr, ha, hproc⟩ := runs_parseAbsolute (w := w) (parsedDate_of_complete hread)
    refine ⟨w₁, ha, ⟨w.proc.ftplStarttime, hproc⟩, ?_⟩
    rw [show DateKind.frozen.text s = s from rfl, parseByPrefix_of_date hs, run_bind, hr]
    rfl
  | started =>
    obtain ⟨_, w₁, hr, ha, hproc⟩ := runs_parseStartAt (s := '@' :: s) ho
      (parsedDate_of_complete hread)
    refine ⟨w₁, ha, hproc, ?_⟩
    change (parseStartAt B ('@' :: s) >>= fun _ => parseModifiers ('@' :: s)).run seq w = _
    rw [run_bind, hr]
    rfl

/-- The text that was applied is saved. -/
def saveText (s : CStr) : Sys Unit :=
  store fun p => { p with userFakedTimeSaved := s.take (bufferlen - 1) }

/-- **A new text** is read as a date, looked through for a modifier, and saved. -/
theorem parseFtString_date (ho : Obliging env w) (hs : BeginsDate s)
    (hread : B.strptime s w.proc.userFakedTimeFmt Tm.start = some (tm, []))
    (hnew : unchangedSetting (k.text s) w.proc.userFakedTimeSaved = false) :
    ∃ w₁, Around w w₁ ∧
      (∃ start, w₁.proc = { w.proc.dated k ⟨B.mktime tm, 0⟩ with ftplStarttime := start }) ∧
        (parseFtString B (k.text s)).run seq w =
          (parseModifiers (k.text s) >>= fun _ => saveText (k.text s)).run seq w₁ := by
  obtain ⟨w₁, ha, hproc, hrun⟩ := parseByPrefix_date (k := k) ho hs hread
  refine ⟨w₁, ha, hproc, ?_⟩
  unfold parseFtString
  rw [run_load, hnew, if_neg (by simp), run_bind, hrun, run_bind]
  rfl

/-- If what follows a letter is no modifier, the process exits. -/
theorem halts_date (ho : Obliging env w) (hs : BeginsDate s)
    (hread : B.strptime s w.proc.userFakedTimeFmt Tm.start = some (tm, []))
    (hnew : unchangedSetting (k.text s) w.proc.userFakedTimeSaved = false)
    (hm : scanned s = none) :
    ∃ msg, (parseFtString B (k.text s)).Halts seq w (.exited 1 msg) := by
  obtain ⟨w₁, -, -, hrun⟩ := parseFtString_date (k := k) ho hs hread hnew
  obtain ⟨msg, hmsg⟩ := halts_parseModifiers (w := w₁) ((scanned_text k s).trans hm)
  exact ⟨msg, hrun.trans hmsg.bind⟩

theorem not_justADate_of_halts {msg : String}
    (h : (parseFtString B (k.text s)).Halts seq w (.exited 1 msg)) : ¬ JustADate B w k s tm := by
  rintro ⟨_, w', hr, -⟩
  exact h.ends (Q := fun _ _ => False) _ _ hr

/-- The text has been applied already, and the date is in effect. -/
def DateStands (B : Build) (k : DateKind) (p : Proc) (tm : Tm) : Prop :=
  p.HasDate k p.ftMode ⟨B.mktime tm, 0⟩

/-- **When a date is just a date**: if the text is new, no letter of it is taken for a modifier
that changes something; and if it is the one applied last, the date is still in effect. -/
def DateIsSafe (B : Build) (env : EnvVar → Option CStr) (p : Proc) (k : DateKind) (s : CStr)
    (tm : Tm) : Prop :=
  if unchangedSetting (k.text s) p.userFakedTimeSaved then DateStands B k p tm
  else LettersHarmless s (env .faketimeXreset).isSome p ⟨B.mktime tm, 0⟩

theorem lettersHarmless_dated (k : DateKind) (start : SystemTime) {isSet : Bool} {p : Proc}
    {t : Timespec} : LettersHarmless s isSet { p.dated k t with ftplStarttime := start } t ↔
      LettersHarmless s isSet p t := by
  cases k <;> exact Iff.rfl

/-- A date is just a date, in a text that is new. -/
theorem justADate_iff_of_new (ho : Obliging env w) (hs : BeginsDate s)
    (hread : B.strptime s w.proc.userFakedTimeFmt Tm.start = some (tm, []))
    (hnew : unchangedSetting (k.text s) w.proc.userFakedTimeSaved = false) :
    JustADate B w k s tm ↔
      LettersHarmless s (env .faketimeXreset).isSome w.proc ⟨B.mktime tm, 0⟩ := by
  obtain ⟨w₁, ha, ⟨start, hproc⟩, hrun⟩ := parseFtString_date (k := k) ho hs hread hnew
  have hbase : w₁.proc.userFakedTimeTimespec = ⟨B.mktime tm, 0⟩ := by
    rw [hproc]
    cases k <;> rfl
  have hpace : w₁.proc.pace = w.proc.pace := by
    rw [hproc]
    cases k <;> rfl
  rw [← lettersHarmless_dated k start, ← hproc, lettersHarmless_iff hbase]
  cases hm : scanned s with
  | none =>
    obtain ⟨msg, hmsg⟩ := halts_date (k := k) ho hs hread hnew hm
    refine iff_of_false (not_justADate_of_halts hmsg) ?_
    rintro ⟨m, hm', -⟩
    cases hm'
  | some m =>
    obtain ⟨_, w₂, hr, ha', hassign⟩ := runs_assign ((ho.around ha).env w₁.now .faketimeXreset)
      ((scanned_text k s).trans hm)
    have hparse : (parseFtString B (k.text s)).run seq w =
        .ok ((), { w₂ with proc := { w₂.proc with
          userFakedTimeSaved := (k.text s).take (bufferlen - 1) } }) := by
      rw [hrun, run_bind, hr]
      rfl
    -- only the rate, the tick, the base and the start time can have changed
    have hkeeps : w₂.proc.HasDate k w.proc.ftMode ⟨B.mktime tm, 0⟩ ↔
        w₂.proc.userFakedTimeTimespec = ⟨B.mktime tm, 0⟩ := by
      obtain ⟨base, start', hexp⟩ := m.exists_assign (env .faketimeXreset).isSome w₁.proc
      rw [hassign, hexp, hproc]
      cases k with
      | frozen => exact ⟨fun h => h.2.1, fun h => ⟨rfl, h, rfl⟩⟩
      | started => exact ⟨fun h => h.2.1, fun h => ⟨rfl, h, trivial⟩⟩
    unfold JustADate Runs
    rw [hparse]
    constructor
    · rintro ⟨_, _, ⟨⟩, hdate, hp⟩
      refine ⟨m, rfl, ?_, ?_⟩
      · rw [← pace_assign m (env .faketimeXreset).isSome, ← hassign, hpace]
        exact hp
      · rw [← hassign]
        exact hkeeps.mp hdate
    · rintro ⟨m', hm', hp, ht⟩
      obtain rfl := Option.some.inj hm'
      refine ⟨_, _, rfl, hkeeps.mpr (hassign ▸ ht), ?_⟩
      rw [← pace_assign m (env .faketimeXreset).isSome, ← hassign, hpace] at hp
      exact hp

/-- **A date that `strptime` reads to its end is just a date, absolute or after `@`, if and only
if no letter of it is taken for a modifier that changes something.** The text is any, and so is the
process; what was applied last is not applied again, and then the date must still be in
effect. -/
theorem date_is_just_a_date_iff (ho : Obliging env w) (hs : BeginsDate s)
    (hread : B.strptime s w.proc.userFakedTimeFmt Tm.start = some (tm, [])) :
    (∀ k, JustADate B w k s tm) ↔ ∀ k, DateIsSafe B env w.proc k s tm := by
  refine forall_congr' fun k => ?_
  unfold DateIsSafe
  cases hnew : unchangedSetting (k.text s) w.proc.userFakedTimeSaved with
  | false =>
    rw [if_neg (by simp)]
    exact justADate_iff_of_new ho hs hread hnew
  | true =>
    rw [if_pos rfl]
    have hrun : (parseFtString B (k.text s)).run seq w = .ok ((), w) := by
      unfold parseFtString
      rw [run_load, hnew, if_pos rfl]
      rfl
    unfold JustADate Runs
    rw [hrun]
    constructor
    · rintro ⟨_, _, ⟨⟩, hdate, -⟩
      exact hdate
    · exact fun hdate => ⟨_, _, rfl, hdate, rfl⟩

theorem obliging_calmWorld (env : EnvVar → Option CStr) (clock : ℕ → ClockId → Timespec)
    (mtime : Timespec) (p : Proc) : Obliging env (calmWorld env clock mtime p) where
  env _ _ := rfl
  clock n c := ⟨some (clock n c), rfl⟩
  lock _ := rfl
  unlock _ := rfl
  semFree := rfl

end Text

/-- A process with a date format, that has read no setting yet. -/
def formatWorld (fmt : CStr) : World :=
  calmWorld (fun _ => none) (fun _ _ => ⟨60, 0⟩) ⟨0, 0⟩
    { Proc.initial with userFakedTimeFmt := fmt }

/-- A date in the format of the library. -/
theorem date_is_just_a_date_of_digits :
    JustADate epochBuild (formatWorld "%Y-%m-%d %T".toList) .frozen
        "1970-01-01 00:01:40".toList ⟨40, 1, 0, 1, 0, 70, 4, 0, -1⟩ ∧
      JustADate epochBuild (formatWorld "%Y-%m-%d %T".toList) .started
        "1970-01-01 00:01:40".toList ⟨40, 1, 0, 1, 0, 70, 4, 0, -1⟩ := by
  have hread : epochBuild.strptime "1970-01-01 00:01:40".toList "%Y-%m-%d %T".toList Tm.start =
      some (⟨40, 1, 0, 1, 0, 70, 4, 0, -1⟩, []) := rfl
  have hdate := (date_is_just_a_date_iff
    (obliging_calmWorld _ _ _ _ : Obliging _ (formatWorld "%Y-%m-%d %T".toList)) ?_ hread).mpr ?_
  · exact ⟨hdate .frozen, hdate .started⟩
  · intro c hc
    obtain rfl := Option.some.inj hc
    decide
  · intro k
    cases k with
    | frozen => exact Or.inl ⟨by decide, by decide⟩
    | started => exact Or.inl ⟨by decide, by decide⟩

/-- A Friday, as `date` prints it. -/
def friday : CStr := "Fri Jan  2 00:00:00 1970".toList

/-- A C library in UTC, as far as this Friday is concerned. -/
def fridayBuild : Build :=
  { plainBuild with
    strptime := fun s fmt _ =>
      if s = friday ∧ fmt = "%c".toList then some (⟨0, 0, 0, 2, 0, 70, 5, 1, -1⟩, []) else none
    mktime := fun _ => 86400 }

/-- **A Friday is not accepted**: with the `i` of its name a tick begins. -/
theorem friday_is_no_date :
    fridayBuild.strptime friday "%c".toList Tm.start =
        some (⟨0, 0, 0, 2, 0, 70, 5, 1, -1⟩, []) ∧
      BeginsDate friday ∧
      ∀ k : DateKind,
        (∃ msg, (parseFtString fridayBuild (k.text friday)).Halts seq (formatWorld "%c".toList)
          (.exited 1 msg)) ∧
        ¬ JustADate fridayBuild (formatWorld "%c".toList) k friday
          ⟨0, 0, 0, 2, 0, 70, 5, 1, -1⟩ := by
  have hread : fridayBuild.strptime friday "%c".toList Tm.start =
      some (⟨0, 0, 0, 2, 0, 70, 5, 1, -1⟩, []) := by
    change (if friday = friday ∧ "%c".toList = "%c".toList then _ else none) = _
    exact if_pos ⟨rfl, rfl⟩
  have hbegins : BeginsDate friday := by
    intro c hc
    obtain rfl := Option.some.inj hc
    decide
  refine ⟨hread, hbegins, fun k => ?_⟩
  have hnew : unchangedSetting (k.text friday) [] = false := by
    cases k with
    | frozen => decide +kernel
    | started => decide +kernel
  obtain ⟨msg, hmsg⟩ := halts_date (k := k)
    (obliging_calmWorld _ _ _ _ : Obliging _ (formatWorld "%c".toList)) hbegins hread hnew
    (by decide +kernel)
  exact ⟨⟨msg, hmsg⟩, not_justADate_of_halts hmsg⟩

end LibFaketime
