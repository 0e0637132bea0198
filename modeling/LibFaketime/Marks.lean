import LibFaketime.Dates

/-!
# What a text leaves behind

Of the variables of a process most are set by every text that is applied. Three are not: the
mode, the flag of an absolute time, and the rate and the tick with their flags. What one text sets
there another one finds (`LibFaketime.Marks`), and nothing clears the flags again.

A text is accepted or not by itself (`LibFaketime.Accepts`), with one exception: once an absolute
time has been set, the modifiers of a followed file are not looked at. If it is accepted, what it
leaves behind is a function of what was there (`LibFaketime.Marks.after`).
-/

namespace LibFaketime

open Effects Effects.Prog

/-! ### The marks of a process -/

/-- **What a text finds from those before it.** -/
structure Marks where
  mode : FtMode
  /-- `user_faked_time_set`. -/
  timeSet : Bool
  /-- The rate and the tick. -/
  pace : (ℚ × Bool) × Timespec × Bool

/-- The marks of a process. -/
def Proc.marks (p : Proc) : Marks := ⟨p.ftMode, p.userFakedTimeSet, p.pace⟩

/-- A process with other marks, and with some times that come with them. -/
def Proc.marked (p : Proc) (M : Marks) (base offset : Timespec) (start : SystemTime) : Proc :=
  { p with
    ftMode := M.mode
    userFakedTimeSet := M.timeSet
    userRate := M.pace.1.1
    userRateSet := M.pace.1.2
    userPerTickInc := M.pace.2.1
    userPerTickIncSet := M.pace.2.2
    userFakedTimeTimespec := base
    userOffset := offset
    ftplStarttime := start }

/-- Nothing has changed but the marks, and some times. -/
def Marked (w w' : World) (M : Marks) : Prop :=
  Around w w' ∧ ∃ base offset start, w'.proc = w.proc.marked M base offset start

@[simp] theorem Proc.marks_marked (p : Proc) (M : Marks) (base offset : Timespec)
    (start : SystemTime) : (p.marked M base offset start).marks = M := rfl

@[simp] theorem Proc.marked_marked (p : Proc) (M M' : Marks) (b b' o o' : Timespec)
    (t t' : SystemTime) : (p.marked M b o t).marked M' b' o' t' = p.marked M' b' o' t' := rfl

section Marked

variable {w w₁ w' : World} {M M' : Marks}

theorem Marked.trans (h : Marked w w₁ M) (h' : Marked w₁ w' M') : Marked w w' M' := by
  obtain ⟨ha, base, offset, start, hproc⟩ := h
  obtain ⟨ha', base', offset', start', hproc'⟩ := h'
  exact ⟨ha.trans ha', base', offset', start', by rw [hproc', hproc, Proc.marked_marked]⟩

theorem Marked.marks (h : Marked w w' M) : w'.proc.marks = M := by
  obtain ⟨-, base, offset, start, hproc⟩ := h
  rw [hproc, Proc.marks_marked]

theorem Restarted.marked (h : Restarted w w') : Marked w w' w.proc.marks := by
  obtain ⟨ha, start, hproc⟩ := h
  exact ⟨ha, w.proc.userFakedTimeTimespec, w.proc.userOffset, start, hproc⟩

end Marked

/-! ### The kinds of texts -/

/-- What the first character of a text selects. -/
inductive TextKind where
  | absolute
  | offset
  | startAt
  | follow
  | modifiers
deriving DecidableEq, Repr

/-- The kind of a text. -/
def kindOf (s : CStr) : TextKind :=
  match s.head? with
  | some '+' | some '-' => .offset
  | some '@' => .startAt
  | some '%' => .follow
  | some 'i' | some 'x' => .modifiers
  | _ => .absolute

/-- The part of a text before its modifier is accepted. -/
def FirstPart (B : Build) (env : EnvVar → Option CStr) (files : CStr → Option Timespec)
    (fmt s : CStr) : Prop :=
  match kindOf s with
  | .absolute => parsedDate B fmt [] s ≠ none
  | .offset => ∃ q unit M, OffsetPart s q unit M
  | .startAt => parsedDate B fmt ['@'] s.tail ≠ none
  | .follow => (env .faketimeFollowFile).bind files ≠ none
  | .modifiers => True

/-- The modifiers of a text are looked at, where `timeSet` says that an absolute time has been
set. -/
def ModifiersRead (env : EnvVar → Option CStr) (timeSet : Bool) (s : CStr) : Prop :=
  kindOf s = .follow → timeSet = false ∧ env .faketimeFollowAbsolute = none

instance (env : EnvVar → Option CStr) (timeSet : Bool) (s : CStr) :
    Decidable (ModifiersRead env timeSet s) :=
  inferInstanceAs (Decidable (_ → _))

/-- **A text is accepted**: its first part is, and so is its modifier if it is looked at. -/
def Accepts (B : Build) (env : EnvVar → Option CStr) (files : CStr → Option Timespec)
    (fmt : CStr) (timeSet : Bool) (s : CStr) : Prop :=
  FirstPart B env files fmt s ∧ (ModifiersRead env timeSet s → scanned s ≠ none)

/-- What is accepted by a process without an absolute time is accepted by any other. -/
theorem Accepts.of_timeSet {B : Build} {env : EnvVar → Option CStr}
    {files : CStr → Option Timespec} {fmt s : CStr} (h : Accepts B env files fmt false s)
    (timeSet : Bool) : Accepts B env files fmt timeSet s :=
  ⟨h.1, fun hread => h.2 fun hk => ⟨rfl, (hread hk).2⟩⟩

/-- The modifier of a text is applied. -/
def Marks.modified (s : CStr) (M : Marks) : Marks :=
  { M with pace := ((scanned s).getD .plain).apply M.pace }

/-- What a followed file does to the marks, apart from its modifiers. -/
def Marks.followed (env : EnvVar → Option CStr) (M : Marks) : Marks :=
  if env .faketimeFollowAbsolute = none then { M with mode := .startAt }
  else { M with mode := .freeze, timeSet := true }

theorem Marks.timeSet_followed {env : EnvVar → Option CStr} {M : Marks} :
    (M.followed env).timeSet = false ↔ M.timeSet = false ∧ env .faketimeFollowAbsolute = none := by
  unfold Marks.followed
  split
  next h => exact ⟨fun hset => ⟨hset, h⟩, And.left⟩
  next h => exact iff_of_false (by simp) fun h' => h h'.2

/-- **What a text that is accepted makes of the marks.** -/
def Marks.after (env : EnvVar → Option CStr) (s : CStr) (M : Marks) : Marks :=
  match kindOf s with
  | .absolute => Marks.modified s ⟨M.mode.stopped, true, M.pace⟩
  | .offset => Marks.modified s { M with mode := M.mode.started }
  | .startAt => Marks.modified s { M with mode := .startAt }
  | .follow =>
    if (M.followed env).timeSet = true then M.followed env else (M.followed env).modified s
  | .modifiers => M.modified s

/-- No text leads to a mode that fakes nothing. -/
theorem Marks.mode_after_ne {env : EnvVar → Option CStr} {s : CStr} {M : Marks}
    (h : M.mode ≠ .noop) : (M.after env s).mode ≠ .noop := by
  unfold Marks.after Marks.modified Marks.followed FtMode.stopped FtMode.started
  rw [if_pos h, if_pos h]
  split
  · exact FtMode.noConfusion
  · exact FtMode.noConfusion
  · exact FtMode.noConfusion
  · split
    · split <;> exact FtMode.noConfusion
    · split <;> exact FtMode.noConfusion
  · exact h

/-- The cases of `LibFaketime.parseByPrefix`. -/
def parseKind (B : Build) (s : CStr) : TextKind → Sys Unit
  | .absolute => parseAbsolute B s >>= fun _ => parseModifiers s
  | .offset => parseOffset s >>= fun _ => parseModifiers s
  | .startAt => parseStartAt B s >>= fun _ => parseModifiers s
  | .follow => parseFollow s
  | .modifiers => parseModifiers s

theorem parseByPrefix_eq (B : Build) (s : CStr) :
    parseByPrefix B s = parseKind B s (kindOf s) := by
  unfold parseByPrefix kindOf
  generalize s.head? = first
  split
  case h_7 hp hm hat hpercent hi hx =>
    -- none of the characters, so the default case on the other side too
    simp only [parseKind]
  all_goals rfl

/-! ### A text is applied -/

section Applied

variable {B : Build} {env : EnvVar → Option CStr} {files : CStr → Option Timespec} {w : World}
  {s : CStr}

theorem runs_modified (ho : Obliging env w) (h : scanned s ≠ none) :
    (parseModifiers s).Runs seq w fun _ w' => Marked w w' (w.proc.marks.modified s) := by
  obtain ⟨m, hm⟩ := Option.ne_none_iff_exists'.mp h
  refine (runs_assign (ho.env w.now .faketimeXreset) hm).mono ?_
  rintro _ w' ⟨ha, hproc⟩
  obtain ⟨base, start, hassign⟩ := m.exists_assign (env .faketimeXreset).isSome w.proc
  refine ⟨ha, base, w.proc.userOffset, start, ?_⟩
  rw [hproc, hassign, Marks.modified, hm]
  rfl

/-- A first part, and then the modifier. -/
theorem runs_bind_modified {p : Sys Unit} {M : Marks} (ho : Obliging env w)
    (hp : p.Runs seq w fun _ w' => Marked w w' M) (h : scanned s ≠ none) :
    (p >>= fun _ => parseModifiers s).Runs seq w fun _ w' => Marked w w' (M.modified s) := by
  refine hp.bind fun _ w₁ h₁ => ?_
  refine (runs_modified (ho.around h₁.1) h).mono fun _ w' h' => ?_
  rw [h₁.marks] at h'
  exact h₁.trans h'

/-- If the modifier is none, it is the end of the process. -/
theorem halts_bind_modifiers {p : Sys Unit} {Q : Unit → World → Prop} (hp : p.Runs seq w Q)
    (h : scanned s = none) :
    ∃ msg, (p >>= fun _ => parseModifiers s).Halts seq w (.exited 1 msg) := by
  obtain ⟨_, w₁, hr, -⟩ := hp
  obtain ⟨msg, hmsg⟩ := halts_parseModifiers (w := w₁) h
  refine ⟨msg, ?_⟩
  rw [Halts, run_bind, hr]
  exact hmsg

/-- The end of `LibFaketime.parseFollow`, after the start time. -/
def followModifiers (s : CStr) : Sys Unit :=
  load >>= fun p => if p.userFakedTimeSet = true then pure () else parseModifiers s

/-- The end of `LibFaketime.parseFollow`, after the time of the file. -/
def followEnd (s : CStr) : Sys Unit :=
  getenv .faketimeDontReset >>= fun e =>
    if e.isNone = true then resetTime >>= fun _ => followModifiers s else followModifiers s

/-- The end of a followed file runs as far as its modifiers. -/
theorem run_followEnd (ho : Obliging env w) : ∃ w₁, Marked w w₁ w.proc.marks ∧
    (followEnd s).run seq w = (followModifiers s).run seq w₁ := by
  have htick : Around w w.tick := ⟨rfl, rfl, rfl, rfl, rfl⟩
  have hget : (followEnd s).run seq w = (if (env .faketimeDontReset).isNone = true then
      resetTime >>= fun _ => followModifiers s else followModifiers s).run seq w.tick :=
    run_ask (w := w) (o := .getenv .faketimeDontReset) rfl (ho.env _ _) _
  rw [hget]
  split
  · obtain ⟨_, w₁, hr, ha, hproc⟩ := runs_resetTime (ho.around htick)
    refine ⟨w₁, Restarted.marked ⟨htick.trans ha, hproc⟩, ?_⟩
    rw [run_bind, hr]
    rfl
  · exact ⟨w.tick, Restarted.marked ⟨htick, w.proc.ftplStarttime, rfl⟩, rfl⟩

theorem runs_followEnd (ho : Obliging env w)
    (h : w.proc.userFakedTimeSet = false → scanned s ≠ none) :
    (followEnd s).Runs seq w fun _ w' => Marked w w'
      (if w.proc.userFakedTimeSet = true then w.proc.marks else w.proc.marks.modified s) := by
  obtain ⟨w₁, h₁, hrun⟩ := run_followEnd (s := s) ho
  have hset : w₁.proc.userFakedTimeSet = w.proc.userFakedTimeSet := congrArg Marks.timeSet h₁.marks
  unfold Runs
  rw [hrun]
  refine runs_load ?_
  rw [hset]
  split
  · exact runs_pure h₁
  next hnot =>
    refine (runs_modified (ho.around h₁.1) (h (by simpa using hnot))).mono fun _ w' h' => ?_
    rw [h₁.marks] at h'
    exact h₁.trans h'

theorem halts_followEnd (ho : Obliging env w) (hset : w.proc.userFakedTimeSet = false)
    (h : scanned s = none) : ∃ msg, (followEnd s).Halts seq w (.exited 1 msg) := by
  obtain ⟨w₁, h₁, hrun⟩ := run_followEnd (s := s) ho
  have hset₁ : w₁.proc.userFakedTimeSet = false := (congrArg Marks.timeSet h₁.marks).trans hset
  obtain ⟨msg, hmsg⟩ := halts_parseModifiers (w := w₁) h
  refine ⟨msg, ?_⟩
  rw [Halts, hrun]
  refine halts_load ?_
  rw [hset₁, if_neg (by simp)]
  exact hmsg

/-- **A followed file**, as far as its modifiers. -/
theorem run_parseFollow (ho : Obliging env w)
    (hstat : ∀ n path, w.os n (.realStat path) = some (files path))
    (h : (env .faketimeFollowFile).bind files ≠ none) :
    ∃ w₁, Marked w w₁ (w.proc.marks.followed env) ∧
      (parseFollow s).run seq w = (followEnd s).run seq w₁ := by
  obtain ⟨mtime, hm⟩ := Option.ne_none_iff_exists'.mp h
  obtain ⟨path, hpath, hfile⟩ := Option.bind_eq_some_iff.mp hm
  have hget : ∀ {β : Type} (n : ℕ) (p : Proc) (x : EnvVar) (f : Option CStr → Sys β),
      (getenv x >>= f).run seq { w with now := n, proc := p } =
        (f (env x)).run seq { w with now := n + 1, proc := p } := fun n p x f =>
    run_ask (w := { w with now := n, proc := p }) (o := .getenv x) rfl (ho.env _ _) f
  have hread : ∀ {β : Type} (n : ℕ) (p : Proc) (f : Option Timespec → Sys β),
      (realStat path >>= f).run seq { w with now := n, proc := p } =
        (f (files path)).run seq { w with now := n + 1, proc := p } := fun n p f =>
    run_ask (w := { w with now := n, proc := p }) (o := .realStat path) rfl (hstat _ _) f
  unfold parseFollow Marks.followed
  rw [run_store, hget, hpath]
  dsimp only
  rw [hread, hfile]
  dsimp only
  rw [run_store, hget]
  cases habs : env .faketimeFollowAbsolute with
  | none =>
    refine ⟨{ w with now := w.now + 3, proc := { w.proc with
      ftMode := .startAt, userFakedTimeTimespec := ⟨mtime.tvSec, 0⟩ } },
      ⟨⟨rfl, rfl, rfl, rfl, rfl⟩, _, _, _, rfl⟩, rfl⟩
  | some v =>
    refine ⟨{ w with now := w.now + 3, proc := { w.proc with
      ftMode := .freeze, userFakedTimeTimespec := mtime, userFakedTimeSet := true } },
      ⟨⟨rfl, rfl, rfl, rfl, rfl⟩, _, _, _, rfl⟩, rfl⟩

/-- Without a file to follow the process exits. -/
theorem halts_parseFollow (ho : Obliging env w)
    (hstat : ∀ n path, w.os n (.realStat path) = some (files path))
    (h : (env .faketimeFollowFile).bind files = none) :
    ∃ msg, (parseFollow s).Halts seq w (.exited 1 msg) := by
  unfold parseFollow Halts
  rw [run_store]
  cases hpath : env .faketimeFollowFile with
  | none =>
    refine ⟨"libfaketime: % operator in FAKETIME setting requires environment " ++
      "variable FAKETIME_FOLLOW_FILE set.\n",
      (run_ask (w := { w with proc := { w.proc with ftMode := .startAt } })
      (o := .getenv .faketimeFollowFile) rfl (ho.env _ _) _).trans ?_⟩
    rw [hpath]
    rfl
  | some path =>
    rw [hpath, Option.bind_some] at h
    refine ⟨"libfaketime: Cannot get timestamp of file " ++ String.ofList path ++
      " as requested by % operator.\n",
        (run_ask (w := { w with proc := { w.proc with ftMode := .startAt } })
      (o := .getenv .faketimeFollowFile) rfl (ho.env _ _) _).trans ?_⟩
    rw [hpath]
    refine (run_ask (w := { w with now := w.now + 1, proc := { w.proc with ftMode := .startAt } })
      (o := .realStat path) rfl (hstat _ _) _).trans ?_
    rw [h]
    rfl

/-- **A text that is accepted is applied.** -/
theorem runs_parseByPrefix (ho : Obliging env w)
    (hstat : ∀ n path, w.os n (.realStat path) = some (files path))
    (h : Accepts B env files w.proc.userFakedTimeFmt w.proc.userFakedTimeSet s) :
    (parseByPrefix B s).Runs seq w fun _ w' => Marked w w' (w.proc.marks.after env s) := by
  obtain ⟨hfirst, hmod⟩ := h
  rw [parseByPrefix_eq]
  unfold FirstPart at hfirst
  unfold ModifiersRead at hmod
  unfold Marks.after
  cases hk : kindOf s with
  | absolute =>
    rw [hk] at hfirst hmod
    obtain ⟨t, ht⟩ := Option.ne_none_iff_exists'.mp hfirst
    refine runs_bind_modified ho ((runs_parseAbsolute ht).mono ?_) (hmod nofun)
    rintro _ w₁ ⟨ha, hproc⟩
    exact ⟨ha, t, w.proc.userOffset, w.proc.ftplStarttime, hproc⟩
  | offset =>
    rw [hk] at hfirst hmod
    obtain ⟨q, unit, M, hpart⟩ := hfirst
    refine runs_bind_modified ho ((runs_parseOffset hpart).mono ?_) (hmod nofun)
    rintro _ w₁ ⟨ha, hproc⟩
    exact ⟨ha, _, _, w.proc.ftplStarttime, hproc⟩
  | startAt =>
    rw [hk] at hfirst hmod
    obtain ⟨t, ht⟩ := Option.ne_none_iff_exists'.mp hfirst
    refine runs_bind_modified ho ((runs_parseStartAt ho ht).mono ?_) (hmod nofun)
    rintro _ w₁ ⟨ha, start, hproc⟩
    exact ⟨ha, t, w.proc.userOffset, start, hproc⟩
  | follow =>
    rw [hk] at hfirst hmod
    obtain ⟨w₁, h₁, hrun⟩ := run_parseFollow (s := s) ho hstat hfirst
    -- the time of the file is applied, and the modifiers only where nothing else is set
    have hset : w₁.proc.userFakedTimeSet = (w.proc.marks.followed env).timeSet :=
      congrArg Marks.timeSet h₁.marks
    change (parseFollow s).Runs seq w _
    unfold Runs
    rw [hrun]
    refine (runs_followEnd (ho.around h₁.1) ?_).mono ?_
    · intro hnot
      rw [hset] at hnot
      exact hmod fun _ => Marks.timeSet_followed.mp hnot
    · intro _ w' h'
      rw [hset, h₁.marks] at h'
      exact h₁.trans h'
  | modifiers =>
    rw [hk] at hmod
    exact runs_modified ho (hmod nofun)

/-- Any other is the end of the process. -/
theorem halts_parseByPrefix (ho : Obliging env w)
    (hstat : ∀ n path, w.os n (.realStat path) = some (files path))
    (h : ¬ Accepts B env files w.proc.userFakedTimeFmt w.proc.userFakedTimeSet s) :
    ∃ msg, (parseByPrefix B s).Halts seq w (.exited 1 msg) := by
  rw [parseByPrefix_eq]
  unfold Accepts FirstPart ModifiersRead at h
  -- in each kind either the first part is refused, or it is read and then the modifiers are
  cases hk : kindOf s with
  | absolute =>
    rw [hk] at h
    cases ht : parsedDate B w.proc.userFakedTimeFmt [] s with
    | none =>
      obtain ⟨msg, hmsg⟩ := halts_parseDate
        (w := { w with proc := { w.proc with ftMode := w.proc.ftMode.stopped } }) ht
      exact ⟨msg, (halts_store hmsg.bind).bind⟩
    | some t =>
      refine halts_bind_modifiers (runs_parseAbsolute ht) ?_
      by_contra hm
      exact h ⟨by rw [ht]; exact Option.some_ne_none t, fun _ => hm⟩
  | offset =>
    rw [hk] at h
    by_cases hpart : ∃ q unit M, OffsetPart s q unit M
    · obtain ⟨q, unit, M, hpart'⟩ := hpart
      refine halts_bind_modifiers (runs_parseOffset hpart') ?_
      by_contra hm
      exact h ⟨⟨q, unit, M, hpart'⟩, fun _ => hm⟩
    · obtain ⟨msg, hmsg⟩ := halts_parseOffset (w := w) hpart
      exact ⟨msg, hmsg.bind⟩
  | startAt =>
    rw [hk] at h
    cases ht : parsedDate B w.proc.userFakedTimeFmt ['@'] s.tail with
    | none =>
      obtain ⟨msg, hmsg⟩ := halts_parseDate
        (w := { w with proc := { w.proc with ftMode := .startAt } }) ht
      exact ⟨msg, (halts_store hmsg.bind).bind⟩
    | some t =>
      refine halts_bind_modifiers (runs_parseStartAt ho ht) ?_
      by_contra hm
      exact h ⟨by rw [ht]; exact Option.some_ne_none t, fun _ => hm⟩
  | follow =>
    rw [hk] at h
    by_cases hfile : (env .faketimeFollowFile).bind files = none
    · exact halts_parseFollow ho hstat hfile
    · obtain ⟨w₁, h₁, hrun⟩ := run_parseFollow (s := s) ho hstat hfile
      have hset : w₁.proc.userFakedTimeSet = (w.proc.marks.followed env).timeSet :=
        congrArg Marks.timeSet h₁.marks
      -- the modifiers are looked at only where no time is set after the file has been found
      have hread : w.proc.userFakedTimeSet = false ∧ env .faketimeFollowAbsolute = none := by
        by_contra hnot
        exact h ⟨hfile, fun hread => absurd (hread rfl) hnot⟩
      have hm : scanned s = none := by
        by_contra hm
        exact h ⟨hfile, fun _ => hm⟩
      obtain ⟨msg, hmsg⟩ := halts_followEnd (ho.around h₁.1)
        (hset.trans (Marks.timeSet_followed.mpr hread)) hm
      exact ⟨msg, hrun.trans hmsg⟩
  | modifiers =>
    rw [hk] at h
    refine halts_parseModifiers ?_
    by_contra hm
    exact h ⟨trivial, fun _ => hm⟩

/-- The text is applied, and saved. -/
theorem runs_parse_of_new (ho : Obliging env w)
    (hstat : ∀ n path, w.os n (.realStat path) = some (files path))
    (hnew : unchangedSetting s w.proc.userFakedTimeSaved = false)
    (h : Accepts B env files w.proc.userFakedTimeFmt w.proc.userFakedTimeSet s) :
    (parseFtString B s).Runs seq w fun _ w' => Around w w' ∧ ∃ base offset start,
      w'.proc = { w.proc.marked (w.proc.marks.after env s) base offset start with
        userFakedTimeSaved := s.take (bufferlen - 1) } := by
  refine runs_load ?_
  rw [hnew, if_neg (by simp)]
  refine (runs_parseByPrefix ho hstat h).bind ?_
  rintro _ w₁ ⟨ha, base, offset, start, hproc⟩
  refine ⟨_, _, rfl, ⟨ha.os, ha.file, ha.dontFake, ha.semHeld, ha.mutexHeld⟩, base, offset, start,
    ?_⟩
  change { w₁.proc with userFakedTimeSaved := s.take (bufferlen - 1) } = _
  rw [hproc]

theorem halts_parse_of_new (ho : Obliging env w)
    (hstat : ∀ n path, w.os n (.realStat path) = some (files path))
    (hnew : unchangedSetting s w.proc.userFakedTimeSaved = false)
    (h : ¬ Accepts B env files w.proc.userFakedTimeFmt w.proc.userFakedTimeSet s) :
    ∃ msg, (parseFtString B s).Halts seq w (.exited 1 msg) := by
  obtain ⟨msg, hmsg⟩ := halts_parseByPrefix ho hstat h
  refine ⟨msg, halts_load ?_⟩
  rw [hnew, if_neg (by simp)]
  exact hmsg.bind

end Applied

end LibFaketime
