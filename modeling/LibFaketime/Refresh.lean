import LibFaketime.Marks
import LibFaketime.Precedence
import LibFaketime.ExcludedWaits

/-!
# Refresh after refresh

A process meets one text after another, and what it does with one depends on those before only
through its record (`LibFaketime.Record`): the marks they have left, and the text that was saved
last. On the record a refresh is a function (`LibFaketime.Record.apply`), and `refresh_config` keeps
to it: the text is accepted, and the record is what the function makes of it, or the process exits
(`LibFaketime.runs_refresh`, `LibFaketime.halts_refresh`).
-/

namespace LibFaketime

open Effects Effects.Prog

/-! ### The record of a process -/

/-- **What a process keeps of the texts it has met**, and how it reads them. -/
structure Record where
  marks : Marks
  /-- `user_faked_time_saved`. -/
  saved : CStr
  fmt : CStr
  /-- `parse_config_file`. -/
  latch : Bool

/-- The record of a process. -/
def Proc.record (p : Proc) : Record :=
  ⟨p.marks, p.userFakedTimeSaved, p.userFakedTimeFmt, p.parseConfigFile⟩

theorem Proc.record_eq {p p' : Proc} (h : p'.core = p.core) : p'.record = p.record :=
  Proc.field_eq h Proc.record

/-- The text is accepted: it has been applied already, or is accepted as a new one. -/
def Record.Accepts (B : Build) (env : EnvVar → Option CStr) (files : CStr → Option Timespec)
    (s : CStr) (R : Record) : Prop :=
  unchangedSetting s R.saved = false →
    LibFaketime.Accepts B env files R.fmt R.marks.timeSet s

/-- **What a text that is accepted makes of the record.** -/
def Record.apply (env : EnvVar → Option CStr) (s : CStr) (R : Record) : Record :=
  if unchangedSetting s R.saved then R
  else { R with marks := R.marks.after env s, saved := s.take (bufferlen - 1) }

/-! ### A refresh -/

/-- **A moment at which the configuration is read again**: the environment and the files, the
system, and what the queries since the last refresh have done to the counters and caches of the
process. -/
structure Moment where
  sources : Sources
  /-- The modification times of files. -/
  files : CStr → Option Timespec
  world : World
  between : Proc → Proc

/-- The process `p` at this moment. -/
def Moment.start (m : Moment) (p : Proc) : World := { m.world with proc := m.between p }

/-- **Nothing stands in the way of a refresh**: every call returns, no lock fails, the cache has
expired, and only counters and caches have changed since the last one. -/
structure Moment.Due (m : Moment) : Prop where
  shows : m.world.Shows m.sources
  obliging : Obliging m.sources.env m.world
  stat : ∀ n path, m.world.os n (.realStat path) = some (m.files path)
  keeps : ∀ p, (m.between p).settings = p.settings
  expired : ∀ r : Option Timespec, m.world.os m.world.now (.realClockGettime .realtime) = some r →
    ∀ p, (Proc.expireCache (r.getD .unset).tvSec (m.between p)).cacheExpired = true

section Refresh

variable {B : Build} {m : Moment} {p : Proc} {s : CStr}

theorem Moment.Due.core_start (hm : m.Due) (p : Proc) : (m.start p).proc.core = p.core :=
  Proc.core_eq (hm.keeps p)

theorem Moment.Due.obliging_start (hm : m.Due) (p : Proc) :
    Obliging m.sources.env (m.start p) :=
  ⟨hm.obliging.env, hm.obliging.clock, hm.obliging.lock, hm.obliging.unlock, hm.obliging.semFree⟩

/-- A refresh is a call of the parser. -/
theorem Moment.Due.run_refresh (hm : m.Due) (hs : m.sources.used p.parseConfigFile = some s) :
    ∃ w₁, w₁.proc.core = p.core ∧ Obliging m.sources.env w₁ ∧
      (∀ n path, w₁.os n (.realStat path) = some (m.files path)) ∧
        (refreshConfig B).run seq (m.start p) =
          (parseFtString B s >>= fun _ => getFakeMonotonicSetting).run seq w₁ := by
  obtain ⟨r, hr⟩ := hm.obliging.clock m.world.now .realtime
  have hcore := hm.core_start p
  have hshows : (m.start p).Shows m.sources := ⟨hm.shows.env, hm.shows.file, hm.shows.close⟩
  obtain ⟨w₁, h₁, -, hrun⟩ := run_refreshConfig (B := B) hshows hr (hm.expired r hr p) (X := s)
    (by rw [show (m.start p).proc.parseConfigFile = p.parseConfigFile from
          Proc.field_eq hcore Proc.parseConfigFile]; exact hs)
  refine ⟨w₁, h₁.core.trans hcore,
    (hm.obliging_start p).around ⟨h₁.os, h₁.file, h₁.dontFake, h₁.semHeld, h₁.mutexHeld⟩, ?_, hrun⟩
  rw [h₁.os]
  exact hm.stat

/-- The last part of a refresh has nothing to do with the record. -/
theorem runs_finish {w : World} {env : EnvVar → Option CStr} (ho : Obliging env w) :
    getFakeMonotonicSetting.Runs seq w fun _ w' => w'.proc.record = w.proc.record := by
  refine (runs_getFakeMonotonicSetting_env ho.env).mono ?_
  rintro _ w' ⟨n, rfl⟩
  rfl

/-- **A text that is accepted is applied to the record.** -/
theorem runs_refresh (hm : m.Due) (hs : m.sources.used p.parseConfigFile = some s)
    (h : p.record.Accepts B m.sources.env m.files s) :
    (refreshConfig B).Runs seq (m.start p) fun _ w' =>
      w'.proc.record = p.record.apply m.sources.env s := by
  obtain ⟨w₁, hcore, ho, hstat, hrun⟩ := hm.run_refresh (B := B) hs
  have hrecord := Proc.record_eq hcore
  unfold Runs
  rw [hrun]
  rw [← hrecord] at h ⊢
  unfold Record.apply
  cases hnew : unchangedSetting s w₁.proc.record.saved with
  | true =>
    rw [if_pos rfl]
    refine (runs_parseFtString_unchanged hnew).bind ?_
    rintro _ _ rfl
    exact runs_finish ho
  | false =>
    rw [if_neg (by simp)]
    refine (runs_parse_of_new ho hstat hnew (h hnew)).bind ?_
    rintro _ w₂ ⟨ha, base, offset, start, hproc⟩
    refine (runs_finish (ho.around ha)).mono fun _ w' hw' => ?_
    rw [hw', hproc]
    rfl

/-- Any other is the end of the process. -/
theorem halts_refresh (hm : m.Due) (hs : m.sources.used p.parseConfigFile = some s)
    (h : ¬ p.record.Accepts B m.sources.env m.files s) :
    ∃ msg, (refreshConfig B).Halts seq (m.start p) (.exited 1 msg) := by
  obtain ⟨w₁, hcore, ho, hstat, hrun⟩ := hm.run_refresh (B := B) hs
  have hrecord := Proc.record_eq hcore
  rw [← hrecord] at h
  unfold Record.Accepts at h
  rw [Classical.not_imp] at h
  obtain ⟨hnew, h⟩ := h
  obtain ⟨msg, hmsg⟩ := halts_parse_of_new ho hstat hnew h
  exact ⟨msg, hrun.trans hmsg.bind⟩

end Refresh

end LibFaketime
