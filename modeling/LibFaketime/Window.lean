import LibFaketime.Clock
import LibFaketime.Limits

/-!
# The limits and the times of files

The limits in seconds are meant for the time a program has been running. They are tested in the
function that fakes a reading, against the time since the start that the reading stands for, and
the `stat` family hands the times of files to this function. A file time is therefore shifted or
not by how old the file is, and not by how long the program has been running
(`LibFaketime.limits_switch_together_iff`).
-/

namespace LibFaketime

open Effects Effects.Prog

/-! ### The window -/

/-- Only the limits in seconds are used. -/
def Proc.SecondsOnly (s : Proc) : Prop := s.ftStartAfterNcalls = -1 ∧ s.ftStopAfterNcalls = -1

/-- **A time in the window** of the limits in seconds: it is late enough after the start, and not
too late. -/
def Proc.InWindow (s : Proc) (tp : Timespec) : Prop :=
  s.limitedFaking = true →
    (s.ftStartAfterSecs ≠ -1 → s.ftStartAfterSecs ≤ s.secondsSince .realtime tp) ∧
      (s.ftStopAfterSecs ≠ -1 → s.secondsSince .realtime tp < s.ftStopAfterSecs)

/-- What the setting makes of a time, if the limits let it through. -/
def World.shift (w : World) (tp : Timespec) : Timespec := (w.outcome .realtime tp).result.2

/-- **A time is shifted**: it is in the window, and the setting moves it. -/
def World.Shifts (w : World) (tp : Timespec) : Prop := w.proc.InWindow tp ∧ w.shift tp ≠ tp

section Window

variable {B : Build} {s s' : Proc} {w v : World} {c : ClockId} {tp : Timespec}

theorem shutsOut_iff_window (h : s.SecondsOnly) :
    s.shutsOut .realtime tp = false ↔ s.InWindow tp := by
  obtain ⟨hstart, hstop⟩ := h
  rw [Proc.shutsOut, counted_eq, Proc.outsideLimits, hstart, hstop, Proc.InWindow,
    ← Proc.secondsSince]
  cases s.limitedFaking with
  | false => simp
  | true => simp

/-- Without ticks the shared block does not matter. -/
theorem outcome_of_like (h : Like w v) (htick : w.proc.userPerTickIncSet = false) :
    v.outcome c tp = w.outcome c tp := by
  have hproc := h.field fun s => ({ w with proc := s } : World).outcome c tp
  rw [← show ({ w with proc := w.proc } : World).outcome c tp = w.outcome c tp from rfl, ← hproc]
  have htick' : v.proc.userPerTickIncSet = false :=
    (h.field Proc.userPerTickIncSet).trans htick
  unfold World.outcome
  simp only [htick', Bool.false_eq_true, if_false]

/-- One file time, while the lock is held. -/
theorem runs_fakeTimestamp_window (hs : Standing B w.forStat) (hfaking : w.dontFake = false)
    (hsecs : w.proc.SecondsOnly) (hv : Like w.forStat v) (m : Timespec) :
    (fakeTimestamp B m).Runs seq v fun m' v' =>
      (m' ≠ m ↔ w.forStat.Shifts m) ∧ Like w.forStat v' := by
  have hsecs' : v.proc.SecondsOnly :=
    ⟨(hv.field Proc.ftStartAfterNcalls).trans hsecs.1,
      (hv.field Proc.ftStopAfterNcalls).trans hsecs.2⟩
  have hwindow : v.proc.InWindow m ↔ w.forStat.proc.InWindow m :=
    iff_of_eq (hv.field fun s => s.InWindow m)
  refine ((hs.like hv).runs_query (hv.dontFake.trans hfaking) rfl _).bind ?_
  rintro _ v' ⟨rfl, hlike, -, -⟩
  refine runs_pure ⟨?_, hv.trans hlike⟩
  unfold World.limited World.Shifts
  rw [← hwindow, ← shutsOut_iff_window hsecs', outcome_of_like hv rfl]
  cases v.proc.shutsOut .realtime m with
  | true => simp
  | false =>
    simp only [Bool.false_eq_true, if_false, true_and]
    exact Iff.rfl

/-- One file time of `statx`, if it is there. -/
theorem runs_fakeStatxTimestamp_window (hs : Standing B w.forStat) (hfaking : w.dontFake = false)
    (hsecs : w.proc.SecondsOnly) (hv : Like w.forStat v) (m : Option Timespec) :
    (fakeStatxTimestamp B m).Runs seq v fun m' v' =>
      (∀ x, m = some x → ∃ x', m' = some x' ∧ (x' ≠ x ↔ w.forStat.Shifts x)) ∧
        Like w.forStat v' := by
  cases m with
  | none => exact runs_pure ⟨nofun, hv⟩
  | some x =>
    refine (runs_fakeTimestamp_window hs hfaking hsecs hv x).bind ?_
    rintro x' v' ⟨hx, hlike⟩
    refine runs_pure ⟨?_, hlike⟩
    rintro _ ⟨⟩
    exact ⟨x', rfl, hx⟩

/-- The clock. -/
theorem runs_clockGettime_window (hs : Standing B w) (hfaking : w.dontFake = false)
    (hsecs : w.proc.SecondsOnly) {t : Timespec}
    (hclock : ∀ n, w.os n (.realClockGettime .realtime) = some (some t)) :
    (clockGettime B .realtime).Runs seq w fun r _ =>
      ∃ t', r.2 = some t' ∧ (t' ≠ t ↔ w.Shifts t) := by
  refine runs_realClockGettime (hclock _) (runs_load ?_)
  rw [if_pos (by simp [ClockId.IsMonotonic])]
  refine ((hs.like (Like.tick w)).runs_query hfaking rfl _).bind ?_
  rintro _ v ⟨rfl, -⟩
  refine runs_pure ⟨_, rfl, ?_⟩
  unfold World.Shifts
  rw [← shutsOut_iff_window hsecs]
  change (if w.proc.shutsOut .realtime t then Outcome.abort 0 t else w.outcome .realtime t).result.2
    ≠ t ↔ _
  cases w.proc.shutsOut .realtime t with
  | true => simp [Outcome.result]
  | false =>
    simp only [Bool.false_eq_true, if_false, true_and]
    exact Iff.rfl

/-- `stat`: each of the times by itself. -/
theorem runs_stat_window (hs : Standing B w) (hstat : Standing B w.forStat)
    (hfaking : w.dontFake = false) (hfree : w.semHeld = false) (hsecs : w.proc.SecondsOnly)
    (henabled : w.proc.fakeStatDisabled = false) (buf : Stat) :
    (statHandlerCommon (fakeStatbuf B) buf).Runs seq w fun buf' _ =>
      (buf'.stCtim ≠ buf.stCtim ↔ w.forStat.Shifts buf.stCtim) ∧
        (buf'.stAtim ≠ buf.stAtim ↔ w.forStat.Shifts buf.stAtim) ∧
        (buf'.stMtim ≠ buf.stMtim ↔ w.forStat.Shifts buf.stMtim) := by
  refine runs_load ?_
  rw [if_neg (by simp [henabled])]
  refine runs_dontFake ?_
  rw [hfaking, if_neg (by simp)]
  refine (runs_lockForStat hs.tries hs.calm hfree).bind fun _ w₁ h₁ => ?_
  refine (runs_fakeTimestamp_window hstat hfaking hsecs h₁ _).bind fun c w₂ ⟨hc, h₂⟩ => ?_
  refine (runs_fakeTimestamp_window hstat hfaking hsecs h₂ _).bind fun a w₃ ⟨ha, h₃⟩ => ?_
  refine (runs_fakeTimestamp_window hstat hfaking hsecs h₃ _).bind fun m w₄ ⟨hm, h₄⟩ => ?_
  exact (runs_unlockForStat hs.calm hfree h₄).bind fun _ _ _ => runs_pure ⟨hc, ha, hm⟩

/-- `statx`: each of the times that are there. -/
theorem runs_statx_window (hs : Standing B w) (hstat : Standing B w.forStat)
    (hfaking : w.dontFake = false) (hfree : w.semHeld = false) (hsecs : w.proc.SecondsOnly)
    (henabled : w.proc.fakeStatDisabled = false) (buf : Statx) :
    (statHandlerCommon (fakeStatxbuf B) buf).Runs seq w fun buf' _ =>
      ∀ field ∈ [Statx.stxAtime, Statx.stxCtime, Statx.stxMtime, Statx.stxBtime],
        ∀ m, field buf = some m →
          ∃ m', field buf' = some m' ∧ (m' ≠ m ↔ w.forStat.Shifts m) := by
  refine runs_load ?_
  rw [if_neg (by simp [henabled])]
  refine runs_dontFake ?_
  rw [hfaking, if_neg (by simp)]
  refine (runs_lockForStat hs.tries hs.calm hfree).bind fun _ w₁ h₁ => ?_
  refine (runs_fakeStatxTimestamp_window hstat hfaking hsecs h₁ _).bind fun a w₂ ⟨ha, h₂⟩ => ?_
  refine (runs_fakeStatxTimestamp_window hstat hfaking hsecs h₂ _).bind fun c w₃ ⟨hc, h₃⟩ => ?_
  refine (runs_fakeStatxTimestamp_window hstat hfaking hsecs h₃ _).bind fun m w₄ ⟨hm, h₄⟩ => ?_
  refine (runs_fakeStatxTimestamp_window hstat hfaking hsecs h₄ _).bind fun b w₅ ⟨hb, h₅⟩ => ?_
  refine (runs_unlockForStat hs.calm hfree h₅).bind fun _ _ _ => runs_pure ?_
  simpa using ⟨ha, hc, hm, hb⟩

/-- **The limits switch the clock and the times of files together exactly if** the real time and
the file time lie in the window both or neither, provided the setting moves them. The window is the
one of the run time for the clock and that of the age of the file for a file time. -/
theorem limits_switch_together_iff (hs : Standing B w) (hstat : Standing B w.forStat)
    (hfaking : w.dontFake = false) (hfree : w.semHeld = false) (hsecs : w.proc.SecondsOnly)
    (henabled : w.proc.fakeStatDisabled = false) {t : Timespec}
    (hclock : ∀ n, w.os n (.realClockGettime .realtime) = some (some t)) :
    ∃ t', (clockGettime B .realtime).Runs seq w (fun r _ => r.2 = some t') ∧
      (∀ buf : Stat, (statHandlerCommon (fakeStatbuf B) buf).Runs seq w fun buf' _ =>
        ∀ field ∈ [Stat.stCtim, Stat.stAtim, Stat.stMtim],
          ((field buf' ≠ field buf ↔ t' ≠ t) ↔ (w.forStat.Shifts (field buf) ↔ w.Shifts t))) ∧
      ∀ buf : Statx, (statHandlerCommon (fakeStatxbuf B) buf).Runs seq w fun buf' _ =>
        ∀ field ∈ [Statx.stxAtime, Statx.stxCtime, Statx.stxMtime, Statx.stxBtime],
          ∀ m, field buf = some m → ∃ m', field buf' = some m' ∧
            ((m' ≠ m ↔ t' ≠ t) ↔ (w.forStat.Shifts m ↔ w.Shifts t)) := by
  obtain ⟨r, v, hrun, t', ht', hshift⟩ := runs_clockGettime_window hs hfaking hsecs hclock
  refine ⟨t', ⟨r, v, hrun, ht'⟩, fun buf => ?_, fun buf => ?_⟩
  · refine (runs_stat_window hs hstat hfaking hfree hsecs henabled buf).mono ?_
    rintro buf' _ ⟨hc, ha, hm⟩
    simp [hc, ha, hm, hshift]
  · refine (runs_statx_window hs hstat hfaking hfree hsecs henabled buf).mono ?_
    intro buf' _ h field hfield m hm
    obtain ⟨m', hm', hiff⟩ := h field hfield m hm
    exact ⟨m', hm', by rw [hiff, hshift]⟩

end Window

/-! ### A program that is faked after ten seconds -/

/-- A setting of an hour more. -/
def hourText : CStr := "+3600".toList

/-- The environment of a process with this setting. -/
def hourEnv : EnvVar → Option CStr
  | .faketime => some hourText
  | _ => none

/-- The process has applied it, it was started at `⟨1000, 0⟩`, and now it is twenty seconds
later. -/
def lateWorld : World :=
  calmWorld hourEnv (fun _ _ => ⟨1020, 0⟩) ⟨0, 0⟩
    { Proc.initial with
      ftMode := .startAt, userFakedTimeTimespec := ⟨4600, 0⟩, userFakedTimeSet := true
      userFakedTimeSaved := hourText, parseConfigFile := false
      ftplStarttime := ⟨⟨1000, 0⟩, ⟨1000, 0⟩, ⟨1000, 0⟩, ⟨1000, 0⟩⟩
      limitedFaking := true, ftStartAfterSecs := 10 }

theorem unchanged_hourText : unchangedSetting (hourText.take (bufferlen - 1)) hourText = true := by
  decide +kernel

theorem standing_lateWorld : Standing epochBuild lateWorld where
  calm := ⟨fun _ => ⟨_, rfl⟩, fun _ => rfl, fun _ => rfl, fun _ _ => ⟨_, rfl⟩⟩
  tries := Nat.one_pos
  noReplay := rfl
  mutexFree := rfl
  semFree := fun _ => rfl
  saves := nofun
  fixed := fun w₁ hos _ hcore => refresh_of_unchanged (fun _ => ⟨_, rfl⟩) (fun _ => rfl) rfl
    unchanged_hourText ⟨fun _ => rfl, fun _ => rfl, by rintro v ⟨⟩⟩ w₁ hos hcore

/-- A file that was made after fifteen seconds. -/
theorem limits_switch_together_lateWorld : ∃ t',
    (clockGettime epochBuild .realtime).Runs seq lateWorld (fun r _ => r.2 = some t') ∧
      (statHandlerCommon (fakeStatbuf epochBuild) ⟨⟨1015, 0⟩, ⟨1015, 0⟩, ⟨1015, 0⟩⟩).Runs seq
        lateWorld fun buf' _ => (buf'.stMtim ≠ ⟨1015, 0⟩ ↔ t' ≠ ⟨1020, 0⟩) := by
  obtain ⟨t', hclock, hstat, -⟩ := limits_switch_together_iff standing_lateWorld
    standing_lateWorld rfl rfl ⟨rfl, rfl⟩ rfl (t := ⟨1020, 0⟩) fun _ => rfl
  refine ⟨t', hclock, (hstat _).mono fun buf' _ h => (h Stat.stMtim (by simp)).mpr ?_⟩
  have hfile : lateWorld.forStat.Shifts ⟨1015, 0⟩ :=
    ⟨fun _ => ⟨fun _ => by decide, fun h => absurd rfl h⟩, by decide⟩
  have hnow : lateWorld.Shifts ⟨1020, 0⟩ :=
    ⟨fun _ => ⟨fun _ => by decide, fun h => absurd rfl h⟩, by decide⟩
  exact iff_of_true hfile hnow

/-- A file that was there before the program was started: the clock is shifted by now, and its time
is not. -/
theorem limits_do_not_switch_together :
    (∀ n, lateWorld.os n (.realClockGettime .realtime) = some (some ⟨1020, 0⟩)) ∧
    (clockGettime epochBuild .realtime).Runs seq lateWorld (fun r _ => r = (0, some ⟨4620, 0⟩)) ∧
    (statHandlerCommon (fakeStatbuf epochBuild) ⟨⟨500, 0⟩, ⟨500, 0⟩, ⟨500, 0⟩⟩).Runs seq lateWorld
      (fun buf' _ => buf'.stMtim = ⟨500, 0⟩) :=
  ⟨fun _ => rfl, ⟨_, _, rfl, rfl⟩, ⟨_, _, rfl, rfl⟩⟩

end LibFaketime
