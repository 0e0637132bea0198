import LibFaketime.Remainder
import LibFaketime.Semaphore

/-!
# Which absolute requests are valid

The kernel refuses a time whose nanoseconds are out of range or whose seconds are negative. An
absolute request is moved on its way to the kernel, by the difference of the start time and the
base, and the two additions carry from the nanoseconds to the seconds. So a request with too many
nanoseconds, or with a negative number of them, is put right on the way unless it is off by whole
seconds, and a valid one from before the difference becomes negative
(`LibFaketime.request_validity_kept_iff`).
-/

namespace LibFaketime

open Effects Effects.Prog Saturate

/-! ### Moving a request -/

/-- A time the kernel accepts. -/
def Timespec.Valid (t : Timespec) : Prop := 0 ≤ t.tvSec ∧ t.Normal

instance Timespec.decidableValid (t : Timespec) : Decidable t.Valid :=
  inferInstanceAs (Decidable (_ ∧ _))

/-- The request `D` counted from `b` and moved to `a`, at the rate of real time. -/
def Timespec.moved (a b D : Timespec) : Timespec := timespecadd a (timespecsub D b)

/-- The two carries take the nanoseconds of the moved request into their range. -/
def Timespec.Carried (a b D : Timespec) : Prop :=
  -2000000000 ≤ D.tvNsec - b.tvNsec + a.tvNsec ∧ D.tvNsec - b.tvNsec + a.tvNsec < 3000000000

/-- The seconds of the moved request get out of range, where one carry has already gone to the
seconds; the greatest time takes its place. -/
def Timespec.Overflows (a b D : Timespec) : Prop :=
  let carried := if D.tvNsec < b.tvNsec then -1 else 1
  ftTimeMax < D.tvSec - b.tvSec + carried ∨
    ftTimeMax < a.tvSec + (D.tvSec - b.tvSec) + 2 * carried

/-- **The moved request is valid**: its nanoseconds are carried into their range and it is not
before zero, or it is replaced by the greatest time. -/
def Timespec.MovesToValid (a b D : Timespec) : Prop :=
  Carried a b D ∧ b.ns ≤ a.ns + D.ns ∨ ¬ Carried a b D ∧ Overflows a b D

instance (a b D : Timespec) : Decidable (Timespec.Carried a b D) :=
  inferInstanceAs (Decidable (_ ∧ _))

instance (a b D : Timespec) : Decidable (Timespec.Overflows a b D) :=
  inferInstanceAs (Decidable (_ ∨ _))

instance (a b D : Timespec) : Decidable (Timespec.MovesToValid a b D) :=
  inferInstanceAs (Decidable (_ ∨ _))

section Moving

variable {a b D : Timespec}

/-- What a carry does, on the fields. -/
theorem carry_cases (sec sub : ℤ) : ∃ sec' sub', carry 1000000000 (sec, sub) = (sec', sub') ∧
    (1000000000 ≤ sub ∧ sec' = sec + 1 ∧ sub' = sub - 1000000000 ∨
      sub < 0 ∧ sec' = sec - 1 ∧ sub' = sub + 1000000000 ∨
      0 ≤ sub ∧ sub < 1000000000 ∧ sec' = sec ∧ sub' = sub) := by
  unfold carry
  dsimp only
  split
  next h => exact ⟨_, _, rfl, Or.inl ⟨h, rfl, rfl⟩⟩
  next h =>
    split
    next h' => exact ⟨_, _, rfl, Or.inr (Or.inl ⟨h', rfl, rfl⟩)⟩
    next h' => exact ⟨_, _, rfl, Or.inr (Or.inr ⟨by omega, by omega, rfl, rfl⟩)⟩

/-- What saturation does, on the fields. -/
theorem saturate_cases (sec sub : ℤ) : ∃ sec' sub',
    saturate 1000000000 ftTimeMin ftTimeMax (sec, sub) = (sec', sub') ∧
    (ftTimeMax < sec ∧ sec' = ftTimeMax ∧ sub' = 999999999 ∨
      sec < ftTimeMin ∧ sec' = ftTimeMin ∧ sub' = 0 ∨
      ftTimeMin ≤ sec ∧ sec ≤ ftTimeMax ∧ sec' = sec ∧ sub' = sub) := by
  unfold saturate
  dsimp only
  split
  next h => exact ⟨_, _, rfl, Or.inl ⟨h, rfl, rfl⟩⟩
  next h =>
    split
    next h' => exact ⟨_, _, rfl, Or.inr (Or.inl ⟨h', rfl, rfl⟩)⟩
    next h' => exact ⟨_, _, rfl, Or.inr (Or.inr ⟨by omega, by omega, rfl, rfl⟩)⟩

theorem timespecsub_eq {D b : Timespec} {sec sub sec' sub' : ℤ}
    (hcarry : carry 1000000000 (D.tvSec - b.tvSec, D.tvNsec - b.tvNsec) = (sec, sub))
    (hsat : saturate 1000000000 ftTimeMin ftTimeMax (sec, sub) = (sec', sub')) :
    timespecsub D b = ⟨sec', sub'⟩ := by
  refine (congrArg Timespec.ofPair (timersub2_fst (by decide))).trans ?_
  change Timespec.ofPair (saturate 1000000000 _ _ (carry 1000000000 (D.tvSec - b.tvSec,
    D.tvNsec - b.tvNsec))) = _
  rw [hcarry, hsat]
  rfl

theorem timespecadd_eq {p : Timespec} {sec sub sec' sub' : ℤ}
    (hcarry : carry 1000000000 (a.tvSec + p.tvSec, a.tvNsec + p.tvNsec) = (sec, sub))
    (hsat : saturate 1000000000 ftTimeMin ftTimeMax (sec, sub) = (sec', sub')) :
    timespecadd a p = ⟨sec', sub'⟩ := by
  refine (congrArg Timespec.ofPair timeradd2_fst).trans ?_
  change Timespec.ofPair (saturate 1000000000 _ _ (carry 1000000000 (a.tvSec + p.tvSec,
    a.tvNsec + p.tvNsec))) = _
  rw [hcarry, hsat]
  rfl

/-- When a sum is valid: one carry brings its nanoseconds into their range and it is not negative,
or its seconds overflow. -/
theorem timespecadd_valid_iff {p : Timespec} (ha : a.Normal) (ha0 : 0 ≤ a.tvSec)
    (hp : p.InRange) : (timespecadd a p).Valid ↔
      -1000000000 ≤ a.tvNsec + p.tvNsec ∧ a.tvNsec + p.tvNsec < 2000000000 ∧ 0 ≤ a.ns + p.ns ∨
      a.tvNsec + p.tvNsec < -1000000000 ∧ ftTimeMax < a.tvSec + p.tvSec - 1 ∨
      2000000000 ≤ a.tvNsec + p.tvNsec ∧ ftTimeMax < a.tvSec + p.tvSec + 1 := by
  obtain ⟨h1, h2⟩ := ha
  obtain ⟨h3, h4⟩ := hp
  have hmin : ftTimeMin = -(2 ^ 63) := rfl
  have hmax : ftTimeMax = 2 ^ 63 - 1 := rfl
  obtain ⟨sec, sub, hcarry, hc⟩ := carry_cases (a.tvSec + p.tvSec) (a.tvNsec + p.tvNsec)
  obtain ⟨sec', sub', hsat, hs⟩ := saturate_cases sec sub
  rw [timespecadd_eq hcarry hsat]
  simp only [Timespec.Valid, Timespec.Normal, Timespec.ns_eq]
  rcases hc with hc | hc | hc <;> rcases hs with hs | hs | hs <;> omega

/-- **When a moved request is valid.** The start time is a reading of a real clock, which is not
negative. -/
theorem moved_valid_iff (ha : a.Normal) (ha0 : 0 ≤ a.tvSec) (ha1 : a.InRange) (hb : b.Normal)
    (hb1 : b.InRange) (hD : D.InRange) :
    (Timespec.moved a b D).Valid ↔ Timespec.MovesToValid a b D := by
  obtain ⟨h1, h2⟩ := ha
  obtain ⟨-, h3⟩ := ha1
  obtain ⟨h4, h5⟩ := hb
  obtain ⟨h6, h7⟩ := hb1
  obtain ⟨h8, h9⟩ := hD
  have hmin : ftTimeMin = -(2 ^ 63) := rfl
  have hmax : ftTimeMax = 2 ^ 63 - 1 := rfl
  -- the difference is carried and saturated before the start time is added
  obtain ⟨sec, sub, hcarry, hc⟩ := carry_cases (D.tvSec - b.tvSec) (D.tvNsec - b.tvNsec)
  obtain ⟨sec', sub', hsat, hs⟩ := saturate_cases sec sub
  have hrange : (⟨sec', sub'⟩ : Timespec).InRange := by
    unfold Timespec.InRange
    dsimp only
    rcases hs with hs | hs | hs <;> omega
  rw [Timespec.moved, timespecsub_eq hcarry hsat, timespecadd_valid_iff ⟨h1, h2⟩ ha0 hrange]
  simp only [Timespec.MovesToValid, Timespec.Carried, Timespec.Overflows, Timespec.ns_eq]
  rcases hc with hc | hc | hc <;> rcases hs with hs | hs | hs <;> omega

/-- A valid request needs no carry that is not there. -/
theorem movesToValid_of_valid (ha : a.Normal) (hb : b.Normal) (hD : D.Valid) :
    Timespec.MovesToValid a b D ↔ b.ns ≤ a.ns + D.ns := by
  have hcarried : Timespec.Carried a b D := by
    obtain ⟨h1, h2⟩ := ha
    obtain ⟨h3, h4⟩ := hb
    obtain ⟨-, h5, h6⟩ := hD
    unfold Timespec.Carried
    omega
  simp [Timespec.MovesToValid, hcarried]

end Moving

/-! ### The calls -/

/-- The calls with an absolute request. -/
inductive AbsoluteCall where
  | clockNanosleep (c : ClockId)
  | semTimedwait
  | timerfdSettime (c : ClockId) (interval : Timespec)

section Calls

variable {B : Build} {w : World} {env : EnvVar → Option CStr} {D : Timespec} {c : ClockId}
  {f : AbsoluteCall}

/-- A timer until a time that is left as it is. -/
def World.KeepsTimer (w : World) (c : ClockId) (D : Timespec) : Prop :=
  w.dontFake = true ∨ D.isZero = true ∨ c = .monotonic ∧ w.proc.fakeMonotonicClock = false

instance (w : World) (c : ClockId) (D : Timespec) : Decidable (w.KeepsTimer c D) :=
  inferInstanceAs (Decidable (_ ∨ _))

/-- The start time to which the request is moved, or nothing if it is left as it is. -/
def AbsoluteCall.startTime (w : World) (env : EnvVar → Option CStr) (D : Timespec) :
    AbsoluteCall → Option Timespec
  | .clockNanosleep c =>
    if Converted w.proc env c true then some (w.proc.ftplStarttime.of c) else none
  | .semTimedwait => if w.dontFake then none else some w.proc.ftplStarttime.real
  | .timerfdSettime c _ =>
    if w.KeepsTimer c D then none
    else if c = .monotonic then some w.proc.ftplStarttime.mon
    else some w.proc.ftplStarttime.real

/-- The request that the kernel is handed. -/
def AbsoluteCall.handed (w : World) (env : EnvVar → Option CStr) (D : Timespec)
    (f : AbsoluteCall) : Timespec :=
  (f.startTime w env D).elim D fun a => .moved a w.proc.userFakedTimeTimespec D

/-- **The kernel takes the request for valid exactly if it is**. -/
def AbsoluteCall.KeepsValidity (B : Build) (w : World) (D : Timespec) : AbsoluteCall → Prop
  | .clockNanosleep c => ∃ R, Hands (LibFaketime.clockNanosleep c true D) w
      (.realClockNanosleep c true R) ∧ (R.Valid ↔ D.Valid)
  | .semTimedwait => ∃ R, Hands (LibFaketime.semTimedwait D) w (.realSemTimedwait R) ∧
      (R.Valid ↔ D.Valid)
  | .timerfdSettime c interval => ∃ R i, Hands
      (LibFaketime.timerfdSettime B true c (some ⟨interval, D⟩)) w
      (.realTimerSettime true (some ⟨i, R⟩)) ∧ (R.Valid ↔ D.Valid)

theorem fromStart_eq_moved (hrate : w.proc.userRateSet = false) (c : ClockId) (D : Timespec) :
    w.proc.fromStart c D =
      .moved (w.proc.ftplStarttime.of c) w.proc.userFakedTimeTimespec D := by
  rw [Proc.fromStart, Proc.realDistance, hrate, if_neg (by simp)]
  rfl

theorem hands_clockNanosleep_moved (henv : w.HasEnv env) (hrate : w.proc.userRateSet = false) :
    Hands (clockNanosleep c true D) w
      (.realClockNanosleep c true ((AbsoluteCall.clockNanosleep c).handed w env D)) := by
  have hR : (if Converted w.proc env c true then w.proc.fromStart c D else D) =
      (AbsoluteCall.clockNanosleep c).handed w env D := by
    unfold AbsoluteCall.handed AbsoluteCall.startTime
    by_cases hconv : Converted w.proc env c true
    · simp only [if_pos hconv, Option.elim_some, fromStart_eq_moved hrate]
    · simp only [if_neg hconv, Option.elim_none]
  refine (runs_sleepUntil_env (show w.silent.HasEnv env from henv)).halts_bind ?_
  rintro r w₁ ⟨hr, hos, -⟩
  rw [← hR]
  rw [show r = if Converted w.proc env c true then w.proc.fromStart c D else D from hr]
  refine (halts_ask rfl ?_).bind
  rw [hos]
  rfl

theorem hands_semTimedwait_moved (env : EnvVar → Option CStr)
    (hrate : w.proc.userRateSet = false) :
    Hands (semTimedwait D) w (.realSemTimedwait (AbsoluteCall.semTimedwait.handed w env D)) := by
  have hR : (if w.dontFake then D else w.proc.timedwaitDeadline D) =
      AbsoluteCall.semTimedwait.handed w env D := by
    unfold AbsoluteCall.handed AbsoluteCall.startTime
    by_cases hdont : w.dontFake = true
    · simp only [if_pos hdont, Option.elim_none]
    · simp only [if_neg hdont, Option.elim_some, Proc.timedwaitDeadline, hrate, Bool.false_eq_true,
        if_false]
      rfl
  rw [← hR]
  exact hands_semTimedwait_of w D

/-- The base is normalized already, so that normalizing it again changes nothing. -/
theorem runs_timerAbsolute_moved (hrate : w.proc.userRateSet = false)
    (hb : w.proc.userFakedTimeTimespec.Normal)
    (hkeep : ¬ (c = .monotonic ∧ w.proc.fakeMonotonicClock = false)) :
    (timerAbsolute c D).Runs seq w fun r w' => r = .moved
      (if c = .monotonic then w.proc.ftplStarttime.mon else w.proc.ftplStarttime.real)
      w.proc.userFakedTimeTimespec D ∧ w'.os = w.os ∧ w'.proc.userRateSet = false := by
  have hdist : ∀ b, w.proc.realDistance D b = timespecsub D b := by
    intro b
    rw [Proc.realDistance, hrate, if_neg (by simp)]
  refine runs_load ?_
  by_cases hmono : c = .monotonic
  · have hfake : w.proc.fakeMonotonicClock = true := by
      by_contra hne
      exact hkeep ⟨hmono, by simpa using hne⟩
    rw [if_pos ⟨hmono, hfake⟩, if_pos hmono]
    refine runs_store (runs_load (runs_pure ⟨?_, rfl, hrate⟩))
    change timespecadd w.proc.ftplStarttime.mon (w.proc.realDistance D (normalizeTimespecValue
      w.proc.userFakedTimeTimespec)) = _
    rw [normalizeTimespecValue_of_normal hb, hdist]
    rfl
  · rw [if_neg fun h => hmono h.1, if_neg hmono, if_neg hmono]
    refine runs_pure ⟨?_, rfl, hrate⟩
    rw [hdist]
    rfl

/-- Without a rate an interval is left as it is. -/
theorem runs_realInterval_plain (hrate : w.proc.userRateSet = false) (interval : Timespec) :
    (realInterval interval).Runs seq w fun r w' => r = interval ∧ w' = w := by
  refine runs_load (runs_pure ⟨?_, rfl⟩)
  simp only [Proc.scaleDown, hrate, Bool.false_eq_true, if_false, ite_self]

theorem runs_realSetting_moved (env : EnvVar → Option CStr)
    (hrate : w.proc.userRateSet = false)
    (hb : w.proc.userFakedTimeTimespec.Normal) (interval : Timespec) :
    (realSetting w.dontFake true c (some ⟨interval, D⟩)).Runs seq w fun r w' =>
      r = some ⟨interval, (AbsoluteCall.timerfdSettime c interval).handed w env D⟩ ∧
        w'.os = w.os := by
  unfold AbsoluteCall.handed AbsoluteCall.startTime realSetting realValue
  dsimp only
  by_cases hdont : w.dontFake = true
  · rw [if_pos hdont, if_pos (show w.KeepsTimer c D from Or.inl hdont)]
    exact runs_pure ⟨rfl, rfl⟩
  rw [if_neg hdont]
  by_cases hz : D.isZero = true
  · rw [if_pos hz, if_pos (show w.KeepsTimer c D from Or.inr (Or.inl hz))]
    refine (runs_realInterval_plain (w := w) hrate interval).bind ?_
    rintro _ w₁ ⟨rfl, rfl⟩
    exact runs_pure ⟨rfl, rfl⟩
  rw [if_neg hz, if_pos rfl]
  -- three kinds of requests are passed on as they are; the others are moved
  by_cases hkeep : c = .monotonic ∧ w.proc.fakeMonotonicClock = false
  · rw [if_pos (show w.KeepsTimer c D from Or.inr (Or.inr hkeep))]
    have habs : (timerAbsolute c D).Runs seq w fun r w' => r = D ∧ w' = w := by
      refine runs_load ?_
      rw [if_neg (by simp [hkeep.2]), if_pos hkeep.1]
      exact runs_pure ⟨rfl, rfl⟩
    refine habs.bind ?_
    rintro _ _ ⟨rfl, rfl⟩
    refine (runs_realInterval_plain hrate interval).bind ?_
    rintro _ _ ⟨rfl, rfl⟩
    exact runs_pure ⟨rfl, rfl⟩
  · have hmoves : ¬ w.KeepsTimer c D := by
      rintro (h | h | h)
      · exact hdont h
      · exact hz h
      · exact hkeep h
    rw [if_neg hmoves]
    refine (runs_timerAbsolute_moved hrate hb hkeep).bind ?_
    rintro _ w₁ ⟨rfl, hos, hrate₁⟩
    refine (runs_realInterval_plain hrate₁ interval).bind ?_
    rintro _ _ ⟨rfl, rfl⟩
    refine runs_pure ⟨?_, hos⟩
    split <;> rfl

theorem hands_timerfdSettime_moved (env : EnvVar → Option CStr)
    (hrate : w.proc.userRateSet = false)
    (hb : w.proc.userFakedTimeTimespec.Normal) (interval : Timespec) :
    Hands (timerfdSettime B true c (some ⟨interval, D⟩)) w (.realTimerSettime true
      (some ⟨interval, (AbsoluteCall.timerfdSettime c interval).handed w env D⟩)) := by
  refine halts_dontFake ?_
  refine (runs_realSetting_moved (w := w.silent) env hrate hb interval).halts_bind ?_
  rintro _ w₁ ⟨rfl, hos⟩
  refine (halts_ask rfl ?_).bind
  rw [hos]
  rfl

/-! ### Which validity is kept -/

/-- **Where the validity of the request is kept**: the request is left as it is, or it is valid
and not from before the time the process would show at zero, or it is invalid and moving it does
not make it valid. -/
def AbsoluteCall.KeepsWhen (w : World) (env : EnvVar → Option CStr) (D : Timespec)
    (f : AbsoluteCall) : Prop :=
  ∀ a ∈ f.startTime w env D,
    if D.Valid then w.proc.userFakedTimeTimespec.ns ≤ a.ns + D.ns
    else ¬ Timespec.MovesToValid a w.proc.userFakedTimeTimespec D

/-- The start times are readings of real clocks. -/
def SystemTime.Readings (s : SystemTime) : Prop :=
  ∀ c, (s.of c).Normal ∧ 0 ≤ (s.of c).tvSec ∧ (s.of c).InRange

theorem startTime_reading (hs : w.proc.ftplStarttime.Readings) {a : Timespec}
    (ha : a ∈ f.startTime w env D) : a.Normal ∧ 0 ≤ a.tvSec ∧ a.InRange := by
  have hof : ∃ c, a = w.proc.ftplStarttime.of c := by
    cases f with
    | clockNanosleep c =>
      simp only [AbsoluteCall.startTime, Option.mem_def, Option.ite_none_right_eq_some,
        Option.some.injEq] at ha
      exact ⟨c, ha.2.symm⟩
    | semTimedwait =>
      simp only [AbsoluteCall.startTime, Option.mem_def, Option.ite_none_left_eq_some,
        Option.some.injEq] at ha
      exact ⟨.realtime, ha.2.symm⟩
    | timerfdSettime c interval =>
      simp only [AbsoluteCall.startTime, Option.mem_def, Option.ite_none_left_eq_some] at ha
      obtain ⟨-, ha⟩ := ha
      split at ha
      · exact ⟨.monotonic, (Option.some.inj ha).symm⟩
      · exact ⟨.realtime, (Option.some.inj ha).symm⟩
  obtain ⟨c, rfl⟩ := hof
  exact hs c

theorem handed_valid_iff (hs : w.proc.ftplStarttime.Readings)
    (hb : w.proc.userFakedTimeTimespec.Normal) (hb1 : w.proc.userFakedTimeTimespec.InRange)
    (hD : D.InRange) : ((f.handed w env D).Valid ↔ D.Valid) ↔ f.KeepsWhen w env D := by
  unfold AbsoluteCall.handed AbsoluteCall.KeepsWhen
  cases hstart : f.startTime w env D with
  | none => simp
  | some a =>
    obtain ⟨ha, ha0, ha1⟩ := startTime_reading hs hstart
    rw [Option.elim_some, moved_valid_iff ha ha0 ha1 hb hb1 hD]
    simp only [Option.mem_def, Option.some.injEq, forall_eq']
    split
    next hvalid => rw [movesToValid_of_valid ha hb hvalid, iff_true_right hvalid]
    next hvalid => rw [iff_false_right hvalid]

/-- **Whose validity is kept.** A process without a rate: the base and the start times are
arbitrary, and so are the two fields of the request. -/
theorem request_validity_kept_iff (henv : w.HasEnv env) (hrate : w.proc.userRateSet = false)
    (hs : w.proc.ftplStarttime.Readings) (hb : w.proc.userFakedTimeTimespec.Normal)
    (hb1 : w.proc.userFakedTimeTimespec.InRange) (hD : D.InRange) :
    f.KeepsValidity B w D ↔ f.KeepsWhen w env D := by
  rw [← handed_valid_iff hs hb hb1 hD]
  cases f with
  | clockNanosleep c =>
    have hhands := hands_clockNanosleep_moved (c := c) (D := D) henv hrate
    refine ⟨?_, fun h => ⟨_, hhands, h⟩⟩
    rintro ⟨R, hR, hvalid⟩
    have heq := hR.unique hhands
    simp only [Op.realClockNanosleep.injEq, true_and] at heq
    rwa [heq] at hvalid
  | semTimedwait =>
    have hhands := hands_semTimedwait_moved (D := D) env hrate
    refine ⟨?_, fun h => ⟨_, hhands, h⟩⟩
    rintro ⟨R, hR, hvalid⟩
    have heq := hR.unique hhands
    simp only [Op.realSemTimedwait.injEq] at heq
    rwa [heq] at hvalid
  | timerfdSettime c interval =>
    have hhands := hands_timerfdSettime_moved (B := B) (c := c) (D := D) env hrate hb interval
    refine ⟨?_, fun h => ⟨_, _, hhands, h⟩⟩
    rintro ⟨R, i, hR, hvalid⟩
    have heq := hR.unique hhands
    simp only [Op.realTimerSettime.injEq, Option.some.injEq, Itimerspec.mk.injEq, true_and] at heq
    rwa [heq.2] at hvalid

/-- Fifty seconds ahead, a valid request stays valid. -/
theorem request_validity_kept_ahead :
    AbsoluteCall.semTimedwait.KeepsValidity plainBuild
      (calmWorld fiftyAheadEnv (fun _ _ => ⟨60, 0⟩) ⟨0, 0⟩ fiftyAhead) ⟨200, 0⟩ := by
  have hs : fiftyAhead.ftplStarttime.Readings := by
    intro c
    have hof : fiftyAhead.ftplStarttime.of c = ⟨50, 0⟩ := by cases c <;> rfl
    rw [hof]
    exact ⟨by decide, by decide, by decide⟩
  have henv : (calmWorld fiftyAheadEnv (fun _ _ => ⟨60, 0⟩) ⟨0, 0⟩ fiftyAhead).HasEnv
      fiftyAheadEnv := fun _ _ => rfl
  refine (request_validity_kept_iff henv rfl hs (by decide) (by decide) (by decide)).mpr ?_
  rintro a ⟨⟩
  rw [if_pos (by decide)]
  decide

/-- Fifty seconds ahead, a request for the tenth second, which is valid, becomes negative, and
one with too many nanoseconds becomes valid. -/
theorem request_validity_lost :
    ¬ AbsoluteCall.semTimedwait.KeepsValidity plainBuild
        (calmWorld fiftyAheadEnv (fun _ _ => ⟨60, 0⟩) ⟨0, 0⟩ fiftyAhead) ⟨10, 0⟩ ∧
      ¬ (AbsoluteCall.clockNanosleep .realtime).KeepsValidity plainBuild
        (calmWorld fiftyAheadEnv (fun _ _ => ⟨60, 0⟩) ⟨0, 0⟩ fiftyAhead) ⟨200, 1500000000⟩ := by
  constructor
  · rintro ⟨R, hR, hvalid⟩
    have heq := hR.unique (hands_semTimedwait_moved fiftyAheadEnv rfl)
    simp only [Op.realSemTimedwait.injEq] at heq
    rw [heq] at hvalid
    exact absurd hvalid (by decide +kernel)
  · rintro ⟨R, hR, hvalid⟩
    have henv : (calmWorld fiftyAheadEnv (fun _ _ => ⟨60, 0⟩) ⟨0, 0⟩ fiftyAhead).HasEnv
        fiftyAheadEnv := fun _ _ => rfl
    have heq := hR.unique (hands_clockNanosleep_moved henv rfl)
    simp only [Op.realClockNanosleep.injEq, true_and] at heq
    rw [heq] at hvalid
    exact absurd hvalid (by decide +kernel)

end Calls

end LibFaketime
