import LibFaketime.Consistent
import LibFaketime.Deadline

/-!
# Waiting on a clock that stands still

In `FT_FREEZE` mode the visible clock is a fixed time, or the real time if none has been set.
The functions that wait until an absolute time know nothing of that: they count from the start
time and the base as if the clock had been running from there since the process was started.

For the deadline a program computes from the clock it sees, a time `d` from now, the kernel is
therefore handed the real time `d` from the start of the process, and not from now
(`LibFaketime.frozen_deadlines_iff`); without a fixed time it is handed one that is about as
far in the future as the epoch is in the past.
-/

namespace LibFaketime

open Effects Effects.Prog Saturate

section Handed

variable {B : Build} {w : World} {D : Timespec}

theorem hands_clockNanosleep : Hands (clockNanosleep .realtime true D) w
    (.realClockNanosleep .realtime true (w.proc.fromStart .realtime D)) := rfl

theorem hands_semTimedwait (hfake : w.dontFake = false) (hrate : w.proc.userRateSet = false) :
    Hands (semTimedwait D) w (.realSemTimedwait (w.proc.fromStart .realtime D)) := by
  have hdist : w.proc.realDistance D w.proc.userFakedTimeTimespec =
      timespecsub D w.proc.userFakedTimeTimespec := by
    rw [Proc.realDistance, hrate, if_neg (by simp)]
  refine halts_dontFake ?_
  rw [show w.silent.dontFake = false from hfake, if_neg (by simp)]
  refine halts_load ?_
  dsimp only
  rw [show w.silent.proc = w.proc from rfl, hrate, if_neg (by simp), Proc.fromStart, hdist]
  exact halts_ask rfl rfl

/-- A time of zero disarms a timer; any other is counted from the start. -/
theorem hands_timerSettimeCommon (hfake : w.dontFake = false) (interval : Timespec) :
    ∃ i, Hands (timerSettimeCommon B true .realtime (some ⟨interval, D⟩)) w
      (.realTimerSettime true
        (some ⟨i, if D.isZero then D else w.proc.fromStart .realtime D⟩)) := by
  have hset : ∃ i, (realSetting w.silent.dontFake true .realtime (some ⟨interval, D⟩)).Runs seq
      w.silent fun r w' =>
        r = some ⟨i, if D.isZero then D else w.proc.fromStart .realtime D⟩ ∧ w' = w.silent := by
    rw [show w.silent.dontFake = false from hfake]
    refine ⟨if interval.isZero then interval else w.proc.scaleDown interval, ?_⟩
    unfold realSetting realValue
    dsimp only
    rw [if_neg (by simp)]
    split
    · exact runs_load (runs_pure ⟨rfl, rfl⟩)
    · rw [if_pos rfl]
      unfold timerAbsolute
      refine Runs.bind (Q := fun r w' => r = w.proc.fromStart .realtime D ∧ w' = w.silent) ?_ ?_
      · exact runs_load (runs_pure ⟨rfl, rfl⟩)
      · rintro _ _ ⟨rfl, rfl⟩
        exact runs_load (runs_pure ⟨rfl, rfl⟩)
  obtain ⟨i, hset⟩ := hset
  refine ⟨i, halts_dontFake (hset.halts_bind ?_)⟩
  rintro _ _ ⟨rfl, rfl⟩
  exact (halts_ask rfl rfl).bind

end Handed

/-! ### Deadlines from the visible clock -/

/-- Every function that waits until `D` hands the kernel the real time `R`, in
nanoseconds. -/
structure HandsAll (B : Build) (w : World) (D : Timespec) (R : ℤ) : Prop where
  nanosleep : ∃ r, Hands (clockNanosleep .realtime true D) w
    (.realClockNanosleep .realtime true r) ∧ r.ns = R
  sem : ∃ r, Hands (semTimedwait D) w (.realSemTimedwait r) ∧ r.ns = R
  timer : ∀ interval, ∃ i r, Hands (timerSettime B true (some ⟨interval, D⟩)) w
    (.realTimerSettime true (some ⟨i, r⟩)) ∧ r.ns = R
  timerfd : ∀ interval, ∃ i r, Hands (timerfdSettime B true .realtime (some ⟨interval, D⟩)) w
    (.realTimerSettime true (some ⟨i, r⟩)) ∧ r.ns = R

section Deadlines

variable {B : Build} {w : World} {D t : Timespec} {R d : ℤ}

theorem ns_fromStart {s : Proc} (hs : s.TimesStored) (hrate : s.userRateSet = false)
    (hD : D.Normal) : (s.fromStart .realtime D).ns =
      satNs (s.ftplStarttime.real.ns + satNs (D.ns - s.userFakedTimeTimespec.ns)) := by
  have hdist : s.realDistance D s.userFakedTimeTimespec =
      timespecsub D s.userFakedTimeTimespec := by
    rw [Proc.realDistance, hrate, if_neg (by simp)]
  rw [Proc.fromStart, hdist,
    ns_timespecadd (hs.start _) (normal_timespecsub hD.stored hs.base).stored,
    ns_timespecsub hD.stored hs.base]
  rfl

/-- What all of them hand over is one time, but for a timer that is disarmed. -/
theorem handsAll_iff (hfake : w.dontFake = false) (hrate : w.proc.userRateSet = false) :
    HandsAll B w D R ↔ (w.proc.fromStart .realtime D).ns = R ∧ (D.isZero = true → D.ns = R) := by
  constructor
  · rintro ⟨⟨r, hr, hR⟩, -, htimer, -⟩
    have heq := hr.unique hands_clockNanosleep
    simp only [Op.realClockNanosleep.injEq, true_and] at heq
    refine ⟨by rw [← heq, hR], fun hz => ?_⟩
    obtain ⟨i, r', hr', hR'⟩ := htimer ⟨0, 0⟩
    obtain ⟨j, hj⟩ := hands_timerSettimeCommon (B := B) (D := D) hfake ⟨0, 0⟩
    have heq' := hr'.unique hj
    simp only [Op.realTimerSettime.injEq, Option.some.injEq, Itimerspec.mk.injEq, true_and, hz,
      if_true] at heq'
    rw [← hR', heq'.2]
  · rintro ⟨hR, hz⟩
    have htimer : ∀ interval, ∃ i r, Hands
        (timerSettimeCommon B true .realtime (some ⟨interval, D⟩)) w
        (.realTimerSettime true (some ⟨i, r⟩)) ∧ r.ns = R := by
      intro interval
      obtain ⟨i, hi⟩ := hands_timerSettimeCommon (B := B) (D := D) hfake interval
      refine ⟨i, _, hi, ?_⟩
      split
      next hzero => exact hz hzero
      next => exact hR
    exact ⟨⟨_, hands_clockNanosleep, hR⟩, ⟨_, hands_semTimedwait hfake hrate, hR⟩, htimer, htimer⟩

/-- The exact condition, on the numbers: the frozen time `b`, the start time `a`, now `t`. -/
theorem frozen_numbers_iff {a b t : ℤ} (hat : a ≤ t) (ha : 0 ≤ a) (hb : nsMin ≤ b) (hb' : b ≤ nsMax)
    (ht : t ≤ nsMax) :
    (∀ D : Timespec, ∀ d : ℤ, 0 ≤ d → D.Normal → D.ns = b + d → Fits D.ns → Fits (t + d) →
      satNs (a + satNs (D.ns - b)) = t + d ∧ (D.isZero = true → D.ns = t + d)) ↔
    t = a ∧ (0 < b ∨ nsMax < t - b ∨ b = 0 ∧ t = 0) := by
  have hmin : nsMin < 0 := by decide
  constructor
  · intro h
    -- a wait for no time at all ends at the start time
    have hnow := (h (.ofNs b) 0 le_rfl (Timespec.normal_ofNs b) (by simp)
      (by rw [Timespec.ns_ofNs]; exact ⟨hb, hb'⟩) ⟨by omega, by omega⟩).1
    rw [Timespec.ns_ofNs, sub_self, satNs_eq_self (x := 0) (by decide) (by decide), add_zero,
      add_zero, satNs_eq_self (by omega) (by omega)] at hnow
    refine ⟨hnow.symm, ?_⟩
    by_contra hcon
    push Not at hcon
    obtain ⟨hb0, hfar, hzero⟩ := hcon
    -- the time zero does not wait, it disarms the timer
    have hdisarm := (h ⟨0, 0⟩ (-b) (by omega) (by decide)
      (by rw [show (⟨0, 0⟩ : Timespec).ns = 0 from rfl]; omega)
      (by decide) ⟨by omega, by omega⟩).2 rfl
    rw [show (⟨0, 0⟩ : Timespec).ns = 0 from rfl] at hdisarm
    omega
  · rintro ⟨rfl, hcond⟩ D d hd - hD - ⟨hlo, hhi⟩
    have hsub : D.ns - b = d := by omega
    have hfit : satNs d = d := satNs_eq_self (by omega) (by omega)
    refine ⟨by rw [hsub, hfit, satNs_eq_self hlo hhi], fun hz => ?_⟩
    have := ns_of_isZero hz
    omega

/-- **The kernel is handed the deadline the program means if and only if no time has
passed.** In `FT_FREEZE` mode without a rate, with a fixed time or with none, let the real
clock show `t` and `V` be what `clock_gettime` reports. Then `clock_nanosleep`,
`sem_timedwait`, `timer_settime` and `timerfd_settime` hand over `t + d` for every deadline
`V + d` if and only if a fixed time is set, `t` is the start time, and the fixed time is later
than the epoch (or both are the epoch, or the epoch is too far from now for any wait). -/
theorem frozen_deadlines_iff (hs : Responds B w) (hfake : w.dontFake = false)
    (hstored : w.proc.TimesStored) (hmode : w.proc.ftMode = .freeze)
    (hrate : w.proc.userRateSet = false)
    (hset : w.proc.userFakedTimeSet = false → w.proc.userFakedTimeTimespec = .unset)
    (hbase : Fits w.proc.userFakedTimeTimespec.ns) (ht : t.Normal) (hmax : t.ns < nsMax)
    (hstart : w.proc.ftplStarttime.real.Normal) (hpos : 0 ≤ w.proc.ftplStarttime.real.ns)
    (hle : w.proc.ftplStarttime.real.ns ≤ t.ns) (hat : w.At t) :
    (clockGettime B .realtime).Runs seq w fun r w' => ∃ V : Timespec, r = (0, some V) ∧
      ((∀ D d, 0 ≤ d → D.Normal → D.ns = V.ns + d → Fits D.ns → Fits (t.ns + d) →
          HandsAll B w' D (t.ns + d)) ↔
        w.proc.userFakedTimeSet = true ∧ t = w.proc.ftplStarttime.real ∧
          (0 < w.proc.userFakedTimeTimespec.ns ∨ nsMax < t.ns - w.proc.userFakedTimeTimespec.ns ∨
            w.proc.userFakedTimeTimespec.ns = 0 ∧ t.ns = 0)) := by
  refine (runs_clockGettime hs hat).mono ?_
  rintro _ w' ⟨rfl, hlike⟩
  refine ⟨_, rfl, ?_⟩
  have hfake' : w'.dontFake = false := hlike.dontFake.trans hfake
  have hrate' : w'.proc.userRateSet = false := (hlike.field Proc.userRateSet).trans hrate
  have hV : (w.shown .realtime t).ns =
      if w.proc.userFakedTimeSet then w.proc.userFakedTimeTimespec.ns else t.ns := by
    rw [World.shown, hfake, if_neg (by simp), Proc.shown, if_neg (by decide),
      ns_normalizeTimespecValue, Proc.byMode, hmode]
    dsimp only
    split <;> rfl
  have hall : ∀ {D : Timespec} {R : ℤ}, D.Normal → (HandsAll B w' D R ↔
      satNs (w.proc.ftplStarttime.real.ns + satNs (D.ns - w.proc.userFakedTimeTimespec.ns)) = R ∧
        (D.isZero = true → D.ns = R)) := by
    intro D R hD
    rw [handsAll_iff hfake' hrate', ns_fromStart (hstored.of_core hlike.core) hrate' hD,
      hlike.field Proc.ftplStarttime, hlike.field Proc.userFakedTimeTimespec]
  cases hflag : w.proc.userFakedTimeSet with
  | true =>
    rw [hV, hflag, if_pos rfl]
    have hnum := frozen_numbers_iff hle hpos hbase.1 hbase.2 hmax.le
    have hext : t = w.proc.ftplStarttime.real ↔ t.ns = w.proc.ftplStarttime.real.ns :=
      ⟨fun h => by rw [h], Timespec.ext_ns ht hstart⟩
    rw [hext]
    simp only [true_and]
    rw [← hnum]
    refine forall_congr' fun D => forall_congr' fun d => forall_congr' fun hd =>
      forall_congr' fun hD => ?_
    rw [hall hD]
  | false =>
    -- the distance from the marker `{0, -1}` is no wait at all
    rw [hV, hflag, if_neg (by simp)]
    refine ⟨fun h => ?_, fun h => absurd h.1 (by simp)⟩
    have hmin : nsMin < 0 := by decide
    have hnow := ((hall ht).mp (h t 0 le_rfl ht (by omega) ⟨by omega, by omega⟩
      ⟨by omega, by omega⟩)).1
    rw [hset hflag, show Timespec.unset.ns = -1 from rfl, satNs_eq_self (x := t.ns - -1) (by omega)
      (by omega)] at hnow
    exfalso
    revert hnow
    unfold satNs clamp
    omega

end Deadlines

/-! ### A process of `FAKETIME='1970-01-01 00:01:40'` -/

/-- Its environment. -/
def frozenEnv : EnvVar → Option CStr
  | .faketime => some "1970-01-01 00:01:40".toList
  | _ => none

/-- Its variables, if it was started at `⟨50, 0⟩`. -/
def frozenProc : Proc :=
  { Proc.initial with
    ftplStarttime := ⟨⟨50, 0⟩, ⟨50, 0⟩, ⟨50, 0⟩, ⟨50, 0⟩⟩
    userFakedTimeFmt := "%Y-%m-%d %T".toList
    userFakedTimeTimespec := ⟨100, 0⟩
    userFakedTimeSet := true
    userFakedTimeSaved := "1970-01-01 00:01:40".toList
    parseConfigFile := false
    sharedSemInitialized := true }

/-- Its world when the real clock shows `t`. -/
def frozenWorld (t : Timespec) : World := calmWorld frozenEnv (fun _ _ => t) ⟨0, 0⟩ frozenProc

theorem frozenWorld_responds (t : Timespec) : Responds epochBuild (frozenWorld t) := by
  have hcalm : Calm (frozenWorld t) :=
    ⟨fun _ => ⟨_, rfl⟩, fun _ => rfl, fun _ => rfl, fun _ _ => ⟨_, rfl⟩⟩
  have hmono : MonotonicFixed (frozenWorld t) none none := ⟨fun _ => rfl, fun _ => rfl, nofun⟩
  refine ⟨hcalm, by decide, FtMode.noConfusion, nofun, rfl, rfl, rfl, nofun, ?_⟩
  exact configFixed_of_unchanged hcalm.clock (fun _ => rfl) rfl rfl hmono

/-- Right after the start, a wait of ten seconds ends ten seconds from now. -/
theorem frozen_deadlines_at_start :
    (clockGettime epochBuild .realtime).Runs seq (frozenWorld ⟨50, 0⟩) fun r w' =>
      ∃ V : Timespec, r = (0, some V) ∧ ∀ D : Timespec, D.Normal → D.ns = V.ns + 10000000000 →
        Fits D.ns → HandsAll epochBuild w' D 60000000000 := by
  have hstored : (frozenWorld ⟨50, 0⟩).proc.TimesStored :=
    ⟨by decide, fun c => by cases c <;> exact (by decide : (⟨50, 0⟩ : Timespec).Stored)⟩
  refine (frozen_deadlines_iff (frozenWorld_responds ⟨50, 0⟩) rfl hstored rfl rfl nofun (by decide)
    (t := ⟨50, 0⟩) (by decide) (by decide) (by decide) (by decide) (by decide)
    ⟨fun _ => rfl, fun _ => rfl, fun _ => rfl, fun _ => rfl⟩).mono ?_
  rintro r w' ⟨V, hr, hiff⟩
  refine ⟨V, hr, fun D hD hns hfit => ?_⟩
  exact hiff.mpr ⟨rfl, rfl, Or.inl (by decide)⟩ D 10000000000 (by decide) hD hns hfit (by decide)

/-- Ten seconds later the program still sees `⟨100, 0⟩`, and a wait until `⟨110, 0⟩` is over
at once. -/
theorem frozen_wait_ends_at_once :
    (clockGettime epochBuild .realtime).Runs seq (frozenWorld ⟨60, 0⟩) fun r w' =>
      r = (0, some ⟨100, 0⟩) ∧
        Hands (clockNanosleep .realtime true ⟨110, 0⟩) w'
          (.realClockNanosleep .realtime true ⟨60, 0⟩) ∧
        ¬ HandsAll epochBuild w' ⟨110, 0⟩ ((⟨60, 0⟩ : Timespec).ns + 10000000000) := by
  refine ⟨_, _, rfl, rfl, rfl, fun h => ?_⟩
  have hiff := (handsAll_iff rfl rfl).mp h
  exact absurd hiff.1 (by decide)

end LibFaketime
