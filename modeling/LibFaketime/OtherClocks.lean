import LibFaketime.Frozen
import LibFaketime.Semaphore

/-!
# Waiting on the other clocks

The visible clock has a start time for each of the real clocks. The functions that wait until
an absolute time know two of them, and have a default for the rest: `clock_nanosleep` leaves
the deadline as it is, and `timerfd_settime` counts from the start time of `CLOCK_REALTIME`.
So does `timer_settime` for every timer, since it does not know the clock of the timer.

The kernel compares what it is handed with the clock of the wait. Each of these defaults is
right for a clock if and only if the start time of that clock happens to be the one that was
used, or the base (`LibFaketime.absolute_waits_follow_clock_iff`).
-/

namespace LibFaketime

open Effects Effects.Prog Saturate

/-- The visible clock `c` shows `D` when the real one shows `R`, now and later. -/
def World.ReadsAs (B : Build) (w : World) (c : ClockId) (R D : Timespec) : Prop :=
  ∀ w', Like w w' → (fakeClockGettime B c R).answer seq w' = .ok (0, D)

section ReadsAs

variable {B : Build} {w : World} {c : ClockId} {R D : Timespec}

/-- What a serving process shows. -/
theorem Serves.readsAs_iff (hs : Serves B w) (ht : w.proc.TimesStored) (hR : R.Normal) :
    w.ReadsAs B c R D ↔ w.proc.fakeTime c R = D := by
  have hanswer : ∀ w', Like w w' →
      (fakeClockGettime B c R).answer seq w' = .ok (0, w.proc.fakeTime c R) := by
    intro w' hw
    rw [← hw.field Proc.fakeTime]
    exact Runs.answer_eq (Q := Like w')
      (runs_fakeClockGettime (hs.like hw) (ht.of_core hw.core) hR)
  constructor
  · intro h
    have hsame := (hanswer w (.refl w)).symm.trans (h w (.refl w))
    exact congrArg Prod.snd (Except.ok.inj hsame)
  · rintro rfl
    exact hanswer

/-- Without a rate the visible clock keeps distances, so that it shows the deadline if and only
if the real deadline is as far from the start as the deadline from the base. -/
theorem Serves.readsAs_iff_of_fits (hs : Serves B w) (ht : w.proc.TimesStored)
    (hrate : w.proc.userRateSet = false) (hcpu : c.IsCpu = false) (hR : R.Normal) (hD : D.Normal)
    (hfit : w.proc.ClockFits c R.ns) : w.ReadsAs B c R D ↔
      R.ns - (w.proc.ftplStarttime.of c).ns = D.ns - w.proc.userFakedTimeTimespec.ns := by
  have hns : (w.proc.fakeTime c R).ns =
      w.proc.userFakedTimeTimespec.ns + (R.ns - (w.proc.ftplStarttime.of c).ns) := by
    rw [ht.ns_fakeTime_of_fits hcpu hR hfit, Proc.exactTime, Proc.speedUp_of_not hrate]
  rw [hs.readsAs_iff ht hR]
  refine ⟨fun h => ?_, fun h => Timespec.ext_ns (ht.normal_fakeTime hR) hD (by rw [hns]; omega)⟩
  rw [h] at hns
  omega

end ReadsAs

/-! ### What is handed to the kernel -/

section Handed

variable {B : Build} {w : World} {c : ClockId} {D : Timespec}

/-- `clock_nanosleep` hands the deadline over as it is. -/
theorem hands_clockNanosleep_other (hreal : c ≠ .realtime) (hmono : c ≠ .monotonic) (w : World)
    (D : Timespec) : Hands (clockNanosleep c true D) w (.realClockNanosleep c true D) := by
  have hreq : (realRequest c true D).Runs seq w.silent fun r w' => r = D ∧ w' = w.silent := by
    refine runs_load ?_
    rw [if_neg hreal, if_neg hmono]
    exact runs_pure ⟨rfl, rfl⟩
  refine hreq.halts_bind ?_
  rintro _ _ ⟨rfl, rfl⟩
  exact (halts_ask rfl rfl).bind

/-- To `timerfd_settime` every clock but the monotonic one is the realtime clock. -/
theorem timerfdSettime_eq_timerSettime (hmono : c ≠ .monotonic) (abstime : Bool)
    (new : Option Itimerspec) : timerfdSettime B abstime c new = timerSettime B abstime new := by
  have habs : ∀ v, timerAbsolute c v = timerAbsolute .realtime v := by
    intro v
    unfold timerAbsolute
    simp only [hmono, false_and, if_false, reduceCtorEq]
  have hset : ∀ skip, realSetting skip abstime c new = realSetting skip abstime .realtime new := by
    intro skip
    unfold realSetting realValue
    simp only [habs]
  unfold timerfdSettime timerSettime timerSettimeCommon
  simp only [hset]

/-- Nothing saturates on the way from the deadline `d`, counted on the realtime clock, to the
clock `c` at the real deadline. -/
structure Proc.TimerFits (s : Proc) (c : ClockId) (d : ℤ) : Prop where
  distance : Fits (d - s.userFakedTimeTimespec.ns)
  deadline : Fits (s.ftplStarttime.real.ns + (d - s.userFakedTimeTimespec.ns))
  clock : s.ClockFits c (s.ftplStarttime.real.ns + (d - s.userFakedTimeTimespec.ns))

/-- The timers of every clock count from the start time of the realtime clock. -/
theorem timerSettime_follows_iff (hs : Serves B w) (ht : w.proc.TimesStored)
    (hrate : w.proc.userRateSet = false) (hcpu : c.IsCpu = false) (hD : D.Normal)
    (hz : D.isZero = false) (interval : Timespec) (hfit : w.proc.TimerFits c D.ns) :
    ∃ i R, Hands (timerSettime B true (some ⟨interval, D⟩)) w
        (.realTimerSettime true (some ⟨i, R⟩)) ∧
      (w.ReadsAs B c R D ↔ w.proc.ftplStarttime.real.ns = (w.proc.ftplStarttime.of c).ns) := by
  obtain ⟨i, hi⟩ := hands_timerSettimeCommon (B := B) (D := D) hs.faking interval
  rw [if_neg (by rw [hz]; simp)] at hi
  have hst : w.proc.ftplStarttime.real.Stored := ht.start .realtime
  have hR : (w.proc.fromStart .realtime D).Normal :=
    normal_timespecadd hst (normal_realDistance hD.stored ht.base).stored
  have hns : (w.proc.fromStart .realtime D).ns =
      w.proc.ftplStarttime.real.ns + (D.ns - w.proc.userFakedTimeTimespec.ns) := by
    rw [ns_fromStart ht hrate hD, hfit.distance.satNs, hfit.deadline.satNs]
  refine ⟨i, _, hi, ?_⟩
  rw [hs.readsAs_iff_of_fits ht hrate hcpu hR hD (hns ▸ hfit.clock), hns]
  omega

/-- **An absolute wait ends when the visible clock shows the deadline if and only if the clock
has the right start time.** A process serves a start-at clock without a rate, `c` is a clock it
fakes, and nothing saturates for the deadline `D`. Unless `c` is `CLOCK_REALTIME` or
`CLOCK_MONOTONIC`, `clock_nanosleep` hands over a real time at which `c` shows `D` if and only
if the base is the start time of `c`, and `timerfd_settime` if and only if `CLOCK_REALTIME` and
`c` have the same start time. The latter holds of `timer_settime` and every `c`. -/
theorem absolute_waits_follow_clock_iff (hs : Serves B w) (ht : w.proc.TimesStored)
    (hrate : w.proc.userRateSet = false) (hcpu : c.IsCpu = false) (hD : D.Normal)
    (hz : D.isZero = false) (interval : Timespec) :
    (c ≠ .realtime → c ≠ .monotonic → w.proc.ClockFits c D.ns →
      ∃ R, Hands (clockNanosleep c true D) w (.realClockNanosleep c true R) ∧
        (w.ReadsAs B c R D ↔
          w.proc.userFakedTimeTimespec.ns = (w.proc.ftplStarttime.of c).ns)) ∧
    (c ≠ .realtime → c ≠ .monotonic → w.proc.TimerFits c D.ns →
      ∃ i R, Hands (timerfdSettime B true c (some ⟨interval, D⟩)) w
          (.realTimerSettime true (some ⟨i, R⟩)) ∧
        (w.ReadsAs B c R D ↔ w.proc.ftplStarttime.real.ns = (w.proc.ftplStarttime.of c).ns)) ∧
    (w.proc.TimerFits c D.ns → ∃ i R, Hands (timerSettime B true (some ⟨interval, D⟩)) w
          (.realTimerSettime true (some ⟨i, R⟩)) ∧
        (w.ReadsAs B c R D ↔ w.proc.ftplStarttime.real.ns = (w.proc.ftplStarttime.of c).ns)) := by
  have htimer : w.proc.TimerFits c D.ns → ∃ i R, Hands (timerSettime B true (some ⟨interval, D⟩)) w
      (.realTimerSettime true (some ⟨i, R⟩)) ∧
      (w.ReadsAs B c R D ↔ w.proc.ftplStarttime.real.ns = (w.proc.ftplStarttime.of c).ns) :=
    fun hfit => timerSettime_follows_iff hs ht hrate hcpu hD hz interval hfit
  refine ⟨fun hreal hmono hfit => ?_, fun _ hmono hfit => ?_, htimer⟩
  · refine ⟨D, hands_clockNanosleep_other hreal hmono w D, ?_⟩
    rw [hs.readsAs_iff_of_fits ht hrate hcpu hD hD hfit]
    omega
  · rw [timerfdSettime_eq_timerSettime hmono]
    exact htimer hfit

/-- A process all of whose clocks started at the same time. -/
theorem absolute_waits_follow_clock_of_common_start :
    ∃ i R, Hands (timerfdSettime plainBuild true .boottime (some ⟨⟨0, 0⟩, ⟨200, 0⟩⟩))
        (calmWorld fiftyAheadEnv (fun _ _ => ⟨60, 0⟩) ⟨0, 0⟩ fiftyAhead)
        (.realTimerSettime true (some ⟨i, R⟩)) ∧
      (calmWorld fiftyAheadEnv (fun _ _ => ⟨60, 0⟩) ⟨0, 0⟩ fiftyAhead).ReadsAs plainBuild
        .boottime R
        ⟨200, 0⟩ := by
  have hfit : fiftyAhead.TimerFits .boottime (⟨200, 0⟩ : Timespec).ns := by
    refine ⟨?_, ?_, ?_, ?_, ?_⟩ <;> decide +kernel
  obtain ⟨-, htimerfd, -⟩ := absolute_waits_follow_clock_iff (c := .boottime) (D := ⟨200, 0⟩)
    (fiftyAhead_serves fun _ _ => ⟨60, 0⟩) fiftyAhead_timesStored rfl rfl (by decide) rfl ⟨0, 0⟩
  obtain ⟨i, R, hR, hiff⟩ := htimerfd (by decide) (by decide) hfit
  exact ⟨i, R, hR, hiff.mpr rfl⟩

/-- The process with `FAKETIME='+50'` on a machine whose other clocks are younger than its
realtime clock. -/
def youngClocks : Proc :=
  { fiftyAhead with ftplStarttime := ⟨⟨50, 0⟩, ⟨20, 0⟩, ⟨20, 0⟩, ⟨20, 0⟩⟩ }

theorem youngClocks_timesStored : youngClocks.TimesStored := by
  refine ⟨by decide, fun c => ?_⟩
  cases c <;> exact (by decide : (⟨50, 0⟩ : Timespec).Stored)

/-- A sleep until `⟨200, 0⟩` on `CLOCK_BOOTTIME` ends when that clock shows `⟨280, 0⟩`. A timer
on it expires when it shows `⟨230, 0⟩`, and so does one on `CLOCK_MONOTONIC`. -/
theorem absolute_waits_miss_clock :
    let w := calmWorld fiftyAheadEnv (fun _ _ => ⟨30, 0⟩) ⟨0, 0⟩ youngClocks
    Hands (clockNanosleep .boottime true ⟨200, 0⟩) w (.realClockNanosleep .boottime true ⟨200, 0⟩) ∧
      w.ReadsAs plainBuild .boottime ⟨200, 0⟩ ⟨280, 0⟩ ∧
      ¬ w.ReadsAs plainBuild .boottime ⟨200, 0⟩ ⟨200, 0⟩ ∧
    Hands (timerfdSettime plainBuild true .boottime (some ⟨⟨0, 0⟩, ⟨200, 0⟩⟩)) w
        (.realTimerSettime true (some ⟨⟨0, 0⟩, ⟨150, 0⟩⟩)) ∧
      w.ReadsAs plainBuild .boottime ⟨150, 0⟩ ⟨230, 0⟩ ∧
      ¬ w.ReadsAs plainBuild .boottime ⟨150, 0⟩ ⟨200, 0⟩ ∧
    Hands (timerSettime plainBuild true (some ⟨⟨0, 0⟩, ⟨200, 0⟩⟩)) w
        (.realTimerSettime true (some ⟨⟨0, 0⟩, ⟨150, 0⟩⟩)) ∧
      w.ReadsAs plainBuild .monotonic ⟨150, 0⟩ ⟨230, 0⟩ ∧
      ¬ w.ReadsAs plainBuild .monotonic ⟨150, 0⟩ ⟨200, 0⟩ := by
  intro w
  have hs : Serves plainBuild w :=
    serves_calmWorld _ rfl rfl rfl rfl rfl rfl rfl rfl (by decide) rfl
  have hreads : ∀ {c : ClockId} {R D : Timespec}, R.Normal → (w.ReadsAs plainBuild c R D ↔
      w.proc.fakeTime c R = D) := fun hR => hs.readsAs_iff youngClocks_timesStored hR
  have htimer : Hands (timerSettime plainBuild true (some ⟨⟨0, 0⟩, ⟨200, 0⟩⟩)) w
      (.realTimerSettime true (some ⟨⟨0, 0⟩, ⟨150, 0⟩⟩)) := rfl
  refine ⟨hands_clockNanosleep_other (by decide) (by decide) w _, (hreads (by decide)).mpr rfl,
    fun h => absurd ((hreads (by decide)).mp h) (by decide), ?_, (hreads (by decide)).mpr rfl,
    fun h => absurd ((hreads (by decide)).mp h) (by decide), htimer, (hreads (by decide)).mpr rfl,
    fun h => absurd ((hreads (by decide)).mp h) (by decide)⟩
  rw [timerfdSettime_eq_timerSettime (by decide)]
  exact htimer

end Handed

end LibFaketime
