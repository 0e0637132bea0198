import LibFaketime.Calls
import LibFaketime.Deadline

/-!
# Waiting for a semaphore

The library has two copies of one computation: `sem_timedwait`, and `sem_clockwait`, which
also knows the monotonic clock. The copies differ. On the monotonic clock `sem_clockwait`
takes the distance of the deadline from now and adds it to the time the process was started,
so that it wakes too early by the age of the process (`LibFaketime.sem_clockwait_wakes_iff`).
And where `sem_clockwait` divides a distance by the rate, `sem_timedwait` multiplies it
(`LibFaketime.semaphores_wait_alike_iff`).
-/

namespace LibFaketime

open Effects Effects.Prog Saturate

/-! ### What is handed to the kernel -/

section Handed

variable {B : Build} {w : World} {c : ClockId} {D now : Timespec}

/-- The deadline of `sem_timedwait`. -/
def Proc.timedwaitDeadline (s : Proc) (D : Timespec) : Timespec :=
  let tdiff := timespecsub D s.userFakedTimeTimespec
  timespecadd s.ftplStarttime.real (if s.userRateSet then timespecmul tdiff s.userRate else tdiff)

/-- The deadline of `sem_clockwait`, the real monotonic clock showing `now`. -/
def Proc.clockwaitDeadline (s : Proc) (c : ClockId) (D now : Timespec) : Timespec :=
  timespecadd (s.ftplStarttime.of c) (s.realDistance D
    (if c = .monotonic then s.fakeTime c now else s.userFakedTimeTimespec))

theorem hands_semTimedwait_of (w : World) (D : Timespec) : Hands (semTimedwait D) w
    (.realSemTimedwait (if w.dontFake then D else w.proc.timedwaitDeadline D)) := by
  refine halts_dontFake ?_
  rw [show w.silent.dontFake = w.dontFake from rfl]
  split
  · exact halts_ask rfl rfl
  · exact halts_load (halts_ask rfl rfl)

/-- On the realtime clock nothing is asked for on the way. -/
theorem hands_semClockwait_realtime (w : World) (now D : Timespec) :
    Hands (semClockwaitCommon B .realtime (some D)) w (.realSemClockwait .realtime
      (some (if w.dontFake then D else w.proc.clockwaitDeadline .realtime D now))) := by
  refine halts_load ?_
  rw [show (!w.silent.proc.fakeMonotonicClock && ClockId.realtime == .monotonic) = false from
    Bool.and_false _, if_neg (by simp)]
  dsimp only
  rw [if_neg (by simp)]
  refine halts_dontFake ?_
  rw [show w.silent.dontFake = w.dontFake from rfl]
  split
  · exact halts_ask rfl rfl
  · unfold LibFaketime.clockwaitDeadline
    rw [if_neg (by decide)]
    exact halts_load (halts_ask rfl rfl)

/-- On the monotonic clock the time is asked for first. -/
theorem hands_semClockwait_monotonic (hs : Serves B w) (ht : w.proc.TimesStored)
    (hmono : w.proc.fakeMonotonicClock = true)
    (hnow : w.os w.now (.realClockGettime .monotonic) = some (some now)) (hn : now.Normal) :
    Hands (semClockwaitCommon B .monotonic (some D)) w
      (.realSemClockwait .monotonic (some (w.proc.clockwaitDeadline .monotonic D now))) := by
  have htick : Like w w.tick := ⟨rfl, rfl, rfl, rfl, rfl, rfl⟩
  have hquery := runs_silent (prompt_fakeClockGettime (trivial : True) .monotonic now)
    (runs_fakeClockGettime (hs.like htick) (ht.of_core htick.core) hn)
  have hdeadline : (clockwaitDeadline B .monotonic D).Runs seq w.silent fun r w' =>
      r = .ok (w.proc.clockwaitDeadline .monotonic D now) ∧ ∃ v, w' = World.silent v := by
    unfold LibFaketime.clockwaitDeadline
    rw [if_pos rfl]
    refine runs_realClockGettime (r := some now) hnow (hquery.bind ?_)
    rintro _ _ ⟨v, rfl, rfl, hlike⟩
    refine runs_load (runs_pure ⟨?_, v, rfl⟩)
    exact congrArg Except.ok (hlike.field fun s => timespecadd s.ftplStarttime.mon
      (s.realDistance D (w.proc.fakeTime .monotonic now)))
  refine halts_load ?_
  rw [show w.silent.proc.fakeMonotonicClock = true from hmono, Bool.not_true, Bool.false_and,
    if_neg (by simp)]
  dsimp only
  rw [if_neg (by simp)]
  refine halts_dontFake ?_
  rw [show w.silent.dontFake = false from hs.faking, if_neg (by simp)]
  refine hdeadline.halts_bind ?_
  rintro _ _ ⟨rfl, v, rfl⟩
  exact halts_ask rfl rfl

end Handed

/-! ### The visible clock at the real deadline -/

section Wakes

variable {B : Build} {w : World} {s : Proc} {c : ClockId} {D now : Timespec}

/-- The time the distance of a deadline is taken from, in nanoseconds. -/
def Proc.countsFrom (s : Proc) (c : ClockId) (now : ℤ) : ℤ :=
  if c = .monotonic then s.exactTime c now else s.userFakedTimeTimespec.ns

/-- Nothing saturates on the way from the deadline `d` to the clock at the real deadline. -/
structure Proc.ClockwaitFits (s : Proc) (c : ClockId) (d now : ℤ) : Prop where
  query : c = .monotonic → s.ClockFits c now
  distance : Fits (d - s.countsFrom c now)
  deadline : Fits ((s.ftplStarttime.of c).ns + (d - s.countsFrom c now))
  clock : s.ClockFits c ((s.ftplStarttime.of c).ns + (d - s.countsFrom c now))

theorem ns_clockwaitDeadline (ht : s.TimesStored) (hrate : s.userRateSet = false)
    (hc : c.IsCpu = false) (hD : D.Normal) (hn : now.Normal)
    (hfit : s.ClockwaitFits c D.ns now.ns) :
    (s.clockwaitDeadline c D now).Normal ∧ (s.clockwaitDeadline c D now).ns =
      (s.ftplStarttime.of c).ns + (D.ns - s.countsFrom c now.ns) := by
  have hfrom : ∀ {b : Timespec}, b.Stored → b.ns = s.countsFrom c now.ns →
      (timespecadd (s.ftplStarttime.of c) (s.realDistance D b)).Normal ∧
        (timespecadd (s.ftplStarttime.of c) (s.realDistance D b)).ns =
          (s.ftplStarttime.of c).ns + (D.ns - s.countsFrom c now.ns) := by
    intro b hb hbase
    have hdist : Fits (D.ns - b.ns) := hbase ▸ hfit.distance
    have hdelay : Fits (s.slowDown (D.ns - b.ns)) := by rwa [Proc.slowDown_of_not hrate]
    have hnorm := normal_realDistance (s := s) hD.stored hb
    refine ⟨normal_timespecadd (ht.start c) hnorm.stored, ?_⟩
    rw [ns_timespecadd (ht.start c) hnorm.stored, ns_realDistance hD.stored hb hdist hdelay,
      Proc.slowDown_of_not hrate, hbase]
    exact hfit.deadline.satNs
  unfold Proc.clockwaitDeadline
  split
  next hmono =>
    refine hfrom (ht.normal_fakeTime hn).stored ?_
    rw [ht.ns_fakeTime_of_fits hc hn (hfit.query hmono), Proc.countsFrom, if_pos hmono]
  next hmono => exact hfrom ht.base (if_neg hmono).symm

/-- **`sem_clockwait` wakes at the deadline if and only if the clock is not the monotonic one,
or the process has just been started.** A process serves a start-at clock without a rate, and
nothing saturates for the deadline `D`. Then `sem_clockwait` hands a real deadline to the
system, and the visible clock shows `D` then if and only if the clock is `CLOCK_REALTIME` or
the real monotonic clock shows the start time at the call. -/
theorem sem_clockwait_wakes_iff (hs : Serves B w) (ht : w.proc.TimesStored)
    (hrate : w.proc.userRateSet = false) (hc : FakedClock w.proc c)
    (hnow : c = .monotonic → w.os w.now (.realClockGettime c) = some (some now)) (hn : now.Normal)
    (hD : D.Normal) (hfit : w.proc.ClockwaitFits c D.ns now.ns) :
    ∃ R, Hands (semClockwaitCommon B c (some D)) w (.realSemClockwait c (some R)) ∧
      ∃ v, (∀ w', Like w w' → (fakeClockGettime B c R).Runs seq w' fun r _ => r = (0, v)) ∧
        (v = D ↔ c = .realtime ∨ now.ns = w.proc.ftplStarttime.mon.ns) := by
  obtain ⟨hR, hns⟩ := ns_clockwaitDeadline ht hrate hc.notCpu hD hn hfit
  have hhands : Hands (semClockwaitCommon B c (some D)) w
      (.realSemClockwait c (some (w.proc.clockwaitDeadline c D now))) := by
    rcases hc with rfl | ⟨rfl, hmono⟩
    · have h := hands_semClockwait_realtime (B := B) w now D
      rwa [hs.faking, if_neg (by simp)] at h
    · exact hands_semClockwait_monotonic hs ht hmono (hnow rfl) hn
  refine ⟨_, hhands, w.proc.fakeTime c (w.proc.clockwaitDeadline c D now), fun w' hw => ?_, ?_⟩
  · have hquery : (fakeClockGettime B c _).Runs seq w' _ :=
      runs_fakeClockGettime (hs.like hw) (ht.of_core hw.core) hR
    rw [hw.field Proc.fakeTime] at hquery
    exact hquery.mono fun _ _ h => h.1
  · -- what the clock shows at the deadline is off by what the distance was counted from
    have hshown : (w.proc.fakeTime c (w.proc.clockwaitDeadline c D now)).ns =
        w.proc.userFakedTimeTimespec.ns + (D.ns - w.proc.countsFrom c now.ns) := by
      rw [ht.ns_fakeTime_of_fits hc.notCpu hR (hns ▸ hfit.clock), hns, Proc.exactTime,
        Proc.speedUp_of_not hrate]
      ring
    have hext : w.proc.fakeTime c (w.proc.clockwaitDeadline c D now) = D ↔
        w.proc.countsFrom c now.ns = w.proc.userFakedTimeTimespec.ns := by
      refine ⟨fun h => ?_, fun h =>
        Timespec.ext_ns (ht.normal_fakeTime hR) hD (by rw [hshown]; omega)⟩
      rw [h] at hshown
      omega
    rw [hext]
    rcases hc with rfl | ⟨rfl, -⟩
    · exact iff_of_true rfl (Or.inl rfl)
    · rw [Proc.countsFrom, if_pos rfl, Proc.exactTime, Proc.speedUp_of_not hrate]
      simp only [SystemTime.of, reduceCtorEq, false_or]
      omega

/-- A process that has just been started. -/
theorem sem_clockwait_wakes_at_start :
    ∃ R, Hands (semClockwaitCommon plainBuild .monotonic (some ⟨200, 0⟩))
        (calmWorld fiftyAheadEnv (fun _ _ => ⟨50, 0⟩) ⟨0, 0⟩ fiftyAhead)
        (.realSemClockwait .monotonic (some R)) ∧
      (fakeClockGettime plainBuild .monotonic R).Runs seq
        (calmWorld fiftyAheadEnv (fun _ _ => ⟨50, 0⟩) ⟨0, 0⟩ fiftyAhead) fun r _ =>
          r = (0, ⟨200, 0⟩) := by
  have hfit : fiftyAhead.ClockwaitFits .monotonic (⟨200, 0⟩ : Timespec).ns
      (⟨50, 0⟩ : Timespec).ns := by
    refine ⟨fun _ => ⟨?_, ?_, ?_⟩, ?_, ?_, ?_, ?_, ?_⟩ <;> decide +kernel
  obtain ⟨R, hR, v, hv, hiff⟩ := sem_clockwait_wakes_iff (fiftyAhead_serves fun _ _ => ⟨50, 0⟩)
    fiftyAhead_timesStored rfl (Or.inr ⟨rfl, rfl⟩) (fun _ => rfl) (by decide) (by decide) hfit
  refine ⟨R, hR, ?_⟩
  rw [← hiff.mpr (Or.inr rfl)]
  exact hv _ (.refl _)

/-- Ten seconds later the visible clock shows `⟨190, 0⟩` when the wait is over. -/
theorem sem_clockwait_wakes_early :
    Hands (semClockwaitCommon plainBuild .monotonic (some ⟨200, 0⟩))
        (calmWorld fiftyAheadEnv (fun _ _ => ⟨60, 0⟩) ⟨0, 0⟩ fiftyAhead)
        (.realSemClockwait .monotonic (some ⟨140, 0⟩)) ∧
      (fakeClockGettime plainBuild .monotonic ⟨140, 0⟩).answer seq
        (calmWorld fiftyAheadEnv (fun _ _ => ⟨60, 0⟩) ⟨0, 0⟩ fiftyAhead) = .ok (0, ⟨190, 0⟩) ∧
      (⟨190, 0⟩ : Timespec) ≠ ⟨200, 0⟩ := by
  have hs := fiftyAhead_serves fun _ _ => ⟨60, 0⟩
  refine ⟨hands_semClockwait_monotonic hs fiftyAhead_timesStored rfl rfl (by decide), ?_, by decide⟩
  exact Runs.answer_eq (Q := fun _ => True) ((runs_fakeClockGettime hs fiftyAhead_timesStored
    (by decide)).mono fun _ _ h => ⟨h.1, trivial⟩)

end Wakes

/-! ### Two copies of one wait -/

section Numbers

variable {a x : ℤ} {f g : ℚ}

/-- A shorter and a longer way from `a`, on the same side: they end at the same time only where
the shorter one has left the range. -/
theorem sat_add_trunc_eq_iff (hlo : nsMin ≤ a) (hhi : a ≤ nsMax) (hx : Fits x) (hne : x ≠ 0)
    (hf : 0 < f) (hf1 : f < 1) (hg : 1 ≤ g) :
    satNs (a + satNs (trunc (x * g))) = satNs (a + satNs (trunc (x * f))) ↔
      ((nsMax - a : ℤ) : ℚ) ≤ x * f ∨ x * f ≤ ((nsMin - a : ℤ) : ℚ) := by
  obtain ⟨hxlo, hxhi⟩ := hx
  have hmin : nsMin < 0 := by decide
  have hmax : 0 < nsMax := by decide
  rcases lt_or_gt_of_ne hne with hneg | hpos
  · have hneg' : (x : ℚ) < 0 := by exact_mod_cast hneg
    have hprod : (0 : ℚ) ≤ -(x * f) := by nlinarith
    -- the distances, counted downwards
    have hshort : trunc (x * f) = -trunc (-(x * f)) := by rw [trunc_neg, neg_neg]
    have hlong : trunc (x * g) = -trunc (-(x * g)) := by rw [trunc_neg, neg_neg]
    have h0 : 0 ≤ trunc (-((x : ℚ) * f)) :=
      (le_trunc_iff_of_nonneg hprod).mpr (by simpa using hprod)
    have h1 : trunc (-((x : ℚ) * f)) < -x := by
      rw [trunc_lt_iff_of_pos (by omega)]
      push_cast
      nlinarith
    have h2 : -x ≤ trunc (-((x : ℚ) * g)) := by
      refine (le_trunc_iff_of_nonneg (by nlinarith)).mpr ?_
      push_cast
      nlinarith
    have hend : (x * f ≤ ((nsMin - a : ℤ) : ℚ)) ↔ a - nsMin ≤ trunc (-((x : ℚ) * f)) := by
      rw [le_trunc_iff_of_nonneg hprod]
      push_cast
      constructor <;> intro h <;> linarith
    have hnot : ¬ ((nsMax - a : ℤ) : ℚ) ≤ x * f := by
      have hroom : (0 : ℚ) ≤ ((nsMax - a : ℤ) : ℚ) := by
        exact_mod_cast (by omega : (0 : ℤ) ≤ nsMax - a)
      nlinarith
    rw [hend, hshort, hlong]
    simp only [hnot, false_or]
    unfold satNs clamp
    omega
  · have hpos' : (0 : ℚ) < x := by exact_mod_cast hpos
    have hprod : (0 : ℚ) ≤ x * f := by positivity
    have h0 : 0 ≤ trunc ((x : ℚ) * f) := (le_trunc_iff_of_nonneg hprod).mpr (by simpa using hprod)
    have h1 : trunc ((x : ℚ) * f) < x := by
      rw [trunc_lt_iff_of_pos hpos]
      nlinarith
    have h2 : x ≤ trunc ((x : ℚ) * g) := (le_trunc_iff_of_nonneg (by positivity)).mpr (by nlinarith)
    have hend : ((nsMax - a : ℤ) : ℚ) ≤ x * f ↔ nsMax - a ≤ trunc ((x : ℚ) * f) :=
      (le_trunc_iff_of_nonneg hprod).symm
    have hnot : ¬ (x : ℚ) * f ≤ ((nsMin - a : ℤ) : ℚ) := by
      have hroom : ((nsMin - a : ℤ) : ℚ) ≤ 0 := by exact_mod_cast (by omega : nsMin - a ≤ (0 : ℤ))
      nlinarith [mul_pos hpos' hf]
    rw [hend]
    simp only [hnot, or_false]
    unfold satNs clamp
    omega

/-- Multiplied and divided by a rate. -/
theorem sat_add_scaled_eq_iff {r : ℚ} (hr : 0 < r) (ha : Fits a) (hx : Fits x) :
    satNs (a + satNs (trunc (x * r))) = satNs (a + satNs (trunc (x * (1 / r)))) ↔
      r = 1 ∨ x = 0 ∨ ((nsMax - a : ℤ) : ℚ) ≤ x * min r (1 / r) ∨
        x * min r (1 / r) ≤ ((nsMin - a : ℤ) : ℚ) := by
  rcases eq_or_ne x 0 with rfl | hne
  · refine iff_of_true ?_ (Or.inr (Or.inl rfl))
    rw [Int.cast_zero, zero_mul, zero_mul]
  rcases lt_trichotomy r 1 with hlt | rfl | hgt
  · have hinv : 1 ≤ 1 / r := by
      rw [le_div_iff₀ hr, one_mul]
      exact hlt.le
    rw [eq_comm, sat_add_trunc_eq_iff ha.1 ha.2 hx hne hr hlt hinv, min_eq_left (hlt.le.trans hinv)]
    simp only [hlt.ne, hne, false_or]
  · rw [div_one]
    exact iff_of_true rfl (Or.inl rfl)
  · have hinv : 1 / r < 1 := by
      rw [div_lt_one hr]
      exact hgt
    rw [sat_add_trunc_eq_iff ha.1 ha.2 hx hne (one_div_pos.mpr hr) hinv hgt.le,
      min_eq_right (hinv.trans hgt).le]
    simp only [hgt.ne', hne, false_or]

end Numbers

section Alike

variable {B : Build} {w : World} {s : Proc} {D : Timespec}

/-- The distance of the deadline from the base, at the slower of the rate and its inverse, leads
out of the range of times: before that it is cut to what a `struct timespec` can hold. -/
def Proc.LeavesRange (s : Proc) (D : Timespec) : Prop :=
  ((nsMax - s.ftplStarttime.real.ns : ℤ) : ℚ) ≤
      satNs (D.ns - s.userFakedTimeTimespec.ns) * min s.userRate (1 / s.userRate) ∨
    satNs (D.ns - s.userFakedTimeTimespec.ns) * min s.userRate (1 / s.userRate) ≤
      ((nsMin - s.ftplStarttime.real.ns : ℤ) : ℚ)

/-- A multiplied and a divided distance lead to the same deadline. -/
theorem timedwaitDeadline_eq_iff (ht : s.TimesStored) (hr : s.RatePositive) (hD : D.Normal)
    (hstart : Fits s.ftplStarttime.real.ns) (now : Timespec) :
    s.timedwaitDeadline D = s.clockwaitDeadline .realtime D now ↔
      s.userRateSet = false ∨ s.userRate = 1 ∨ D.ns = s.userFakedTimeTimespec.ns ∨
        s.LeavesRange D := by
  have hmul : ∀ c, (timespecmul (timespecsub D s.userFakedTimeTimespec) c).Stored := fun c =>
    (normal_timespecmul _ c).stored
  cases hset : s.userRateSet with
  | false =>
    refine iff_of_true ?_ (Or.inl rfl)
    unfold Proc.timedwaitDeadline Proc.clockwaitDeadline Proc.realDistance
    rw [hset, if_neg (by decide)]
    rfl
  | true =>
    have htimed : s.timedwaitDeadline D = timespecadd s.ftplStarttime.real
        (timespecmul (timespecsub D s.userFakedTimeTimespec) s.userRate) := by
      rw [Proc.timedwaitDeadline, hset, if_pos rfl]
    have hclock : s.clockwaitDeadline .realtime D now = timespecadd s.ftplStarttime.real
        (timespecmul (timespecsub D s.userFakedTimeTimespec) (1 / s.userRate)) := by
      rw [Proc.clockwaitDeadline, if_neg (by decide), Proc.realDistance, hset, if_pos rfl]
      rfl
    have hext : ∀ {p q : Timespec}, p.Normal → q.Normal → (p = q ↔ p.ns = q.ns) :=
      fun hp hq => ⟨congrArg Timespec.ns, Timespec.ext_ns hp hq⟩
    have hst : s.ftplStarttime.real.Stored := ht.start .realtime
    have hzero : satNs (D.ns - s.userFakedTimeTimespec.ns) = 0 ↔
        D.ns = s.userFakedTimeTimespec.ns := by
      have hmin : nsMin < 0 := by decide
      have hmax : 0 < nsMax := by decide
      unfold satNs clamp
      omega
    rw [htimed, hclock, hext (normal_timespecadd hst (hmul _)) (normal_timespecadd hst (hmul _)),
      ns_timespecadd hst (hmul _), ns_timespecadd hst (hmul _), ns_timespecmul, ns_timespecmul,
      ns_timespecsub hD.stored ht.base, sat_add_scaled_eq_iff (hr hset) hstart (satNs_mem _), hzero]
    simp only [reduceCtorEq, false_or]
    rfl

/-- **The two functions wait alike if and only if the rate does not matter.** In every state, for
every deadline `D`, `sem_timedwait` and `sem_clockwait` on `CLOCK_REALTIME` hand one real
deadline to the system if and only if the thread is not faked, there is no rate or it is `1`,
`D` is the base itself, or both distances lead out of the range of times. -/
theorem semaphores_wait_alike_iff (ht : w.proc.TimesStored) (hr : w.proc.RatePositive)
    (hD : D.Normal) (hstart : Fits w.proc.ftplStarttime.real.ns) :
    (∃ R, Hands (semTimedwait D) w (.realSemTimedwait R) ∧
        Hands (semClockwaitCommon B .realtime (some D)) w (.realSemClockwait .realtime (some R))) ↔
      w.dontFake = true ∨ w.proc.userRateSet = false ∨ w.proc.userRate = 1 ∨
        D.ns = w.proc.userFakedTimeTimespec.ns ∨ w.proc.LeavesRange D := by
  have htimed := hands_semTimedwait_of w D
  have hclock := hands_semClockwait_realtime (B := B) w D D
  have hsame : (∃ R, Hands (semTimedwait D) w (.realSemTimedwait R) ∧
      Hands (semClockwaitCommon B .realtime (some D)) w (.realSemClockwait .realtime (some R))) ↔
      w.dontFake = true ∨ w.proc.timedwaitDeadline D = w.proc.clockwaitDeadline .realtime D D := by
    constructor
    · rintro ⟨R, h₁, h₂⟩
      have h₁ := Op.realSemTimedwait.inj (h₁.unique htimed)
      have h₂ := Option.some.inj (Op.realSemClockwait.inj (h₂.unique hclock)).2
      rw [h₁] at h₂
      cases hfake : w.dontFake with
      | true => exact Or.inl rfl
      | false =>
        rw [hfake, if_neg (by simp), if_neg (by simp)] at h₂
        exact Or.inr h₂
    · rintro (hfake | heq)
      · rw [if_pos hfake] at htimed hclock
        exact ⟨D, htimed, hclock⟩
      · rw [heq] at htimed
        exact ⟨_, htimed, hclock⟩
  rw [hsame, timedwaitDeadline_eq_iff ht hr hD hstart]

/-- Without a rate. -/
theorem semaphores_wait_alike_at_real_speed :
    ∃ R, Hands (semTimedwait ⟨200, 0⟩)
        (calmWorld fiftyAheadEnv (fun _ _ => ⟨60, 0⟩) ⟨0, 0⟩ fiftyAhead) (.realSemTimedwait R) ∧
      Hands (semClockwaitCommon plainBuild .realtime (some ⟨200, 0⟩))
        (calmWorld fiftyAheadEnv (fun _ _ => ⟨60, 0⟩) ⟨0, 0⟩ fiftyAhead)
        (.realSemClockwait .realtime (some R)) :=
  (semaphores_wait_alike_iff fiftyAhead_timesStored (fun h => absurd h (by decide)) (by decide)
    (by decide)).mpr
    (Or.inr (Or.inl rfl))

/-- At double speed one waits for two hundred seconds and the other for fifty. -/
theorem semaphores_wait_differently :
    Hands (semTimedwait ⟨200, 0⟩)
        (calmWorld doubleSpeedEnv (fun _ _ => ⟨60, 0⟩) ⟨0, 0⟩ doubleSpeed)
        (.realSemTimedwait ⟨250, 0⟩) ∧
      Hands (semClockwaitCommon plainBuild .realtime (some ⟨200, 0⟩))
        (calmWorld doubleSpeedEnv (fun _ _ => ⟨60, 0⟩) ⟨0, 0⟩ doubleSpeed)
        (.realSemClockwait .realtime (some ⟨100, 0⟩)) ∧
      (⟨250, 0⟩ : Timespec) ≠ ⟨100, 0⟩ := by
  have htimed := hands_semTimedwait_of
    (calmWorld doubleSpeedEnv (fun _ _ => ⟨60, 0⟩) ⟨0, 0⟩ doubleSpeed) ⟨200, 0⟩
  have hclock := hands_semClockwait_realtime (B := plainBuild)
    (calmWorld doubleSpeedEnv (fun _ _ => ⟨60, 0⟩) ⟨0, 0⟩ doubleSpeed) ⟨60, 0⟩ ⟨200, 0⟩
  have hslow : doubleSpeed.timedwaitDeadline ⟨200, 0⟩ = ⟨250, 0⟩ := by decide +kernel
  have hfast : doubleSpeed.clockwaitDeadline .realtime ⟨200, 0⟩ ⟨60, 0⟩ = ⟨100, 0⟩ := by
    decide +kernel
  rw [← hslow, ← hfast]
  exact ⟨htimed, hclock, by rw [hslow, hfast]; decide⟩

end Alike

end LibFaketime
