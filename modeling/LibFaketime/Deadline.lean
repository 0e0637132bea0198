import LibFaketime.Clock
import LibFaketime.Sleep

/-!
# Deadlines

The functions that wait translate a time on the faked clock to one on the real clock,
each in its own way: two of them count from the start time of the clock, and one from the
moment of the call. All of them are inverses of the clock
(`LibFaketime.deadlines_invert_clock`): the real deadline they hand to the system, put
into the faked clock, is the deadline that was asked for, exactly at the rate of real
time and up to the truncation of the scaling at any other rate.

Both ways are one computation, from an anchor on the real clock
(`LibFaketime.Proc.realDeadline`), the start time being the anchor at which the faked
clock shows its base.
-/

namespace LibFaketime

open Effects Effects.Prog Saturate

/-! ### The clock without saturation -/

section Exact

variable {s : Proc} {c : ClockId}

/-- A length of real time on the faked clock, without saturation. -/
def Proc.speedUp (s : Proc) (x : ℤ) : ℤ :=
  if s.userRateSet then trunc ((x : ℚ) * s.userRate) else x

/-- A length of faked time on the real clock, without saturation. -/
def Proc.slowDown (s : Proc) (y : ℤ) : ℤ :=
  if s.userRateSet then trunc ((y : ℚ) * (1 / s.userRate)) else y

/-- The faked clock without saturation, in nanoseconds. -/
def Proc.exactTime (s : Proc) (c : ClockId) (x : ℤ) : ℤ :=
  s.userFakedTimeTimespec.ns + s.speedUp (x - (s.ftplStarttime.of c).ns)

/-- The real time at which the faked clock shows `d`, computed from the anchor `a`. -/
def Proc.realDeadline (s : Proc) (c : ClockId) (d a : ℤ) : ℤ :=
  a + s.slowDown (d - s.exactTime c a)

theorem Proc.speedUp_zero (s : Proc) : s.speedUp 0 = 0 := by
  unfold Proc.speedUp
  split
  · rw [Int.cast_zero, zero_mul, ← Int.cast_zero, trunc_intCast]
  · rfl

theorem Proc.speedUp_of_not (h : s.userRateSet = false) (x : ℤ) : s.speedUp x = x := by
  rw [Proc.speedUp, h, if_neg (by simp)]

theorem Proc.slowDown_of_not (h : s.userRateSet = false) (x : ℤ) : s.slowDown x = x := by
  rw [Proc.slowDown, h, if_neg (by simp)]

/-- The clock shows its base at its start. -/
theorem Proc.exactTime_start (s : Proc) (c : ClockId) :
    s.exactTime c (s.ftplStarttime.of c).ns = s.userFakedTimeTimespec.ns := by
  rw [Proc.exactTime, sub_self, s.speedUp_zero, add_zero]

/-- What the clock makes of a distance `x` and of the rest of a distance `y`. -/
theorem Proc.abs_speedUp_sub_lt (hr : 0 < s.userRate) (hset : s.userRateSet = true) (x y : ℤ) :
    |(s.speedUp (x + s.slowDown (y - s.speedUp x)) : ℚ) - y| < s.userRate + 2 := by
  have hp : |(s.speedUp x : ℚ) - x * s.userRate| ≤ 1 := by
    rw [Proc.speedUp, if_pos hset]
    exact (abs_trunc_sub_lt_one _).le
  have h := abs_trunc_mul_sub_lt hr x (y : ℚ) hp
  have hrest : trunc (((y : ℚ) - s.speedUp x) * (1 / s.userRate)) =
      s.slowDown (y - s.speedUp x) := by
    rw [Proc.slowDown, if_pos hset]
    push_cast
    rfl
  rw [hrest] at h
  rw [show s.speedUp (x + s.slowDown (y - s.speedUp x)) =
    trunc (((x + s.slowDown (y - s.speedUp x) : ℤ) : ℚ) * s.userRate) from if_pos hset]
  linarith

/-- **The real deadline inverts the clock**, from any anchor. -/
theorem Proc.exactTime_realDeadline (hset : s.userRateSet = false) (d a : ℤ) :
    s.exactTime c (s.realDeadline c d a) = d := by
  unfold Proc.realDeadline Proc.exactTime Proc.slowDown Proc.speedUp
  simp only [hset, Bool.false_eq_true, if_false]
  ring

theorem Proc.abs_exactTime_realDeadline (hset : s.userRateSet = true) (hr : 0 < s.userRate)
    (d a : ℤ) : |(s.exactTime c (s.realDeadline c d a) : ℚ) - d| < s.userRate + 2 := by
  have h := Proc.abs_speedUp_sub_lt hr hset (a - (s.ftplStarttime.of c).ns)
    (d - s.userFakedTimeTimespec.ns)
  have harg : s.realDeadline c d a - (s.ftplStarttime.of c).ns = (a - (s.ftplStarttime.of c).ns) +
      s.slowDown (d - s.userFakedTimeTimespec.ns - s.speedUp (a - (s.ftplStarttime.of c).ns)) := by
    rw [Proc.realDeadline, Proc.exactTime, sub_add_eq_sub_sub]
    ring
  have hmove : ∀ z b d : ℚ, b + z - d = z - (d - b) := fun z b d => by ring
  rw [Proc.exactTime, harg]
  push_cast at h ⊢
  rw [hmove]
  exact h

/-- Two anchors give deadlines that differ by the truncations. -/
theorem Proc.abs_realDeadline_sub_lt (hset : s.userRateSet = true) (hr : 0 < s.userRate)
    (d a : ℤ) : |(s.realDeadline c d a : ℚ) - s.realDeadline c d (s.ftplStarttime.of c).ns| <
      1 / s.userRate + 2 := by
  have hslow : ∀ y : ℤ, |(s.slowDown y : ℚ) - y * (1 / s.userRate)| < 1 := by
    intro y
    rw [Proc.slowDown, if_pos hset]
    exact abs_trunc_sub_lt_one _
  have hp : |(s.speedUp (a - (s.ftplStarttime.of c).ns) : ℚ) * (1 / s.userRate) -
      ((a : ℚ) - (s.ftplStarttime.of c).ns)| < 1 / s.userRate := by
    have h := abs_trunc_sub_lt_one (((a - (s.ftplStarttime.of c).ns : ℤ) : ℚ) * s.userRate)
    have hfac : (trunc (((a - (s.ftplStarttime.of c).ns : ℤ) : ℚ) * s.userRate) : ℚ) *
        (1 / s.userRate) - ((a : ℚ) - (s.ftplStarttime.of c).ns) =
        ((trunc (((a - (s.ftplStarttime.of c).ns : ℤ) : ℚ) * s.userRate) : ℚ) -
          ((a - (s.ftplStarttime.of c).ns : ℤ) : ℚ) * s.userRate) * (1 / s.userRate) := by
      push_cast
      field_simp
    rw [Proc.speedUp, if_pos hset, hfac, abs_mul, abs_of_pos (one_div_pos.mpr hr)]
    exact mul_lt_of_lt_one_left (one_div_pos.mpr hr) h
  have h1 := hslow (d - s.exactTime c a)
  have h2 := hslow (d - s.exactTime c (s.ftplStarttime.of c).ns)
  unfold Proc.realDeadline
  rw [s.exactTime_start] at h2 ⊢
  unfold Proc.exactTime at h1 ⊢
  push_cast at h1 h2 ⊢
  rw [abs_lt] at h1 h2 hp ⊢
  constructor <;> linarith [h1.1, h1.2, h2.1, h2.2, hp.1, hp.2]

end Exact

/-! ### No saturation -/

section Saturation

variable {s : Proc} {c : ClockId} {t d : Timespec}

/-- The clock does not saturate at the real time `x`. -/
structure Proc.ClockFits (s : Proc) (c : ClockId) (x : ℤ) : Prop where
  elapsed : Fits (x - (s.ftplStarttime.of c).ns)
  speed : Fits (s.speedUp (x - (s.ftplStarttime.of c).ns))
  time : Fits (s.exactTime c x)

/-- Nothing saturates between the deadline `d` and the clock at the real deadline. -/
structure Proc.DeadlineFits (s : Proc) (c : ClockId) (d a : ℤ) : Prop where
  distance : Fits (d - s.exactTime c a)
  delay : Fits (s.slowDown (d - s.exactTime c a))
  deadline : Fits (s.realDeadline c d a)
  clock : s.ClockFits c (s.realDeadline c d a)

theorem Proc.TimesStored.ns_fakeTime_of_fits (h : s.TimesStored) (hc : c.IsCpu = false)
    (ht : t.Normal) (hfit : s.ClockFits c t.ns) : (s.fakeTime c t).ns = s.exactTime c t.ns := by
  have hscaled : s.scaled (t.ns - (s.ftplStarttime.of c).ns) =
      s.speedUp (t.ns - (s.ftplStarttime.of c).ns) := by
    have hspeed := hfit.speed
    unfold Proc.scaled Proc.speedUp at *
    split
    next hset =>
      rw [if_pos hset] at hspeed
      exact hspeed.satNs
    next => rfl
  rw [h.ns_fakeTime ht, hc, if_neg (by simp), hfit.elapsed.satNs, hscaled]
  exact hfit.time.satNs

theorem normal_realDistance {b : Timespec} (hd : d.Stored) (hb : b.Stored) :
    (s.realDistance d b).Normal := by
  unfold Proc.realDistance
  split
  · exact normal_timespecmul _ _
  · exact normal_timespecsub hd hb

theorem ns_realDistance {b : Timespec} (hd : d.Stored) (hb : b.Stored)
    (hfit : Fits (d.ns - b.ns)) (hfit' : Fits (s.slowDown (d.ns - b.ns))) :
    (s.realDistance d b).ns = s.slowDown (d.ns - b.ns) := by
  unfold Proc.realDistance
  unfold Proc.slowDown at hfit' ⊢
  split
  next hset =>
    rw [if_pos hset] at hfit'
    rw [ns_timespecmul, ns_timespecsub hd hb, hfit.satNs, hfit'.satNs]
  next => rw [ns_timespecsub hd hb, hfit.satNs]

/-- **A deadline that the library computes**: from the time `f` the faked clock shows at
the anchor `a`. -/
theorem ns_deadline {a f : Timespec} (hd : d.Stored) (ha : a.Stored) (hf : f.Stored)
    (hshow : f.ns = s.exactTime c a.ns) (hfit : s.DeadlineFits c d.ns a.ns) :
    (timespecadd a (s.realDistance d f)).ns = s.realDeadline c d.ns a.ns := by
  have hdist := hfit.distance
  have hdelay := hfit.delay
  rw [← hshow] at hdist hdelay
  rw [ns_timespecadd ha (normal_realDistance hd hf).stored, ns_realDistance hd hf hdist hdelay,
    hshow]
  exact hfit.deadline.satNs

/-- What the faked clock makes of the real deadline. -/
theorem Proc.TimesStored.fakeTime_deadline (h : s.TimesStored) (hr : s.RatePositive)
    (hc : c.IsCpu = false) {R : Timespec} {a : ℤ} (hd : d.Normal) (hR : R.Normal)
    (hns : R.ns = s.realDeadline c d.ns a) (hfit : s.DeadlineFits c d.ns a) :
    (s.userRateSet = false → s.fakeTime c R = d) ∧
      (s.userRateSet = true → |((s.fakeTime c R).ns : ℚ) - d.ns| < s.userRate + 2) := by
  have hfake : (s.fakeTime c R).ns = s.exactTime c (s.realDeadline c d.ns a) := by
    rw [h.ns_fakeTime_of_fits hc hR (hns ▸ hfit.clock), hns]
  refine ⟨fun hset => ?_, fun hset => ?_⟩
  · refine Timespec.ext_ns (h.normal_fakeTime hR) hd ?_
    rw [hfake, Proc.exactTime_realDeadline hset]
  · rw [hfake]
    exact Proc.abs_exactTime_realDeadline hset (hr hset) _ _

end Saturation

/-! ### The three functions -/

section Functions

variable {B : Build} {w : World} {c : ClockId} {d : Timespec} {e₁ e₂ : Option CStr}

/-- The clock is one whose deadlines are translated. -/
def FakedClock (s : Proc) (c : ClockId) : Prop :=
  c = .realtime ∨ c = .monotonic ∧ s.fakeMonotonicClock = true

theorem FakedClock.notCpu {s : Proc} (h : FakedClock s c) : c.IsCpu = false := by
  rcases h with rfl | ⟨rfl, -⟩ <;> rfl

/-- The deadline counted from the start time. -/
def Proc.fromStart (s : Proc) (c : ClockId) (d : Timespec) : Timespec :=
  timespecadd (s.ftplStarttime.of c) (s.realDistance d s.userFakedTimeTimespec)

theorem runs_sleepUntil (hc : FakedClock w.proc c) (hmono : MonotonicFixed w e₁ e₂) :
    (sleepUntil c d).Runs seq w fun r _ => r = w.proc.fromStart c d := by
  refine runs_load ?_
  rcases hc with rfl | ⟨rfl, hfake⟩
  · rw [if_pos rfl]
    exact runs_load (runs_pure rfl)
  · rw [if_neg (by decide), if_pos rfl]
    refine (runs_getFakeMonotonicSetting hmono).bind ?_
    rintro _ w₁ ⟨h₁, -⟩
    refine runs_load (runs_pure ?_)
    rw [h₁.field Proc.fakeMonotonicClock, hfake, if_pos rfl, h₁.field Proc.ftplStarttime]
    rfl

/-- `clock_nanosleep` counts from the start time. -/
theorem makes_clockNanosleep (hc : FakedClock w.proc c) (hmono : MonotonicFixed w e₁ e₂) :
    (clockNanosleep c true d).Makes seq
      (fun o _ => o = .realClockNanosleep c true (w.proc.fromStart c d)) w := by
  refine Runs.makes_bind (runs_sleepUntil hc hmono) ?_
  rintro _ w₁ rfl
  exact makes_perform_bind (I := sys) rfl

/-- The base may be normalized first. -/
theorem realDistance_normalize {s : Proc} {b : Timespec} (hd : d.Stored) (hb : b.Stored) :
    s.realDistance d (normalizeTimespecValue b) = s.realDistance d b := by
  have hn := normal_normalizeTimespecValue b
  have hsub : timespecsub d (normalizeTimespecValue b) = timespecsub d b := by
    refine Timespec.ext_ns (normal_timespecsub hd hn.stored) (normal_timespecsub hd hb) ?_
    rw [ns_timespecsub hd hn.stored, ns_timespecsub hd hb, ns_normalizeTimespecValue]
  rw [Proc.realDistance, Proc.realDistance, hsub]

theorem runs_timerAbsolute (hc : FakedClock w.proc c) (hd : d.Stored)
    (hb : w.proc.userFakedTimeTimespec.Stored) :
    (timerAbsolute c d).Runs seq w fun r _ => r = w.proc.fromStart c d := by
  refine runs_load ?_
  rcases hc with rfl | ⟨rfl, hfake⟩
  · rw [if_neg (by simp), if_neg (by simp)]
    exact runs_pure rfl
  · rw [if_pos ⟨rfl, hfake⟩]
    refine runs_store (runs_load (runs_pure ?_))
    exact congrArg _ (realDistance_normalize (s := w.proc) hd hb)

/-- `timerfd_settime` counts from the start time. -/
theorem makes_timerfdSettime (hc : FakedClock w.proc c) (hd : d.Stored)
    (hb : w.proc.userFakedTimeTimespec.Stored) (hz : d.isZero = false) (hfake : w.dontFake = false)
    (interval : Timespec) :
    (timerfdSettime B true c (some ⟨interval, d⟩)).Makes seq (fun o _ =>
      ∃ i, o = .realTimerSettime true (some ⟨i, w.proc.fromStart c d⟩)) w := by
  have hset : (realSetting w.dontFake true c (some ⟨interval, d⟩)).Runs seq w fun r _ =>
      ∃ i, r = some ⟨i, w.proc.fromStart c d⟩ := by
    rw [hfake]
    unfold realSetting realValue
    dsimp only
    rw [if_neg (by simp), hz, if_neg (by simp), if_pos rfl]
    refine (runs_timerAbsolute hc hd hb).bind ?_
    rintro _ w₁ rfl
    exact runs_load (runs_pure ⟨_, rfl⟩)
  refine Runs.makes_bind (runs_perform (I := sys) (seq_dontFake (w := w))) ?_
  rintro _ _ ⟨rfl, rfl⟩
  refine hset.makes_bind ?_
  rintro _ w₂ ⟨i, rfl⟩
  exact makes_perform_bind (I := sys) ⟨i, rfl⟩

/-- The deadline counted from a reading of the clock. -/
def Proc.fromNow (s : Proc) (c : ClockId) (d now : Timespec) : Timespec :=
  timespecadd now (s.realDistance d (s.fakeTime c now))

/-- What the environment says about condition variables: no fixed wait, and the deadline
is one on the real clock. -/
structure PlainWaits (w : World) : Prop where
  noWaitMs : ∀ n, w.os n (.getenv .faketimeWaitMs) = some none
  forced : ∀ n, ∃ v : Option CStr, w.os n (.getenv .faketimeForceMonotonicFix) = some v ∧
    v.bind List.head? ≠ some '0'

theorem runs_condWait {now fake : Timespec} (hc : FakedClock w.proc c) (he : PlainWaits w) :
    (condWait c d now fake).Runs seq w fun r w' =>
      r = .ok (w.proc.realDistance d fake, now) ∧ w' = w.tick := by
  refine runs_getenv (he.noWaitMs _) (runs_load ?_)
  have htest : (!w.proc.fakeMonotonicClock && c == .monotonic) = false := by
    rcases hc with rfl | ⟨rfl, hfake⟩
    · exact Bool.and_false _
    · rw [hfake]
      rfl
  rw [show (!w.tick.proc.fakeMonotonicClock && c == .monotonic) = false from htest,
    if_neg (by simp)]
  exact runs_pure ⟨rfl, rfl⟩

theorem runs_condDeadline {tdiff now fake : Timespec} (hc : FakedClock w.proc c)
    (he : PlainWaits w) :
    (condDeadline c tdiff now fake).Runs seq w fun r _ => r = .ok (timespecadd now tdiff) := by
  unfold condDeadline
  rcases hc with rfl | ⟨rfl, hfake⟩
  · rw [if_neg (by decide)]
    exact runs_pure rfl
  · rw [if_pos rfl]
    refine runs_load ?_
    rw [hfake, if_neg (by simp)]
    obtain ⟨v, hv, hhead⟩ := he.forced w.now
    have hneeds : needsForcedMonotonicFix.Runs seq w fun r _ => r = true := by
      refine runs_getenv hv ?_
      cases v with
      | none => exact runs_pure rfl
      | some v => exact runs_pure (bne_iff_ne.mpr hhead)
    refine hneeds.bind ?_
    rintro _ w₁ rfl
    rw [if_pos rfl]
    exact runs_pure rfl

/-- `pthread_cond_timedwait` counts from the moment of the call. -/
theorem makes_pthreadCondTimedwaitCommon {now : Timespec} (hs : Serves B w)
    (ht : w.proc.TimesStored) (hc : FakedClock w.proc c) (he : PlainWaits w)
    (hnow : w.os w.now (.realClockGettime c) = some (some now)) (hn : now.Normal) :
    (pthreadCondTimedwaitCommon B c d).Makes seq
      (fun o _ => o = .realPthreadCondTimedwait (some (w.proc.fromNow c d now))) w := by
  refine Runs.makes_bind
    (runs_perform (I := sys) (World.ask_of_some (f := fun _ w => w) hnow)) ?_
  rintro _ _ ⟨rfl, rfl⟩
  have htick : Like w w.tick := ⟨rfl, rfl, rfl, rfl, rfl, rfl⟩
  refine (runs_fakeClockGettime (hs.like htick) (ht.of_core htick.core) hn).makes_bind ?_
  rintro _ w₁ ⟨rfl, h₁⟩
  have hw₁ : Like w w₁ := htick.trans h₁
  have hc₁ : FakedClock w₁.proc c := by
    rw [FakedClock, hw₁.field Proc.fakeMonotonicClock]
    exact hc
  have he₁ : PlainWaits w₁ := ⟨by rw [hw₁.os]; exact he.noWaitMs, by rw [hw₁.os]; exact he.forced⟩
  refine (runs_condWait hc₁ he₁).makes_bind ?_
  rintro _ _ ⟨rfl, rfl⟩
  have he₂ : PlainWaits w₁.tick := ⟨he₁.noWaitMs, he₁.forced⟩
  refine (runs_condDeadline (w := w₁.tick) hc₁ he₂).makes_bind ?_
  rintro _ w₃ rfl
  refine Or.inl ?_
  rw [hw₁.field fun s => s.realDistance d (w.tick.proc.fakeTime c now)]
  rfl

end Functions

/-! ### The inverse of the clock -/

section Main

variable {B : Build} {w : World} {c : ClockId} {d now : Timespec} {e₁ e₂ : Option CStr}

/-- **The waiting functions invert the faked clock.** A process serves a start-at clock,
and nothing saturates for the deadline `d`. Then `clock_nanosleep` and
`timerfd_settime` hand one real deadline to the system and `pthread_cond_timedwait`
another; each of them, put into the faked clock, is `d` at the rate of real time, and
differs from it by less than the rate and two nanoseconds at any other. Without a rate all
three are the same, and with one they differ by the truncations. -/
theorem deadlines_invert_clock (hs : Serves B w) (ht : w.proc.TimesStored)
    (hr : w.proc.RatePositive) (hc : FakedClock w.proc c) (hmono : MonotonicFixed w e₁ e₂)
    (he : PlainWaits w) (hnow : w.os w.now (.realClockGettime c) = some (some now))
    (hn : now.Normal) (hd : d.Normal) (hz : d.isZero = false) (interval : Timespec)
    (hstart : w.proc.DeadlineFits c d.ns (w.proc.ftplStarttime.of c).ns)
    (hclock : w.proc.ClockFits c now.ns) (hcall : w.proc.DeadlineFits c d.ns now.ns) :
    ∃ R₁ R₂ R₃, (clockNanosleep c true d).Makes seq
        (fun o _ => o = .realClockNanosleep c true R₁) w ∧
      (timerfdSettime B true c (some ⟨interval, d⟩)).Makes seq
        (fun o _ => ∃ i, o = .realTimerSettime true (some ⟨i, R₂⟩)) w ∧
      (pthreadCondTimedwaitCommon B c d).Makes seq
        (fun o _ => o = .realPthreadCondTimedwait (some R₃)) w ∧
      (∀ R ∈ [R₁, R₂, R₃], ∃ v, (fakeClockGettime B c R).Runs seq w (fun r _ => r = (0, v)) ∧
        (w.proc.userRateSet = false → v = d) ∧
        (w.proc.userRateSet = true → |(v.ns : ℚ) - d.ns| < w.proc.userRate + 2)) ∧
      R₁ = R₂ ∧ (w.proc.userRateSet = false → R₂ = R₃) ∧
      (w.proc.userRateSet = true → |(R₃.ns : ℚ) - R₂.ns| < 1 / w.proc.userRate + 2) := by
  have hfake : (w.proc.fakeTime c now).Normal := ht.normal_fakeTime hn
  -- both deadlines are normalized, and are the exact ones of their anchors
  have hn₁ : (w.proc.fromStart c d).Normal :=
    normal_timespecadd (ht.start c) (normal_realDistance hd.stored ht.base).stored
  have hns₁ : (w.proc.fromStart c d).ns =
      w.proc.realDeadline c d.ns (w.proc.ftplStarttime.of c).ns :=
    ns_deadline hd.stored (ht.start c) ht.base (w.proc.exactTime_start c).symm hstart
  have hn₃ : (w.proc.fromNow c d now).Normal :=
    normal_timespecadd hn.stored (normal_realDistance hd.stored hfake.stored).stored
  have hns₃ : (w.proc.fromNow c d now).ns = w.proc.realDeadline c d.ns now.ns :=
    ns_deadline hd.stored hn.stored hfake.stored (ht.ns_fakeTime_of_fits hc.notCpu hn hclock) hcall
  have hquery : ∀ {R a}, R.Normal → R.ns = w.proc.realDeadline c d.ns a →
      w.proc.DeadlineFits c d.ns a →
      ∃ v, (fakeClockGettime B c R).Runs seq w (fun r _ => r = (0, v)) ∧
        (w.proc.userRateSet = false → v = d) ∧
        (w.proc.userRateSet = true → |(v.ns : ℚ) - d.ns| < w.proc.userRate + 2) := by
    intro R a hR hns hfit
    obtain ⟨hexact, hnear⟩ := ht.fakeTime_deadline hr hc.notCpu hd hR hns hfit
    exact ⟨_, (runs_fakeClockGettime hs ht hR).mono fun _ _ h => h.1, hexact, hnear⟩
  refine ⟨w.proc.fromStart c d, w.proc.fromStart c d, w.proc.fromNow c d now,
    makes_clockNanosleep hc hmono, makes_timerfdSettime hc hd.stored ht.base hz hs.faking interval,
    makes_pthreadCondTimedwaitCommon hs ht hc he hnow hn, ?_, rfl, fun hset => ?_, fun hset => ?_⟩
  · intro R hR
    simp only [List.mem_cons, List.not_mem_nil, or_false] at hR
    rcases hR with rfl | rfl | rfl
    · exact hquery hn₁ hns₁ hstart
    · exact hquery hn₁ hns₁ hstart
    · exact hquery hn₃ hns₃ hcall
  · refine Timespec.ext_ns hn₁ hn₃ ?_
    rw [hns₁, hns₃]
    unfold Proc.realDeadline Proc.exactTime Proc.slowDown Proc.speedUp
    simp only [hset, Bool.false_eq_true, if_false]
    ring
  · rw [hns₁, hns₃]
    exact Proc.abs_realDeadline_sub_lt hset (hr hset) _ _

/-- A deadline at double speed: the process sleeps until its clock shows `200`. -/
theorem deadlines_invert_clock_double_speed :
    ∃ R₁ R₃, (clockNanosleep .realtime true ⟨200, 0⟩).Makes seq
        (fun o _ => o = .realClockNanosleep .realtime true R₁)
        (calmWorld doubleSpeedEnv (fun _ _ => ⟨60, 0⟩) ⟨0, 0⟩ doubleSpeed) ∧
      (pthreadCondTimedwaitCommon plainBuild .realtime ⟨200, 0⟩).Makes seq
        (fun o _ => o = .realPthreadCondTimedwait (some R₃))
        (calmWorld doubleSpeedEnv (fun _ _ => ⟨60, 0⟩) ⟨0, 0⟩ doubleSpeed) ∧
      ∃ v, (fakeClockGettime plainBuild .realtime R₃).Runs seq
        (calmWorld doubleSpeedEnv (fun _ _ => ⟨60, 0⟩) ⟨0, 0⟩ doubleSpeed) (fun r _ => r = (0, v)) ∧
        |(v.ns : ℚ) - (⟨200, 0⟩ : Timespec).ns| < 2 + 2 := by
  have hstart : doubleSpeed.DeadlineFits .realtime (⟨200, 0⟩ : Timespec).ns
      (doubleSpeed.ftplStarttime.of .realtime).ns := by
    refine ⟨?_, ?_, ?_, ?_, ?_, ?_⟩ <;> decide +kernel
  have hcall : doubleSpeed.DeadlineFits .realtime (⟨200, 0⟩ : Timespec).ns
      (⟨60, 0⟩ : Timespec).ns := by
    refine ⟨?_, ?_, ?_, ?_, ?_, ?_⟩ <;> decide +kernel
  have hclock : doubleSpeed.ClockFits .realtime (⟨60, 0⟩ : Timespec).ns := by
    refine ⟨?_, ?_, ?_⟩ <;> decide +kernel
  have hmono : MonotonicFixed (calmWorld doubleSpeedEnv (fun _ _ => ⟨60, 0⟩) ⟨0, 0⟩ doubleSpeed)
      none none := ⟨fun _ => rfl, fun _ => rfl, nofun⟩
  obtain ⟨R₁, R₂, R₃, h₁, -, h₃, hall, -⟩ := deadlines_invert_clock
    (doubleSpeed_serves fun _ _ => ⟨60, 0⟩) doubleSpeed_timesStored
    (fun _ => show (0 : ℚ) < 2 by norm_num) (Or.inl rfl) hmono
    ⟨fun _ => rfl, fun _ => ⟨none, rfl, nofun⟩⟩ rfl (by decide) (by decide) rfl ⟨0, 0⟩ hstart
      hclock hcall
  obtain ⟨v, hv, -, hnear⟩ := hall R₃ (by simp)
  exact ⟨R₁, R₃, h₁, h₃, v, hv, hnear rfl⟩

end Main

end LibFaketime
