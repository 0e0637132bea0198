import LibFaketime.Remainder

/-!
# Timeouts that must not vanish

A timeout of zero means something else than a short one: a wait that does not wait, a timer that
is disarmed, a timer that fires once. A relative timeout is divided by the rate on its way to the
kernel. `poll` and its relatives round up and never get below a millisecond; the others truncate,
to the nanosecond or to the microsecond, so that a positive timeout stays positive exactly if it
is at least as long as the rate, in that unit (`LibFaketime.timeout_stays_positive_iff`).
-/

namespace LibFaketime

open Effects Effects.Prog Saturate

/-! ### The functions -/

/-- `INT_MAX`. -/
def intMax : ℤ := 2 ^ 31 - 1

/-- A positive number of milliseconds at the rate `r`, rounded up; `long double` is exact. -/
def scaledMilliseconds (timeout : ℤ) (r : ℚ) : ℤ :=
  let scaled := ⌈(timeout : ℚ) / r⌉
  if intMax ≤ scaled then intMax
  else if scaled < 1 then 1
  else scaled

/-- `scale_timeout_milliseconds`. -/
def scaleTimeoutMilliseconds (timeout : ℤ) : Sys ℤ := do
  if timeout ≤ 0 then pure timeout
  else
    let s ← load
    if !s.userRateSet || (← dontFake) then pure timeout
    else pure (scaledMilliseconds timeout s.userRate)

/-- `poll`, `epoll_wait` and `epoll_pwait`, as far as their timeouts are concerned. -/
def waitMilliseconds (call : PollCall) (timeout : ℤ) : Sys ℤ := do
  let realTimeout ← scaleTimeoutMilliseconds timeout
  realPoll call realTimeout

/-- `poll`. -/
def poll (timeout : ℤ) : Sys ℤ := waitMilliseconds .poll timeout

/-- `epoll_wait`. -/
def epollWait (timeout : ℤ) : Sys ℤ := waitMilliseconds .epollWait timeout

/-- `epoll_pwait`. -/
def epollPwait (timeout : ℤ) : Sys ℤ := waitMilliseconds .epollPwait timeout

/-- The timeout `ppoll` and `pselect` hand over. -/
def realTimeoutNs (timeout : Timespec) : Sys Timespec := do
  let s ← load
  if s.userRateSet && !(← dontFake) &&
      (decide (0 < timeout.tvSec) || decide (0 < timeout.tvNsec)) then
    pure (timespecmul timeout (1 / s.userRate))
  else pure timeout

/-- `ppoll`. -/
def ppoll : Option Timespec → Sys ℤ
  | none => realPpoll none
  | some timeout => do
    let realTimeout ← realTimeoutNs timeout
    realPpoll (some realTimeout)

/-- `pselect`. -/
def pselect : Option Timespec → Sys ℤ
  | none => realPselect none
  | some timeout => do
    let realTimeout ← realTimeoutNs timeout
    realPselect (some realTimeout)

/-! ### What is asked of them -/

/-- The calls with a relative timeout. -/
inductive TimeoutCall where
  | poll (timeout : ℤ)
  | epollWait (timeout : ℤ)
  | epollPwait (timeout : ℤ)
  | ppoll (timeout : Timespec)
  | select (timeout : Timeval)
  | pselect (timeout : Timespec)
  | timerSettime (new : Itimerspec)
  | timerfdSettime (c : ClockId) (new : Itimerspec)

/-- A positive length of time that is accepted as a timeout. -/
def Timespec.Positive (t : Timespec) : Prop := t.Normal ∧ 0 < t.ns

/-- **The request is accepted, and its timeout is positive.** The interval of a timer may be
zero. -/
def TimeoutCall.Accepted : TimeoutCall → Prop
  | .poll timeout | .epollWait timeout | .epollPwait timeout => 0 < timeout
  | .ppoll timeout | .pselect timeout => timeout.Positive
  | .select timeout => 0 ≤ timeout.tvSec ∧ 0 ≤ timeout.tvUsec ∧ 0 < timeout.us
  | .timerSettime new | .timerfdSettime _ new =>
    new.itValue.Positive ∧ (new.itInterval = ⟨0, 0⟩ ∨ new.itInterval.Positive)

/-- The kernel is handed a positive number of milliseconds. -/
def PollsPositive (call : PollCall) (p : Sys ℤ) (w : World) : Prop :=
  ∃ t, Hands p w (.realPoll call t) ∧ 0 < t

/-- The kernel is handed a timer that is armed, and periodic if the one asked for is. -/
def ArmsPositive (new : Itimerspec) (p : Sys (ℤ × Option Itimerspec)) (w : World) : Prop :=
  ∃ value interval, Hands p w (.realTimerSettime false (some ⟨interval, value⟩)) ∧
    value.Positive ∧ (new.itInterval.Positive → interval.Positive)

/-- **The timeout that the kernel is handed is positive**, too. -/
def TimeoutCall.StaysPositive (B : Build) (w : World) : TimeoutCall → Prop
  | .poll timeout => PollsPositive .poll (LibFaketime.poll timeout) w
  | .epollWait timeout => PollsPositive .epollWait (LibFaketime.epollWait timeout) w
  | .epollPwait timeout => PollsPositive .epollPwait (LibFaketime.epollPwait timeout) w
  | .ppoll timeout => ∃ t, Hands (LibFaketime.ppoll (some timeout)) w (.realPpoll (some t)) ∧
      t.Positive
  | .select timeout => ∃ t, Hands (LibFaketime.select (some timeout)) w (.realSelect (some t)) ∧
      0 < t.us
  | .pselect timeout => ∃ t, Hands (LibFaketime.pselect (some timeout)) w (.realPselect (some t)) ∧
      t.Positive
  | .timerSettime new => ArmsPositive new (LibFaketime.timerSettime B false (some new)) w
  | .timerfdSettime c new => ArmsPositive new (LibFaketime.timerfdSettime B false c (some new)) w

/-- Timeouts are divided by the rate. -/
def World.Scales (w : World) : Prop := w.proc.userRateSet = true ∧ w.dontFake = false

instance (w : World) : Decidable w.Scales := inferInstanceAs (Decidable (_ ∧ _))

/-- **The timeout is at least as long as the rate**, in nanoseconds or, for `select`, in
microseconds. Milliseconds are rounded up. -/
def TimeoutCall.LongEnough (r : ℚ) : TimeoutCall → Prop
  | .poll _ | .epollWait _ | .epollPwait _ => True
  | .ppoll timeout | .pselect timeout => r ≤ timeout.ns
  | .select timeout => r ≤ timeout.us
  | .timerSettime new | .timerfdSettime _ new =>
    r ≤ new.itValue.ns ∧ (new.itInterval = ⟨0, 0⟩ ∨ r ≤ new.itInterval.ns)

section Proofs

variable {B : Build} {w : World} {r : ℚ} {timeout : ℤ} {t : Timespec} {call : PollCall}

theorem one_le_scaledMilliseconds : 1 ≤ scaledMilliseconds timeout r := by
  have hmax : 1 ≤ intMax := by decide
  unfold scaledMilliseconds
  dsimp only
  split
  · exact hmax
  · omega

theorem runs_scaleTimeoutMilliseconds (w : World) (timeout : ℤ) (h : 0 < timeout) :
    (scaleTimeoutMilliseconds timeout).Runs seq w fun t w' => 0 < t ∧ w' = w := by
  unfold scaleTimeoutMilliseconds
  rw [if_neg (by omega)]
  refine runs_load (runs_dontFake ?_)
  split
  · exact runs_pure ⟨h, rfl⟩
  · exact runs_pure ⟨one_le_scaledMilliseconds, rfl⟩

/-- **`poll` and its relatives wait.** -/
theorem pollsPositive (w : World) (h : 0 < timeout) :
    PollsPositive call (waitMilliseconds call timeout) w := by
  obtain ⟨t, w', ⟨ht, rfl⟩, hrun⟩ :=
    (runs_scaleTimeoutMilliseconds w.silent timeout h).exists_run_bind
  refine ⟨t, ?_, ht⟩
  exact (hrun _).trans (halts_ask rfl rfl)

/-- A timeout on its way to the kernel. -/
def World.divided (w : World) (t : Timespec) : Timespec :=
  if w.Scales then timespecmul t (1 / w.proc.userRate) else t

/-- The fields of a positive timeout are not both zero. -/
theorem Timespec.Positive.fields (h : t.Positive) : 0 < t.tvSec ∨ 0 < t.tvNsec := by
  obtain ⟨⟨h0, h1⟩, h2⟩ := h
  rw [Timespec.ns_eq] at h2
  omega

theorem runs_realTimeoutNs (w : World) (h : t.Positive) :
    (realTimeoutNs t).Runs seq w fun r w' => r = w.divided t ∧ w' = w := by
  have htest : (w.proc.userRateSet && !w.dontFake &&
      (decide (0 < t.tvSec) || decide (0 < t.tvNsec))) = true ↔ w.Scales := by
    simp [World.Scales, h.fields]
  refine runs_load (runs_dontFake ?_)
  unfold World.divided
  by_cases hscales : w.Scales
  · rw [if_pos hscales, if_pos (htest.mpr hscales)]
    exact runs_pure ⟨rfl, rfl⟩
  · rw [if_neg hscales, if_neg (mt htest.mp hscales)]
    exact runs_pure ⟨rfl, rfl⟩

/-- What is left of a length that is divided by the rate. -/
theorem trunc_div_pos_iff {x : ℤ} (hr : 0 < r) (hx : 0 < x) :
    0 < trunc ((x : ℚ) * (1 / r)) ↔ r ≤ x := by
  have hx' : (0 : ℚ) < x := by exact_mod_cast hx
  have hone : (1 : ℤ) ≤ trunc ((x : ℚ) * (1 / r)) ↔ 1 ≤ (x : ℚ) * (1 / r) := by
    have h := le_trunc_iff_of_nonneg (k := 1) (x := (x : ℚ) * (1 / r)) (by positivity)
    exact_mod_cast h
  rw [show (0 : ℤ) < trunc ((x : ℚ) * (1 / r)) ↔ 1 ≤ trunc ((x : ℚ) * (1 / r)) from Iff.rfl, hone,
    mul_one_div, one_le_div hr]

/-- **A divided timeout is positive** unless it is shorter than the rate. -/
theorem divided_positive_iff (hr : w.proc.RatePositive) (h : t.Positive) :
    (w.divided t).Positive ↔ (w.Scales → w.proc.userRate ≤ t.ns) := by
  unfold World.divided
  split
  next hscales =>
    have hmin : nsMin < 0 := by decide
    have hmax : 0 < nsMax := by decide
    have hpos : ∀ y, 0 < satNs y ↔ 0 < y := by
      intro y
      unfold satNs clamp
      omega
    rw [Timespec.Positive, and_iff_right (normal_timespecmul t _), ns_timespecmul, hpos,
      trunc_div_pos_iff (hr hscales.1) h.2]
    exact ⟨fun hle _ => hle, fun hle => hle hscales⟩
  next hscales => exact iff_of_true h fun hs => absurd hs hscales

theorem hands_ppoll (w : World) (h : t.Positive) :
    Hands (ppoll (some t)) w (.realPpoll (some (w.divided t))) := by
  refine (runs_realTimeoutNs w.silent h).halts_bind ?_
  rintro _ _ ⟨rfl, rfl⟩
  exact halts_ask rfl rfl

theorem hands_pselect (w : World) (h : t.Positive) :
    Hands (pselect (some t)) w (.realPselect (some (w.divided t))) := by
  refine (runs_realTimeoutNs w.silent h).halts_bind ?_
  rintro _ _ ⟨rfl, rfl⟩
  exact halts_ask rfl rfl

/-! ### `select` -/

/-- The timeout of `select`, to the microsecond. -/
theorem handedTimeout_pos_iff {tv : Timeval} (hr : w.proc.RatePositive)
    (h : 0 ≤ tv.tvSec ∧ 0 ≤ tv.tvUsec ∧ 0 < tv.us) :
    0 < (w.proc.handedTimeout w.dontFake tv).us ↔ (w.Scales → w.proc.userRate ≤ tv.us) := by
  obtain ⟨h0, h1, h2⟩ := h
  have hfields : 0 < tv.tvSec ∨ 0 < tv.tvUsec := by
    rw [Timeval.us] at h2
    omega
  have hscales : w.proc.ScalesTimeout w.dontFake tv ↔ w.Scales := by
    simp [Proc.ScalesTimeout, World.Scales, hfields]
  unfold Proc.handedTimeout
  split
  next hs =>
    have hs' := hscales.mp hs
    have hrate : 0 < 1 / w.proc.userRate := one_div_pos.mpr (hr hs'.1)
    have hmax : 0 < usMax := by decide
    rw [us_scale_of_nonneg h2.le hrate, lt_min_iff, and_iff_right hmax,
      trunc_div_pos_iff (hr hs'.1) h2]
    exact ⟨fun hle _ => hle, fun hle => hle hs'⟩
  next hs => exact iff_of_true h2 fun hs' => absurd (hscales.mpr hs') hs

/-! ### Timers -/

theorem Timespec.Positive.isZero (h : t.Positive) : t.isZero = false := by
  refine Bool.eq_false_iff.mpr fun hz => ?_
  have hpos := h.2
  rw [ns_of_isZero hz] at hpos
  omega

/-- The interval of a timer on its way to the kernel. -/
def World.dividedInterval (w : World) (t : Timespec) : Timespec :=
  if t.isZero then t else w.divided t

/-- The setting of a relative timer: both of its lengths are divided. -/
theorem runs_realSetting_relative {c : ClockId} {new : Itimerspec} (w : World)
    (h : new.itValue.Positive) : (realSetting w.dontFake false c (some new)).Runs seq w fun r w' =>
      r = some ⟨w.dividedInterval new.itInterval, w.divided new.itValue⟩ ∧ w' = w := by
  have hinterval : ∀ t : Timespec, w.dontFake = false →
      (if t.isZero then t else w.proc.scaleDown t) = w.dividedInterval t := by
    intro t hdont
    simp only [World.dividedInterval, World.divided, World.Scales, Proc.scaleDown, hdont, and_true]
  unfold realSetting
  dsimp only
  split
  next hdont =>
    refine runs_pure ⟨?_, rfl⟩
    have hscales : ¬ w.Scales := fun hs => by simp [hs.2] at hdont
    simp only [World.dividedInterval, World.divided, if_neg hscales, ite_self]
  next hdont =>
    have hfake : w.dontFake = false := Bool.eq_false_iff.mpr hdont
    unfold realValue
    rw [h.isZero, if_neg (by simp), if_neg (by simp)]
    refine runs_load (runs_load (runs_pure ⟨?_, rfl⟩))
    have hvalue := hinterval new.itValue hfake
    rw [World.dividedInterval, h.isZero, if_neg (by simp), if_neg (by simp)] at hvalue
    rw [hinterval _ hfake, hvalue]

theorem hands_relativeTimer {c : ClockId} {new : Itimerspec} (w : World)
    (h : new.itValue.Positive) : Hands (timerSettimeCommon B false c (some new)) w
      (.realTimerSettime false
        (some ⟨w.dividedInterval new.itInterval, w.divided new.itValue⟩)) := by
  refine halts_dontFake ((runs_realSetting_relative w.silent h).halts_bind ?_)
  rintro _ _ ⟨rfl, rfl⟩
  exact (halts_ask rfl rfl).bind

/-- **A relative timer stays armed, and periodic.** -/
theorem armsPositive_iff {c : ClockId} {new : Itimerspec} (hr : w.proc.RatePositive)
    (h : (TimeoutCall.timerSettime new).Accepted) :
    ArmsPositive new (timerSettimeCommon B false c (some new)) w ↔
      (w.Scales → (TimeoutCall.timerSettime new).LongEnough w.proc.userRate) := by
  obtain ⟨hvalue, hinterval⟩ := h
  have hhands := hands_relativeTimer (B := B) (c := c) w hvalue
  have harms : ArmsPositive new (timerSettimeCommon B false c (some new)) w ↔
      (w.divided new.itValue).Positive ∧
        (new.itInterval.Positive → (w.dividedInterval new.itInterval).Positive) := by
    constructor
    · rintro ⟨value, interval, hv, hpos⟩
      have heq := hv.unique hhands
      simp only [Op.realTimerSettime.injEq, Option.some.injEq, Itimerspec.mk.injEq, true_and] at heq
      rwa [heq.1, heq.2] at hpos
    · exact fun hpos => ⟨_, _, hhands, hpos⟩
  have hevery : (new.itInterval.Positive → (w.dividedInterval new.itInterval).Positive) ↔
      (w.Scales → new.itInterval = ⟨0, 0⟩ ∨ w.proc.userRate ≤ new.itInterval.ns) := by
    rcases hinterval with hz | hpos
    · refine iff_of_true (fun hpos => ?_) fun _ => Or.inl hz
      exact absurd hpos.2 (by rw [hz]; decide)
    · have hne : new.itInterval ≠ ⟨0, 0⟩ := by
        intro hz
        exact absurd hpos.2 (by rw [hz]; decide)
      rw [World.dividedInterval, hpos.isZero, if_neg (by simp), divided_positive_iff hr hpos]
      simp only [hpos, forall_const, hne, false_or]
  rw [harms, hevery, divided_positive_iff hr hvalue, ← imp_and]
  exact Iff.rfl

/-! ### All of them -/

/-- **A positive timeout stays positive** if it is as long as the rate, in the unit of the call,
or is not divided at all. -/
theorem timeout_stays_positive_iff {f : TimeoutCall} (hr : w.proc.RatePositive) (hf : f.Accepted) :
    f.StaysPositive B w ↔ (w.Scales → f.LongEnough w.proc.userRate) := by
  cases f with
  | poll timeout => exact iff_of_true (pollsPositive w hf) fun _ => trivial
  | epollWait timeout => exact iff_of_true (pollsPositive w hf) fun _ => trivial
  | epollPwait timeout => exact iff_of_true (pollsPositive w hf) fun _ => trivial
  | ppoll timeout =>
    refine Iff.trans ⟨?_, fun h => ⟨_, hands_ppoll w hf, h⟩⟩ (divided_positive_iff hr hf)
    rintro ⟨t, ht, hpos⟩
    have heq := ht.unique (hands_ppoll w hf)
    simp only [Op.realPpoll.injEq, Option.some.injEq] at heq
    rwa [heq] at hpos
  | select timeout =>
    refine Iff.trans ⟨?_, fun h => ⟨_, hands_select w timeout, h⟩⟩ (handedTimeout_pos_iff hr hf)
    rintro ⟨t, ht, hpos⟩
    have heq := ht.unique (hands_select w timeout)
    simp only [Op.realSelect.injEq, Option.some.injEq] at heq
    rwa [heq] at hpos
  | pselect timeout =>
    refine Iff.trans ⟨?_, fun h => ⟨_, hands_pselect w hf, h⟩⟩ (divided_positive_iff hr hf)
    rintro ⟨t, ht, hpos⟩
    have heq := ht.unique (hands_pselect w hf)
    simp only [Op.realPselect.injEq, Option.some.injEq] at heq
    rwa [heq] at hpos
  | timerSettime new => exact armsPositive_iff hr hf
  | timerfdSettime c new => exact armsPositive_iff hr hf

/-- At double speed a timeout of two nanoseconds is one of one. -/
theorem timeout_stays_positive_at_double_speed :
    (TimeoutCall.ppoll ⟨0, 2⟩).StaysPositive plainBuild
      (calmWorld doubleSpeedEnv (fun _ _ => ⟨60, 0⟩) ⟨0, 0⟩ doubleSpeed) := by
  have hf : (TimeoutCall.ppoll ⟨0, 2⟩).Accepted := ⟨by decide, by decide⟩
  exact (timeout_stays_positive_iff (fun _ => show (0 : ℚ) < 2 by norm_num) hf).mpr
    fun _ => show (2 : ℚ) ≤ ((2 : ℤ) : ℚ) by norm_num

/-- At double speed `select` does not wait a microsecond but polls, and an interval of a
nanosecond makes the timer fire once. -/
theorem timeout_vanishes :
    ¬ (TimeoutCall.select ⟨0, 1⟩).StaysPositive plainBuild
        (calmWorld doubleSpeedEnv (fun _ _ => ⟨60, 0⟩) ⟨0, 0⟩ doubleSpeed) ∧
      ¬ (TimeoutCall.timerfdSettime .realtime ⟨⟨0, 1⟩, ⟨10, 0⟩⟩).StaysPositive plainBuild
        (calmWorld doubleSpeedEnv (fun _ _ => ⟨60, 0⟩) ⟨0, 0⟩ doubleSpeed) := by
  constructor
  · rintro ⟨t, ht, hpos⟩
    have heq := ht.unique (hands_select _ ⟨0, 1⟩)
    simp only [Op.realSelect.injEq, Option.some.injEq] at heq
    rw [heq] at hpos
    exact absurd hpos (by decide +kernel)
  · rintro ⟨value, interval, ht, -, hpos⟩
    have heq := ht.unique (hands_relativeTimer _ ⟨by decide, by decide⟩)
    simp only [Op.realTimerSettime.injEq, Option.some.injEq, Itimerspec.mk.injEq, true_and] at heq
    have hlt := (hpos ⟨by decide, by decide⟩).2
    rw [heq.1] at hlt
    exact absurd hlt (by decide +kernel)

end Proofs

end LibFaketime
