import LibFaketime.Futex
import LibFaketime.ExcludedWaits

/-!
# Sleeping for a time and until a time

To sleep for `d` and to sleep until `d` after what the clock shows should come to the same.
`clock_nanosleep` computes the two on branches of their own: a relative request is divided by the
rate, on both clocks, and an absolute one is counted from the base on the clocks that are faked.
So the two agree, up to the truncations, wherever the clock is faked and nothing saturates; but on
a monotonic clock that is not faked the relative request is divided all the same
(`LibFaketime.sleeps_agree_iff`).
-/

namespace LibFaketime

open Effects Effects.Prog Saturate

/-! ### The two requests -/

section Requests

variable {B : Build} {w : World} {s : Proc} {c : ClockId} {d D now : Timespec}
  {e₁ e₂ : Option CStr}

/-- The clocks that a program sleeps on. -/
def ClockId.IsSleep (c : ClockId) : Prop := c = .realtime ∨ c = .monotonic

/-- The request of a relative sleep. -/
theorem hands_clockNanosleep_relative (hdont : w.dontFake = false) (hc : c.IsSleep) :
    Hands (clockNanosleep c false d) w (.realClockNanosleep c false (w.proc.scaleDown d)) := by
  have hreq : (sleepFor c d).Runs seq w.silent fun r w' =>
      r = w.proc.scaleDown d ∧ w' = w.silent := by
    refine runs_load (runs_dontFake ?_)
    have hclock : (c == .realtime || c == .monotonic) = true := by
      rcases hc with rfl | rfl <;> rfl
    rw [show w.silent.dontFake = false from hdont, hclock]
    unfold Proc.scaleDown
    cases hset : w.proc.userRateSet with
    | true =>
      rw [show w.silent.proc.userRateSet = true from hset, if_pos (by decide), if_pos rfl]
      exact runs_pure ⟨rfl, rfl⟩
    | false =>
      rw [show w.silent.proc.userRateSet = false from hset, if_neg (by simp), if_neg (by simp)]
      exact runs_pure ⟨rfl, rfl⟩
  refine hreq.halts_bind ?_
  rintro _ _ ⟨rfl, rfl⟩
  exact (halts_ask rfl rfl).bind

/-- The request of an absolute sleep is the deadline, on a clock that is not faked. -/
def Proc.sleepDeadline (s : Proc) (c : ClockId) (D : Timespec) : Timespec :=
  if s.Fakes c then s.fromStart c D else D

theorem Proc.fakes_realtime (s : Proc) : s.Fakes .realtime = true := Bool.or_true _

theorem Proc.fakes_monotonic (s : Proc) : s.Fakes .monotonic = s.fakeMonotonicClock :=
  Bool.or_false _

theorem hands_clockNanosleep_absolute (hmono : MonotonicFixed w e₁ e₂) (hc : c.IsSleep) :
    Hands (clockNanosleep c true D) w (.realClockNanosleep c true (w.proc.sleepDeadline c D)) := by
  have hreq : (sleepUntil c D).Runs seq w.silent fun r w' =>
      r = w.proc.sleepDeadline c D ∧ w'.os = w.silent.os := by
    refine runs_load ?_
    unfold Proc.sleepDeadline
    rcases hc with rfl | rfl
    · rw [if_pos rfl, Proc.fakes_realtime, if_pos rfl]
      exact runs_load (runs_pure ⟨rfl, rfl⟩)
    · rw [if_neg (by decide), if_pos rfl, Proc.fakes_monotonic]
      have hmono' : MonotonicFixed w.silent e₁ e₂ := ⟨hmono.first, hmono.second, hmono.same⟩
      refine (runs_getFakeMonotonicSetting hmono').bind ?_
      rintro _ w₁ ⟨h₁, -⟩
      refine runs_load (runs_pure ⟨?_, h₁.os⟩)
      rw [h₁.field Proc.fakeMonotonicClock, h₁.field Proc.ftplStarttime]
      rfl
  refine hreq.halts_bind ?_
  rintro _ w₁ ⟨rfl, hos⟩
  refine (halts_ask rfl ?_).bind
  rw [hos]
  rfl

end Requests

/-! ### Where the two agree -/

section Main

variable {B : Build} {w : World} {s : Proc} {c : ClockId} {d D now : Timespec}
  {e₁ e₂ : Option CStr}

/-- How far apart the two instants may be. -/
def Proc.sleepTolerance (s : Proc) : ℚ := max s.rate (1 / s.rate) + 2

/-- **The two sleeps agree**: the kernel waits for the one from now on and until the other, and
the instants at which they end are as good as the same. -/
def SleepsAgree (w : World) (c : ClockId) (now d D : Timespec) : Prop :=
  ∃ length deadline, Hands (clockNanosleep c false d) w (.realClockNanosleep c false length) ∧
    Hands (clockNanosleep c true D) w (.realClockNanosleep c true deadline) ∧
    |((now.ns + length.ns - deadline.ns : ℤ) : ℚ)| ≤ w.proc.sleepTolerance

/-- Nothing saturates in a sleep for `y` from `x` on, nor in one until `y` later. -/
structure Proc.SleepFits (s : Proc) (c : ClockId) (x y : ℤ) : Prop where
  length : Fits (s.slowDown y)
  query : s.ClockFits c x
  distance : Fits (s.exactTime c x + y - s.userFakedTimeTimespec.ns)
  delay : Fits (s.slowDown (s.exactTime c x + y - s.userFakedTimeTimespec.ns))
  deadline : Fits (s.realDeadline c (s.exactTime c x + y) (s.ftplStarttime.of c).ns)

/-- **Where the two agree**: on a clock that is faked, if nothing saturates, and on one that is not,
if the length is as good as the same at the rate. -/
def Proc.SleepsAlike (s : Proc) (c : ClockId) (now d : Timespec) : Prop :=
  if s.Fakes c then s.SleepFits c now.ns d.ns
  else |((d.ns - s.slowed d.ns : ℤ) : ℚ)| ≤ s.sleepTolerance

/-- The condition looks at the core of the process. -/
theorem sleepsAlike_core : s.core.SleepsAlike c now d ↔ s.SleepsAlike c now d := by
  have hfit : s.core.SleepFits c now.ns d.ns ↔ s.SleepFits c now.ns d.ns :=
    ⟨fun h => ⟨h.length, ⟨h.query.elapsed, h.query.speed, h.query.time⟩, h.distance, h.delay,
      h.deadline⟩, fun h => ⟨h.length, ⟨h.query.elapsed, h.query.speed, h.query.time⟩, h.distance,
      h.delay, h.deadline⟩⟩
  unfold Proc.SleepsAlike
  rw [hfit]
  exact Iff.rfl

theorem ns_scaleDown (s : Proc) (d : Timespec) : (s.scaleDown d).ns = s.slowed d.ns := by
  unfold Proc.scaleDown Proc.slowed
  split
  · exact ns_timespecmul _ _
  · rfl

theorem slowed_eq_slowDown {y : ℤ} (h : Fits (s.slowDown y)) : s.slowed y = s.slowDown y := by
  unfold Proc.slowed
  unfold Proc.slowDown at h ⊢
  split
  next hset =>
    rw [if_pos hset] at h
    exact h.satNs
  next => rfl

theorem Proc.one_div_rate_le (s : Proc) : 1 / s.rate + 2 ≤ s.sleepTolerance :=
  add_le_add_left (le_max_right _ _) 2

theorem Proc.sleepTolerance_nonneg (hr : s.RatePositive) : 0 ≤ s.sleepTolerance := by
  have hrate : 0 < s.rate := by
    unfold Proc.rate
    split
    next hset => exact hr hset
    next => exact one_pos
  have hle := s.one_div_rate_le
  have hpos : 0 < 1 / s.rate := one_div_pos.mpr hrate
  linarith

/-- **On a faked clock the two agree**, as long as nothing saturates: the start time and the
moment of the call are two anchors of one deadline. -/
theorem abs_sleeps_sub_le (ht : s.TimesStored) (hr : s.RatePositive) (hc : c.IsSleep)
    (hfakes : s.Fakes c = true) (hn : now.Normal) (hD : D.Normal)
    (hDns : D.ns = (s.report c now).ns + d.ns) (hfit : s.SleepFits c now.ns d.ns) :
    |((now.ns + s.slowed d.ns - (s.fromStart c D).ns : ℤ) : ℚ)| ≤ s.sleepTolerance := by
  have hcpu : c.IsCpu = false := by rcases hc with rfl | rfl <;> rfl
  have hshown : (s.report c now).ns = s.exactTime c now.ns := by
    rw [Proc.report, hfakes, if_pos rfl, ht.ns_fakeTime_of_fits hcpu hn hfit.query]
  rw [hshown] at hDns
  have hdeadline : (s.fromStart c D).ns = s.realDeadline c D.ns (s.ftplStarttime.of c).ns := by
    have hbase := s.exactTime_start c
    rw [Proc.fromStart, ns_timespecadd (ht.start c) (normal_realDistance hD.stored ht.base).stored,
      ns_realDistance hD.stored ht.base (by rw [hDns]; exact hfit.distance)
        (by rw [hDns]; exact hfit.delay)]
    have hfits := hfit.deadline
    rw [← hDns] at hfits
    unfold Proc.realDeadline at hfits ⊢
    rw [hbase] at hfits ⊢
    exact hfits.satNs
  have hlength : now.ns + s.slowed d.ns = s.realDeadline c D.ns now.ns := by
    rw [slowed_eq_slowDown hfit.length, Proc.realDeadline, hDns, add_sub_cancel_left]
  rw [hdeadline, hlength]
  cases hset : s.userRateSet with
  | true =>
    have hnear := Proc.abs_realDeadline_sub_lt (c := c) hset (hr hset) D.ns now.ns
    have hrate : s.rate = s.userRate := by rw [Proc.rate, if_pos hset]
    push_cast
    refine hnear.le.trans ?_
    rw [← hrate]
    exact s.one_div_rate_le
  | false =>
    have hsame : s.realDeadline c D.ns now.ns =
        s.realDeadline c D.ns (s.ftplStarttime.of c).ns := by
      unfold Proc.realDeadline Proc.exactTime
      rw [Proc.slowDown_of_not hset, Proc.slowDown_of_not hset, Proc.speedUp_of_not hset,
        Proc.speedUp_of_not hset]
      ring
    rw [hsame, sub_self, Int.cast_zero, abs_zero]
    exact Proc.sleepTolerance_nonneg hr

/-- The kernel is handed the length at the rate and the deadline. -/
theorem sleepsAgree_iff (hdont : w.dontFake = false) (hmono : MonotonicFixed w e₁ e₂)
    (hc : c.IsSleep) : SleepsAgree w c now d D ↔
      |((now.ns + w.proc.slowed d.ns - (w.proc.sleepDeadline c D).ns : ℤ) : ℚ)| ≤
        w.proc.sleepTolerance := by
  have hlength := hands_clockNanosleep_relative (d := d) hdont hc
  have hdeadline := hands_clockNanosleep_absolute (D := D) hmono hc
  rw [← ns_scaleDown]
  refine ⟨?_, fun h => ⟨_, _, hlength, hdeadline, h⟩⟩
  rintro ⟨length, deadline, hl, hd, hle⟩
  have heq := hl.unique hlength
  have heq' := hd.unique hdeadline
  simp only [Op.realClockNanosleep.injEq, true_and] at heq heq'
  rwa [heq, heq'] at hle

theorem sleepsAgree_of_sleepsAlike (ht : w.proc.TimesStored) (hr : w.proc.RatePositive)
    (hdont : w.dontFake = false) (hmono : MonotonicFixed w e₁ e₂) (hc : c.IsSleep)
    (hn : now.Normal) (hD : D.Normal) (hDns : D.ns = (w.proc.report c now).ns + d.ns) :
    (w.proc.SleepsAlike c now d → SleepsAgree w c now d D) ∧
      (w.proc.Fakes c = false → SleepsAgree w c now d D → w.proc.SleepsAlike c now d) := by
  rw [sleepsAgree_iff hdont hmono hc]
  unfold Proc.SleepsAlike Proc.sleepDeadline
  cases hfakes : w.proc.Fakes c with
  | true =>
    rw [if_pos rfl, if_pos rfl]
    exact ⟨abs_sleeps_sub_le ht hr hc hfakes hn hD hDns, nofun⟩
  | false =>
    rw [if_neg (by simp), if_neg (by simp)]
    have hreal : (w.proc.report c now).ns = now.ns := by
      rw [Proc.report, hfakes, if_neg (by simp)]
    have hdiff : now.ns + w.proc.slowed d.ns - D.ns = -(d.ns - w.proc.slowed d.ns) := by
      rw [hDns, hreal]
      ring
    rw [hdiff, Int.cast_neg, abs_neg]
    exact ⟨id, fun _ => id⟩

/-- What `clock_gettime` reports. -/
theorem runs_clockGettime_report (hs : Serves B w) (ht : w.proc.TimesStored) (hn : now.Normal)
    (hnow : w.os w.now (.realClockGettime c) = some (some now)) :
    (clockGettime B c).Runs seq w fun r w' => r = (0, some (w.proc.report c now)) ∧ Like w w' := by
  have htick : Like w w.tick := Like.tick w
  refine runs_realClockGettime hnow (runs_load ?_)
  unfold Proc.report
  change (if w.proc.Fakes c = true then _ else _ : Sys _).Runs seq w.tick _
  split
  · refine (runs_fakeClockGettime (hs.like htick) (ht.of_core htick.core) hn).bind ?_
    rintro _ w₁ ⟨rfl, h₁⟩
    exact runs_pure ⟨rfl, htick.trans h₁⟩
  · exact runs_pure ⟨rfl, htick⟩

/-- **Sleeping for a time and until a time agree** on every clock that is faked, as long as nothing
saturates, and on one that is not exactly for the lengths that the rate leaves as good as the same.
A process serves a start-at clock at any rate; `clock_gettime` shows `v`, and `D` is `d` later. -/
theorem sleeps_agree_iff (hs : Serves B w) (ht : w.proc.TimesStored) (hr : w.proc.RatePositive)
    (hmono : MonotonicFixed w e₁ e₂) (hc : c.IsSleep) (hn : now.Normal)
    (hnow : w.os w.now (.realClockGettime c) = some (some now)) :
    ∃ v, (clockGettime B c).Runs seq w (fun r w' => r = (0, some v) ∧ Like w w') ∧
      ∀ w', Like w w' → ∀ D : Timespec, D.Normal → D.ns = v.ns + d.ns →
        (w.proc.SleepsAlike c now d → SleepsAgree w' c now d D) ∧
          (w.proc.Fakes c = false → SleepsAgree w' c now d D → w.proc.SleepsAlike c now d) := by
  refine ⟨_, runs_clockGettime_report hs ht hn hnow, fun w' hw D hD hDns => ?_⟩
  have hmono' : MonotonicFixed w' e₁ e₂ := by
    refine ⟨?_, ?_, ?_⟩
    · rw [hw.os]
      exact hmono.first
    · rw [hw.os]
      exact hmono.second
    · rw [hw.field Proc.fakeMonotonicClock]
      exact hmono.same
  have hr' : w'.proc.RatePositive := by
    rw [Proc.RatePositive, hw.field Proc.userRateSet, hw.field Proc.userRate]
    exact hr
  rw [← hw.field Proc.report] at hDns
  have hboth := sleepsAgree_of_sleepsAlike (ht.of_core hw.core) hr' (hw.dontFake.trans hs.faking)
    hmono' hc hn hD hDns
  rwa [← sleepsAlike_core, hw.core, sleepsAlike_core, hw.field Proc.Fakes] at hboth

/-- At double speed, on the realtime clock: the kernel waits for fifty seconds from the sixtieth
on, and until fifty seconds after it. -/
theorem sleeps_agree_at_double_speed :
    ∃ v, (clockGettime plainBuild .realtime).Runs seq
        (calmWorld doubleSpeedEnv (fun _ _ => ⟨60, 0⟩) ⟨0, 0⟩ doubleSpeed)
        (fun r _ => r = (0, some v)) ∧
      ∀ D : Timespec, D.Normal → D.ns = v.ns + (⟨100, 0⟩ : Timespec).ns →
        SleepsAgree (calmWorld doubleSpeedEnv (fun _ _ => ⟨60, 0⟩) ⟨0, 0⟩ doubleSpeed) .realtime
          ⟨60, 0⟩ ⟨100, 0⟩ D := by
  have hmono : MonotonicFixed (calmWorld doubleSpeedEnv (fun _ _ => ⟨60, 0⟩) ⟨0, 0⟩ doubleSpeed)
      none none := ⟨fun _ => rfl, fun _ => rfl, nofun⟩
  have hfit : doubleSpeed.SleepFits .realtime (⟨60, 0⟩ : Timespec).ns (⟨100, 0⟩ : Timespec).ns := by
    refine ⟨?_, ⟨?_, ?_, ?_⟩, ?_, ?_, ?_⟩ <;> decide +kernel
  obtain ⟨v, hv, hagree⟩ := sleeps_agree_iff (d := ⟨100, 0⟩) (doubleSpeed_serves fun _ _ => ⟨60, 0⟩)
    doubleSpeed_timesStored (fun _ => show (0 : ℚ) < 2 by norm_num) hmono (Or.inl rfl)
      (by decide) rfl
  refine ⟨v, hv.mono fun _ _ h => h.1, fun D hD hDns => (hagree _ (.refl _) D hD hDns).1 ?_⟩
  exact (if_pos (Proc.fakes_realtime _)).mpr hfit

/-- The environment of that setting with `FAKETIME_DONT_FAKE_MONOTONIC`. -/
def fastMonotonicEnv : EnvVar → Option CStr
  | .faketimeDontFakeMonotonic => some ['1']
  | v => doubleSpeedEnv v

/-- The process at double speed, whose monotonic clock is not faked. -/
def fastRealMonotonic : Proc := { doubleSpeed with fakeMonotonicClock := false }

/-- The monotonic clock shows the real sixty seconds. A sleep for a hundred seconds ends after
fifty, and one until the second `160` after a hundred. -/
theorem sleeps_disagree :
    (clockGettime plainBuild .monotonic).answer seq
        (calmWorld fastMonotonicEnv (fun _ _ => ⟨60, 0⟩) ⟨0, 0⟩ fastRealMonotonic) =
        .ok (0, some ⟨60, 0⟩) ∧
      ¬ SleepsAgree (calmWorld fastMonotonicEnv (fun _ _ => ⟨60, 0⟩) ⟨0, 0⟩ fastRealMonotonic)
        .monotonic ⟨60, 0⟩ ⟨100, 0⟩ ⟨160, 0⟩ := by
  refine ⟨rfl, ?_⟩
  rintro ⟨length, deadline, hl, hd, hle⟩
  have heq := hl.unique (hands_clockNanosleep_relative rfl (Or.inr rfl))
  have heq' := hd.unique (show Hands _ _ (.realClockNanosleep .monotonic true ⟨160, 0⟩) from rfl)
  simp only [Op.realClockNanosleep.injEq, true_and] at heq heq'
  rw [heq, heq'] at hle
  exact absurd hle (by decide +kernel)

end Main

end LibFaketime
