import LibFaketime.Clock

/-!
# All ways to ask for the time of day

`time`, `ftime`, `timespec_get`, `clock_gettime` and `gettimeofday` ask one clock, and what
they report of one real instant agrees. Four of them read the real clock to the nanosecond and
differ only in how much of the answer they keep. `gettimeofday` reads it to the microsecond
and puts the missing nanoseconds of the start time in the place of those of the reading, so
its answer may be off by a microsecond, unless the base and the start time have the same
nanoseconds below the microsecond (`LibFaketime.realtime_queries_agree`).
-/

namespace LibFaketime

open Effects Effects.Prog Saturate

/-! ### Microseconds -/

/-- The microseconds a time stands for. -/
def Timeval.us (tv : Timeval) : ℤ := tv.tvSec * 1000000 + tv.tvUsec

/-- The real reading `gettimeofday` hands to the clock in place of `t`. -/
def Proc.coarse (s : Proc) (t : Timespec) : Timespec :=
  ⟨t.tvSec, t.tvNsec / 1000 * 1000 + s.ftplStarttime.real.tvNsec.tmod 1000⟩

section Arithmetic

variable {s : Proc} {t f : Timespec}

theorem us_of_normal (hf : f.Normal) :
    (⟨f.tvSec, f.tvNsec.tdiv 1000⟩ : Timeval).us = f.ns / 1000 := by
  obtain ⟨h0, h1⟩ := hf
  have hdiv : f.tvNsec.tdiv 1000 = f.tvNsec / 1000 := Int.tdiv_eq_ediv_of_nonneg h0
  simp only [Timeval.us, hdiv, Timespec.ns_eq]
  omega

/-- The two readings are in the same microsecond, and the second one is as far into it as
the start time. -/
theorem coarse_spec (ht : t.Normal) (hs : s.ftplStarttime.real.Normal) :
    (s.coarse t).Normal ∧ (s.coarse t).ns / 1000 = t.ns / 1000 ∧
      (s.coarse t).ns % 1000 = s.ftplStarttime.real.ns % 1000 := by
  obtain ⟨h0, h1⟩ := ht
  obtain ⟨h2, h3⟩ := hs
  have hmod : s.ftplStarttime.real.tvNsec.tmod 1000 = s.ftplStarttime.real.tvNsec % 1000 :=
    Int.tmod_eq_emod_of_nonneg h2
  unfold Proc.coarse
  simp only [Timespec.Normal, Timespec.ns_eq, hmod]
  omega

/-- Saturation brings numbers no further apart. -/
theorem satNs_sub_le {x y k : ℤ} (h : x - y ≤ k) (hk : 0 ≤ k) : satNs x - satNs y ≤ k := by
  have hle := nsMin_le_nsMax
  unfold satNs clamp
  omega

/-- Nor does the clock of a start-at mode. -/
theorem satNs_add_satNs_sub_le {b a x y k : ℤ} (h : x - y ≤ k) (hk : 0 ≤ k) :
    satNs (b + satNs (x - a)) - satNs (b + satNs (y - a)) ≤ k := by
  refine satNs_sub_le ?_ hk
  have := satNs_sub_le (x := x - a) (y := y - a) (k := k) (by omega) hk
  omega

theorem ns_shown_startAt (hstored : s.TimesStored) (ht : t.Normal) (hmode : s.ftMode = .startAt)
    (hrate : s.userRateSet = false) : (s.shown .realtime t).ns =
      satNs (s.userFakedTimeTimespec.ns + satNs (t.ns - s.ftplStarttime.real.ns)) := by
  have hbyMode : s.byMode .realtime t = s.startAt .realtime t := by
    rw [Proc.byMode, hmode]
  rw [Proc.shown, if_neg (by decide), ns_normalizeTimespecValue, hbyMode, Proc.startAt, hrate]
  have hsub := normal_timespecsub ht.stored (hstored.start .realtime)
  rw [if_neg (by simp), ns_timespecadd hstored.base hsub.stored,
    ns_timespecsub ht.stored (hstored.start .realtime)]
  rfl

theorem normal_shown {clkId : ClockId} (ht : t.Normal) : (s.shown clkId t).Normal := by
  unfold Proc.shown
  split
  · split
    · exact normal_timespecmul _ _
    · exact ht
  · exact normal_normalizeTimespecValue _

/-- **What the clock shows at the two readings is at most a microsecond apart.** -/
theorem shown_coarse (hstored : s.TimesStored) (ht : t.Normal)
    (hstart : s.ftplStarttime.real.Normal)
    (hrate : s.userRateSet = false) :
    |(s.shown .realtime (s.coarse t)).ns / 1000 - (s.shown .realtime t).ns / 1000| ≤ 1 ∧
      ((s.ftMode = .startAt → s.Unsaturated .realtime t ∧ s.Unsaturated .realtime (s.coarse t)) →
        (s.userFakedTimeTimespec.ns - s.ftplStarttime.real.ns) % 1000 = 0 →
        (s.shown .realtime (s.coarse t)).ns / 1000 = (s.shown .realtime t).ns / 1000) := by
  obtain ⟨hn, hdiv, hmod⟩ := coarse_spec ht hstart
  cases hmode : s.ftMode with
  | freeze =>
    have hshown : ∀ x : Timespec, (s.shown .realtime x).ns =
        if s.userFakedTimeSet then s.userFakedTimeTimespec.ns else x.ns := by
      intro x
      rw [Proc.shown, if_neg (by decide), ns_normalizeTimespecValue, Proc.byMode, hmode]
      dsimp only
      split <;> rfl
    rw [hshown, hshown]
    split <;> simp [hdiv]
  | startAt =>
    rw [ns_shown_startAt hstored hn hmode hrate, ns_shown_startAt hstored ht hmode hrate]
    constructor
    · have h₁ := satNs_add_satNs_sub_le (b := s.userFakedTimeTimespec.ns)
        (a := s.ftplStarttime.real.ns) (x := (s.coarse t).ns) (y := t.ns) (k := 999) (by omega)
        (by decide)
      have h₂ := satNs_add_satNs_sub_le (b := s.userFakedTimeTimespec.ns)
        (a := s.ftplStarttime.real.ns) (x := t.ns) (y := (s.coarse t).ns) (k := 999) (by omega)
        (by decide)
      rw [abs_le]
      omega
    · intro hfit hcong
      obtain ⟨⟨hfit₁, hfit₂⟩, hfit₃, hfit₄⟩ := hfit rfl
      have hof : s.ftplStarttime.of .realtime = s.ftplStarttime.real := rfl
      rw [hof] at hfit₁ hfit₂ hfit₃ hfit₄
      rw [hfit₁.satNs, hfit₂.satNs, hfit₃.satNs, hfit₄.satNs]
      omega
  | noop =>
    have hshown : ∀ x : Timespec, (s.shown .realtime x).ns = x.ns := by
      intro x
      rw [Proc.shown, if_neg (by decide), ns_normalizeTimespecValue, Proc.byMode, hmode]
    rw [hshown, hshown, hdiv]
    simp

end Arithmetic

/-! ### The functions -/

/-- `TIME_UTC`. -/
def timeUtc : ℤ := 1

/-- The real clocks show the instant `t`, each as precisely as it is read. -/
structure World.At (t : Timespec) (w : World) : Prop where
  clock : ∀ n, w.os n (.realClockGettime .realtime) = some (some t)
  timeofday : ∀ n, w.os n .realGettimeofday = some (some ⟨t.tvSec, t.tvNsec / 1000⟩)
  ftime : ∀ n, w.os n .realFtime = some true
  timespecGet : ∀ n, w.os n (.realTimespecGet timeUtc) = some (some (timeUtc, t))

section Functions

variable {B : Build} {w : World} {t : Timespec}

theorem Like.tick (w : World) : Like w w.tick := ⟨rfl, rfl, rfl, rfl, rfl, rfl⟩

theorem Responds.tick (hs : Responds B w) : Responds B w.tick := hs.like (.tick w)

theorem runs_time (hs : Responds B w) (ht : w.At t) :
    (time B).Runs seq w fun r _ => r = (w.shown .realtime t).tvSec := by
  refine runs_realClockGettime (ht.clock _) ?_
  refine (runs_query hs.tick).bind ?_
  rintro _ w₁ ⟨rfl, -⟩
  exact runs_pure rfl

theorem runs_ftime (hs : Responds B w) (ht : w.At t) :
    (ftime B).Runs seq w fun r _ =>
      r = (0, some ((w.shown .realtime t).tvSec, (w.shown .realtime t).tvNsec.tdiv 1000000)) := by
  refine runs_ask rfl (ht.ftime _) ?_
  refine runs_realClockGettime (ht.clock _) ?_
  refine (runs_query hs.tick.tick).bind ?_
  rintro _ w₁ ⟨rfl, -⟩
  exact runs_pure rfl

theorem runs_timespecGet (hs : Responds B w) (ht : w.At t) :
    (timespecGet B timeUtc).Runs seq w fun r _ => r = (timeUtc, some (w.shown .realtime t)) := by
  refine runs_ask rfl (ht.timespecGet _) ?_
  refine (runs_query hs.tick).bind ?_
  rintro _ w₁ ⟨rfl, -⟩
  exact runs_pure rfl

theorem runs_clockGettime (hs : Responds B w) (ht : w.At t) :
    (clockGettime B .realtime).Runs seq w fun r w' =>
      r = (0, some (w.shown .realtime t)) ∧ Like w w' := by
  refine runs_realClockGettime (ht.clock _) (runs_load ?_)
  rw [if_pos (by simp [ClockId.IsMonotonic])]
  refine (runs_query hs.tick).bind ?_
  rintro _ w₁ ⟨rfl, hlike⟩
  exact runs_pure ⟨rfl, (Like.tick w).trans hlike⟩

theorem runs_gettimeofday (hs : Responds B w) (ht : w.At t) :
    (gettimeofday B).Runs seq w fun r _ =>
      r = (0, some ⟨(w.shown .realtime (w.proc.coarse t)).tvSec,
        (w.shown .realtime (w.proc.coarse t)).tvNsec.tdiv 1000⟩) := by
  refine runs_ask rfl (ht.timeofday _) ?_
  refine Runs.bind (Q := fun r _ => r = (0, (⟨(w.shown .realtime (w.proc.coarse t)).tvSec,
    (w.shown .realtime (w.proc.coarse t)).tvNsec.tdiv 1000⟩ : Timeval))) ?_ ?_
  · refine runs_load ?_
    refine (runs_query hs.tick).bind ?_
    rintro _ w₁ ⟨rfl, -⟩
    exact runs_pure rfl
  · rintro _ w₁ rfl
    exact runs_pure rfl

/-- **All ways to ask for the time of day agree.** The process responds, without a rate,
and the real clocks show the instant `t`. Then there is one faked time `F` of which
`clock_gettime` and `timespec_get` report all, `ftime` the milliseconds and `time` the
seconds, and `gettimeofday` reports its microseconds up to one, and exactly if the base and
the start time are congruent modulo a microsecond and nothing saturates. -/
theorem realtime_queries_agree (hs : Responds B w) (hstored : w.proc.TimesStored)
    (hstart : w.proc.ftplStarttime.real.Normal) (hrate : w.proc.userRateSet = false)
    (ht : t.Normal) (hat : w.At t) :
    ∃ F : Timespec, F.Normal ∧
      (fakeClockGettime B .realtime t).Runs seq w (fun r _ => r = (0, F)) ∧
      (clockGettime B .realtime).Runs seq w (fun r _ => r = (0, some F)) ∧
      (timespecGet B timeUtc).Runs seq w (fun r _ => r = (timeUtc, some F)) ∧
      (ftime B).Runs seq w (fun r _ => r = (0, some (F.tvSec, F.tvNsec / 1000000))) ∧
      (time B).Runs seq w (fun r _ => r = F.tvSec) ∧
      ∃ tv : Timeval, (gettimeofday B).Runs seq w (fun r _ => r = (0, some tv)) ∧
        |tv.us - F.ns / 1000| ≤ 1 ∧
        ((w.proc.ftMode = .startAt → w.proc.Unsaturated .realtime t ∧
            w.proc.Unsaturated .realtime (w.proc.coarse t)) →
          1000 ∣ w.proc.userFakedTimeTimespec.ns - w.proc.ftplStarttime.real.ns →
          tv.us = F.ns / 1000) := by
  obtain ⟨hcoarse, hdiv, -⟩ := coarse_spec ht hstart
  have hn : ∀ {x : Timespec}, x.Normal → (w.shown .realtime x).Normal := by
    intro x hx
    unfold World.shown
    split
    · exact hx
    · exact normal_shown hx
  refine ⟨w.shown .realtime t, hn ht, (runs_query hs).mono fun _ _ h => h.1,
    (runs_clockGettime hs hat).mono fun _ _ h => h.1, runs_timespecGet hs hat, ?_,
      runs_time hs hat, _,
    runs_gettimeofday hs hat, ?_⟩
  · rw [← Int.tdiv_eq_ediv_of_nonneg (hn ht).1]
    exact runs_ftime hs hat
  · rw [us_of_normal (hn hcoarse)]
    unfold World.shown
    split
    · -- nothing is faked in this thread
      rw [hdiv]
      simp
    · obtain ⟨hnear, hexact⟩ := shown_coarse hstored ht hstart hrate
      exact ⟨hnear, fun hfit hcong => hexact hfit (Int.emod_eq_zero_of_dvd hcong)⟩

/-- A process of `FAKETIME='@1970-01-01 00:01:40'` that was started at `⟨50, 0⟩`. -/
def startedOnTheDot : Proc :=
  { Proc.initial with
    ftMode := .startAt
    ftplStarttime := ⟨⟨50, 0⟩, ⟨50, 0⟩, ⟨50, 0⟩, ⟨50, 0⟩⟩
    userFakedTimeTimespec := ⟨100, 0⟩
    userFakedTimeSaved := "@1970-01-01 00:01:40".toList
    parseConfigFile := false
    sharedSemInitialized := true }

/-- At `⟨60, 1999⟩` on the real clock, `gettimeofday` reports the same microsecond as
`clock_gettime`. -/
theorem realtime_queries_agree_on_the_dot :
    ∃ F tv, (clockGettime epochBuild .realtime).Runs seq
        (calmWorld startAtEnv (fun _ _ => ⟨60, 1999⟩) ⟨0, 0⟩ startedOnTheDot)
        (fun r _ => r = (0, some F)) ∧
      (gettimeofday epochBuild).Runs seq
        (calmWorld startAtEnv (fun _ _ => ⟨60, 1999⟩) ⟨0, 0⟩ startedOnTheDot)
        (fun r _ => r = (0, some tv)) ∧ tv.us = F.ns / 1000 := by
  have hsteady : Steady epochBuild "@1970-01-01 00:01:40".toList
      (calmWorld startAtEnv (fun _ _ => ⟨60, 1999⟩) ⟨0, 0⟩ startedOnTheDot) :=
    ⟨rfl, ⟨fun n => ⟨_, rfl⟩, fun _ => rfl, fun _ => rfl, fun _ _ => ⟨_, rfl⟩⟩, by decide, rfl, rfl,
      rfl, nofun, fun _ => rfl, none, none, fun _ => rfl, fun _ => rfl, nofun⟩
  have hstored : startedOnTheDot.TimesStored :=
    ⟨by decide, fun c => by cases c <;> exact (by decide : (⟨50, 0⟩ : Timespec).Stored)⟩
  obtain ⟨F, -, -, hclock, -, -, -, tv, htod, -, hexact⟩ := realtime_queries_agree
    (hsteady.serves rfl rfl rfl (by decide) rfl).responds hstored (by decide) rfl
    (t := ⟨60, 1999⟩) (by decide) ⟨fun _ => rfl, fun _ => rfl, fun _ => rfl, fun _ => rfl⟩
  exact ⟨F, tv, hclock, htod, hexact (fun _ => ⟨by decide, by decide⟩) (by decide)⟩

end Functions

end LibFaketime
