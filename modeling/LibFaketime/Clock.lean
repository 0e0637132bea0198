import LibFaketime.Query
import LibFaketime.Files

/-!
# The order of faked times

The clock of a start-at setting as a function of the real time
(`LibFaketime.Proc.fakeTime`). It is a composition of three operations that saturate and
one that truncates, and each of them is monotone on nanosecond counts, so the clock is:
later real times never get earlier faked ones, wherever the operations saturate. At the
rate of real time, as long as nothing saturates, it keeps distances too.

The timestamps of files go through the same function, three or four of them under one
lock, so the order of files is that of their real timestamps.
-/

namespace LibFaketime

open Effects Effects.Prog Saturate

/-! ### The clock on nanoseconds -/

section Function

variable {s : Proc} {clkId : ClockId} {t t₁ t₂ : Timespec}

/-- A length of real time at the rate of the user. -/
def Proc.scaled (s : Proc) (x : ℤ) : ℤ :=
  if s.userRateSet then satNs (trunc ((x : ℚ) * s.userRate)) else x

/-- The rate, if there is one, is positive: the parser accepts no other. -/
def Proc.RatePositive (s : Proc) : Prop := s.userRateSet = true → 0 < s.userRate

/-- The rate of the clock. -/
def Proc.rate (s : Proc) : ℚ := if s.userRateSet then s.userRate else 1

theorem Proc.scaled_mono (hr : s.RatePositive) : Monotone s.scaled := by
  intro x y hxy
  unfold Proc.scaled
  split
  next hset =>
    refine satNs_mono (trunc_mono ?_)
    have hcast : (x : ℚ) ≤ y := by exact_mod_cast hxy
    exact mul_le_mul_of_nonneg_right hcast (hr hset).le
  next => exact hxy

theorem Proc.TimesStored.ns_startAt (h : s.TimesStored) (ht : t.Normal) :
    (s.startAt clkId t).ns = satNs (s.userFakedTimeTimespec.ns +
      s.scaled (satNs (t.ns - (s.ftplStarttime.of clkId).ns))) := by
  have hsub := normal_timespecsub ht.stored (h.start clkId)
  unfold Proc.startAt Proc.scaled
  split
  · rw [ns_timespecadd h.base (normal_timespecmul _ _).stored, ns_timespecmul,
      ns_timespecsub ht.stored (h.start clkId)]
  · rw [ns_timespecadd h.base hsub.stored, ns_timespecsub ht.stored (h.start clkId)]

theorem Proc.TimesStored.normal_fakeTime (h : s.TimesStored) (ht : t.Normal) :
    (s.fakeTime clkId t).Normal := by
  unfold Proc.fakeTime
  split
  · split
    · exact normal_timespecmul _ _
    · exact ht
  · exact h.normal_startAt ht

/-- The clock on nanoseconds. A clock of processor time is only scaled. -/
theorem Proc.TimesStored.ns_fakeTime (h : s.TimesStored) (ht : t.Normal) :
    (s.fakeTime clkId t).ns = if clkId.IsCpu then s.scaled t.ns
      else satNs (s.userFakedTimeTimespec.ns +
        s.scaled (satNs (t.ns - (s.ftplStarttime.of clkId).ns))) := by
  unfold Proc.fakeTime
  split
  · unfold Proc.scaled
    split
    · exact ns_timespecmul _ _
    · rfl
  · exact h.ns_startAt ht

/-- **Later times are not faked earlier.** -/
theorem Proc.TimesStored.fakeTime_mono (h : s.TimesStored) (hr : s.RatePositive)
    (h₁ : t₁.Normal) (h₂ : t₂.Normal) (hle : t₁ ≤ t₂) :
    s.fakeTime clkId t₁ ≤ s.fakeTime clkId t₂ := by
  rw [Timespec.le_iff_ns h₁ h₂] at hle
  rw [Timespec.le_iff_ns (h.normal_fakeTime h₁) (h.normal_fakeTime h₂), h.ns_fakeTime h₁,
    h.ns_fakeTime h₂]
  split
  · exact Proc.scaled_mono hr hle
  · refine satNs_mono (Int.add_le_add_left (Proc.scaled_mono hr (satNs_mono ?_)) _)
    exact Int.sub_le_sub_right hle _

/-- The rate is that of real time. -/
def Proc.UnitRate (s : Proc) : Prop := s.userRateSet = true → s.userRate = 1

/-- No operation saturates on the way of a real time through the clock. -/
def Proc.Unsaturated (s : Proc) (clkId : ClockId) (t : Timespec) : Prop :=
  if clkId.IsCpu then Fits t.ns
  else Fits (t.ns - (s.ftplStarttime.of clkId).ns) ∧
    Fits (s.userFakedTimeTimespec.ns + (t.ns - (s.ftplStarttime.of clkId).ns))

instance (s : Proc) (clkId : ClockId) (t : Timespec) : Decidable (s.Unsaturated clkId t) :=
  inferInstanceAs (Decidable (if clkId.IsCpu then Fits t.ns
    else Fits (t.ns - (s.ftplStarttime.of clkId).ns) ∧
      Fits (s.userFakedTimeTimespec.ns + (t.ns - (s.ftplStarttime.of clkId).ns))))

theorem Proc.UnitRate.scaled_eq (hu : s.UnitRate) {x : ℤ} (hx : Fits x) : s.scaled x = x := by
  unfold Proc.scaled
  split
  next hset => rw [hu hset, mul_one, trunc_intCast, hx.satNs]
  next => rfl

/-- **At the rate of real time the clock keeps distances.** -/
theorem Proc.TimesStored.fakeTime_sub (h : s.TimesStored) (hu : s.UnitRate) (h₁ : t₁.Normal)
    (h₂ : t₂.Normal) (hs₁ : s.Unsaturated clkId t₁) (hs₂ : s.Unsaturated clkId t₂) :
    (s.fakeTime clkId t₂).ns - (s.fakeTime clkId t₁).ns = t₂.ns - t₁.ns := by
  rw [h.ns_fakeTime h₁, h.ns_fakeTime h₂]
  unfold Proc.Unsaturated at hs₁ hs₂
  split
  next hcpu =>
    rw [if_pos hcpu] at hs₁ hs₂
    rw [hu.scaled_eq hs₁, hu.scaled_eq hs₂]
  next hcpu =>
    rw [if_neg hcpu] at hs₁ hs₂
    rw [hs₁.1.satNs, hs₂.1.satNs, hu.scaled_eq hs₁.1, hu.scaled_eq hs₂.1, hs₁.2.satNs, hs₂.2.satNs]
    ring

end Function

/-! ### The timestamps of files -/

section Files

variable {B : Build} {w w₁ : World}

/-- The variables while the times of a file are converted. -/
def Proc.forStat (s : Proc) : Proc :=
  { s with userPerTickIncSetBackup := s.userPerTickIncSet, userPerTickIncSet := false }

/-- The world while the times of a file are converted: the semaphore is held, if there is
one. -/
def World.forStat (w : World) : World :=
  { w with proc := w.proc.forStat, semHeld := w.proc.sharedSemInitialized }

/-- The world after it. -/
def World.afterStat (w : World) : World :=
  { w with proc := { w.proc with userPerTickIncSetBackup := w.proc.userPerTickIncSet } }

theorem runs_lockForStat {retries : ℕ} (ht : 0 < retries) (hw : Calm w)
    (hfree : w.semHeld = false) :
    (lockForStat retries).Runs seq w fun _ w' => Like w.forStat w' := by
  obtain ⟨retries, rfl⟩ : ∃ n, retries = n + 1 := ⟨retries - 1, by omega⟩
  refine runs_load ?_
  split
  next hshared =>
    refine runs_ftSemLock hfree (hw.lock _) (runs_store ⟨(), _, rfl, ?_⟩)
    exact ⟨rfl, rfl, rfl, hshared.symm, rfl, rfl⟩
  next hshared =>
    have hfalse : w.proc.sharedSemInitialized = false := by simpa using hshared
    refine runs_store ⟨(), _, rfl, ?_⟩
    exact ⟨rfl, rfl, rfl, hfree.trans hfalse.symm, rfl, rfl⟩

theorem runs_unlockForStat (hw : Calm w) (hfree : w.semHeld = false) (h : Like w.forStat w₁) :
    unlockForStat.Runs seq w₁ fun _ w' => Like w.afterStat w' := by
  have hback : w₁.proc.userPerTickIncSetBackup = w.proc.userPerTickIncSet :=
    congrArg Proc.userPerTickIncSetBackup h.settings
  -- the tick modifier gets its value back, and nothing else has changed
  have hset : Proc.settings
      { w₁.proc with userPerTickIncSet := w₁.proc.userPerTickIncSetBackup } =
      w.afterStat.proc.settings := by
    rw [hback]
    exact congrArg (fun s : Proc => { s with userPerTickIncSet := w.proc.userPerTickIncSet })
      h.settings
  refine runs_store (runs_load ?_)
  have hshared : w₁.proc.sharedSemInitialized = w.proc.sharedSemInitialized :=
    h.field Proc.sharedSemInitialized
  split
  next hsem =>
    refine runs_ftSemUnlock (by rw [show w₁.os = w.os from h.os]; exact hw.unlock _) (runs_pure ?_)
    exact ⟨h.os, h.file, h.dontFake, hfree.symm, h.mutexHeld, hset⟩
  next hsem =>
    have hfalse : w.proc.sharedSemInitialized = false := by
      rw [← hshared]
      simpa using hsem
    exact runs_pure
      ⟨h.os, h.file, h.dontFake, h.semHeld.trans (hfalse.trans hfree.symm), h.mutexHeld, hset⟩

theorem Serves.forStat (hs : Serves B w)
    (hsave : (w.proc.sharedSemInitialized && w.proc.outfileOpen) = false) :
    Serves B w.forStat := by
  have hcore : w.proc.forStat.core = w.proc.core := by
    unfold Proc.forStat Proc.core Proc.settings
    rw [hs.noTick]
  refine ⟨hs.faking, ⟨hs.calm.clock, hs.calm.lock, hs.calm.unlock, hs.calm.write⟩, hs.tries,
    hs.startAt, rfl, hs.noLimits, hs.noReplay, hs.mutexFree, fun _ => hsave, ?_⟩
  intro w₁ hos hfile hcore₁
  exact hs.fixed w₁ hos hfile (hcore₁.trans hcore)

theorem runs_fakeTimestamp {t : Timespec} (hs : Serves B w) (ht : w.proc.TimesStored)
    (hn : t.Normal) : (fakeTimestamp B t).Runs seq w fun r w' =>
      r = w.proc.fakeTime .realtime t ∧ Like w w' := by
  refine (runs_fakeClockGettime hs ht hn).bind ?_
  rintro _ w' ⟨rfl, h⟩
  exact runs_pure ⟨rfl, h⟩

/-- A sequence of conversions: the process goes on serving and its clock stays the
same. -/
theorem Serves.next (hs : Serves B w) (ht : w.proc.TimesStored) (h : Like w w₁) :
    Serves B w₁ ∧ w₁.proc.TimesStored ∧ w₁.proc.fakeTime = w.proc.fakeTime :=
  ⟨hs.like h, ht.of_core h.core, h.field Proc.fakeTime⟩

/-- **The times of a file are converted one by one, by the clock.** -/
theorem runs_fakeStatbuf {buf : Stat} (hs : Serves B w) (ht : w.proc.TimesStored)
    (hfree : w.semHeld = false)
    (hsave : (w.proc.sharedSemInitialized && w.proc.outfileOpen) = false)
    (hc : buf.stCtim.Normal) (ha : buf.stAtim.Normal) (hm : buf.stMtim.Normal) :
    (fakeStatbuf B buf).Runs seq w fun r w' =>
      r = ⟨w.proc.fakeTime .realtime buf.stCtim, w.proc.fakeTime .realtime buf.stAtim,
        w.proc.fakeTime .realtime buf.stMtim⟩ ∧ Like w.afterStat w' := by
  have hs₀ := hs.forStat hsave
  have ht₀ : w.forStat.proc.TimesStored := ⟨ht.base, ht.start⟩
  refine (runs_lockForStat hs.tries hs.calm hfree).bind fun _ w₁ h₁ => ?_
  obtain ⟨hs₁, ht₁, hf₁⟩ := hs₀.next ht₀ h₁
  refine (runs_fakeTimestamp hs₁ ht₁ hc).bind ?_
  rintro _ w₂ ⟨rfl, h₂⟩
  obtain ⟨hs₂, ht₂, hf₂⟩ := hs₁.next ht₁ h₂
  refine (runs_fakeTimestamp hs₂ ht₂ ha).bind ?_
  rintro _ w₃ ⟨rfl, h₃⟩
  obtain ⟨hs₃, ht₃, hf₃⟩ := hs₂.next ht₂ h₃
  refine (runs_fakeTimestamp hs₃ ht₃ hm).bind ?_
  rintro _ w₄ ⟨rfl, h₄⟩
  refine (runs_unlockForStat hs.calm hfree (((h₁.trans h₂).trans h₃).trans h₄)).bind
    fun _ w₅ h₅ => runs_pure ⟨?_, h₅⟩
  rw [hf₃, hf₂, hf₁]
  rfl

theorem runs_fakeStatxTimestamp {t : Option Timespec} (hs : Serves B w) (ht : w.proc.TimesStored)
    (hn : ∀ v, t = some v → v.Normal) : (fakeStatxTimestamp B t).Runs seq w fun r w' =>
      r = t.map (w.proc.fakeTime .realtime) ∧ Like w w' := by
  cases t with
  | none => exact runs_pure ⟨rfl, .refl w⟩
  | some v =>
    refine (runs_fakeTimestamp hs ht (hn v rfl)).bind ?_
    rintro _ w' ⟨rfl, h⟩
    exact runs_pure ⟨rfl, h⟩

theorem runs_fakeStatxbuf {buf : Statx} (hs : Serves B w) (ht : w.proc.TimesStored)
    (hfree : w.semHeld = false)
    (hsave : (w.proc.sharedSemInitialized && w.proc.outfileOpen) = false)
    (ha : ∀ v, buf.stxAtime = some v → v.Normal) (hc : ∀ v, buf.stxCtime = some v → v.Normal)
    (hm : ∀ v, buf.stxMtime = some v → v.Normal) (hb : ∀ v, buf.stxBtime = some v → v.Normal) :
    (fakeStatxbuf B buf).Runs seq w fun r w' =>
      r = ⟨buf.stxAtime.map (w.proc.fakeTime .realtime),
        buf.stxCtime.map (w.proc.fakeTime .realtime), buf.stxMtime.map (w.proc.fakeTime .realtime),
        buf.stxBtime.map (w.proc.fakeTime .realtime)⟩ ∧ Like w.afterStat w' := by
  have hs₀ := hs.forStat hsave
  have ht₀ : w.forStat.proc.TimesStored := ⟨ht.base, ht.start⟩
  refine (runs_lockForStat hs.tries hs.calm hfree).bind fun _ w₁ h₁ => ?_
  obtain ⟨hs₁, ht₁, hf₁⟩ := hs₀.next ht₀ h₁
  refine (runs_fakeStatxTimestamp hs₁ ht₁ ha).bind ?_
  rintro _ w₂ ⟨rfl, h₂⟩
  obtain ⟨hs₂, ht₂, hf₂⟩ := hs₁.next ht₁ h₂
  refine (runs_fakeStatxTimestamp hs₂ ht₂ hc).bind ?_
  rintro _ w₃ ⟨rfl, h₃⟩
  obtain ⟨hs₃, ht₃, hf₃⟩ := hs₂.next ht₂ h₃
  refine (runs_fakeStatxTimestamp hs₃ ht₃ hm).bind ?_
  rintro _ w₄ ⟨rfl, h₄⟩
  obtain ⟨hs₄, ht₄, hf₄⟩ := hs₃.next ht₃ h₄
  refine (runs_fakeStatxTimestamp hs₄ ht₄ hb).bind ?_
  rintro _ w₅ ⟨rfl, h₅⟩
  refine (runs_unlockForStat hs.calm hfree ((((h₁.trans h₂).trans h₃).trans h₄).trans h₅)).bind
    fun _ w₆ h₆ => runs_pure ⟨?_, h₆⟩
  rw [hf₄, hf₃, hf₂, hf₁]
  rfl

end Files

/-! ### Order -/

section Order

variable {B : Build} {w : World}

/-- **The faked clock keeps the order of real times, of clocks and of files.** A process
that serves a start-at clock answers every query, now and later, by one function of the
real time, and converts the timestamps of files by the same function (unless it would
have to save them to a file under a lock it holds already). That function is monotone on
normalized times, and at the rate of real time it keeps distances wherever nothing
saturates. -/
theorem fake_clock_keeps_order (hs : Serves B w) (ht : w.proc.TimesStored)
    (hr : w.proc.RatePositive) :
    (∀ w', Like w w' → ∀ clkId t, t.Normal → (fakeClockGettime B clkId t).Runs seq w' fun r w'' =>
      r = (0, w.proc.fakeTime clkId t) ∧ Like w' w'') ∧
    (w.semHeld = false → (w.proc.sharedSemInitialized && w.proc.outfileOpen) = false →
      ∀ w', Like w w' →
        (∀ buf : Stat, buf.stCtim.Normal → buf.stAtim.Normal → buf.stMtim.Normal →
          (fakeStatbuf B buf).Runs seq w' fun r _ =>
            r = ⟨w.proc.fakeTime .realtime buf.stCtim, w.proc.fakeTime .realtime buf.stAtim,
              w.proc.fakeTime .realtime buf.stMtim⟩) ∧
        ∀ buf : Statx, (∀ v, buf.stxAtime = some v → v.Normal) →
          (∀ v, buf.stxCtime = some v → v.Normal) → (∀ v, buf.stxMtime = some v → v.Normal) →
          (∀ v, buf.stxBtime = some v → v.Normal) →
          (fakeStatxbuf B buf).Runs seq w' fun r _ =>
            r = ⟨buf.stxAtime.map (w.proc.fakeTime .realtime),
              buf.stxCtime.map (w.proc.fakeTime .realtime),
              buf.stxMtime.map (w.proc.fakeTime .realtime),
              buf.stxBtime.map (w.proc.fakeTime .realtime)⟩) ∧
    (∀ clkId t₁ t₂, t₁.Normal → t₂.Normal → t₁ ≤ t₂ →
      w.proc.fakeTime clkId t₁ ≤ w.proc.fakeTime clkId t₂) ∧
    (w.proc.UnitRate → ∀ clkId t₁ t₂, t₁.Normal → t₂.Normal → w.proc.Unsaturated clkId t₁ →
      w.proc.Unsaturated clkId t₂ →
      (w.proc.fakeTime clkId t₂).ns - (w.proc.fakeTime clkId t₁).ns = t₂.ns - t₁.ns) := by
  refine ⟨fun w' hw clkId t hn => ?_, fun hfree hsave w' hw => ⟨?_, ?_⟩, ?_, ?_⟩
  · -- a query leaves the settings as they are, so every later one has the same clock
    obtain ⟨hs', ht', hf⟩ := hs.next ht hw
    rw [← hf]
    exact runs_fakeClockGettime hs' ht' hn
  · intro buf hc ha hm
    obtain ⟨hs', ht', hf⟩ := hs.next ht hw
    rw [← hf]
    refine (runs_fakeStatbuf hs' ht' (hw.semHeld.trans hfree) ?_ hc ha hm).mono fun _ _ h => h.1
    rw [hw.field Proc.sharedSemInitialized, hw.field Proc.outfileOpen]
    exact hsave
  · intro buf ha hc hm hb
    obtain ⟨hs', ht', hf⟩ := hs.next ht hw
    rw [← hf]
    refine (runs_fakeStatxbuf hs' ht' (hw.semHeld.trans hfree) ?_ ha hc hm hb).mono fun _ _ h => h.1
    rw [hw.field Proc.sharedSemInitialized, hw.field Proc.outfileOpen]
    exact hsave
  · exact fun clkId t₁ t₂ h₁ h₂ hle => ht.fakeTime_mono hr h₁ h₂ hle
  · exact fun hu clkId t₁ t₂ h₁ h₂ hs₁ hs₂ => ht.fakeTime_sub hu h₁ h₂ hs₁ hs₂

/-- Two readings of a clock at double speed, the first one before its start. -/
theorem fake_clock_keeps_order_around_start :
    (fakeClockGettime plainBuild .realtime ⟨40, 0⟩).Runs seq
        (calmWorld doubleSpeedEnv (fun _ _ => ⟨60, 0⟩) ⟨0, 0⟩ doubleSpeed)
        (fun r _ => r = (0, doubleSpeed.fakeTime .realtime ⟨40, 0⟩)) ∧
      doubleSpeed.fakeTime .realtime ⟨40, 0⟩ ≤ doubleSpeed.fakeTime .realtime ⟨60, 500⟩ := by
  obtain ⟨hquery, -, hmono, -⟩ := fake_clock_keeps_order (doubleSpeed_serves fun _ _ => ⟨60, 0⟩)
    doubleSpeed_timesStored fun _ => show (0 : ℚ) < 2 by norm_num
  exact ⟨(hquery _ (.refl _) _ _ (by decide)).mono fun _ _ h => h.1,
    hmono _ _ _ (by decide) (by decide) (by decide)⟩

end Order

end LibFaketime
