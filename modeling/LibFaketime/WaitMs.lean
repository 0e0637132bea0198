import LibFaketime.Calls
import LibFaketime.ExcludedWaits

/-!
# A fixed wait

With `FAKETIME_WAIT_MS` set, `pthread_cond_timedwait` does not convert the deadline it is given: it
reads the clock of the condition again and waits for so many milliseconds. The setting is parsed as
a `long` that is not negative, but it is an `int` that holds it. From `INT_MAX` on the deadline is
another one therefore, in the past for half of the values, unless the reading is so close to the
end of time that the other deadline saturates as well
(`LibFaketime.wait_ms_is_honoured_iff`).
-/

namespace LibFaketime

open Effects Effects.Prog Saturate

section Numbers

variable {a v : ℤ}

/-- The `int` is the `long` if it can be, and else less by a multiple of `2 ^ 32`. -/
theorem toInt32_eq_or_lt (hv : 0 ≤ v) :
    toInt32 v = v ∧ v < 2 ^ 31 ∨ toInt32 v < v ∧ 2 ^ 31 ≤ v := by
  unfold toInt32
  omega

/-- Two sums of which one saturates are the same if both do. -/
theorem satNs_add_toInt32_iff (ha : Fits a) (hv : 0 ≤ v) :
    satNs (a + toInt32 v * 1000000) = satNs (a + v * 1000000) ↔
      v < 2 ^ 31 ∨ nsMax ≤ a + toInt32 v * 1000000 := by
  obtain ⟨hlo, hhi⟩ := ha
  have hlimits : nsMin < nsMax := by decide
  rcases toInt32_eq_or_lt hv with ⟨heq, hlt⟩ | ⟨hless, hge⟩
  · rw [heq]
    exact iff_of_true rfl (Or.inl hlt)
  · constructor
    · intro h
      by_contra hno
      have hbelow : a + toInt32 v * 1000000 < nsMax := by omega
      have hstrict : satNs (a + toInt32 v * 1000000) < satNs (a + v * 1000000) := by
        rw [satNs, satNs, clamp, clamp, min_eq_right hbelow.le]
        exact max_lt (lt_max_of_lt_right (lt_min (by omega) (by omega)))
          (lt_max_of_lt_right (lt_min hbelow (by omega)))
      exact hstrict.ne h
    · intro h
      have hsat : nsMax ≤ a + toInt32 v * 1000000 := h.resolve_left (by omega)
      rw [satNs, satNs, clamp, clamp, min_eq_left hsat, min_eq_left (by omega)]

end Numbers

section Wait

variable {B : Build} {w w₁ : World} {env : EnvVar → Option CStr} {clock : ℕ → ClockId → Timespec}
  {text : CStr} {v : ℤ} {c : ClockId} {fake : ℤ × Timespec}

/-- The last reading of the clock of the condition before the deadline is handed over, where
`fake_clock_gettime` has returned in the state `w₁`. The environment is asked first; a monotonic
clock that is not faked is read once more after that. -/
def World.waitReading (w₁ : World) (clock : ℕ → ClockId → Timespec) (c : ClockId) : Timespec :=
  if c = .monotonic ∧ w₁.proc.fakeMonotonicClock = false then clock (w₁.now + 2) c
  else clock (w₁.now + 1) c

/-- With the fix in force, deadlines are counted from the real clock. -/
theorem condAnchor_eq_waitReading (hfix : forcesFix env = true) (faketime : Timespec) :
    w₁.proc.condAnchor env clock (w₁.now + 2) c (clock (w₁.now + 1) c) faketime =
      w₁.waitReading clock c := by
  unfold Proc.condAnchor World.waitReading
  by_cases hc : c = .monotonic
  · rw [if_pos hc]
    cases hfake : w₁.proc.fakeMonotonicClock with
    | false => rw [if_pos (show (!false) = true from rfl), if_pos ⟨hc, rfl⟩, hc]
    | true => rw [if_neg (by simp), if_pos hfix, if_neg (by simp)]
  · rw [if_neg hc, if_neg fun h => hc h.1]

/-- **The deadline of a fixed wait**, as it is handed over. -/
theorem hands_waitMs (abstime : Timespec) (henv : w.HasEnv env) (hclock : w.HasClock clock)
    (htext : env .faketimeWaitMs = some text) (hv : parseLongSetting text = some v) (hpos : 0 ≤ v)
    (hfix : forcesFix env = true)
    (hquery : (fakeClockGettime B c (clock w.now c)).run seq w.tick = .ok (fake, w₁)) :
    Hands (pthreadCondTimedwaitCommon B c abstime) w
      (.realPthreadCondTimedwait
        (some (timespecadd (w₁.waitReading clock c) (waitMsTimespec v)))) := by
  have hprompt := prompt_fakeClockGettime (B := B) (trivial : True) c (clock w.now c)
  have hos : w₁.os = w.os := (once_of_run (routine_of_prompt hprompt) hquery).2.2
  have hsilent : (fakeClockGettime B c (clock w.now c)).run seq w.tick.silent =
      .ok (fake, w₁.silent) := by
    rw [run_silent hprompt, hquery]
    rfl
  have henv₁ : w₁.silent.HasEnv env := by
    intro n x
    rw [← henv n x, ← hos]
    rfl
  have hclock₁ : w₁.silent.HasClock clock := by
    intro n x
    rw [← hclock n x, ← hos]
    rfl
  -- the first reading, `fake_clock_gettime`, the wait and the deadline, one after the other
  have hread : (realClockGettime c).Runs seq w.silent fun r w' =>
      r = some (clock w.now c) ∧ w' = w.tick.silent :=
    runs_perform (I := sys) (World.ask_of_some (f := fun _ w => w) (hclock w.now c))
  unfold pthreadCondTimedwaitCommon
  refine hread.halts_bind ?_
  rintro _ _ ⟨rfl, rfl⟩
  refine Runs.halts_bind (Q := fun r w' => r = fake ∧ w' = w₁.silent) ⟨_, _, hsilent, rfl, rfl⟩ ?_
  rintro _ _ ⟨rfl, rfl⟩
  refine (runs_condWait_ms abstime _ _ henv₁ hclock₁ htext hv (not_lt.mpr hpos)).halts_bind ?_
  rintro _ w₂ ⟨⟨hos₂, hproc₂⟩, rfl, hnow₂⟩
  have henv₂ : w₂.HasEnv env := by
    rw [World.HasEnv, hos₂]
    exact henv₁
  have hclock₂ : w₂.HasClock clock := by
    rw [World.HasClock, hos₂]
    exact hclock₁
  refine (runs_condDeadline_parts _ _ _ henv₂ hclock₂).halts_bind ?_
  rintro _ w₃ ⟨rfl, hos₃⟩
  rw [hproc₂, hnow₂]
  dsimp only
  rw [show w₁.silent.proc = w₁.proc from rfl, show w₁.silent.now = w₁.now from rfl,
    condAnchor_eq_waitReading hfix]
  refine halts_ask rfl ?_
  rw [hos₃, hos₂]
  rfl

/-- **A fixed wait is as long as it is set if the setting is an `int`**, or if the sum saturates
even so. In every state and for every setting that is accepted, every clock and every reading: the
deadline that is handed over is the last reading of the clock of the condition and the milliseconds
of `FAKETIME_WAIT_MS`, saturated, under exactly that condition. -/
theorem wait_ms_is_honoured_iff (abstime : Timespec) (henv : w.HasEnv env)
    (hclock : w.HasClock clock)
    (hn : ∀ n c, (clock n c).Normal) (hfit : ∀ n c, Fits (clock n c).ns)
    (htext : env .faketimeWaitMs = some text) (hv : parseLongSetting text = some v) (hpos : 0 ≤ v)
    (hfix : forcesFix env = true)
    (hquery : (fakeClockGettime B c (clock w.now c)).run seq w.tick = .ok (fake, w₁)) :
    (∃ D, Hands (pthreadCondTimedwaitCommon B c abstime) w (.realPthreadCondTimedwait (some D)) ∧
      D.ns = satNs ((w₁.waitReading clock c).ns + v * 1000000)) ↔
      v < 2 ^ 31 ∨ nsMax ≤ (w₁.waitReading clock c).ns + toInt32 v * 1000000 := by
  have hreading : (w₁.waitReading clock c).Normal ∧ Fits (w₁.waitReading clock c).ns := by
    unfold World.waitReading
    split
    · exact ⟨hn _ _, hfit _ _⟩
    · exact ⟨hn _ _, hfit _ _⟩
  have hhands := hands_waitMs abstime henv hclock htext hv hpos hfix hquery
  rw [← satNs_add_toInt32_iff hreading.2 hpos, ← ns_timespecadd_waitMs hreading.1]
  constructor
  · rintro ⟨D, hD, hns⟩
    have heq := hD.unique hhands
    simp only [Op.realPthreadCondTimedwait.injEq, Option.some.injEq] at heq
    rw [← heq, hns]
  · exact fun h => ⟨_, hhands, h⟩

end Wait

/-! ### Two settings -/

/-- The environment of `FAKETIME='+50 x2'` with `FAKETIME_WAIT_MS`. -/
def waitMsEnv (text : CStr) : EnvVar → Option CStr
  | .faketime => some "+50 x2".toList
  | .faketimeWaitMs => some text
  | _ => none

/-- A process with these settings. -/
def waitMsWorld (text : CStr) : World :=
  calmWorld (waitMsEnv text) (fun _ _ => ⟨60, 0⟩) ⟨0, 0⟩ doubleSpeed

theorem runs_query_waitMsWorld (text : CStr) : ∃ fake w₁,
    (fakeClockGettime plainBuild .realtime ⟨60, 0⟩).run seq (waitMsWorld text).tick =
      .ok (fake, w₁) := by
  have hserves : Serves plainBuild (waitMsWorld text) :=
    serves_calmWorld _ rfl rfl rfl rfl rfl rfl rfl rfl (by decide) rfl
  have htick : Like (waitMsWorld text) (waitMsWorld text).tick := ⟨rfl, rfl, rfl, rfl, rfl, rfl⟩
  have hquery :
      (fakeClockGettime plainBuild .realtime ⟨60, 0⟩).Runs seq (waitMsWorld text).tick _ :=
    runs_fakeClockGettime (hserves.like htick) (doubleSpeed_timesStored.of_core htick.core)
      (by decide)
  obtain ⟨fake, w₁, hrun, -⟩ := hquery
  exact ⟨fake, w₁, hrun⟩

/-- Every reading of a clock that stands still is the same one. -/
theorem waitReading_const (w₁ : World) (t : Timespec) (c : ClockId) :
    w₁.waitReading (fun _ _ => t) c = t := by
  unfold World.waitReading
  split
  · rfl
  · rfl

/-- A quarter of a second. -/
theorem wait_ms_is_honoured_quarter :
    ∃ D, Hands (pthreadCondTimedwaitCommon plainBuild .realtime ⟨200, 0⟩)
        (waitMsWorld "250".toList) (.realPthreadCondTimedwait (some D)) ∧
      D.ns = satNs ((⟨60, 0⟩ : Timespec).ns + 250 * 1000000) := by
  obtain ⟨fake, w₁, hrun⟩ := runs_query_waitMsWorld "250".toList
  have henv : (waitMsWorld "250".toList).HasEnv (waitMsEnv "250".toList) := fun _ _ => rfl
  have hclock : (waitMsWorld "250".toList).HasClock fun _ _ => ⟨60, 0⟩ := fun _ _ => rfl
  have hv : parseLongSetting "250".toList = some 250 := by decide
  have hiff := wait_ms_is_honoured_iff ⟨200, 0⟩ henv hclock (fun _ _ => by decide)
    (fun _ _ => by decide) rfl hv (by decide) rfl hrun
  rw [waitReading_const] at hiff
  exact hiff.mpr (Or.inl (by decide))

/-- A setting of `2 ^ 31` milliseconds ends in the past. -/
theorem wait_ms_wraps :
    parseLongSetting "2147483648".toList = some (2 ^ 31) ∧
    Hands (pthreadCondTimedwaitCommon plainBuild .realtime ⟨200, 0⟩)
      (waitMsWorld "2147483648".toList)
      (.realPthreadCondTimedwait (some ⟨-2147424, 352000000⟩)) ∧
    (⟨-2147424, 352000000⟩ : Timespec).ns ≠
      satNs ((⟨60, 0⟩ : Timespec).ns + 2 ^ 31 * 1000000) := by
  have hv : parseLongSetting "2147483648".toList = some (2 ^ 31) := by decide
  obtain ⟨fake, w₁, hrun⟩ := runs_query_waitMsWorld "2147483648".toList
  have henv : (waitMsWorld "2147483648".toList).HasEnv (waitMsEnv "2147483648".toList) :=
    fun _ _ => rfl
  have hclock : (waitMsWorld "2147483648".toList).HasClock fun _ _ => ⟨60, 0⟩ := fun _ _ => rfl
  have hhands := hands_waitMs (c := .realtime) ⟨200, 0⟩ henv hclock rfl hv (by decide)
    rfl hrun
  have hsum : timespecadd ⟨60, 0⟩ (waitMsTimespec (2 ^ 31)) = ⟨-2147424, 352000000⟩ := by decide
  rw [waitReading_const, hsum] at hhands
  exact ⟨hv, hhands, by decide⟩

end LibFaketime
