import LibFaketime.SyscallClock

/-!
# The time that is left of a wait

A wait that ends early leaves the time that was not waited, which is real time and has to be
converted back before the caller may see it. The library converts it on other branches than
those on which the kernel leaves it:

* `nanosleep`, `sleep` and the raw system call return early when they are interrupted, and
  convert the caller's own buffer, which nothing has been written to, when they are not; only
  `clock_nanosleep` has its test of the result right, since it reports errors by value
  (`LibFaketime.unslept_reported_iff`);
* `select` converts back what was left of a timeout it has not converted, and without a rate it
  keeps what was left to itself (`LibFaketime.select_reports_timeLeft_iff`).
-/

namespace LibFaketime

open Effects Effects.Prog Saturate

/-! ### The sleeping functions, with the buffer of the caller -/

/-- The request of `nanosleep`. -/
def nanosleepRequest (req : Timespec) : Sys Timespec := do
  let s ← load
  if s.userRateSet && !(← dontFake) then pure (timespecmul req (1 / s.userRate))
  else pure req

/-- What is in `*rem` is converted, unless `rem` is null or what is there is zero. -/
def fakeReturned : Option Timespec → Sys (Option Timespec)
  | none => pure none
  | some rem =>
    if rem.tvSec ≠ 0 ∨ rem.tvNsec ≠ 0 then do
      let s ← load
      if s.userRateSet && !(← dontFake) then pure (some (timespecmul rem s.userRate))
      else pure (some rem)
    else pure (some rem)

/-- `nanosleep` on a request that is not null, `rem` being what the buffer of the caller holds:
its result, and what the buffer holds afterwards. -/
def nanosleep (req : Timespec) (rem : Option Timespec) : Sys (ℤ × Option Timespec) := do
  let realReq ← nanosleepRequest req
  let (result, written) ← realNanosleep realReq
  let rem := rem.map written.getD
  if result = -1 then pure (result, rem)
  else do
    let rem ← fakeReturned rem
    pure (result, rem)

/-- `clock_nanosleep`, with the buffer of the caller. -/
def clockNanosleepInto (clockId : ClockId) (abstime : Bool) (req : Timespec)
    (rem : Option Timespec) : Sys (ℤ × Option Timespec) := do
  let realReq ← realRequest clockId abstime req
  let (result, written) ← realClockNanosleep clockId abstime realReq
  let rem := rem.map written.getD
  if result = -1 then pure (result, rem)
  else do
    let rem ← fakeReturned rem
    pure (result, rem)

/-- `syscall(__NR_clock_nanosleep, clk_id, flags, req, rem)`, with the buffer of the caller. -/
def syscallNanosleepInto (clkId : ClockId) (abstime : Bool) (req : Timespec)
    (rem : Option Timespec) : Sys (ℤ × Option Timespec) := do
  if ← interceptsSyscall then
    let realReq ← realRequest clkId abstime req
    let (rc, written) ← syscallClockNanosleep clkId abstime realReq
    let rem := rem.map written.getD
    if rc ≠ 0 then pure (rc, rem)
    else do
      let rem ← fakeReturned rem
      pure (rc, rem)
  else do
    let (rc, written) ← syscallClockNanosleep clkId abstime req
    pure (rc, rem.map written.getD)

/-- The end of the functions without the buffer. -/
def returnWritten (result : ℤ) : Option Timespec → Sys (ℤ × Option Timespec)
  | none => pure (result, none)
  | some rem => do
    let s ← load
    if (rem.tvSec ≠ 0 ∨ rem.tvNsec ≠ 0) ∧ s.userRateSet = true ∧ !(← dontFake) then
      pure (result, some (timespecmul rem s.userRate))
    else pure (result, some rem)

/-- What is returned with a buffer that holds zero, given what is returned without one. -/
def overZero (r : (ℤ × Option Timespec) × World) : (ℤ × Option Timespec) × World :=
  ((r.1.1, some (r.1.2.getD ⟨0, 0⟩)), r.2)

theorem run_fakeReturned (rem : Timespec) (w : World) :
    (fakeReturned (some rem)).run seq w = .ok (if (rem.tvSec ≠ 0 ∨ rem.tvNsec ≠ 0) ∧
      w.proc.userRateSet = true ∧ !w.dontFake then some (timespecmul rem w.proc.userRate)
      else some rem, w) := by
  dsimp only [fakeReturned]
  by_cases hz : rem.tvSec ≠ 0 ∨ rem.tvNsec ≠ 0
  · rw [if_pos hz, run_load, run_dontFake]
    cases hset : w.proc.userRateSet <;> cases hfake : w.dontFake <;> simp [hz]
  · rw [if_neg hz, if_neg fun h => hz h.1]
    rfl

theorem run_fakeReturned_overZero (result : ℤ) (written : Option Timespec) (w : World) :
    (fakeReturned (some (written.getD ⟨0, 0⟩)) >>= fun rem => pure (result, rem)).run seq w =
      ((returnWritten result written).run seq w).map overZero := by
  cases written with
  | none => rfl
  | some rem =>
    rw [run_bind, Option.getD_some, run_fakeReturned]
    dsimp only [Except.bind, returnWritten]
    rw [run_load, run_dontFake]
    split <;> rfl

/-- **The functions without the buffer are the ones with a buffer that holds zero.** -/
theorem run_clockNanosleepInto_zero (c : ClockId) (abstime : Bool) (req : Timespec) (w : World) :
    (clockNanosleepInto c abstime req (some ⟨0, 0⟩)).run seq w =
      ((clockNanosleep c abstime req).run seq w).map overZero := by
  unfold clockNanosleepInto clockNanosleep
  rw [run_bind, run_bind]
  cases (realRequest c abstime req).run seq w with
  | error x => rfl
  | ok r =>
    change (realClockNanosleep c abstime r.1 >>= _).run seq r.2 =
      ((realClockNanosleep c abstime r.1 >>= _).run seq r.2).map _
    rw [run_bind, run_bind]
    cases (realClockNanosleep c abstime r.1).run seq r.2 with
    | error x => rfl
    | ok r =>
      obtain ⟨⟨result, written⟩, w₁⟩ := r
      by_cases hfail : result = -1
      · rw [hfail]
        rfl
      · dsimp only [Except.bind]
        rw [if_neg hfail, if_neg hfail]
        exact run_fakeReturned_overZero result written w₁

theorem run_syscallNanosleepInto_zero (c : ClockId) (abstime : Bool) (req : Timespec) (w : World) :
    (syscallNanosleepInto c abstime req (some ⟨0, 0⟩)).run seq w =
      ((syscallNanosleep c abstime req).run seq w).map overZero := by
  unfold syscallNanosleepInto syscallNanosleep
  rw [run_bind, run_bind]
  cases interceptsSyscall.run seq w with
  | error x => rfl
  | ok r =>
    obtain ⟨b, w₀⟩ := r
    cases b with
    | false =>
      change (syscallClockNanosleep c abstime req >>= _).run seq w₀ =
        ((syscallClockNanosleep c abstime req).run seq w₀).map _
      rw [run_bind]
      cases (syscallClockNanosleep c abstime req).run seq w₀ with
      | error x => rfl
      | ok r => rfl
    | true =>
      change (realRequest c abstime req >>= _).run seq w₀ =
        ((realRequest c abstime req >>= _).run seq w₀).map _
      rw [run_bind, run_bind]
      cases (realRequest c abstime req).run seq w₀ with
      | error x => rfl
      | ok r =>
        change (syscallClockNanosleep c abstime r.1 >>= _).run seq r.2 =
          ((syscallClockNanosleep c abstime r.1 >>= _).run seq r.2).map _
        rw [run_bind, run_bind]
        cases (syscallClockNanosleep c abstime r.1).run seq r.2 with
        | error x => rfl
        | ok r =>
          obtain ⟨⟨rc, written⟩, w₁⟩ := r
          by_cases hfail : rc = 0
          · rw [hfail]
            exact run_fakeReturned_overZero 0 written w₁
          · dsimp only [Except.bind]
            rw [if_pos hfail, if_pos hfail]
            rfl

/-- The conversion of a `time_t` to the `unsigned int` that `sleep` returns. -/
def toUInt32 (n : ℤ) : ℕ := (n % 2 ^ 32).toNat

/-- The whole seconds of what the variable of `sleep` holds, converted. -/
def sleepResult (rem : Timespec) : Sys ℕ :=
  if rem.tvSec ≠ 0 ∨ rem.tvNsec ≠ 0 then do
    let s ← load
    pure (toUInt32 (timespecmul rem s.userRate).tvSec)
  else pure (toUInt32 rem.tvSec)

/-- `sleep`. The remainder is a variable of its own, which is looked at after a sleep that
was not interrupted, too. -/
def sleep (seconds : ℕ) : Sys ℕ := do
  let s ← load
  if s.userRateSet && !(← dontFake) then
    let (result, written) ← realNanosleep (timespecmul ⟨seconds, 0⟩ (1 / s.userRate))
    if result = -1 then pure 0
    else
      match written with
      | some rem => sleepResult rem
      | none => do
        let rem ← uninitialized
        sleepResult rem
  else realSleep seconds

/-! ### What the kernel does -/

/-- How a sleep ends. -/
inductive SleepEnd where
  /-- All of the time has been slept, and nothing has been written to the buffer. -/
  | completed
  /-- The sleep was interrupted, `q` being the real time that was left. -/
  | interrupted (q : Timespec)

/-- `EINTR`. -/
def eintr : ℤ := 4

/-- The answer of the kernel, which reports an interruption as `failure`. -/
def SleepEnd.answer (failure : ℤ) : SleepEnd → ℤ × Option Timespec
  | .completed => (0, none)
  | .interrupted q => (failure, some q)

/-- A world in which sleeps end so. `clock_nanosleep` reports errors by value. -/
def World.sleeping (w : World) (e : SleepEnd) : World :=
  { w with os := fun n o => match o with
      | .realNanosleep _ => some (e.answer (-1))
      | .syscallClockNanosleep _ _ _ => some (e.answer (-1))
      | .realClockNanosleep _ _ _ => some (e.answer eintr)
      | o => w.os n o }

/-! ### What should be reported -/

/-- What the buffer of the caller should hold after a sleep, at the rate `r`. -/
def SleepEnd.reported (r : ℚ) (rem : Option Timespec) : SleepEnd → Option Timespec
  | .completed => rem
  | .interrupted q => rem.map fun _ => .ofNs (trunc ((q.ns : ℚ) * r))

/-- The whole seconds `sleep` should report. -/
def SleepEnd.reportedSeconds (r : ℚ) : SleepEnd → ℕ
  | .completed => 0
  | .interrupted q => (trunc ((q.ns : ℚ) * r) / 1000000000).toNat

/-- The relative sleeps. -/
inductive SleepCall where
  | nanosleep (req : Timespec) (rem : Option Timespec)
  | clockNanosleep (c : ClockId) (req : Timespec) (rem : Option Timespec)
  | syscall (c : ClockId) (req : Timespec) (rem : Option Timespec)
  | sleep (seconds : ℕ)

/-- **The call reports the time that was not slept**, in fake time. -/
def SleepCall.ReportsUnslept (w : World) (e : SleepEnd) : SleepCall → Prop
  | .nanosleep req rem => (LibFaketime.nanosleep req rem).Runs seq (w.sleeping e) fun r _ =>
      r.2 = e.reported w.proc.userRate rem
  | .clockNanosleep c req rem =>
    (clockNanosleepInto c false req rem).Runs seq (w.sleeping e) fun r _ =>
      r.2 = e.reported w.proc.userRate rem
  | .syscall c req rem =>
    (syscallNanosleepInto c false req rem).Runs seq (w.sleeping e) fun r _ =>
      r.2 = e.reported w.proc.userRate rem
  | .sleep seconds => (LibFaketime.sleep seconds).Runs seq (w.sleeping e) fun r _ =>
      r = e.reportedSeconds w.proc.userRate

/-! ### Times the rate leaves alone -/

/-- The length `x` is the same at the rate `r`, truncated. -/
def UnchangedAt (r : ℚ) (x : ℤ) : Prop := x = 0 ∨ 1 ≤ r ∧ (r - 1) * |x| < 1

/-- The length `x` is the same at the rate `r`, truncated and saturated. -/
def KeptBy (r : ℚ) (x : ℤ) : Prop := UnchangedAt r x ∨ 1 ≤ r ∧ (x = nsMin ∨ x = nsMax)

theorem trunc_mul_eq_self_iff {x : ℤ} {r : ℚ} (hr : 0 < r) :
    trunc ((x : ℚ) * r) = x ↔ UnchangedAt r x := by
  unfold UnchangedAt
  rcases eq_or_ne x 0 with rfl | hx
  · simp [trunc]
  · rw [trunc_mul_eq_iff hr hx, or_iff_right hx]

theorem satNs_eq_iff_of_lt {x y : ℤ} (hlo : nsMin < x) (hhi : x < nsMax) :
    satNs y = x ↔ y = x := by
  unfold satNs clamp
  omega

theorem satNs_eq_nsMax_iff {y : ℤ} : satNs y = nsMax ↔ nsMax ≤ y := by
  have hle : nsMin < nsMax := by decide
  unfold satNs clamp
  omega

theorem satNs_eq_nsMin_iff {y : ℤ} : satNs y = nsMin ↔ y ≤ nsMin := by
  have hle : nsMin < nsMax := by decide
  unfold satNs clamp
  omega

/-- Only a rate of at least `1` keeps a length from getting shorter. -/
theorem le_trunc_mul_iff {x : ℤ} {r : ℚ} (hr : 0 < r) (hx : 0 < x) :
    x ≤ trunc ((x : ℚ) * r) ↔ 1 ≤ r := by
  have hx' : (0 : ℚ) < x := by exact_mod_cast hx
  rw [le_trunc_iff_of_nonneg (mul_nonneg hx'.le hr.le), le_mul_iff_one_le_right hx']

theorem satNs_trunc_eq_self_iff {x : ℤ} {r : ℚ} (hr : 0 < r) (hx : Fits x) :
    satNs (trunc ((x : ℚ) * r)) = x ↔ KeptBy r x := by
  have hmin : nsMin < 0 := by decide
  have hmax : 0 < nsMax := by decide
  -- at the ends of the range a length may grow without being seen to
  have hends : UnchangedAt r x → x = nsMin ∨ x = nsMax → 1 ≤ r := by
    rintro (rfl | h) hx
    · omega
    · exact h.1
  unfold KeptBy
  rcases eq_or_ne x nsMax with rfl | h1
  · rw [satNs_eq_nsMax_iff, le_trunc_mul_iff hr hmax]
    exact ⟨fun h => Or.inr ⟨h, Or.inr rfl⟩, fun h =>
      h.elim (fun h => hends h (Or.inr rfl)) And.left⟩
  rcases eq_or_ne x nsMin with rfl | h2
  · have hneg : ((nsMin : ℤ) : ℚ) * r = -(((-nsMin : ℤ) : ℚ) * r) := by
      push_cast
      ring
    rw [satNs_eq_nsMin_iff, hneg, trunc_neg, neg_le, le_trunc_mul_iff hr (by omega)]
    exact ⟨fun h => Or.inr ⟨h, Or.inl rfl⟩, fun h =>
      h.elim (fun h => hends h (Or.inl rfl)) And.left⟩
  · obtain ⟨hlo, hhi⟩ := hx
    rw [satNs_eq_iff_of_lt (lt_of_le_of_ne hlo h2.symm) (lt_of_le_of_ne hhi h1),
      trunc_mul_eq_self_iff hr]
    simp [h1, h2]

/-- What the conversion of a remainder makes of `t`. -/
def Timespec.fakeLeft (r : ℚ) (t : Timespec) : Timespec :=
  if t.tvSec ≠ 0 ∨ t.tvNsec ≠ 0 then timespecmul t r else t

/-- The times that the conversion leaves alone. -/
def Timespec.KeptAt (r : ℚ) (t : Timespec) : Prop :=
  t = ⟨0, 0⟩ ∨ t.Normal ∧ KeptBy r t.ns

theorem Timespec.Normal.fits {t : Timespec} (h : t.Normal) (hr : t.InRange) : Fits t.ns := by
  obtain ⟨h0, h1⟩ := h
  obtain ⟨h2, h3⟩ := hr
  simp only [Fits, nsMin, nsMax, Timespec.ns_eq]
  omega

theorem Timespec.fakeLeft_zero (r : ℚ) : (⟨0, 0⟩ : Timespec).fakeLeft r = ⟨0, 0⟩ :=
  if_neg (by simp)

theorem Timespec.fakeLeft_of_ne {t : Timespec} (h : t ≠ ⟨0, 0⟩) (r : ℚ) :
    t.fakeLeft r = timespecmul t r := by
  refine if_pos ?_
  by_contra hz
  push Not at hz
  exact h (congrArg₂ Timespec.mk hz.1 hz.2)

theorem Timespec.fakeLeft_eq_self_iff {t : Timespec} {r : ℚ} (hr : 0 < r) (ht : t.InRange) :
    t.fakeLeft r = t ↔ t.KeptAt r := by
  by_cases hz : t = ⟨0, 0⟩
  · rw [hz, Timespec.fakeLeft_zero]
    exact iff_of_true rfl (Or.inl rfl)
  · rw [Timespec.fakeLeft_of_ne hz, Timespec.KeptAt, or_iff_right hz]
    constructor
    · intro h
      have hn : t.Normal := h ▸ normal_timespecmul t r
      refine ⟨hn, (satNs_trunc_eq_self_iff hr (hn.fits ht)).mp ?_⟩
      rw [← ns_timespecmul, h]
    · rintro ⟨hn, hkept⟩
      refine Timespec.ext_ns (normal_timespecmul t r) hn ?_
      rw [ns_timespecmul, (satNs_trunc_eq_self_iff hr (hn.fits ht)).mpr hkept]

/-- The seconds of a converted time. -/
theorem Timespec.tvSec_fakeLeft (r : ℚ) (t : Timespec) :
    (t.fakeLeft r).tvSec = satNs (trunc ((t.ns : ℚ) * r)) / 1000000000 := by
  by_cases hz : t = ⟨0, 0⟩
  · rw [hz, Timespec.fakeLeft_zero, Timespec.ns_eq]
    simp [trunc, satNs, clamp, nsMin, nsMax, ftTimeMin, ftTimeMax]
  · obtain ⟨h0, h1⟩ := normal_timespecmul t r
    rw [Timespec.fakeLeft_of_ne hz, ← ns_timespecmul, Timespec.ns_eq]
    omega

/-! ### The calls, one by one -/

section Calls

variable {w : World} {e : SleepEnd} {env : EnvVar → Option CStr} {req : Timespec}
  {rem : Option Timespec} {c : ClockId} {failure : ℤ}

/-- A thread that is faked, at a rate. -/
structure World.Rated (w : World) : Prop where
  set : w.proc.userRateSet = true
  faking : w.dontFake = false

theorem runs_fakeReturned (hw : w.Rated) : (fakeReturned rem).Runs seq w fun r _ =>
    r = rem.map (Timespec.fakeLeft w.proc.userRate) := by
  cases rem with
  | none => exact runs_pure rfl
  | some rem =>
    dsimp only [fakeReturned, Option.map_some, Timespec.fakeLeft]
    by_cases hz : rem.tvSec ≠ 0 ∨ rem.tvNsec ≠ 0
    · rw [if_pos hz, if_pos hz]
      refine runs_load (runs_dontFake ?_)
      rw [hw.set, hw.faking]
      exact runs_pure rfl
    · rw [if_neg hz, if_neg hz]
      exact runs_pure rfl

/-- The end the wrappers have in common, `P` being their test for a failure. -/
theorem runs_afterSleep (hw : w.Rated) (result : ℤ) (P : Prop) [Decidable P] :
    (if P then pure (result, rem) else do
      let rem ← fakeReturned rem
      pure (result, rem) : Sys (ℤ × Option Timespec)).Runs seq w fun r _ =>
        r.2 = if P then rem else rem.map (Timespec.fakeLeft w.proc.userRate) := by
  split
  · exact runs_pure rfl
  · refine (runs_fakeReturned hw).bind ?_
    rintro _ w₁ rfl
    exact runs_pure rfl

/-- What a wrapper leaves in the buffer of the caller, `fails` being its test of the result. -/
def SleepEnd.left (failure : ℤ) (fails : ℤ → Prop) [DecidablePred fails] (r : ℚ)
    (rem : Option Timespec) (e : SleepEnd) : Option Timespec :=
  let rem := rem.map (e.answer failure).2.getD
  if fails (e.answer failure).1 then rem else rem.map (Timespec.fakeLeft r)

/-- The requests are converted without a trace. -/
theorem runs_nanosleepRequest : (nanosleepRequest req).Runs seq w fun _ w' => w' = w := by
  refine runs_load (runs_dontFake ?_)
  split
  · exact runs_pure rfl
  · exact runs_pure rfl

theorem runs_sleepFor : (sleepFor c req).Runs seq w fun _ w' => w' = w := by
  refine runs_load (runs_dontFake ?_)
  split
  · exact runs_pure rfl
  · exact runs_pure rfl

theorem runs_nanosleep (hw : w.Rated) :
    (nanosleep req rem).Runs seq (w.sleeping e) fun r _ =>
      r.2 = e.left (-1) (· = -1) w.proc.userRate rem := by
  refine runs_nanosleepRequest.bind ?_
  rintro r _ rfl
  exact runs_ask (r := e.answer (-1)) rfl rfl
    (runs_afterSleep (w := (w.sleeping e).tick) ⟨hw.set, hw.faking⟩ _ _)

theorem runs_clockNanosleepInto (hw : w.Rated) :
    (clockNanosleepInto c false req rem).Runs seq (w.sleeping e) fun r _ =>
      r.2 = e.left eintr (· = -1) w.proc.userRate rem := by
  refine (runs_sleepFor (w := w.sleeping e)).bind ?_
  rintro r _ rfl
  exact runs_ask (r := e.answer eintr) rfl rfl
    (runs_afterSleep (w := (w.sleeping e).tick) ⟨hw.set, hw.faking⟩ _ _)

/-- Without the interception the call goes to the kernel as it is. -/
theorem runs_syscallNanosleepInto (hw : w.Rated) (henv : w.HasEnv env) :
    (syscallNanosleepInto c false req rem).Runs seq (w.sleeping e) fun r _ =>
      r.2 = if Intercepted env then e.left (-1) (· ≠ 0) w.proc.userRate rem
        else rem.map (e.answer (-1)).2.getD := by
  refine (runs_interceptsSyscall (show (w.sleeping e).HasEnv env from henv)).bind ?_
  rintro _ _ ⟨rfl, m, rfl⟩
  split
  · refine (runs_sleepFor (w := { w.sleeping e with now := m })).bind ?_
    rintro r _ rfl
    exact runs_ask (r := e.answer (-1)) rfl rfl
      (runs_afterSleep (w := { w.sleeping e with now := m }.tick) ⟨hw.set, hw.faking⟩ _ _)
  · exact runs_ask (w := { w.sleeping e with now := m }) (r := e.answer (-1)) rfl rfl
      (runs_pure rfl)

theorem runs_sleepResult {rem : Timespec} : (sleepResult rem).Runs seq w fun r _ =>
    r = toUInt32 (rem.fakeLeft w.proc.userRate).tvSec := by
  unfold sleepResult Timespec.fakeLeft
  by_cases hz : rem.tvSec ≠ 0 ∨ rem.tvNsec ≠ 0
  · rw [if_pos hz, if_pos hz]
    exact runs_load (runs_pure rfl)
  · rw [if_neg hz, if_neg hz]
    exact runs_pure rfl

/-- `sleep` looks at its variable only where nothing has been written to it. -/
theorem runs_sleep {seconds : ℕ} {g : Timespec} (hw : w.Rated)
    (hvar : ∀ n, w.os n .uninitialized = some g) :
    (sleep seconds).Runs seq (w.sleeping e) fun r _ => r = match e with
      | .completed => toUInt32 (g.fakeLeft w.proc.userRate).tvSec
      | .interrupted _ => 0 := by
  refine runs_load (runs_dontFake ?_)
  rw [show (w.sleeping e).proc.userRateSet = true from hw.set,
    show (w.sleeping e).dontFake = false from hw.faking]
  refine runs_ask (r := e.answer (-1)) rfl rfl ?_
  cases e with
  | completed =>
    exact runs_ask (w := (w.sleeping .completed).tick) rfl (hvar _)
      (runs_sleepResult (w := (w.sleeping .completed).tick.tick))
  | interrupted q => exact runs_pure rfl

end Calls

/-! ### Who reports it right -/

section Main

variable {w : World} {e : SleepEnd} {env : EnvVar → Option CStr} {f : SleepCall} {g : Timespec}
  {r : ℚ} {rem : Option Timespec}

/-- What is left of a sleep is a length of time. -/
def SleepEnd.Valid : SleepEnd → Prop
  | .completed => True
  | .interrupted q => q.Normal ∧ 0 ≤ q.ns

/-- What the buffer of the caller holds, if there is one. -/
def SleepCall.buffer : SleepCall → Option Timespec
  | .nanosleep _ rem | .clockNanosleep _ _ rem | .syscall _ _ rem => rem
  | .sleep _ => none

/-- **Where a call reports what was not slept.** After a sleep that was not interrupted the old
contents of the buffer must not change when they are converted, unless the raw system call is
not intercepted; `g` is what the variable of `sleep` happens to hold. After one that was
interrupted, what is left must be the same in real and in fake time where it is not converted,
and less than a second for `sleep`. -/
def SleepCall.Right (env : EnvVar → Option CStr) (r : ℚ) (g : Timespec) :
    SleepCall → SleepEnd → Prop
  | .nanosleep _ rem, .completed => ∀ old ∈ rem, old.KeptAt r
  | .nanosleep _ rem, .interrupted q => rem = none ∨ UnchangedAt r q.ns
  | .clockNanosleep _ _ rem, .completed => ∀ old ∈ rem, old.KeptAt r
  | .clockNanosleep _ _ rem, .interrupted q => rem = none ∨ (q.ns : ℚ) * r < nsMax + 1
  | .syscall _ _ rem, .completed => Intercepted env = true → ∀ old ∈ rem, old.KeptAt r
  | .syscall _ _ rem, .interrupted q => rem = none ∨ UnchangedAt r q.ns
  | .sleep _, .completed => satNs (trunc ((g.ns : ℚ) * r)) / 1000000000 % 2 ^ 32 = 0
  | .sleep _, .interrupted q => (q.ns : ℚ) * r < 1000000000

theorem map_fakeLeft_eq_iff (hr : 0 < r) (hrem : ∀ old ∈ rem, old.InRange) :
    rem.map (Timespec.fakeLeft r) = rem ↔ ∀ old ∈ rem, old.KeptAt r := by
  cases rem with
  | none => simp
  | some old =>
    rw [Option.map_some, Option.some_inj, Timespec.fakeLeft_eq_self_iff hr (hrem old rfl)]
    simp

/-- The length that was left is the one that is reported. -/
theorem map_left_eq_iff {v : Timespec} (hv : v.Normal) {x : ℤ} :
    (rem.map fun _ => v) = rem.map (fun _ => Timespec.ofNs x) ↔ rem = none ∨ v.ns = x := by
  cases rem with
  | none => simp
  | some old =>
    rw [Option.map_some, Option.map_some, Option.some_inj, or_iff_right (by simp)]
    refine ⟨fun h => by rw [h, Timespec.ns_ofNs], fun h => ?_⟩
    exact Timespec.ext_ns hv (Timespec.normal_ofNs x) (by rw [Timespec.ns_ofNs, h])

/-- What a wrapper leaves after a sleep that was not interrupted. -/
theorem SleepEnd.left_completed {failure : ℤ} {fails : ℤ → Prop} [DecidablePred fails]
    (h : ¬ fails 0) : SleepEnd.completed.left failure fails r rem =
      rem.map (Timespec.fakeLeft r) := by
  unfold SleepEnd.left SleepEnd.answer
  rw [if_neg h]
  cases rem <;> rfl

/-- A wrapper that takes an interruption for a failure does not convert. -/
theorem SleepEnd.left_failed {q : Timespec} {failure : ℤ} {fails : ℤ → Prop}
    [DecidablePred fails] (h : fails failure) :
    (SleepEnd.interrupted q).left failure fails r rem = rem.map fun _ => q := by
  unfold SleepEnd.left SleepEnd.answer
  rw [if_pos h]
  cases rem <;> rfl

theorem SleepEnd.left_interrupted {q : Timespec} {failure : ℤ} {fails : ℤ → Prop}
    [DecidablePred fails] (h : ¬ fails failure) :
    (SleepEnd.interrupted q).left failure fails r rem = rem.map fun _ => q.fakeLeft r := by
  unfold SleepEnd.left SleepEnd.answer
  rw [if_neg h]
  cases rem <;> rfl

/-- A length of time that does not saturate. -/
theorem ns_fakeLeft_eq_iff {q : Timespec} (hq0 : 0 ≤ q.ns) (hr : 0 < r) :
    (q.fakeLeft r).ns = trunc ((q.ns : ℚ) * r) ↔ (q.ns : ℚ) * r < nsMax + 1 := by
  have h0 : 0 ≤ trunc ((q.ns : ℚ) * r) := by
    rw [trunc_nonneg_iff]
    have : 0 ≤ (q.ns : ℚ) * r := mul_nonneg (by exact_mod_cast hq0) hr.le
    linarith
  have hlt : trunc ((q.ns : ℚ) * r) < nsMax + 1 ↔ (q.ns : ℚ) * r < nsMax + 1 := by
    have hpos : 0 < nsMax + 1 := by decide
    exact_mod_cast trunc_lt_iff_of_pos hpos
  rw [← hlt]
  by_cases hz : q = ⟨0, 0⟩
  · have hmax : 0 < nsMax + 1 := by decide
    rw [hz, Timespec.fakeLeft_zero]
    simp [Timespec.ns_eq, trunc, hmax]
  · have hmin : nsMin < 0 := by decide
    have hmax : 0 < nsMax := by decide
    rw [Timespec.fakeLeft_of_ne hz, ns_timespecmul]
    unfold satNs clamp
    omega

/-- The result of `sleep` is zero if it counts whole wraps. -/
theorem toUInt32_eq_zero_iff {n : ℤ} : toUInt32 n = 0 ↔ n % 2 ^ 32 = 0 := by
  unfold toUInt32
  omega

theorem Timespec.Normal.fakeLeft {q : Timespec} (hq : q.Normal) (r : ℚ) :
    (q.fakeLeft r).Normal := by
  unfold Timespec.fakeLeft
  split
  · exact normal_timespecmul q r
  · exact hq

/-- A wrapper that converts after a sleep that was not interrupted. -/
theorem left_completed_iff {failure : ℤ} {fails : ℤ → Prop} [DecidablePred fails]
    (h : ¬ fails 0) (hr : 0 < r) (hrem : ∀ old ∈ rem, old.InRange) :
    SleepEnd.completed.left failure fails r rem = SleepEnd.completed.reported r rem ↔
      ∀ old ∈ rem, old.KeptAt r := by
  rw [SleepEnd.left_completed h]
  exact map_fakeLeft_eq_iff hr hrem

/-- A wrapper that does not convert after one that was. -/
theorem left_failed_iff {q : Timespec} {failure : ℤ} {fails : ℤ → Prop} [DecidablePred fails]
    (h : fails failure) (hr : 0 < r) (hq : q.Normal) :
    (SleepEnd.interrupted q).left failure fails r rem = (SleepEnd.interrupted q).reported r rem ↔
      rem = none ∨ UnchangedAt r q.ns := by
  rw [SleepEnd.left_failed h]
  refine (map_left_eq_iff hq).trans (or_congr_right ?_)
  rw [eq_comm, trunc_mul_eq_self_iff hr]

/-- **Who reports the time that was not slept.** A thread is faked at some rate, and a relative
sleep ends in either way. -/
theorem unslept_reported_iff (hw : w.Rated) (hr : 0 < w.proc.userRate) (henv : w.HasEnv env)
    (hvar : ∀ n, w.os n .uninitialized = some g) (he : e.Valid)
    (hbuf : ∀ old ∈ f.buffer, old.InRange) :
    f.ReportsUnslept w e ↔ f.Right env w.proc.userRate g e := by
  cases f with
  | nanosleep req rem =>
    refine (Runs.iff_of_eq (P := (· = e.reported w.proc.userRate rem)) (runs_nanosleep hw)).trans ?_
    cases e with
    | completed => exact left_completed_iff (by decide) hr hbuf
    | interrupted q => exact left_failed_iff rfl hr he.1
  | clockNanosleep c req rem =>
    refine (Runs.iff_of_eq (P := (· = e.reported w.proc.userRate rem))
      (runs_clockNanosleepInto hw)).trans ?_
    cases e with
    | completed => exact left_completed_iff (by decide) hr hbuf
    | interrupted q =>
      -- the only test for a failure that is right
      rw [SleepEnd.left_interrupted (by decide)]
      exact (map_left_eq_iff (he.1.fakeLeft _)).trans (or_congr_right (ns_fakeLeft_eq_iff he.2 hr))
  | syscall c req rem =>
    refine (Runs.iff_of_eq (P := (· = e.reported w.proc.userRate rem))
      (runs_syscallNanosleepInto hw henv)).trans ?_
    cases e with
    | completed =>
      cases hint : Intercepted env with
      | true =>
        rw [if_pos rfl, SleepCall.Right, hint]
        exact (left_completed_iff (by decide) hr hbuf).trans (by simp [SleepCall.buffer])
      | false =>
        rw [if_neg (by simp), SleepCall.Right, hint]
        refine iff_of_true ?_ (by simp)
        cases rem <;> rfl
    | interrupted q =>
      have hleft : (SleepEnd.interrupted q).left (-1) (· ≠ 0) w.proc.userRate rem =
          rem.map ((SleepEnd.interrupted q).answer (-1)).2.getD := by
        rw [SleepEnd.left_failed (by decide)]
        cases rem <;> rfl
      rw [hleft, ite_self, ← hleft]
      exact left_failed_iff (by decide) hr he.1
  | sleep seconds =>
    refine (Runs.iff_of_eq (P := (· = e.reportedSeconds w.proc.userRate))
      (runs_sleep hw hvar)).trans ?_
    cases e with
    | completed =>
      rw [SleepEnd.reportedSeconds, toUInt32_eq_zero_iff, Timespec.tvSec_fakeLeft]
      exact Iff.rfl
    | interrupted q =>
      have hlt : trunc ((q.ns : ℚ) * w.proc.userRate) < 1000000000 ↔
          (q.ns : ℚ) * w.proc.userRate < 1000000000 := by
        exact_mod_cast trunc_lt_iff_of_pos (show (0 : ℤ) < 1000000000 by decide)
      rw [SleepEnd.reportedSeconds, SleepCall.Right, ← hlt]
      change 0 = (trunc ((q.ns : ℚ) * w.proc.userRate) / 1000000000).toNat ↔ _
      omega

/-- A world in which variables that have not been assigned hold `g`. -/
def World.holding (w : World) (g : Timespec) : World :=
  { w with os := fun n o => match o with
      | .uninitialized => some g
      | o => w.os n o }

/-- A process at double speed, on whose stack there are zeros. -/
def restingWorld : World :=
  (calmWorld doubleSpeedEnv (fun _ _ => ⟨60, 0⟩) ⟨0, 0⟩ doubleSpeed).holding ⟨0, 0⟩

/-- Three of ten seconds were left, and `clock_nanosleep` reports six. -/
theorem unslept_reported_by_clock_nanosleep :
    (SleepCall.clockNanosleep .realtime ⟨10, 0⟩ (some ⟨5, 0⟩)).ReportsUnslept restingWorld
      (.interrupted ⟨3, 0⟩) := by
  have hq : (SleepEnd.interrupted ⟨3, 0⟩).Valid := ⟨by decide, by decide⟩
  have hbuf : ∀ old ∈ (SleepCall.clockNanosleep .realtime ⟨10, 0⟩ (some ⟨5, 0⟩)).buffer,
      old.InRange := by
    rintro _ ⟨⟩
    exact ⟨by decide, by decide⟩
  have henv : restingWorld.HasEnv doubleSpeedEnv := fun _ _ => rfl
  exact (unslept_reported_iff ⟨rfl, rfl⟩ (show (0 : ℚ) < 2 by norm_num) henv (fun _ => rfl) hq
    hbuf).mpr (Or.inr (by decide +kernel))

/-- At double speed three of ten seconds are left: `nanosleep` reports them as they are instead
of six, and `sleep` reports none; and after a sleep that was not interrupted `clock_nanosleep`
has changed what was in the buffer. -/
theorem unslept_is_not_reported :
    ¬ (SleepCall.nanosleep ⟨10, 0⟩ (some ⟨0, 0⟩)).ReportsUnslept
        restingWorld (.interrupted ⟨3, 0⟩) ∧
      ¬ (SleepCall.sleep 10).ReportsUnslept
        restingWorld (.interrupted ⟨3, 0⟩) ∧
      ¬ (SleepCall.clockNanosleep .realtime ⟨10, 0⟩ (some ⟨5, 0⟩)).ReportsUnslept restingWorld
        .completed := by
  refine ⟨?_, ?_, ?_⟩
  · rintro ⟨r, w', hr, h⟩
    cases hr
    exact absurd h (by decide +kernel)
  · rintro ⟨r, w', hr, h⟩
    cases hr
    exact absurd h (by decide +kernel)
  · rintro ⟨r, w', hr, h⟩
    cases hr
    exact absurd h (by decide +kernel)

end Main

/-! ### `select` -/

section Select

variable {s : Proc} {w : World} {k : KernelAnswer} {timeout q : Timeval} {r : ℚ}

/-- The microseconds of the greatest normalized `struct timeval`. -/
def usMax : ℤ := ftTimeMax * 1000000 + 999999

/-- The normalized timeout of a number of microseconds. -/
def Timeval.ofUs (x : ℤ) : Timeval := ⟨x / 1000000, x % 1000000⟩

theorem Timeval.normal_ofUs (x : ℤ) : (ofUs x).Normal :=
  ⟨Int.emod_nonneg x (by decide), Int.emod_lt_of_pos x (by decide)⟩

@[simp] theorem Timeval.us_ofUs (x : ℤ) : (ofUs x).us = x := Int.ediv_mul_add_emod x 1000000

/-- The timeout is scaled before it is handed to the kernel. -/
def Proc.ScalesTimeout (s : Proc) (dont : Bool) (timeout : Timeval) : Prop :=
  s.userRateSet = true ∧ dont = false ∧ (0 < timeout.tvSec ∨ 0 < timeout.tvUsec)

instance (s : Proc) (dont : Bool) (timeout : Timeval) : Decidable (s.ScalesTimeout dont timeout) :=
  inferInstanceAs (Decidable (_ ∧ _))

/-- The timeout the kernel is handed. -/
def Proc.handedTimeout (s : Proc) (dont : Bool) (timeout : Timeval) : Timeval :=
  if s.ScalesTimeout dont timeout then timeout.scale (1 / s.userRate) else timeout

/-- What `select` should report, the kernel having left `q`: the time that is left, converted
back if the timeout was converted. -/
def Proc.timeLeft (s : Proc) (dont : Bool) (timeout q : Timeval) : Timeval :=
  if s.ScalesTimeout dont timeout then .ofUs (trunc ((q.us : ℚ) * s.userRate)) else q

/-- **Where `select` reports the time that is left.** Without a rate it leaves the timeout of
the caller as it is; with one it converts back, whether it has converted or not. -/
def Proc.TimeLeftRight (s : Proc) (dont : Bool) (timeout q : Timeval) : Prop :=
  if s.ScalesTimeout dont timeout then (q.us : ℚ) * s.userRate < usMax + 1
  else if s.userRateSet then UnchangedAt s.userRate q.us ∨ 1 ≤ s.userRate ∧ q.us = usMax
  else timeout = q

theorem runs_realTimeout_handed (w : World) (timeout : Timeval) :
    (realTimeout timeout).Runs seq w fun r w' =>
      r = w.proc.handedTimeout w.dontFake timeout ∧ w' = w := by
  have htest : (w.proc.userRateSet && !w.dontFake &&
      (decide (0 < timeout.tvSec) || decide (0 < timeout.tvUsec))) = true ↔
      w.proc.ScalesTimeout w.dontFake timeout := by
    simp [Proc.ScalesTimeout, and_assoc]
  refine runs_load (runs_dontFake ?_)
  unfold Proc.handedTimeout
  by_cases hscales : w.proc.ScalesTimeout w.dontFake timeout
  · rw [if_pos hscales, if_pos (htest.mpr hscales)]
    exact runs_pure ⟨rfl, rfl⟩
  · rw [if_neg hscales, if_neg (mt htest.mp hscales)]
    exact runs_pure ⟨rfl, rfl⟩

/-- What `select` hands to the kernel, and what it leaves to its caller. -/
theorem hands_select (w : World) (timeout : Timeval) : Hands (select (some timeout)) w
    (.realSelect (some (w.proc.handedTimeout w.dontFake timeout))) := by
  refine (runs_realTimeout_handed w.silent timeout).halts_bind ?_
  rintro _ _ ⟨rfl, rfl⟩
  exact (halts_ask rfl rfl).bind

theorem reports_select_left (w : World) (k : KernelAnswer) (timeout : Timeval) :
    Reports (select (some timeout)) w k (k.select.1, some (if w.proc.userRateSet then
      (k.select.2.getD (w.proc.handedTimeout w.dontFake timeout)).scale w.proc.userRate
      else timeout)) := by
  refine (runs_realTimeout_handed (w.answering k) timeout).bind ?_
  rintro _ _ ⟨rfl, rfl⟩
  refine runs_ask (r := k.select) rfl rfl (runs_load ?_)
  change (if w.proc.userRateSet then _ else _ : Sys _).Runs seq _ _
  cases h : w.proc.userRateSet with
  | true => exact runs_pure rfl
  | false => exact runs_pure rfl

/-- Scaling a timeout truncates to the microsecond. -/
theorem us_scale_of_nonneg (hq : 0 ≤ q.us) (hr : 0 < r) :
    (q.scale r).us = min usMax (trunc ((q.us : ℚ) * r)) := by
  have hq' : (0 : ℚ) ≤ q.us := by exact_mod_cast hq
  have hx : 0 ≤ (q.us : ℚ) * r := mul_nonneg hq' hr.le
  have hcast : ((q.us * 1000 : ℤ) : ℚ) * r = (q.us : ℚ) * r * 1000 := by
    push_cast
    ring
  have hdiv : ⌊(q.us : ℚ) * r⌋ = ⌊(q.us : ℚ) * r * 1000⌋ / 1000 := by
    have h := Int.floor_div_natCast ((q.us : ℚ) * r * 1000) 1000
    rwa [Nat.cast_ofNat, mul_div_cancel_right₀ _ (by norm_num)] at h
  have hpos : 0 ≤ ⌊(q.us : ℚ) * r * 1000⌋ := Int.floor_nonneg.mpr (by linarith)
  have hns : nsMax = usMax * 1000 + 999 := by decide
  have hmin : nsMin < 0 := by decide
  have hmax : 0 < usMax := by decide
  rw [us_scale, hcast, trunc_of_nonneg (by linarith), trunc_of_nonneg hx, hdiv]
  unfold satNs clamp
  omega

/-- **Who is told what is left of a timeout.** -/
theorem select_reports_timeLeft_iff (hr : w.proc.RatePositive) (hq : q.Normal) (hq0 : 0 ≤ q.us)
    (hq1 : q.us ≤ usMax) (hleft : k.select.2.getD (w.proc.handedTimeout w.dontFake timeout) = q) :
    Reports (select (some timeout)) w k
        (k.select.1, some (w.proc.timeLeft w.dontFake timeout q)) ↔
      w.proc.TimeLeftRight w.dontFake timeout q := by
  have hq' : (0 : ℚ) ≤ q.us := by exact_mod_cast hq0
  refine (Runs.iff_of_eq (f := id) (P := (· = _)) (reports_select_left w k timeout)).trans ?_
  rw [hleft, Prod.mk.injEq, and_iff_right rfl, Option.some_inj]
  unfold Proc.timeLeft Proc.TimeLeftRight
  by_cases hscales : w.proc.ScalesTimeout w.dontFake timeout
  · -- what was scaled is scaled back, unless the result cannot be held
    have hrate := hr hscales.1
    have hlt : trunc ((q.us : ℚ) * w.proc.userRate) < usMax + 1 ↔
        (q.us : ℚ) * w.proc.userRate < usMax + 1 := by
      exact_mod_cast trunc_lt_iff_of_pos (show 0 < usMax + 1 by decide)
    rw [if_pos hscales, if_pos hscales, if_pos hscales.1, ← hlt]
    refine ⟨fun h => ?_, fun h => Timeval.ext_us (normal_scale _ _) (Timeval.normal_ofUs _) ?_⟩
    · have hus := congrArg Timeval.us h
      rw [us_scale_of_nonneg hq0 hrate, Timeval.us_ofUs] at hus
      omega
    · rw [us_scale_of_nonneg hq0 hrate, Timeval.us_ofUs]
      omega
  · rw [if_neg hscales, if_neg hscales]
    split
    next hset =>
      have hrate := hr hset
      have hback : q.scale w.proc.userRate = q ↔
          min usMax (trunc ((q.us : ℚ) * w.proc.userRate)) = q.us := by
        rw [← us_scale_of_nonneg hq0 hrate]
        exact ⟨fun h => by rw [h], Timeval.ext_us (normal_scale _ _) hq⟩
      rw [hback, ← trunc_mul_eq_self_iff hrate]
      rcases eq_or_ne q.us usMax with hmax | hmax
      · rw [hmax, ← le_trunc_mul_iff hrate (show 0 < usMax by decide)]
        omega
      · omega
    next => exact Iff.rfl

/-- At double speed four of the ten seconds the kernel is asked to wait are left, and `select`
reports eight. -/
theorem select_reports_timeLeft_at_double_speed :
    Reports (select (some ⟨20, 0⟩))
    (calmWorld doubleSpeedEnv (fun _ _ => ⟨60, 0⟩) ⟨0, 0⟩ doubleSpeed)
      ⟨(0, none), (1, some ⟨4, 0⟩), 0⟩
      (1, some (doubleSpeed.timeLeft false ⟨20, 0⟩ ⟨4, 0⟩)) := by
  refine (select_reports_timeLeft_iff (fun _ => show (0 : ℚ) < 2 by norm_num) ⟨by decide, by decide⟩
    (by decide) (by decide) rfl).mpr ?_
  refine (if_pos (show doubleSpeed.ScalesTimeout false ⟨20, 0⟩ by decide +kernel)).mpr ?_
  decide +kernel

/-- Three of five seconds are left: without a rate the caller is shown five, and a thread that
is not faked is shown six by the rate of the others. -/
theorem select_hides_timeLeft :
    ¬ Reports (select (some ⟨5, 0⟩)) (calmWorld startAtEnv (fun _ _ => ⟨60, 0⟩) ⟨0, 0⟩
        { doubleSpeed with userRateSet := false }) ⟨(0, none), (1, some ⟨3, 0⟩), 0⟩
        (1, some (Proc.timeLeft { doubleSpeed with userRateSet := false } false ⟨5, 0⟩ ⟨3, 0⟩)) ∧
      ¬ Reports (select (some ⟨5, 0⟩)) { calmWorld doubleSpeedEnv (fun _ _ => ⟨60, 0⟩) ⟨0, 0⟩
          doubleSpeed with dontFake := true } ⟨(0, none), (1, some ⟨3, 0⟩), 0⟩
        (1, some (doubleSpeed.timeLeft true ⟨5, 0⟩ ⟨3, 0⟩)) := by
  constructor
  · rintro ⟨r, w', hr, h⟩
    cases hr
    exact absurd h (by decide +kernel)
  · rintro ⟨r, w', hr, h⟩
    cases hr
    exact absurd h (by decide +kernel)

end Select

end LibFaketime
