import LibFaketime.Frozen
import LibFaketime.Syscall

/-!
# Waiting in a thread that is not faked

A thread with `dont_fake` set belongs to a command that was excluded from faking, and what it
asks of the kernel should be left alone. Relative sleeps are. The other functions convert all
the same, each for want of a test of `dont_fake`:

* a sleep until an absolute time, by `clock_nanosleep` or by a raw system call, is counted from
  the start time and the base;
* the timeout `select` leaves to its caller is scaled, or is not what the kernel left;
* the deadline of `pthread_cond_timedwait` is scaled by the rate.

For each function the exact condition under which its work cancels out is given, and the main
result collects them (`LibFaketime.waits_untouched_iff`).
-/

namespace LibFaketime

open Effects Effects.Prog Saturate

/-! ### What the kernel reports -/

/-- What the kernel answers to the calls that wait. -/
structure KernelAnswer where
  sleep : ℤ × Option Timespec
  select : ℤ × Option Timeval
  cond : ℤ

/-- A world in which the kernel answers so. -/
def World.answering (w : World) (k : KernelAnswer) : World :=
  { w with os := fun n o => match o with
      | .realClockNanosleep _ _ _ => some k.sleep
      | .syscallClockNanosleep _ _ _ => some k.sleep
      | .realSelect _ => some k.select
      | .realPthreadCondTimedwait _ => some k.cond
      | o => w.os n o }

/-- If the kernel answers `k`, the program returns `a`. -/
def Reports {α : Type} (p : Sys α) (w : World) (k : KernelAnswer) (a : α) : Prop :=
  p.Runs seq (w.answering k) fun r _ => r = a

/-- The environment, whenever it is asked. -/
def World.HasEnv (env : EnvVar → Option CStr) (w : World) : Prop :=
  ∀ n v, w.os n (.getenv v) = some (env v)

/-! ### The conversions on numbers -/

section Numbers

variable {s : Proc} {d b : Timespec}

/-- A length of faked time as one of real time. -/
def Proc.slowed (s : Proc) (y : ℤ) : ℤ :=
  if s.userRateSet then satNs (trunc ((y : ℚ) * (1 / s.userRate))) else y

theorem ns_realDistance_slowed (hd : d.Stored) (hb : b.Stored) :
    (s.realDistance d b).ns = s.slowed (satNs (d.ns - b.ns)) := by
  unfold Proc.realDistance Proc.slowed
  split
  · rw [ns_timespecmul, ns_timespecsub hd hb]
  · exact ns_timespecsub hd hb

/-- A time `x` is `y` away from `a`. Times outside the range of a `struct timespec` are taken for
the nearest end of it. -/
def AwayFrom (a x y : ℤ) : Prop := x - a = y ∨ x = nsMax ∧ x - a ≤ y ∨ x = nsMin ∧ y ≤ x - a

theorem satNs_add_eq_iff {a x y : ℤ} (hx : Fits x) : satNs (a + y) = x ↔ AwayFrom a x y := by
  obtain ⟨hlo, hhi⟩ := hx
  have hle := nsMin_le_nsMax
  unfold satNs clamp AwayFrom
  omega

/-- The request `x` is as far from the start time as it is from the base, at the rate of real
time. -/
def Proc.Meets (s : Proc) (c : ClockId) (x : ℤ) : Prop :=
  AwayFrom (s.ftplStarttime.of c).ns x (s.slowed (satNs (x - s.userFakedTimeTimespec.ns)))

theorem Proc.meets_iff (hs : s.TimesStored) {c : ClockId} (hd : d.Stored) (hfit : Fits d.ns) :
    (s.fromStart c d).ns = d.ns ↔ s.Meets c d.ns := by
  rw [Proc.fromStart, ns_timespecadd (hs.start c) (normal_realDistance hd hs.base).stored,
    ns_realDistance_slowed hd hs.base]
  exact satNs_add_eq_iff hfit

end Numbers

/-! ### Sleeping -/

section Sleeping

variable {w : World} {env : EnvVar → Option CStr} {c : ClockId} {abstime : Bool} {req : Timespec}

/-- Whether the monotonic clock is faked, once the environment has been asked again. -/
def Proc.fakesMonotonic (s : Proc) (env : EnvVar → Option CStr) : Bool :=
  match (env .faketimeDontFakeMonotonic).or (env .dontFakeMonotonic) with
  | none => s.fakeMonotonicClock
  | some v => v != ['1']

theorem runs_getFakeMonotonicSetting_env (henv : w.HasEnv env) :
    getFakeMonotonicSetting.Runs seq w fun _ w' => ∃ m, w' = { w with
      now := m, proc := { w.proc with fakeMonotonicClock := w.proc.fakesMonotonic env } } := by
  have hend : ∀ (m : ℕ) (v : Option CStr),
      v = (env .faketimeDontFakeMonotonic).or (env .dontFakeMonotonic) →
      (assignFakeMonotonic v).Runs seq { w with now := m } fun _ w' => ∃ m, w' = { w with
          now := m, proc := { w.proc with fakeMonotonicClock := w.proc.fakesMonotonic env } } := by
    rintro m v hv
    unfold Proc.fakesMonotonic
    rw [← hv]
    cases v with
    | none => exact runs_pure ⟨m, rfl⟩
    | some v => exact ⟨(), _, rfl, m, rfl⟩
  refine runs_getenv (henv _ _) ?_
  cases h₁ : env .faketimeDontFakeMonotonic with
  | some v => exact hend (w.now + 1) (some v) (by rw [h₁]; rfl)
  | none =>
    refine runs_getenv (henv _ _) (hend (w.now + 1 + 1) _ ?_)
    rw [h₁]
    rfl

/-- The sleeps that are converted: those until an absolute time on a faked clock. -/
def Converted (s : Proc) (env : EnvVar → Option CStr) (c : ClockId) (abstime : Bool) : Prop :=
  abstime = true ∧ (c = .realtime ∨ c = .monotonic ∧ s.fakesMonotonic env = true)

instance (s : Proc) (env : EnvVar → Option CStr) (c : ClockId) (abstime : Bool) :
    Decidable (Converted s env c abstime) := inferInstanceAs (Decidable (_ ∧ _))

/-- The request of a sleep until an absolute time, whether the thread is faked or not. -/
theorem runs_sleepUntil_env (henv : w.HasEnv env) : (sleepUntil c req).Runs seq w fun r w' =>
    r = (if Converted w.proc env c true then w.proc.fromStart c req else req) ∧
      w'.os = w.os ∧ w'.dontFake = w.dontFake := by
  refine runs_load ?_
  by_cases hreal : c = .realtime
  · rw [if_pos hreal, if_pos ⟨rfl, Or.inl hreal⟩]
    refine runs_load (runs_pure ⟨?_, rfl, rfl⟩)
    rw [hreal]
    rfl
  · rw [if_neg hreal]
    by_cases hmono : c = .monotonic
    · rw [if_pos hmono]
      refine (runs_getFakeMonotonicSetting_env henv).bind ?_
      rintro - _ ⟨m, rfl⟩
      refine runs_load (runs_pure ⟨?_, rfl, rfl⟩)
      by_cases hfake : w.proc.fakesMonotonic env = true
      · rw [if_pos hfake, if_pos ⟨rfl, Or.inr ⟨hmono, hfake⟩⟩, hmono]
        rfl
      · rw [if_neg hfake, if_neg fun h => ?_]
        rcases h.2 with h | h
        · exact hreal h
        · exact hfake h.2
    · rw [if_neg hmono, if_neg (by simp [Converted, hreal, hmono])]
      exact runs_pure ⟨rfl, rfl, rfl⟩

/-- The request that is handed over. -/
theorem runs_realRequest (henv : w.HasEnv env) (hdont : w.dontFake = true) :
    (realRequest c abstime req).Runs seq w fun r w' =>
      r = (if Converted w.proc env c abstime then w.proc.fromStart c req else req) ∧
        w'.os = w.os ∧ w'.dontFake = true := by
  unfold realRequest
  cases abstime with
  | false =>
    rw [if_neg (by simp), if_neg (by simp [Converted])]
    refine runs_load (runs_dontFake ?_)
    rw [hdont, if_neg (by simp)]
    exact runs_pure ⟨rfl, rfl, hdont⟩
  | true =>
    rw [if_pos rfl]
    refine (runs_sleepUntil_env henv).mono ?_
    rintro r w' ⟨hr, hos, hdont'⟩
    exact ⟨hr, hos, hdont'.trans hdont⟩

/-- **A sleep is left alone**: the kernel is handed the caller's request, or one for the same
time, and its answer is what the caller gets. -/
def SleepUntouched (p : Sys (ℤ × Option Timespec)) (call : Timespec → Op) (req : Timespec)
    (w : World) : Prop :=
  (∃ r, Hands p w (call r) ∧ r.ns = req.ns) ∧ ∀ k, Reports p w k k.sleep

/-- The two sleeping functions differ in the call they make and in what they take for a
failure. -/
theorem sleepUntouched_iff {p : Sys (ℤ × Option Timespec)} {call : Timespec → Op}
    (hinj : Function.Injective call) (hs : w.proc.TimesStored) (hreq : req.Stored)
    (hfit : Fits req.ns) (hhands : Hands p w
      (call (if Converted w.proc env c abstime then w.proc.fromStart c req else req)))
    (hreports : ∀ k, Reports p w k k.sleep) :
    SleepUntouched p call req w ↔ (Converted w.proc env c abstime → w.proc.Meets c req.ns) := by
  have hns : (if Converted w.proc env c abstime then w.proc.fromStart c req else req).ns = req.ns ↔
      (Converted w.proc env c abstime → w.proc.Meets c req.ns) := by
    split
    next hconv => simp only [hconv, forall_const, w.proc.meets_iff hs hreq hfit]
    next hconv => simp only [hconv, false_implies]
  rw [← hns]
  constructor
  · rintro ⟨⟨r, hr, hR⟩, -⟩
    rw [← hinj (hr.unique hhands)]
    exact hR
  · exact fun h => ⟨⟨_, hhands, h⟩, hreports⟩

theorem hands_clockNanosleep_request (henv : w.HasEnv env) (hdont : w.dontFake = true) :
    Hands (clockNanosleep c abstime req) w (.realClockNanosleep c abstime
      (if Converted w.proc env c abstime then w.proc.fromStart c req else req)) := by
  refine (runs_realRequest (show w.silent.HasEnv env from henv) hdont).halts_bind ?_
  rintro _ w₁ ⟨rfl, hos, -⟩
  refine (halts_ask rfl ?_).bind
  rw [hos]
  rfl

theorem reports_clockNanosleep (henv : w.HasEnv env) (hdont : w.dontFake = true)
    (k : KernelAnswer) : Reports (clockNanosleep c abstime req) w k k.sleep := by
  refine (runs_realRequest (show (w.answering k).HasEnv env from henv) hdont).bind ?_
  rintro _ w₁ ⟨rfl, hos, hdont₁⟩
  refine runs_ask (r := k.sleep) rfl (by rw [hos]; rfl) ?_
  obtain ⟨⟨result, rem⟩, -, -⟩ := k
  dsimp only
  split
  · exact runs_pure rfl
  · cases rem with
    | none => exact runs_pure rfl
    | some rem =>
      refine runs_load (runs_dontFake ?_)
      rw [show w₁.tick.dontFake = true from hdont₁, if_neg (by simp)]
      exact runs_pure rfl

/-- **`clock_nanosleep` leaves alone** what it does not convert, and of the rest the requests
that mean the same on both clocks. -/
theorem clockNanosleep_untouched_iff (henv : w.HasEnv env) (hdont : w.dontFake = true)
    (hs : w.proc.TimesStored) (hreq : req.Stored) (hfit : Fits req.ns) :
    SleepUntouched (clockNanosleep c abstime req) (.realClockNanosleep c abstime) req w ↔
      (Converted w.proc env c abstime → w.proc.Meets c req.ns) :=
  sleepUntouched_iff (fun _ _ h => by simpa using h) hs hreq hfit
    (hands_clockNanosleep_request henv hdont) (reports_clockNanosleep henv hdont)

/-- The raw system calls are intercepted. -/
def Intercepted (env : EnvVar → Option CStr) : Bool :=
  (env .faketime).isSome || (env .faketimeTimestampFile).isSome

theorem runs_interceptsSyscall (henv : w.HasEnv env) :
    interceptsSyscall.Runs seq w fun r w' =>
      r = Intercepted env ∧ ∃ m, w' = { w with now := m } := by
  refine runs_getenv (henv _ _) ?_
  cases h : env .faketime with
  | some v => exact runs_pure ⟨by rw [Intercepted, h]; rfl, _, rfl⟩
  | none =>
    refine runs_getenv (henv _ _) (runs_pure ⟨?_, _, rfl⟩)
    rw [Intercepted, h]
    rfl

theorem hands_syscallNanosleep (henv : w.HasEnv env) (hdont : w.dontFake = true) :
    Hands (syscallNanosleep c abstime req) w (.syscallClockNanosleep c abstime
      (if Converted w.proc env c (Intercepted env && abstime) then w.proc.fromStart c req
        else req)) := by
  refine (runs_interceptsSyscall (show w.silent.HasEnv env from henv)).halts_bind ?_
  rintro _ _ ⟨rfl, m, rfl⟩
  cases hint : Intercepted env with
  | true =>
    rw [if_pos rfl, Bool.true_and]
    have henv₁ : ({ w.silent with now := m } : World).HasEnv env := henv
    refine (runs_realRequest henv₁ hdont).halts_bind ?_
    rintro _ w₂ ⟨rfl, hos₂, -⟩
    refine (halts_ask rfl ?_).bind
    rw [hos₂]
    rfl
  | false =>
    rw [if_neg (by simp), if_neg (by simp [Converted])]
    exact halts_ask rfl rfl

theorem reports_syscallNanosleep (henv : w.HasEnv env) (hdont : w.dontFake = true)
    (k : KernelAnswer) : Reports (syscallNanosleep c abstime req) w k k.sleep := by
  refine (runs_interceptsSyscall (show (w.answering k).HasEnv env from henv)).bind ?_
  rintro _ _ ⟨rfl, m, rfl⟩
  have hcall : ∀ (w₂ : World) (r : Timespec), w₂.os = (w.answering k).os →
      w₂.os w₂.now (.syscallClockNanosleep c abstime r) = some k.sleep := by
    intro w₂ r h
    rw [h]
    rfl
  split
  · have henv₁ : ({ w.answering k with now := m } : World).HasEnv env := henv
    refine (runs_realRequest henv₁ hdont).bind ?_
    rintro _ w₂ ⟨rfl, hos₂, hdont₂⟩
    refine runs_ask (r := k.sleep) rfl (hcall w₂ _ hos₂) ?_
    obtain ⟨⟨result, rem⟩, -, -⟩ := k
    dsimp only
    split
    · exact runs_pure rfl
    · cases rem with
      | none => exact runs_pure rfl
      | some rem =>
        refine runs_load (runs_dontFake ?_)
        rw [show w₂.tick.dontFake = true from hdont₂, if_neg (by simp)]
        exact runs_pure rfl
  · have hask : seq { w.answering k with now := m } (.syscallClockNanosleep c abstime req) =
        .ok (k.sleep, { w.answering k with now := m + 1 }) :=
      World.ask_of_some (f := fun _ w => w) (hcall { w.answering k with now := m } _ rfl)
    exact (runs_perform (I := sys) hask).mono fun _ _ h => h.1

/-- **The raw system call leaves alone** what is not intercepted, too. -/
theorem syscallNanosleep_untouched_iff (henv : w.HasEnv env) (hdont : w.dontFake = true)
    (hs : w.proc.TimesStored) (hreq : req.Stored) (hfit : Fits req.ns) :
    SleepUntouched (syscallNanosleep c abstime req) (.syscallClockNanosleep c abstime) req w ↔
      (Converted w.proc env c (Intercepted env && abstime) → w.proc.Meets c req.ns) :=
  sleepUntouched_iff (fun _ _ h => by simpa using h) hs hreq hfit
    (hands_syscallNanosleep henv hdont) (reports_syscallNanosleep henv hdont)

end Sleeping

/-! ### `select` -/

section Select

variable {w : World} {timeout : Option Timeval} {k : KernelAnswer}

/-- What the kernel leaves in the timeout it was given. -/
def KernelAnswer.left (k : KernelAnswer) (timeout : Option Timeval) : Option Timeval :=
  timeout.map fun tv => k.select.2.getD tv

/-- **`select` is left alone**: the kernel is handed the caller's timeout, and the caller gets
the kernel's result and what the kernel left of the timeout. -/
def SelectUntouched (timeout : Option Timeval) (w : World) (k : KernelAnswer) : Prop :=
  Hands (select timeout) w (.realSelect timeout) ∧
    Reports (select timeout) w k (k.select.1, k.left timeout)

/-- The timeout that is written back means what the kernel left. -/
def Proc.GivesBack (s : Proc) (timeout left : Timeval) : Prop :=
  if s.userRateSet then
    satNs (trunc (((left.us * 1000 : ℤ) : ℚ) * s.userRate)) / 1000 = left.us
  else left = timeout

/-- A timeout as the kernel leaves it. -/
def Timeval.Normal (tv : Timeval) : Prop := 0 ≤ tv.tvUsec ∧ tv.tvUsec < 1000000

theorem us_scale (tv : Timeval) (r : ℚ) :
    (tv.scale r).us = satNs (trunc (((tv.us * 1000 : ℤ) : ℚ) * r)) / 1000 := by
  have hns : (⟨tv.tvSec, tv.tvUsec * 1000⟩ : Timespec).ns = tv.us * 1000 := by
    rw [Timespec.ns_eq, Timeval.us]
    ring
  rw [Timeval.scale, us_of_normal (normal_timespecmul ⟨tv.tvSec, tv.tvUsec * 1000⟩ r),
    ns_timespecmul, hns]

theorem normal_scale (tv : Timeval) (r : ℚ) : (tv.scale r).Normal := by
  obtain ⟨h0, h1⟩ := normal_timespecmul ⟨tv.tvSec, tv.tvUsec * 1000⟩ r
  have hdiv := Int.tdiv_eq_ediv_of_nonneg (b := 1000) h0
  simp only [Timeval.Normal, Timeval.scale, hdiv]
  omega

/-- Normalized timeouts with the same microseconds are the same. -/
theorem Timeval.ext_us {a b : Timeval} (ha : a.Normal) (hb : b.Normal) (h : a.us = b.us) :
    a = b := by
  obtain ⟨h0, h1⟩ := ha
  obtain ⟨h2, h3⟩ := hb
  cases a
  cases b
  simp only [Timeval.us] at h h0 h1 h2 h3
  rw [Timeval.mk.injEq]
  omega

theorem scale_eq_iff {tv : Timeval} (h : tv.Normal) (r : ℚ) :
    tv.scale r = tv ↔ satNs (trunc (((tv.us * 1000 : ℤ) : ℚ) * r)) / 1000 = tv.us := by
  rw [← us_scale]
  exact ⟨fun heq => by rw [heq], Timeval.ext_us (normal_scale tv r) h⟩

theorem runs_realTimeout {tv : Timeval} (hdont : w.dontFake = true) :
    (realTimeout tv).Runs seq w fun r w' => r = tv ∧ w' = w := by
  refine runs_load (runs_dontFake ?_)
  rw [hdont, if_neg (by simp)]
  exact runs_pure ⟨rfl, rfl⟩

/-- What the caller of `select` gets. -/
theorem reports_select (timeout : Option Timeval) (hdont : w.dontFake = true) :
    Reports (select timeout) w k (k.select.1, timeout.map fun tv =>
      if w.proc.userRateSet then (k.select.2.getD tv).scale w.proc.userRate else tv) := by
  cases timeout with
  | none => exact runs_ask (r := k.select) rfl rfl (runs_pure rfl)
  | some tv =>
    refine (runs_realTimeout (w := w.answering k) hdont).bind ?_
    rintro _ _ ⟨rfl, rfl⟩
    refine runs_ask (r := k.select) rfl rfl (runs_load ?_)
    change (if w.proc.userRateSet then _ else _ : Sys _).Runs seq _ _
    cases h : w.proc.userRateSet with
    | true => exact runs_pure rfl
    | false => exact runs_pure rfl

/-- **`select` is left alone** without a timeout, and with one if what it writes back comes
out as the kernel left it. -/
theorem select_untouched_iff (hdont : w.dontFake = true)
    (hleft : ∀ tv, timeout = some tv → (k.select.2.getD tv).Normal) :
    SelectUntouched timeout w k ↔
      ∀ tv, timeout = some tv → w.proc.GivesBack tv (k.select.2.getD tv) := by
  have hhands : Hands (select timeout) w (.realSelect timeout) := by
    cases timeout with
    | none => exact (halts_ask rfl rfl).bind
    | some tv =>
      refine (runs_realTimeout (w := w.silent) hdont).halts_bind ?_
      rintro _ _ ⟨rfl, rfl⟩
      exact (halts_ask rfl rfl).bind
  have hreports : Reports (select timeout) w k (k.select.1, k.left timeout) ↔
      (timeout.map fun tv => if w.proc.userRateSet then (k.select.2.getD tv).scale w.proc.userRate
        else tv) = k.left timeout := by
    obtain ⟨a, w', hrun, ha⟩ := reports_select timeout (k := k) hdont
    constructor
    · rintro ⟨a', w'', hrun', ha'⟩
      rw [hrun] at hrun'
      cases hrun'
      rw [ha] at ha'
      exact congrArg Prod.snd ha'
    · exact fun h => ⟨a, w', hrun, by rw [ha, h]⟩
  rw [SelectUntouched, and_iff_right hhands, hreports]
  cases timeout with
  | none => simp [KernelAnswer.left]
  | some tv =>
    simp only [Option.map_some, KernelAnswer.left, Option.some.injEq, forall_eq', Proc.GivesBack]
    split
    · exact scale_eq_iff (hleft tv rfl) _
    · exact eq_comm

end Select

/-! ### Condition variables -/

section Conditions

variable {B : Build} {w : World} {env : EnvVar → Option CStr} {clock : ℕ → ClockId → Timespec}
  {c : ClockId} {abstime : Timespec}

/-- The readings of the real clocks, by the number of the call. -/
def World.HasClock (clock : ℕ → ClockId → Timespec) (w : World) : Prop :=
  ∀ n c, w.os n (.realClockGettime c) = some (some (clock n c))

/-- `FAKETIME_FORCE_MONOTONIC_FIX` does not switch the fix off. -/
def forcesFix (env : EnvVar → Option CStr) : Bool :=
  match env .faketimeForceMonotonicFix with
  | some v => v.head? != some '0'
  | none => true

/-- The reading a deadline is counted from, after a reading `realtime` at the call before the
`n`-th one and an earlier reading `faketime`. -/
def Proc.condAnchor (s : Proc) (env : EnvVar → Option CStr) (clock : ℕ → ClockId → Timespec)
    (n : ℕ) (c : ClockId) (realtime faketime : Timespec) : Timespec :=
  if c = .monotonic then
    if !s.fakeMonotonicClock then clock n .monotonic
    else if forcesFix env then realtime else faketime
  else realtime

/-- The wait of `FAKETIME_WAIT_MS`, in a `struct timespec`. -/
def waitMsTimespec (n : ℤ) : Timespec :=
  ⟨(toInt32 n).tdiv 1000, (toInt32 n).tmod 1000 * 1000000⟩

/-- The reading and the length of time that a deadline consists of. -/
def Proc.condParts (s : Proc) (env : EnvVar → Option CStr) (clock : ℕ → ClockId → Timespec)
    (n : ℕ) (c : ClockId) (abstime : Timespec) : Option (Timespec × Timespec) :=
  match env .faketimeWaitMs with
  | some v =>
    match parseLongSetting v with
    | none => none
    | some ms => if ms < 0 then none
      else some (s.condAnchor env clock (n + 3) c (clock (n + 2) c) (clock n c), waitMsTimespec ms)
  | none =>
    if !s.fakeMonotonicClock && c == .monotonic then
      some (clock (n + 3) .monotonic, s.realDistance abstime (clock (n + 2) .monotonic))
    else some (s.condAnchor env clock (n + 2) c (clock n c) (clock n c),
      s.realDistance abstime (clock n c))

theorem runs_condDeadline_parts (tdiff realtime faketime : Timespec) (henv : w.HasEnv env)
    (hclock : w.HasClock clock) :
    (condDeadline c tdiff realtime faketime).Runs seq w fun r w' =>
      r = .ok (timespecadd (w.proc.condAnchor env clock w.now c realtime faketime) tdiff) ∧
        w'.os = w.os := by
  unfold condDeadline Proc.condAnchor
  split
  · refine runs_load ?_
    split
    · exact runs_realClockGettime (hclock _ _) (runs_pure ⟨rfl, rfl⟩)
    · have hneeds : needsForcedMonotonicFix.Runs seq w fun r w' =>
          r = forcesFix env ∧ w'.os = w.os := by
        refine runs_getenv (henv _ _) ?_
        unfold forcesFix
        cases env .faketimeForceMonotonicFix with
        | none => exact runs_pure ⟨rfl, rfl⟩
        | some v => exact runs_pure ⟨rfl, rfl⟩
      refine hneeds.bind ?_
      rintro _ w₁ ⟨rfl, hos⟩
      split
      · exact runs_pure ⟨rfl, hos⟩
      · exact runs_pure ⟨rfl, hos⟩
  · exact runs_pure ⟨rfl, rfl⟩

/-- In a thread that is not faked the faked time is the real one. -/
theorem runs_fakeClockGettime_dontFake (tp : Timespec) (hdont : w.dontFake = true) :
    (fakeClockGettime B c tp).Runs seq w fun r w' => r = (0, tp) ∧ w' = w := by
  refine runs_dontFake ?_
  rw [hdont, if_pos rfl]
  exact runs_pure ⟨rfl, rfl⟩

/-- The wait, if the environment does not fix it. -/
theorem runs_condWait_plain (abstime realtime faketime : Timespec) (henv : w.HasEnv env)
    (hclock : w.HasClock clock) (hms : env .faketimeWaitMs = none) :
    (condWait c abstime realtime faketime).Runs seq w fun r w' =>
      (w'.os = w.os ∧ w'.proc = w.proc) ∧
      if !w.proc.fakeMonotonicClock && c == .monotonic then
        r = .ok (w.proc.realDistance abstime (clock (w.now + 1) .monotonic), realtime) ∧
          w'.now = w.now + 2
      else r = .ok (w.proc.realDistance abstime faketime, realtime) ∧ w'.now = w.now + 1 := by
  refine runs_getenv (henv _ _) ?_
  rw [hms]
  refine runs_load ?_
  change (if !w.proc.fakeMonotonicClock && c == .monotonic then _ else _ : Sys _).Runs seq _ _
  split
  · exact runs_realClockGettime (hclock _ _) (runs_pure ⟨⟨rfl, rfl⟩, rfl, rfl⟩)
  · exact runs_pure ⟨⟨rfl, rfl⟩, rfl, rfl⟩

/-- The wait, if it does. -/
theorem runs_condWait_ms (abstime realtime faketime : Timespec) {v : CStr} {ms : ℤ}
    (henv : w.HasEnv env) (hclock : w.HasClock clock) (hms : env .faketimeWaitMs = some v)
    (hparse : parseLongSetting v = some ms) (hpos : ¬ ms < 0) :
    (condWait c abstime realtime faketime).Runs seq w fun r w' =>
      (w'.os = w.os ∧ w'.proc = w.proc) ∧
        r = .ok (waitMsTimespec ms, clock (w.now + 1) c) ∧ w'.now = w.now + 2 := by
  refine runs_getenv (henv _ _) ?_
  rw [hms]
  dsimp only
  rw [hparse]
  dsimp only
  rw [if_neg hpos]
  exact runs_realClockGettime (hclock _ _) (runs_pure ⟨⟨rfl, rfl⟩, rfl, rfl⟩)

/-- A setting that is not a number of milliseconds ends the process. -/
theorem halts_condWait (abstime realtime faketime : Timespec) {v : CStr} (henv : w.HasEnv env)
    (hms : env .faketimeWaitMs = some v) (hparse : ∀ ms, parseLongSetting v = some ms → ms < 0) :
    ∃ msg, (condWait c abstime realtime faketime).Halts seq w (.exited 1 msg) := by
  have h := run_ask (w := w) (β := Except ℤ (Timespec × Timespec)) rfl (henv w.now .faketimeWaitMs)
  cases hp : parseLongSetting v with
  | none =>
    refine ⟨message "libfaketime: invalid numeric value for FAKETIME_WAIT_MS: " v, (h _).trans ?_⟩
    rw [hms]
    dsimp only
    rw [hp]
    rfl
  | some ms =>
    refine ⟨message "libfaketime: negative value for FAKETIME_WAIT_MS: " v, (h _).trans ?_⟩
    rw [hms]
    dsimp only
    rw [hp]
    dsimp only
    rw [if_pos (hparse ms hp)]
    rfl

/-- The end of `pthread_cond_timedwait_common`, once the deadline is known. -/
def waitUntil : Except ℤ Timespec → Sys ℤ
  | .error result => pure result
  | .ok deadline => realPthreadCondTimedwait (some deadline)

/-- Either the process ends over the setting, or the kernel gets a deadline made of the two
parts. -/
theorem run_pthreadCondTimedwaitCommon (abstime : Timespec) (henv : w.HasEnv env)
    (hclock : w.HasClock clock)
    (hdont : w.dontFake = true) :
    match w.proc.condParts env clock w.now c abstime with
    | none => ∃ msg, (pthreadCondTimedwaitCommon B c abstime).Halts seq w (.exited 1 msg)
    | some (a, l) => ∃ w', w'.os = w.os ∧ (pthreadCondTimedwaitCommon B c abstime).run seq w =
        (realPthreadCondTimedwait (some (timespecadd a l))).run seq w' := by
  unfold pthreadCondTimedwaitCommon
  obtain ⟨_, _, ⟨rfl, rfl⟩, hfake⟩ := (runs_fakeClockGettime_dontFake (B := B) (c := c)
    (w := w.tick) (clock w.now c) hdont).exists_run_bind
  have hstart := run_ask (w := w) (β := ℤ) rfl (hclock w.now c)
  have henv₁ : w.tick.HasEnv env := henv
  have hclock₁ : w.tick.HasClock clock := hclock
  -- once the wait is known, the deadline is
  have hdeadline : ∀ {w₁ : World} (tdiff realtime : Timespec), w₁.os = w.os → w₁.proc = w.proc →
      ∃ w', w'.os = w.os ∧
        (condDeadline c tdiff realtime (clock w.now c) >>= waitUntil).run seq w₁ =
          (realPthreadCondTimedwait (some (timespecadd
            (w.proc.condAnchor env clock w₁.now c realtime (clock w.now c))
            tdiff))).run seq w' := by
    intro w₁ tdiff realtime hos hproc
    have henv' : w₁.HasEnv env := by rw [World.HasEnv, hos]; exact henv
    have hclock' : w₁.HasClock clock := by rw [World.HasClock, hos]; exact hclock
    obtain ⟨_, w₂, ⟨rfl, hos₂⟩, hrun⟩ := (runs_condDeadline_parts (c := c) tdiff realtime
      (clock w.now c) henv' hclock').exists_run_bind
    refine ⟨w₂, hos₂.trans hos, ?_⟩
    rw [hrun, hproc, waitUntil]
  unfold Proc.condParts
  cases hms : env .faketimeWaitMs with
  | some v =>
    have hexits : (∀ ms, parseLongSetting v = some ms → ms < 0) → ∃ msg,
        (pthreadCondTimedwaitCommon B c abstime).Halts seq w (.exited 1 msg) := by
      intro hparse
      obtain ⟨msg, hmsg⟩ := halts_condWait (c := c) abstime (clock w.now c)
        (clock w.now c) henv₁ hms hparse
      exact ⟨msg, (hstart _).trans ((hfake _).trans hmsg.bind)⟩
    dsimp only
    cases hparse : parseLongSetting v with
    | none => exact hexits fun ms h => by rw [hparse] at h; cases h
    | some ms =>
      dsimp only
      by_cases hneg : ms < 0
      · rw [if_pos hneg]
        exact hexits fun ms' h => by rw [hparse] at h; cases h; exact hneg
      · rw [if_neg hneg]
        obtain ⟨_, w₁, ⟨⟨hos, hproc⟩, rfl, hnow⟩, hwait⟩ := (runs_condWait_ms (c := c)
          abstime (clock w.now c) (clock w.now c) henv₁ hclock₁
          hms hparse hneg).exists_run_bind
        obtain ⟨w', hos', hrun⟩ := hdeadline (waitMsTimespec ms)
          (clock (w.now + 2) c) hos hproc
        refine ⟨w', hos', (hstart _).trans ((hfake _).trans ((hwait _).trans ?_))⟩
        rw [hnow] at hrun
        exact hrun
  | none =>
    obtain ⟨_, w₁, ⟨⟨hos, hproc⟩, hparts⟩, hwait⟩ := (runs_condWait_plain (c := c)
      abstime (clock w.now c) (clock w.now c) henv₁ hclock₁
      hms).exists_run_bind
    dsimp only
    split at hparts
    next hmono =>
      obtain ⟨rfl, hnow⟩ := hparts
      rw [if_pos (show (!w.proc.fakeMonotonicClock && c == .monotonic) = true from hmono)]
      obtain ⟨w', hos', hrun⟩ := hdeadline
        (w.proc.realDistance abstime (clock (w.now + 2) .monotonic)) (clock w.now c) hos hproc
      refine ⟨w', hos', (hstart _).trans ((hfake _).trans ((hwait _).trans (hrun.trans ?_)))⟩
      simp only [Bool.and_eq_true, Bool.not_eq_true', beq_iff_eq] at hmono
      rw [Proc.condAnchor, if_pos hmono.2,
        show w.proc.fakeMonotonicClock = false from hmono.1, hnow]
      rfl
    next hmono =>
      obtain ⟨rfl, hnow⟩ := hparts
      rw [if_neg (show ¬ (!w.proc.fakeMonotonicClock && c == .monotonic) = true from hmono)]
      obtain ⟨w', hos', hrun⟩ := hdeadline (w.proc.realDistance abstime (clock w.now c))
        (clock w.now c) hos hproc
      refine ⟨w', hos', (hstart _).trans ((hfake _).trans ((hwait _).trans ?_))⟩
      rw [hnow] at hrun
      exact hrun

/-- **The wait for a condition is left alone**: the kernel is handed a deadline for the same
time, and its answer is what the caller gets. -/
def CondUntouched (B : Build) (c : ClockId) (abstime : Timespec) (w : World) : Prop :=
  (∃ r, Hands (pthreadCondTimedwaitCommon B c abstime) w (.realPthreadCondTimedwait (some r)) ∧
    r.ns = abstime.ns) ∧ ∀ k, Reports (pthreadCondTimedwaitCommon B c abstime) w k k.cond

/-- The time asked for is as far from the reading the wait is added to as the wait is long. -/
def Proc.CondMeets (s : Proc) (env : EnvVar → Option CStr) (clock : ℕ → ClockId → Timespec)
    (n : ℕ) (c : ClockId) (x : ℤ) : Prop :=
  match env .faketimeWaitMs with
  | some v => ∃ ms, parseLongSetting v = some ms ∧ 0 ≤ ms ∧
      AwayFrom (s.condAnchor env clock (n + 3) c (clock (n + 2) c) (clock n c)).ns x
        (toInt32 ms * 1000000)
  | none =>
    if c = .monotonic ∧ s.fakeMonotonicClock = false then
      AwayFrom (clock (n + 3) .monotonic).ns x
        (s.slowed (satNs (x - (clock (n + 2) .monotonic).ns)))
    else AwayFrom (clock n c).ns x (s.slowed (satNs (x - (clock n c).ns)))

theorem ns_waitMsTimespec (n : ℤ) : (waitMsTimespec n).ns = toInt32 n * 1000000 ∧
    -1000000000 < (waitMsTimespec n).tvNsec ∧ (waitMsTimespec n).tvNsec < 1000000000 := by
  have hdiv := Int.mul_tdiv_add_tmod (toInt32 n) 1000
  have hlt := Int.tmod_lt_of_pos (toInt32 n) (show (0 : ℤ) < 1000 by decide)
  have hgt := Int.lt_tmod_of_pos (toInt32 n) (show (0 : ℤ) < 1000 by decide)
  simp only [waitMsTimespec, Timespec.ns_eq]
  omega

theorem ns_timespecadd_waitMs {a : Timespec} (ha : a.Normal) (n : ℤ) :
    (timespecadd a (waitMsTimespec n)).ns = satNs (a.ns + toInt32 n * 1000000) := by
  obtain ⟨hns, hgt, hlt⟩ := ns_waitMsTimespec n
  obtain ⟨h0, h1⟩ := ha
  rw [← hns]
  exact value_timeradd2 (by simp only [Timespec.pair, secToNSec]; omega)
    (by simp only [Timespec.pair, secToNSec]; omega)

theorem normal_condAnchor {s : Proc} {n : ℕ} {realtime faketime : Timespec}
    (hn : ∀ n c, (clock n c).Normal) (hreal : realtime.Normal) (hfake : faketime.Normal) :
    (s.condAnchor env clock n c realtime faketime).Normal := by
  unfold Proc.condAnchor
  split
  · split
    · exact hn _ _
    · split
      · exact hreal
      · exact hfake
  · exact hreal

/-- The two parts on numbers. -/
theorem condParts_meets_iff {s : Proc} {n : ℕ} (hn : ∀ n c, (clock n c).Normal)
    (habs : abstime.Normal) (hfit : Fits abstime.ns) :
    (∃ a l, s.condParts env clock n c abstime = some (a, l) ∧ (timespecadd a l).ns = abstime.ns) ↔
      s.CondMeets env clock n c abstime.ns := by
  unfold Proc.condParts Proc.CondMeets
  cases env .faketimeWaitMs with
  | some v =>
    dsimp only
    cases parseLongSetting v with
    | none => simp
    | some ms =>
      dsimp only
      -- a number of milliseconds replaces the deadline, and a negative one is refused
      by_cases hneg : ms < 0
      · rw [if_pos hneg]
        constructor
        · rintro ⟨a, l, h, -⟩
          cases h
        · rintro ⟨ms', h, hpos, -⟩
          cases h
          omega
      · rw [if_neg hneg]
        have hanchor : (s.condAnchor env clock (n + 3) c (clock (n + 2) c) (clock n c)).Normal :=
          normal_condAnchor hn (hn _ c) (hn n c)
        have hns := ns_timespecadd_waitMs hanchor ms
        simp only [Option.some.injEq, Prod.mk.injEq, exists_eq_left']
        constructor
        · rintro ⟨a, l, ⟨rfl, rfl⟩, h⟩
          rw [hns, satNs_add_eq_iff hfit] at h
          exact ⟨by omega, h⟩
        · rintro ⟨-, h⟩
          rw [← satNs_add_eq_iff hfit, ← hns] at h
          exact ⟨_, _, ⟨rfl, rfl⟩, h⟩
  | none =>
    have hadd : ∀ a b : Timespec, a.Normal → b.Normal →
        ((timespecadd a (s.realDistance abstime b)).ns = abstime.ns ↔
          AwayFrom a.ns abstime.ns (s.slowed (satNs (abstime.ns - b.ns)))) := by
      intro a b ha hb
      rw [ns_timespecadd ha.stored (normal_realDistance habs.stored hb.stored).stored,
        ns_realDistance_slowed habs.stored hb.stored, satNs_add_eq_iff hfit]
    dsimp only
    -- without one, the distance is counted from the clock the wait is on, faked or real
    by_cases hmono : c = .monotonic ∧ s.fakeMonotonicClock = false
    · rw [if_pos (by rw [hmono.1, hmono.2]; rfl), if_pos hmono]
      simp only [Option.some.injEq, Prod.mk.injEq]
      constructor
      · rintro ⟨a, l, ⟨rfl, rfl⟩, h⟩
        exact (hadd _ _ (hn _ _) (hn _ _)).mp h
      · exact fun h => ⟨_, _, ⟨rfl, rfl⟩, (hadd _ _ (hn _ _) (hn _ _)).mpr h⟩
    · have hanchor : s.condAnchor env clock (n + 2) c (clock n c) (clock n c) = clock n c := by
        unfold Proc.condAnchor
        split
        next hc =>
          rw [if_neg (by simpa using fun h => hmono ⟨hc, h⟩)]
          split <;> rfl
        next => rfl
      rw [if_neg (by simpa using fun h h' => hmono ⟨h', h⟩), if_neg hmono, hanchor]
      simp only [Option.some.injEq, Prod.mk.injEq]
      constructor
      · rintro ⟨a, l, ⟨rfl, rfl⟩, h⟩
        exact (hadd _ _ (hn _ _) (hn _ _)).mp h
      · exact fun h => ⟨_, _, ⟨rfl, rfl⟩, (hadd _ _ (hn _ _) (hn _ _)).mpr h⟩

/-- **The wait for a condition is left alone** if the reading and the wait come out at the
time asked for. -/
theorem condTimedwait_untouched_iff (henv : w.HasEnv env) (hclock : w.HasClock clock)
    (hn : ∀ n c, (clock n c).Normal) (hdont : w.dontFake = true) (habs : abstime.Normal)
    (hfit : Fits abstime.ns) :
    CondUntouched B c abstime w ↔ w.proc.CondMeets env clock w.now c abstime.ns := by
  rw [← condParts_meets_iff hn habs hfit]
  have hsilent := run_pthreadCondTimedwaitCommon (B := B) (c := c) abstime
    (show w.silent.HasEnv env from henv) (show w.silent.HasClock clock from hclock) hdont
  have hanswer : ∀ k, _ := fun k => run_pthreadCondTimedwaitCommon (B := B) (c := c) abstime
    (show (w.answering k).HasEnv env from henv) (show (w.answering k).HasClock clock from hclock)
    hdont
  change match w.proc.condParts env clock w.now c abstime with
    | none => _
    | some (a, l) => _ at hsilent
  have hsame : ∀ k, match w.proc.condParts env clock w.now c abstime with
    | none => _
    | some (a, l) => _ := hanswer
  cases hparts : w.proc.condParts env clock w.now c abstime with
  | none =>
    rw [hparts] at hsilent
    obtain ⟨msg, hmsg⟩ := hsilent
    constructor
    · rintro ⟨⟨r, hr, -⟩, -⟩
      cases Halts.unique hr hmsg
    · rintro ⟨a, l, h, -⟩
      cases h
  | some p =>
    obtain ⟨a, l⟩ := p
    rw [hparts] at hsilent
    obtain ⟨w₁, hos, hrun⟩ := hsilent
    have hhands : Hands (pthreadCondTimedwaitCommon B c abstime) w
        (.realPthreadCondTimedwait (some (timespecadd a l))) := by
      refine hrun.trans (halts_ask rfl ?_)
      rw [hos]
      rfl
    constructor
    · rintro ⟨⟨r, hr, hR⟩, -⟩
      have heq := hr.unique hhands
      simp only [Op.realPthreadCondTimedwait.injEq, Option.some.injEq] at heq
      exact ⟨a, l, rfl, by rw [← heq]; exact hR⟩
    · rintro ⟨a', l', h, hR⟩
      cases h
      refine ⟨⟨_, hhands, hR⟩, fun k => ?_⟩
      have hk := hsame k
      rw [hparts] at hk
      obtain ⟨w₂, hos₂, hrun₂⟩ := hk
      refine ⟨k.cond, w₂.tick, hrun₂.trans ?_, rfl⟩
      refine (run_perform (I := sys) _).trans ?_
      exact World.ask_of_some (f := fun _ w => w) (by rw [hos₂]; rfl)

end Conditions

/-! ### The four functions -/

/-- **What a thread that is not faked asks of the kernel is left alone exactly where no
conversion is made or the conversion cancels out.** In every state of a thread with
`dont_fake` set, whatever the base, the offset and the rate, for every request and every answer
of the kernel:

* a sleep is left alone unless it is until an absolute time on a faked clock, and then if that
  time is as far from the start time as from the base at the rate of real time; the raw system
  call is converted under the same circumstances, if it is intercepted at all;
* `select` is left alone without a timeout, and with one if the timeout the kernel leaves is
  the one it was given or, if there is a rate, is not changed by the rate to the microsecond;
* `pthread_cond_timedwait` is left alone if `FAKETIME_WAIT_MS` is not set (or happens to be the
  wait asked for) and the rate does not change the length of the wait, where for a monotonic
  clock that is not faked the wait is also counted from two readings. -/
theorem waits_untouched_iff {B : Build} {w : World} {env : EnvVar → Option CStr}
    {clock : ℕ → ClockId → Timespec} (henv : w.HasEnv env) (hclock : w.HasClock clock)
    (hn : ∀ n c, (clock n c).Normal) (hs : w.proc.TimesStored) (hdont : w.dontFake = true) :
    (∀ c abstime req, req.Normal → Fits req.ns →
      (SleepUntouched (clockNanosleep c abstime req) (.realClockNanosleep c abstime) req w ↔
        (Converted w.proc env c abstime → w.proc.Meets c req.ns))) ∧
    (∀ c abstime req, req.Normal → Fits req.ns →
      (SleepUntouched (syscallNanosleep c abstime req) (.syscallClockNanosleep c abstime) req w ↔
        (Converted w.proc env c (Intercepted env && abstime) → w.proc.Meets c req.ns))) ∧
    (∀ timeout k, (∀ tv, timeout = some tv → (k.select.2.getD tv).Normal) →
      (SelectUntouched timeout w k ↔
        ∀ tv, timeout = some tv → w.proc.GivesBack tv (k.select.2.getD tv))) ∧
    ∀ c abstime, abstime.Normal → Fits abstime.ns →
      (CondUntouched B c abstime w ↔ w.proc.CondMeets env clock w.now c abstime.ns) :=
  ⟨fun _ _ _ hreq hfit => clockNanosleep_untouched_iff henv hdont hs hreq.stored hfit,
    fun _ _ _ hreq hfit => syscallNanosleep_untouched_iff henv hdont hs hreq.stored hfit,
    fun _ _ hleft => select_untouched_iff hdont hleft,
    fun _ _ habs hfit => condTimedwait_untouched_iff henv hclock hn hdont habs hfit⟩

/-- A thread of an excluded command of `FAKETIME='+50 x2'`. -/
def excludedWorld : World :=
  { calmWorld doubleSpeedEnv (fun _ _ => ⟨60, 0⟩) ⟨0, 0⟩ { doubleSpeed with ftMode := .noop } with
    dontFake := true }

/-- A relative sleep of ten seconds is left alone, and so is a `select` without a timeout. -/
theorem excluded_relative_wait_untouched :
    SleepUntouched (clockNanosleep .realtime false ⟨10, 0⟩) (.realClockNanosleep .realtime false)
        ⟨10, 0⟩ excludedWorld ∧
      SelectUntouched none excludedWorld ⟨(0, none), (0, none), 0⟩ := by
  have hstored : excludedWorld.proc.TimesStored :=
    ⟨by decide, fun c => by cases c <;> exact (by decide : (⟨50, 0⟩ : Timespec).Stored)⟩
  have henv : excludedWorld.HasEnv doubleSpeedEnv := fun _ _ => rfl
  have hclock : excludedWorld.HasClock fun _ _ => ⟨60, 0⟩ := fun _ _ => rfl
  obtain ⟨hsleep, -, hselect, -⟩ := waits_untouched_iff (B := plainBuild) henv hclock
    (fun _ _ => by decide) hstored rfl
  exact ⟨(hsleep .realtime false ⟨10, 0⟩ (by decide) (by decide)).mpr fun h =>
    absurd h.1 (by decide), (hselect none _ nofun).mpr nofun⟩

/-- Its sleep until `⟨200, 0⟩` ends at `⟨100, 0⟩` on the real clock; of a timeout of ten seconds
that has four left it is told that eight are left; and its wait for a condition until
`⟨200, 0⟩` ends at `⟨130, 0⟩`. -/
theorem excluded_wait_converted :
    Hands (clockNanosleep .realtime true ⟨200, 0⟩) excludedWorld
        (.realClockNanosleep .realtime true ⟨100, 0⟩) ∧
      Hands (syscallNanosleep .realtime true ⟨200, 0⟩) excludedWorld
        (.syscallClockNanosleep .realtime true ⟨100, 0⟩) ∧
      Reports (select (some ⟨10, 0⟩)) excludedWorld ⟨(0, none), (1, some ⟨4, 0⟩), 0⟩
        (1, some ⟨8, 0⟩) ∧
      Hands (pthreadCondTimedwaitCommon plainBuild .realtime ⟨200, 0⟩) excludedWorld
        (.realPthreadCondTimedwait (some ⟨130, 0⟩)) ∧
      ¬ SleepUntouched (clockNanosleep .realtime true ⟨200, 0⟩)
        (.realClockNanosleep .realtime true) ⟨200, 0⟩ excludedWorld := by
  have hrequest : excludedWorld.proc.fromStart .realtime ⟨200, 0⟩ = ⟨100, 0⟩ := by decide +kernel
  have hdistance : excludedWorld.proc.realDistance ⟨200, 0⟩ ⟨60, 0⟩ = ⟨70, 0⟩ := by decide +kernel
  have hscale : (⟨4, 0⟩ : Timeval).scale 2 = ⟨8, 0⟩ := by decide +kernel
  have hsleep : Hands (clockNanosleep .realtime true ⟨200, 0⟩) excludedWorld
      (.realClockNanosleep .realtime true ⟨100, 0⟩) := by
    rw [← hrequest]
    rfl
  refine ⟨hsleep, ?_, ?_, ?_, ?_⟩
  · rw [← hrequest]
    rfl
  · rw [← hscale]
    exact ⟨_, _, rfl, rfl⟩
  · rw [show (⟨130, 0⟩ : Timespec) = timespecadd ⟨60, 0⟩ ⟨70, 0⟩ from rfl, ← hdistance]
    rfl
  · rintro ⟨⟨r, hr, hns⟩, -⟩
    have heq := hr.unique hsleep
    simp only [Op.realClockNanosleep.injEq, true_and] at heq
    rw [heq] at hns
    exact absurd hns (by decide)

end LibFaketime
