import LibFaketime.ExcludedWaits

/-!
# Two ways to the clock

`clock_gettime` and the raw system call of the same number should report one clock. The raw
call is only intercepted while `FAKETIME` or `FAKETIME_TIMESTAMP_FILE` is in the environment;
then it does what `clock_gettime` does, in every state and under every setting. A process that
is configured by `$HOME/.faketimerc` or `/etc/faketimerc` gets the real time from it, so that
the two agree only where the configuration leaves the clock alone
(`LibFaketime.syscall_reports_same_iff`).
-/

namespace LibFaketime

open Effects Effects.Prog Saturate

/-! ### An instant -/

/-- The world at an instant: the real clocks show `now`, however often they are asked, by a
function of the C library or by a system call, and nothing else changes either. -/
def World.instant (w : World) (now : ClockId → Option Timespec) : World :=
  { w with
    os := fun _ o => match o with
      | .realClockGettime c => some (now c)
      | .syscallClockGettime c => some (now c)
      | o => w.os 0 o
    file := fun _ => w.file 0 }

/-- Nothing outside the process changes. -/
structure World.Still (w : World) : Prop where
  os : ∀ n o, w.os n o = w.os 0 o
  file : ∀ n, w.file n = w.file 0

/-- Nothing outside the process changes, and the two worlds differ at most in the number of
calls that have been made. -/
def SameBut (w w' : World) : Prop := w.Still ∧ ∃ m, w' = { w with now := m }

section Still

variable {w w' : World}

theorem World.still_instant (now : ClockId → Option Timespec) : (w.instant now).Still :=
  ⟨fun _ o => by cases o <;> rfl, fun _ => rfl⟩

theorem ask_matches {o : Op} {f : o.Ans → World → World} (hw : SameBut w w')
    (hf : ∀ r v v', SameBut v v' → SameBut (f r v) (f r v')) :
    Matches SameBut (w.ask o f) (w'.ask o f) := by
  obtain ⟨hstill, m, rfl⟩ := hw
  unfold World.ask
  rw [hstill.os w.now, show ({ w with now := m } : World).os = w.os from rfl, hstill.os m]
  cases w.os 0 o with
  | none => exact .error
  | some r => exact .ok (hf r _ _ ⟨⟨hstill.os, hstill.file⟩, m + 1, rfl⟩)

/-- **No call can tell how many calls have been made before it.** -/
theorem seq_matches (w w' : World) (o : Op) (hw : SameBut w w') :
    Matches SameBut (seq w o) (seq w' o) := by
  -- the calls the oracle answers
  have hask : ∀ {o : Op} {f : o.Ans → World → World},
      (∀ r v v', SameBut v v' → SameBut (f r v) (f r v')) →
      Matches SameBut (w.ask o f) (w'.ask o f) := fun hf => ask_matches hw hf
  cases o
  case ftSemLock =>
    rw [seq_ftSemLock, seq_ftSemLock]
    have hheld : w'.semHeld = w.semHeld := by
      obtain ⟨-, m, rfl⟩ := hw
      rfl
    rw [hheld]
    split
    · exact .error
    · refine hask ?_
      rintro r v _ ⟨hstill, m, rfl⟩
      exact ⟨⟨hstill.os, hstill.file⟩, m, rfl⟩
  case ftSemUnlock =>
    rw [seq_ftSemUnlock, seq_ftSemUnlock]
    refine hask ?_
    rintro r v _ ⟨hstill, m, rfl⟩
    exact ⟨⟨hstill.os, hstill.file⟩, m, rfl⟩
  case write bytes =>
    rw [seq_write, seq_write]
    refine hask ?_
    rintro r v _ ⟨hstill, m, rfl⟩
    exact ⟨⟨hstill.os, hstill.file⟩, m, rfl⟩
  case setenv x value =>
    rw [seq_setenv, seq_setenv]
    refine hask ?_
    rintro r v _ ⟨hstill, m, rfl⟩
    cases r with
    | false => exact ⟨hstill, m, rfl⟩
    | true =>
      refine ⟨⟨fun n o => ?_, hstill.file⟩, m, rfl⟩
      cases o
      case getenv y =>
        change (if y = x then _ else v.os n (.getenv y)) = if y = x then _ else v.os 0 (.getenv y)
        rw [hstill.os n]
      all_goals exact hstill.os n _
  case openRead path =>
    obtain ⟨hstill, m, rfl⟩ := hw
    rw [seq_openRead, seq_openRead, show ({ w with now := m } : World).file = w.file from rfl,
      hstill.file w.now, hstill.file m]
    cases w.file 0 path with
    | none => exact .ok ⟨⟨hstill.os, hstill.file⟩, m + 1, rfl⟩
    | some contents => exact .ok ⟨⟨hstill.os, hstill.file⟩, m + 1, rfl⟩
  case timeMutexLock =>
    obtain ⟨hstill, m, rfl⟩ := hw
    rw [seq_timeMutexLock, seq_timeMutexLock, show ({ w with now := m } : World).mutexHeld =
      w.mutexHeld from rfl]
    split
    · exact .error
    · exact .ok ⟨⟨hstill.os, hstill.file⟩, m, rfl⟩
  case exit => exact .error
  case stalled => exact .error
  case load | store | dontFake | setDontFake | timeMutexUnlock | readShared | writeShared | read |
      munmapStss | spawn | perror =>
    obtain ⟨hstill, m, rfl⟩ := hw
    exact .ok ⟨⟨hstill.os, hstill.file⟩, m, rfl⟩
  all_goals exact hask fun _ _ _ h => h

/-- Nor can a program. -/
theorem World.Still.answer_eq {α : Type} (hw : w.Still) (m : ℕ) (p : Sys α) :
    p.answer seq { w with now := m } = p.answer seq w :=
  (answer_eq_of_matches (run_matches seq_matches p ⟨hw, m, rfl⟩)).symm

end Still

/-! ### What `clock_gettime` reports -/

/-- **A setting in force**: in any mode, with or without ticks, but without limits and replay.
The configuration may be read again, and comes out the same. -/
structure InForce (B : Build) (w : World) : Prop where
  calm : Calm w
  tries : 0 < B.retries
  noLimits : w.proc.limitedFaking = false
  noReplay : w.proc.infileSet = false
  mutexFree : w.mutexHeld = false
  semFree : w.semHeld = false
  fixed : ∀ w₁, w₁.os = w.os → w₁.file = w.file → w₁.proc.core = w.proc.core →
    ∃ w₂, (refreshConfig B).run seq w₁ = .ok ((), w₂) ∧ Like w₁ w₂ ∧ w₂.shm = w₁.shm

/-- What the locked part of a query makes of a reading. -/
def World.outcome (w : World) (c : ClockId) (tp : Timespec) : Outcome :=
  match w.proc.ftMode with
  | .freeze => .faked (if w.proc.userFakedTimeSet then w.proc.userFakedTimeTimespec else tp)
  | .startAt => .faked (if w.proc.userPerTickIncSet then
        if w.proc.sharedSemInitialized then
          timespecadd w.proc.userFakedTimeTimespec (timespecmul w.proc.userPerTickInc w.shm.ticks)
        else tp
      else w.proc.startAt c tp)
  | .noop => .abort (-1) tp

/-- The shared block after a query that comes to the switch on the mode: a tick is counted. -/
def World.ticked (w : World) : FtShared :=
  if w.proc.ftMode = .startAt ∧ w.proc.userPerTickIncSet = true ∧
      w.proc.sharedSemInitialized = true then
    { w.shm with ticks := (w.shm.ticks + 1) % 2 ^ 64 }
  else w.shm

/-- What `clock_gettime` returns and reports of a reading. -/
def World.told (w : World) (c : ClockId) (tp : Timespec) : ℤ × Timespec :=
  if w.dontFake || (c.IsMonotonic && !w.proc.fakeMonotonicClock) then (0, tp)
  else if c.IsCpu then (0, if w.proc.userRateSet then timespecmul tp w.proc.userRate else tp)
  else (w.outcome c tp).result

section Report

variable {B : Build} {w : World} {c : ClockId} {tp : Timespec}

theorem runs_nextTime (hw : Calm w) (ht : 0 < B.retries) (hfree : w.semHeld = false) :
    (nextTime B.retries tp (·.userPerTickInc)).Runs seq w fun r w' =>
      r = (if w.proc.sharedSemInitialized then
        timespecadd w.proc.userFakedTimeTimespec (timespecmul w.proc.userPerTickInc w.shm.ticks)
        else tp) ∧ Like w w' ∧ w'.shm = (if w.proc.sharedSemInitialized then
          { w.shm with ticks := (w.shm.ticks + 1) % 2 ^ 64 } else w.shm) := by
  obtain ⟨n, hn⟩ : ∃ n, B.retries = n + 1 := ⟨B.retries - 1, by omega⟩
  rw [hn]
  refine runs_load ?_
  split
  next hshared =>
    refine runs_ftSemLock hfree (hw.lock _) (runs_load (runs_readShared (runs_load ?_)))
    refine runs_writeShared (runs_ftSemUnlock (hw.unlock _) ?_)
    exact runs_pure ⟨rfl, ⟨rfl, rfl, rfl, hfree.symm, rfl, rfl⟩, rfl⟩
  next => exact runs_pure ⟨rfl, .refl w, rfl⟩

/-- The locked part of a query that the limits let through and whose refresh leaves the settings
as they are. -/
theorem runs_fakeLocked_let {b : Bool} (hcalm : Calm w) (ht : 0 < B.retries)
    (hlet : (limitsAndSpawn c tp).Runs seq { w with mutexHeld := b } fun r w' =>
      r = false ∧ Counted { w with mutexHeld := b } w')
    (hin : w.proc.infileSet = false)
    (hfree : w.proc.userPerTickIncSet = true → w.semHeld = false)
    (hkept : ∀ w₁, Counted { w with mutexHeld := b } w₁ →
      ∃ w₂, (refreshConfig B).run seq w₁ = .ok ((), w₂) ∧ Like w₁ w₂ ∧ w₂.shm = w₁.shm) :
    (fakeLocked B c tp).Runs seq { w with mutexHeld := b } fun o w' =>
      o = w.outcome c tp ∧ Like { w with mutexHeld := b } w' ∧ w'.shm = w.ticked := by
  refine hlet.bind ?_
  rintro _ w₁ ⟨rfl, hcounted⟩
  obtain ⟨h₁, hshm₁⟩ := hcounted.like
  obtain ⟨w₂, hr, h₂, hshm₂⟩ := hkept w₁ hcounted
  have h := h₁.trans h₂
  have hshm : w₂.shm = w.shm := hshm₂.trans hshm₁
  refine Runs.bind (Q := fun _ w' => w' = w₂) ⟨(), w₂, hr, rfl⟩ ?_
  rintro - w₂ rfl
  refine runs_load ?_
  rw [h.field Proc.infileSet, hin, if_neg (by simp)]
  have hout : w₂.outcome c tp = w.outcome c tp := by
    have hproc := h.field fun s => ({ w with proc := s } : World).outcome c tp
    rw [← show ({ w with proc := w.proc } : World).outcome c tp = w.outcome c tp from rfl,
      ← hproc, World.outcome, World.outcome, hshm]
  have hticked : w₂.ticked = w.ticked := by
    have hproc := h.field fun s => ({ w with proc := s } : World).ticked
    rw [← show ({ w with proc := w.proc } : World).ticked = w.ticked from rfl, ← hproc,
      World.ticked, World.ticked, hshm]
  rw [← hout, ← hticked]
  refine runs_load ?_
  unfold World.outcome World.ticked
  cases hmode : w₂.proc.ftMode with
  | freeze => exact runs_pure ⟨rfl, h, by rw [if_neg (by simp)]⟩
  | startAt =>
    dsimp only
    split
    next htick =>
      have hcalm' : Calm { w with mutexHeld := b } :=
        ⟨hcalm.clock, hcalm.lock, hcalm.unlock, hcalm.write⟩
      have hset : w.proc.userPerTickIncSet = true :=
        (h.field Proc.userPerTickIncSet).symm.trans htick
      refine (runs_nextTime (hcalm'.like h) ht (h.semHeld.trans (hfree hset))).bind ?_
      rintro _ w₃ ⟨rfl, h₃, hshm₃⟩
      refine runs_pure ⟨rfl, h.trans h₃, ?_⟩
      rw [hshm₃]
      simp only [htick, true_and]
    next htick => exact runs_pure ⟨rfl, h, by rw [if_neg fun hall => htick hall.2.1]⟩
  | noop => exact runs_pure ⟨rfl, h, by rw [if_neg (by simp)]⟩

/-- Without limits every query is let through. -/
theorem runs_fakeLocked_kept {b : Bool} (hcalm : Calm w) (ht : 0 < B.retries)
    (hlim : w.proc.limitedFaking = false) (hin : w.proc.infileSet = false)
    (hfree : w.semHeld = false) (hkept : ∀ w₁, Counted { w with mutexHeld := b } w₁ →
      ∃ w₂, (refreshConfig B).run seq w₁ = .ok ((), w₂) ∧ Like w₁ w₂ ∧ w₂.shm = w₁.shm) :
    (fakeLocked B c tp).Runs seq { w with mutexHeld := b } fun o w' =>
      o = w.outcome c tp ∧ Like { w with mutexHeld := b } w' ∧ w'.shm = w.ticked :=
  runs_fakeLocked_let hcalm ht (runs_limitsAndSpawn (w := { w with mutexHeld := b }) hlim) hin
    (fun _ => hfree) hkept

theorem runs_fakeLocked_inForce (hs : InForce B w) (b : Bool) :
    (fakeLocked B c tp).Runs seq { w with mutexHeld := b } fun o w' =>
      o = w.outcome c tp ∧ Like { w with mutexHeld := b } w' := by
  refine (runs_fakeLocked_kept hs.calm hs.tries hs.noLimits hs.noReplay hs.semFree
    fun w₁ hcounted => ?_).mono fun _ _ h => ⟨h.1, h.2.1⟩
  exact hs.fixed w₁ hcounted.like.1.os hcounted.like.1.file hcounted.like.1.core

theorem runs_fakeClockGettime_inForce (hs : InForce B w) :
    (fakeClockGettime B c tp).Runs seq w fun r _ => r = if w.dontFake then (0, tp)
      else if c.IsCpu then (0, if w.proc.userRateSet then timespecmul tp w.proc.userRate else tp)
      else (w.outcome c tp).result := by
  by_cases hdont : w.dontFake = true
  · refine runs_dontFake ?_
    rw [hdont, if_pos rfl, if_pos rfl]
    exact runs_pure rfl
  · by_cases hcpu : c.IsCpu = true
    · refine runs_dontFake ?_
      rw [if_neg hdont, if_pos hcpu, if_neg hdont, if_pos hcpu]
      exact runs_load (runs_pure rfl)
    · rw [if_neg hdont, if_neg hcpu]
      have hsaves : w.semHeld = true →
          (w.proc.sharedSemInitialized && w.proc.outfileOpen) = false := by
        rw [hs.semFree]
        exact nofun
      exact (runs_fakeClockGettime_of_locked (V := (· = w)) (by simpa using hdont) hcpu hs.mutexFree
        hs.tries (by rintro _ rfl; exact ⟨hs.calm, hs.mutexFree, hsaves⟩)
        ((runs_fakeLocked_inForce hs _).mono fun _ _ h => ⟨h.1, w, rfl, h.2⟩)).mono fun _ _ h => h.1

/-- **What `clock_gettime` answers at an instant.** -/
theorem answer_clockGettime {now : ClockId → Option Timespec} (hs : InForce B (w.instant now)) :
    (clockGettime B c).answer seq (w.instant now) = .ok (match now c with
      | none => (-1, none)
      | some tp => ((w.told c tp).1, some (w.told c tp).2)) := by
  refine Runs.answer_eq (Q := fun _ => True) ?_
  refine runs_realClockGettime (r := now c) rfl ?_
  cases now c with
  | none => exact runs_pure ⟨rfl, trivial⟩
  | some tp =>
    refine runs_load ?_
    have htick : InForce B (w.instant now).tick :=
      ⟨⟨hs.calm.clock, hs.calm.lock, hs.calm.unlock, hs.calm.write⟩, hs.tries, hs.noLimits,
        hs.noReplay, hs.mutexFree, hs.semFree, hs.fixed⟩
    have hcond : ((w.instant now).tick.proc.fakeMonotonicClock || !c.IsMonotonic) =
        !(c.IsMonotonic && !w.proc.fakeMonotonicClock) := by
      change (w.proc.fakeMonotonicClock || !c.IsMonotonic) = _
      cases w.proc.fakeMonotonicClock <;> cases c.IsMonotonic <;> rfl
    dsimp only
    rw [hcond]
    unfold World.told
    cases hmono : (c.IsMonotonic && !w.proc.fakeMonotonicClock) with
    | true =>
      rw [Bool.or_true, if_pos rfl, if_neg (by simp)]
      exact runs_pure ⟨rfl, trivial⟩
    | false =>
      rw [Bool.or_false, Bool.not_false, if_pos rfl]
      refine (runs_fakeClockGettime_inForce htick).bind ?_
      rintro _ w' rfl
      exact runs_pure ⟨rfl, trivial⟩

end Report

/-! ### Where the clock is left alone -/

/-- The rate, if there is one, does not change a length of up to `L` nanoseconds. -/
def Proc.RateIdle (s : Proc) (L : ℤ) : Prop :=
  s.userRateSet = true → 1 ≤ s.userRate ∧ (s.userRate - 1) * L < 1

/-- **The setting leaves the clock alone**: the thread or the clock is not faked; a clock of
processor time is not scaled; the time stands still without having been set; ticks are asked
for without the shared memory they are counted in; or the clock starts at the time it was
started at, at the rate of real time. -/
def World.LeavesAlone (w : World) (c : ClockId) : Prop :=
  w.dontFake = true ∨ (c.IsMonotonic = true ∧ w.proc.fakeMonotonicClock = false) ∨
    if c.IsCpu then w.proc.RateIdle (nsMax - 1)
    else match w.proc.ftMode with
      | .freeze => w.proc.userFakedTimeSet = false
      | .startAt =>
        if w.proc.userPerTickIncSet then w.proc.sharedSemInitialized = false
        else w.proc.userFakedTimeTimespec.ns = (w.proc.ftplStarttime.of c).ns ∧
          w.proc.RateIdle (max (w.proc.ftplStarttime.of c).ns
            (nsMax - 1 - (w.proc.ftplStarttime.of c).ns))
      | .noop => False

section Alone

variable {s : Proc} {w : World} {c : ClockId} {t : Timespec}

theorem trunc_mul_eq_iff {x : ℤ} {r : ℚ} (hr : 0 < r) (hx : x ≠ 0) :
    trunc ((x : ℚ) * r) = x ↔ 1 ≤ r ∧ (r - 1) * |x| < 1 := by
  have hpos : ∀ {y : ℤ}, 0 < y → (⌊(y : ℚ) * r⌋ = y ↔ 1 ≤ r ∧ (r - 1) * y < 1) := by
    intro y hy
    have hy' : (0 : ℚ) < y := by exact_mod_cast hy
    rw [Int.floor_eq_iff]
    constructor
    · rintro ⟨h1, h2⟩
      exact ⟨by nlinarith, by linarith⟩
    · rintro ⟨h1, h2⟩
      exact ⟨by nlinarith, by linarith⟩
  rcases lt_or_gt_of_ne hx with hneg | hgt
  · have hlt : (x : ℚ) * r < 0 := mul_neg_of_neg_of_pos (by exact_mod_cast hneg) hr
    rw [trunc_of_neg hlt, abs_of_neg hneg, ← hpos (y := -x) (by omega)]
    rw [show ((-x : ℤ) : ℚ) * r = -((x : ℚ) * r) by push_cast; ring, Int.floor_neg]
    omega
  · have hge : (0 : ℚ) ≤ (x : ℚ) * r := mul_nonneg (by exact_mod_cast hgt.le) hr.le
    rw [trunc_of_nonneg hge, abs_of_pos hgt]
    exact hpos hgt

/-- The lengths that the rate leaves alone. -/
theorem scaled_eq_self_iff (hr : s.RatePositive) {x : ℤ} (hlo : nsMin < x) (hhi : x < nsMax) :
    s.scaled x = x ↔ x = 0 ∨ s.RateIdle |x| := by
  unfold Proc.scaled Proc.RateIdle
  by_cases hset : s.userRateSet = true
  · rw [if_pos hset]
    simp only [hset, forall_const]
    have hsat : ∀ y, satNs y = x ↔ y = x := by
      intro y
      unfold satNs clamp
      omega
    rw [hsat]
    rcases eq_or_ne x 0 with rfl | hx
    · simp [trunc]
    · rw [trunc_mul_eq_iff (hr hset) hx]
      simp [hx]
  · rw [if_neg hset]
    simp [hset]

/-- A rate that leaves the longest lengths alone leaves all of them alone. -/
theorem forall_scaled_eq_iff (hr : s.RatePositive) {lo hi : ℤ} (hlo : 0 ≤ lo) (hlo' : lo < -nsMin)
    (hhi : 0 ≤ hi) (hhi' : hi < nsMax) (hpos : 0 < max lo hi) :
    (∀ d, -lo ≤ d → d ≤ hi → s.scaled d = d) ↔ s.RateIdle (max lo hi) := by
  constructor
  · intro h
    -- the longest length there is, in one direction or the other
    rcases le_total lo hi with hle | hle
    · rw [max_eq_right hle] at hpos ⊢
      rcases (scaled_eq_self_iff hr (by omega) (by omega)).mp (h hi (by omega) le_rfl) with h0 | h0
      · omega
      · rwa [abs_of_pos hpos] at h0
    · rw [max_eq_left hle] at hpos ⊢
      rcases (scaled_eq_self_iff hr (by omega) (by omega)).mp (h (-lo) le_rfl (by omega)) with
        h0 | h0
      · omega
      · rwa [abs_neg, abs_of_pos hpos] at h0
  · intro h d hd hd'
    refine (scaled_eq_self_iff hr (by omega) (by omega)).mpr (Or.inr fun hset => ?_)
    obtain ⟨h1, h2⟩ := h hset
    refine ⟨h1, lt_of_le_of_lt ?_ h2⟩
    have habs : |d| ≤ max lo hi := abs_le.mpr ⟨by omega, by omega⟩
    exact mul_le_mul_of_nonneg_left (by exact_mod_cast habs) (by linarith)

/-- What a reading of a real clock can be. -/
def Timespec.IsReading (t : Timespec) : Prop := t.Normal ∧ 0 ≤ t.ns ∧ t.ns < nsMax

theorem Timespec.eq_iff_ns {a : Timespec} (ha : a.Normal) (ht : t.IsReading) :
    a = t ↔ a.ns = t.ns :=
  ⟨fun h => by rw [h], Timespec.ext_ns ha ht.1⟩

/-- A statement about all readings is one about their nanoseconds. -/
theorem forall_reading {P : ℤ → Prop} :
    (∀ t : Timespec, t.IsReading → P t.ns) ↔ ∀ x, 0 ≤ x → x < nsMax → P x := by
  refine ⟨fun h x h0 h1 => ?_, fun h t ht => h t.ns ht.2.1 ht.2.2⟩
  rw [← Timespec.ns_ofNs x]
  exact h _ ⟨Timespec.normal_ofNs x, by rwa [Timespec.ns_ofNs], by rwa [Timespec.ns_ofNs]⟩

/-- A time that is always the same is not always the real one. -/
theorem not_forall_reading_eq (a : Timespec) : ¬ ∀ t : Timespec, t.IsReading → a = t := by
  intro h
  have h₁ := h ⟨0, 0⟩ ⟨by decide, by decide, by decide⟩
  have h₂ := h ⟨1, 0⟩ ⟨by decide, by decide, by decide⟩
  rw [h₁] at h₂
  exact absurd h₂ (by decide)

theorem forall_scaled_cpu_iff (hr : s.RatePositive) :
    (∀ t : Timespec, t.IsReading → (if s.userRateSet then timespecmul t s.userRate else t) = t) ↔
      s.RateIdle (nsMax - 1) := by
  have hmax : (0 : ℤ) < nsMax - 1 := by decide
  have hmin : (0 : ℤ) < -nsMin := by decide
  have hnum := forall_scaled_eq_iff hr le_rfl hmin hmax.le (by omega) (by omega)
  rw [max_eq_right hmax.le] at hnum
  rw [← hnum]
  have hns : ∀ t : Timespec, t.IsReading →
      ((if s.userRateSet then timespecmul t s.userRate else t) = t ↔ s.scaled t.ns = t.ns) := by
    intro t ht
    unfold Proc.scaled
    split
    · rw [Timespec.eq_iff_ns (normal_timespecmul _ _) ht, ns_timespecmul]
    · simp
  have hall : (∀ t : Timespec, t.IsReading →
      (if s.userRateSet then timespecmul t s.userRate else t) = t) ↔
        ∀ t : Timespec, t.IsReading → s.scaled t.ns = t.ns :=
    forall_congr' fun t => forall_congr' fun ht => hns t ht
  rw [hall, forall_reading (P := fun x => s.scaled x = x)]
  exact ⟨fun h d h0 h1 => h d (by omega) (by omega), fun h x h0 h1 => h x (by omega) (by omega)⟩

theorem forall_startAt_iff (hs : s.TimesStored) (hr : s.RatePositive)
    (hbase : Fits s.userFakedTimeTimespec.ns) (hstart : 0 ≤ (s.ftplStarttime.of c).ns)
    (hstart' : (s.ftplStarttime.of c).ns < nsMax) :
    (∀ t : Timespec, t.IsReading → normalizeTimespecValue (s.startAt c t) = t) ↔
      s.userFakedTimeTimespec.ns = (s.ftplStarttime.of c).ns ∧
        s.RateIdle (max (s.ftplStarttime.of c).ns (nsMax - 1 - (s.ftplStarttime.of c).ns)) := by
  have hmin : nsMin = -nsMax - 1 := by decide
  have hmax : (1 : ℤ) < nsMax := by decide
  obtain ⟨hb, hb'⟩ := hbase
  have hns : ∀ t : Timespec, t.IsReading → (normalizeTimespecValue (s.startAt c t) = t ↔
      satNs (s.userFakedTimeTimespec.ns + s.scaled (t.ns - (s.ftplStarttime.of c).ns)) = t.ns) := by
    rintro t ⟨hn, h0, h1⟩
    have hdiff : Fits (t.ns - (s.ftplStarttime.of c).ns) := ⟨by omega, by omega⟩
    rw [Timespec.eq_iff_ns (normal_normalizeTimespecValue _) ⟨hn, h0, h1⟩,
      ns_normalizeTimespecValue, hs.ns_startAt hn, hdiff.satNs]
  have hall : (∀ t : Timespec, t.IsReading → normalizeTimespecValue (s.startAt c t) = t) ↔
      ∀ x, 0 ≤ x → x < nsMax →
        satNs (s.userFakedTimeTimespec.ns + s.scaled (x - (s.ftplStarttime.of c).ns)) = x := by
    refine Iff.trans (forall_congr' fun t => forall_congr' fun ht => hns t ht) ?_
    exact forall_reading (P := fun x =>
      satNs (s.userFakedTimeTimespec.ns + s.scaled (x - (s.ftplStarttime.of c).ns)) = x)
  rw [hall, ← forall_scaled_eq_iff hr hstart (by omega) (by omega) (by omega) (by omega)]
  have hzero : s.scaled 0 = 0 := (scaled_eq_self_iff hr (by omega) (by omega)).mpr (Or.inl rfl)
  constructor
  · intro h
    have hbs := h _ hstart hstart'
    rw [sub_self, hzero, add_zero, satNs_eq_self hb hb'] at hbs
    refine ⟨hbs, fun d hd hd' => ?_⟩
    have hd'' := h ((s.ftplStarttime.of c).ns + d) (by omega) (by omega)
    rw [add_sub_cancel_left, hbs] at hd''
    unfold satNs clamp at hd''
    omega
  · rintro ⟨hbs, h⟩ x h0 h1
    rw [h _ (by omega) (by omega), hbs, add_sub_cancel, satNs_eq_self (by omega) (by omega)]

/-- **The clock is left alone if and only if every reading is reported as it is.** -/
theorem forall_told_iff (hs : w.proc.TimesStored) (hr : w.proc.RatePositive)
    (hbase : Fits w.proc.userFakedTimeTimespec.ns) (hstart : 0 ≤ (w.proc.ftplStarttime.of c).ns)
    (hstart' : (w.proc.ftplStarttime.of c).ns < nsMax) :
    (∀ t : Timespec, t.IsReading → w.told c t = (0, t)) ↔ w.LeavesAlone c := by
  unfold World.LeavesAlone World.told
  cases hdont : w.dontFake with
  | true => simp
  | false =>
    cases hmono : (c.IsMonotonic && !w.proc.fakeMonotonicClock) with
    | true =>
      simp only [Bool.and_eq_true, Bool.not_eq_true'] at hmono
      simp [hmono]
    | false =>
      have hmono' : ¬ (c.IsMonotonic = true ∧ w.proc.fakeMonotonicClock = false) := by
        rintro ⟨h, h'⟩
        rw [h, h'] at hmono
        cases hmono
      simp only [Bool.or_false, Bool.false_eq_true, if_false, hmono', false_or]
      by_cases hcpu : c.IsCpu = true
      · simp only [hcpu, if_true, Prod.mk.injEq, true_and]
        exact forall_scaled_cpu_iff hr
      · simp only [hcpu, Bool.false_eq_true, if_false]
        unfold World.outcome
        -- the clock is faked, and what is reported depends on the mode
        cases hmode : w.proc.ftMode with
        | freeze =>
          simp only [Outcome.result, Prod.mk.injEq, true_and]
          cases hset : w.proc.userFakedTimeSet with
          | true =>
            simp only [if_true, Bool.true_eq_false, iff_false]
            exact not_forall_reading_eq _
          | false =>
            simp only [Bool.false_eq_true, if_false, iff_true]
            exact fun t ht => normalizeTimespecValue_of_normal ht.1
        | startAt =>
          simp only [Outcome.result, Prod.mk.injEq, true_and]
          cases htick : w.proc.userPerTickIncSet with
          | true =>
            cases hshared : w.proc.sharedSemInitialized with
            | true =>
              simp only [if_true, Bool.true_eq_false, iff_false]
              exact not_forall_reading_eq _
            | false =>
              simp only [if_true, Bool.false_eq_true, if_false, iff_true]
              exact fun t ht => normalizeTimespecValue_of_normal ht.1
          | false =>
            simp only [Bool.false_eq_true, if_false]
            exact forall_startAt_iff hs hr hbase hstart hstart'
        | noop =>
          simp only [Outcome.result, Prod.mk.injEq, iff_false]
          -- the call fails in this mode, whatever the reading
          exact fun h => absurd (h ⟨0, 0⟩ ⟨by decide, by decide, by decide⟩).1 (by decide)

end Alone

/-! ### The two paths -/

section Paths

variable {B : Build} {w : World} {env : EnvVar → Option CStr} {c : ClockId}
  {now : ClockId → Option Timespec}

/-- **The two paths give the same result**: the same return value and time, or the process ends
the same way. -/
def SameReport (B : Build) (c : ClockId) (w : World) : Prop :=
  (syscallGettime B c).answer seq w = (clockGettime B c).answer seq w

/-- What the real clocks may show at an instant. A clock the system does not have shows
nothing. -/
structure IsInstant (now : ClockId → Option Timespec) : Prop where
  realtime : ∃ t, now .realtime = some t
  reading : ∀ c t, now c = some t → t.IsReading

/-- An intercepted call is a call of `clock_gettime`. -/
theorem sameReport_of_intercepted (henv : ∀ v, w.os 0 (.getenv v) = some (env v))
    (hint : Intercepted env = true) : SameReport B c (w.instant now) := by
  have hstill := w.still_instant now
  have henv' : (w.instant now).HasEnv env := fun _ v => henv v
  obtain ⟨_, _, ⟨rfl, m, rfl⟩, hrun⟩ := (runs_interceptsSyscall henv').exists_run_bind
  rw [SameReport, ← hstill.answer_eq m (clockGettime B c), answer, answer, syscallGettime, hrun,
    if_pos hint]

/-- Any other call goes to the kernel. -/
theorem answer_syscallGettime (henv : ∀ v, w.os 0 (.getenv v) = some (env v))
    (hint : Intercepted env = false) :
    (syscallGettime B c).answer seq (w.instant now) = .ok (match now c with
      | none => (-1, none)
      | some tp => (0, some tp)) := by
  have henv' : (w.instant now).HasEnv env := fun _ v => henv v
  refine Runs.answer_eq (Q := fun _ => True) ?_
  refine (runs_interceptsSyscall henv').bind ?_
  rintro _ _ ⟨rfl, m, rfl⟩
  rw [hint, if_neg (by simp)]
  refine runs_ask (o := .syscallClockGettime c) (r := now c) rfl rfl ?_
  cases now c with
  | none => exact runs_pure ⟨rfl, trivial⟩
  | some tp => exact runs_pure ⟨rfl, trivial⟩

/-- **The raw system call and `clock_gettime` report the same clock if and only if the raw
call is intercepted or the setting leaves the clock alone.** If one of the two environment
variables is set, they give the same result in every state, whatever the configuration came
from, at every instant. Otherwise, for a setting in force, they give the same result at every
instant exactly for the clocks that the setting leaves alone. -/
theorem syscall_reports_same_iff (henv : ∀ v, w.os 0 (.getenv v) = some (env v)) :
    (Intercepted env = true → ∀ now, SameReport B c (w.instant now)) ∧
    ((∀ now, IsInstant now → InForce B (w.instant now)) → w.proc.TimesStored →
      w.proc.RatePositive → Fits w.proc.userFakedTimeTimespec.ns →
      0 ≤ (w.proc.ftplStarttime.of c).ns → (w.proc.ftplStarttime.of c).ns < nsMax →
      ((∀ now, IsInstant now → SameReport B c (w.instant now)) ↔
        Intercepted env = true ∨ w.LeavesAlone c)) := by
  refine ⟨fun hint now => sameReport_of_intercepted henv hint, ?_⟩
  intro hsettled hs hr hbase hstart hstart'
  cases hint : Intercepted env with
  | true => simp [sameReport_of_intercepted henv hint]
  | false =>
    rw [← forall_told_iff hs hr hbase hstart hstart']
    simp only [Bool.false_eq_true, false_or]
    have hsame : ∀ {now}, IsInstant now → (SameReport B c (w.instant now) ↔
        ∀ t, now c = some t → w.told c t = (0, t)) := by
      intro now hnow
      rw [SameReport, answer_syscallGettime henv hint, answer_clockGettime (hsettled now hnow)]
      cases now c with
      | none => simp
      | some tp =>
        simp only [Except.ok.injEq, Option.some.injEq, forall_eq', Prod.ext_iff]
        exact and_congr eq_comm eq_comm
    constructor
    · intro h t ht
      -- the instant at which every clock shows `t`
      have hnow : IsInstant fun _ => some t := ⟨⟨t, rfl⟩, fun _ _ h => Option.some.inj h ▸ ht⟩
      exact (hsame hnow).mp (h _ hnow) t rfl
    · exact fun h now hnow => (hsame hnow).mpr fun t ht => h t (hnow.reading c t ht)

end Paths

/-! ### The environment and the configuration file -/

theorem frozenWorld_inForce {now : ClockId → Option Timespec} (hnow : IsInstant now) :
    InForce epochBuild ((frozenWorld ⟨60, 0⟩).instant now) := by
  obtain ⟨t, ht⟩ := hnow.realtime
  have hclock : ∀ n, ∃ t, ((frozenWorld ⟨60, 0⟩).instant now).os n (.realClockGettime .realtime) =
      some (some t) := fun n => ⟨t, congrArg some ht⟩
  have hmono : MonotonicFixed ((frozenWorld ⟨60, 0⟩).instant now) none none :=
    ⟨fun _ => rfl, fun _ => rfl, nofun⟩
  refine ⟨⟨hclock, fun _ => rfl, fun _ => rfl, fun _ _ => ⟨_, rfl⟩⟩,
    by decide, rfl, rfl, rfl, rfl, ?_⟩
  intro w₁ hos _ hcore
  exact refresh_of_unchanged hclock (fun _ => rfl) rfl rfl hmono w₁ hos hcore

/-- A process of `FAKETIME='1970-01-01 00:01:40'` reports the same time on both paths. -/
theorem syscall_reports_same_from_variable :
    SameReport epochBuild .realtime ((frozenWorld ⟨60, 0⟩).instant fun _ => some ⟨60, 0⟩) := by
  have hnow : IsInstant fun _ => some ⟨60, 0⟩ :=
    ⟨⟨_, rfl⟩, fun _ _ h => Option.some.inj h ▸ ⟨by decide, by decide⟩⟩
  have hstored : (frozenWorld ⟨60, 0⟩).proc.TimesStored :=
    ⟨by decide, fun c => by cases c <;> exact (by decide : (⟨50, 0⟩ : Timespec).Stored)⟩
  have henv : ∀ v, (frozenWorld ⟨60, 0⟩).os 0 (.getenv v) = some (frozenEnv v) := fun _ => rfl
  exact ((syscall_reports_same_iff henv).2 (fun _ h => frozenWorld_inForce h) hstored nofun
    (by decide) (by decide) (by decide)).mpr (Or.inl rfl) _ hnow

/-- The environment of a process without a setting, apart from its home directory. -/
def homeEnv : EnvVar → Option CStr
  | .home => some "/root".toList
  | _ => none

/-- The same setting in the file of the home directory, already applied. -/
def homeWorld : World :=
  { calmWorld homeEnv (fun _ _ => ⟨60, 0⟩) ⟨0, 0⟩ { frozenProc with parseConfigFile := true } with
    file := fun _ path =>
      if path = "/root/.faketimerc".toList then some "1970-01-01 00:01:40\n".toList else none }

/-- Its raw system calls report the real time. -/
theorem syscall_reports_real_time_from_home :
    (clockGettime epochBuild .realtime).answer seq (homeWorld.instant fun _ => some ⟨60, 0⟩) =
        .ok (0, some ⟨100, 0⟩) ∧
      (syscallGettime epochBuild .realtime).answer seq (homeWorld.instant fun _ => some ⟨60, 0⟩) =
        .ok (0, some ⟨60, 0⟩) ∧
      ¬ SameReport epochBuild .realtime (homeWorld.instant fun _ => some ⟨60, 0⟩) := by
  have hclock : (clockGettime epochBuild .realtime).answer seq
      (homeWorld.instant fun _ => some ⟨60, 0⟩) = .ok (0, some ⟨100, 0⟩) := rfl
  have hraw : (syscallGettime epochBuild .realtime).answer seq
      (homeWorld.instant fun _ => some ⟨60, 0⟩) = .ok (0, some ⟨60, 0⟩) := rfl
  refine ⟨hclock, hraw, fun h => ?_⟩
  rw [SameReport, hclock, hraw] at h
  cases h

end LibFaketime
