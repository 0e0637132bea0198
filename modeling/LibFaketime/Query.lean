import LibFaketime.Fake
import LibFaketime.World

/-!
# A query of a process alone

What `fake_clock_gettime` returns while the configuration stays as it is. A process
keeps its settings (`LibFaketime.Proc.settings`) through a query, apart from the
bookkeeping of caches and counters, and a refresh of the configuration may come and
go without changing them (`LibFaketime.ConfigFixed`). Under the rules of
`FT_START_AT` the answer is then a function of the settings and of the real reading
(`LibFaketime.Proc.fakeTime`), and that is all later files need to know of the
query.
-/

namespace LibFaketime

open Effects Effects.Prog

/-! ### Settings -/

/-- The variables of a process without the bookkeeping of caches and counters. -/
def Proc.settings (s : Proc) : Proc :=
  { s with
    ftplTimecache := .unset
    ftplFaketimecache := .unset
    forceCacheExpiration := false
    lastDataFetch := 0
    cacheExpired := false
    callcounter := 0
    spawned := false }

/-- The answer of the faked clock `clkId` to the real reading `tp` in a start-at
mode without ticks. -/
def Proc.fakeTime (s : Proc) (clkId : ClockId) (tp : Timespec) : Timespec :=
  if clkId.IsCpu then if s.userRateSet then timespecmul tp s.userRate else tp
  else s.startAt clkId tp

/-- What the switch on the mode makes of a real reading, without ticks. -/
def Proc.byMode (s : Proc) (clkId : ClockId) (tp : Timespec) : Timespec :=
  match s.ftMode with
  | .freeze => if s.userFakedTimeSet then s.userFakedTimeTimespec else tp
  | .startAt => s.startAt clkId tp
  | .noop => tp

/-- The answer of the clock `clkId` to the real reading `tp` in any mode without ticks. -/
def Proc.shown (s : Proc) (clkId : ClockId) (tp : Timespec) : Timespec :=
  if clkId.IsCpu then if s.userRateSet then timespecmul tp s.userRate else tp
  else normalizeTimespecValue (s.byMode clkId tp)

/-- The settings without the copy of the tick modifier that is made while the times of a
file are converted. -/
def Proc.core (s : Proc) : Proc := { s.settings with userPerTickIncSetBackup := false }

/-- A field that is a setting is the same in two processes with the same
settings. -/
theorem Proc.field_eq {β : Type} {s s' : Proc} (h : s'.core = s.core) (f : Proc → β)
    (hf : ∀ s, f s.core = f s := by intro _; rfl) : f s' = f s := by
  rw [← hf, h, hf]

theorem Proc.core_eq {s s' : Proc} (h : s'.settings = s.settings) : s'.core = s.core := by
  rw [Proc.core, Proc.core, h]

/-- Two worlds of one process on one system with the same settings and locks. -/
structure Like (w w' : World) : Prop where
  os : w'.os = w.os
  file : w'.file = w.file
  dontFake : w'.dontFake = w.dontFake
  semHeld : w'.semHeld = w.semHeld
  mutexHeld : w'.mutexHeld = w.mutexHeld
  settings : w'.proc.settings = w.proc.settings

section Like

variable {w w₁ w₂ : World}

theorem Like.refl (w : World) : Like w w := ⟨rfl, rfl, rfl, rfl, rfl, rfl⟩

theorem Like.trans (h : Like w w₁) (h' : Like w₁ w₂) : Like w w₂ :=
  ⟨h'.os.trans h.os, h'.file.trans h.file, h'.dontFake.trans h.dontFake,
    h'.semHeld.trans h.semHeld, h'.mutexHeld.trans h.mutexHeld, h'.settings.trans h.settings⟩

theorem Like.core (h : Like w w₁) : w₁.proc.core = w.proc.core := Proc.core_eq h.settings

theorem Like.field {β : Type} (h : Like w w₁) (f : Proc → β)
    (hf : ∀ s, f s.core = f s := by intro _; rfl) : f w₁.proc = f w.proc :=
  Proc.field_eq h.core f hf

/-- Assignments of bookkeeping. -/
theorem Like.store {s : Proc} (h : s.settings = w.proc.settings) :
    Like w { w with proc := s } := ⟨rfl, rfl, rfl, rfl, rfl, h⟩

end Like

/-! ### A calm system -/

/-- A system on which no lock fails and every call a query makes returns. -/
structure Calm (w : World) : Prop where
  clock : ∀ n, ∃ t, w.os n (.realClockGettime .realtime) = some (some t)
  lock : ∀ n, w.os n .ftSemLock = some .acquired
  unlock : ∀ n, w.os n .ftSemUnlock = some true
  write : ∀ n bytes, ∃ r, w.os n (.write bytes) = some r

/-- The same system with clocks that show `T`. -/
def World.onClock (w : World) (T : ℕ → ClockId → Timespec) : World :=
  { w with os := fun n o => match o with
      | .realClockGettime c => some (some (T n c))
      | o => w.os n o }

/-- **The configuration is fixed**: a refresh, whenever it takes place, comes back
and leaves the settings as they are. -/
def ConfigFixed (B : Build) (w : World) : Prop :=
  ∀ w₁, w₁.os = w.os → w₁.file = w.file → w₁.proc.core = w.proc.core →
    ∃ w₂, (refreshConfig B).run seq w₁ = .ok ((), w₂) ∧ Like w₁ w₂

/-- **A process that serves a start-at clock** without ticks, limits and replay, and
is able to save what it reports. -/
structure Serves (B : Build) (w : World) : Prop where
  faking : w.dontFake = false
  calm : Calm w
  tries : 0 < B.retries
  startAt : w.proc.ftMode = .startAt
  noTick : w.proc.userPerTickIncSet = false
  noLimits : w.proc.limitedFaking = false
  noReplay : w.proc.infileSet = false
  mutexFree : w.mutexHeld = false
  saves : w.semHeld = true → (w.proc.sharedSemInitialized && w.proc.outfileOpen) = false
  fixed : ConfigFixed B w

/-- **A process that answers queries by a function of the real reading**: in any mode
that fakes the time, without ticks, limits and replay, and able to save what it
reports. -/
structure Responds (B : Build) (w : World) : Prop where
  calm : Calm w
  tries : 0 < B.retries
  mode : w.proc.ftMode ≠ .noop
  noTick : w.proc.ftMode = .startAt → w.proc.userPerTickIncSet = false
  noLimits : w.proc.limitedFaking = false
  noReplay : w.proc.infileSet = false
  mutexFree : w.mutexHeld = false
  saves : w.semHeld = true → (w.proc.sharedSemInitialized && w.proc.outfileOpen) = false
  fixed : ConfigFixed B w

theorem Serves.responds {B : Build} {w : World} (hs : Serves B w) : Responds B w where
  calm := hs.calm
  tries := hs.tries
  mode := by rw [hs.startAt]; exact FtMode.noConfusion
  noTick _ := hs.noTick
  noLimits := hs.noLimits
  noReplay := hs.noReplay
  mutexFree := hs.mutexFree
  saves := hs.saves
  fixed := hs.fixed

section Stages

variable {B : Build} {w : World} {clkId : ClockId} {tp : Timespec}

/-- A call may have been counted, and the external command started. -/
def Counted (w w' : World) : Prop :=
  ∃ calls spawned, w' = { w with proc := { w.proc with callcounter := calls, spawned := spawned } }

theorem Counted.like {w' : World} (h : Counted w w') : Like w w' ∧ w'.shm = w.shm := by
  obtain ⟨calls, spawned, rfl⟩ := h
  exact ⟨.store rfl, rfl⟩

theorem runs_countCall : countCall.Runs seq w fun _ w' => Counted w w' := by
  refine runs_load ?_
  split
  · exact ⟨(), _, rfl, _, w.proc.spawned, rfl⟩
  · exact runs_pure ⟨w.proc.callcounter, w.proc.spawned, rfl⟩

/-- Without limits nothing stops a query. -/
theorem runs_limitsAndSpawn (h : w.proc.limitedFaking = false) :
    (limitsAndSpawn clkId tp).Runs seq w fun r w' => r = false ∧ Counted w w' := by
  refine runs_countCall.bind ?_
  rintro _ w₁ ⟨calls, spawned, rfl⟩
  refine runs_load ?_
  split
  · rw [if_neg (by rw [show _ = false from h]; simp)]
    split
    · exact runs_store (runs_spawn (runs_pure ⟨rfl, calls, true, rfl⟩))
    · exact runs_pure ⟨rfl, calls, spawned, rfl⟩
  · exact runs_pure ⟨rfl, calls, spawned, rfl⟩

/-- Writing comes to an end, whatever `write` returns. -/
theorem runs_writeAllLoop (hw : Calm w) (fuel : ℕ) (rest : List UInt8) (interrupted : ℕ)
    (hi : interrupted < 1000) (hfuel : 1000 * rest.length - interrupted < fuel) :
    (writeAllLoop fuel rest interrupted).Runs seq w fun _ w' => Like w w' := by
  induction fuel generalizing w rest interrupted with
  | zero => omega
  | succ fuel ih =>
    unfold writeAllLoop
    split
    · exact runs_pure (.refl w)
    next hne =>
      have hpos : 0 < rest.length := List.length_pos_iff.mpr hne
      obtain ⟨r, hr⟩ := hw.write w.now rest
      refine runs_writeOut hr ?_
      have hw' : Calm { w.tick with saved := w.saved ++ r.taken rest } :=
        ⟨hw.clock, hw.lock, hw.unlock, hw.write⟩
      have hlike : Like w { w.tick with saved := w.saved ++ r.taken rest } :=
        ⟨rfl, rfl, rfl, rfl, rfl, rfl⟩
      cases r with
      | interrupted =>
        dsimp only
        split
        · exact runs_pure hlike
        · exact (ih hw' rest (interrupted + 1) (by omega) (by omega)).mono
            fun _ _ h => hlike.trans h
      | failed => exact runs_pure hlike
      | wrote n =>
        dsimp only
        split
        · exact runs_pure hlike
        · split
          · exact runs_pure hlike
          · exact (ih hw' (rest.drop n) 0 (by omega) (by rw [List.length_drop]; omega)).mono
              fun _ _ h => hlike.trans h

/-- Saving a time changes nothing but the file. -/
theorem runs_saveTime (hw : Calm w) {retries : ℕ} (ht : 0 < retries)
    (hs : w.semHeld = true → (w.proc.sharedSemInitialized && w.proc.outfileOpen) = false) :
    (saveTime retries tp).Runs seq w fun _ w' => Like w w' := by
  refine runs_load ?_
  dsimp only
  split
  next hsave =>
    have hheld : w.semHeld = false := by
      by_contra hheld
      exact absurd (hs (by simpa using hheld)) (by rw [hsave]; simp)
    obtain ⟨retries, rfl⟩ : ∃ n, retries = n + 1 := ⟨retries - 1, by omega⟩
    refine Runs.bind (Q := fun _ w' => w' = { w.tick with semHeld := true }) ?_ ?_
    · exact runs_ftSemLock hheld (hw.lock _) (runs_pure rfl)
    rintro - w₁ rfl
    have hw₁ : Calm { w.tick with semHeld := true } := ⟨hw.clock, hw.lock, hw.unlock, hw.write⟩
    refine (runs_writeAllLoop hw₁ _ _ 0 (by omega) (by omega)).bind fun b w₂ h₂ => ?_
    have hlast : (ftSemUnlock >>= fun b => if b = true then pure ()
        else exit 1 "libfaketime: In save_time(), ft_sem_unlock failed").Runs seq w₂
          fun _ w' => Like w w' := by
      refine runs_ftSemUnlock (by rw [h₂.os]; exact hw.unlock _) (runs_pure ?_)
      exact ⟨h₂.os, h₂.file, h₂.dontFake, hheld.symm, h₂.mutexHeld, h₂.settings⟩
    cases b with
    | true => exact hlast
    | false => exact runs_perror hlast
  next => exact runs_pure (.refl w)

/-- The locked part of a query, by the rules of the mode. -/
theorem runs_fakeLocked (hnoop : w.proc.ftMode ≠ .noop)
    (htick : w.proc.ftMode = .startAt → w.proc.userPerTickIncSet = false)
    (hlim : w.proc.limitedFaking = false) (hin : w.proc.infileSet = false)
    (hfix : ConfigFixed B w) :
    (fakeLocked B clkId tp).Runs seq w fun o w' =>
      o = .faked (w.proc.byMode clkId tp) ∧ Like w w' := by
  refine (runs_limitsAndSpawn hlim).bind ?_
  rintro _ w₁ ⟨rfl, hcounted⟩
  obtain ⟨h₁, -⟩ := hcounted.like
  obtain ⟨w₂, hr, h₂⟩ := hfix w₁ h₁.os h₁.file h₁.core
  have h := h₁.trans h₂
  refine Runs.bind (Q := fun _ w' => w' = w₂) ⟨(), w₂, hr, rfl⟩ ?_
  rintro - w₂ rfl
  refine runs_load ?_
  rw [h.field Proc.infileSet, hin, if_neg (by simp)]
  have hbyMode : w₂.proc.byMode clkId tp = w.proc.byMode clkId tp :=
    h.field fun s => s.byMode clkId tp
  rw [← hbyMode]
  rw [← h.field Proc.ftMode] at htick hnoop
  rw [← h.field Proc.userPerTickIncSet] at htick
  refine runs_load ?_
  unfold Proc.byMode
  cases hmode : w₂.proc.ftMode with
  | freeze => exact runs_pure ⟨rfl, h⟩
  | startAt =>
    dsimp only
    rw [htick hmode, if_neg (by simp)]
    exact runs_pure ⟨rfl, h⟩
  | noop => exact absurd hmode hnoop

end Stages

/-! ### The whole query -/

section Whole

variable {B : Build} {w : World} {clkId : ClockId} {tp : Timespec}

/-- The times a process has stored are normalized, or have not been set. -/
structure Proc.TimesStored (s : Proc) : Prop where
  base : s.userFakedTimeTimespec.Stored
  start : ∀ c, (s.ftplStarttime.of c).Stored

theorem Proc.TimesStored.of_core {s s' : Proc} (h : s.TimesStored)
    (hs : s'.core = s.core) : s'.TimesStored where
  base := by rw [Proc.field_eq hs Proc.userFakedTimeTimespec]; exact h.base
  start := by rw [Proc.field_eq hs Proc.ftplStarttime]; exact h.start

/-- What is added to the base is normalized. -/
theorem Proc.TimesStored.normal_startAt {s : Proc} (h : s.TimesStored) (htp : tp.Normal) :
    (s.startAt clkId tp).Normal := by
  have hsub := (normal_timespecsub htp.stored (h.start clkId)).stored
  unfold Proc.startAt
  split
  · exact normal_timespecadd h.base (normal_timespecmul _ _).stored
  · exact normal_timespecadd h.base hsub

/-- The same system is calm. -/
theorem Calm.like {w' : World} (hw : Calm w) (h : Like w w') : Calm w' :=
  ⟨by rw [h.os]; exact hw.clock, by rw [h.os]; exact hw.lock, by rw [h.os]; exact hw.unlock,
    by rw [h.os]; exact hw.write⟩

theorem ConfigFixed.like {w' : World} (hw : ConfigFixed B w) (h : Like w w') : ConfigFixed B w' :=
  fun w₁ hos hfile hset => hw w₁ (hos.trans h.os) (hfile.trans h.file) (hset.trans h.core)

/-- A process that serves goes on serving. -/
theorem Serves.like {w' : World} (hs : Serves B w) (h : Like w w') : Serves B w' where
  faking := h.dontFake.trans hs.faking
  calm := hs.calm.like h
  tries := hs.tries
  startAt := (h.field Proc.ftMode).trans hs.startAt
  noTick := (h.field Proc.userPerTickIncSet).trans hs.noTick
  noLimits := (h.field Proc.limitedFaking).trans hs.noLimits
  noReplay := (h.field Proc.infileSet).trans hs.noReplay
  mutexFree := h.mutexHeld.trans hs.mutexFree
  saves := by
    rw [h.semHeld, h.field Proc.sharedSemInitialized, h.field Proc.outfileOpen]
    exact hs.saves
  fixed := hs.fixed.like h

/-- A responding process goes on responding. -/
theorem Responds.like {w' : World} (hs : Responds B w) (h : Like w w') : Responds B w' where
  calm := hs.calm.like h
  tries := hs.tries
  mode := by
    rw [h.field Proc.ftMode]
    exact hs.mode
  noTick := by
    rw [h.field Proc.ftMode, h.field Proc.userPerTickIncSet]
    exact hs.noTick
  noLimits := (h.field Proc.limitedFaking).trans hs.noLimits
  noReplay := (h.field Proc.infileSet).trans hs.noReplay
  mutexFree := h.mutexHeld.trans hs.mutexFree
  saves := by
    rw [h.semHeld, h.field Proc.sharedSemInitialized, h.field Proc.outfileOpen]
    exact hs.saves
  fixed := hs.fixed.like h

/-- What a thread is told that asks for the clock `clkId` at the real reading `tp`. -/
def World.shown (w : World) (clkId : ClockId) (tp : Timespec) : Timespec :=
  if w.dontFake then tp else w.proc.shown clkId tp

/-- What a query returns after the locked part of it. -/
def Outcome.result : Outcome → ℤ × Timespec
  | .abort result tp => (result, tp)
  | .faked tp => (0, normalizeTimespecValue tp)

/-- **The frame of a query**: around the locked part there are the mutex, the save file and the
caches, none of which touches a setting. If the locked part leads to a world like one of `V`, so
does the query. -/
theorem runs_fakeClockGettime_of_locked {V : World → Prop} {o : Outcome}
    (hdont : w.dontFake = false)
    (hcpu : ¬ clkId.IsCpu = true) (hmutex : w.mutexHeld = false) (ht : 0 < B.retries)
    (hV : ∀ v, V v → Calm v ∧ v.mutexHeld = false ∧
      (v.semHeld = true → (v.proc.sharedSemInitialized && v.proc.outfileOpen) = false))
    (hlocked : (fakeLocked B clkId tp).Runs seq
      { w with mutexHeld := B.pthreadSinglethreadedTime } fun r w' =>
        r = o ∧ ∃ v, V v ∧ Like { v with mutexHeld := B.pthreadSinglethreadedTime } w') :
    (fakeClockGettime B clkId tp).Runs seq w fun r w' => r = o.result ∧ ∃ v, V v ∧ Like v w' := by
  refine runs_dontFake ?_
  rw [hdont, if_neg (by simp), if_neg hcpu]
  -- after the lock is given back, the time is saved and remembered
  have hend : ∀ v w₂, V v → Like v w₂ → (finishQuery B clkId tp o).Runs seq w₂
      fun r w' => r = o.result ∧ ∃ v, V v ∧ Like v w' := by
    intro v w₂ hv h₂
    obtain ⟨hcalm, -, hsaves⟩ := hV v hv
    cases o with
    | abort result tp' => exact runs_pure ⟨rfl, v, hv, h₂⟩
    | faked tp' =>
      have hsaves₂ : w₂.semHeld = true →
          (w₂.proc.sharedSemInitialized && w₂.proc.outfileOpen) = false := by
        rw [h₂.semHeld, h₂.field Proc.sharedSemInitialized, h₂.field Proc.outfileOpen]
        exact hsaves
      refine (runs_saveTime (hcalm.like h₂) ht hsaves₂).bind fun _ w₃ h₃ => ?_
      refine runs_store (runs_pure ⟨rfl, v, hv, (h₂.trans h₃).trans (.store ?_)⟩)
      obtain ⟨reals, fakes, hs⟩ :=
        Proc.exists_cacheTimes clkId tp (normalizeTimespecValue tp') w₃.proc
      rw [hs]
      rfl
  cases hB : B.pthreadSinglethreadedTime with
  | false =>
    have hfree₀ : { w with mutexHeld := false } = w := by rw [← hmutex]
    rw [hB, hfree₀] at hlocked
    rw [if_neg (by simp)]
    refine hlocked.bind ?_
    rintro _ w₁ ⟨rfl, v, hv, h₁⟩
    obtain ⟨-, hfree, -⟩ := hV v hv
    rw [if_neg (by simp)]
    refine hend v w₁ hv ?_
    exact ⟨h₁.os, h₁.file, h₁.dontFake, h₁.semHeld, h₁.mutexHeld.trans hfree.symm, h₁.settings⟩
  | true =>
    rw [hB] at hlocked
    rw [if_pos rfl]
    refine runs_timeMutexLock hmutex (hlocked.bind ?_)
    rintro _ w₁ ⟨rfl, v, hv, h₁⟩
    obtain ⟨-, hfree, -⟩ := hV v hv
    rw [if_pos rfl]
    refine runs_timeMutexUnlock (hend v _ hv ?_)
    exact ⟨h₁.os, h₁.file, h₁.dontFake, h₁.semHeld, hfree.symm, h₁.settings⟩

/-- **A query of a responding process** returns what its settings make of the real reading, and
leaves them as they are. -/
theorem runs_query (hs : Responds B w) :
    (fakeClockGettime B clkId tp).Runs seq w fun r w' =>
      r = (0, w.shown clkId tp) ∧ Like w w' := by
  cases hdont : w.dontFake with
  | true =>
    refine runs_dontFake ?_
    rw [hdont, if_pos rfl]
    exact runs_pure ⟨by rw [World.shown, hdont, if_pos rfl], .refl w⟩
  | false =>
    have hshown : w.shown clkId tp = w.proc.shown clkId tp := by
      rw [World.shown, hdont, if_neg (by simp)]
    rw [hshown]
    by_cases hcpu : clkId.IsCpu = true
    · refine runs_dontFake ?_
      rw [hdont, if_neg (by simp), if_pos hcpu]
      refine runs_load (runs_pure ⟨?_, .refl w⟩)
      rw [Proc.shown, if_pos hcpu]
    · have hfake : w.proc.shown clkId tp = normalizeTimespecValue (w.proc.byMode clkId tp) :=
        if_neg hcpu
      rw [hfake]
      have hquery := runs_fakeClockGettime_of_locked (B := B) (V := (· = w))
        (o := .faked (w.proc.byMode clkId tp)) hdont hcpu hs.mutexFree hs.tries
        (by rintro _ rfl; exact ⟨hs.calm, hs.mutexFree, hs.saves⟩)
        ((runs_fakeLocked (w := { w with mutexHeld := B.pthreadSinglethreadedTime }) hs.mode
          hs.noTick hs.noLimits hs.noReplay hs.fixed).mono fun _ _ h => ⟨h.1, w, rfl, h.2⟩)
      refine hquery.mono ?_
      rintro _ w' ⟨rfl, _, rfl, h⟩
      exact ⟨rfl, h⟩

/-- **A query of a serving process** returns what its settings make of the real
reading, and leaves the process serving. -/
theorem runs_fakeClockGettime (hs : Serves B w) (ht : w.proc.TimesStored) (htp : tp.Normal) :
    (fakeClockGettime B clkId tp).Runs seq w fun r w' =>
      r = (0, w.proc.fakeTime clkId tp) ∧ Like w w' := by
  have hshown : w.shown clkId tp = w.proc.fakeTime clkId tp := by
    rw [World.shown, hs.faking, if_neg (by simp), Proc.shown, Proc.fakeTime, Proc.byMode,
      hs.startAt]
    dsimp only
    rw [normalizeTimespecValue_of_normal (ht.normal_startAt htp)]
  rw [← hshown]
  exact runs_query hs.responds

end Whole

/-! ### When the configuration is fixed -/

section Fixed

variable {B : Build} {w : World}

/-- The monotonic setting of the environment is the one the process has. -/
structure MonotonicFixed (w : World) (e₁ e₂ : Option CStr) : Prop where
  first : ∀ n, w.os n (.getenv .faketimeDontFakeMonotonic) = some e₁
  second : ∀ n, w.os n (.getenv .dontFakeMonotonic) = some e₂
  same : ∀ v, (e₁.or e₂) = some v → w.proc.fakeMonotonicClock = (v != ['1'])

theorem runs_getFakeMonotonicSetting {e₁ e₂ : Option CStr} (h : MonotonicFixed w e₁ e₂) :
    getFakeMonotonicSetting.Runs seq w fun _ w' => Like w w' ∧ w'.shm = w.shm := by
  have hend : ∀ w₁, Like w w₁ → w₁.shm = w.shm → ∀ v, v = e₁.or e₂ →
      (assignFakeMonotonic v).Runs seq w₁ fun _ w' => Like w w' ∧ w'.shm = w.shm := by
    rintro w₁ h₁ hshm v hv
    cases v with
    | none => exact runs_pure ⟨h₁, hshm⟩
    | some v =>
      refine ⟨(), _, rfl, h₁.trans (.store ?_), hshm⟩
      have hsame : w₁.proc.fakeMonotonicClock = (v != ['1']) :=
        (h₁.field Proc.fakeMonotonicClock).trans (h.same v hv.symm)
      rw [← hsame]
  refine runs_getenv (h.first _) ?_
  cases e₁ with
  | some v => exact hend w.tick ⟨rfl, rfl, rfl, rfl, rfl, rfl⟩ rfl (some v) rfl
  | none =>
    exact runs_getenv (h.second _) (hend w.tick.tick ⟨rfl, rfl, rfl, rfl, rfl, rfl⟩ rfl _ rfl)

/-- A setting that has been applied already is not applied again. -/
theorem runs_parseFtString_unchanged {setting : CStr}
    (h : unchangedSetting setting w.proc.userFakedTimeSaved = true) :
    (parseFtString B setting).Runs seq w fun _ w' => w' = w := by
  refine runs_load ?_
  rw [if_pos h]
  exact runs_pure rfl

/-- Expiring is bookkeeping. -/
theorem settings_expireCache (now : ℤ) (s : Proc) :
    (Proc.expireCache now s).settings = s.settings := by
  obtain ⟨expired, force, hs⟩ := Proc.exists_expireCache now s
  rw [hs]
  rfl

/-- A disabled cache has always expired. -/
theorem cacheExpired_expireCache (now : ℤ) {s : Proc} (h : s.cacheEnabled = false) :
    (Proc.expireCache now s).cacheExpired = true := by
  unfold Proc.expireCache
  dsimp only
  by_cases hfetch : 0 < s.lastDataFetch
  · simp only [if_pos hfetch, h, Bool.false_eq_true, if_false]
    split <;> rfl
  · simp only [if_neg hfetch, h, Bool.false_eq_true, if_false]
    split <;> rfl

/-- As long as the cache has not expired, a refresh does nothing else. -/
theorem runs_refreshConfig_cached {r : Option Timespec}
    (hr : w.os w.now (.realClockGettime .realtime) = some r)
    (hcached : (Proc.expireCache (r.getD .unset).tvSec w.proc).cacheExpired = false) :
    (refreshConfig B).Runs seq w fun _ w' =>
      w' = { w.tick with proc := Proc.expireCache (r.getD .unset).tvSec w.proc } := by
  refine runs_realClockGettime hr (runs_store (runs_load ?_))
  split
  next hexpired => exact absurd (hexpired.symm.trans hcached) (by simp)
  next => exact runs_pure rfl

/-- A refresh that finds the setting in the environment, already applied. -/
theorem runs_refreshConfig_unchanged {setting : CStr} {e₁ e₂ : Option CStr}
    (hclock : ∃ t, w.os w.now (.realClockGettime .realtime) = some (some t))
    (henv : ∀ n, w.os n (.getenv .faketime) = some (some setting))
    (hfile : w.proc.parseConfigFile = false)
    (hsaved : unchangedSetting (setting.take (bufferlen - 1)) w.proc.userFakedTimeSaved = true)
    (hmono : MonotonicFixed w e₁ e₂) :
    (refreshConfig B).Runs seq w fun _ w' => Like w w' ∧ w'.shm = w.shm := by
  obtain ⟨t, ht⟩ := hclock
  refine runs_realClockGettime ht (runs_store (runs_load ?_))
  generalize hw₂ : ({ w.tick with proc := Proc.expireCache _ w.tick.proc } : World) = w₂
  obtain ⟨h₂, hshm₂⟩ : Like w w₂ ∧ w₂.shm = w.shm := by
    rw [← hw₂]
    exact ⟨⟨rfl, rfl, rfl, rfl, rfl, settings_expireCache _ _⟩, rfl⟩
  split
  · refine runs_getenv (r := some setting) (by rw [h₂.os]; exact henv _) (runs_store (runs_load ?_))
    generalize hw₃ : ({ w₂.tick with proc := { w₂.tick.proc with lastDataFetch := _ } } : World) =
      w₃
    obtain ⟨h₃, hshm₃⟩ : Like w w₃ ∧ w₃.shm = w.shm := by
      rw [← hw₃]
      exact ⟨h₂.trans ⟨rfl, rfl, rfl, rfl, rfl, rfl⟩, hshm₂⟩
    rw [h₃.field Proc.parseConfigFile, hfile, if_neg (by simp)]
    refine (runs_parseFtString_unchanged ?_).bind ?_
    · rw [h₃.field Proc.userFakedTimeSaved]
      exact hsaved
    rintro - w₄ h₄
    rw [h₄]
    have hmono₃ : MonotonicFixed w₃ e₁ e₂ := by
      refine ⟨?_, ?_, ?_⟩
      · rw [h₃.os]
        exact hmono.first
      · rw [h₃.os]
        exact hmono.second
      · rw [h₃.field Proc.fakeMonotonicClock]
        exact hmono.same
    exact (runs_getFakeMonotonicSetting hmono₃).mono fun _ _ h => ⟨h₃.trans h.1, h.2.trans hshm₃⟩
  · exact runs_pure ⟨h₂, hshm₂⟩

/-- A process whose setting is in the environment, and has been applied, has a fixed
configuration. -/
theorem refresh_of_unchanged {setting : CStr} {e₁ e₂ : Option CStr}
    (hclock : ∀ n, ∃ t, w.os n (.realClockGettime .realtime) = some (some t))
    (henv : ∀ n, w.os n (.getenv .faketime) = some (some setting))
    (hfile : w.proc.parseConfigFile = false)
    (hsaved : unchangedSetting (setting.take (bufferlen - 1)) w.proc.userFakedTimeSaved = true)
    (hmono : MonotonicFixed w e₁ e₂) (w₁ : World) (hos : w₁.os = w.os)
    (hset : w₁.proc.core = w.proc.core) :
    ∃ w₂, (refreshConfig B).run seq w₁ = .ok ((), w₂) ∧ Like w₁ w₂ ∧ w₂.shm = w₁.shm := by
  have hmono₁ : MonotonicFixed w₁ e₁ e₂ := by
    refine ⟨?_, ?_, ?_⟩
    · rw [hos]
      exact hmono.first
    · rw [hos]
      exact hmono.second
    · rw [Proc.field_eq hset Proc.fakeMonotonicClock]
      exact hmono.same
  obtain ⟨_, w₂, hr, h₂⟩ :=
    runs_refreshConfig_unchanged (B := B) (w := w₁) (by rw [hos]; exact hclock _)
    (by rw [hos]; exact henv) ((Proc.field_eq hset Proc.parseConfigFile).trans hfile)
    (by rw [Proc.field_eq hset Proc.userFakedTimeSaved]; exact hsaved) hmono₁
  exact ⟨w₂, hr, h₂⟩

theorem configFixed_of_unchanged {setting : CStr} {e₁ e₂ : Option CStr}
    (hclock : ∀ n, ∃ t, w.os n (.realClockGettime .realtime) = some (some t))
    (henv : ∀ n, w.os n (.getenv .faketime) = some (some setting))
    (hfile : w.proc.parseConfigFile = false)
    (hsaved : unchangedSetting (setting.take (bufferlen - 1)) w.proc.userFakedTimeSaved = true)
    (hmono : MonotonicFixed w e₁ e₂) : ConfigFixed B w := by
  intro w₁ hos _ hset
  obtain ⟨w₂, hr, h, -⟩ := refresh_of_unchanged hclock henv hfile hsaved hmono w₁ hos hset
  exact ⟨w₂, hr, h⟩

/-- **A process whose setting stays in the environment** and that is able to answer: it
is faking, without limits and replay, locks do not fail, and it can save what it
reports. -/
structure Steady (B : Build) (setting : CStr) (w : World) : Prop where
  faking : w.dontFake = false
  calm : Calm w
  tries : 0 < B.retries
  noLimits : w.proc.limitedFaking = false
  noReplay : w.proc.infileSet = false
  mutexFree : w.mutexHeld = false
  saves : w.semHeld = true → (w.proc.sharedSemInitialized && w.proc.outfileOpen) = false
  env : ∀ n, w.os n (.getenv .faketime) = some (some setting)
  monotonic : ∃ e₁ e₂, MonotonicFixed w e₁ e₂

/-- Such a process serves the clock of the setting it has applied. -/
theorem Steady.serves {setting : CStr} (h : Steady B setting w)
    (hmode : w.proc.ftMode = .startAt) (htick : w.proc.userPerTickIncSet = false)
    (hfile : w.proc.parseConfigFile = false) (hhead : setting.head? ≠ some '%')
    (hsaved : w.proc.userFakedTimeSaved = setting.take (bufferlen - 1)) : Serves B w := by
  obtain ⟨e₁, e₂, hmono⟩ := h.monotonic
  refine ⟨h.faking, h.calm, h.tries, hmode, htick, h.noLimits, h.noReplay, h.mutexFree, h.saves,
    configFixed_of_unchanged h.calm.clock h.env hfile ?_ hmono⟩
  have hhead' : (setting.take (bufferlen - 1)).head? = setting.head? := by
    cases setting <;> rfl
  rw [hsaved, unchangedSetting, beq_self_eq_true, Bool.true_and, hhead', bne_iff_ne]
  exact hhead

end Fixed

/-! ### A process that serves -/

/-- The environment of `FAKETIME='+50 x2'`. -/
def doubleSpeedEnv : EnvVar → Option CStr
  | .faketime => some "+50 x2".toList
  | _ => none

/-- A process with that setting that was started fifty seconds after the beginning of the
epoch. -/
def doubleSpeed : Proc :=
  { Proc.initial with
    ftMode := .startAt
    ftplStarttime := ⟨⟨50, 0⟩, ⟨50, 0⟩, ⟨50, 0⟩, ⟨50, 0⟩⟩
    userFakedTimeTimespec := ⟨100, 0⟩
    userFakedTimeSaved := "+50 x2".toList
    userOffset := ⟨50, 0⟩
    userRate := 2
    userRateSet := true
    parseConfigFile := false
    sharedSemInitialized := true }

theorem doubleSpeed_timesStored : doubleSpeed.TimesStored := by
  refine ⟨by decide, fun c => ?_⟩
  cases c <;> exact (by decide : (⟨50, 0⟩ : Timespec).Stored)

/-- A process on a calm system whose setting is in the environment. -/
theorem serves_calmWorld {env : EnvVar → Option CStr} {s : Proc} {setting : CStr}
    (clock : ℕ → ClockId → Timespec) (henv : env .faketime = some setting)
    (he₁ : env .faketimeDontFakeMonotonic = none) (he₂ : env .dontFakeMonotonic = none)
    (hmode : s.ftMode = .startAt) (htick : s.userPerTickIncSet = false)
    (hlim : s.limitedFaking = false) (hin : s.infileSet = false) (hfile : s.parseConfigFile = false)
    (hhead : setting.head? ≠ some '%')
    (hsaved : s.userFakedTimeSaved = setting.take (bufferlen - 1)) :
    Serves plainBuild (calmWorld env clock ⟨0, 0⟩ s) := by
  have hmono : MonotonicFixed (calmWorld env clock ⟨0, 0⟩ s) none none :=
    ⟨fun _ => congrArg some he₁, fun _ => congrArg some he₂, nofun⟩
  have hsteady : Steady plainBuild setting (calmWorld env clock ⟨0, 0⟩ s) :=
    ⟨rfl, ⟨fun n => ⟨_, rfl⟩, fun _ => rfl, fun _ => rfl, fun _ _ => ⟨_, rfl⟩⟩,
      by decide, hlim, hin, rfl, nofun, fun _ => congrArg some henv, none, none, hmono⟩
  exact hsteady.serves hmode htick hfile hhead hsaved

theorem doubleSpeed_serves (clock : ℕ → ClockId → Timespec) :
    Serves plainBuild (calmWorld doubleSpeedEnv clock ⟨0, 0⟩ doubleSpeed) :=
  serves_calmWorld clock rfl rfl rfl rfl rfl rfl rfl rfl (by decide) rfl

/-- The environment of `FAKETIME='+50'`. -/
def fiftyAheadEnv : EnvVar → Option CStr
  | .faketime => some "+50".toList
  | _ => none

/-- A process with that setting that was started at the same time. -/
def fiftyAhead : Proc :=
  { doubleSpeed with
    userRate := 1
    userRateSet := false
    userFakedTimeSaved := "+50".toList }

theorem fiftyAhead_timesStored : fiftyAhead.TimesStored :=
  ⟨doubleSpeed_timesStored.base, doubleSpeed_timesStored.start⟩

theorem fiftyAhead_serves (clock : ℕ → ClockId → Timespec) :
    Serves plainBuild (calmWorld fiftyAheadEnv clock ⟨0, 0⟩ fiftyAhead) :=
  serves_calmWorld clock rfl rfl rfl rfl rfl rfl rfl rfl (by decide) rfl

end LibFaketime
