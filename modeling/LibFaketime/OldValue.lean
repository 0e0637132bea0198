import LibFaketime.Calls
import LibFaketime.Clock

/-!
# The old value of a timer

`timer_gettime` shows the time a timer has left as a length, at the rate of the user.
`timer_settime` should leave the same in `*old_value`. It does not: it takes what is left for a
reading of `CLOCK_REALTIME` and asks `fake_clock_gettime` what the clock shows then, which also
takes a tick or a record of the load file, or remembers the two times in the caches.

What such a reading leads to is described first, for every setting and whatever the system
does (`LibFaketime.ends_fakeClockGettime`). The two values are the same and nothing is moved only
if the reading happens to be taken for what it is as a length
(`LibFaketime.timer_old_value_iff`).
-/

namespace LibFaketime

open Effects Effects.Prog Saturate

/-! ### What moves -/

/-- The counters of a reading: the ticks, the record that is next, and whether the records are
still read. -/
def World.counters (w : World) : ℕ × ℕ × Bool := (w.shm.ticks, w.shm.fileIdx, w.proc.infileSet)

/-- The state of the faked clock that readings move: the counters and the caches. -/
def World.faketimeState (w : World) : (ℕ × ℕ × Bool) × SystemTime × SystemTime :=
  (w.counters, w.proc.caches)

/-- Nothing is moved, and the settings are the same. -/
structure Kept (w w' : World) : Prop where
  core : w'.proc.core = w.proc.core
  caches : w'.proc.caches = w.proc.caches
  shm : w'.shm = w.shm

section Kept

variable {w w₁ w₂ : World}

theorem Kept.refl (w : World) : Kept w w := ⟨rfl, rfl, rfl⟩

theorem Kept.trans (h : Kept w w₁) (h' : Kept w₁ w₂) : Kept w w₂ :=
  ⟨h'.core.trans h.core, h'.caches.trans h.caches, h'.shm.trans h.shm⟩

theorem Kept.field {β : Type} (h : Kept w w₁) (f : Proc → β)
    (hf : ∀ s, f s.core = f s := by intro _; rfl) : f w₁.proc = f w.proc :=
  Proc.field_eq h.core f hf

theorem Kept.counters (h : Kept w w₁) : w₁.counters = w.counters := by
  rw [World.counters, World.counters, h.shm, h.field Proc.infileSet]

theorem Counted.kept (h : Counted w w₁) : Kept w w₁ := by
  obtain ⟨calls, spawned, rfl⟩ := h
  exact ⟨rfl, rfl, rfl⟩

end Kept

/-! ### The stages of a reading -/

/-- A call has been counted, if calls are counted. -/
def Proc.counted (s : Proc) : Proc :=
  if s.countsCalls then
    { s with callcounter := if s.callcounter < longMax then s.callcounter + 1 else s.callcounter }
  else s

/-- The limits exclude the reading `tp`. -/
def Proc.shutsOut (s : Proc) (clkId : ClockId) (tp : Timespec) : Bool :=
  s.limitedFaking && s.counted.outsideLimits (timespecsub tp (s.ftplStarttime.of clkId)).tvSec

/-- The settings, apart from whether the base is normalized. -/
def Proc.rebased (s : Proc) : Proc :=
  { s.core with userFakedTimeTimespec := normalizeTimespecValue s.userFakedTimeTimespec }

/-- **The configuration stays as it is**: a refresh, if it comes back, leaves the settings and
the shared block alone. -/
def ConfigStays (B : Build) (w : World) : Prop :=
  ∀ w₁ w₂, w₁.os = w.os → w₁.file = w.file → w₁.proc.rebased = w.proc.rebased →
    (refreshConfig B).run seq w₁ = .ok ((), w₂) → w₂.proc.core = w₁.proc.core ∧ w₂.shm = w₁.shm

/-- What the switch on the mode makes of a reading, unless it takes a tick. -/
def World.readingByMode (w : World) (clkId : ClockId) (tp : Timespec) : Option Outcome :=
  match w.proc.ftMode with
  | .freeze => some (.faked (if w.proc.userFakedTimeSet then w.proc.userFakedTimeTimespec else tp))
  | .startAt =>
    if w.proc.userPerTickIncSet then if w.proc.sharedSemInitialized then none else some (.faked tp)
    else some (.faked (w.proc.startAt clkId tp))
  | .noop => some (.abort (-1) tp)

/-- **What the locked part of a query makes of a reading**, unless it moves a counter. -/
def World.reading (w : World) (clkId : ClockId) (tp : Timespec) : Option Outcome :=
  if w.proc.shutsOut clkId tp then some (.abort 0 tp)
  else if w.proc.sharedSemInitialized && w.proc.infileSet then none
  else w.readingByMode clkId tp

/-- What is known after the locked part: it has made `o` of the reading, or moved a counter. -/
def Leads (w : World) (expected : Option Outcome) (o : Outcome) (w' : World) : Prop :=
  match expected with
  | some o' => o = o' ∧ Kept w w'
  | none => w'.counters ≠ w.counters

section Stages

variable {B : Build} {w w' : World} {clkId : ClockId} {tp : Timespec} {β : Type}

/-- Assignments inside a query leave the caches alone. -/
theorem caches_of_run {p : Sys β} {locks : Prop} (hp : p.Uses (Inner locks)) :
    p.Ends seq w fun _ w' => w'.proc.caches = w.proc.caches :=
  proc_of_run (J := fun s => s.caches = w.proc.caches) hp (fun _ ho => ho.1.1)
    (fun _ hf s hs => (hf.2 s).trans hs) rfl

/-- A load file, once left, is not entered again. -/
theorem left_of_run {p : Sys β} {locks : Prop} (hp : p.Uses (Routine locks))
    (hw : w.proc.infileSet = false) : p.Ends seq w fun _ w' => w'.proc.infileSet = false :=
  proc_of_run (J := fun s => s.infileSet = false) hp (fun _ ho => ho)
    (fun _ hf s hs => (hf.1 s).2 hs) hw

/-- Saving a time changes neither variables nor the shared block. -/
theorem ends_saveTime {retries : ℕ} :
    (saveTime retries tp).Ends seq w fun _ w' => w'.proc = w.proc ∧ w'.shm = w.shm := by
  refine (saves_saveTime retries tp).ends (J := fun v : World => v.proc = w.proc ∧ v.shm = w.shm)
    (fun v o r v' ho hv hr => ?_) ⟨rfl, rfl⟩
  have hask : ∀ {f : o.Ans → World → World}, v.ask o f = .ok (r, v') →
      (∀ r x, (f r x).proc = x.proc ∧ (f r x).shm = x.shm) → v'.proc = w.proc ∧ v'.shm = w.shm := by
    intro f heq hf
    obtain ⟨-, rfl⟩ := World.ask_eq_ok heq
    exact ⟨(hf r v.tick).1.trans hv.1, (hf r v.tick).2.trans hv.2⟩
  cases o
  case load | perror =>
    cases hr
    exact hv
  case exit => cases hr
  case stalled => cases hr
  case ftSemLock =>
    rw [seq_ftSemLock] at hr
    split at hr
    · cases hr
    · exact hask hr fun _ _ => ⟨rfl, rfl⟩
  case ftSemUnlock =>
    rw [seq_ftSemUnlock] at hr
    exact hask hr fun _ _ => ⟨rfl, rfl⟩
  case write bytes =>
    rw [seq_write] at hr
    exact hask hr fun _ _ => ⟨rfl, rfl⟩
  all_goals exact ho.elim

theorem runs_countCall_counted :
    countCall.Runs seq w fun _ w' => w' = { w with proc := w.proc.counted } := by
  refine runs_load ?_
  unfold Proc.counted
  split
  · exact ⟨(), _, rfl, rfl⟩
  · exact runs_pure rfl

/-- **The limits and the external command**, with whatever limits. -/
theorem runs_limitsAndSpawn_counted : (limitsAndSpawn clkId tp).Runs seq w fun r w' =>
    r = w.proc.shutsOut clkId tp ∧
      ∃ b, w' = { w with proc := { w.proc.counted with spawned := b } } := by
  have hlimited : w.proc.counted.limitedFaking = w.proc.limitedFaking := by
    unfold Proc.counted
    split <;> rfl
  have hstart : w.proc.counted.ftplStarttime = w.proc.ftplStarttime := by
    unfold Proc.counted
    split <;> rfl
  have hshut : (w.proc.counted.limitedFaking && w.proc.counted.outsideLimits
      (timespecsub tp (w.proc.counted.ftplStarttime.of clkId)).tvSec) =
        w.proc.shutsOut clkId tp := by
    rw [Proc.shutsOut, hlimited, hstart]
  refine runs_countCall_counted.bind ?_
  rintro _ _ rfl
  refine runs_load ?_
  dsimp only
  rw [hshut]
  split
  · split
    next hout => exact runs_pure ⟨hout.symm, w.proc.counted.spawned, rfl⟩
    next hout =>
      have hfalse := Bool.not_eq_true _ ▸ hout
      split
      · exact runs_store (runs_spawn (runs_pure ⟨hfalse.symm, true, rfl⟩))
      · exact runs_pure ⟨hfalse.symm, w.proc.counted.spawned, rfl⟩
  next hnone =>
    have hfalse : w.proc.counted.limitedFaking = false := by
      cases hlim : w.proc.counted.limitedFaking with
      | false => rfl
      | true =>
        rw [hlim, Bool.true_or] at hnone
        exact absurd rfl hnone
    refine runs_pure ⟨?_, w.proc.counted.spawned, rfl⟩
    rw [← hshut, hfalse, Bool.false_and]

theorem counted_counted (b : Bool) :
    Counted w { w with proc := { w.proc.counted with spawned := b } } := by
  unfold Proc.counted
  split
  · exact ⟨_, b, rfl⟩
  · exact ⟨w.proc.callcounter, b, rfl⟩

theorem ends_limitsAndSpawn : (limitsAndSpawn clkId tp).Ends seq w fun r w' =>
    r = w.proc.shutsOut clkId tp ∧ Counted w w' := by
  refine runs_limitsAndSpawn_counted.ends.mono ?_
  rintro r _ ⟨hr, b, rfl⟩
  exact ⟨hr, counted_counted b⟩

/-- A refresh of a configuration that stays as it is. -/
theorem ConfigStays.ends_refreshConfig {w₀ : World} (h : ConfigStays B w) (hos : w₀.os = w.os)
    (hfile : w₀.file = w.file) (hproc : w₀.proc.rebased = w.proc.rebased) :
    (refreshConfig B).Ends seq w₀ fun _ w' => Kept w₀ w' := by
  rintro ⟨⟩ w' hr
  obtain ⟨hcore, hshm⟩ := h w₀ w' hos hfile hproc hr
  exact ⟨hcore, caches_of_run
      (inner_of_refreshing (refreshing_refreshConfig (trivial : True))) _ _ hr, hshm⟩

/-- A tick moves the counter of ticks. -/
theorem ends_nextTime {retries : ℕ} {ticklen : Proc → Timespec}
    (hshared : w.proc.sharedSemInitialized = true) :
    (nextTime retries tp ticklen).Ends seq w fun _ w' => w'.counters ≠ w.counters := by
  induction retries generalizing w with
  | zero => exact ends_stalled
  | succ retries ih =>
    refine ends_load ?_
    rw [hshared, if_pos rfl]
    refine ends_ftSemLock fun r => ?_
    cases r with
    | interrupted => exact ih (w := { w.tick with semHeld := false }) hshared
    | failed => exact ends_exit
    | acquired =>
      refine ends_load
        (ends_readShared (ends_load (ends_writeShared (ends_ftSemUnlock fun b => ?_))))
      have hmoved : (w.shm.ticks + 1) % 2 ^ 64 ≠ w.shm.ticks := by omega
      cases b with
      | true => exact ends_pure fun h => hmoved (congrArg Prod.fst h)
      | false => exact Ends.bind (Q := fun _ _ => False) ends_exit fun _ _ h => h.elim

/-- A record of the load file moves the counter of records; the end of the file is the end of
the replay. -/
theorem ends_loadTime {retries : ℕ} (hshared : w.proc.sharedSemInitialized = true)
    (hin : w.proc.infileSet = true) : (loadTime retries tp).Ends seq w fun r w' =>
      w'.counters ≠ w.counters ∧ (r.1 = false → w'.proc.infileSet = false) := by
  induction retries generalizing w with
  | zero => exact ends_stalled
  | succ retries ih =>
    refine ends_load ?_
    rw [hshared, hin, Bool.and_self, if_pos rfl]
    refine ends_ftSemLock fun r => ?_
    cases r with
    | interrupted => exact ih (w := { w.tick with semHeld := false }) hshared hin
    | failed => exact ends_exit
    | acquired =>
      have hunlock : ∀ (r : Bool × Timespec) (w₁ : World), w₁.counters ≠ w.counters →
          (r.1 = false → w₁.proc.infileSet = false) → (ftSemUnlock >>= fun b =>
            if b = true then pure r
            else (exit 1 "libfaketime: In load_time(), ft_sem_unlock failed" >>=
              fun _ : Unit => pure r)).Ends seq w₁ fun r w' =>
            w'.counters ≠ w.counters ∧ (r.1 = false → w'.proc.infileSet = false) := by
        intro r w₁ hmoved hleft
        refine ends_ftSemUnlock fun b => ?_
        cases b with
        | true => exact ends_pure ⟨hmoved, hleft⟩
        | false => exact Ends.bind (Q := fun _ _ => False) ends_exit fun _ _ h => h.elim
      refine ends_readShared ?_
      dsimp only
      split
      · -- the file is used up
        have hleft : leaveReplay.Ends seq { w.tick with semHeld := true } fun _ w' =>
            w'.proc.infileSet = false := by
          refine ends_store
            (Ends.bind (Q := fun _ _ => True) (fun _ _ _ => trivial) fun _ _ _ => ?_)
          refine ends_perform_bind (I := sys) fun _ _ _ => ?_
          rintro _ _ ⟨⟩
          rfl
        refine hleft.bind fun _ w' h => hunlock (false, tp) w' (fun heq => ?_) fun _ => h
        have hsame : w'.proc.infileSet = w.proc.infileSet := congrArg (fun c => c.2.2) heq
        rw [h, hin] at hsame
        cases hsame
      · refine ends_load (ends_writeShared (hunlock (true, _) _ (fun h => ?_) nofun))
        have hmoved : (w.shm.fileIdx + 1) % 2 ^ 64 ≠ w.shm.fileIdx := by omega
        exact hmoved (congrArg (fun c => c.2.1) h)

theorem ends_fakeByMode : (fakeByMode B clkId tp).Ends seq w fun o w' =>
    Leads w (w.readingByMode clkId tp) o w' := by
  refine ends_load ?_
  unfold World.readingByMode
  cases w.proc.ftMode with
  | freeze => exact ends_pure ⟨rfl, .refl w⟩
  | noop => exact ends_pure ⟨rfl, .refl w⟩
  | startAt =>
    dsimp only
    split
    · cases hshared : w.proc.sharedSemInitialized with
      | true => exact (ends_nextTime hshared).bind fun _ _ h => ends_pure h
      | false =>
        refine Ends.bind (Q := fun r w' => r = tp ∧ w' = w) ?_ ?_
        · cases hretries : B.retries with
          | zero => exact ends_stalled
          | succ n =>
            refine ends_load ?_
            rw [hshared, if_neg (by simp)]
            exact ends_pure ⟨rfl, rfl⟩
        · rintro _ _ ⟨rfl, rfl⟩
          exact ends_pure ⟨rfl, .refl _⟩
    · exact ends_pure ⟨rfl, .refl w⟩

/-- What is known of the switch on the mode from a world that is like it. -/
theorem Kept.leads {w₁ : World} {o : Outcome} (h : Kept w w₁)
    (hl : Leads w₁ (w₁.readingByMode clkId tp) o w') : Leads w (w.readingByMode clkId tp) o w' := by
  have heq : w₁.readingByMode clkId tp = w.readingByMode clkId tp :=
    h.field fun s => ({ w with proc := s } : World).readingByMode clkId tp
  rw [heq] at hl
  unfold Leads at hl ⊢
  split at hl
  · exact ⟨hl.1, h.trans hl.2⟩
  · rw [h.counters] at hl
    exact hl

/-- **The locked part of a query**, whatever the system does, if it comes to an end. -/
theorem ends_fakeLocked {w₀ : World} (h : ConfigStays B w₀) (hos : w.os = w₀.os)
    (hfile : w.file = w₀.file) (hproc : w.proc.rebased = w₀.proc.rebased) :
    (fakeLocked B clkId tp).Ends seq w fun o w' => Leads w (w.reading clkId tp) o w' := by
  refine ends_limitsAndSpawn.bind ?_
  rintro _ w₁ ⟨rfl, hcounted⟩
  have h₁ := hcounted.kept
  unfold World.reading
  split
  · exact ends_pure ⟨rfl, h₁⟩
  · obtain ⟨calls, spawned, rfl⟩ := hcounted
    have hrefresh : (refreshConfig B).Ends seq { w with proc := { w.proc with
        callcounter := calls, spawned := spawned } } fun _ w' => Kept _ w' :=
      h.ends_refreshConfig hos hfile hproc
    refine hrefresh.bind fun _ w₂ h₂ => ends_load ?_
    have hkept := h₁.trans h₂
    have hmode : (fakeByMode B clkId tp).Ends seq w₂ fun o w' =>
        Leads w (w.readingByMode clkId tp) o w' := ends_fakeByMode.mono fun _ _ hl => hkept.leads hl
    rw [← hkept.field Proc.sharedSemInitialized, ← hkept.field Proc.infileSet]
    -- a file is replayed only by a process that shares a position in it
    cases hin : w₂.proc.infileSet with
    | false =>
      rw [if_neg (by simp), Bool.and_false, if_neg (by simp)]
      exact hmode
    | true =>
      rw [if_pos rfl, Bool.and_true]
      cases hshared : w₂.proc.sharedSemInitialized with
      | false =>
        rw [if_neg (by simp)]
        refine Ends.bind (Q := fun r w' => r = (false, tp) ∧ w' = w₂) ?_ ?_
        · cases B.retries with
          | zero => exact ends_stalled
          | succ n =>
            refine ends_load ?_
            rw [hshared, Bool.false_and, if_neg (by simp)]
            exact ends_pure ⟨rfl, rfl⟩
        · rintro _ _ ⟨rfl, rfl⟩
          exact hmode
      | true =>
        rw [if_pos rfl]
        refine (ends_loadTime hshared hin).bind ?_
        rintro ⟨loaded, tp'⟩ w₃ ⟨hmoved, hleft⟩
        rw [hkept.counters] at hmoved
        cases loaded with
        | true => exact ends_pure hmoved
        | false =>
          -- a process that has left replay once does not come back to it
          have hout := left_of_run (routine_of_plain (plain_fakeByMode (B := B) (trivial : True)
            clkId tp')) (hleft rfl)
          refine hout.mono fun _ w' hw' heq => ?_
          have hsame : w'.proc.infileSet = w.proc.infileSet := congrArg (fun c => c.2.2) heq
          rw [hw', ← hkept.field Proc.infileSet, hin] at hsame
          cases hsame

end Stages

/-! ### A reading -/

section Reading

variable {B : Build} {w w' : World} {clkId : ClockId} {tp : Timespec}

/-- What a query leaves: a result it has made of the outcome `o`, or a moved counter. -/
def Leaves (w : World) (clkId : ClockId) (tp : Timespec) (expected : Option Outcome)
    (r : ℤ × Timespec) (w' : World) : Prop :=
  match expected with
  | some (.abort code v) => r = (code, v) ∧ Kept w w'
  | some (.faked v) => r.2 = normalizeTimespecValue v ∧ w'.proc.core = w.proc.core ∧
      w'.counters = w.counters ∧ w'.proc.caches =
        (w.proc.cacheTimes clkId tp (normalizeTimespecValue v)).caches
  | none => w'.counters ≠ w.counters

theorem counters_cacheTimes {w₁ : World} {real fake : Timespec} :
    ({ w₁ with proc := w₁.proc.cacheTimes clkId real fake } : World).counters = w₁.counters := by
  obtain ⟨reals, fakes, hs⟩ := Proc.exists_cacheTimes clkId real fake w₁.proc
  rw [World.counters, hs]
  rfl

theorem core_cacheTimes {s : Proc} {real fake : Timespec} :
    (s.cacheTimes clkId real fake).core = s.core := by
  obtain ⟨reals, fakes, hs⟩ := Proc.exists_cacheTimes clkId real fake s
  rw [hs]
  rfl

theorem caches_cacheTimes {s s' : Proc} {real fake : Timespec} (h : s.caches = s'.caches) :
    (s.cacheTimes clkId real fake).caches = (s'.cacheTimes clkId real fake).caches := by
  have h₁ : s.ftplTimecache = s'.ftplTimecache := congrArg Prod.fst h
  have h₂ : s.ftplFaketimecache = s'.ftplFaketimecache := congrArg Prod.snd h
  unfold Proc.cacheTimes Proc.caches
  split <;> simp only [h₁, h₂]

/-- **The frame of a query**: what its locked part leaves, the last part of it meets. -/
theorem ends_of_locked {Q : Outcome → World → Prop} {R : ℤ × Timespec → World → Prop}
    (hfake : w.dontFake = false) (hcpu : clkId.IsCpu = false)
    (hlocked : ∀ b, (fakeLocked B clkId tp).Ends seq { w with mutexHeld := b } Q)
    (hend : ∀ o w₁ b, Q o w₁ →
      (finishQuery B clkId tp o).Ends seq { w₁ with mutexHeld := b } R) :
    (fakeClockGettime B clkId tp).Ends seq w R := by
  refine ends_dontFake ?_
  rw [hfake, if_neg (by simp), hcpu, if_neg (by simp)]
  cases B.pthreadSinglethreadedTime with
  | false =>
    rw [if_neg (by simp)]
    refine (hlocked w.mutexHeld).bind fun o w₁ hq => ?_
    rw [if_neg (by simp)]
    exact hend o w₁ w₁.mutexHeld hq
  | true =>
    rw [if_pos rfl]
    refine ends_perform_bind (I := sys) fun _ w₁ ho => ?_
    rw [seq_timeMutexLock] at ho
    split at ho
    · cases ho
    · cases ho
      refine (hlocked true).bind fun o w₁ hq => ?_
      rw [if_pos rfl]
      refine ends_perform_bind (I := sys) ?_
      rintro _ _ ⟨⟩
      exact hend o w₁ false hq

/-- The last part of a query does not touch the shared block. -/
theorem ends_shm_of_locked {J : FtShared → Prop} (hfake : w.dontFake = false)
    (hcpu : clkId.IsCpu = false)
    (hlocked : ∀ b, (fakeLocked B clkId tp).Ends seq { w with mutexHeld := b }
      fun _ w' => J w'.shm) : (fakeClockGettime B clkId tp).Ends seq w fun _ w' => J w'.shm := by
  refine ends_of_locked hfake hcpu hlocked fun o w₁ b h₁ => ?_
  cases o with
  | abort code v => exact ends_pure h₁
  | faked v =>
    refine ends_saveTime.bind ?_
    rintro _ w₂ ⟨-, hshm⟩
    refine ends_store (ends_pure ?_)
    rw [← show w₂.shm = w₁.shm from hshm] at h₁
    exact h₁

/-- **Whatever the system does, a query that returns** has done what the settings make of the
reading. -/
theorem ends_fakeClockGettime {w₀ : World} (h : ConfigStays B w₀) (hos : w.os = w₀.os)
    (hfile : w.file = w₀.file) (hproc : w.proc.rebased = w₀.proc.rebased)
    (hfake : w.dontFake = false) (hcpu : clkId.IsCpu = false) :
    (fakeClockGettime B clkId tp).Ends seq w fun r w' =>
      Leaves w clkId tp (w.reading clkId tp) r w' := by
  -- the save file and the caches
  have hend : ∀ o w₁, Leads w (w.reading clkId tp) o w₁ →
      (finishQuery B clkId tp o).Ends seq w₁ (Leaves w clkId tp (w.reading clkId tp)) := by
    intro o w₁ hl
    generalize w.reading clkId tp = expected at hl ⊢
    cases o with
    | abort code v =>
      cases expected with
      | none => exact ends_pure hl
      | some o' =>
        obtain ⟨rfl, hkept⟩ := hl
        exact ends_pure ⟨rfl, hkept⟩
    | faked v =>
      refine ends_saveTime.bind ?_
      rintro _ w₂ ⟨hproc₂, hshm₂⟩
      refine ends_store (ends_pure ?_)
      have hcounters : w₂.counters = w₁.counters := by
        rw [World.counters, World.counters, hproc₂, hshm₂]
      cases expected with
      | none => exact (counters_cacheTimes.trans hcounters).trans_ne hl
      | some o' =>
        obtain ⟨rfl, hkept⟩ := hl
        refine ⟨rfl, core_cacheTimes.trans ((congrArg Proc.core hproc₂).trans hkept.core),
          (counters_cacheTimes.trans hcounters).trans hkept.counters, caches_cacheTimes ?_⟩
        rw [hproc₂]
        exact hkept.caches
  have hlocked : ∀ b, (fakeLocked B clkId tp).Ends seq { w with mutexHeld := b } fun o w' =>
      Leads w (w.reading clkId tp) o w' := by
    intro b
    refine (ends_fakeLocked (w := { w with mutexHeld := b }) h hos hfile hproc).mono
      fun o w' hl => ?_
    revert hl
    change Leads { w with mutexHeld := b } (w.reading clkId tp) o w' → _
    unfold Leads
    cases w.reading clkId tp with
    | none => exact id
    | some o' => exact fun hl => ⟨hl.1, hl.2.core, hl.2.caches, hl.2.shm⟩
  refine ends_of_locked hfake hcpu hlocked fun o w₁ b hl => hend o _ ?_
  revert hl
  unfold Leads
  cases w.reading clkId tp with
  | none => exact id
  | some o' => exact fun hl => ⟨hl.1, hl.2.core, hl.2.caches, hl.2.shm⟩

end Reading

/-! ### A length taken for a reading -/

section Length

variable {s : Proc} {w w' : World} {t v : Timespec} {r : ℤ × Timespec}

/-- A length as `timer_gettime` shows it. -/
def Proc.scaleUp (s : Proc) (t : Timespec) : Timespec :=
  if s.userRateSet then timespecmul t s.userRate else t

theorem ns_scaleUp (s : Proc) (t : Timespec) : (s.scaleUp t).ns = s.scaled t.ns := by
  unfold Proc.scaleUp Proc.scaled
  split
  · exact ns_timespecmul _ _
  · rfl

theorem normal_scaleUp (ht : t.Normal) : (s.scaleUp t).Normal := by
  unfold Proc.scaleUp
  split
  · exact normal_timespecmul _ _
  · exact ht

/-- The caches hold the length `t`, and what it is shown as. -/
def Proc.Remembers (s : Proc) (t : Timespec) : Prop :=
  s.ftplTimecache.real = t ∧ s.ftplFaketimecache.real = s.scaleUp t

/-- **A reading `t` of the realtime clock is taken for what it is as a length**, and moves
nothing: where the limits exclude it, or the mode, the rate does not change it. Where it is
faked no counter is involved, the faked time happens to be the length at the rate of the user,
and both are in the caches already. -/
def Proc.TakesForLength (s : Proc) (t : Timespec) : Prop :=
  if s.shutsOut .realtime t then s.scaled t.ns = t.ns
  else if s.sharedSemInitialized && s.infileSet then False
  else
    match s.ftMode with
    | .noop => s.scaled t.ns = t.ns
    | .freeze => (if s.userFakedTimeSet then s.userFakedTimeTimespec.ns else t.ns) = s.scaled t.ns ∧
        s.Remembers t
    | .startAt =>
      if s.userPerTickIncSet then
        s.sharedSemInitialized = false ∧ t.ns = s.scaled t.ns ∧ s.Remembers t
      else satNs (s.userFakedTimeTimespec.ns + s.scaled (satNs (t.ns - s.ftplStarttime.real.ns))) =
          s.scaled t.ns ∧ s.Remembers t

/-- Only the instant of the base matters. -/
theorem takesForLength_rebase {b : Timespec} (hb : b.ns = s.userFakedTimeTimespec.ns) :
    ({ s with userFakedTimeTimespec := b } : Proc).TakesForLength t ↔ s.TakesForLength t := by
  have hscaled : ({ s with userFakedTimeTimespec := b } : Proc).scaled = s.scaled := rfl
  have hremembers : ({ s with userFakedTimeTimespec := b } : Proc).Remembers t ↔ s.Remembers t :=
    Iff.rfl
  have hshuts : ({ s with userFakedTimeTimespec := b } : Proc).shutsOut .realtime t =
      s.shutsOut .realtime t := by
    have hcounted : ({ s with userFakedTimeTimespec := b } : Proc).counted =
        { s.counted with userFakedTimeTimespec := b } := by
      unfold Proc.counted
      by_cases hc : s.countsCalls = true
      · rw [if_pos hc,
          if_pos (show Proc.countsCalls { s with userFakedTimeTimespec := b } = true from hc)]
      · rw [if_neg hc,
          if_neg (show ¬ Proc.countsCalls { s with userFakedTimeTimespec := b } = true from hc)]
    rw [Proc.shutsOut, hcounted]
    rfl
  unfold Proc.TakesForLength
  rw [hscaled, hshuts]
  simp only [hb, hremembers]

/-- A faked time leaves what a length leaves. -/
theorem faked_iff (ht : t.Normal) : (normalizeTimespecValue v = s.scaleUp t ∧
      (s.cacheTimes .realtime t (normalizeTimespecValue v)).caches = s.caches) ↔
    v.ns = s.scaled t.ns ∧ s.Remembers t := by
  have hshown : normalizeTimespecValue v = s.scaleUp t ↔ v.ns = s.scaled t.ns := by
    rw [← ns_scaleUp, ← ns_normalizeTimespecValue v]
    exact ⟨congrArg Timespec.ns,
      Timespec.ext_ns (normal_normalizeTimespecValue v) (normal_scaleUp ht)⟩
  rw [hshown]
  refine and_congr_right fun hns => ?_
  rw [hshown.mpr hns]
  unfold Proc.Remembers Proc.caches Proc.cacheTimes
  constructor
  · intro h
    have h₁ := congrArg (fun c => c.1.real) h
    have h₂ := congrArg (fun c => c.2.real) h
    exact ⟨h₁.symm, h₂.symm⟩
  · rintro ⟨rfl, h₂⟩
    rw [← h₂]

/-- **When a reading leaves what a length leaves.** -/
theorem leaves_length_iff (hs : w.proc.TimesStored) (ht : t.Normal)
    (h : Leaves w .realtime t (w.reading .realtime t) r w') :
    (r.2 = w.proc.scaleUp t ∧ w'.faketimeState = w.faketimeState) ↔ w.proc.TakesForLength t := by
  have hself : t = w.proc.scaleUp t ↔ t.ns = w.proc.scaled t.ns := by
    rw [← ns_scaleUp]
    exact ⟨congrArg Timespec.ns, Timespec.ext_ns ht (normal_scaleUp ht)⟩
  have hnone : w'.counters ≠ w.counters →
      ((r.2 = w.proc.scaleUp t ∧ w'.faketimeState = w.faketimeState) ↔ False) := fun hmoved =>
    iff_of_false (fun h => hmoved (congrArg Prod.fst h.2)) id
  have habort : ∀ code, r = (code, t) ∧ Kept w w' →
      ((r.2 = w.proc.scaleUp t ∧ w'.faketimeState = w.faketimeState) ↔
        w.proc.scaled t.ns = t.ns) := by
    rintro code ⟨rfl, hkept⟩
    have hstate : w'.faketimeState = w.faketimeState :=
      congrArg₂ Prod.mk hkept.counters hkept.caches
    rw [eq_comm (a := w.proc.scaled t.ns), ← hself]
    exact and_iff_left hstate
  have hfaked : ∀ v, Leaves w .realtime t (some (.faked v)) r w' →
      ((r.2 = w.proc.scaleUp t ∧ w'.faketimeState = w.faketimeState) ↔
        v.ns = w.proc.scaled t.ns ∧ w.proc.Remembers t) := by
    rintro v ⟨hr, -, hcounters, hcaches⟩
    rw [← faked_iff ht, hr, ← hcaches]
    refine and_congr_right fun _ => ⟨fun h => congrArg Prod.snd h, fun h => ?_⟩
    exact congrArg₂ Prod.mk hcounters h
  -- the cases of a query: shut out by the limits, replayed, and one for each mode
  unfold World.reading at h
  unfold Proc.TakesForLength
  split at h
  next hout =>
    rw [if_pos hout]
    exact habort 0 h
  next hout =>
    rw [if_neg hout]
    split at h
    next hreplay =>
      rw [if_pos hreplay]
      -- a record is used up, so the state is another one afterwards
      exact hnone h
    next hreplay =>
      rw [if_neg hreplay]
      unfold World.readingByMode at h
      cases hmode : w.proc.ftMode with
      | noop =>
        rw [hmode] at h
        exact habort (-1) h
      | freeze =>
        rw [hmode] at h
        refine (hfaked _ h).trans ?_
        dsimp only
        split <;> rfl
      | startAt =>
        rw [hmode] at h
        dsimp only at h ⊢
        split at h
        next htick =>
          rw [if_pos htick]
          split at h
          next hshared =>
            -- a tick is taken, which moves the shared counter
            refine (hnone h).trans ⟨False.elim, fun hf => ?_⟩
            rw [hshared] at hf
            exact absurd hf.1 (by simp)
          next hshared =>
            refine (hfaked _ h).trans ?_
            simp only [Bool.not_eq_true] at hshared
            simp only [hshared, true_and]
        next htick =>
          rw [if_neg htick]
          refine (hfaked _ h).trans ?_
          rw [hs.ns_startAt ht]
          rfl

end Length

/-! ### The two functions -/

section Functions

variable {B : Build} {w : World} {c : ClockId} {K : Itimerspec} {abstime : Bool}
  {new : Option Itimerspec}

/-- A base that is the same up to normalization. -/
def SameBase (s : Proc) (b : Timespec) : Prop :=
  b = s.userFakedTimeTimespec ∨ b = normalizeTimespecValue s.userFakedTimeTimespec

theorem SameBase.ns {s : Proc} {b : Timespec} (h : SameBase s b) :
    b.ns = s.userFakedTimeTimespec.ns := by
  rcases h with rfl | rfl
  · rfl
  · exact ns_normalizeTimespecValue _

theorem SameBase.stored {s : Proc} {b : Timespec} (h : SameBase s b)
    (hs : s.userFakedTimeTimespec.Stored) : b.Stored := by
  rcases h with rfl | rfl
  · exact hs
  · exact (normal_normalizeTimespecValue _).stored

theorem SameBase.rebased {s : Proc} {b : Timespec} (h : SameBase s b) :
    ({ s with userFakedTimeTimespec := b } : Proc).rebased = s.rebased := by
  have hnormal : normalizeTimespecValue b = normalizeTimespecValue s.userFakedTimeTimespec := by
    rcases h with rfl | rfl
    · rfl
    · exact normalizeTimespecValue_of_normal (normal_normalizeTimespecValue _)
  unfold Proc.rebased
  rw [show ({ s with userFakedTimeTimespec := b } : Proc).userFakedTimeTimespec = b from rfl,
    hnormal]
  rfl

/-- The setting of a timer is computed without any call to the system. -/
theorem ends_realSetting (skip : Bool) : (realSetting skip abstime c new).Ends seq w fun _ w' =>
    ∃ b, SameBase w.proc b ∧
      w' = { w with proc := { w.proc with userFakedTimeTimespec := b } } := by
  have hsame : ∃ b, SameBase w.proc b ∧
      w = { w with proc := { w.proc with userFakedTimeTimespec := b } } :=
    ⟨w.proc.userFakedTimeTimespec, Or.inl rfl, rfl⟩
  have hvalue : ∀ value, (realValue abstime c value).Ends seq w fun _ w' => ∃ b, SameBase w.proc b ∧
      w' = { w with proc := { w.proc with userFakedTimeTimespec := b } } := by
    intro value
    unfold realValue
    split
    · exact ends_pure hsame
    · split
      · refine ends_load ?_
        split
        · exact ends_store (ends_load (ends_pure ⟨_, Or.inr rfl, rfl⟩))
        · split <;> exact ends_pure hsame
      · exact ends_load (ends_pure hsame)
  cases new with
  | none => exact ends_pure hsame
  | some v =>
    unfold realSetting
    dsimp only
    split
    · exact ends_pure hsame
    · refine (hvalue v.itValue).bind ?_
      rintro _ _ ⟨b, hb, rfl⟩
      exact ends_load (ends_pure ⟨b, hb, rfl⟩)

/-- An interval is scaled in the same way by both. -/
theorem scaleUp_interval (s : Proc) {t : Timespec} (ht : t.Normal) :
    (if s.userRateSet && !t.isZero then timespecmul t s.userRate else t) = s.scaleUp t := by
  unfold Proc.scaleUp
  cases s.userRateSet with
  | false => rfl
  | true =>
    cases hz : t.isZero with
    | false => rfl
    | true =>
      have hzero : (timespecmul t s.userRate).ns = t.ns := by
        rw [ns_timespecmul, ns_of_isZero hz, Int.cast_zero, zero_mul]
        decide
      exact (Timespec.ext_ns (normal_timespecmul _ _) ht hzero).symm

/-- What `timer_settime` leaves of what the kernel has left. -/
theorem ends_returnedParts {w₀ : World} {rest : ℤ × Timespec → Sys (ℤ × Option Itimerspec)}
    (hrest : rest = fun x => load >>= fun s => pure (x.1, some ⟨if s.userRateSet &&
      !K.itInterval.isZero then timespecmul K.itInterval s.userRate else K.itInterval, x.2⟩))
    (h : ConfigStays B w₀) (hos : w.os = w₀.os)
    (hfile : w.file = w₀.file) (hproc : w.proc.rebased = w₀.proc.rebased)
    (hfake : w.dontFake = false) (hs : w.proc.TimesStored) (hv : K.itValue.Normal)
    (hi : K.itInterval.Normal) :
    (if K.itValue.isZero then pure (0, K.itValue) >>= rest
      else fakeClockGettime B .realtime K.itValue >>= rest).Ends seq w fun r w' =>
      ((r.2 = some ⟨w.proc.scaleUp K.itInterval, w.proc.scaleUp K.itValue⟩ ∧
          w'.faketimeState = w.faketimeState) ↔
        K.itValue.isZero = true ∨ w.proc.TakesForLength K.itValue) := by
  subst hrest
  split
  next hz =>
    -- nothing is left, and the clock is not asked
    refine ends_load (ends_pure (iff_of_true ⟨?_, rfl⟩ (Or.inl hz)))
    have hzero : w.proc.scaleUp K.itValue = K.itValue := by
      rw [← scaleUp_interval w.proc hv, hz]
      simp
    rw [scaleUp_interval w.proc hi, hzero]
  next hz =>
    refine (ends_fakeClockGettime h hos hfile hproc hfake rfl).bind fun x w₁ hl => ?_
    refine ends_load (ends_pure ?_)
    have hiff := leaves_length_iff hs hv hl
    simp only [hz, Bool.false_eq_true, false_or]
    rw [← hiff, scaleUp_interval w₁.proc hi]
    simp only [Option.some.injEq, Itimerspec.mk.injEq]
    refine ⟨fun hr => ⟨hr.1.2, hr.2⟩, fun hr => ⟨⟨?_, hr.1⟩, hr.2⟩⟩
    -- the rate is the one from before the reading
    unfold Leaves at hl
    split at hl
    · exact hl.2.field fun s => s.scaleUp K.itInterval
    · exact Proc.field_eq hl.2.1 fun s => s.scaleUp K.itInterval
    · exact absurd (congrArg Prod.fst hr.2) hl

/-- **The old value of a timer is what `timer_gettime` would have shown, and nothing is moved, if
and only if the time left is not taken for a reading, or is taken for what it is.** The
configuration stays as it is, and the kernel has the time `K` left on a timer, of any clock.
`timer_gettime` or `timerfd_gettime` shows a value of it, and then `timer_settime` or
`timerfd_settime` is called. When it returns, it has left the same value in `*old_value` and
the ticks, the records and the caches where they were, if and only if the thread is not faked,
no time is left, or the reading of the realtime clock that the kernel's value is taken for is
taken for a length after all. -/
theorem timer_old_value_iff (hstays : ConfigStays B w) (hs : w.proc.TimesStored)
    (hv : K.itValue.Normal) (hi : K.itInterval.Normal)
    (hget : w.os w.now .realTimerGettime = some (0, some K))
    (hset : ∀ new, w.os (w.now + 1) (.realTimerSettime abstime new) = some (0, some K)) :
    ∃ curr, timerGettimeCommon.run seq w = .ok ((0, some curr), w.tick) ∧
      (timerSettimeCommon B abstime c new).Ends seq w.tick fun r w' =>
        ((r.2 = some curr ∧ w'.faketimeState = w.faketimeState) ↔
          w.dontFake = true ∨ K.itValue.isZero = true ∨ w.proc.TakesForLength K.itValue) := by
  refine ⟨if w.dontFake then K else ⟨w.proc.scaleUp K.itInterval, w.proc.scaleUp K.itValue⟩, ?_, ?_⟩
  · unfold timerGettimeCommon
    rw [realTimerGettime, run_ask rfl hget]
    dsimp only
    rw [if_neg (by decide), run_load, run_dontFake]
    unfold Proc.scaleUp
    change (if w.proc.userRateSet && !w.dontFake then _ else _ : Sys _).run seq w.tick = _
    cases w.dontFake <;> cases w.proc.userRateSet <;> rfl
  · refine ends_dontFake ((ends_realSetting _).bind ?_)
    rintro newReal _ ⟨b, hb, rfl⟩
    refine ends_ask rfl fun r hr => ?_
    obtain rfl : r = (0, some K) := Option.some.inj (hr.symm.trans (hset newReal))
    dsimp only
    rw [if_neg (by decide), show w.tick.dontFake = w.dontFake from rfl]
    cases hfake : w.dontFake with
    | true =>
      rw [if_pos rfl, if_pos rfl]
      exact ends_pure (iff_of_true ⟨rfl, rfl⟩ (Or.inl rfl))
    | false =>
      rw [if_neg Bool.false_ne_true, if_neg Bool.false_ne_true]
      -- the request may have normalized the base, which is the same time
      have hbase : Proc.TimesStored { w.proc with userFakedTimeTimespec := b } :=
        ⟨hb.stored hs.base, hs.start⟩
      refine Ends.mono (ends_returnedParts rfl hstays rfl rfl hb.rebased rfl hbase hv hi)
        fun r w' hr => ?_
      rw [← takesForLength_rebase (s := w.proc) hb.ns]
      simp only [Bool.false_eq_true, false_or]
      exact hr

/-- A configuration that is in the environment and has been applied stays as it is. -/
theorem configStays_of_unchanged {setting : CStr} {e₁ e₂ : Option CStr}
    (hclock : ∀ n, ∃ t, w.os n (.realClockGettime .realtime) = some (some t))
    (henv : ∀ n, w.os n (.getenv .faketime) = some (some setting))
    (hfile : w.proc.parseConfigFile = false)
    (hsaved : unchangedSetting (setting.take (bufferlen - 1)) w.proc.userFakedTimeSaved = true)
    (hmono : MonotonicFixed w e₁ e₂) : ConfigStays B w := by
  intro w₁ w₂ hos _ hset hr
  have hfield : ∀ {β : Type} (f : Proc → β), (∀ s : Proc, f s.rebased = f s) →
      f w₁.proc = f w.proc := fun f hf => by rw [← hf, hset, hf]
  have hfile₁ := hfield Proc.parseConfigFile fun _ => rfl
  have hsaved₁ := hfield Proc.userFakedTimeSaved fun _ => rfl
  have hmono₁ : MonotonicFixed w₁ e₁ e₂ := by
    refine ⟨?_, ?_, fun v hv =>
      (hfield Proc.fakeMonotonicClock fun _ => rfl).trans (hmono.same v hv)⟩
    · rw [hos]
      exact hmono.first
    · rw [hos]
      exact hmono.second
  obtain ⟨_, w', hr', hlike, hshm⟩ := runs_refreshConfig_unchanged (B := B) (w := w₁)
    (by rw [hos]; exact hclock _) (by rw [hos]; exact henv) (hfile₁.trans hfile)
    (by rw [hsaved₁]; exact hsaved) hmono₁
  rw [hr'] at hr
  cases hr
  exact ⟨hlike.core, hshm⟩

/-- The process with the offset of fifty seconds, on a system that has the time `K` left on a
timer. -/
def timerWorld (K : Itimerspec) : World :=
  { calmWorld fiftyAheadEnv (fun _ _ => ⟨60, 0⟩) ⟨0, 0⟩ fiftyAhead with
    os := fun n o => match o with
      | .realTimerGettime | .realTimerSettime _ _ => some (0, some K)
      | o => calmOs fiftyAheadEnv (fun _ _ => ⟨60, 0⟩) ⟨0, 0⟩ n o }

/-- A timer that has expired, and will again in five seconds. -/
theorem timer_old_value_of_expired :
    let w := timerWorld ⟨⟨5, 0⟩, ⟨0, 0⟩⟩
    ∃ curr, timerGettimeCommon.run seq w = .ok ((0, some curr), w.tick) ∧
      (timerSettimeCommon plainBuild false .realtime none).Ends seq w.tick fun r w' =>
        r.2 = some curr ∧ w'.faketimeState = w.faketimeState := by
  have hstays : ConfigStays plainBuild (timerWorld ⟨⟨5, 0⟩, ⟨0, 0⟩⟩) :=
    configStays_of_unchanged (fun _ => ⟨_, rfl⟩) (fun _ => rfl) rfl rfl
      ⟨fun _ => rfl, fun _ => rfl, nofun⟩
  obtain ⟨curr, hget, hset⟩ : ∃ curr, _ ∧
      (timerSettimeCommon plainBuild false .realtime none).Ends seq _ fun r w' =>
        ((r.2 = some curr ∧ w'.faketimeState = _) ↔ _) :=
    timer_old_value_iff hstays fiftyAhead_timesStored (by decide) (by decide) rfl (fun _ => rfl)
  exact ⟨curr, hget, hset.mono fun _ _ h => h.mpr (Or.inr (Or.inl rfl))⟩

/-- Ten seconds are left on a timer. `timer_gettime` says so; `timer_settime` says that the
minute since the base has been left, and its reading stays in the caches. -/
theorem timer_old_value_is_a_reading :
    let w := timerWorld ⟨⟨0, 0⟩, ⟨10, 0⟩⟩
    timerGettimeCommon.run seq w = .ok ((0, some ⟨⟨0, 0⟩, ⟨10, 0⟩⟩), w.tick) ∧
      (timerSettimeCommon plainBuild false .realtime none).Runs seq w.tick fun r w' =>
        r = (0, some ⟨⟨0, 0⟩, ⟨60, 0⟩⟩) ∧ w'.faketimeState ≠ w.faketimeState := by
  refine ⟨rfl, _, _, rfl, rfl, ?_⟩
  decide

end Functions

end LibFaketime
