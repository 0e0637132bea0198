import LibFaketime.Blank
import LibFaketime.OldValue

/-!
# The cache of the configuration

A query reads the configuration again if that is due (`LibFaketime.Proc.Overdue`): because it has
never been read, because the clock has been set, or because the real clock shows a time that is
further from that of the last reading than the cache lasts. It is the real clock that is asked, and
the administrator may set it.

Whatever a program calls, and whatever the system answers, a call that returns has left the
configuration alone or has made what the sources say take effect (`LibFaketime.Settles`), and a
query that the limits do not exclude has done the latter exactly if it was due
(`LibFaketime.Queried`, `LibFaketime.ends_fakeClockGettime_cache`).
-/

namespace LibFaketime

open Effects Effects.Prog

/-! ### The configuration in effect -/

/-- **What the sources say is in effect**: the text that is to be used is the one that was applied
last, unless there is none that can be used, and the monotonic clocks are faked if the environment
says so. -/
structure UpToDate (S : Sources) (p : Proc) : Prop where
  text : S.used p.parseConfigFile = none ∨ S.used p.parseConfigFile = some p.userFakedTimeSaved
  monotonic : p.fakesMonotonic S.env = p.fakeMonotonicClock

instance (S : Sources) (p : Proc) : Decidable (UpToDate S p) :=
  decidable_of_iff ((S.used p.parseConfigFile = none ∨
    S.used p.parseConfigFile = some p.userFakedTimeSaved) ∧
      p.fakesMonotonic S.env = p.fakeMonotonicClock) ⟨fun h => ⟨h.1, h.2⟩, fun h => ⟨h.1, h.2⟩⟩

/-- **The configuration is due to be read again** at the real time `now`, in seconds. -/
def Proc.Overdue (now : ℤ) (p : Proc) : Prop :=
  p.forceCacheExpiration = true ∨ p.lastDataFetch ≤ 0 ∨ p.cacheDuration < now - p.lastDataFetch

instance (now : ℤ) (p : Proc) : Decidable (p.Overdue now) :=
  inferInstanceAs (Decidable (_ ∨ _ ∨ _))

/-- A process with a cache: one that has not read the configuration yet, or has read it before 1970,
has a cache that has expired. -/
structure Proc.Cached (p : Proc) : Prop where
  enabled : p.cacheEnabled = true
  unread : p.lastDataFetch ≤ 0 → p.cacheExpired = true
  room : p.userFakedTimeSaved.length < bufferlen

/-- What is in effect, and what decides when it is read again. -/
def Proc.config (p : Proc) : CStr × Bool × ℤ × Bool × ℤ × Bool :=
  (p.userFakedTimeSaved, p.fakeMonotonicClock, p.cacheDuration, p.forceCacheExpiration,
    p.lastDataFetch, p.parseConfigFile)

/-- **The configuration has been read** at the real time `now`. -/
structure Fetched (S : Sources) (now : ℤ) (p p' : Proc) : Prop where
  overdue : p.Overdue now
  upToDate : UpToDate S p'
  time : p'.lastDataFetch = now
  unforced : p'.forceCacheExpiration = false
  duration : p'.cacheDuration = p.cacheDuration
  latch : p'.parseConfigFile = p.parseConfigFile

/-- The configuration has been left alone, except that the setting of the monotonic clocks may have
been looked up. -/
def LeftAlone (S : Sources) (p p' : Proc) : Prop :=
  p'.config = p.config ∨
    p'.config = ({ p with fakeMonotonicClock := p.fakesMonotonic S.env } : Proc).config

/-- **What a call does to the configuration**: nothing, or what the sources say takes effect. -/
def Settles (S : Sources) (now : ℤ) (p p' : Proc) : Prop :=
  LeftAlone S p p' ∨ Fetched S now p p'

section Config

variable {S : Sources} {now : ℤ} {p p' p'' : Proc}

/-- **When the cache expires.** -/
theorem Proc.Cached.cacheExpired_iff (h : p.Cached) :
    (Proc.expireCache now p).cacheExpired = true ↔ p.Overdue now := by
  unfold Proc.expireCache Proc.Overdue
  dsimp only
  by_cases hread : 0 < p.lastDataFetch
  · simp only [if_pos hread, h.enabled, if_true]
    cases p.forceCacheExpiration with
    | true => simp
    | false => simp [not_le.mpr hread]
  · simp only [if_neg hread, h.enabled, if_true]
    cases p.forceCacheExpiration with
    | true => simp
    | false => simp [h.unread (not_lt.mp hread), not_lt.mp hread]

/-- As long as it has not expired, only the flag is touched. -/
theorem Proc.Cached.expireCache_eq (h : p.Cached) (hfresh : ¬ p.Overdue now) :
    Proc.expireCache now p = { p with cacheExpired := false } := by
  unfold Proc.Overdue at hfresh
  push Not at hfresh
  obtain ⟨hforce, hread, hage⟩ := hfresh
  have hforce' : p.forceCacheExpiration = false := by simpa using hforce
  unfold Proc.expireCache
  simp only [if_pos hread, h.enabled, if_true, hforce', Bool.false_eq_true, if_false,
    decide_eq_false (not_lt.mpr hage)]

/-- A process that has looked at its configuration is not forced to do so any more. -/
theorem Proc.unforced_looked : (p.looked now).forceCacheExpiration = false := by
  have hlast : ∀ q : Proc, (if q.forceCacheExpiration then
      { q with cacheExpired := true, forceCacheExpiration := false } else q).forceCacheExpiration =
        false := by
    intro q
    split
    · rfl
    next h => simpa using h
  exact hlast _

/-- The setting of the monotonic clocks, looked up twice. -/
theorem Proc.fakesMonotonic_set {env : EnvVar → Option CStr} :
    ({ p with fakeMonotonicClock := p.fakesMonotonic env } : Proc).fakesMonotonic env =
      p.fakesMonotonic env := by
  unfold Proc.fakesMonotonic
  split <;> rfl

theorem Proc.fakesMonotonic_eq {env : EnvVar → Option CStr}
    (h : p'.fakeMonotonicClock = p.fakeMonotonicClock) :
    p'.fakesMonotonic env = p.fakesMonotonic env := by
  unfold Proc.fakesMonotonic
  rw [h]

theorem Proc.overdue_of_config (h : p'.config = p.config) : p'.Overdue now ↔ p.Overdue now := by
  simp only [Proc.config, Prod.mk.injEq] at h
  obtain ⟨-, -, hduration, hforce, htime, -⟩ := h
  unfold Proc.Overdue
  rw [hduration, hforce, htime]

theorem UpToDate.of_config (hp : UpToDate S p) (h : p'.config = p.config) : UpToDate S p' := by
  simp only [Proc.config, Prod.mk.injEq] at h
  obtain ⟨hsaved, hmono, -, -, -, hlatch⟩ := h
  refine ⟨?_, ?_⟩
  · rw [hsaved, hlatch]
    exact hp.text
  · rw [Proc.fakesMonotonic_eq hmono, hmono]
    exact hp.monotonic

theorem UpToDate.looked_up (hp : UpToDate S p) :
    ({ p with fakeMonotonicClock := p.fakesMonotonic S.env } : Proc) = p := by
  rw [hp.monotonic]

theorem LeftAlone.upToDate (h : LeftAlone S p p') (hp : UpToDate S p) : UpToDate S p' := by
  rcases h with h | h
  · exact hp.of_config h
  · rw [hp.looked_up] at h
    exact hp.of_config h

theorem LeftAlone.trans (h : LeftAlone S p p') (h' : LeftAlone S p' p'') : LeftAlone S p p'' := by
  unfold LeftAlone at h h' ⊢
  have hmono : ∀ q q' : Proc, q'.config = q.config →
      ({ q' with fakeMonotonicClock := q'.fakesMonotonic S.env } : Proc).config =
        ({ q with fakeMonotonicClock := q.fakesMonotonic S.env } : Proc).config := by
    intro q q' hq
    simp only [Proc.config, Prod.mk.injEq] at hq ⊢
    obtain ⟨h₁, h₂, h₃, h₄, h₅, h₆⟩ := hq
    exact ⟨h₁, Proc.fakesMonotonic_eq h₂, h₃, h₄, h₅, h₆⟩
  rcases h with h | h <;> rcases h' with h' | h'
  · exact Or.inl (h'.trans h)
  · exact Or.inr (h'.trans (hmono _ _ h))
  · exact Or.inr (h'.trans h)
  · refine Or.inr (h'.trans ((hmono _ _ h).trans ?_))
    rw [Proc.fakesMonotonic_set]

/-- What decides when the configuration is read again stays. -/
theorem LeftAlone.timing (h : LeftAlone S p p') : p'.cacheDuration = p.cacheDuration ∧
    p'.forceCacheExpiration = p.forceCacheExpiration ∧ p'.lastDataFetch = p.lastDataFetch ∧
      p'.parseConfigFile = p.parseConfigFile := by
  unfold LeftAlone Proc.config at h
  simp only [Prod.mk.injEq] at h
  rcases h with ⟨-, -, h₁, h₂, h₃, h₄⟩ | ⟨-, -, h₁, h₂, h₃, h₄⟩
  · exact ⟨h₁, h₂, h₃, h₄⟩
  · exact ⟨h₁, h₂, h₃, h₄⟩

theorem LeftAlone.overdue_iff (h : LeftAlone S p p') : p'.Overdue now ↔ p.Overdue now := by
  obtain ⟨hduration, hforce, htime, -⟩ := h.timing
  unfold Proc.Overdue
  rw [hduration, hforce, htime]

theorem Settles.refl (S : Sources) (now : ℤ) (p : Proc) : Settles S now p p := Or.inl (Or.inl rfl)

theorem Settles.duration (h : Settles S now p p') : p'.cacheDuration = p.cacheDuration := by
  rcases h with h | h
  · exact h.timing.1
  · exact h.duration

/-- **Call after call**: once the sources have been read, what they say stays in effect. -/
theorem Settles.trans (h : Settles S now p p') (h' : Settles S now p' p'') :
    Settles S now p p'' := by
  rcases h with h | h <;> rcases h' with h' | h'
  · exact Or.inl (h.trans h')
  · exact Or.inr ⟨h.overdue_iff.mp h'.overdue, h'.upToDate, h'.time, h'.unforced,
      h'.duration.trans h.timing.1, h'.latch.trans h.timing.2.2.2⟩
  · obtain ⟨hduration, hforce, htime, hlatch⟩ := h'.timing
    exact Or.inr ⟨h.overdue, h'.upToDate h.upToDate, htime.trans h.time, hforce.trans h.unforced,
      hduration.trans h.duration, hlatch.trans h.latch⟩
  · exact Or.inr ⟨h.overdue, h'.upToDate, h'.time, h'.unforced, h'.duration.trans h.duration,
      h'.latch.trans h.latch⟩

end Config

/-! ### Reading it -/

/-- **The world shows the sources `S` and the real time `t`** to a process with a cache. -/
structure World.Presents (S : Sources) (t : Timespec) (w : World) : Prop where
  shows : w.Shows S
  clock : ∀ n, w.os n (.realClockGettime .realtime) = some (some t)
  cached : w.proc.Cached

/-- **What a query does to the configuration**, at the real time `now`: it is read if that is due
and the query is not excluded (`out`), and left alone otherwise. -/
structure Queried (S : Sources) (now : ℤ) (out : Bool) (p p' : Proc) : Prop where
  fetched : out = false → p.Overdue now → Fetched S now p p'
  left : out = true ∨ ¬ p.Overdue now → p'.config = p.config

theorem Queried.settles {S : Sources} {now : ℤ} {out : Bool} {p p' : Proc}
    (h : Queried S now out p p') : Settles S now p p' := by
  by_cases hleft : out = true ∨ ¬ p.Overdue now
  · exact Or.inl (Or.inl (h.left hleft))
  · push Not at hleft
    exact Or.inr (h.fetched (by simpa using hleft.1) hleft.2)

section Runs

variable {β : Type} {B : Build} {locks : Prop} {S : Sources} {t tp : Timespec} {c : ClockId}
  {w w' : World} {X : CStr}

/-- No call changes the files. -/
theorem file_of_seq {o : Op} {r : o.Ans} (h : seq w o = .ok (r, w')) : w'.file = w.file := by
  have hask : ∀ {f : o.Ans → World → World}, w.ask o f = .ok (r, w') →
      (∀ r v, (f r v).file = v.file) → w'.file = w.file := by
    intro f heq hf
    obtain ⟨-, rfl⟩ := World.ask_eq_ok heq
    exact hf r w.tick
  cases o
  case load | store | dontFake | setDontFake | timeMutexUnlock | readShared | writeShared | read |
      munmapStss | spawn | perror =>
    cases h
    rfl
  case exit => cases h
  case stalled => cases h
  case ftSemLock =>
    rw [seq_ftSemLock] at h
    split at h
    · cases h
    · exact hask h fun _ _ => rfl
  case timeMutexLock =>
    rw [seq_timeMutexLock] at h
    split at h
    · cases h
    · cases h
      rfl
  case openRead path =>
    rw [seq_openRead] at h
    split at h
    · cases h
      rfl
    · cases h
      rfl
  case ftSemUnlock => exact hask (seq_ftSemUnlock.symm.trans h) fun _ _ => rfl
  case write bytes => exact hask (seq_write.symm.trans h) fun _ _ => rfl
  case setenv v value =>
    refine hask (seq_setenv.symm.trans h) fun r x => ?_
    cases r <;> rfl
  all_goals exact hask (f := fun _ w => w) h fun _ _ => rfl

theorem file_of_run (p : Sys β) : p.Ends seq w fun _ w' => w'.file = w.file := by
  induction p generalizing w with
  | ret a => exact ends_pure rfl
  | op o k ih =>
    refine ends_perform_bind (I := sys) fun r w₁ ho => ?_
    exact (ih r).mono fun _ _ h => h.trans (file_of_seq ho)

/-- What the world shows stays. -/
theorem World.Presents.of_run {p : Sys β} {a : β} (hw : w.Presents S t)
    (hp : p.Uses (Routine locks)) (hr : p.run seq w = .ok (a, w')) (hc : w'.proc.Cached) :
    w'.Presents S t := by
  obtain ⟨-, -, hos⟩ := once_of_run hp hr
  have hfile : w'.file = w.file := file_of_run p _ _ hr
  refine ⟨⟨?_, ?_, ?_⟩, ?_, hc⟩
  · rw [hos]
    exact hw.shows.env
  · rw [hfile]
    exact hw.shows.file
  · rw [hos]
    exact hw.shows.close
  · rw [hos]
    exact hw.clock

/-- The part of the settings that are read once. -/
theorem config_eq_of_fetched {p p' : Proc} (h : p'.fetched = p.fetched) (ho : p'.once = p.once) :
    p'.config = p.config := by
  simp only [Proc.fetched, Proc.once, Proc.config, Prod.mk.injEq] at h ho ⊢
  exact ⟨h.1, h.2.1, h.2.2.1, h.2.2.2.1, h.2.2.2.2.1, ho.1⟩

theorem Proc.Cached.of_fetched {p p' : Proc} (hp : p.Cached) (h : p'.fetched = p.fetched)
    (ho : p'.once = p.once) : p'.Cached := by
  simp only [Proc.fetched, Proc.once, Prod.mk.injEq] at h ho
  obtain ⟨hsaved, -, -, -, htime, hexpired⟩ := h
  refine ⟨ho.2.1.trans hp.enabled, ?_, ?_⟩
  · rw [htime, hexpired]
    exact hp.unread
  · rw [hsaved]
    exact hp.room

/-- **Programs that are not about the configuration.** -/
theorem ends_of_aloof {p : Sys β} (hp : p.Uses (Aloof locks)) (hw : w.Presents S t) :
    p.Ends seq w fun _ w' => w'.Presents S t ∧ w'.proc.config = w.proc.config := by
  intro a w' hr
  have hfetched : w'.proc.fetched = w.proc.fetched := fetched_of_run hp _ _ hr
  obtain ⟨honce, -, -⟩ := once_of_run (routine_of_aloof hp) hr
  exact ⟨hw.of_run (routine_of_aloof hp) hr (hw.cached.of_fetched hfetched honce),
    config_eq_of_fetched hfetched honce⟩

/-- The texts that are used fit into the buffer. -/
theorem Sources.length_used {latch : Bool} (h : S.used latch = some X) : X.length < bufferlen := by
  have hdefault : ∀ env : Option CStr, (defaultSetting env).length < bufferlen := by
    intro env
    cases env with
    | none => decide
    | some v => exact (List.length_take_le _ _).trans_lt (by decide)
  unfold Sources.used Sources.contents at h
  cases latch with
  | false =>
    cases h
    exact hdefault _
  | true =>
    rw [if_pos rfl] at h
    cases hfile : S.configFile with
    | none =>
      rw [hfile] at h
      cases h
      exact hdefault _
    | some contents =>
      rw [hfile] at h
      dsimp only at h
      split at h
      next heq =>
        split at heq
        · cases heq
          cases h
          next husable =>
            have hlen := length_prepareConfigContents_le contents
            have hshort : contents.length < bufferlen - 1 := husable.1
            omega
        · cases heq
      next heq =>
        split at heq
        · cases heq
        · cases heq
          cases h

/-- **The parser saves the text it is handed**, unless it is the one that it has saved. -/
theorem ends_parseFtString : (parseFtString B X).Ends seq w fun _ w' => ∃ saved : CStr,
    (saved = X.take (bufferlen - 1) ∨
      unchangedSetting X w.proc.userFakedTimeSaved = true ∧ saved = w.proc.userFakedTimeSaved) ∧
    w'.proc.fetched = ({ w.proc with userFakedTimeSaved := saved } : Proc).fetched := by
  refine ends_load ?_
  split
  next hsame => exact ends_pure ⟨_, Or.inr ⟨hsame, rfl⟩, rfl⟩
  next =>
    refine (fetched_of_run
      (aloof_of_plain (plain_parseByPrefix (B := B) (trivial : True) X))).bind ?_
    rintro _ w₁ h₁
    rintro _ _ ⟨⟩
    simp only [Proc.fetched, Prod.mk.injEq] at h₁ ⊢
    exact ⟨_, Or.inl rfl, rfl, h₁.2⟩

/-- **What the parser is handed takes effect.** -/
theorem ends_applySetting {latch : Bool} (hroom : w.proc.userFakedTimeSaved.length < bufferlen) :
    (applySetting B (S.used latch)).Ends seq w fun _ w' => ∃ saved : CStr,
      saved.length < bufferlen ∧ (S.used latch = none ∨ S.used latch = some saved) ∧
        w'.proc.fetched = ({ w.proc with userFakedTimeSaved := saved } : Proc).fetched := by
  cases hX : S.used latch with
  | none => exact ends_pure ⟨w.proc.userFakedTimeSaved, hroom, Or.inl rfl, rfl⟩
  | some X =>
    have hlen := Sources.length_used hX
    refine ends_parseFtString.mono ?_
    rintro _ w' ⟨saved, hsaved, hfetched⟩
    have heq : saved = X := by
      rcases hsaved with rfl | ⟨hsame, rfl⟩
      · exact List.take_of_length_le (by omega)
      · rw [unchangedSetting, Bool.and_eq_true, beq_iff_eq, List.take_of_length_le hlen.le,
          List.take_of_length_le hroom.le] at hsame
        exact hsame.1.symm
    rw [heq] at hfetched
    exact ⟨X, hlen, Or.inr rfl, hfetched⟩

theorem routine_applySetting (s : Option CStr) : (applySetting B s).Uses (Routine True) := by
  cases s with
  | none => exact uses_pure _
  | some X => exact routine_of_refreshing (refreshing_parseFtString trivial X)

/-- What a process is left with that has looked at the sources, at the real time `now`. -/
theorem fetched_of_looked {p q : Proc} {now : ℤ} {saved : CStr} (hp : p.Cached)
    (hdue : p.Overdue now) (hlen : saved.length < bufferlen)
    (htext : S.used p.parseConfigFile = none ∨ S.used p.parseConfigFile = some saved)
    (hq : q.fetched = ({ p.looked now with userFakedTimeSaved := saved } : Proc).fetched)
    (honce : q.once = p.once) :
    ({ q with fakeMonotonicClock := q.fakesMonotonic S.env } : Proc).Cached ∧
      Fetched S now p { q with fakeMonotonicClock := q.fakesMonotonic S.env } := by
  have hexpired : (p.looked now).cacheExpired = true := hp.cacheExpired_iff.mpr hdue
  have hduration : (p.looked now).cacheDuration = p.cacheDuration :=
    Proc.field_eq (Proc.core_eq (p.settings_looked now)) Proc.cacheDuration
  simp only [Proc.fetched, Proc.once, Prod.mk.injEq] at hq honce
  obtain ⟨hsaved, -, hduration', hforce, htime, hexpired'⟩ := hq
  obtain ⟨hlatch, henabled, -, -⟩ := honce
  refine ⟨⟨henabled.trans hp.enabled, fun _ => hexpired'.trans hexpired, ?_⟩, hdue, ⟨?_, ?_⟩, htime,
    hforce.trans Proc.unforced_looked, hduration'.trans hduration, hlatch⟩
  · exact hsaved.symm ▸ hlen
  · change S.used q.parseConfigFile = none ∨ S.used q.parseConfigFile = some q.userFakedTimeSaved
    rw [hlatch, hsaved]
    exact htext
  · exact Proc.fakesMonotonic_set

/-- **A refresh reads the configuration exactly if that is due.** -/
theorem ends_refreshConfig_cache (hw : w.Presents S t) : (refreshConfig B).Ends seq w fun _ w' =>
    w'.Presents S t ∧ Queried S t.tvSec false w.proc w'.proc := by
  intro a w' hr
  have hroutine := routine_of_refreshing (refreshing_refreshConfig (B := B) (trivial : True))
  by_cases hdue : w.proc.Overdue t.tvSec
  · -- the sources are looked at
    obtain ⟨w₁, ⟨m, l, rfl⟩, hrun⟩ := run_refreshConfig_looked (B := B) hw.shows
      (hw.clock w.now) (hw.cached.cacheExpired_iff.mpr hdue)
    have honce₁ : (w.proc.looked t.tvSec).once = w.proc.once :=
      Proc.field_eq (Proc.core_eq (w.proc.settings_looked t.tvSec)) Proc.once
    have hroom : (w.proc.looked t.tvSec).userFakedTimeSaved.length < bufferlen := by
      rw [Proc.field_eq (Proc.core_eq (w.proc.settings_looked t.tvSec)) Proc.userFakedTimeSaved]
      exact hw.cached.room
    have hr' := hr
    rw [hrun] at hr'
    obtain ⟨_, w₂, h₂, h₃⟩ := exists_of_run_bind hr'
    obtain ⟨saved, hlen, htext, hfetched⟩ := ends_applySetting hroom _ _ h₂
    obtain ⟨honce₂, -, hos⟩ := once_of_run (routine_applySetting _) h₂
    have henv : w₂.HasEnv S.env := by
      intro n v
      rw [hos]
      exact hw.shows.env n v
    obtain ⟨m', hend⟩ := (runs_getFakeMonotonicSetting_env henv).ends _ _ h₃
    obtain ⟨hcached, hread⟩ := fetched_of_looked hw.cached hdue hlen htext hfetched
      (honce₂.trans honce₁)
    have hproc : w'.proc =
        { w₂.proc with fakeMonotonicClock := w₂.proc.fakesMonotonic S.env } := by rw [hend]
    rw [← hproc] at hcached hread
    exact ⟨hw.of_run hroutine hr hcached, fun _ _ => hread,
      fun h => absurd hdue (h.resolve_left (by simp))⟩
  · -- nothing but the flag is touched
    have hcached : (Proc.expireCache t.tvSec w.proc).cacheExpired = false := by
      simpa using mt hw.cached.cacheExpired_iff.mp hdue
    have hend := (runs_refreshConfig_cached (B := B) (hw.clock w.now) hcached).ends _ _ hr
    have hproc : w'.proc = { w.proc with cacheExpired := false } := by
      rw [hend]
      exact hw.cached.expireCache_eq hdue
    have hread : 0 < w.proc.lastDataFetch := by
      by_contra hread
      exact hdue (Or.inr (Or.inl (not_lt.mp hread)))
    refine ⟨hw.of_run hroutine hr ⟨?_, ?_, ?_⟩, fun _ h => absurd h hdue, fun _ => ?_⟩
    · rw [hproc]
      exact hw.cached.enabled
    · rw [hproc]
      exact fun h => absurd hread (not_lt.mpr h)
    · rw [hproc]
      exact hw.cached.room
    · rw [hproc]
      rfl

/-- What is not about the configuration may come before and after. -/
theorem Queried.of_config {now : ℤ} {out : Bool} {p p₁ p₂ p' : Proc}
    (h : Queried S now out p₁ p₂) (hp : p₁.config = p.config) (hp' : p'.config = p₂.config) :
    Queried S now out p p' := by
  refine ⟨fun hout hdue => ?_, fun hleft => ?_⟩
  · obtain ⟨-, hup, htime, hforce, hduration, hlatch⟩ :=
      h.fetched hout ((Proc.overdue_of_config hp).mpr hdue)
    have hup' := hup.of_config hp'
    simp only [Proc.config, Prod.mk.injEq] at hp hp'
    obtain ⟨-, -, hp₃, -, -, hp₆⟩ := hp
    obtain ⟨-, -, hp₃', hp₄', hp₅', hp₆'⟩ := hp'
    exact ⟨hdue, hup', hp₅'.trans htime, hp₄'.trans hforce, hp₃'.trans (hduration.trans hp₃),
      hp₆'.trans (hlatch.trans hp₆)⟩
  · rw [← Proc.overdue_of_config hp] at hleft
    exact hp'.trans ((h.left hleft).trans hp)

/-- The locked part of a query. -/
theorem ends_fakeLocked_cache (hw : w.Presents S t) : (fakeLocked B c tp).Ends seq w fun _ w' =>
    w'.Presents S t ∧ Queried S t.tvSec (w.proc.shutsOut c tp) w.proc w'.proc := by
  have haloof : (limitsAndSpawn c tp).Uses (Aloof True) := aloof_limitsAndSpawn c tp
  have hlimits : (limitsAndSpawn c tp).Ends seq w fun r w₁ => r = w.proc.shutsOut c tp ∧
      w₁.Presents S t ∧ w₁.proc.config = w.proc.config := fun r w₁ hr =>
    ⟨(ends_limitsAndSpawn r w₁ hr).1, ends_of_aloof haloof hw r w₁ hr⟩
  refine hlimits.bind ?_
  rintro _ w₁ ⟨rfl, hw₁, hconfig⟩
  cases w.proc.shutsOut c tp with
  | true => exact ends_pure ⟨hw₁, nofun, fun _ => hconfig⟩
  | false =>
    rw [if_neg (by simp)]
    refine (ends_refreshConfig_cache hw₁).bind ?_
    rintro _ w₂ ⟨hw₂, hquery⟩
    refine (ends_of_aloof
    (aloof_of_detached (detached_replay (B := B) (trivial : True) c tp)) hw₂).mono ?_
    rintro _ w' ⟨hw', hsame⟩
    exact ⟨hw', hquery.of_config hconfig hsame⟩

theorem World.Presents.of_proc {p : Proc} (hw : w.Presents S t) (hp : p.Cached) (b : Bool) :
    ({ w with proc := p, mutexHeld := b } : World).Presents S t :=
  ⟨⟨hw.shows.env, hw.shows.file, hw.shows.close⟩, hw.clock, hp⟩

/-- **A query reads the configuration exactly if that is due**, unless the limits exclude it. -/
theorem ends_fakeClockGettime_cache (hw : w.Presents S t) (hdont : w.dontFake = false)
    (hc : c.IsCpu = false) : (fakeClockGettime B c tp).Ends seq w fun _ w' =>
      w'.Presents S t ∧ Queried S t.tvSec (w.proc.shutsOut c tp) w.proc w'.proc := by
  have hlocked : ∀ b, (fakeLocked B c tp).Ends seq { w with mutexHeld := b } fun _ w' =>
      w'.Presents S t ∧ Queried S t.tvSec (w.proc.shutsOut c tp) w.proc w'.proc :=
    fun b => ends_fakeLocked_cache (hw.of_proc hw.cached b)
  refine ends_of_locked hdont hc hlocked fun o w₁ b h₁ => ?_
  obtain ⟨hw₁, hquery⟩ := h₁
  cases o with
  | abort code v => exact ends_pure ⟨hw₁.of_proc hw₁.cached b, hquery⟩
  | faked v =>
    refine (ends_of_aloof (aloof_of_plain (plain_saveTime (trivial : True) _ _))
      (hw₁.of_proc hw₁.cached b)).bind ?_
    rintro _ w₂ ⟨hw₂, hsame⟩
    have hlast : (w₂.proc.cacheTimes c tp (normalizeTimespecValue v)).Cached ∧
        (w₂.proc.cacheTimes c tp (normalizeTimespecValue v)).config = w₂.proc.config := by
      obtain ⟨reals, fakes, hs⟩ := Proc.exists_cacheTimes c tp (normalizeTimespecValue v) w₂.proc
      rw [hs]
      exact ⟨⟨hw₂.cached.enabled, hw₂.cached.unread, hw₂.cached.room⟩, rfl⟩
    exact ends_store (ends_pure ⟨hw₂.of_proc hlast.1 w₂.mutexHeld,
      hquery.of_config rfl (hlast.2.trans hsame)⟩)

/-! ### Every call -/

/-- **The program leaves the configuration alone or makes it take effect**, while the world shows
the sources `S` and the real time `t`. -/
def Minds (S : Sources) (t : Timespec) {β : Type} (p : Sys β) : Prop :=
  ∀ w : World, w.Presents S t → p.Ends seq w fun _ w' =>
    w'.Presents S t ∧ Settles S t.tvSec w.proc w'.proc

theorem minds_of_aloof {p : Sys β} (hp : p.Uses (Aloof locks)) : Minds S t p :=
  fun _ hw => (ends_of_aloof hp hw).mono fun _ _ h => ⟨h.1, Or.inl (Or.inl h.2)⟩

theorem minds_getFakeMonotonicSetting : Minds S t getFakeMonotonicSetting := by
  intro w hw
  have henv : w.HasEnv S.env := hw.shows.env
  refine (runs_getFakeMonotonicSetting_env henv).ends.mono ?_
  rintro _ _ ⟨m, rfl⟩
  exact ⟨⟨⟨hw.shows.env, hw.shows.file, hw.shows.close⟩, hw.clock, hw.cached.enabled,
    hw.cached.unread, hw.cached.room⟩, Or.inl (Or.inr rfl)⟩

/-- A query of any clock, in any thread. -/
theorem minds_fakeClockGettime (c : ClockId) (tp : Timespec) :
    Minds S t (fakeClockGettime B c tp) := by
  intro w hw
  cases hdont : w.dontFake with
  | true =>
    refine ends_dontFake ?_
    rw [hdont, if_pos rfl]
    exact ends_pure ⟨hw, .refl _ _ _⟩
  | false =>
    cases hc : c.IsCpu with
    | true =>
      refine ends_dontFake ?_
      rw [hdont, if_neg (by simp), hc, if_pos rfl]
      exact ends_load (ends_pure ⟨hw, .refl _ _ _⟩)
    | false => exact (ends_fakeClockGettime_cache hw hdont hc).mono fun _ _ h => ⟨h.1, h.2.settles⟩

theorem aloof_normalize : (store fun s => { s with
    userFakedTimeTimespec := normalizeTimespecValue s.userFakedTimeTimespec }).Uses (Aloof True) :=
  aloof_set (fun _ => rfl) fun _ => rfl

theorem covers_minds : Covers B (Minds S t) where
  ret _ := fun _ hw => ends_pure ⟨hw, .refl _ _ _⟩
  seq hp hf := by
    intro w hw
    refine (hp w hw).bind fun a w₁ h₁ => ?_
    exact (hf a w₁ h₁.1).mono fun _ _ h₂ => ⟨h₂.1, h₁.2.trans h₂.2⟩
  call o ho := by
    intro w hw r w' hr
    rw [run_perform] at hr
    obtain ⟨hproc, -, hos⟩ := proc_of_seq (by rintro f rfl; exact ho) (by rintro b rfl; exact ho)
      (by rintro v value rfl; exact ho) hr
    obtain ⟨⟨henv, hfile, hclose⟩, hclock, hcached⟩ := hw
    rw [← hos] at henv hclose hclock
    rw [← file_of_seq hr] at hfile
    rw [hproc]
    exact ⟨⟨⟨henv, hfile, hclose⟩, hclock, hproc ▸ hcached⟩, .refl _ _ _⟩
  query := minds_fakeClockGettime
  monotonic := minds_getFakeMonotonicSetting
  normalize := minds_of_aloof aloof_normalize

theorem minds_entry (e : Entry) : Minds S t (e.prog B) :=
  covers_minds.entry (minds_of_aloof
      (aloof_of_plain (plain_lockForStat (trivial : True) B.retries)))
    (minds_of_aloof (aloof_of_plain (plain_unlockForStat (trivial : True)))) e

end Runs

/-! ### Queries -/

/-- **The clock and the reading that a query is about**: what a call hands to
`fake_clock_gettime`, if it asks for the time and the real clock can be read. -/
def Entry.asks (w : World) : Entry → Option (ClockId × Timespec)
  | .clockGettime c =>
    match w.os w.now (.realClockGettime c) with
    | some (some tp) => if w.proc.fakeMonotonicClock || !c.IsMonotonic then some (c, tp) else none
    | _ => none
  | .gettimeofday =>
    match w.os w.now .realGettimeofday with
    | some (some tv) => some (.realtime,
        ⟨tv.tvSec, tv.tvUsec * 1000 + w.proc.ftplStarttime.real.tvNsec.tmod 1000⟩)
    | _ => none
  | .time =>
    match w.os w.now (.realClockGettime .realtime) with
    | some (some tp) => some (.realtime, tp)
    | _ => none
  | .ftime =>
    match w.os w.now .realFtime, w.os (w.now + 1) (.realClockGettime .realtime) with
    | some true, some (some tp) => some (.realtime, tp)
    | _, _ => none
  | .fakeClockGettime c tp => some (c, tp)
  | _ => none

section Queries

variable {B : Build} {S : Sources} {t tp : Timespec} {c : ClockId} {w w' : World}

/-- A query is a call of `fake_clock_gettime`. -/
theorem exists_query {e : Entry} {r : Reply} (ha : e.asks w = some (c, tp))
    (hr : (e.prog B).run seq w = .ok (r, w')) :
    ∃ n x, (fakeClockGettime B c tp).run seq { w with now := n } = .ok (x, w') := by
  have hlast : ∀ {n : ℕ} {f : ℤ × Timespec → Reply},
      (fakeClockGettime B c tp >>= fun x => pure (f x)).run seq { w with now := n } = .ok (r, w') →
        ∃ n x, (fakeClockGettime B c tp).run seq { w with now := n } = .ok (x, w') := by
    intro n f h
    obtain ⟨x, w₁, hx, h⟩ := exists_of_run_bind h
    cases h
    exact ⟨n, x, hx⟩
  -- each function reads a real clock and hands the reading on; otherwise it asks nothing
  cases e with
  | clockGettime clkId =>
    dsimp only [Entry.asks] at ha
    rcases hos : w.os w.now (.realClockGettime clkId) with _ | _ | tp'
    · rw [hos] at ha
      cases ha
    · rw [hos] at ha
      cases ha
    · rw [hos] at ha
      dsimp only at ha
      split at ha
      next hfake =>
        cases ha
        rw [Entry.prog, clockGettime, Prog.bind_assoc, realClockGettime, run_ask rfl hos] at hr
        dsimp only at hr
        rw [Prog.bind_assoc, run_load,
          if_pos (show (w.tick.proc.fakeMonotonicClock || !c.IsMonotonic) = true from hfake),
          Prog.bind_assoc] at hr
        exact hlast hr
      next => cases ha
  | gettimeofday =>
    dsimp only [Entry.asks] at ha
    rcases hos : w.os w.now .realGettimeofday with _ | _ | tv
    · rw [hos] at ha
      cases ha
    · rw [hos] at ha
      cases ha
    · rw [hos] at ha
      cases ha
      rw [Entry.prog, gettimeofday, Prog.bind_assoc, realGettimeofday, run_ask rfl hos] at hr
      dsimp only at hr
      rw [fakeGettimeofday, Prog.bind_assoc, Prog.bind_assoc, run_load, Prog.bind_assoc] at hr
      exact hlast hr
  | time =>
    dsimp only [Entry.asks] at ha
    rcases hos : w.os w.now (.realClockGettime .realtime) with _ | _ | tp'
    · rw [hos] at ha
      cases ha
    · rw [hos] at ha
      cases ha
    · rw [hos] at ha
      cases ha
      rw [Entry.prog, time, Prog.bind_assoc, realClockGettime, run_ask rfl hos] at hr
      dsimp only at hr
      rw [Prog.bind_assoc] at hr
      exact hlast hr
  | ftime =>
    dsimp only [Entry.asks] at ha
    split at ha
    next hftime hos =>
      cases ha
      rw [Entry.prog, ftime, Prog.bind_assoc, realFtime, run_ask rfl hftime, if_neg (by simp),
        Prog.bind_assoc, realClockGettime, run_ask rfl hos] at hr
      dsimp only at hr
      rw [Prog.bind_assoc] at hr
      exact hlast hr
    next => cases ha
  | fakeClockGettime clkId tp' =>
    cases ha
    exact hlast (n := w.now) hr
  | stat | statx | clockNanosleep | timerSettime | timerfdSettime | pthreadCondTimedwait => cases ha

/-- **What a query does to the configuration.** -/
theorem queried_of_asks {e : Entry} {r : Reply} (hw : w.Presents S t) (hdont : w.dontFake = false)
    (ha : e.asks w = some (c, tp)) (hc : c.IsCpu = false)
    (hr : (e.prog B).run seq w = .ok (r, w')) :
    Queried S t.tvSec (w.proc.shutsOut c tp) w.proc w'.proc := by
  obtain ⟨n, x, hx⟩ := exists_query ha hr
  have hn : ({ w with now := n } : World).Presents S t :=
    ⟨⟨hw.shows.env, hw.shows.file, hw.shows.close⟩, hw.clock, hw.cached⟩
  exact (ends_fakeClockGettime_cache hn hdont hc x w' hx).2

end Queries

end LibFaketime
