import LibFaketime.Cache
import LibFaketime.SetClock

/-!
# How old the configuration may be

The configuration of a process is read again when it is older than the cache lasts, and its age is
measured by the real clock. A run of a process is a sequence of calls, between which time passes,
the administrator sets the real clock, and the sources of the configuration are edited
(`LibFaketime.Step`). Time passes by itself, and what the real clock shows is the time that has
elapsed and an offset; only the offset is the administrator's.

As long as the clock is never set back, no query finds a configuration that has been out of date for
more than a second longer than the cache lasts. If it is, a query that comes later than that reads
the configuration exactly if the clock has caught up with the time of the last reading
(`LibFaketime.staleness_is_bounded_iff`).
-/

namespace LibFaketime

open Effects Effects.Prog

/-! ### A process at its start -/

section Start

variable {B : Build} {w w' : World}

/-- What the parser saves fits into the buffer. -/
theorem ends_parseFtString_room {X : CStr} (hroom : w.proc.userFakedTimeSaved.length < bufferlen) :
    (parseFtString B X).Ends seq w fun _ w' => ∃ saved : CStr, saved.length < bufferlen ∧
      w'.proc.fetched = ({ w.proc with userFakedTimeSaved := saved } : Proc).fetched := by
  refine ends_parseFtString.mono ?_
  rintro _ w' ⟨saved, hsaved, hfetched⟩
  refine ⟨saved, ?_, hfetched⟩
  rcases hsaved with rfl | ⟨-, rfl⟩
  · exact (List.length_take_le _ _).trans_lt (by decide)
  · exact hroom

/-- The first setting is no reading of the configuration. -/
theorem ends_firstSetting (hroom : w.proc.userFakedTimeSaved.length < bufferlen) :
    (firstSetting B).Ends seq w fun _ w' => w'.proc.userFakedTimeSaved.length < bufferlen ∧
      w'.proc.lastDataFetch = w.proc.lastDataFetch ∧
      w'.proc.cacheExpired = w.proc.cacheExpired := by
  have hparse : ∀ {v : World} {X : CStr}, v.proc.userFakedTimeSaved.length < bufferlen →
      v.proc.lastDataFetch = w.proc.lastDataFetch → v.proc.cacheExpired = w.proc.cacheExpired →
      (parseFtString B X).Ends seq v fun _ w' => w'.proc.userFakedTimeSaved.length < bufferlen ∧
        w'.proc.lastDataFetch = w.proc.lastDataFetch ∧
          w'.proc.cacheExpired = w.proc.cacheExpired := by
    intro v X hv htime hexpired
    refine (ends_parseFtString_room hv).mono ?_
    rintro _ w' ⟨saved, hlen, hfetched⟩
    simp only [Proc.fetched, Prod.mk.injEq] at hfetched
    obtain ⟨hsaved, -, -, -, htime', hexpired'⟩ := hfetched
    exact ⟨hsaved ▸ hlen, htime'.trans htime, hexpired'.trans hexpired⟩
  refine ends_ask rfl fun e _ => ?_
  cases e with
  | some setting => exact ends_store (hparse hroom rfl rfl)
  | none =>
    refine Ends.bind ?_ fun _ _ h => ends_pure h
    have haloof : findConfig.Uses (Aloof True) := aloof_of_plain plain_findConfig
    refine (fetched_of_run haloof).bind fun r w₁ h₁ => ?_
    simp only [Proc.fetched, Prod.mk.injEq] at h₁
    obtain ⟨hsaved, -, -, -, htime, hexpired⟩ := h₁
    have hroom₁ : w₁.proc.userFakedTimeSaved.length < bufferlen := by
      rw [hsaved]
      exact hroom
    cases r with
    | error result => exact ends_pure ⟨hroom₁, htime, hexpired⟩
    | ok contents => exact (hparse hroom₁ htime hexpired).bind fun _ _ h => ends_pure h

/-- **A process that has been initialized has not read its configuration**, as far as the cache is
concerned. -/
theorem cached_of_init (hw : w.proc = Proc.initial)
    (h : (ftplReallyInit B).run seq w = .ok ((), w')) (hcache : w'.proc.cacheEnabled = true) :
    w'.proc.Cached ∧ w'.proc.lastDataFetch = 0 := by
  obtain ⟨w₁, w₂, hunread, -, hfirst, hlast⟩ := exists_firstSetting h
  rw [hw] at hunread
  simp only [Proc.unread, Prod.mk.injEq] at hunread
  obtain ⟨-, hsaved, -, htime, hexpired⟩ := hunread
  obtain ⟨hroom₂, htime₂, hexpired₂⟩ := ends_firstSetting (by rw [hsaved]; decide) _ _ hfirst
  rw [hlast] at hcache ⊢
  exact ⟨⟨hcache, fun _ => hexpired₂.trans hexpired, hroom₂⟩, htime₂.trans htime⟩

end Start

/-! ### Setting the faked clock -/

section Settime

variable {B : Build} {c : ClockId} {T t : Timespec} {w : World}

/-- What `clock_settime` does to the configuration. -/
structure SetBy (T t : Timespec) (n : ℤ) (w w' : World) : Prop where
  succeeded : n = 0 → w'.proc =
    { w.proc with parseConfigFile := false, forceCacheExpiration := true } ∧
      (printfPlusF (settimeOffset T t)).length < bufferlen ∧
        ∀ k, w'.os k (.getenv .faketime) = some (some (printfPlusF (settimeOffset T t)))
  failed : n ≠ 0 → ∃ latch, w'.proc = { w.proc with parseConfigFile := latch }

/-- **`clock_settime` puts the new setting into the environment**, and forces the next query to
look there, if it succeeds. -/
theorem ends_clockSettime (hdont : w.dontFake = false)
    (hclock : ∀ n, w.os n (.realClockGettime .realtime) = some (some t)) :
    (clockSettime B c T).Ends seq w fun n w' => SetBy T t n w w' := by
  have hfail : SetBy T t (-1) w w :=
    ⟨fun h => absurd h (by decide), fun _ => ⟨w.proc.parseConfigFile, rfl⟩⟩
  have hset : ∀ (b : Bool) {β : Type} {f : Unit → Sys β} {v : World} {Q : β → World → Prop},
      (f ()).Ends seq { v with dontFake := b } Q → (setDontFake b >>= f).Ends seq v Q := by
    intro b β f v Q h
    refine ends_perform_bind (I := sys) ?_
    rintro _ _ ⟨⟩
    exact h
  unfold clockSettime
  split
  · exact ends_pure hfail
  next hc =>
    obtain rfl : c = .realtime := not_not.mp hc
    refine ends_dontFake ?_
    rw [hdont, if_pos (by simp)]
    refine hset true ((runs_clockGettime_dontFake (w := { w with dontFake := true }) rfl
      (hclock w.now)).ends.bind ?_)
    rintro _ _ ⟨rfl, rfl⟩
    refine hset false ?_
    dsimp only
    rw [Option.getD_some]
    split
    · exact ends_pure ⟨fun h => absurd h (by decide), fun _ => ⟨w.proc.parseConfigFile, rfl⟩⟩
    next hlen =>
      have hsetenv : ∀ (v : World) (x : EnvVar) (value : CStr), (setenv x value).Ends seq v
          fun ok w₁ => w₁ = if ok then v.tick.setEnv x value else v.tick :=
        fun _ _ _ _ _ hr => eq_of_run_setenv hr
      have hupdate : ∀ (v : World) (offset : ℚ), (updateTimestampFile offset).Ends seq v
          fun _ w₂ => ∃ m, w₂ = { v with now := m } :=
            fun _ _ _ _ hr => now_of_updateTimestampFile hr
      refine ends_store ((hsetenv _ _ _).bind ?_)
      rintro ok _ rfl
      cases ok with
      | false => exact ends_pure ⟨fun h => absurd h (by decide), fun _ => ⟨false, rfl⟩⟩
      | true =>
        refine ends_store ((hupdate _ _).bind ?_)
        rintro _ _ ⟨m, rfl⟩
        exact ends_pure ⟨fun _ => ⟨rfl, not_le.mp hlen, fun _ => rfl⟩, fun h => absurd rfl h⟩

end Settime

/-! ### Runs -/

/-- **A process and what is around it.** Times are in nanoseconds; the real clock shows the time
that has elapsed, moved by the offset. -/
structure Stage where
  proc : Proc
  sources : Sources
  elapsed : ℤ
  offset : ℤ
  /-- The time since which what the sources say has not been in effect. -/
  stale : Option ℤ

namespace Stage

/-- What the real clock shows. -/
def real (s : Stage) : Timespec :=
  ⟨(s.elapsed + s.offset) / 1000000000, (s.elapsed + s.offset) % 1000000000⟩

/-- Note whether what the sources say is in effect. -/
def noted (s : Stage) : Stage :=
  { s with stale := if UpToDate s.sources s.proc then none else some (s.stale.getD s.elapsed) }

/-- The world that a call is made in: the process is faked, and what the real clock shows and what
is in the sources does not change during the call. Everything else is up to the system. -/
structure Seen (s : Stage) (w : World) : Prop where
  proc : w.proc = s.proc
  shows : w.Shows s.sources
  clock : ∀ n, w.os n (.realClockGettime .realtime) = some (some s.real)
  faking : w.dontFake = false

/-- **The configuration is not out of date for longer than `c` seconds and one more.** -/
def Timely (c : ℤ) (s : Stage) : Prop :=
  ∀ T, s.stale = some T → s.elapsed ≤ T + (c + 1) * 1000000000

/-- **If it has been out of date for longer than that, it is due to be read again**, as the real
clock shows it. -/
def Reads (c : ℤ) (s : Stage) : Prop :=
  ∀ T, s.stale = some T → T + (c + 1) * 1000000000 < s.elapsed → s.proc.Overdue s.real.tvSec

/-- A process that has just been initialized, with a cache. -/
structure Starts (B : Build) (s : Stage) : Prop where
  init : ∃ w₀ w₁, w₀.proc = Proc.initial ∧ (ftplReallyInit B).run seq w₀ = .ok ((), w₁) ∧
    s.proc = w₁.proc
  enabled : s.proc.cacheEnabled = true
  stale : s.stale = if UpToDate s.sources s.proc then none else some s.elapsed

end Stage

/-- **One step of a run**: time passes, the administrator sets the real clock, the sources are
edited, an intercepted function is called and returns, or the faked clock is set. -/
inductive Step (B : Build) : Stage → Stage → Prop
  | passes {s : Stage} (d : ℤ) (h : 0 ≤ d) : Step B s { s with elapsed := s.elapsed + d }
  | clockSet {s : Stage} (offset : ℤ) : Step B s { s with offset := offset }
  | edited {s : Stage} (S : Sources) : Step B s ({ s with sources := S } : Stage).noted
  | called {s : Stage} {w w' : World} {e : Entry} {r : Reply} (seen : s.Seen w)
      (run : (e.prog B).run seq w = .ok (r, w')) :
      Step B s ({ s with proc := w'.proc } : Stage).noted
  | settime {s : Stage} {w w' : World} {c : ClockId} {T : Timespec} {n : ℤ} {S : Sources}
      (seen : s.Seen w) (run : (clockSettime B c T).run seq w = .ok (n, w')) (shows : w'.Shows S) :
      Step B s ({ s with proc := w'.proc, sources := S } : Stage).noted

/-- **The step is a query** of a clock other than those of processor time, and the limits do not
exclude it. -/
inductive Asks (B : Build) : Stage → Stage → Prop
  | query {s : Stage} {w w' : World} {e : Entry} {r : Reply} {c : ClockId} {tp : Timespec}
      (seen : s.Seen w) (asks : e.asks w = some (c, tp)) (clock : c.IsCpu = false)
      (noLimits : s.proc.shutsOut c tp = false) (run : (e.prog B).run seq w = .ok (r, w')) :
      Asks B s ({ s with proc := w'.proc } : Stage).noted

/-- A run whose queries all meet `P`. -/
def Run (B : Build) (P : Stage → Stage → Prop) : Stage → Stage → Prop :=
  Relation.ReflTransGen fun s s' => Step B s s' ∧ (Asks B s s' → P s s')

/-- A run during which the real clock is never set back. -/
def Forward (B : Build) : Stage → Stage → Prop :=
  Relation.ReflTransGen fun s s' => Step B s s' ∧ s.offset ≤ s'.offset

/-- **What holds in every stage of a run** of a process whose cache lasts `c` seconds. -/
structure Stage.Sound (c : ℤ) (s : Stage) : Prop where
  cached : s.proc.Cached
  duration : s.proc.cacheDuration = c
  current : s.stale = none ↔ UpToDate s.sources s.proc

section Stages

variable {B : Build} {c : ℤ} {s s' s₀ : Stage} {w : World}

theorem Stage.stale_noted : s.noted.stale = none ↔ UpToDate s.sources s.proc := by
  unfold Stage.noted
  split
  next h => exact ⟨fun _ => h, fun _ => rfl⟩
  next h => exact ⟨nofun, fun hup => absurd hup h⟩

theorem Stage.Seen.presents (hw : s.Seen w) (hs : s.proc.Cached) : w.Presents s.sources s.real :=
  ⟨hw.shows, hw.clock, hw.proc ▸ hs⟩

theorem Stage.Starts.sound (h : s.Starts B) : s.Sound s.proc.cacheDuration := by
  obtain ⟨w₀, w₁, hw₀, hrun, hproc⟩ := h.init
  refine ⟨?_, rfl, ?_⟩
  · rw [hproc]
    exact (cached_of_init hw₀ hrun (hproc ▸ h.enabled)).1
  · rw [h.stale]
    split
    next hup => exact ⟨fun _ => hup, fun _ => rfl⟩
    next hup => exact ⟨nofun, fun hup' => absurd hup' hup⟩

/-- What a call does to the configuration. -/
theorem Stage.Seen.settles {e : Entry} {r : Reply} {w' : World} (hw : s.Seen w) (hs : s.Sound c)
    (hr : (e.prog B).run seq w = .ok (r, w')) :
    w'.proc.Cached ∧ Settles s.sources s.real.tvSec s.proc w'.proc := by
  obtain ⟨hw', hsettles⟩ := minds_entry e w (hw.presents hs.cached) r w' hr
  rw [hw.proc] at hsettles
  exact ⟨hw'.cached, hsettles⟩

/-- What setting the faked clock does to it. -/
theorem SetBy.sound {T t : Timespec} {n : ℤ} {w' : World} (h : SetBy T t n w w')
    (hw : w.proc.Cached) : w'.proc.Cached ∧ w'.proc.cacheDuration = w.proc.cacheDuration ∧
      w'.proc.lastDataFetch = w.proc.lastDataFetch := by
  by_cases hn : n = 0
  · rw [(h.succeeded hn).1]
    exact ⟨⟨hw.enabled, hw.unread, hw.room⟩, rfl, rfl⟩
  · obtain ⟨latch, hproc⟩ := h.failed hn
    rw [hproc]
    exact ⟨⟨hw.enabled, hw.unread, hw.room⟩, rfl, rfl⟩

theorem Step.sound (h : Step B s s') (hs : s.Sound c) : s'.Sound c := by
  cases h with
  | passes d hd => exact ⟨hs.cached, hs.duration, hs.current⟩
  | clockSet offset => exact ⟨hs.cached, hs.duration, hs.current⟩
  | edited S => exact ⟨hs.cached, hs.duration, Stage.stale_noted⟩
  | called seen run =>
    obtain ⟨hcached, hsettles⟩ := seen.settles hs run
    exact ⟨hcached, hsettles.duration.trans hs.duration, Stage.stale_noted⟩
  | settime seen run shows =>
    have hset := ends_clockSettime seen.faking seen.clock _ _ run
    obtain ⟨hcached, hduration, -⟩ := hset.sound (seen.proc ▸ hs.cached)
    rw [seen.proc] at hduration
    exact ⟨hcached, hduration.trans hs.duration, Stage.stale_noted⟩

theorem Run.sound {P : Stage → Stage → Prop} (h : Run B P s₀ s) (hs : s₀.Sound c) : s.Sound c := by
  induction h with
  | refl => exact hs
  | tail _ hstep ih => exact hstep.1.sound ih

/-! ### Queries -/

/-- **After a query the configuration is not too old** exactly if the real clock had it read, or it
was not too old before. -/
theorem Asks.timely_iff (h : Asks B s s') (hs : s.Sound c) : s'.Timely c ↔ s.Reads c := by
  obtain @⟨w, w', e, r, clk, tp, seen, asks, clock, noLimits, run⟩ := h
  have hquery := queried_of_asks (seen.presents hs.cached) seen.faking asks clock run
  rw [seen.proc, noLimits] at hquery
  by_cases hdue : s.proc.Overdue s.real.tvSec
  · -- what the sources say is in effect
    have hup := (hquery.fetched rfl hdue).upToDate
    have hnone : ({ s with proc := w'.proc } : Stage).noted.stale = none :=
      Stage.stale_noted.mpr hup
    refine ⟨fun _ T _ _ => hdue, fun _ T hT => ?_⟩
    rw [hnone] at hT
    cases hT
  · -- nothing has changed
    have hconfig := hquery.left (Or.inr hdue)
    have hsame : ({ s with proc := w'.proc } : Stage).noted.stale = s.stale := by
      cases hstale : s.stale with
      | none =>
        exact Stage.stale_noted.mpr ((hs.current.mp hstale).of_config hconfig)
      | some T =>
        have hnot : ¬ UpToDate s.sources w'.proc := by
          intro hup
          have hnone := hs.current.mpr (hup.of_config hconfig.symm)
          rw [hstale] at hnone
          cases hnone
        unfold Stage.noted
        rw [if_neg hnot]
        rfl
    unfold Stage.Timely Stage.Reads
    rw [hsame]
    refine forall₂_congr fun T hT => ?_
    change s.elapsed ≤ T + (c + 1) * 1000000000 ↔ _
    rw [← not_lt]
    exact ⟨fun hle hlt => absurd hlt hle, fun hnot hlt => hdue (hnot hlt)⟩

/-- **While the clock is not set back** it shows no less than it did when the configuration was last
read, and no less than that when it went out of date. -/
structure Stage.Ahead (s : Stage) : Prop where
  now : 0 < s.proc.lastDataFetch → s.proc.lastDataFetch ≤ s.real.tvSec
  stale : ∀ T, s.stale = some T → T ≤ s.elapsed ∧
    (0 < s.proc.lastDataFetch → s.proc.lastDataFetch ≤ (T + s.offset) / 1000000000)

/-- The configuration, or the process, has changed, but it has not been read again. -/
theorem Stage.Ahead.noted (h : s.Ahead) {p : Proc} {S : Sources}
    (hp : p.lastDataFetch = s.proc.lastDataFetch) :
    ({ s with proc := p, sources := S } : Stage).noted.Ahead := by
  refine ⟨fun hpos => ?_, fun T hT => ?_⟩
  · change p.lastDataFetch ≤ s.real.tvSec
    rw [hp]
    exact h.now (hp ▸ hpos)
  · change T ≤ s.elapsed ∧ (0 < p.lastDataFetch → p.lastDataFetch ≤ (T + s.offset) / 1000000000)
    unfold Stage.noted at hT
    dsimp only at hT
    split at hT
    · cases hT
    · rw [Option.some.injEq] at hT
      rw [hp]
      cases hstale : s.stale with
      | none =>
        rw [hstale] at hT
        obtain rfl : s.elapsed = T := hT
        exact ⟨le_rfl, h.now⟩
      | some T' =>
        rw [hstale] at hT
        obtain rfl : T' = T := hT
        exact h.stale T' hstale

theorem Step.ahead (h : Step B s s') (hs : s.Sound c) (hoffset : s.offset ≤ s'.offset)
    (ha : s.Ahead) : s'.Ahead := by
  cases h with
  | passes d hd =>
    refine ⟨fun hpos => ?_, fun T hT => ⟨?_, (ha.stale T hT).2⟩⟩
    · exact (ha.now hpos).trans (Int.ediv_le_ediv (by decide) (by dsimp only; omega))
    · have hle := (ha.stale T hT).1
      dsimp only
      omega
  | clockSet offset =>
    refine ⟨fun hpos => ?_, fun T hT => ⟨(ha.stale T hT).1, fun hpos => ?_⟩⟩
    · exact (ha.now hpos).trans (Int.ediv_le_ediv (by decide) (by dsimp only at hoffset ⊢; omega))
    · exact ((ha.stale T hT).2 hpos).trans
        (Int.ediv_le_ediv (by decide) (by dsimp only at hoffset ⊢; omega))
  | edited S => exact ha.noted rfl
  | @called w w' e r seen run =>
    obtain ⟨-, hsettles⟩ := seen.settles hs run
    rcases hsettles with hleft | hfetched
    · exact ha.noted hleft.timing.2.2.1
    · -- the configuration has just been read
      have hnone : ({ s with proc := w'.proc } : Stage).noted.stale = none :=
        Stage.stale_noted.mpr hfetched.upToDate
      refine ⟨fun _ => hfetched.time.le, fun T hT => ?_⟩
      rw [hnone] at hT
      cases hT
  | settime seen run shows =>
    have hset := ends_clockSettime seen.faking seen.clock _ _ run
    obtain ⟨-, -, htime⟩ := hset.sound (seen.proc ▸ hs.cached)
    rw [seen.proc] at htime
    exact ha.noted htime

theorem Stage.Starts.ahead (h : s.Starts B) : s.Ahead := by
  obtain ⟨w₀, w₁, hw₀, hrun, hproc⟩ := h.init
  have hzero : s.proc.lastDataFetch = 0 := by
    rw [hproc]
    exact (cached_of_init hw₀ hrun (hproc ▸ h.enabled)).2
  refine ⟨fun hpos => absurd hzero hpos.ne', fun T hT => ⟨?_, fun hpos => absurd hzero hpos.ne'⟩⟩
  rw [h.stale] at hT
  split at hT
  · cases hT
  · cases hT
    exact le_rfl

theorem Forward.sound_ahead (h : Forward B s₀ s) (hs : s₀.Starts B) :
    s.Sound s₀.proc.cacheDuration ∧ s.Ahead := by
  induction h with
  | refl => exact ⟨hs.sound, hs.ahead⟩
  | tail _ hstep ih => exact ⟨hstep.1.sound ih.1, hstep.1.ahead ih.1 hstep.2 ih.2⟩

/-- **A clock that has not been set back has the configuration read in time.** -/
theorem Stage.Ahead.reads (ha : s.Ahead) (hs : s.Sound c) : s.Reads c := by
  intro T hT hlate
  by_cases hpos : 0 < s.proc.lastDataFetch
  · have hle := (ha.stale T hT).2 hpos
    refine Or.inr (Or.inr ?_)
    rw [hs.duration]
    have hreal : s.real.tvSec = (s.elapsed + s.offset) / 1000000000 := rfl
    omega
  · exact Or.inr (Or.inl (not_lt.mp hpos))

/-- **A query after the faked clock has been set uses the new setting.** -/
theorem Asks.uses_new_setting {T : Timespec} {S : Sources} {w' : World} {elapsed offset : ℤ}
    {stale : Option ℤ} {s₂ : Stage} (hs : s.Sound c) (seen : s.Seen w)
    (run : (clockSettime B .realtime T).run seq w = .ok (0, w')) (shows : w'.Shows S)
    (h : Asks B ⟨w'.proc, S, elapsed, offset, stale⟩ s₂) :
    s₂.stale = none ∧ s₂.proc.userFakedTimeSaved = printfPlusF (settimeOffset T s.real) := by
  have hset := ends_clockSettime seen.faking seen.clock _ _ run
  obtain ⟨hproc, hlen, henv⟩ := hset.succeeded rfl
  obtain ⟨hcached, -, -⟩ := hset.sound (seen.proc ▸ hs.cached)
  obtain @⟨v, v', e, r, clk, tp, seen₁, asks, clock, noLimits, run₁⟩ := h
  have hquery := queried_of_asks (seen₁.presents hcached) seen₁.faking asks clock run₁
  rw [seen₁.proc, noLimits] at hquery
  -- the flag forces the query to look into the environment
  have hforced : w'.proc.Overdue (Stage.real ⟨w'.proc, S, elapsed, offset, stale⟩).tvSec := by
    refine Or.inl ?_
    rw [hproc]
  have hfetched := hquery.fetched rfl hforced
  have hlatch : v'.proc.parseConfigFile = false := by
    refine hfetched.latch.trans ?_
    change w'.proc.parseConfigFile = false
    rw [hproc]
  have hused : S.used false = some (printfPlusF (settimeOffset T s.real)) := by
    have hvalue : S.env .faketime = some (printfPlusF (settimeOffset T s.real)) :=
      Option.some.inj ((shows.env 0 _).symm.trans (henv 0))
    rw [Sources.used, if_neg (by simp), hvalue, defaultSetting, List.take_of_length_le (by omega)]
  refine ⟨Stage.stale_noted.mpr hfetched.upToDate, ?_⟩
  have htext := hfetched.upToDate.text
  rw [hlatch] at htext
  change S.used false = none ∨ S.used false = some v'.proc.userFakedTimeSaved at htext
  rw [hused] at htext
  rcases htext with hnone | hsome
  · cases hnone
  · exact (Option.some.inj hsome).symm

end Stages

/-- **How long a configuration may be out of date.** In a run of a process whose cache lasts `c`
seconds, no query that the limits do not exclude leaves a configuration that has been out of date
for more than `c + 1` seconds, exactly if each query that finds one is due to read it as the real
clock shows it. So it is in every run during which the real clock is not set back; and a query after
the faked clock has been set uses the new setting in any run, whatever happens to the real clock in
between. -/
theorem staleness_is_bounded_iff {B : Build} {s₀ : Stage} (h : s₀.Starts B) :
    (∀ s, Run B (fun _ s' => s'.Timely s₀.proc.cacheDuration) s₀ s ↔
      Run B (fun s _ => s.Reads s₀.proc.cacheDuration) s₀ s) ∧
    (∀ s s', Forward B s₀ s → Asks B s s' → s'.Timely s₀.proc.cacheDuration) ∧
    ∀ s w w' T S elapsed offset stale s₂, Run B (fun _ _ => True) s₀ s → s.Seen w →
      (clockSettime B .realtime T).run seq w = .ok (0, w') → w'.Shows S →
        Asks B ⟨w'.proc, S, elapsed, offset, stale⟩ s₂ →
          s₂.stale = none ∧ s₂.proc.userFakedTimeSaved = printfPlusF (settimeOffset T s.real) := by
  refine ⟨fun s => ⟨fun hrun => ?_, fun hrun => ?_⟩, fun s s' hrun hasks => ?_, ?_⟩
  · induction hrun with
    | refl => exact .refl
    | tail hrun hstep ih =>
      have hs := Run.sound ih h.sound
      exact .tail ih ⟨hstep.1, fun hasks => (hasks.timely_iff hs).mp (hstep.2 hasks)⟩
  · induction hrun with
    | refl => exact .refl
    | tail hrun hstep ih =>
      have hs := Run.sound ih h.sound
      exact .tail ih ⟨hstep.1, fun hasks => (hasks.timely_iff hs).mpr (hstep.2 hasks)⟩
  · obtain ⟨hs, ha⟩ := hrun.sound_ahead h
    exact (hasks.timely_iff hs).mpr (ha.reads hs)
  · intro s w w' T S elapsed offset stale s₂ hrun seen run shows hasks
    exact hasks.uses_new_setting (hrun.sound h.sound) seen run shows

/-! ### A file in the home directory -/

/-- The sources of a process with this file in its home directory. -/
def rcSources (contents : CStr) : Sources where
  env x := match x with
    | .home => some "/root".toList
    | .faketimeDontReset => some ['1']
    | _ => none
  file path := if path = "/root/.faketimerc".toList then some contents else none

/-- The process in a system with this file, whose clocks show `t`. -/
def rcWorld (contents : CStr) (t : Timespec) (p : Proc) : World :=
  { calmWorld (rcSources contents).env (fun _ _ => t) ⟨0, 0⟩ p with
    file := fun _ => (rcSources contents).file }

/-- The variables of a process that has been initialized at the real time 1000. -/
def rcProc : Proc :=
  { Proc.initial with
    ftplStarttime := ⟨⟨1000, 0⟩, ⟨1000, 0⟩, ⟨1000, 0⟩, ⟨1000, 0⟩⟩
    userFakedTimeFmt := "%Y-%m-%d %T".toList
    userFakedTimeTimespec := ⟨100, 0⟩
    userFakedTimeSet := true
    userFakedTimeSaved := "1970-01-01 00:01:40".toList
    sharedSemInitialized := true }

theorem run_init_rc : ∃ w, (ftplReallyInit epochBuild).run seq
    (rcWorld "1970-01-01 00:01:40\n".toList ⟨1000, 0⟩ Proc.initial) = .ok ((), w) ∧
      w.proc = rcProc := ⟨_, rfl, rfl⟩

/-- Its variables after a query at that time. -/
def rcRead : Proc :=
  { rcProc with
    ftplTimecache := { rcProc.ftplTimecache with real := ⟨1000, 0⟩ }
    ftplFaketimecache := { rcProc.ftplFaketimecache with real := ⟨100, 0⟩ }
    lastDataFetch := 1000 }

theorem run_time_rc : ∃ w, (Entry.time.prog epochBuild).run seq
    (rcWorld "1970-01-01 00:01:40\n".toList ⟨1000, 0⟩ rcProc) = .ok (.seconds 100, w) ∧
      w.proc = rcRead := ⟨_, rfl, rfl⟩

/-- The stage at which it has been initialized; the real clock is 1000 seconds ahead of the time
that has elapsed. -/
def rcStage : Stage :=
  ⟨rcProc, rcSources "1970-01-01 00:01:40\n".toList, 0, 1000000000000, none⟩

theorem rcStage_starts : rcStage.Starts epochBuild where
  init := by
    obtain ⟨w, hrun, hproc⟩ := run_init_rc
    exact ⟨_, w, rfl, hrun, hproc.symm⟩
  enabled := rfl
  stale := by decide

/-- As long as the clock is not set back, an edit of its file is noticed within eleven seconds. -/
theorem edit_is_noticed_in_time : rcStage.Starts epochBuild ∧
    ∀ s s', Forward epochBuild rcStage s → Asks epochBuild s s' → s'.Timely 10 :=
  ⟨rcStage_starts, (staleness_is_bounded_iff rcStage_starts).2.1⟩

theorem seen_rcWorld {contents : CStr} {t : Timespec} {p : Proc} {s : Stage} (hp : s.proc = p)
    (hs : s.sources = rcSources contents) (ht : s.real = t) : s.Seen (rcWorld contents t p) where
  proc := hp.symm
  shows := by
    rw [hs]
    exact ⟨fun _ _ => rfl, fun _ => rfl, fun _ _ => rfl⟩
  clock := by
    rw [ht]
    exact fun _ => rfl
  faking := rfl

/-- **If the clock is set back by a hundred seconds** after the file has been edited, a query a
minute later does not notice the edit: the clock shows a time before that of the last reading. -/
theorem edit_is_not_noticed : rcStage.Starts epochBuild ∧
    ¬ ∀ s s', Run epochBuild (fun _ _ => True) rcStage s → Asks epochBuild s s' →
      s'.Timely rcStage.proc.cacheDuration := by
  refine ⟨rcStage_starts, fun hall => ?_⟩
  -- the file is read
  obtain ⟨w₁, hrun₁, hproc₁⟩ := run_time_rc
  have hread : Step epochBuild rcStage { rcStage with proc := rcRead } := by
    have hstep := Step.called (s := rcStage) (seen_rcWorld rfl rfl (by decide)) hrun₁
    rw [hproc₁] at hstep
    exact hstep
  -- it is edited, the clock is set back, and a minute passes
  have hedited : Step epochBuild { rcStage with proc := rcRead }
      ⟨rcRead, rcSources "1970-01-01 00:02:00\n".toList, 0, 1000000000000, some 0⟩ :=
    Step.edited (rcSources "1970-01-01 00:02:00\n".toList)
  have hset := Step.clockSet (B := epochBuild)
    (s := ⟨rcRead, rcSources "1970-01-01 00:02:00\n".toList, 0, 1000000000000, some 0⟩) 900000000000
  have hpasses := Step.passes (B := epochBuild)
    (s := ⟨rcRead, rcSources "1970-01-01 00:02:00\n".toList, 0, 900000000000, some 0⟩)
    60000000000 (by decide)
  have hrun : Run epochBuild (fun _ _ => True) rcStage
      ⟨rcRead, rcSources "1970-01-01 00:02:00\n".toList, 60000000000, 900000000000, some 0⟩ :=
    (((Relation.ReflTransGen.single ⟨hread, fun _ => trivial⟩).tail
      ⟨hedited, fun _ => trivial⟩).tail ⟨hset, fun _ => trivial⟩).tail ⟨hpasses, fun _ => trivial⟩
  -- the query finds the cache fresh
  have hasks := Asks.query (B := epochBuild) (e := .time) (c := .realtime)
    (s := ⟨rcRead, rcSources "1970-01-01 00:02:00\n".toList, 60000000000, 900000000000, some 0⟩)
    (w := rcWorld "1970-01-01 00:02:00\n".toList ⟨960, 0⟩ rcRead)
    (seen_rcWorld rfl rfl (by decide)) rfl rfl rfl rfl
  have hlate := hall _ _ hrun hasks 0 (by decide)
  revert hlate
  decide

end LibFaketime
