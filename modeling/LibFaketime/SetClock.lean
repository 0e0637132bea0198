import LibFaketime.Clock
import LibFaketime.Consistent
import LibFaketime.Precedence
import LibFaketime.Settime
import LibFaketime.SyscallClock

/-!
# The clock after it has been set

What a process reports after `clock_settime` has succeeded: from the next query on, its clock
starts at the new base (`LibFaketime.runs_clockGettime_set`). The base is counted from the start
time, and the rate goes on applying to all the time since then, not to the time since the clock
was set. So the clock is off by what the rate had added to it before, in addition to two
roundings, and that is exactly when it is off (`LibFaketime.set_clock_takes_effect_iff`).
-/

namespace LibFaketime

open Effects Effects.Prog Saturate

/-! ### The parser -/

section Parser

variable {B : Build} {w : World} {d : ℤ}

theorem take_offsetText (hd : OffsetFits d) : (offsetText d).take (bufferlen - 1) = offsetText d :=
  List.take_of_length_le (length_printfPlusF hd).le

/-- A text is compared with the one that has been saved as a whole. -/
theorem unchangedSetting_offsetText (hd : OffsetFits d) (saved : CStr) :
    unchangedSetting (offsetText d) saved = true ↔ saved = offsetText d := by
  have hlen : (offsetText d).length < bufferlen - 1 := length_printfPlusF hd
  have htake : (offsetText d).take bufferlen = offsetText d :=
    List.take_of_length_le (by unfold bufferlen at hlen ⊢; omega)
  have hhead : ((offsetText d).head? != some '%') = true := by
    rcases head?_printfPlusF ((d : ℚ) / 1000000000) with h | h
    · rw [show (offsetText d).head? = some '+' from h]
      decide
    · rw [show (offsetText d).head? = some '-' from h]
      decide
  rw [unchangedSetting, hhead, Bool.and_true, htake, beq_iff_eq]
  constructor
  · intro h
    rw [h]
    refine (List.take_of_length_le ?_).symm
    have hsaved := congrArg List.length h
    rw [List.length_take] at hsaved
    unfold bufferlen at hlen hsaved ⊢
    omega
  · rintro rfl
    exact htake.symm

/-- An offset is taken over. -/
theorem runs_parseFtString_offset (hd : OffsetFits d) (hmode : w.proc.ftMode ≠ .noop)
    (hsaved : w.proc.userFakedTimeSaved ≠ offsetText d) :
    (parseFtString B (offsetText d)).Runs seq w fun _ w' =>
      w' = { w with proc := w.proc.follows (offsetText d) (printedOffset d) } := by
  -- the text that is printed has no letters, so there is no modifier in it
  have hx : strchr (offsetText d) 'x' = none := strchr_printfPlusF _ (by decide) (by decide)
  have hi : strchr (offsetText d) 'i' = none := strchr_printfPlusF _ (by decide) (by decide)
  have hoffset : (parseOffset (offsetText d)).Runs seq w fun _ w' =>
      w' = { w with proc := { w.proc with
      ftMode := .startAt
      userOffset := printedOffset d
      userFakedTimeTimespec := timespecadd w.proc.ftplStarttime.real (printedOffset d) } } := by
    refine runs_store ?_
    rw [if_pos hmode, offsetText, splitOffset_printfPlusF hd]
    dsimp only
    rw [if_neg (by simp), offsetTimespec_printedMicros hd]
    exact runs_store ⟨(), _, rfl, rfl⟩
  have hmodifiers : ∀ w₁, (parseModifiers (offsetText d)).Runs seq w₁ fun _ w' => w' = w₁ := by
    intro w₁
    unfold parseModifiers
    rw [hx]
    dsimp only
    rw [hi]
    exact runs_pure rfl
  have hprefix : (parseByPrefix B (offsetText d)).Runs seq w fun _ w' => w' = { w with proc :=
      { w.proc with
        ftMode := .startAt
        userOffset := printedOffset d
        userFakedTimeTimespec := timespecadd w.proc.ftplStarttime.real (printedOffset d) } } := by
    unfold parseByPrefix
    rcases head?_printfPlusF ((d : ℚ) / 1000000000) with h | h
    · rw [show (offsetText d).head? = some '+' from h]
      refine hoffset.bind ?_
      rintro - _ rfl
      exact hmodifiers _
    · rw [show (offsetText d).head? = some '-' from h]
      refine hoffset.bind ?_
      rintro - _ rfl
      exact hmodifiers _
  refine runs_load ?_
  rw [if_neg (by rw [unchangedSetting_offsetText hd]; exact hsaved)]
  refine hprefix.bind ?_
  rintro - _ rfl
  refine ⟨(), _, rfl, ?_⟩
  rw [take_offsetText hd]
  rfl

/-- Such a text that has been handed to the parser is in force, whatever was in force
before. -/
theorem runs_parseFtString_follows (hd : OffsetFits d) (hmode : w.proc.ftMode ≠ .noop)
    (happlied : w.proc.userFakedTimeSaved = offsetText d →
      w.proc.follows (offsetText d) (printedOffset d) = w.proc) :
    (parseFtString B (offsetText d)).Runs seq w fun _ w' =>
      w' = { w with proc := w.proc.follows (offsetText d) (printedOffset d) } := by
  by_cases hsaved : w.proc.userFakedTimeSaved = offsetText d
  · rw [happlied hsaved]
    exact runs_parseFtString_unchanged ((unchangedSetting_offsetText hd _).mpr hsaved)
  · exact runs_parseFtString_offset hd hmode hsaved

/-- What a printed offset is read as does not depend on what it was printed from. -/
theorem printedOffset_eq {d' : ℤ} (hd : OffsetFits d) (hd' : OffsetFits d')
    (h : offsetText d' = offsetText d) : printedOffset d' = printedOffset d := by
  have hread := splitOffset_printfPlusF hd
  have hread' := splitOffset_printfPlusF hd'
  unfold offsetText at h
  rw [h, hread] at hread'
  have hq : (printedMicros d : ℚ) / 1000000 = printedMicros d' / 1000000 :=
    (Prod.mk.inj (Option.some.inj hread')).1
  have hmicros : printedMicros d = printedMicros d' := by
    exact_mod_cast (div_left_inj' (by norm_num)).mp hq
  rw [printedOffset, printedOffset, hmicros]

/-- **Whatever the parser has been handed, an offset that is saved has been applied.** -/
theorem offsetApplied_of_parse {setting : CStr} {w' : World} (hw : w.proc.OffsetApplied)
    (hmode : w.proc.ftMode ≠ .noop) (h : (parseFtString B setting).run seq w = .ok ((), w')) :
    w'.proc.OffsetApplied := by
  by_cases hoffset : ∃ d, OffsetFits d ∧ setting = offsetText d
  · obtain ⟨d, hd, rfl⟩ := hoffset
    obtain ⟨_, _, hrun, rfl⟩ := runs_parseFtString_follows (B := B) hd hmode (hw d hd)
    rw [h] at hrun
    cases hrun
    intro d' hd' hsaved
    have htext : offsetText d' = offsetText d := hsaved.symm
    rw [printedOffset_eq hd hd' htext, htext]
    rfl
  · rw [parseFtString, run_load] at h
    split at h
    · cases h
      exact hw
    · obtain ⟨_, w₁, -, h⟩ := exists_of_run_bind h
      cases h
      -- the text that is saved is not that of an offset, as one is never cut off
      intro d hd hsaved
      have htake : setting.take (bufferlen - 1) = offsetText d := hsaved
      refine absurd ⟨d, hd, ?_⟩ hoffset
      have hlen : (setting.take (bufferlen - 1)).length < bufferlen - 1 := by
        rw [htake]
        exact length_printfPlusF hd
      rw [List.length_take] at hlen
      rw [← htake, List.take_of_length_le (by omega)]

/-- Other texts are no offsets. -/
theorem offsetApplied_of_mem {s : Proc} {c : Char} (hc : c ∈ s.userFakedTimeSaved)
    (hsign : c ≠ '-' ∧ c ≠ '+' ∧ c ≠ '.') (hdigit : isDigit 10 c = false) : s.OffsetApplied := by
  intro d _ hsaved
  rw [hsaved] at hc
  rcases mem_printfPlusF hc with h | h | h | h
  · exact absurd h hsign.1
  · exact absurd h hsign.2.1
  · exact absurd h hsign.2.2
  · rw [h] at hdigit
    cases hdigit

/-- Variables that differ in their bookkeeping follow the same offset. -/
theorem follows_eq_of_settings {s s' : Proc} {setting : CStr} {offset : Timespec}
    (h : s'.settings = s.settings) (hs : s.follows setting offset = s) :
    s'.follows setting offset = s' := by
  have hcore := Proc.core_eq h
  have hmode : s'.ftMode = .startAt :=
    (Proc.field_eq hcore Proc.ftMode).trans (congrArg Proc.ftMode hs).symm
  have hoffset : s'.userOffset = offset :=
    (Proc.field_eq hcore Proc.userOffset).trans (congrArg Proc.userOffset hs).symm
  have hsaved : s'.userFakedTimeSaved = setting :=
    (Proc.field_eq hcore Proc.userFakedTimeSaved).trans (congrArg Proc.userFakedTimeSaved hs).symm
  have hbase : s'.userFakedTimeTimespec = timespecadd s'.ftplStarttime.real offset := by
    rw [Proc.field_eq hcore Proc.ftplStarttime]
    exact (Proc.field_eq hcore Proc.userFakedTimeTimespec).trans
      (congrArg Proc.userFakedTimeTimespec hs).symm
  unfold Proc.follows
  rw [← hmode, ← hoffset, ← hsaved]
  rw [← hoffset] at hbase
  rw [← hbase]

end Parser

/-! ### Queries after the change -/

/-- A process that is able to answer: locks and calls do not fail, and nothing is limited or
replayed. -/
structure Able (B : Build) (w : World) : Prop where
  calm : Calm w
  tries : 0 < B.retries
  faking : w.dontFake = false
  noLimits : w.proc.limitedFaking = false
  noReplay : w.proc.infileSet = false
  mutexFree : w.mutexHeld = false
  semFree : w.semHeld = false

theorem Able.like {B : Build} {w w' : World} (hw : Able B w) (h : Like w w') : Able B w' where
  calm := hw.calm.like h
  tries := hw.tries
  faking := h.dontFake.trans hw.faking
  noLimits := (h.field Proc.limitedFaking).trans hw.noLimits
  noReplay := (h.field Proc.infileSet).trans hw.noReplay
  mutexFree := h.mutexHeld.trans hw.mutexFree
  semFree := h.semHeld.trans hw.semFree

/-- **Variables under which a new offset takes effect**: the time is faked, without ticks, and the
configuration is looked for in the environment only. -/
structure Proc.Awaits (s : Proc) : Prop where
  latch : s.parseConfigFile = false
  faking : s.ftMode ≠ .noop
  noTick : s.userPerTickIncSet = false
  applied : s.OffsetApplied

/-- The variables once the offset of `d` nanoseconds is in force. The setting of the monotonic
clock may have been read again too. -/
def Proc.reset (s : Proc) (d : ℤ) (monotonic : Bool) : Proc :=
  { s.follows (offsetText d) (printedOffset d) with fakeMonotonicClock := monotonic }

/-- **The process heeds its new setting**: either no query has looked at it yet, or it is in
force. -/
structure Heeds (env : EnvVar → Option CStr) (s : Proc) (d : ℤ) (w : World) : Prop where
  hasEnv : w.HasEnv env
  setting : env .faketime = some (offsetText d)
  state : (w.proc.forceCacheExpiration = true ∧ w.proc.settings = s.settings) ∨
    ∃ b, w.proc.settings = (s.reset d b).settings

section Queries

variable {B : Build} {env : EnvVar → Option CStr} {s : Proc} {d : ℤ} {w : World} {c : ClockId}
  {tp : Timespec}

/-- In both states the new setting is, or will be, followed. -/
theorem Heeds.follows (hs : s.Awaits) (hd : OffsetFits d) (h : Heeds env s d w) {p : Proc}
    (hp : p.settings = w.proc.settings) :
    (p.userFakedTimeSaved = offsetText d → p.follows (offsetText d) (printedOffset d) = p) ∧
      p.ftMode ≠ .noop ∧ p.parseConfigFile = false ∧
      ∃ b, (p.follows (offsetText d) (printedOffset d)).settings = (s.reset d b).settings := by
  have hcongr : ∀ p' : Proc, p.settings = p'.settings →
      (p.follows (offsetText d) (printedOffset d)).settings =
        (p'.follows (offsetText d) (printedOffset d)).settings := fun p' hp' =>
    congrArg (fun x : Proc => x.follows (offsetText d) (printedOffset d)) hp'
  rcases h.state with ⟨-, hw⟩ | ⟨b, hw⟩
  · rw [hw] at hp
    have hcore := Proc.core_eq hp
    refine ⟨fun hsaved => follows_eq_of_settings hp (hs.applied d hd ?_), ?_, ?_,
      s.fakeMonotonicClock, hcongr s hp⟩
    · exact (Proc.field_eq hcore Proc.userFakedTimeSaved).symm.trans hsaved
    · rw [Proc.field_eq hcore Proc.ftMode]
      exact hs.faking
    · exact (Proc.field_eq hcore Proc.parseConfigFile).trans hs.latch
  · rw [hw] at hp
    have hcore := Proc.core_eq hp
    refine ⟨fun _ => follows_eq_of_settings hp rfl, ?_, ?_, b, hcongr _ hp⟩
    · rw [Proc.field_eq hcore Proc.ftMode]
      exact FtMode.noConfusion
    · exact (Proc.field_eq hcore Proc.parseConfigFile).trans hs.latch

theorem cacheExpired_expireCache_of_forced (now : ℤ) {s : Proc}
    (h : s.forceCacheExpiration = true) :
    (Proc.expireCache now s).cacheExpired = true := by
  have hforced : ∀ s' : Proc, s'.forceCacheExpiration = true →
      (if s'.forceCacheExpiration then
        { s' with cacheExpired := true, forceCacheExpiration := false } else s').cacheExpired =
          true :=
    fun s' h' => by rw [if_pos h']
  refine hforced _ ?_
  split <;> split <;> exact h

theorem settings_monotonic {s s' : Proc} (h : s'.settings = s.settings) (b : Bool) :
    ({ s' with fakeMonotonicClock := b } : Proc).settings =
      ({ s with fakeMonotonicClock := b } : Proc).settings :=
  congrArg (fun p : Proc => { p with fakeMonotonicClock := b }) h

/-- **The first query that looks at the configuration puts the new setting in force.** -/
theorem runs_refreshConfig_heeds (hs : s.Awaits) (hd : OffsetFits d) (hw : Calm w)
    (h : Heeds env s d w) :
    (refreshConfig B).Runs seq w fun _ w' => ∃ b, Like { w with proc := s.reset d b } w' := by
  obtain ⟨t, ht⟩ := hw.clock w.now
  refine runs_realClockGettime ht (runs_store (runs_load ?_))
  generalize hw₂ : ({ w.tick with proc := Proc.expireCache _ w.tick.proc } : World) = w₂
  have h₂ : Like w w₂ := by
    rw [← hw₂]
    exact ⟨rfl, rfl, rfl, rfl, rfl, settings_expireCache _ _⟩
  by_cases hexpired : w₂.proc.cacheExpired = true
  · rw [if_pos hexpired]
    refine runs_getenv (r := some (offsetText d)) ?_ (runs_store (runs_load ?_))
    · rw [h₂.os, h.hasEnv, h.setting]
    generalize hw₃ : ({ w₂.tick with proc := { w₂.tick.proc with lastDataFetch := _ } } : World) =
      w₃
    have h₃ : Like w w₃ := by
      rw [← hw₃]
      exact h₂.trans ⟨rfl, rfl, rfl, rfl, rfl, rfl⟩
    obtain ⟨happlied, hfaking, hlatch, b, hfollows⟩ := h.follows hs hd h₃.settings
    rw [hlatch, if_neg (by simp), defaultSetting, take_offsetText hd]
    refine (runs_parseFtString_follows hd hfaking happlied).bind ?_
    rintro - _ rfl
    have henv : World.HasEnv env
        { w₃ with proc := w₃.proc.follows (offsetText d) (printedOffset d) } := fun n v => by
      rw [show _ = w₃.os from rfl, h₃.os]
      exact h.hasEnv n v
    refine (runs_getFakeMonotonicSetting_env henv).mono ?_
    rintro - _ ⟨m, rfl⟩
    refine ⟨(w₃.proc.follows (offsetText d) (printedOffset d)).fakesMonotonic env, h₃.os, h₃.file,
      h₃.dontFake, h₃.semHeld, h₃.mutexHeld, ?_⟩
    exact settings_monotonic hfollows _
  · rw [if_neg hexpired]
    rcases h.state with ⟨hforced, -⟩ | ⟨b, hw⟩
    · rw [← hw₂] at hexpired
      exact absurd (cacheExpired_expireCache_of_forced _ hforced) hexpired
    · refine runs_pure ⟨b, h₂.os, h₂.file, h₂.dontFake, h₂.semHeld, h₂.mutexHeld, ?_⟩
      exact h₂.settings.trans hw

/-- What is limited or replayed has not changed. -/
theorem Heeds.able_reset (h : Heeds env s d w) (hw : Able B w) (b : Bool) :
    Able B { w with proc := s.reset d b } := by
  have hcore : (s.reset d b).core.limitedFaking = w.proc.limitedFaking ∧
      (s.reset d b).core.infileSet = w.proc.infileSet := by
    rcases h.state with ⟨-, hset⟩ | ⟨b, hset⟩
    · have hcore := Proc.core_eq hset
      exact ⟨(Proc.field_eq hcore Proc.limitedFaking).symm,
        (Proc.field_eq hcore Proc.infileSet).symm⟩
    · have hcore := Proc.core_eq hset
      exact ⟨(Proc.field_eq hcore Proc.limitedFaking).symm,
        (Proc.field_eq hcore Proc.infileSet).symm⟩
  exact ⟨⟨hw.calm.clock, hw.calm.lock, hw.calm.unlock, hw.calm.write⟩, hw.tries, hw.faking,
    hcore.1.trans hw.noLimits, hcore.2.trans hw.noReplay, hw.mutexFree, hw.semFree⟩

/-- Bookkeeping makes no difference as long as the query to come is still forced to look. -/
theorem Heeds.like {w' : World} (h : Heeds env s d w) (hlike : Like w w')
    (hforced : w'.proc.forceCacheExpiration = w.proc.forceCacheExpiration) : Heeds env s d w' := by
  refine ⟨fun n v => (congrFun (congrFun hlike.os n) (.getenv v)).trans (h.hasEnv n v),
    h.setting, ?_⟩
  rcases h.state with ⟨hforce, hset⟩ | ⟨b, hset⟩
  · exact Or.inl ⟨hforced.trans hforce, hlike.settings.trans hset⟩
  · exact Or.inr ⟨b, hlike.settings.trans hset⟩

/-- **A query of a faked clock.** -/
theorem runs_fakeClockGettime_heeds (hs : s.Awaits) (hd : OffsetFits d) (h : Heeds env s d w)
    (hw : Able B w) (hcpu : ¬ c.IsCpu = true) : (fakeClockGettime B c tp).Runs seq w fun r w' =>
      r = (0, normalizeTimespecValue ((s.reset d true).startAt c tp)) ∧ Heeds env s d w' ∧
        Able B w' := by
  have hlocked : ∀ b, (fakeLocked B c tp).Runs seq { w with mutexHeld := b } fun r w' =>
      r = .faked ((s.reset d true).startAt c tp) ∧
        ∃ v, (∃ b', v = { w with proc := s.reset d b' }) ∧ Like { v with mutexHeld := b } w' := by
    intro b
    refine (runs_limitsAndSpawn (w := { w with mutexHeld := b }) hw.noLimits).bind ?_
    rintro _ w₁ ⟨rfl, hcounted⟩
    have h₁ : Like { w with mutexHeld := b } w₁ := hcounted.like.1
    have hheeds : Heeds env s d w₁ := by
      obtain ⟨calls, spawned, rfl⟩ := hcounted
      exact ⟨h.hasEnv, h.setting, h.state⟩
    have hcalm : Calm w₁ := by
      refine Calm.like (w := { w with mutexHeld := b }) ?_ h₁
      exact ⟨hw.calm.clock, hw.calm.lock, hw.calm.unlock, hw.calm.write⟩
    refine (runs_refreshConfig_heeds hs hd hcalm hheeds).bind ?_
    rintro - w₂ ⟨b', h₂⟩
    have hlike : Like { w with proc := s.reset d b', mutexHeld := b } w₂ :=
      ⟨h₂.os.trans h₁.os, h₂.file.trans h₁.file, h₂.dontFake.trans h₁.dontFake,
        h₂.semHeld.trans h₁.semHeld, h₂.mutexHeld.trans h₁.mutexHeld, h₂.settings⟩
    refine runs_load ?_
    rw [h₂.field Proc.infileSet, show (s.reset d b').infileSet = false from
      (h.able_reset hw b').noReplay, if_neg (by simp)]
    refine runs_load ?_
    rw [show w₂.proc.ftMode = .startAt from h₂.field Proc.ftMode]
    dsimp only
    have hnoTick : w₂.proc.userPerTickIncSet = false :=
      (h₂.field Proc.userPerTickIncSet).trans hs.noTick
    rw [hnoTick, if_neg (by simp)]
    refine runs_pure ⟨?_, _, ⟨b', rfl⟩, hlike⟩
    exact congrArg Outcome.faked (h₂.field fun p => p.startAt c tp)
  refine (runs_fakeClockGettime_of_locked hw.faking hcpu hw.mutexFree hw.tries ?_
    (hlocked _)).mono ?_
  · rintro _ ⟨b, rfl⟩
    have hreset := h.able_reset hw b
    exact ⟨hreset.calm, hreset.mutexFree, fun hheld => absurd hheld (by rw [hreset.semFree]; simp)⟩
  · rintro _ w' ⟨rfl, _, ⟨b, rfl⟩, hlike⟩
    refine ⟨rfl, ⟨fun n v => ?_, h.setting, Or.inr ⟨b, hlike.settings⟩⟩,
      (h.able_reset hw b).like hlike⟩
    exact (congrFun (congrFun hlike.os n) (.getenv v)).trans (h.hasEnv n v)

/-- **A query of any clock**: the setting stays in force, and a query of the time is answered
by it. -/
theorem runs_clockGettime_set {r : Option Timespec} (hs : s.Awaits) (hd : OffsetFits d)
    (h : Heeds env s d w) (hw : Able B w) (hr : w.os w.now (.realClockGettime c) = some r) :
    (clockGettime B c).Runs seq w fun a w' => Heeds env s d w' ∧ Able B w' ∧
      ∀ tp, c = .realtime → r = some tp →
        a = (0, some (normalizeTimespecValue ((s.reset d true).startAt .realtime tp))) := by
  have hlike : Like w w.tick := ⟨rfl, rfl, rfl, rfl, rfl, rfl⟩
  have htick : Heeds env s d w.tick := h.like hlike rfl
  refine runs_realClockGettime hr ?_
  cases r with
  | none => exact runs_pure ⟨htick, hw.like hlike, nofun⟩
  | some tp =>
    refine runs_load ?_
    split
    · refine Runs.bind (Q := fun a w' => Heeds env s d w' ∧ Able B w' ∧ (c = .realtime →
        a = (0, normalizeTimespecValue ((s.reset d true).startAt .realtime tp)))) ?_ ?_
      · by_cases hcpu : c.IsCpu = true
        · refine runs_dontFake ?_
          rw [show w.tick.dontFake = false from hw.faking, if_neg (by simp), if_pos hcpu]
          refine runs_load (runs_pure ⟨htick, hw.like hlike, ?_⟩)
          rintro rfl
          cases hcpu
        · refine (runs_fakeClockGettime_heeds hs hd htick (hw.like hlike) hcpu).mono ?_
          rintro _ w' ⟨rfl, h', hw'⟩
          refine ⟨h', hw', ?_⟩
          rintro rfl
          rfl
      · rintro a w' ⟨h', hw', ha⟩
        refine runs_pure ⟨h', hw', ?_⟩
        rintro _ hc ⟨⟩
        rw [ha hc]
    next hmono =>
      refine runs_pure ⟨htick, hw.like hlike, ?_⟩
      rintro _ rfl -
      simp [ClockId.IsMonotonic] at hmono

end Queries

/-! ### `clock_settime` -/

section Settime

variable {B : Build} {w w₁ : World} {T t₀ : Timespec}

/-- The calls of the update of the timestamp file. -/
def Op.Notes : Op → Prop
  | .getenv _ | .fopenWrite _ | .fprintf _ | .fclose | .perror _ => True
  | _ => False

theorem uses_updateTimestampFile (offset : ℚ) : (updateTimestampFile offset).Uses Op.Notes := by
  have hperror : ∀ msg, (perror msg).Uses Op.Notes := fun _ => uses_perform trivial
  refine (uses_perform (I := sys) (o := .getenv _) trivial).bind fun path => ?_
  cases path with
  | none => trivial
  | some path =>
    dsimp only
    split
    · trivial
    · refine (uses_perform (I := sys) (o := .getenv _) trivial).bind fun update => ?_
      split
      · split
        · exact hperror _
        · refine (uses_perform (I := sys) (o := .fopenWrite _) trivial).bind fun opened => ?_
          split
          · refine (uses_perform (I := sys) (o := .fprintf _) trivial).bind fun written => ?_
            refine (uses_perform (I := sys) (o := .fclose) trivial).bind fun closed => ?_
            split
            · exact hperror _
            · split
              · exact hperror _
              · trivial
          · exact hperror _
      · trivial

/-- The update of the timestamp file changes nothing in the process. -/
theorem now_of_updateTimestampFile {offset : ℚ}
    (h : (updateTimestampFile offset).run seq w = .ok ((), w₁)) :
    ∃ m, w₁ = { w with now := m } := by
  refine (uses_updateTimestampFile offset).invariant_run
    (J := fun v => ∃ m, v = { w with now := m })
    ?_ ⟨w.now, rfl⟩ h
  rintro _ o r v ho ⟨m, rfl⟩ hv
  have hask : ∀ {o : Op} {r : o.Ans}, World.ask { w with now := m } o (fun _ w => w) = .ok (r, v) →
      ∃ m, v = { w with now := m } := fun hr => ⟨m + 1, (World.ask_eq_ok hr).2⟩
  cases o
  case getenv => exact hask hv
  case fopenWrite => exact hask hv
  case fprintf => exact hask hv
  case fclose => exact hask hv
  case perror =>
    cases hv
    exact ⟨m, rfl⟩
  all_goals exact ho.elim

/-- The offset in nanoseconds. -/
theorem settimeOffset_eq (T t₀ : Timespec) :
    settimeOffset T t₀ = ((T.ns - t₀.ns : ℤ) : ℚ) / 1000000000 := by
  rw [settimeOffset, Timespec.ns_eq, Timespec.ns_eq]
  push_cast [secToNSec]
  ring

/-- The world after the clock has been set. -/
def World.afterSettime (w : World) (d : ℤ) (m : ℕ) : World :=
  { w.setEnv .faketime (offsetText d) with
    now := m
    proc := { w.proc with parseConfigFile := false, forceCacheExpiration := true } }

/-- A thread that is not faked reads the real clock. -/
theorem runs_clockGettime_dontFake (hdont : w.dontFake = true)
    (ht₀ : w.os w.now (.realClockGettime .realtime) = some (some t₀)) :
    (clockGettime B .realtime).Runs seq w fun r w' => r = (0, some t₀) ∧ w' = w.tick := by
  refine runs_realClockGettime ht₀ (runs_load ?_)
  rw [if_pos (by simp [ClockId.IsMonotonic])]
  refine Runs.bind (Q := fun r w' => r = (0, t₀) ∧ w' = w.tick) ?_ ?_
  · refine runs_dontFake ?_
    rw [show w.tick.dontFake = true from hdont, if_pos rfl]
    exact runs_pure ⟨rfl, rfl⟩
  · rintro _ _ ⟨rfl, rfl⟩
    exact runs_pure ⟨rfl, rfl⟩

/-- **`clock_settime` up to the change of the environment.** -/
theorem run_clockSettime (hdont : w.dontFake = false)
    (ht₀ : w.os w.now (.realClockGettime .realtime) = some (some t₀))
    (hd : OffsetFits (T.ns - t₀.ns)) : (clockSettime B .realtime T).run seq w =
      (setenv .faketime (offsetText (T.ns - t₀.ns)) >>= fun ok =>
        if !ok then pure (-1)
        else store (fun s => { s with forceCacheExpiration := true }) >>= fun _ =>
          updateTimestampFile (settimeOffset T t₀) >>= fun _ => pure 0).run seq
        { w.tick with proc := { w.proc with parseConfigFile := false } } := by
  have hlen : ¬ bufferlen ≤ (offsetText (T.ns - t₀.ns)).length := by
    have h : (offsetText (T.ns - t₀.ns)).length < bufferlen - 1 := length_printfPlusF hd
    omega
  -- the clock is read while the thread is not faked
  obtain ⟨_, _, ⟨rfl, rfl⟩, hread⟩ := (runs_clockGettime_dontFake (B := B)
    (w := { w with dontFake := true }) rfl ht₀).exists_run_bind
  have hset : ∀ b {β : Type} (f : Unit → Sys β) (v : World),
      (setDontFake b >>= f).run seq v = (f ()).run seq { v with dontFake := b } :=
        fun _ _ _ _ => rfl
  have htext : printfPlusF (settimeOffset T t₀) = offsetText (T.ns - t₀.ns) := by
    rw [settimeOffset_eq, offsetText]
  have hback : ({ ({ w with dontFake := true } : World).tick with dontFake := false } : World) =
      w.tick := by
    rw [← hdont]
    rfl
  unfold clockSettime
  rw [if_neg (by simp), run_dontFake, hdont, if_pos (by simp), hset, hread, hset, Option.getD_some]
  dsimp only
  rw [htext, if_neg hlen, hback]
  rfl

/-- **What the world is like when it has succeeded.** -/
theorem exists_afterSettime (hdont : w.dontFake = false)
    (ht₀ : w.os w.now (.realClockGettime .realtime) = some (some t₀))
    (hd : OffsetFits (T.ns - t₀.ns)) (h : (clockSettime B .realtime T).run seq w = .ok (0, w₁)) :
    ∃ m, w₁ = w.afterSettime (T.ns - t₀.ns) m := by
  rw [run_clockSettime hdont ht₀ hd] at h
  obtain ⟨ok, w₂, henv, h⟩ := exists_of_run_bind h
  obtain rfl := eq_of_run_setenv henv
  cases ok with
  | false => cases h
  | true =>
    rw [if_neg (by simp), run_store] at h
    obtain ⟨_, w₃, hupdate, h⟩ := exists_of_run_bind h
    cases h
    obtain ⟨m, rfl⟩ := now_of_updateTimestampFile hupdate
    exact ⟨m, rfl⟩

/-- It succeeds if the environment can be changed and there is no timestamp file. -/
theorem runs_clockSettime {env : EnvVar → Option CStr} (hdont : w.dontFake = false)
    (ht₀ : w.os w.now (.realClockGettime .realtime) = some (some t₀))
    (hd : OffsetFits (T.ns - t₀.ns)) (henv : w.HasEnv env)
    (hfile : env .faketimeTimestampFile = none)
    (hset : ∀ n v value, w.os n (.setenv v value) = some true) :
    ∃ m, (clockSettime B .realtime T).run seq w = .ok (0, w.afterSettime (T.ns - t₀.ns) m) := by
  have hnone : ∀ n, (w.setEnv .faketime (offsetText (T.ns - t₀.ns))).os n
      (.getenv .faketimeTimestampFile) = some none := fun n => by
    rw [← hfile]
    exact henv n _
  have hruns : (clockSettime B .realtime T).Runs seq w fun r w' =>
      r = 0 ∧ ∃ m, w' = w.afterSettime (T.ns - t₀.ns) m := by
    rw [Runs, run_clockSettime hdont ht₀ hd]
    refine runs_setenv (hset _ _ _) ?_
    rw [if_neg (by simp)]
    exact runs_store (runs_getenv (hnone _) (runs_pure ⟨rfl, _, rfl⟩))
  obtain ⟨_, _, hr, rfl, m, rfl⟩ := hruns
  exact ⟨m, hr⟩

end Settime

/-! ### The reported time -/

section Numbers

variable {s : Proc} {T t₀ t : Timespec} {d : ℤ} {b : Bool}

/-- The real time since the start time. -/
def Proc.sinceStart (s : Proc) (t : Timespec) : ℤ := t.ns - s.ftplStarttime.real.ns

/-- The same time as the clock counts it. -/
def Proc.elapsed (s : Proc) (t : Timespec) : ℤ := trunc ((s.sinceStart t : ℚ) * s.rate)

/-- What the rate has added to the clock until the real time is `t`. -/
def Proc.gained (s : Proc) (t : Timespec) : ℚ := (s.rate - 1) * s.sinceStart t

/-- What counting in nanoseconds adds to it. -/
def Proc.countingError (s : Proc) (t : Timespec) : ℚ := s.elapsed t - s.sinceStart t * s.rate

/-- What printing adds to an offset. -/
def printingError (d : ℤ) : ℚ := ((printedMicros d * 1000 : ℤ) : ℚ) - d

/-- Printing is accurate to half a microsecond. -/
theorem abs_printingError_le (d : ℤ) : |printingError d| ≤ 500 := by
  have h := abs_roundEven_sub_le ((d : ℚ) / 1000)
  rw [abs_le] at h ⊢
  unfold printingError printedMicros
  push_cast
  constructor <;> linarith [h.1, h.2]

/-- Counting is accurate to a nanosecond. -/
theorem abs_countingError_lt (s : Proc) (t : Timespec) : |s.countingError t| < 1 :=
  abs_trunc_sub_lt_one _

/-- **The clock can be set to `T` at `t₀` and read at `t`**: no number on the way is out of
range. -/
structure Proc.Spans (s : Proc) (T t₀ t : Timespec) : Prop where
  offset : OffsetFits (T.ns - t₀.ns)
  base : Fits (s.ftplStarttime.real.ns + printedMicros (T.ns - t₀.ns) * 1000)
  elapsed : Fits (s.elapsed t)
  sum : Fits (s.ftplStarttime.real.ns + printedMicros (T.ns - t₀.ns) * 1000 + s.elapsed t)

/-- **The error of the clock after it has been set**: what the rate had added to it before, and
the errors of printing and counting, are less than a microsecond together. -/
def Proc.OnTime (s : Proc) (T t₀ t : Timespec) : Prop :=
  |s.gained t₀ + printingError (T.ns - t₀.ns) + s.countingError t| ≤ 1000

instance (s : Proc) (T t₀ t : Timespec) : Decidable (s.OnTime T t₀ t) :=
  inferInstanceAs (Decidable (_ ≤ _))

/-- The time that is reported. -/
theorem ns_startAt_reset (hs : s.TimesStored) (hstart : s.ftplStarttime.real.IsReading)
    (ht : t.IsReading) (hspan : s.Spans T t₀ t) :
    (normalizeTimespecValue ((s.reset (T.ns - t₀.ns) b).startAt .realtime t)).ns =
      s.ftplStarttime.real.ns + printedMicros (T.ns - t₀.ns) * 1000 + s.elapsed t := by
  have hoffset : (printedOffset (T.ns - t₀.ns)).Normal := Timespec.normal_ofNs _
  have hreset : (s.reset (T.ns - t₀.ns) b).TimesStored :=
    ⟨(normal_timespecadd (hs.start .realtime) hoffset.stored).stored, hs.start⟩
  have hbase : (s.reset (T.ns - t₀.ns) b).userFakedTimeTimespec.ns =
      s.ftplStarttime.real.ns + printedMicros (T.ns - t₀.ns) * 1000 := by
    refine (ns_timespecadd (hs.start .realtime) hoffset.stored).trans ?_
    rw [printedOffset, Timespec.ns_ofNs]
    exact hspan.base.satNs
  -- two readings of a real clock are never too far apart
  have hsince : Fits (t.ns - s.ftplStarttime.real.ns) := by
    have hmin : nsMin = -nsMax - 1 := by decide
    obtain ⟨-, h0, h1⟩ := hstart
    obtain ⟨-, h2, h3⟩ := ht
    exact ⟨by omega, by omega⟩
  have hscaled : (s.reset (T.ns - t₀.ns) b).scaled (t.ns - s.ftplStarttime.real.ns) =
      s.elapsed t := by
    have helapsed := hspan.elapsed
    unfold Proc.elapsed Proc.rate Proc.sinceStart at helapsed ⊢
    unfold Proc.scaled
    change (if s.userRateSet then
      satNs (trunc (((t.ns - s.ftplStarttime.real.ns : ℤ) : ℚ) * s.userRate))
      else t.ns - s.ftplStarttime.real.ns) = _
    split
    next hset =>
      rw [if_pos hset] at helapsed
      exact helapsed.satNs
    next => rw [mul_one, trunc_intCast]
  rw [ns_normalizeTimespecValue, hreset.ns_startAt ht.1, hbase]
  change satNs (_ + (s.reset (T.ns - t₀.ns) b).scaled (satNs (t.ns - s.ftplStarttime.real.ns))) = _
  rw [hsince.satNs, hscaled, hspan.sum.satNs]

/-- Its distance from the time it should be. -/
theorem onTime_iff (s : Proc) (T t₀ t : Timespec) :
    s.OnTime T t₀ t ↔ |((s.ftplStarttime.real.ns + printedMicros (T.ns - t₀.ns) * 1000 +
      s.elapsed t : ℤ) : ℚ) - (T.ns + s.rate * (t.ns - t₀.ns))| ≤ 1000 := by
  unfold Proc.OnTime Proc.gained Proc.countingError printingError Proc.sinceStart
  have herror : (s.rate - 1) * ((t₀.ns - s.ftplStarttime.real.ns : ℤ) : ℚ) +
      (((printedMicros (T.ns - t₀.ns) * 1000 : ℤ) : ℚ) - ((T.ns - t₀.ns : ℤ) : ℚ)) +
        ((s.elapsed t : ℚ) - ((t.ns - s.ftplStarttime.real.ns : ℤ) : ℚ) * s.rate) =
      ((s.ftplStarttime.real.ns + printedMicros (T.ns - t₀.ns) * 1000 + s.elapsed t : ℤ) : ℚ) -
        (T.ns + s.rate * (t.ns - t₀.ns)) := by
    push_cast
    ring
  rw [herror]

/-- At the rate of real time the clock is on time. -/
theorem onTime_of_rate_eq_one (h : s.rate = 1) : s.OnTime T t₀ t := by
  have hprint := abs_printingError_le (T.ns - t₀.ns)
  have hcount := abs_countingError_lt s t
  rw [Proc.OnTime, Proc.gained, h, sub_self, zero_mul, zero_add]
  rw [abs_le] at hprint ⊢
  rw [abs_lt] at hcount
  constructor <;> linarith [hprint.1, hprint.2, hcount.1, hcount.2]

end Numbers

/-! ### Setting the clock -/

/-- **A process whose clock can be set**: it is able to answer, it fakes the time without ticks,
and the offset it has saved, if it is one that was printed, is in force
(`LibFaketime.offsetApplied_of_parse`). -/
structure Settable (B : Build) (env : EnvVar → Option CStr) (w : World) : Prop where
  able : Able B w
  hasEnv : w.HasEnv env
  faking : w.proc.ftMode ≠ .noop
  noTick : w.proc.userPerTickIncSet = false
  applied : w.proc.OffsetApplied
  times : w.proc.TimesStored
  start : w.proc.ftplStarttime.real.IsReading

/-- **Nothing changes but the time**: clocks and files may, and the time is queried. -/
inductive Passes (B : Build) : World → World → Prop
  | outside {w : World} (os : ℕ → (o : Op) → Option o.Ans) (file : ℕ → CStr → Option CStr)
      (hcalm : Calm { w with os := os, file := file })
      (henv : ∀ n v, os n (.getenv v) = w.os n (.getenv v)) :
      Passes B w { w with os := os, file := file }
  | query {w w' : World} (c : ClockId) (r : ℤ × Option Timespec)
      (h : (clockGettime B c).run seq w = .ok (r, w')) : Passes B w w'

/-- **The clock shows `y` nanoseconds at the real time `t`, to within a microsecond**, as long as
nothing changes but the time. -/
def ShowsAt (B : Build) (w : World) (t : Timespec) (y : ℚ) : Prop :=
  ∀ w', Relation.ReflTransGen (Passes B) w w' →
    w'.os w'.now (.realClockGettime .realtime) = some (some t) →
      ∃ v, (clockGettime B .realtime).answer seq w' = .ok (0, some v) ∧ |(v.ns : ℚ) - y| ≤ 1000

section Setting

variable {B : Build} {env : EnvVar → Option CStr} {w w₁ : World} {T t₀ t : Timespec} {d : ℤ}

/-- The environment after the clock has been set. -/
def resetEnv (env : EnvVar → Option CStr) (d : ℤ) : EnvVar → Option CStr :=
  Function.update env .faketime (some (offsetText d))

/-- The variables after the clock has been set. -/
def Proc.afterSettime (s : Proc) : Proc :=
  { s with parseConfigFile := false, forceCacheExpiration := true }

theorem Settable.awaits (hs : Settable B env w) : w.proc.afterSettime.Awaits where
  latch := rfl
  faking := hs.faking
  noTick := hs.noTick
  applied d hd hsaved := congrArg Proc.afterSettime (hs.applied d hd hsaved)

theorem Settable.heeds (hs : Settable B env w) (d : ℤ) (m : ℕ) :
    Heeds (resetEnv env d) w.proc.afterSettime d (w.afterSettime d m) ∧
      Able B (w.afterSettime d m) := by
  refine ⟨⟨fun n v => ?_, Function.update_self .., Or.inl ⟨rfl, rfl⟩⟩, ?_⟩
  · change (if v = .faketime then some (some (offsetText d)) else w.os n (.getenv v)) = _
    unfold resetEnv
    by_cases hv : v = .faketime
    · rw [if_pos hv, hv, Function.update_self]
    · rw [if_neg hv, Function.update_of_ne hv, hs.hasEnv]
  · have hw := hs.able
    exact ⟨⟨hw.calm.clock, hw.calm.lock, hw.calm.unlock, hw.calm.write⟩, hw.tries, hw.faking,
      hw.noLimits, hw.noReplay, hw.mutexFree, hw.semFree⟩

/-- **The setting stays in force while time passes.** -/
theorem heeds_of_passes {s : Proc} {w' : World} (hs : s.Awaits) (hd : OffsetFits d)
    (h : Heeds env s d w) (hw : Able B w) (hpass : Relation.ReflTransGen (Passes B) w w') :
    Heeds env s d w' ∧ Able B w' := by
  induction hpass with
  | refl => exact ⟨h, hw⟩
  | tail _ hstep ih =>
    obtain ⟨h, hw⟩ := ih
    cases hstep with
    | outside os file hcalm henv =>
      exact ⟨⟨fun n v => (henv n v).trans (h.hasEnv n v), h.setting, h.state⟩,
        ⟨hcalm, hw.tries, hw.faking, hw.noLimits, hw.noReplay, hw.mutexFree, hw.semFree⟩⟩
    | query c r hrun =>
      -- the query has read its clock, and it is the one whose result is known
      obtain ⟨reading, _, hread, -⟩ := exists_of_run_bind hrun
      rw [realClockGettime, run_perform, seq_realClockGettime] at hread
      have hos := (World.ask_eq_ok hread).1
      obtain ⟨_, _, hrun', h', hw', -⟩ := runs_clockGettime_set hs hd h hw hos
      rw [hrun] at hrun'
      cases hrun'
      exact ⟨h', hw'⟩

/-- What a query reports after `clock_settime` has succeeded. -/
theorem answer_after_settime (hs : Settable B env w) (hd : OffsetFits d) {m : ℕ} {w' : World}
    (hpass : Relation.ReflTransGen (Passes B) (w.afterSettime d m) w')
    (ht : w'.os w'.now (.realClockGettime .realtime) = some (some t)) :
    (clockGettime B .realtime).answer seq w' =
      .ok (0, some (normalizeTimespecValue
        ((w.proc.afterSettime.reset d true).startAt .realtime t))) := by
  obtain ⟨h, hw⟩ := hs.heeds d m
  obtain ⟨h', hw'⟩ := heeds_of_passes hs.awaits hd h hw hpass
  refine Runs.answer_eq (Q := fun _ => True) ?_
  refine (runs_clockGettime_set hs.awaits hd h' hw' ht).mono ?_
  exact fun a w'' h'' => ⟨h''.2.2 t rfl rfl, trivial⟩

/-- **The clock shows the time it has been set to if and only if it is on time.** -/
theorem showsAt_settime_iff (hs : Settable B env w) (hread : t.IsReading)
    (ht₀ : w.os w.now (.realClockGettime .realtime) = some (some t₀)) (hspan : w.proc.Spans T t₀ t)
    (hset : (clockSettime B .realtime T).run seq w = .ok (0, w₁)) :
    ShowsAt B w₁ t (T.ns + w.proc.rate * (t.ns - t₀.ns)) ↔ w.proc.OnTime T t₀ t := by
  obtain ⟨m, rfl⟩ := exists_afterSettime hs.able.faking ht₀ hspan.offset hset
  have hns : (normalizeTimespecValue ((w.proc.afterSettime.reset (T.ns - t₀.ns) true).startAt
      .realtime t)).ns = w.proc.ftplStarttime.real.ns + printedMicros (T.ns - t₀.ns) * 1000 +
        w.proc.elapsed t :=
    ns_startAt_reset (s := w.proc.afterSettime) ⟨hs.times.base, hs.times.start⟩ hs.start hread
      ⟨hspan.offset, hspan.base, hspan.elapsed, hspan.sum⟩
  rw [onTime_iff, ← hns]
  constructor
  · intro h
    -- the real clock may show `t` at once
    have hcalm := (hs.heeds (T.ns - t₀.ns) m).2.calm
    have hpass : Passes B (w.afterSettime (T.ns - t₀.ns) m)
        ((w.afterSettime (T.ns - t₀.ns) m).onClock fun _ _ => t) :=
      .outside _ _ ⟨fun _ => ⟨t, rfl⟩, hcalm.lock, hcalm.unlock, hcalm.write⟩ fun _ _ => rfl
    obtain ⟨v, hv, herror⟩ := h _ (.single hpass) rfl
    rw [answer_after_settime hs hspan.offset (.single hpass) rfl] at hv
    cases hv
    exact herror
  · exact fun h w' hpass hr => ⟨_, answer_after_settime hs hspan.offset hpass hr, h⟩

/-- If the environment can be changed, `clock_settime` succeeds. -/
theorem eq_zero_of_clockSettime {n : ℤ} (hdont : w.dontFake = false)
    (ht₀ : w.os w.now (.realClockGettime .realtime) = some (some t₀))
    (hd : OffsetFits (T.ns - t₀.ns)) (hset : ∀ n v value, w.os n (.setenv v value) = some true)
    (h : (clockSettime B .realtime T).run seq w = .ok (n, w₁)) : n = 0 := by
  rw [run_clockSettime hdont ht₀ hd] at h
  obtain ⟨ok, w₂, henv, h⟩ := exists_of_run_bind h
  rw [setenv, run_perform, seq_setenv] at henv
  obtain rfl : true = ok := Option.some.inj ((hset _ _ _).symm.trans (World.ask_eq_ok henv).1)
  rw [if_neg (by simp), run_store] at h
  obtain ⟨_, w₃, -, h⟩ := exists_of_run_bind h
  cases h
  rfl

/-- A query leaves the clock settable. -/
theorem Settable.like {w' : World} (hs : Settable B env w) (h : Like w w') : Settable B env w' where
  able := hs.able.like h
  hasEnv n v := (congrFun (congrFun h.os n) (.getenv v)).trans (hs.hasEnv n v)
  faking := by
    rw [h.field Proc.ftMode]
    exact hs.faking
  noTick := (h.field Proc.userPerTickIncSet).trans hs.noTick
  applied d hd hsaved :=
    follows_eq_of_settings h.settings
      (hs.applied d hd ((h.field Proc.userFakedTimeSaved).symm.trans hsaved))
  times := hs.times.of_core h.core
  start := by
    rw [h.field Proc.ftplStarttime]
    exact hs.start

/-- A process with a fixed configuration responds. -/
theorem Settable.responds (hs : Settable B env w) (hfix : ConfigFixed B w) : Responds B w where
  calm := hs.able.calm
  tries := hs.able.tries
  mode := hs.faking
  noTick _ := hs.noTick
  noLimits := hs.able.noLimits
  noReplay := hs.able.noReplay
  mutexFree := hs.able.mutexFree
  saves h := absurd h (by rw [hs.able.semFree]; simp)
  fixed := hfix

/-- The time `adjtime` sets the clock to. -/
def Timespec.adjusted (v : Timespec) (delta : Timeval) : Timespec :=
  ⟨v.tvSec + delta.tvSec, v.tvNsec + delta.tvUsec * 1000⟩

theorem ns_adjusted (v : Timespec) (delta : Timeval) :
    (v.adjusted delta).ns = v.ns + delta.us * 1000 := by
  rw [Timespec.ns_eq, Timespec.ns_eq, Timespec.adjusted, Timeval.us]
  ring

/-- A query leaves everything like it was. -/
theorem like_of_query (hs : Settable B env w) (hfix : ConfigFixed B w)
    (ht₀ : w.os w.now (.realClockGettime .realtime) = some (some t₀)) {a : ℤ × Option Timespec}
    {w' : World} (h : (clockGettime B .realtime).run seq w = .ok (a, w')) : Like w w' := by
  have hlike : Like w w.tick := ⟨rfl, rfl, rfl, rfl, rfl, rfl⟩
  have hquery : (clockGettime B .realtime).Runs seq w fun _ w' => Like w w' := by
    refine runs_realClockGettime ht₀ (runs_load ?_)
    rw [if_pos (by simp [ClockId.IsMonotonic])]
    refine (runs_query ((hs.responds hfix).like hlike)).bind ?_
    rintro a w' ⟨-, h⟩
    exact runs_pure (hlike.trans h)
  obtain ⟨_, _, hrun, hlike⟩ := hquery
  rw [h] at hrun
  cases hrun
  exact hlike

/-- **`adjtime` shifts the clock by `delta` if and only if the shifted clock is on time.** -/
theorem showsAt_adjtime_iff {v : Timespec} {w' : World} {delta : Timeval} {r : ℤ × Timeval}
    {ret : ℤ} (hs : Settable B env w) (hfix : ConfigFixed B w) (hread : t.IsReading)
    (ht₀ : ∀ n, w.os n (.realClockGettime .realtime) = some (some t₀))
    (hset : ∀ n v value, w.os n (.setenv v value) = some true)
    (hquery : (clockGettime B .realtime).run seq w = .ok ((ret, some v), w'))
    (hspan : w.proc.Spans (v.adjusted delta) t₀ t)
    (hadj : (adjtime B (some delta)).run seq w = .ok (r, w₁)) :
    ShowsAt B w₁ t (v.ns + delta.us * 1000 + w.proc.rate * (t.ns - t₀.ns)) ↔
      w.proc.OnTime (v.adjusted delta) t₀ t := by
  -- the clock is set by what a query of its own has shown
  have hlike := like_of_query hs hfix (ht₀ _) hquery
  have hs' := hs.like hlike
  have hstart : w'.proc.ftplStarttime = w.proc.ftplStarttime := hlike.field Proc.ftplStarttime
  have hrate : w'.proc.rate = w.proc.rate := hlike.field Proc.rate
  have helapsed : w'.proc.elapsed t = w.proc.elapsed t := hlike.field fun s => s.elapsed t
  have hspan' : w'.proc.Spans (v.adjusted delta) t₀ t := by
    refine ⟨hspan.offset, ?_, ?_, ?_⟩
    · rw [hstart]
      exact hspan.base
    · rw [helapsed]
      exact hspan.elapsed
    · rw [hstart, helapsed]
      exact hspan.sum
  have ht₀' : w'.os w'.now (.realClockGettime .realtime) = some (some t₀) := by
    rw [hlike.os]
    exact ht₀ _
  obtain ⟨_, _, hrun, hadj⟩ := exists_of_run_bind hadj
  rw [hquery] at hrun
  cases hrun
  obtain ⟨n, _, hsettime, hadj⟩ := exists_of_run_bind hadj
  cases hadj
  have hn : n = 0 := eq_zero_of_clockSettime hs'.able.faking ht₀' hspan'.offset (by
    rw [hlike.os]
    exact hset) hsettime
  rw [hn] at hsettime
  have hiff := showsAt_settime_iff hs' hread ht₀' hspan' hsettime
  rw [hrate, ns_adjusted,
    show w'.proc.OnTime (v.adjusted delta) t₀ t = w.proc.OnTime (v.adjusted delta) t₀ t
    from hlike.field fun s => s.OnTime (v.adjusted delta) t₀ t] at hiff
  rw [← hiff]
  push_cast
  exact Iff.rfl

/-- **Setting the clock takes effect exactly as far as the rate had not moved it before.** After
`clock_settime` has succeeded at the real time `t₀`, the clock shows `T` and goes on from there at
its rate if and only if what the rate had added to the clock until then, together with what is
lost in printing the offset (half a microsecond at most) and in counting (a nanosecond at most), is
a microsecond at most. The same goes for `adjtime`, which sets the clock to the time it shows and
`delta` more. -/
theorem set_clock_takes_effect_iff (hs : Settable B env w) (hread : t.IsReading) :
    (w.os w.now (.realClockGettime .realtime) = some (some t₀) → w.proc.Spans T t₀ t →
      ∀ w₁, (clockSettime B .realtime T).run seq w = .ok (0, w₁) →
        (ShowsAt B w₁ t (T.ns + w.proc.rate * (t.ns - t₀.ns)) ↔ w.proc.OnTime T t₀ t)) ∧
    (ConfigFixed B w → (∀ n, w.os n (.realClockGettime .realtime) = some (some t₀)) →
      (∀ n v value, w.os n (.setenv v value) = some true) →
      ∀ v w' delta r w₁, (clockGettime B .realtime).run seq w = .ok ((0, some v), w') →
        w.proc.Spans (v.adjusted delta) t₀ t → (adjtime B (some delta)).run seq w = .ok (r, w₁) →
        (ShowsAt B w₁ t (v.ns + delta.us * 1000 + w.proc.rate * (t.ns - t₀.ns)) ↔
          w.proc.OnTime (v.adjusted delta) t₀ t)) := by
  refine ⟨fun ht₀ hspan w₁ hset => showsAt_settime_iff hs hread ht₀ hspan hset, ?_⟩
  intro hfix ht₀ hset v w' delta r w₁ hquery hspan hadj
  exact showsAt_adjtime_iff hs hfix hread ht₀ hset hquery hspan hadj

end Setting

/-! ### Two processes -/

/-- The system of a calm world, where the environment can be changed too. -/
def settableWorld (env : EnvVar → Option CStr) (s : Proc) : World :=
  { calmWorld env (fun _ _ => ⟨60, 0⟩) ⟨0, 0⟩ s with
    os := fun n o => match o with
      | .setenv _ _ => some true
      | o => calmOs env (fun _ _ => ⟨60, 0⟩) ⟨0, 0⟩ n o }

theorem settableWorld_able {env : EnvVar → Option CStr} {s : Proc} (h : s.limitedFaking = false)
    (h' : s.infileSet = false) : Able plainBuild (settableWorld env s) :=
  ⟨⟨fun _ => ⟨_, rfl⟩, fun _ => rfl, fun _ => rfl, fun _ _ => ⟨_, rfl⟩⟩,
    by decide, rfl, h, h', rfl, rfl⟩

/-- A clock that stands still goes on from the time it is set to. -/
theorem frozen_clock_can_be_set : ∃ w₁,
    (clockSettime plainBuild .realtime ⟨1000, 0⟩).run seq (settableWorld frozenEnv frozenProc) =
        .ok (0, w₁) ∧
      ShowsAt plainBuild w₁ ⟨70, 0⟩ ((⟨1000, 0⟩ : Timespec).ns +
        frozenProc.rate * ((⟨70, 0⟩ : Timespec).ns - (⟨60, 0⟩ : Timespec).ns)) := by
  have hs : Settable plainBuild frozenEnv (settableWorld frozenEnv frozenProc) := by
    refine ⟨settableWorld_able rfl rfl, fun _ _ => rfl, FtMode.noConfusion, rfl, ?_, ?_, ?_⟩
    · exact offsetApplied_of_mem (c := ' ') (by decide) (by decide) (by decide)
    · exact ⟨by decide, fun c => by cases c <;> exact (by decide : (⟨50, 0⟩ : Timespec).Stored)⟩
    · exact ⟨by decide, by decide, by decide⟩
  have hspan : frozenProc.Spans ⟨1000, 0⟩ ⟨60, 0⟩ ⟨70, 0⟩ :=
    ⟨by decide +kernel, by decide +kernel, by decide +kernel, by decide +kernel⟩
  obtain ⟨m, hrun⟩ := runs_clockSettime (B := plainBuild) (w := settableWorld frozenEnv frozenProc)
    (T := ⟨1000, 0⟩) rfl rfl hspan.offset hs.hasEnv rfl fun _ _ _ => rfl
  refine ⟨_, hrun, ?_⟩
  exact ((set_clock_takes_effect_iff hs (t := ⟨70, 0⟩) (T := ⟨1000, 0⟩)
    ⟨by decide, by decide, by decide⟩).1 rfl hspan _ hrun).mpr (onTime_of_rate_eq_one rfl)

/-- A clock at double speed that was started ten seconds ago shows a time ten seconds later than
the one it has been set to. -/
theorem double_speed_clock_misses : ∃ w₁,
    (clockSettime plainBuild .realtime ⟨1000, 0⟩).run seq
    (settableWorld doubleSpeedEnv doubleSpeed) =
        .ok (0, w₁) ∧
      (clockGettime plainBuild .realtime).answer seq w₁ = .ok (0, some ⟨1010, 0⟩) ∧
      ¬ ShowsAt plainBuild w₁ ⟨60, 0⟩ ((⟨1000, 0⟩ : Timespec).ns +
        doubleSpeed.rate * ((⟨60, 0⟩ : Timespec).ns - (⟨60, 0⟩ : Timespec).ns)) := by
  have hs : Settable plainBuild doubleSpeedEnv (settableWorld doubleSpeedEnv doubleSpeed) := by
    refine ⟨settableWorld_able rfl rfl, fun _ _ => rfl, FtMode.noConfusion, rfl, ?_,
      doubleSpeed_timesStored, ⟨by decide, by decide, by decide⟩⟩
    exact offsetApplied_of_mem (c := 'x') (by decide) (by decide) (by decide)
  have hread : (⟨60, 0⟩ : Timespec).IsReading := ⟨by decide, by decide, by decide⟩
  have hspan : doubleSpeed.Spans ⟨1000, 0⟩ ⟨60, 0⟩ ⟨60, 0⟩ :=
    ⟨by decide +kernel, by decide +kernel, by decide +kernel, by decide +kernel⟩
  obtain ⟨m, hrun⟩ :=
    runs_clockSettime (B := plainBuild) (w := settableWorld doubleSpeedEnv doubleSpeed)
    (T := ⟨1000, 0⟩) rfl rfl hspan.offset hs.hasEnv rfl fun _ _ _ => rfl
  refine ⟨_, hrun, ?_, fun h => ?_⟩
  · rw [answer_after_settime hs hspan.offset .refl (t := ⟨60, 0⟩) rfl]
    refine congrArg (fun v : Timespec => Except.ok ((0 : ℤ), some v)) ?_
    refine Timespec.ext_ns (normal_normalizeTimespecValue _) (by decide) ?_
    refine (ns_startAt_reset (s := doubleSpeed.afterSettime) ⟨doubleSpeed_timesStored.base,
      doubleSpeed_timesStored.start⟩ hs.start hread
        ⟨hspan.offset, hspan.base, hspan.elapsed, hspan.sum⟩).trans ?_
    decide +kernel
  · have hmiss : ¬ doubleSpeed.OnTime ⟨1000, 0⟩ ⟨60, 0⟩ ⟨60, 0⟩ := by decide +kernel
    exact hmiss ((showsAt_settime_iff hs hread rfl hspan hrun).mp h)

end LibFaketime
