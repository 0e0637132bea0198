import LibFaketime.ConfigText
import LibFaketime.Entry

/-!
# A process that is excluded from faking

`FAKETIME_SKIP_CMDS` and `FAKETIME_ONLY_CMDS` exclude a process by two means: its mode is
`FT_NOOP`, and the thread that has initialized it does not fake. Neither is enough. The
mode is overwritten by a setting that starts with `@` or `%`, and the other threads are
told by it that their query has failed.

What remains is shown here for any number of excluded processes and any interleaving of
their threads. As long as no setting of those two kinds is given, the mode stays
(`LibFaketime.Sealed`), and a call sees the real time if it is one of those the second
means covers, or does not get as far as the mode (`LibFaketime.Spared`).
-/

namespace LibFaketime

open Effects Effects.Prog

/-! ### Settings -/

section Settings

/-- The texts a process may be given as a setting: those of the environment, and, if that
may have none, the contents of configuration files that fit the buffer. -/
def MayApply (E : Surroundings) (text : CStr) : Prop :=
  E.admits (.getenv .faketime) (some text) ∨
    (E.admits (.getenv .faketime) none ∧
      ∃ contents, Contents E contents ∧ text = prepareConfigContents contents)

/-- A setting that does not overwrite `FT_NOOP`. -/
def KeepsMode (text : CStr) : Prop := text.head? ≠ some '@' ∧ text.head? ≠ some '%'

/-- No setting has a rate. -/
def NoRate (E : Surroundings) : Prop := ∀ text, MayApply E text → 'x' ∉ text

/-- There is no file to replay. -/
def NoReplay (E : Surroundings) : Prop :=
  ∀ r : Option CStr, E.admits (.getenv .faketimeLoadFile) r → r = none

/-- The environment says that the monotonic clock is not to be faked. -/
def MonotonicOff (E : Surroundings) : Prop :=
  ∀ r₁ : Option CStr, E.admits (.getenv .faketimeDontFakeMonotonic) r₁ → r₁ = some ['1'] ∨
    (r₁ = none ∧ ∀ r₂ : Option CStr, E.admits (.getenv .dontFakeMonotonic) r₂ → r₂ = some ['1'])

/-- What is used of a setting of an excluded process. -/
structure Tame (E : Surroundings) (text : CStr) : Prop where
  keeps : KeepsMode text
  noRate : NoRate E → 'x' ∉ text

variable {E : Surroundings} {text : CStr}

theorem Tame.take (h : Tame E text) (n : ℕ) : Tame E (text.take (n + 1)) := by
  refine ⟨?_, fun hr hx => h.noRate hr (List.mem_of_mem_take hx)⟩
  cases text with
  | nil => exact h.keeps
  | cons c rest => exact h.keeps

theorem tame_default : Tame E "+0".toList := ⟨⟨by decide, by decide⟩, fun _ => by decide⟩

end Settings

/-! ### The variables of an excluded process -/

section Sealed

/-- **An excluded process.** Its mode is `FT_NOOP`, it has a start time, and it has never
faked anything. -/
structure Sealed (E : Surroundings) (s : Proc) : Prop where
  noop : s.ftMode = .noop
  start : 0 ≤ s.ftplStarttime.real.tvNsec
  cache : s.ftplTimecache.real.tvNsec < 0
  noRate : NoRate E → s.userRateSet = false
  noReplay : NoReplay E → s.infileSet = false
  monotonic : MonotonicOff E → s.fakeMonotonicClock = false
  file : s.parseConfigFile = true → E.admits (.getenv .faketime) none

/-- The limits of a process. -/
def Proc.limits (s : Proc) : Bool × ℤ × ℤ × ℤ × ℤ :=
  (s.limitedFaking, s.ftStartAfterSecs, s.ftStopAfterSecs, s.ftStartAfterNcalls,
    s.ftStopAfterNcalls)

/-- What may have become of the variables of an excluded process in the meantime. -/
structure Later (E : Surroundings) (s s' : Proc) : Prop where
  limits : s'.limits = s.limits
  counter : s.callcounter ≤ s'.callcounter
  shared : s'.sharedSemInitialized = s.sharedSemInitialized
  start : NoReplay E → s'.ftplStarttime = s.ftplStarttime

variable {E : Surroundings} {s s₁ s₂ : Proc}

theorem Later.refl (s : Proc) : Later E s s := ⟨rfl, le_rfl, rfl, fun _ => rfl⟩

theorem Later.trans (h : Later E s s₁) (h' : Later E s₁ s₂) : Later E s s₂ :=
  ⟨h'.limits.trans h.limits, h.counter.trans h'.counter, h'.shared.trans h.shared,
    fun hn => (h'.start hn).trans (h.start hn)⟩

/-- An assignment that leaves an excluded process excluded. -/
def Seals (E : Surroundings) (f : Proc → Proc) : Prop :=
  ∀ s, Sealed E s → Sealed E (f s) ∧ Later E s (f s)

/-- The variables that matter here. -/
def Proc.tied (s : Proc) : FtMode × SystemTime × SystemTime × Bool × Bool × Bool × Bool ×
    (Bool × ℤ × ℤ × ℤ × ℤ) × ℤ × Bool :=
  (s.ftMode, s.ftplStarttime, s.ftplTimecache, s.userRateSet, s.infileSet, s.fakeMonotonicClock,
    s.parseConfigFile, s.limits, s.callcounter, s.sharedSemInitialized)

/-- An assignment to other variables. -/
theorem seals_of_eq {f : Proc → Proc} (h : ∀ s, (f s).tied = s.tied) : Seals E f := by
  intro s hs
  have heq := h s
  simp only [Proc.tied, Prod.mk.injEq] at heq
  obtain ⟨h₁, h₂, h₃, h₄, h₅, h₆, h₇, h₈, h₉, h₁₀⟩ := heq
  refine ⟨⟨?_, ?_, ?_, ?_, ?_, ?_, ?_⟩, h₈, h₉.ge, h₁₀, fun _ => h₂⟩
  · exact h₁.trans hs.noop
  · rw [h₂]
    exact hs.start
  · rw [h₃]
    exact hs.cache
  · exact fun hr => h₄.trans (hs.noRate hr)
  · exact fun hr => h₅.trans (hs.noReplay hr)
  · exact fun hr => h₆.trans (hs.monotonic hr)
  · exact fun hp => hs.file (h₇.symm.trans hp)

end Sealed

/-! ### What a thread knows -/

section Ask

/-- What is left of the file a thread is reading, and what its call has read from a clock
first. -/
structure Ask where
  rest : CStr
  heard : Option Reading

/-- A reading of a clock. -/
def Ask.hear (v : Ask) (r : Reading) : Ask := { v with heard := v.heard.or (some r) }

/-- The shared block has a start time. -/
def FtShared.HasStart (d : FtShared) : Prop := 0 ≤ d.startTimeReal.tvNsec

/-- The shared block has none, or one that has been set. -/
def FtShared.StartValid (d : FtShared) : Prop := d.startTimeReal.tvNsec = -1 ∨ d.HasStart

/-- **What the calls of a thread of an excluded process may answer.** The variables of the
process are those of an excluded process, and later than `s₀`; `d` is the `dont_fake` of
the thread. -/
def Ask.Answers (E : Surroundings) (d : Bool) (s₀ : Proc) (v : Ask) :
    (o : Op) → o.Ans → Ask → Prop
  | .load, s, v' => (Sealed E s ∧ Later E s₀ s) ∧ v' = v
  | .dontFake, b, v' => b = d ∧ v' = v
  | .readShared, b, v' => (s₀.sharedSemInitialized = true → b.HasStart) ∧ v' = v
  | .realClockGettime c, r, v' => E.admits (.realClockGettime c) r ∧ v' = v.hear (.clock c r)
  | .realGettimeofday, r, v' => E.admits .realGettimeofday r ∧ v' = v.hear (.timeofday r)
  | .openRead path, r, v' => ∃ contents, E.file path contents ∧ r.isSome = contents.isSome ∧
      v' = { v with rest := contents.getD [] }
  | .read _ count, .bytes l, v' => l <+: v.rest ∧ l.length ≤ count ∧
      (l = [] → count = 0 ∨ v.rest = []) ∧ v' = { v with rest := v.rest.drop l.length }
  | .getenv x, r, v' => E.admits (.getenv x) r ∧ v' = v
  | _, _, v' => v' = v

/-- The calls such a thread may make. -/
def Sealing (E : Surroundings) (_ : Ask) : Op → Prop
  | .store f => Seals E f
  | .setDontFake _ => False
  | .writeShared f => ∀ d : FtShared, (d.HasStart → (f d).HasStart) ∧
      (d.StartValid → (f d).StartValid)
  | _ => True

variable {E : Surroundings} {d : Bool} {s₀ : Proc} {β γ : Type} {v : Ask}

/-- The judgement of this file: from the view `v` a program makes only such calls, and
returns with `Q`. -/
abbrev AskWp (E : Surroundings) (d : Bool) (s₀ : Proc) (Q : β → Ask → Prop) (p : Sys β)
    (v : Ask) : Prop :=
  p.Wp (Sealing E) (Ask.Answers E d s₀) Q v

theorem ask_load {Q : β → Ask → Prop} {f : Proc → Sys β}
    (h : ∀ s, Sealed E s → Later E s₀ s → AskWp E d s₀ Q (f s) v) :
    AskWp E d s₀ Q (load >>= f) v := by
  refine ⟨trivial, ?_⟩
  rintro s v₁ ⟨⟨hs, hl⟩, rfl⟩
  exact h s hs hl

theorem ask_dontFake {Q : β → Ask → Prop} {f : Bool → Sys β} (h : AskWp E d s₀ Q (f d) v) :
    AskWp E d s₀ Q (dontFake >>= f) v := by
  refine ⟨trivial, ?_⟩
  rintro b v₁ ⟨rfl, rfl⟩
  exact h

theorem ask_store {g : Proc → Proc} (h : Seals E g) :
    AskWp E d s₀ (fun _ v' => v' = v) (store g) v :=
  ⟨h, fun _ _ h => h⟩

theorem ask_getenv {Q : β → Ask → Prop} {x : EnvVar} {f : Option CStr → Sys β}
    (h : ∀ r : Option CStr, E.admits (.getenv x) r → AskWp E d s₀ Q (f r) v) :
    AskWp E d s₀ Q (getenv x >>= f) v := by
  refine ⟨trivial, ?_⟩
  rintro r v₁ ⟨hr, rfl⟩
  exact h r hr

/-- A call after which anything may be left to show. -/
theorem ask_call {Q : β → Ask → Prop} {o : Op} {f : o.Ans → Sys β} (ho : Sealing E v o)
    (h : ∀ r v', AskWp E d s₀ Q (f r) v') : AskWp E d s₀ Q (perform (I := sys) o >>= f) v :=
  ⟨ho, fun r v' _ => h r v'⟩

theorem ask_exit {Q : β → Ask → Prop} {code : ℤ} {msg : String} :
    AskWp E d s₀ Q (exit code msg : Sys β) v := ⟨trivial, fun e => Empty.elim e⟩

theorem ask_stalled {Q : β → Ask → Prop} : AskWp E d s₀ Q (stalled : Sys β) v :=
  ⟨trivial, fun e => Empty.elim e⟩

/-- The first reading of a call stays the first one. -/
theorem Ask.Answers.heard {o : Op} {r : o.Ans} {v' : Ask} (h : v.Answers E d s₀ o r v')
    {x : Reading} (hx : v.heard = some x) : v'.heard = some x := by
  have hhear : ∀ y, (v.hear y).heard = some x := by
    intro y
    rw [Ask.hear, hx, Option.some_or]
  cases o with
  | load => rw [h.2, hx]
  | dontFake => rw [h.2, hx]
  | readShared => rw [h.2, hx]
  | realClockGettime c =>
    rw [h.2]
    exact hhear _
  | realGettimeofday =>
    rw [h.2]
    exact hhear _
  | openRead path =>
    obtain ⟨contents, -, -, rfl⟩ := h
    exact hx
  | read fd count =>
    cases r with
    | bytes l =>
      obtain ⟨-, -, -, rfl⟩ := h
      exact hx
    | failed =>
      obtain rfl : v' = v := h
      exact hx
  | getenv x => rw [h.2, hx]
  | _ =>
    obtain rfl : v' = v := h
    exact hx

theorem AskWp.heard {Q : β → Ask → Prop} {p : Sys β} (h : AskWp E d s₀ Q p v) :
    AskWp E d s₀ (fun a v' => Q a v' ∧ ∀ x, v.heard = some x → v'.heard = some x) p v := by
  induction p generalizing v with
  | ret a => exact ⟨h, fun _ hx => hx⟩
  | op o k ih =>
    refine ⟨h.1, fun r v₁ ho => ?_⟩
    refine (ih r (h.2 r v₁ ho)).mono fun a v' hq => ⟨hq.1, fun x hx => ?_⟩
    exact hq.2 x (ho.heard hx)

theorem readsFiles_ask : ReadsFiles E (Sealing E) (Ask.Answers E d s₀) Ask.rest fun _ => True where
  allowed v o _ ho := by cases o <;> trivial
  keeps _ _ _ _ _ _ _ := trivial
  opened v path r v' h := by
    obtain ⟨contents, hf, hs, rfl⟩ := h
    exact ⟨contents, hf, hs, rfl⟩
  read v fd count l v' h := by
    obtain ⟨h₁, h₂, h₃, rfl⟩ := h
    exact ⟨h₁, h₂, h₃, rfl⟩

end Ask

/-! ### Settings of an excluded process -/

section Quiet

variable {E : Surroundings} {d : Bool} {s₀ : Proc} {β γ : Type} {B : Build} {text : CStr}

/-- A program that leaves an excluded process excluded. -/
abbrev Quiet (E : Surroundings) (d : Bool) (s₀ : Proc) (p : Sys β) : Prop :=
  ∀ v, AskWp E d s₀ (fun _ _ => True) p v

theorem quiet_pure (a : β) : Quiet E d s₀ (pure a : Sys β) := fun _ => trivial

theorem Quiet.bind {p : Sys β} {f : β → Sys γ} (hp : Quiet E d s₀ p)
    (hf : ∀ a, Quiet E d s₀ (f a)) : Quiet E d s₀ (p >>= f) :=
  fun v => (hp v).bind fun a v' _ => hf a v'

theorem quiet_load {f : Proc → Sys β}
    (h : ∀ s, Sealed E s → Later E s₀ s → Quiet E d s₀ (f s)) : Quiet E d s₀ (load >>= f) :=
  fun v => ask_load fun s hs hl => h s hs hl v

theorem quiet_store {g : Proc → Proc} (h : Seals E g) : Quiet E d s₀ (store g) :=
  fun _ => (ask_store h).mono fun _ _ _ => trivial

theorem quiet_getenv {x : EnvVar} {f : Option CStr → Sys β}
    (h : ∀ r : Option CStr, E.admits (.getenv x) r → Quiet E d s₀ (f r)) :
    Quiet E d s₀ (getenv x >>= f) :=
  fun v => ask_getenv fun r hr => h r hr v

theorem quiet_call {o : Op} {f : o.Ans → Sys β} (ho : ∀ v, Sealing E v o)
    (h : ∀ r, Quiet E d s₀ (f r)) : Quiet E d s₀ (perform (I := sys) o >>= f) :=
  fun v => ask_call (ho v) fun r v' => h r v'

theorem quiet_exit {code : ℤ} {msg : String} : Quiet E d s₀ (exit code msg : Sys β) :=
  fun _ => ask_exit

/-- `FAKETIME_XRESET` has no effect on a process that has never faked anything. -/
theorem quiet_xreset : Quiet E d s₀ xreset := by
  refine quiet_call (fun _ => trivial) fun e => ?_
  split
  · refine quiet_load fun s hs _ => ?_
    rw [if_neg (by have := hs.cache; omega)]
    exact quiet_pure _
  · exact quiet_pure _

theorem quiet_parseModifiers (h : Tame E text) : Quiet E d s₀ (parseModifiers text) := by
  unfold parseModifiers
  split
  next rest hx =>
    have hrate : Seals E fun p => { p with userRateSet := true } := by
      refine fun s hs => ⟨⟨hs.noop, hs.start, hs.cache, fun hr => ?_, hs.noReplay, hs.monotonic,
        hs.file⟩, ⟨rfl, le_rfl, rfl, fun _ => rfl⟩⟩
      exact absurd (mem_of_strchr hx) (h.noRate hr)
    split
    · exact quiet_exit
    · split
      · exact quiet_exit
      · exact (quiet_store (seals_of_eq fun _ => by rfl)).bind fun _ =>
          (quiet_store hrate).bind fun _ => quiet_xreset
  · split
    · exact quiet_pure _
    · split
      · exact quiet_exit
      · split
        · exact quiet_exit
        · exact (quiet_store (seals_of_eq fun _ => by rfl)).bind fun _ =>
            quiet_store (seals_of_eq fun _ => by rfl)

theorem quiet_parseDate (lead : CStr) (failure : CStr → String) :
    Quiet E d s₀ (parseDate B lead text failure) := by
  refine quiet_load fun s _ _ => ?_
  dsimp only
  split
  · exact quiet_exit
  · refine (quiet_store (seals_of_eq fun _ => by rfl)).bind fun _ => ?_
    split
    · split
      · exact quiet_exit
      · exact quiet_store (seals_of_eq fun _ => by rfl)
    · exact quiet_pure _

/-- The assignment of the mode that looks at the mode it replaces. -/
theorem seals_mode (mode : FtMode) :
    Seals E fun p => { p with ftMode := if p.ftMode ≠ .noop then mode else p.ftMode } := by
  intro s hs
  have hmode : (if s.ftMode ≠ .noop then mode else s.ftMode) = .noop := by
    rw [if_neg (not_not_intro hs.noop)]
    exact hs.noop
  exact ⟨⟨hmode, hs.start, hs.cache, hs.noRate, hs.noReplay, hs.monotonic, hs.file⟩,
    ⟨rfl, le_rfl, rfl, fun _ => rfl⟩⟩

theorem quiet_parseAbsolute : Quiet E d s₀ (parseAbsolute B text) :=
  (quiet_store (seals_mode _)).bind fun _ => (quiet_parseDate _ _).bind fun _ =>
    quiet_store (seals_of_eq fun _ => by rfl)

theorem quiet_parseOffset : Quiet E d s₀ (parseOffset text) := by
  refine (quiet_store (seals_mode _)).bind fun _ => ?_
  split
  · exact quiet_exit
  · split
    · exact quiet_exit
    · split
      · exact quiet_exit
      · exact (quiet_store (seals_of_eq fun _ => by rfl)).bind fun _ =>
            quiet_store (seals_of_eq fun _ => by rfl)

/-- **A tame setting leaves an excluded process excluded.** -/
theorem quiet_parseFtString (h : Tame E text) : Quiet E d s₀ (parseFtString B text) := by
  refine quiet_load fun s _ _ => ?_
  split
  · exact quiet_pure _
  · refine Quiet.bind ?_ fun _ => quiet_store (seals_of_eq fun _ => by rfl)
    unfold parseByPrefix
    split
    · exact quiet_parseOffset.bind fun _ => quiet_parseModifiers h
    · exact quiet_parseOffset.bind fun _ => quiet_parseModifiers h
    next hhead => exact absurd hhead h.keeps.1
    next hhead => exact absurd hhead h.keeps.2
    · exact quiet_parseModifiers h
    · exact quiet_parseModifiers h
    · exact quiet_parseAbsolute.bind fun _ => quiet_parseModifiers h

theorem quiet_readConfigFile (hE : ∀ text, MayApply E text → Tame E text)
    (henv : E.admits (.getenv .faketime) none) : Quiet E d s₀ (readConfigFile B) := by
  intro v
  refine (wp_findConfig readsFiles_ask trivial).bind ?_
  rintro r v₁ ⟨-, htext⟩
  cases r with
  | error result => exact trivial
  | ok contents =>
    have htame := hE _ (Or.inr ⟨henv, contents, htext contents rfl, rfl⟩)
    exact (quiet_parseFtString htame).bind (fun _ => quiet_pure _) v₁

theorem quiet_getFakeMonotonicSetting : Quiet E d s₀ getFakeMonotonicSetting := by
  have hlast : ∀ r : Option CStr, (MonotonicOff E → ∀ v, r = some v → v = ['1']) →
      Quiet E d s₀ (assignFakeMonotonic r) := by
    intro r hr
    cases r with
    | none => exact quiet_pure _
    | some v =>
      refine quiet_store fun s hs => ⟨⟨hs.noop, hs.start, hs.cache, hs.noRate, hs.noReplay,
        fun hoff => ?_, hs.file⟩, ⟨rfl, le_rfl, rfl, fun _ => rfl⟩⟩
      rw [hr hoff v rfl]
      rfl
  refine quiet_getenv fun r₁ h₁ => ?_
  cases r₁ with
  | none =>
    refine quiet_getenv fun r₂ h₂ => hlast r₂ fun hoff v hv => ?_
    have hsome := ((hoff none h₁).resolve_left (by simp)).2 r₂ h₂
    exact Option.some.inj (hv.symm.trans hsome)
  | some v =>
    refine hlast (some v) fun hoff v' hv => ?_
    have hsome := (hoff (some v) h₁).resolve_right (by simp)
    exact Option.some.inj (hv.symm.trans hsome)

theorem seals_expireCache (now : ℤ) : Seals E (Proc.expireCache now) := by
  refine seals_of_eq fun s => ?_
  obtain ⟨expired, force, hs⟩ := Proc.exists_expireCache now s
  rw [hs]
  rfl

theorem quiet_refreshConfig (hE : ∀ text, MayApply E text → Tame E text) :
    Quiet E d s₀ (refreshConfig B) := by
  have hmono := @quiet_getFakeMonotonicSetting E d s₀
  refine quiet_call (fun _ => trivial) fun now => (quiet_store (seals_expireCache _)).bind fun _ =>
    quiet_load fun s _ _ => ?_
  split
  · refine quiet_getenv fun env henv => (quiet_store (seals_of_eq fun _ => by rfl)).bind fun _ =>
      quiet_load fun s₁ hs₁ _ => ?_
    have hdefault : Tame E (defaultSetting env) := by
      cases env with
      | none => exact tame_default
      | some text => exact (hE text (Or.inl henv)).take _
    split
    next hfile =>
      refine (quiet_readConfigFile hE (hs₁.file hfile)).bind fun r => ?_
      split
      · exact (quiet_parseFtString hdefault).bind fun _ => hmono
      · exact hmono
    next => exact (quiet_parseFtString hdefault).bind fun _ => hmono
  · exact quiet_pure _

end Quiet

/-! ### A query of an excluded process -/

section Query

variable {E : Surroundings} {d : Bool} {s₀ : Proc} {B : Build} {clkId : ClockId} {tp : Timespec}
  {v : Ask}

/-- `CLOCK_REALTIME` can be read, and shows a normalized time. -/
def RealtimeWorks (E : Surroundings) : Prop :=
  ∀ r : Option Timespec, E.admits (.realClockGettime .realtime) r → ∃ t, r = some t ∧ t.Normal

/-- **The limits shut a query out**, however many calls are counted in the meantime. -/
def Proc.ShutsOut (s : Proc) (clkId : ClockId) (tp : Timespec) : Prop :=
  s.limitedFaking = true ∧ ∀ n, s.callcounter ≤ n →
    ({ s with callcounter := n } : Proc).outsideLimits
      (timespecsub tp (s.ftplStarttime.of clkId)).tvSec = true

theorem Later.shutsOut {s : Proc} (h : Later E s₀ s) (hn : NoReplay E)
    (hs : s₀.ShutsOut clkId tp) : s.ShutsOut clkId tp := by
  have hl := h.limits
  simp only [Proc.limits, Prod.mk.injEq] at hl
  obtain ⟨h₁, h₂, h₃, h₄, h₅⟩ := hl
  refine ⟨h₁.trans hs.1, fun n hle => ?_⟩
  have hout := hs.2 n (h.counter.trans hle)
  rw [Proc.outsideLimits] at hout ⊢
  rw [h.start hn, h₂, h₃, h₄, h₅]
  exact hout

theorem quiet_countCall : Quiet E d s₀ countCall := by
  refine quiet_load fun s _ _ => ?_
  split
  · refine quiet_store fun s hs => ⟨⟨hs.noop, hs.start, hs.cache, hs.noRate, hs.noReplay,
      hs.monotonic, hs.file⟩, ⟨rfl, ?_, rfl, fun _ => rfl⟩⟩
    dsimp only
    split <;> omega
  · exact quiet_pure _

theorem ask_limitsAndSpawn : AskWp E d s₀
    (fun r _ => NoReplay E → s₀.ShutsOut clkId tp → r = true) (limitsAndSpawn clkId tp) v := by
  refine (quiet_countCall v).bind fun _ v₁ _ => ask_load fun s _ hl => ?_
  split
  next =>
    dsimp only
    split
    next => exact fun _ _ => rfl
    next hin =>
      have hcon : NoReplay E → s₀.ShutsOut clkId tp → False := by
        intro hn hs
        obtain ⟨hlim, hout⟩ := hl.shutsOut hn hs
        exact hin (by rw [hlim, hout _ le_rfl]; rfl)
      split
      · refine (ask_store (seals_of_eq fun _ => by rfl)).bind fun _ v₂ _ =>
          ask_call trivial fun _ v₃ => ?_
        exact fun hn hs => (hcon hn hs).elim
      · exact fun hn hs => (hcon hn hs).elim
  next hoff =>
    intro hn hs
    obtain ⟨hlim, -⟩ := hl.shutsOut hn hs
    exact absurd (by rw [hlim]; rfl) hoff

/-! #### The end of a replay -/

theorem quiet_readClock {c : ClockId} {set : Timespec → SystemTime → SystemTime}
    (hreplay : ¬NoReplay E) (hset : ∀ (r : Option Timespec) t s,
      E.admits (.realClockGettime c) r → r = some t → 0 ≤ s.real.tvNsec →
        0 ≤ (set t s).real.tvNsec) : Quiet E d s₀ (readClock c set) := by
  intro v
  refine ⟨trivial, ?_⟩
  rintro r v₁ ⟨hr, rfl⟩
  cases r with
  | none => exact trivial
  | some t =>
    refine quiet_store (fun s hs => ?_) _
    exact ⟨⟨hs.noop, hset _ t _ hr rfl hs.start, hs.cache, hs.noRate, hs.noReplay, hs.monotonic,
      hs.file⟩, ⟨rfl, le_rfl, rfl, fun hn => absurd hn hreplay⟩⟩

theorem quiet_systemTimeFromSystem (hclock : RealtimeWorks E) (hreplay : ¬NoReplay E) :
    Quiet E d s₀ systemTimeFromSystem := by
  have hkeep : ∀ (c : ClockId) (set : Timespec → SystemTime → SystemTime),
      (∀ t s, (set t s).real = s.real) → Quiet E d s₀ (readClock c set) := by
    intro c set hset
    refine quiet_readClock hreplay fun r t s _ _ h => ?_
    rw [hset]
    exact h
  refine Quiet.bind ?_ fun _ => Quiet.bind ?_ fun _ => Quiet.bind ?_ fun _ => ?_
  · refine quiet_readClock hreplay fun r t s hr ht _ => ?_
    obtain ⟨t', rfl, hn⟩ := hclock r hr
    cases ht
    exact hn.1
  · exact hkeep _ _ fun _ _ => rfl
  · exact hkeep _ _ fun _ _ => rfl
  · exact hkeep _ _ fun _ _ => rfl

theorem quiet_writeShared {f : FtShared → FtShared} (h : ∀ v, Sealing E v (.writeShared f)) :
    Quiet E d s₀ (writeShared f) := fun v => ⟨h v, fun _ _ _ => trivial⟩

theorem quiet_publishStarttime : Quiet E d s₀ publishStarttime := by
  refine quiet_load fun s hs _ => ?_
  have hkeep : ∀ f : FtShared → FtShared,
      (∀ b, (f b).startTimeReal.tvNsec = b.startTimeReal.tvNsec) →
        Quiet E d s₀ (writeShared f) := by
    refine fun f hf => quiet_writeShared fun v b => ?_
    rw [FtShared.StartValid, FtShared.StartValid, FtShared.HasStart, FtShared.HasStart, hf]
    exact ⟨id, id⟩
  have hreal : Quiet E d s₀
      (writeShared fun b => { b with startTimeReal.tvNsec := s.ftplStarttime.real.tvNsec }) :=
    quiet_writeShared fun v b => ⟨fun _ => hs.start, fun _ => Or.inr hs.start⟩
  exact (hkeep _ fun _ => rfl).bind fun _ => hreal.bind fun _ =>
    (hkeep _ fun _ => rfl).bind fun _ =>
    (hkeep _ fun _ => rfl).bind fun _ => (hkeep _ fun _ => rfl).bind fun _ =>
      (hkeep _ fun _ => rfl).bind fun _ => (hkeep _ fun _ => rfl).bind fun _ =>
        hkeep _ fun _ => rfl

theorem quiet_leaveReplay (hclock : RealtimeWorks E) (hreplay : ¬NoReplay E)
    (hshared : s₀.sharedSemInitialized = true) : Quiet E d s₀ leaveReplay := by
  refine (quiet_store (seals_of_eq fun _ => by rfl)).bind fun _ => Quiet.bind ?_ fun _ =>
    quiet_call (fun _ => trivial) fun _ => quiet_store fun s hs => ?_
  · refine quiet_call (fun _ => trivial) fun b => ?_
    split
    · refine (quiet_writeShared fun v b => ⟨id, id⟩).bind fun _ => ?_
      exact (quiet_systemTimeFromSystem hclock hreplay).bind fun _ => quiet_publishStarttime
    · intro v
      refine ⟨trivial, ?_⟩
      rintro b v₁ ⟨hb, rfl⟩
      refine quiet_store (fun s hs => ?_) _
      exact ⟨⟨hs.noop, hb hshared, hs.cache, hs.noRate, hs.noReplay, hs.monotonic, hs.file⟩,
        ⟨rfl, le_rfl, rfl, fun hn => absurd hn hreplay⟩⟩
  · exact ⟨⟨hs.noop, hs.start, hs.cache, hs.noRate, fun _ => rfl, hs.monotonic, hs.file⟩,
      ⟨rfl, le_rfl, rfl, fun _ => rfl⟩⟩

theorem quiet_loadTime (hclock : RealtimeWorks E) (retries : ℕ) :
    Quiet E d s₀ (loadTime retries tp) := by
  have hunlock : ∀ r : Bool × Timespec, Quiet E d s₀ (ftSemUnlock >>= fun b =>
      if b = true then pure r
      else (exit 1 "libfaketime: In load_time(), ft_sem_unlock failed" >>= fun _ : Unit =>
        pure r)) := by
    refine fun r => quiet_call (fun _ => trivial) fun b => ?_
    split
    · exact quiet_pure _
    · exact quiet_exit.bind fun _ => quiet_pure _
  induction retries with
  | zero => exact fun _ => ask_stalled
  | succ retries ih =>
    refine quiet_load fun s hs hl => ?_
    dsimp only
    split
    next hin =>
      rw [Bool.and_eq_true] at hin
      have hreplay : ¬NoReplay E := fun hn => absurd ((hs.noReplay hn).symm.trans hin.2) (by simp)
      refine quiet_call (fun _ => trivial) fun r => ?_
      cases r with
      | interrupted => exact ih
      | failed => exact quiet_exit
      | acquired =>
        refine quiet_call (fun _ => trivial) fun b => ?_
        split
        · exact (quiet_leaveReplay hclock hreplay (hl.shared.symm.trans hin.1)).bind fun _ =>
            hunlock _
        · refine quiet_load fun s₁ _ _ => ?_
          exact (quiet_writeShared fun v b => ⟨id, id⟩).bind fun _ => hunlock _
    next => exact quiet_pure _

/-! #### The query -/

/-- The mode refuses the query. -/
theorem ask_fakeByMode :
    AskWp E d s₀ (fun o _ => o = .abort (-1) tp) (fakeByMode B clkId tp) v := by
  refine ask_load fun s hs _ => ?_
  rw [hs.noop]
  exact rfl

/-- What the locked part of a query can end with: nothing is faked, and without a file to
replay the time comes back as it was given. -/
def Refused (E : Surroundings) (s₀ : Proc) (clkId : ClockId) (tp : Timespec) (o : Outcome) : Prop :=
  ∃ code tp', o = .abort code tp' ∧
    (NoReplay E → tp' = tp ∧ (s₀.ShutsOut clkId tp → code = 0))

theorem ask_fakeLocked (hE : ∀ text, MayApply E text → Tame E text) (hclock : RealtimeWorks E) :
    AskWp E d s₀ (fun o _ => Refused E s₀ clkId tp o) (fakeLocked B clkId tp) v := by
  refine ask_limitsAndSpawn.bind fun b v₁ hb => ?_
  split
  next => exact ⟨0, tp, rfl, fun _ => ⟨rfl, fun _ => rfl⟩⟩
  next hfalse =>
    -- the limits have not shut the query out
    have hmode : ∀ v,
        AskWp E d s₀ (fun o _ => Refused E s₀ clkId tp o) (fakeByMode B clkId tp) v := by
      refine fun v => ask_fakeByMode.mono ?_
      rintro o - rfl
      exact ⟨-1, tp, rfl, fun hn => ⟨rfl, fun hs => absurd (hb hn hs) hfalse⟩⟩
    refine (quiet_refreshConfig hE v₁).bind fun _ v₂ _ => ask_load fun s hs _ => ?_
    split
    next hin =>
      have hreplay : ¬NoReplay E := fun hn => absurd ((hs.noReplay hn).symm.trans hin) (by simp)
      refine (quiet_loadTime hclock _ v₂).bind fun r v₃ _ => ?_
      dsimp only
      split
      · exact ⟨0, _, rfl, fun hn => absurd hn hreplay⟩
      · refine ask_fakeByMode.mono ?_
        rintro o - rfl
        exact ⟨-1, _, rfl, fun hn => absurd hn hreplay⟩
    next => exact hmode v₂

/-- **What `fake_clock_gettime` returns in an excluded process.** -/
theorem ask_fakeClockGettime (hE : ∀ text, MayApply E text → Tame E text)
    (hclock : RealtimeWorks E) : AskWp E d s₀ (fun r _ => (d = true → r = (0, tp)) ∧
      (clkId.IsCpu = true → NoRate E → r = (0, tp)) ∧
      (clkId.IsCpu = false → NoReplay E → r.2 = tp ∧ (s₀.ShutsOut clkId tp → r = (0, tp))))
      (fakeClockGettime B clkId tp) v := by
  refine ask_dontFake ?_
  split
  next => exact ⟨fun _ => rfl, fun _ _ => rfl, fun _ _ => ⟨rfl, fun _ => rfl⟩⟩
  next hd =>
    split
    next hcpu =>
      refine ask_load fun s hs _ => ⟨fun h => absurd h hd, fun _ hr => ?_, fun h => ?_⟩
      · rw [hs.noRate hr, if_neg (by simp)]
      · exact absurd (hcpu.symm.trans h) (by simp)
    next hcpu =>
      have hend : ∀ out v, Refused E s₀ clkId tp out → AskWp E d s₀ (fun r _ =>
          (d = true → r = (0, tp)) ∧ (clkId.IsCpu = true → NoRate E → r = (0, tp)) ∧
          (clkId.IsCpu = false → NoReplay E → r.2 = tp ∧ (s₀.ShutsOut clkId tp → r = (0, tp))))
          (finishQuery B clkId tp out) v := by
        rintro out v ⟨code, tp', rfl, hout⟩
        refine ⟨fun h => absurd h hd, fun h => absurd h hcpu, fun _ hn => ?_⟩
        obtain ⟨rfl, hcode⟩ := hout hn
        exact ⟨rfl, fun hs => by rw [hcode hs]⟩
      cases B.pthreadSinglethreadedTime with
      | true =>
        refine ask_call trivial fun _ v₂ => (ask_fakeLocked hE hclock).bind fun out v₃ hout => ?_
        exact ask_call trivial fun _ v₄ => hend out v₄ hout
      | false => exact (ask_fakeLocked hE hclock).bind fun out v₃ hout => hend out v₃ hout

end Query

/-! ### The functions in an excluded process -/

section Functions

variable {E : Surroundings} {d : Bool} {s₀ : Proc} {B : Build} {v : Ask}

/-- **The reply is that of the real function**: the call has succeeded if the real one
has, with the time that was read from the clock of the request. -/
def Reply.IsReal (heard : Option Reading) : Reply → Prop
  | .gettime clkId code tp => heard = some (.clock clkId tp) ∧ code = if tp.isSome then 0 else -1
  | .timeofday code tv => heard = some (.timeofday tv) ∧ code = if tv.isSome then 0 else -1
  | .seconds sec => ∃ r : Option Timespec, heard = some (.clock .realtime r) ∧
      sec = (r.map Timespec.tvSec).getD (-1)
  | _ => True

/-- The reading `fake_gettimeofday` passes on for a real time of day. -/
def Proc.ofTimeofday (s : Proc) (tv : Timeval) : Timespec :=
  ⟨tv.tvSec, tv.tvUsec * 1000 + s.ftplStarttime.real.tvNsec.tmod 1000⟩

/-- **The calls that see the real time** in an excluded process with the variables `s`:
those of the thread that has initialized it, those about a clock that is not faked in any
thread, `time`, which ignores a refusal, and those the limits shut out. Functions that do
not report the time may be called as well. -/
def Spared (E : Surroundings) (byFirst : Prop) (s : Proc) : Entry → Prop
  | .clockGettime clkId => byFirst ∨ (clkId.IsCpu = true ∧ NoRate E) ∨
      (clkId.IsMonotonic = true ∧ MonotonicOff E) ∨
      (clkId.IsCpu = false ∧ NoReplay E ∧
        ∀ tp, E.admits (.realClockGettime clkId) (some tp) → s.ShutsOut clkId tp)
  | .gettimeofday => byFirst ∨ (NoReplay E ∧
      ∀ tv, E.admits .realGettimeofday (some tv) → s.ShutsOut .realtime (s.ofTimeofday tv))
  | .time => byFirst ∨ NoReplay E
  | .fakeClockGettime _ _ => False
  | _ => True

theorem Spared.mono {c c' : Prop} {s : Proc} {e : Entry} (h : Spared E c s e) (hc : c → c') :
    Spared E c' s e := by
  cases e with
  | clockGettime clkId => exact h.imp_left hc
  | gettimeofday => exact h.imp_left hc
  | time => exact h.imp_left hc
  | _ => exact h

theorem ask_clockGettime {clkId : ClockId} (hE : ∀ text, MayApply E text → Tame E text)
    (hclock : RealtimeWorks E) (hs : Spared E (d = true) s₀ (.clockGettime clkId))
    (hv : v.heard = none) : AskWp E d s₀ (fun r v' => v'.heard = some (.clock clkId r.2) ∧
      r.1 = if r.2.isSome then 0 else -1) (clockGettime B clkId) v := by
  refine ⟨trivial, ?_⟩
  rintro r v₁ ⟨hr, rfl⟩
  have hheard : (v.hear (.clock clkId r)).heard = some (.clock clkId r) := by
    rw [Ask.hear, hv, Option.none_or]
  cases r with
  | none => exact ⟨hheard, rfl⟩
  | some tp =>
    refine ask_load fun s hsealed _ => ?_
    split
    next hfake =>
      refine (ask_fakeClockGettime hE hclock).heard.bind fun r v₂ h₂ => ?_
      obtain ⟨⟨hfirst, hcpu, hshut⟩, hkeep⟩ := h₂
      have hr0 : r = (0, tp) := by
        rcases hs with hd | ⟨hc, hrate⟩ | ⟨hm, hoff⟩ | ⟨hc, hn, hout⟩
        · exact hfirst hd
        · exact hcpu hc hrate
        · rw [hsealed.monotonic hoff, hm] at hfake
          exact absurd hfake (by simp)
        · exact (hshut hc hn).2 (hout tp hr)
      rw [hr0]
      exact ⟨hkeep _ hheard, rfl⟩
    next => exact ⟨hheard, rfl⟩

theorem ask_gettimeofday (hE : ∀ text, MayApply E text → Tame E text) (hclock : RealtimeWorks E)
    (htod : ∀ tv, E.admits .realGettimeofday (some tv) → 0 ≤ tv.tvUsec)
    (hs : Spared E (d = true) s₀ .gettimeofday) (hv : v.heard = none) :
    AskWp E d s₀ (fun r v' => v'.heard = some (.timeofday r.2) ∧
      r.1 = if r.2.isSome then 0 else -1) (gettimeofday B) v := by
  refine ⟨trivial, ?_⟩
  rintro r v₁ ⟨hr, rfl⟩
  have hheard : (v.hear (.timeofday r)).heard = some (.timeofday r) := by
    rw [Ask.hear, hv, Option.none_or]
  cases r with
  | none => exact ⟨hheard, rfl⟩
  | some tv =>
    have husec := htod tv hr
    refine Wp.bind (Q := fun r v' => r = (0, tv) ∧
      ∀ x, (v.hear (.timeofday (some tv))).heard = some x → v'.heard = some x) ?_ ?_
    · refine ask_load fun s hsealed hl => ?_
      refine (ask_fakeClockGettime hE hclock).heard.bind fun r v₂ h₂ => ?_
      obtain ⟨⟨hfirst, -, hshut⟩, hkeep⟩ := h₂
      have hr0 : r = (0, s.ofTimeofday tv) := by
        rcases hs with hd | ⟨hn, hout⟩
        · exact hfirst hd
        · refine (hshut rfl hn).2 ?_
          have hsame : s.ofTimeofday tv = s₀.ofTimeofday tv := by
            rw [Proc.ofTimeofday, Proc.ofTimeofday, hl.start hn]
          change s₀.ShutsOut .realtime (s.ofTimeofday tv)
          rw [hsame]
          exact hout tv hr
      refine ⟨?_, hkeep⟩
      -- the fraction of a microsecond that was added is lost again
      have hk0 : 0 ≤ s.ftplStarttime.real.tvNsec.tmod 1000 := Int.tmod_nonneg _ hsealed.start
      have hk1 : s.ftplStarttime.real.tvNsec.tmod 1000 < 1000 := Int.tmod_lt_of_pos _ (by decide)
      have hdiv : (tv.tvUsec * 1000 + s.ftplStarttime.real.tvNsec.tmod 1000).tdiv 1000 =
          tv.tvUsec := by
        rw [Int.tdiv_eq_ediv_of_nonneg (by omega)]
        omega
      rw [hr0]
      change ((0 : ℤ), (⟨tv.tvSec, _⟩ : Timeval)) = (0, tv)
      rw [Proc.ofTimeofday, hdiv]
    · rintro r v₂ ⟨rfl, hkeep⟩
      exact ⟨hkeep _ hheard, rfl⟩

theorem ask_time (hE : ∀ text, MayApply E text → Tame E text) (hclock : RealtimeWorks E)
    (hs : Spared E (d = true) s₀ .time) (hv : v.heard = none) :
    AskWp E d s₀ (fun sec v' => ∃ r : Option Timespec, v'.heard = some (.clock .realtime r) ∧
      sec = (r.map Timespec.tvSec).getD (-1)) (time B) v := by
  refine ⟨trivial, ?_⟩
  rintro r v₁ ⟨hr, rfl⟩
  have hheard : (v.hear (.clock .realtime r)).heard = some (.clock .realtime r) := by
    rw [Ask.hear, hv, Option.none_or]
  cases r with
  | none => exact ⟨none, hheard, rfl⟩
  | some tp =>
    refine (ask_fakeClockGettime hE hclock).heard.bind fun r v₂ h₂ => ?_
    obtain ⟨⟨hfirst, -, hshut⟩, hkeep⟩ := h₂
    have hr2 : r.2 = tp := by
      rcases hs with hd | hn
      · rw [hfirst hd]
      · exact (hshut rfl hn).1
    exact ⟨some tp, hkeep _ hheard, congrArg Timespec.tvSec hr2⟩

theorem quiet_lockForStat (retries : ℕ) : Quiet E d s₀ (lockForStat retries) := by
  have hoff : Quiet E d s₀ (store (fun s => { s with
      userPerTickIncSetBackup := s.userPerTickIncSet }) >>= fun _ =>
        store fun s => { s with userPerTickIncSet := false }) :=
    (quiet_store (seals_of_eq fun _ => by rfl)).bind fun _ =>
            quiet_store (seals_of_eq fun _ => by rfl)
  induction retries with
  | zero => exact fun _ => ask_stalled
  | succ retries ih =>
    refine quiet_load fun s _ _ => ?_
    split
    · refine quiet_call (fun _ => trivial) fun r => ?_
      cases r with
      | interrupted => exact ih
      | failed => exact quiet_exit
      | acquired => exact hoff
    · exact hoff

theorem quiet_unlockForStat : Quiet E d s₀ unlockForStat := by
  refine (quiet_store (seals_of_eq fun _ => by rfl)).bind fun _ => quiet_load fun s _ _ => ?_
  split
  · refine quiet_call (fun _ => trivial) fun b => ?_
    split
    · exact quiet_pure _
    · exact quiet_exit
  · exact quiet_pure _

theorem covers_quiet (hE : ∀ text, MayApply E text → Tame E text) (hclock : RealtimeWorks E) :
    Covers B fun p => Quiet E d s₀ p where
  ret := quiet_pure
  seq := Quiet.bind
  call o ho := fun v => ⟨by cases o <;> trivial, fun _ _ _ => trivial⟩
  query _ _ := fun _ => (ask_fakeClockGettime hE hclock).mono fun _ _ _ => trivial
  monotonic := quiet_getFakeMonotonicSetting
  normalize := quiet_store (seals_of_eq fun _ => by rfl)

/-- **A call that is spared gets the reply of the real function.** -/
theorem ask_entry {e : Entry} (hE : ∀ text, MayApply E text → Tame E text)
    (hclock : RealtimeWorks E)
    (htod : ∀ tv, E.admits .realGettimeofday (some tv) → 0 ≤ tv.tvUsec)
    (hs : Spared E (d = true) s₀ e) (hv : v.heard = none) :
    AskWp E d s₀ (fun a v' => a ≠ .initialized ∧ a.IsReal v'.heard) (e.prog B) v := by
  have hJ : Covers B fun p => Quiet E d s₀ p := covers_quiet hE hclock
  have hdone : ∀ {β : Type} {p : Sys β}, Quiet E d s₀ p →
      AskWp E d s₀ (fun a v' => a ≠ Reply.initialized ∧ a.IsReal v'.heard)
        (p >>= fun _ => pure .done) v := by
    intro β p hp
    exact (hp v).bind fun _ _ _ => ⟨Reply.noConfusion, trivial⟩
  have hstat := hJ.fakeStatbuf (quiet_lockForStat _) quiet_unlockForStat
  have hstatx := hJ.fakeStatxbuf (quiet_lockForStat _) quiet_unlockForStat
  cases e with
  | clockGettime clkId =>
    exact (ask_clockGettime hE hclock hs hv).bind fun r v' h => ⟨Reply.noConfusion, h⟩
  | gettimeofday =>
    exact (ask_gettimeofday hE hclock htod hs hv).bind fun r v' h => ⟨Reply.noConfusion, h⟩
  | time => exact (ask_time hE hclock hs hv).bind fun r v' h => ⟨Reply.noConfusion, h⟩
  | ftime =>
    have hftime : Quiet E d s₀ (ftime B) := by
      refine quiet_call (fun _ => trivial) fun b => ?_
      split
      · exact quiet_pure _
      · refine quiet_call (fun _ => trivial) fun r => ?_
        cases r with
        | none => exact quiet_pure _
        | some tp => exact (hJ.query _ _).bind fun _ => quiet_pure _
    exact (hftime v).bind fun _ _ _ => ⟨Reply.noConfusion, trivial⟩
  | fakeClockGettime clkId tp => exact hs.elim
  | stat buf => exact hdone (hJ.statHandlerCommon hstat _)
  | statx buf => exact hdone (hJ.statHandlerCommon hstatx _)
  | clockNanosleep clkId abstime req => exact hdone (hJ.clockNanosleep _ _ _)
  | timerSettime abstime new => exact hdone (hJ.timerSettimeCommon _ _ _)
  | timerfdSettime abstime clkId new => exact hdone (hJ.timerSettimeCommon _ _ _)
  | pthreadCondTimedwait clkId abstime => exact hdone (hJ.pthreadCondTimedwaitCommon _ _)

end Functions

end LibFaketime
