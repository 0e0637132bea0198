import LibFaketime.Blank
import LibFaketime.SyscallClock
import LibFaketime.Ticks
import LibFaketime.OldValue

/-!
# The last modifier

A text may carry a rate or a tick. The two are kept apart in the process, each with a flag, and no
text clears a flag. What the clock does after a sequence of texts is therefore not a matter of the
last one alone: it is set by the modifiers that have been looked at
(`LibFaketime.modifiersRead`), and among them a tick counts more than any rate
(`LibFaketime.clock_of_texts`).

So the modifier of the last text counts if no tick has come before a rate, and if it is looked at:
that of a followed file is not, once there has been an absolute time
(`LibFaketime.last_modifier_counts`).
-/

namespace LibFaketime

open Effects Effects.Prog Saturate

/-! ### Text after text -/

/-- **Refresh after refresh**: at each of the moments the text is found, and the refresh comes
back, so that the text has been accepted. -/
inductive Refreshed (B : Build) : List (Moment × CStr) → Proc → Proc → Prop
  | nil {p : Proc} : Refreshed B [] p p
  | cons {m : Moment} {s : CStr} {rest : List (Moment × CStr)} {p p' : Proc} {w : World}
      (due : m.Due) (used : m.sources.used p.parseConfigFile = some s)
      (run : (refreshConfig B).run seq (m.start p) = .ok ((), w))
      (next : Refreshed B rest w.proc p') : Refreshed B ((m, s) :: rest) p p'

/-- What the texts make of the record, one after the other. -/
def Record.afterAll (R : Record) (texts : List (Moment × CStr)) : Record :=
  texts.foldl (fun R x => R.apply x.1.sources.env x.2) R

/-- Shared memory is set up once and for all. -/
theorem Refreshed.shared {B : Build} {texts : List (Moment × CStr)} {p p' : Proc}
    (h : Refreshed B texts p p') : p'.sharedSemInitialized = p.sharedSemInitialized := by
  induction h with
  | nil => rfl
  | @cons m s rest p p' w due used run next ih =>
    have hfixed :=
      fixed_of_run (routine_of_refreshing (refreshing_refreshConfig (trivial : True))) _ _ run
    have hstart : (m.start p).proc.sharedSemInitialized = p.sharedSemInitialized :=
      Proc.field_eq (due.core_start p) Proc.sharedSemInitialized
    exact ih.trans ((congrArg (fun x => x.2.1) hfixed).trans hstart)

theorem Refreshed.record {B : Build} {texts : List (Moment × CStr)} {p p' : Proc}
    (h : Refreshed B texts p p') : p'.record = p.record.afterAll texts := by
  induction h with
  | nil => rfl
  | @cons m s rest p p' w due used run next ih =>
    have haccepts : p.record.Accepts B m.sources.env m.files s := by
      by_contra hno
      obtain ⟨msg, hmsg⟩ := halts_refresh (B := B) due used hno
      exact absurd (run.symm.trans hmsg) (by simp)
    have hrecord := (runs_iff_of_run run).mp (runs_refresh due used haccepts)
    rw [ih, hrecord]
    rfl

/-- The text sets an absolute time. -/
def SetsTime (env : EnvVar → Option CStr) (s : CStr) : Prop :=
  kindOf s = .absolute ∨ kindOf s = .follow ∧ env .faketimeFollowAbsolute ≠ none

instance (env : EnvVar → Option CStr) (s : CStr) : Decidable (SetsTime env s) :=
  inferInstanceAs (Decidable (_ ∨ _))

/-- The text selects `FT_START_AT`. -/
def SelectsStartAt (env : EnvVar → Option CStr) (s : CStr) : Prop :=
  kindOf s = .offset ∨ kindOf s = .startAt ∨
    kindOf s = .follow ∧ env .faketimeFollowAbsolute = none

/-- The modifier that a text carries. -/
def carried (s : CStr) : Modifier := (scanned s).getD .plain

/-- **The modifiers that are looked at**, in this order: `saved` is the text that was applied
last, which is not applied again, and `timeSet` says that an absolute time has been set. -/
def modifiersRead : CStr → Bool → List (Moment × CStr) → List Modifier
  | _, _, [] => []
  | saved, timeSet, x :: rest =>
    if unchangedSetting x.2 saved then modifiersRead saved timeSet rest
    else (if ModifiersRead x.1.sources.env timeSet x.2 then [carried x.2] else []) ++
      modifiersRead (x.2.take (bufferlen - 1))
        (timeSet || decide (SetsTime x.1.sources.env x.2)) rest

section Texts

variable {env : EnvVar → Option CStr} {s : CStr} {M : Marks} {R : Record}
  {texts : List (Moment × CStr)} {m : Moment}

/-- The flag of an absolute time, after a text. -/
theorem Marks.timeSet_after :
    (M.after env s).timeSet = (M.timeSet || decide (SetsTime env s)) := by
  have hnot : kindOf s ≠ .absolute → kindOf s ≠ .follow → ¬ SetsTime env s := by
    rintro ha hf (h | ⟨h, -⟩)
    · exact ha h
    · exact hf h
  unfold Marks.after
  split
  next hk => rw [decide_eq_true (show SetsTime env s from Or.inl hk), Bool.or_true]; rfl
  next hk => rw [decide_eq_false (hnot (by rw [hk]; nofun) (by rw [hk]; nofun)), Bool.or_false]; rfl
  next hk => rw [decide_eq_false (hnot (by rw [hk]; nofun) (by rw [hk]; nofun)), Bool.or_false]; rfl
  next hk =>
    have hset : (M.followed env).timeSet = (M.timeSet || decide (SetsTime env s)) := by
      unfold Marks.followed SetsTime
      by_cases habs : env .faketimeFollowAbsolute = none <;> simp [habs, hk]
    split <;> exact hset
  next hk => rw [decide_eq_false (hnot (by rw [hk]; nofun) (by rw [hk]; nofun)), Bool.or_false]; rfl

/-- The rate and the tick, after a text. -/
theorem Marks.pace_after : (M.after env s).pace =
    if ModifiersRead env M.timeSet s then (carried s).apply M.pace else M.pace := by
  by_cases hk : kindOf s = .follow
  · have hpace : (M.followed env).pace = M.pace := by
      unfold Marks.followed
      split <;> rfl
    unfold Marks.after
    rw [hk]
    dsimp only
    by_cases hset : (M.followed env).timeSet = true
    · rw [if_pos hset, if_neg, hpace]
      intro hread
      rw [Marks.timeSet_followed.mpr (hread hk)] at hset
      cases hset
    · rw [if_neg hset, if_pos, Marks.modified, hpace]
      · rfl
      · exact fun _ => Marks.timeSet_followed.mp (by simpa using hset)
  · rw [if_pos (show ModifiersRead env M.timeSet s from fun h => absurd h hk)]
    unfold Marks.after
    split
    case h_4 h => exact absurd h hk
    all_goals rfl

/-- **The rate and the tick come from the modifiers that are looked at.** -/
theorem Record.pace_afterAll : (R.afterAll texts).marks.pace =
    (modifiersRead R.saved R.marks.timeSet texts).foldl (fun p m => m.apply p) R.marks.pace := by
  induction texts generalizing R with
  | nil => rfl
  | cons x rest ih =>
    have hstep : R.afterAll (x :: rest) = (R.apply x.1.sources.env x.2).afterAll rest := rfl
    rw [hstep, ih, modifiersRead, Record.apply]
    split
    · rfl
    · dsimp only
      rw [List.foldl_append, Marks.timeSet_after, Marks.pace_after]
      split <;> rfl

/-- The mode is that of the text that was applied last, if that selects `FT_START_AT`. -/
structure Record.Lively (R : Record) : Prop where
  mode : R.marks.mode ≠ .noop
  last : kindOf R.saved = .offset ∨ kindOf R.saved = .startAt → R.marks.mode = .startAt

theorem kindOf_take {n : ℕ} (hn : 0 < n) : kindOf (s.take n) = kindOf s := by
  unfold kindOf
  rw [List.head?_take, if_neg hn.ne']

/-- A text that selects `FT_START_AT` does so. -/
theorem Marks.mode_after (h : SelectsStartAt env s) (hmode : M.mode ≠ .noop) :
    (M.after env s).mode = .startAt := by
  have hstarted : M.mode.started = .startAt := if_pos hmode
  unfold Marks.after
  rcases h with hk | hk | ⟨hk, habs⟩
  · rw [hk]
    exact hstarted
  · rw [hk]
    rfl
  · rw [hk, Marks.followed, if_pos habs]
    dsimp only
    split <;> rfl

theorem Record.Lively.apply (h : R.Lively) : (R.apply env s).Lively := by
  unfold Record.apply
  split
  · exact h
  · refine ⟨Marks.mode_after_ne h.mode, fun hk => ?_⟩
    rw [kindOf_take (by decide)] at hk
    exact Marks.mode_after (hk.imp_right Or.inl) h.mode

theorem Record.Lively.afterAll (h : R.Lively) : (R.afterAll texts).Lively := by
  induction texts generalizing R with
  | nil => exact h
  | cons x rest ih => exact ih h.apply

/-- **After a text that selects it the mode is `FT_START_AT`.** -/
theorem Record.Lively.mode_apply (h : R.Lively) (hs : SelectsStartAt env s) :
    (R.apply env s).marks.mode = .startAt := by
  unfold Record.apply
  split
  next hsame =>
    -- it has been applied already, and is no followed file
    rw [unchangedSetting, Bool.and_eq_true, beq_iff_eq, bne_iff_ne] at hsame
    have hkind : kindOf s = kindOf R.saved := by
      rw [← kindOf_take (s := s) (n := bufferlen) (by decide), hsame.1, kindOf_take (by decide)]
    have hfollow : kindOf s ≠ .follow := by
      intro hk
      unfold kindOf at hk
      split at hk
      case h_4 hhead => exact hsame.2 hhead
      all_goals cases hk
    refine h.last ?_
    rw [← hkind]
    rcases hs with hk | hk | ⟨hk, -⟩
    · exact Or.inl hk
    · exact Or.inr hk
    · exact absurd hk hfollow
  next => exact Marks.mode_after hs h.mode

end Texts

/-! ### The clock of a process -/

/-- **A query of the process `p`** that nothing stands in the way of: locks do not fail, there are
no limits and no replay, and the configuration is not changed by the query itself. -/
structure Asked (B : Build) (p : Proc) (w : World) : Prop where
  core : w.proc.core = p.core
  faking : w.dontFake = false
  calm : Calm w
  tries : 0 < B.retries
  noLimits : p.limitedFaking = false
  noReplay : p.infileSet = false
  mutexFree : w.mutexHeld = false
  semFree : w.semHeld = false
  kept : ∀ b w₁, Counted { w with mutexHeld := b } w₁ →
    ∃ w₂, (refreshConfig B).run seq w₁ = .ok ((), w₂) ∧ Like w₁ w₂ ∧ w₂.shm = w₁.shm

/-- The base, moved by the time since the start at the rate `r`. -/
def Proc.atRate (p : Proc) (r : ℚ) (c : ClockId) (t : Timespec) : Timespec :=
  timespecadd p.userFakedTimeTimespec (timespecmul (timespecsub t (p.ftplStarttime.of c)) r)

/-- Nothing saturates on the way to it. -/
def Proc.InRange (p : Proc) (r : ℚ) (c : ClockId) (t : Timespec) : Prop :=
  Fits (t.ns - (p.ftplStarttime.of c).ns) ∧
    Fits (trunc (((t.ns - (p.ftplStarttime.of c).ns : ℤ) : ℚ) * r)) ∧
      Fits (p.userFakedTimeTimespec.ns + trunc (((t.ns - (p.ftplStarttime.of c).ns : ℤ) : ℚ) * r))

/-- **The reported clock advances at the rate `r`** with real time: a query at the real time `t` is
answered by the base moved at that rate, so that the distance of two answers is that of the
real times at the rate `r`, up to the nanoseconds that each of them is cut by. -/
structure AdvancesAt (B : Build) (r : ℚ) (p : Proc) : Prop where
  answer : ∀ w, Asked B p w → ∀ c, c.IsCpu = false → ∀ t,
    (fakeClockGettime B c t).Runs seq w fun x w' =>
      x = (0, normalizeTimespecValue (p.atRate r c t)) ∧ Like w w'
  distance : p.TimesStored → ∀ c t t', t.Normal → t'.Normal → p.InRange r c t → p.InRange r c t' →
    |(((p.atRate r c t').ns - (p.atRate r c t).ns : ℤ) : ℚ) - ((t'.ns - t.ns : ℤ) : ℚ) * r| < 2

/-- **The reported clock advances by `d` per query**: a query is answered by the tick of the
counter, and moves the counter on; and the next tick is later by `d`. -/
structure AdvancesBy (B : Build) (d : Timespec) (p : Proc) : Prop where
  answer : ∀ w, Asked B p w → w.shm.ticks < 2 ^ 64 → ∀ c, c.IsCpu = false → ∀ t,
    (fakeClockGettime B c t).Runs seq w fun x w' =>
      x = (0, normalizeTimespecValue (tickTime p.userFakedTimeTimespec d w.shm.ticks)) ∧
        Like w w' ∧ w'.shm.ticks = (w.shm.ticks + 1) % 2 ^ 64
  distance : p.TimesStored → ∀ k : ℕ, k + 1 < 2 ^ 64 → Fits (k * d.ns) → Fits ((k + 1) * d.ns) →
    Fits (p.userFakedTimeTimespec.ns + k * d.ns) →
      Fits (p.userFakedTimeTimespec.ns + (k + 1) * d.ns) →
        (tickTime p.userFakedTimeTimespec d (k + 1)).ns -
          (tickTime p.userFakedTimeTimespec d k).ns = d.ns

section Query

variable {B : Build} {p : Proc} {w : World} {c : ClockId} {t : Timespec} {r : ℚ} {d : Timespec}

/-- What a query in `FT_START_AT` makes of a reading. -/
theorem runs_asked (ha : Asked B p w) (hc : c.IsCpu = false) :
    (fakeClockGettime B c t).Runs seq w fun x w' => x = (w.outcome c t).result ∧ Like w w' := by
  have hlim : w.proc.limitedFaking = false :=
    (Proc.field_eq ha.core Proc.limitedFaking).trans ha.noLimits
  have hin : w.proc.infileSet = false := (Proc.field_eq ha.core Proc.infileSet).trans ha.noReplay
  have hsaves : w.semHeld = true →
      (w.proc.sharedSemInitialized && w.proc.outfileOpen) = false := by
    rw [ha.semFree]
    exact nofun
  refine (runs_fakeClockGettime_of_locked (B := B) (V := (· = w)) (o := w.outcome c t) ha.faking
    (by rw [hc]; simp) ha.mutexFree ha.tries
    (by rintro _ rfl; exact ⟨ha.calm, ha.mutexFree, hsaves⟩)
    ((runs_fakeLocked_kept ha.calm ha.tries hlim hin ha.semFree (ha.kept _)).mono
      fun _ _ h => ⟨h.1, w, rfl, h.2.1⟩)).mono ?_
  rintro _ w' ⟨rfl, _, rfl, h⟩
  exact ⟨rfl, h⟩

/-- **A query of a process with ticks** moves the counter on. -/
theorem ends_asked (ha : Asked B p w) (hc : c.IsCpu = false) (hmode : p.ftMode = .startAt)
    (hset : p.userPerTickIncSet = true) (hshared : p.sharedSemInitialized = true) :
    (fakeClockGettime B c t).Ends seq w fun _ w' =>
      w'.shm.ticks = (w.shm.ticks + 1) % 2 ^ 64 := by
  refine ends_shm_of_locked (J := fun d => d.ticks = (w.shm.ticks + 1) % 2 ^ 64) ha.faking hc
    fun b => ?_
  have hlim : w.proc.limitedFaking = false :=
    (Proc.field_eq ha.core Proc.limitedFaking).trans ha.noLimits
  have hin : w.proc.infileSet = false := (Proc.field_eq ha.core Proc.infileSet).trans ha.noReplay
  refine (runs_fakeLocked_kept ha.calm ha.tries hlim hin ha.semFree (ha.kept b)).ends.mono ?_
  rintro o w' ⟨-, -, hshm⟩
  rw [hshm, World.ticked, if_pos]
  exact ⟨(Proc.field_eq ha.core Proc.ftMode).trans hmode,
    (Proc.field_eq ha.core Proc.userPerTickIncSet).trans hset,
    (Proc.field_eq ha.core Proc.sharedSemInitialized).trans hshared⟩

end Query

/-! ### The rate and the tick of a process -/

section Pace

variable {B : Build} {p : Proc} {r : ℚ} {d : Timespec}

theorem Proc.TimesStored.ns_atRate (h : p.TimesStored) {c : ClockId} {t : Timespec}
    (ht : t.Normal) (hr : p.InRange r c t) : (p.atRate r c t).ns = p.userFakedTimeTimespec.ns +
      trunc (((t.ns - (p.ftplStarttime.of c).ns : ℤ) : ℚ) * r) := by
  obtain ⟨hsub, hmul, hadd⟩ := hr
  rw [Proc.atRate, ns_timespecadd h.base (normal_timespecmul _ _).stored, ns_timespecmul,
    ns_timespecsub ht.stored (h.start c), hsub.satNs, hmul.satNs, hadd.satNs]

/-- The nanoseconds that are cut off are less than one at each end. -/
theorem Proc.TimesStored.abs_atRate_sub_lt (h : p.TimesStored) {c : ClockId} {t t' : Timespec}
    (ht : t.Normal) (ht' : t'.Normal) (hr : p.InRange r c t) (hr' : p.InRange r c t') :
    |(((p.atRate r c t').ns - (p.atRate r c t).ns : ℤ) : ℚ) - ((t'.ns - t.ns : ℤ) : ℚ) * r| <
      2 := by
  rw [h.ns_atRate ht hr, h.ns_atRate ht' hr']
  generalize (p.ftplStarttime.of c).ns = start
  have hcut := abs_lt.mp (abs_trunc_sub_lt_one (((t.ns - start : ℤ) : ℚ) * r))
  have hcut' := abs_lt.mp (abs_trunc_sub_lt_one (((t'.ns - start : ℤ) : ℚ) * r))
  obtain ⟨hlo, hhi⟩ := hcut
  obtain ⟨hlo', hhi'⟩ := hcut'
  rw [abs_lt]
  push_cast at hlo hhi hlo' hhi' ⊢
  constructor <;> linarith

/-- **Without a tick the clock advances at the rate** of the user. -/
theorem advancesAt_of_rate (hmode : p.ftMode = .startAt) (htick : p.userPerTickIncSet = false)
    (hset : p.userRateSet = true) (hrate : p.userRate = r) : AdvancesAt B r p where
  answer w ha c hc t := by
    refine (runs_asked ha hc).mono ?_
    rintro _ w' ⟨rfl, h⟩
    refine ⟨?_, h⟩
    have hout : w.outcome c t = .faked (p.atRate r c t) := by
      unfold World.outcome Proc.startAt Proc.atRate
      rw [Proc.field_eq ha.core Proc.ftMode, hmode]
      dsimp only
      rw [Proc.field_eq ha.core Proc.userPerTickIncSet, htick, if_neg (by simp),
        Proc.field_eq ha.core Proc.userRateSet, hset, if_pos rfl,
        Proc.field_eq ha.core Proc.userRate, hrate,
        Proc.field_eq ha.core Proc.userFakedTimeTimespec, Proc.field_eq ha.core Proc.ftplStarttime]
    rw [hout]
    rfl
  distance h c t t' ht ht' hr hr' := h.abs_atRate_sub_lt ht ht' hr hr'

/-- **With a tick it advances by the tick**, whatever the rate is. -/
theorem advancesBy_of_tick (hmode : p.ftMode = .startAt) (hset : p.userPerTickIncSet = true)
    (htick : p.userPerTickInc = d) (hshared : p.sharedSemInitialized = true) :
    AdvancesBy B d p where
  answer w ha hlt c hc t := by
    refine ((runs_asked ha hc).and_ends (ends_asked ha hc hmode hset hshared)).mono ?_
    rintro _ w' ⟨⟨rfl, h⟩, hticks⟩
    refine ⟨?_, h, hticks⟩
    have hout : w.outcome c t = .faked (tickTime p.userFakedTimeTimespec d w.shm.ticks) := by
      unfold World.outcome tickTime
      rw [Proc.field_eq ha.core Proc.ftMode, hmode]
      dsimp only
      rw [Proc.field_eq ha.core Proc.userPerTickIncSet, hset, if_pos rfl,
        Proc.field_eq ha.core Proc.sharedSemInitialized, hshared, if_pos rfl,
        Proc.field_eq ha.core Proc.userPerTickInc, htick,
        Proc.field_eq ha.core Proc.userFakedTimeTimespec, Nat.mod_eq_of_lt hlt]
    rw [hout]
    rfl
  distance h k hk hfit hfit' hsum hsum' := by
    have hnext : (((k + 1 : ℕ) : ℤ)) * d.ns = (k + 1) * d.ns := by push_cast; ring
    rw [ns_tickTime h.base hk, ns_tickTime h.base (by omega), hnext, hfit.satNs, hfit'.satNs,
      hsum.satNs, hsum'.satNs]
    ring

end Pace

/-! ### The modifier that counts -/

/-- The rate of a modifier. -/
def Modifier.asRate : Modifier → Option ℚ
  | .rate r => some r
  | _ => none

/-- The tick of a modifier. -/
def Modifier.asTick : Modifier → Option ℚ
  | .tick q => some q
  | _ => none

/-- **The rate `r` counts**: it is the last rate, and there is no tick. -/
def RateCounts (r : ℚ) (mods : List Modifier) : Prop :=
  mods.filterMap Modifier.asTick = [] ∧ (mods.filterMap Modifier.asRate).getLast? = some r

/-- **The tick `q` counts**: it is the last tick. -/
def TickCounts (q : ℚ) (mods : List Modifier) : Prop :=
  (mods.filterMap Modifier.asTick).getLast? = some q

/-- No text has been applied. -/
structure Record.Fresh (R : Record) : Prop where
  marks : R.marks = Proc.initial.marks
  saved : R.saved = []

section Counts

variable {B : Build} {p₀ p : Proc} {texts : List (Moment × CStr)} {m : Moment} {s : CStr}

/-- Modifiers, one after the other: the last rate and the last tick. -/
theorem foldl_modifiers (mods : List Modifier) (P : (ℚ × Bool) × Timespec × Bool) :
    mods.foldl (fun p m => m.apply p) P =
      (((mods.filterMap Modifier.asRate).getLast?.map fun r => (r, true)).getD P.1,
        ((mods.filterMap Modifier.asTick).getLast?.map fun q =>
          (floorTimespec q, true)).getD P.2) := by
  induction mods generalizing P with
  | nil => rfl
  | cons m rest ih =>
    rw [List.foldl_cons, ih]
    cases m with
    | plain => rfl
    | rate r =>
      rw [List.filterMap_cons_some (f := Modifier.asRate) (b := r) rfl,
        List.filterMap_cons_none (f := Modifier.asTick) rfl, List.getLast?_cons]
      cases (rest.filterMap Modifier.asRate).getLast? <;> rfl
    | tick q =>
      rw [List.filterMap_cons_none (f := Modifier.asRate) rfl,
        List.filterMap_cons_some (f := Modifier.asTick) (b := q) rfl, List.getLast?_cons]
      cases (rest.filterMap Modifier.asTick).getLast? <;> rfl

/-- **The clock after any texts** is set by the modifiers that have been looked at. -/
theorem clock_of_texts (h₀ : p₀.record.Fresh) (h : Refreshed B texts p₀ p)
    (hmode : p.ftMode = .startAt) :
    (∀ r, RateCounts r (modifiersRead [] false texts) → AdvancesAt B r p) ∧
      ∀ q, p₀.sharedSemInitialized = true → TickCounts q (modifiersRead [] false texts) →
        AdvancesBy B (floorTimespec q) p := by
  have hpace : p.pace = (modifiersRead [] false texts).foldl (fun p m => m.apply p)
      Proc.initial.pace := by
    rw [show p.pace = p.record.marks.pace from rfl, h.record, Record.pace_afterAll, h₀.saved,
      h₀.marks]
    rfl
  rw [foldl_modifiers] at hpace
  refine ⟨fun r hr => ?_, fun q hshared hq => ?_⟩
  · obtain ⟨htick, hrate⟩ := hr
    rw [htick, hrate] at hpace
    exact advancesAt_of_rate hmode (congrArg (fun P => P.2.2) hpace)
      (congrArg (fun P => P.1.2) hpace) (congrArg (fun P => P.1.1) hpace)
  · rw [show (_ : Option ℚ) = some q from hq] at hpace
    exact advancesBy_of_tick hmode (congrArg (fun P => P.2.2) hpace)
      (congrArg (fun P => P.2.1) hpace) (h.shared.trans hshared)

/-- **The last modifier counts** if, among those that are looked at, no tick has come before a
rate, and if it is looked at itself, or makes no difference; ticks need shared memory. The last
text selects `FT_START_AT`. -/
theorem last_modifier_counts (h₀ : p₀.record.Fresh) (h : Refreshed B (texts ++ [(m, s)]) p₀ p)
    (hs : SelectsStartAt m.sources.env s) :
    (∀ r, scanned s = some (.rate r) →
      RateCounts r (modifiersRead [] false (texts ++ [(m, s)])) → AdvancesAt B r p) ∧
    ∀ q, scanned s = some (.tick q) → p₀.sharedSemInitialized = true →
      TickCounts q (modifiersRead [] false (texts ++ [(m, s)])) →
        AdvancesBy B (floorTimespec q) p := by
  have hlively : p₀.record.Lively := by
    refine ⟨?_, fun hk => ?_⟩
    · rw [h₀.marks]
      exact FtMode.noConfusion
    · rw [h₀.saved] at hk
      rcases hk with hk | hk <;> cases hk
  have hmode : p.ftMode = .startAt := by
    have hlast : p.record = (p₀.record.afterAll texts).apply m.sources.env s := by
      rw [h.record, Record.afterAll, List.foldl_append]
      rfl
    exact (congrArg (fun R => R.marks.mode) hlast).trans (hlively.afterAll.mode_apply hs)
  obtain ⟨hrate, htick⟩ := clock_of_texts h₀ h hmode
  exact ⟨fun r _ hr => hrate r hr, fun q _ hshared hq => htick q hshared hq⟩

end Counts

/-! ### A tick and then a rate -/

/-- A process with shared memory that was started at a minute past the epoch. -/
def minuteStart : Proc :=
  { Proc.initial with
    ftplStarttime := ⟨⟨60, 0⟩, ⟨60, 0⟩, ⟨60, 0⟩, ⟨60, 0⟩⟩
    sharedSemInitialized := true }

/-- A process after an offset with the modifier `m`. -/
def Proc.afterOffset (p : Proc) (env : EnvVar → Option CStr) (s : CStr) (d : Timespec)
    (m : Modifier) : Proc :=
  { m.assign false { p with
      ftMode := p.ftMode.started
      userOffset := d
      userFakedTimeTimespec := timespecadd p.ftplStarttime.real d } with
    userFakedTimeSaved := s.take (bufferlen - 1)
    fakeMonotonicClock := p.fakesMonotonic env }

section Offset

variable {B : Build} {m : Moment} {p : Proc} {s M : CStr} {q unit : ℚ} {mod : Modifier}

/-- A refresh that finds an offset, in full. -/
theorem runs_refresh_offset (hm : m.Due) (hs : m.sources.used p.parseConfigFile = some s)
    (hreset : m.sources.env .faketimeXreset = none)
    (hnew : unchangedSetting s p.userFakedTimeSaved = false) (hpart : OffsetPart s q unit M)
    (hsign : s.head? = some '+' ∨ s.head? = some '-') (hmod : scanned s = some mod) :
    (refreshConfig B).Runs seq (m.start p) fun _ w' =>
      w'.proc.core = (p.afterOffset m.sources.env s (floorTimespec (q * unit)) mod).core := by
  obtain ⟨w₁, hcore, ho, -, hrun⟩ := hm.run_refresh (B := B) hs
  have hafter : (w₁.proc.afterOffset m.sources.env s (floorTimespec (q * unit)) mod).core =
      (p.afterOffset m.sources.env s (floorTimespec (q * unit)) mod).core := by
    cases mod <;> exact Proc.field_eq hcore fun p =>
      (Proc.afterOffset p m.sources.env s (floorTimespec (q * unit)) _).core
  unfold Runs
  rw [hrun, ← hafter]
  refine Runs.bind (Q := fun _ w₂ => Around w₁ w₂ ∧ w₂.proc = { mod.assign false { w₁.proc with
      ftMode := w₁.proc.ftMode.started
      userOffset := floorTimespec (q * unit)
      userFakedTimeTimespec :=
        timespecadd w₁.proc.ftplStarttime.real (floorTimespec (q * unit)) } with
    userFakedTimeSaved := s.take (bufferlen - 1) }) ?_ ?_
  · refine runs_load ?_
    rw [Proc.field_eq hcore Proc.userFakedTimeSaved, hnew, if_neg (by simp),
      parseByPrefix_of_sign hsign, bind_assoc]
    refine (runs_parseOffset hpart).bind ?_
    rintro _ w₂ ⟨ha, hproc⟩
    have hget := (ho.around ha).env w₂.now .faketimeXreset
    rw [hreset] at hget
    refine (runs_assign hget hmod).bind ?_
    rintro _ w₃ ⟨ha', hproc'⟩
    refine ⟨_, _, rfl, ?_, ?_⟩
    · exact ⟨ha'.os.trans ha.os, ha'.file.trans ha.file, ha'.dontFake.trans ha.dontFake,
        ha'.semHeld.trans ha.semHeld, ha'.mutexHeld.trans ha.mutexHeld⟩
    · change { w₃.proc with userFakedTimeSaved := s.take (bufferlen - 1) } = _
      rw [hproc', hproc]
      rfl
  · rintro _ w₂ ⟨ha, hproc⟩
    refine (runs_getFakeMonotonicSetting_env (ho.around ha).env).mono ?_
    rintro _ w' ⟨n, rfl⟩
    change ({ w₂.proc with fakeMonotonicClock := w₂.proc.fakesMonotonic m.sources.env } :
      Proc).core = _
    rw [hproc]
    cases mod <;> rfl

end Offset

/-- What the clock does is a matter of the settings. -/
theorem AdvancesAt.of_core {B : Build} {r : ℚ} {p p' : Proc} (h : AdvancesAt B r p)
    (hp : p'.core = p.core) : AdvancesAt B r p' := by
  have hrate : p'.atRate r = p.atRate r := Proc.field_eq hp fun p => p.atRate r
  have hrange : p'.InRange r = p.InRange r := Proc.field_eq hp fun p => p.InRange r
  refine ⟨fun w ha c hc t => ?_, fun hp' c t t' ht ht' => ?_⟩
  · rw [hrate]
    refine h.answer w ⟨ha.core.trans hp, ha.faking, ha.calm, ha.tries, ?_, ?_, ha.mutexFree,
      ha.semFree, ha.kept⟩ c hc t
    · exact (Proc.field_eq hp Proc.limitedFaking).symm.trans ha.noLimits
    · exact (Proc.field_eq hp Proc.infileSet).symm.trans ha.noReplay
  · rw [hrate, hrange]
    exact h.distance (hp'.of_core hp.symm) c t t' ht ht'

/-- A process whose cache is not a second old is asked on a calm system. -/
theorem asked_calmWorld {p : Proc} (hlim : p.limitedFaking = false) (hin : p.infileSet = false)
    (hcache : p.cacheEnabled = true) (hfresh : 0 ≤ p.cacheDuration) :
    Asked plainBuild p (calmWorld (fun _ => none) (fun _ _ => ⟨60, 0⟩) ⟨0, 0⟩
      { p with lastDataFetch := 60, forceCacheExpiration := false }) where
  core := rfl
  faking := rfl
  calm := ⟨fun _ => ⟨_, rfl⟩, fun _ => rfl, fun _ => rfl, fun _ _ => ⟨_, rfl⟩⟩
  tries := by decide
  noLimits := hlim
  noReplay := hin
  mutexFree := rfl
  semFree := rfl
  kept := by
    rintro b _ ⟨calls, spawned, rfl⟩
    have hcached : (Proc.expireCache 60 { p with
        lastDataFetch := 60
        forceCacheExpiration := false
        callcounter := calls
        spawned := spawned }).cacheExpired = false := by
      simp [Proc.expireCache, hcache, hfresh]
    obtain ⟨_, w₂, hr, rfl⟩ := runs_refreshConfig_cached (B := plainBuild) (w := { calmWorld
      (fun _ => none) (fun _ _ => ⟨60, 0⟩) ⟨0, 0⟩ { p with
        lastDataFetch := 60
        forceCacheExpiration := false
        callcounter := calls
        spawned := spawned } with mutexHeld := b }) (r := some ⟨60, 0⟩) rfl hcached
    exact ⟨_, hr, ⟨rfl, rfl, rfl, rfl, rfl, settings_expireCache _ _⟩, rfl⟩

/-- A text of no offset with the modifier `m`, as a line of the file of the whole system. -/
structure PaceText (s M : CStr) (m : Modifier) : Prop where
  line : prepareConfigContents (s ++ ['\n']) = s
  found : (etcMoment (s ++ ['\n'])).sources.contents = .ok (s ++ ['\n'])
  part : OffsetPart s 0 1 M
  sign : s.head? = some '+'
  carries : scanned s = some m

/-- The modifier of such a text is applied. -/
theorem PaceText.refresh {s M : CStr} {m : Modifier} (h : PaceText s M m) {p : Proc}
    (hlatch : p.parseConfigFile = true) (hnew : unchangedSetting s p.userFakedTimeSaved = false) :
    (etcMoment (s ++ ['\n'])).sources.used p.parseConfigFile = some s ∧
      (refreshConfig plainBuild).Runs seq ((etcMoment (s ++ ['\n'])).start p) fun _ w' =>
        w'.proc.core = (p.afterOffset (fun _ => none) s (floorTimespec (0 * 1)) m).core := by
  have hused : (etcMoment (s ++ ['\n'])).sources.used p.parseConfigFile = some s := by
    rw [hlatch, used_of_found h.found, h.line]
  exact ⟨hused, runs_refresh_offset (due_etcMoment _) hused rfl hnew h.part (Or.inl h.sign)
    h.carries⟩

/-- Ticks of two seconds. -/
def tickText : CStr := "+0 i2".toList

/-- Twice the speed. -/
def doubleText : CStr := "+0 x2".toList

/-- Three times the speed. -/
def tripleText : CStr := "+0 x3".toList

theorem tickText_tick : PaceText tickText ['i', '2'] (.tick 2) where
  line := by decide +kernel
  found := rfl
  part := ⟨by decide +kernel, Or.inr (Or.inr rfl), by decide +kernel⟩
  sign := rfl
  carries := by
    rw [scanned, show strchr tickText 'x' = none from rfl,
      show strchr tickText 'i' = some ['i', '2'] from rfl]
    dsimp only
    rw [show parseFiniteDouble ['i', '2'].tail = some 2 by decide +kernel, Option.bind_some,
      if_pos (by decide +kernel)]

theorem doubleText_rate : PaceText doubleText ['x', '2'] (.rate 2) where
  line := by decide +kernel
  found := rfl
  part := ⟨by decide +kernel, Or.inr (Or.inl rfl), by decide +kernel⟩
  sign := rfl
  carries := by
    rw [scanned, show strchr doubleText 'x' = some ['x', '2'] from rfl]
    dsimp only
    rw [show parseFiniteDouble ['x', '2'].tail = some 2 by decide +kernel, Option.bind_some,
      if_pos (by decide)]

theorem tripleText_rate : PaceText tripleText ['x', '3'] (.rate 3) where
  line := by decide +kernel
  found := rfl
  part := ⟨by decide +kernel, Or.inr (Or.inl rfl), by decide +kernel⟩
  sign := rfl
  carries := by
    rw [scanned, show strchr tripleText 'x' = some ['x', '3'] from rfl]
    dsimp only
    rw [show parseFiniteDouble ['x', '3'].tail = some 3 by decide +kernel, Option.bind_some,
      if_pos (by decide)]

/-- Two texts, one after the other. -/
theorem exists_refreshed_two {s s' M M' : CStr} {m m' : Modifier} (h : PaceText s M m)
    (h' : PaceText s' M' m') {p : Proc} (hlatch : p.parseConfigFile = true)
    (hnew : unchangedSetting s p.userFakedTimeSaved = false)
    (hnew' : unchangedSetting s' (s.take (bufferlen - 1)) = false) :
    ∃ p', Refreshed plainBuild
        [(etcMoment (s ++ ['\n']), s), (etcMoment (s' ++ ['\n']), s')] p p' ∧
      p'.core = ((p.afterOffset (fun _ => none) s (floorTimespec (0 * 1)) m).afterOffset
        (fun _ => none) s' (floorTimespec (0 * 1)) m').core := by
  obtain ⟨hused, ⟨⟩, w₁, hr₁, hcore₁⟩ := h.refresh hlatch hnew
  have hlatch₁ : w₁.proc.parseConfigFile = true := by
    rw [Proc.field_eq hcore₁ Proc.parseConfigFile, ← hlatch]
    cases m <;> rfl
  have hsaved₁ : w₁.proc.userFakedTimeSaved = s.take (bufferlen - 1) := by
    rw [Proc.field_eq hcore₁ Proc.userFakedTimeSaved]
    rfl
  obtain ⟨hused', ⟨⟩, w₂, hr₂, hcore₂⟩ := h'.refresh hlatch₁ (by rw [hsaved₁]; exact hnew')
  refine ⟨w₂.proc, .cons (due_etcMoment _) hused hr₁ (.cons (due_etcMoment _) hused' hr₂ .nil), ?_⟩
  rw [hcore₂]
  cases m' <;> exact Proc.field_eq hcore₁ fun p =>
    (Proc.afterOffset p (fun _ => none) s' (floorTimespec (0 * 1)) _).core

/-- Two rates, one after the other. -/
theorem last_modifier_counts_of_rates : ∃ p, Refreshed plainBuild
    ([(etcMoment (doubleText ++ ['\n']), doubleText)] ++
      [(etcMoment (tripleText ++ ['\n']), tripleText)]) minuteStart p ∧
    AdvancesAt plainBuild 3 p := by
  obtain ⟨p, h, -⟩ := exists_refreshed_two doubleText_rate tripleText_rate (p := minuteStart) rfl
    (by decide +kernel) (by decide +kernel)
  have hfresh : minuteStart.record.Fresh := ⟨rfl, rfl⟩
  have hlast : Refreshed plainBuild ([(etcMoment (doubleText ++ ['\n']), doubleText)] ++
      [(etcMoment (tripleText ++ ['\n']), tripleText)]) minuteStart p := h
  refine ⟨p, h, (last_modifier_counts hfresh hlast (Or.inl rfl)).1 3 tripleText_rate.carries ?_⟩
  constructor <;> decide +kernel

/-- **A tick outlasts a rate**: the rate of the last text makes no difference. -/
theorem tick_outlasts_rate : ∃ p, Refreshed plainBuild
      [(etcMoment (tickText ++ ['\n']), tickText), (etcMoment (tripleText ++ ['\n']), tripleText)]
      minuteStart p ∧
    minuteStart.record.Fresh ∧ SelectsStartAt (fun _ => none) tripleText ∧
      scanned tripleText = some (.rate 3) ∧ ¬ AdvancesAt plainBuild 3 p := by
  obtain ⟨p, h, hcore⟩ := exists_refreshed_two tickText_tick tripleText_rate (p := minuteStart) rfl
    (by decide +kernel) (by decide +kernel)
  refine ⟨p, h, ⟨rfl, rfl⟩, Or.inl rfl, tripleText_rate.carries, fun hrate => ?_⟩
  generalize hq : (minuteStart.afterOffset (fun _ => none) tickText (floorTimespec (0 * 1))
    (.tick 2)).afterOffset (fun _ => none) tripleText (floorTimespec (0 * 1)) (.rate 3) = q at hcore
  have hask : Asked plainBuild q _ := asked_calmWorld (by rw [← hq]; rfl) (by rw [← hq]; rfl)
    (by rw [← hq]; rfl) (by rw [← hq]; decide)
  have htick : AdvancesBy plainBuild (floorTimespec 2) q := by
    refine advancesBy_of_tick ?_ ?_ ?_ ?_ <;> rw [← hq] <;> rfl
  -- the answer is the same a second later
  have hsame : ∀ t, normalizeTimespecValue (q.atRate 3 .realtime t) =
      normalizeTimespecValue (tickTime q.userFakedTimeTimespec (floorTimespec 2) 0) := by
    intro t
    obtain ⟨x, w', hr, hx, -⟩ := (hrate.of_core hcore.symm).answer _ hask .realtime rfl t
    have hx' := ((runs_iff_of_run hr).mp
      (htick.answer _ hask (show 0 < 2 ^ 64 by decide) .realtime rfl t)).1
    exact congrArg Prod.snd (hx.symm.trans hx')
  have hlater := (hsame ⟨60, 0⟩).trans (hsame ⟨61, 0⟩).symm
  rw [← hq] at hlater
  revert hlater
  decide +kernel

end LibFaketime
