import LibFaketime.Init
import LibFaketime.System

/-!
# A setting in a fresh process

What `ftpl_really_init` makes of the variables of a process, apart from its critical
section: first come the settings that are read once, which leave a process that has
faked nothing yet (`LibFaketime.Fresh`), and last the setting of the user, which makes a
clock of the start time the process has got in between (`LibFaketime.ClockIs`). The
settings of the user followed here are those that do not reset the start time
(`LibFaketime.Common`).

Both parts make calls that concern nobody but the process (`LibFaketime.Private`), and
are described on the view of the thread that runs them.
-/

namespace LibFaketime

open Effects Effects.Prog

/-- The calls that concern nobody but the process. -/
def Private (_ : View) : Op → Prop
  | .load | .store _ | .setDontFake _ => True
  | .getenv _ | .openSave _ | .mapLoad _ | .ftShmInit | .exit _ _ => True
  | _ => False

/-! ### The settings that are read once -/

section Once

/-- Private calls whose assignments keep a fact about the variables. -/
def Sets (K : Proc → Prop) : Op → Prop
  | .store f => ∀ s, K s → K (f s)
  | .load | .setDontFake _ => True
  | .getenv _ | .openSave _ | .mapLoad _ | .ftShmInit | .exit _ _ => True
  | _ => False

variable {K : Proc → Prop} {E : Surroundings} {v : View}

/-- What all assignments of a program keep holds when it returns. -/
theorem wp_of_sets {β : Type} {p : Sys β} (hp : p.Uses (Sets K)) (hv : K v.proc) :
    p.Wp Private (View.Answers E) (fun _ v' => K v'.proc) v := by
  induction p generalizing v with
  | ret a => exact hv
  | op o k ih =>
    refine ⟨?_, fun r v' ho => ih r (hp.2 r) ?_⟩
    · have := hp.1
      cases o <;> trivial
    · have hA := hp.1
      cases o with
      | load => exact ho.2 ▸ hv
      | store f =>
        obtain rfl : v' = _ := ho
        exact hA _ hv
      | setDontFake b =>
        obtain rfl : v' = _ := ho
        exact hv
      | getenv x => exact ho.2 ▸ hv
      | openSave path => exact ho.2 ▸ hv
      | mapLoad path => exact ho.2 ▸ hv
      | ftShmInit => exact ho.2 ▸ hv
      | exit code msg => exact Empty.elim r
      | _ => exact hA.elim

theorem uses_exit {β : Type} {code : ℤ} {msg : String} :
    (exit code msg : Sys β).Uses (Sets K) := ⟨trivial, fun e => Empty.elim e⟩

theorem uses_longSetting {name : String} {value : CStr} :
    (longSetting name value).Uses (Sets K) := by
  unfold longSetting
  split
  · exact uses_pure _
  · exact uses_exit

theorem uses_store {f : Proc → Proc} (h : ∀ s, K s → K (f s)) : (store f).Uses (Sets K) :=
  uses_perform h

theorem uses_assignLong {x : EnvVar} {name : String} {set : ℤ → Proc → Proc}
    (h : ∀ n s, K s → K (set n s)) : (assignLong x name set).Uses (Sets K) := by
  refine uses_perform_bind trivial fun r => ?_
  cases r with
  | none => exact uses_pure _
  | some value => exact uses_longSetting.bind fun n => uses_store (h n)

/-- **The settings that are read once say nothing about the clock.** A fact that does not
depend on them survives them: the cache, the limits, the external command and the save
file. -/
structure Unaffected (K : Proc → Prop) : Prop where
  stat : ∀ b s, K s → K { s with fakeStatDisabled := b }
  duration : ∀ n s, K s → K { s with cacheDuration := n }
  noCache : ∀ s, K s → K { s with cacheEnabled := false }
  startSecs : ∀ n s, K s → K { s with ftStartAfterSecs := n, limitedFaking := true }
  stopSecs : ∀ n s, K s → K { s with ftStopAfterSecs := n, limitedFaking := true }
  startCalls : ∀ n s, K s → K { s with ftStartAfterNcalls := n, limitedFaking := true }
  stopCalls : ∀ n s, K s → K { s with ftStopAfterNcalls := n, limitedFaking := true }
  spawn : ∀ s, K s → K { s with spawnsupport := true }
  spawnSecs : ∀ n s, K s → K { s with ftSpawnSecs := n }
  spawnCalls : ∀ n s, K s → K { s with ftSpawnNcalls := n }
  outfile : ∀ s, K s → K { s with outfileOpen := true }

theorem unaffected_true : Unaffected fun _ => True := by
  constructor
  all_goals intros
  all_goals trivial

theorem uses_getFakeMonotonicSetting (h : ∀ b s, K s → K { s with fakeMonotonicClock := b }) :
    getFakeMonotonicSetting.Uses (Sets K) := by
  have hlast : ∀ r, (assignFakeMonotonic r).Uses (Sets K) := by
    intro r
    cases r with
    | none => exact uses_pure _
    | some v => exact uses_store (h _)
  refine uses_perform_bind trivial fun r => ?_
  cases r with
  | none => exact uses_perform_bind trivial hlast
  | some v => exact hlast (some v)

theorem uses_cacheSettings (h : Unaffected K) : cacheSettings.Uses (Sets K) := by
  refine Uses.bind (uses_perform_bind trivial fun r => ?_) fun _ =>
    uses_perform_bind trivial fun e => ?_
  · cases r with
    | none => exact uses_pure _
    | some value =>
      refine uses_longSetting.bind fun n => ?_
      split
      · exact uses_exit
      · exact uses_store (h.duration n)
  · split
    · exact uses_store h.noCache
    · exact uses_pure _

theorem uses_limitSettings (h : Unaffected K) : limitSettings.Uses (Sets K) :=
  (uses_assignLong h.startSecs).bind fun _ => (uses_assignLong h.stopSecs).bind fun _ =>
    (uses_assignLong h.startCalls).bind fun _ => uses_assignLong h.stopCalls

theorem uses_spawnArguments (left n : ℕ) (missing : Bool) :
    (spawnArguments left n missing).Uses (Sets K) := by
  induction left generalizing n missing with
  | zero => exact uses_pure _
  | succ left ih =>
    refine uses_perform_bind trivial fun r => ?_
    cases r with
    | none => exact ih _ _
    | some arg =>
      dsimp only
      split
      · exact uses_exit
      · exact ih _ _

theorem uses_spawnTarget (h : Unaffected K) : spawnTarget.Uses (Sets K) := by
  refine uses_perform_bind trivial fun target => ?_
  split
  · refine uses_perform_bind trivial fun e => ?_
    split
    · exact uses_exit
    · exact uses_store h.spawn
  · exact uses_pure _

theorem uses_spawnExec (h : Unaffected K) : spawnExec.Uses (Sets K) := by
  refine uses_perform_bind trivial fun r => ?_
  cases r with
  | none => exact uses_pure _
  | some command =>
    refine uses_perform_bind trivial fun e => ?_
    split
    · exact uses_exit
    · exact (uses_spawnArguments _ _ _).bind fun _ => uses_store h.spawn

theorem uses_spawnSettings (h : Unaffected K) : spawnSettings.Uses (Sets K) := by
  refine (uses_spawnTarget h).bind fun _ => (uses_spawnExec h).bind fun _ =>
    uses_perform_bind trivial fun s => ?_
  split
  · exact (uses_assignLong h.spawnSecs).bind fun _ => uses_assignLong h.spawnCalls
  · exact uses_pure _

theorem uses_saveFile (h : ∀ s, K s → K { s with outfileOpen := true }) :
    saveFile.Uses (Sets K) := by
  refine uses_perform_bind trivial fun r => ?_
  cases r with
  | none => exact uses_pure _
  | some path =>
    refine uses_perform_bind trivial fun opened => ?_
    split
    · exact uses_store h
    · exact uses_exit

theorem uses_loadFile (h : ∀ bytes stss, loadChecks bytes = .ok stss →
      ∀ s, K s → K { s with stss := stss, infileSet := true }) : loadFile.Uses (Sets K) := by
  refine uses_perform_bind trivial fun r => ?_
  cases r with
  | none => exact uses_pure _
  | some path =>
    refine uses_perform_bind trivial fun bytes => ?_
    cases bytes with
    | none => exact uses_exit
    | some bytes =>
      dsimp only
      split
      · exact uses_exit
      next stss hok => exact uses_store (h bytes stss hok)

theorem uses_statSetting (h : Unaffected K) : statSetting.Uses (Sets K) := by
  refine uses_perform_bind trivial fun e => ?_
  split
  · exact uses_store (h.stat true)
  · exact uses_pure _

theorem uses_attachShared (h : ∀ b s, K s → K { s with sharedSemInitialized := b }) :
    attachShared.Uses (Sets K) := by
  refine uses_perform_bind trivial fun e => ?_
  split
  · exact uses_perform_bind trivial fun b => uses_store (h b)
  · exact uses_pure _

theorem uses_formatSetting (h : ∀ fmt s, K s → K { s with userFakedTimeFmt := fmt }) :
    formatSetting.Uses (Sets K) := by
  refine uses_perform_bind trivial fun r => ?_
  cases r with
  | none => exact uses_store (h _)
  | some fmt =>
    dsimp only
    split
    · exact uses_exit
    · exact uses_store (h fmt)

theorem uses_skipCmds {B : Build} (h : ∀ s, K s → K { s with ftMode := .noop }) :
    (skipCmds B).Uses (Sets K) := by
  refine uses_perform_bind trivial fun r => ?_
  cases r with
  | none => exact uses_pure _
  | some cmds =>
    dsimp only
    split
    · exact (uses_store h).bind fun _ => uses_pure _
    · exact uses_pure _

theorem uses_onlyCmds {B : Build} (h : ∀ s, K s → K { s with ftMode := .noop }) :
    (onlyCmds B).Uses (Sets K) := by
  refine uses_perform_bind trivial fun r => ?_
  cases r with
  | none => exact uses_pure _
  | some cmds =>
    refine uses_perform_bind trivial fun e => ?_
    split
    · exact uses_exit
    · split
      · exact uses_pure _
      · exact (uses_store h).bind fun _ => uses_pure _

theorem uses_readSettings (h : Unaffected K)
    (hshared : ∀ b s, K s → K { s with sharedSemInitialized := b })
    (hmono : ∀ b s, K s → K { s with fakeMonotonicClock := b }) : readSettings.Uses (Sets K) :=
  (uses_attachShared hshared).bind fun _ => (uses_statSetting h).bind fun _ =>
    (uses_cacheSettings h).bind fun _ => uses_getFakeMonotonicSetting hmono

theorem uses_readLimitsAndFiles (h : Unaffected K)
    (hload : ∀ bytes stss, loadChecks bytes = .ok stss →
      ∀ s, K s → K { s with stss := stss, infileSet := true })
    (hformat : ∀ fmt s, K s → K { s with userFakedTimeFmt := fmt }) :
    readLimitsAndFiles.Uses (Sets K) :=
  (uses_limitSettings h).bind fun _ => (uses_spawnSettings h).bind fun _ =>
    (uses_saveFile h.outfile).bind fun _ => (uses_loadFile hload).bind fun _ =>
      uses_formatSetting hformat

/-! ### A fresh process -/

/-- A process that has read the settings that are read once, and nothing else. -/
structure Fresh (fmt : CStr) (s : Proc) : Prop where
  shared : s.sharedSemInitialized = true
  faking : s.ftMode ≠ .noop
  noRate : s.userRateSet = false
  noTick : s.userPerTickIncSet = false
  saved : s.userFakedTimeSaved = []
  noCache : s.ftplTimecache = .unset
  format : s.userFakedTimeFmt = fmt

theorem unaffected_fresh : Unaffected fun s => Fresh s.userFakedTimeFmt s := by
  constructor
  all_goals intros
  all_goals rename_i h
  all_goals exact ⟨h.shared, h.faking, h.noRate, h.noTick, h.saved, h.noCache, h.format⟩

/-- The format of dates. -/
def formatOf (env : Option CStr) : CStr := env.getD "%Y-%m-%d %T".toList

/-- What the environment lets happen to every process: it gets attached to the shared
block, it is not excluded from faking, and there is one format of dates. -/
structure Admitted (E : Surroundings) (B : Build) (fmt : CStr) : Prop where
  enabled : ∀ r : Option CStr, E.admits (.getenv .faketimeDisableShm) r →
    r = none ∨ r.bind List.head? = some '0'
  attached : ∀ b : Bool, E.admits .ftShmInit b → b = true
  notSkipped : ∀ cmds, E.admits (.getenv .faketimeSkipCmds) (some cmds) →
    B.progname ∉ tokens cmds
  notExcluded : ∀ cmds, E.admits (.getenv .faketimeOnlyCmds) (some cmds) →
    B.progname ∈ tokens cmds
  format : ∀ r : Option CStr, E.admits (.getenv .faketimeFmt) r → formatOf r = fmt

variable {B : Build} {fmt : CStr}

theorem wp_readSettings (hE : Admitted E B fmt) (hv : v.proc = Proc.initial) :
    readSettings.Wp Private (View.Answers E)
      (fun _ v' => Fresh v'.proc.userFakedTimeFmt v'.proc) v := by
  refine Wp.bind (Q := fun _ v' => Fresh v'.proc.userFakedTimeFmt v'.proc) ?_ ?_
  · refine wp_getenv trivial fun r hr => ?_
    rw [if_pos (hE.enabled r hr)]
    refine ⟨trivial, ?_⟩
    rintro b v₁ ⟨hb, rfl⟩
    refine ⟨trivial, ?_⟩
    rintro - v₂ rfl
    rw [hv]
    exact ⟨hE.attached b hb, FtMode.noConfusion, rfl, rfl, rfl, rfl, rfl⟩
  · intro _ v₁ h₁
    have huses : (statSetting >>= fun _ => cacheSettings >>= fun _ =>
        getFakeMonotonicSetting).Uses (Sets fun s => Fresh s.userFakedTimeFmt s) :=
      (uses_statSetting unaffected_fresh).bind fun _ => (uses_cacheSettings unaffected_fresh).bind
        fun _ => uses_getFakeMonotonicSetting fun _ _ h =>
          ⟨h.shared, h.faking, h.noRate, h.noTick, h.saved, h.noCache, h.format⟩
    exact wp_of_sets huses h₁

theorem wp_skipCmds (hE : Admitted E B fmt) :
    (skipCmds B).Wp Private (View.Answers E) (fun r v' => r = false ∧ v' = v) v := by
  refine wp_getenv trivial fun r hr => ?_
  cases r with
  | none => exact ⟨rfl, rfl⟩
  | some cmds =>
    dsimp only
    rw [if_neg (hE.notSkipped cmds hr)]
    exact ⟨rfl, rfl⟩

theorem wp_onlyCmds (hE : Admitted E B fmt) :
    (onlyCmds B).Wp Private (View.Answers E) (fun r v' => r = false ∧ v' = v) v := by
  refine wp_getenv trivial fun r hr => ?_
  cases r with
  | none => exact ⟨rfl, rfl⟩
  | some cmds =>
    refine wp_getenv trivial fun r' hr' => ?_
    split
    · exact wp_exit trivial
    · rw [if_pos (hE.notExcluded cmds hr)]
      exact ⟨rfl, rfl⟩

theorem wp_formatSetting (hE : Admitted E B fmt) (hv : Fresh v.proc.userFakedTimeFmt v.proc) :
    formatSetting.Wp Private (View.Answers E) (fun _ v' => Fresh fmt v'.proc) v := by
  have hset : ∀ {f v'}, f = fmt →
      v' = { v with proc := { v.proc with userFakedTimeFmt := f } } → Fresh fmt v'.proc := by
    rintro f v' hf rfl
    exact ⟨hv.shared, hv.faking, hv.noRate, hv.noTick, hv.saved, hv.noCache, hf⟩
  refine wp_getenv trivial fun r hr => ?_
  have hfmt := hE.format r hr
  cases r with
  | none => exact ⟨trivial, fun _ v' ho => hset hfmt ho⟩
  | some f =>
    dsimp only
    split
    · exact wp_exit trivial
    · exact ⟨trivial, fun _ v' ho => hset hfmt ho⟩

theorem wp_readLimitsAndFiles (hE : Admitted E B fmt)
    (hv : Fresh v.proc.userFakedTimeFmt v.proc) :
    readLimitsAndFiles.Wp Private (View.Answers E) (fun _ v' => Fresh fmt v'.proc) v := by
  refine (wp_of_sets (uses_limitSettings unaffected_fresh) hv).bind fun _ v₁ h₁ => ?_
  refine (wp_of_sets (uses_spawnSettings unaffected_fresh) h₁).bind fun _ v₂ h₂ => ?_
  refine (wp_of_sets (uses_saveFile unaffected_fresh.outfile) h₂).bind fun _ v₃ h₃ => ?_
  have hload : loadFile.Uses (Sets fun s => Fresh s.userFakedTimeFmt s) := by
    refine uses_loadFile fun _ _ _ _ h => ?_
    exact ⟨h.shared, h.faking, h.noRate, h.noTick, h.saved, h.noCache, h.format⟩
  refine (wp_of_sets hload h₃).bind fun _ v₄ h₄ => ?_
  exact wp_formatSetting hE h₄

end Once

/-! ### What a setting makes of a fresh process -/

section Setting

/-- The rate in a setting. -/
def rateOf (setting : CStr) : Option ℚ :=
  (strchr setting 'x').bind fun rest => parseFiniteDouble rest.tail

/-- The base of an offset, from the common start time. -/
def offsetBase (setting : CStr) (start : SystemTime) : Timespec :=
  match splitOffset setting with
  | some (frac, factor, _) =>
    match offsetTimespec frac factor with
    | some offset => timespecadd start.real offset
    | none => .unset
  | none => .unset

/-- The time a date gives; `lead` stands before the text of the date. -/
def dateTime (B : Build) (fmt lead s : CStr) : Timespec :=
  match B.strptime s fmt Tm.start with
  | some (tm, rest) =>
    if rest.head? = some '.' then
      match parseFiniteDoublePrefix
          (fractionText (lead ++ s.take (s.length - rest.length)) rest) with
      | some (nstime, _) => ⟨B.mktime tm, fractionNsec nstime⟩
      | none => .unset
    else ⟨B.mktime tm, 0⟩
  | none => .unset

/-- The base a setting gives. -/
def startBase (B : Build) (fmt setting : CStr) (start : SystemTime) : Timespec :=
  if setting.head? = some '@' then dateTime B fmt ['@'] setting.tail
  else offsetBase setting start

theorem stored_offsetBase {setting : CStr} {start : SystemTime} (h : start.real.Stored) :
    (offsetBase setting start).Stored := by
  unfold offsetBase
  split
  · split
    next offset ho =>
      unfold offsetTimespec at ho
      obtain ⟨q, -, hq⟩ := Option.bind_eq_some_iff.mp ho
      exact (normal_timespecadd h (normal_of_doubleToTimespec hq).stored).stored
    next => decide
  · decide

theorem stored_dateTime (B : Build) (fmt lead s : CStr) : (dateTime B fmt lead s).Stored := by
  unfold dateTime
  split
  · split
    · split
      · obtain ⟨h0, h1⟩ := fractionNsec_mem ‹ℚ›
        exact ⟨by dsimp only; omega, h1⟩
      · decide
    · exact ⟨show (-1 : ℤ) ≤ 0 by decide, show (0 : ℤ) < 1000000000 by decide⟩
  · decide

theorem stored_startBase {B : Build} {fmt setting : CStr} {start : SystemTime}
    (h : start.real.Stored) : (startBase B fmt setting start).Stored := by
  unfold startBase
  split
  · exact stored_dateTime ..
  · exact stored_offsetBase h

/-- **The clock of a process**: the start time, the base and the rate. -/
structure ClockIs (start : SystemTime) (base : Timespec) (rate : Option ℚ) (s : Proc) : Prop where
  startAt : s.ftMode = .startAt
  start_eq : s.ftplStarttime = start
  base_eq : s.userFakedTimeTimespec = base
  noTick : s.userPerTickIncSet = false
  rate_eq : (if s.userRateSet then some s.userRate else none) = rate

/-- **The setting has been applied**, and is looked for in the environment. -/
structure Applied (setting : CStr) (s : Proc) : Prop where
  fromEnv : s.parseConfigFile = false
  saved : s.userFakedTimeSaved = setting.take (bufferlen - 1)

variable {E : Surroundings} {v : View} {B : Build} {setting : CStr}

/-- A rate is taken over; nothing has been reported yet that could be gone on
from. -/
theorem wp_parseModifiers (hcache : v.proc.ftplTimecache = .unset)
    (hrate : v.proc.userRateSet = false)
    (hx : strchr setting 'x' = none → strchr setting 'i' = none) :
    (parseModifiers setting).Wp Private (View.Answers E)
      (fun _ v' => v'.shm = v.shm ∧ v'.seen = v.seen ∧
        (if v'.proc.userRateSet then some v'.proc.userRate else none) = rateOf setting ∧
        v'.proc = { v.proc with
          userRate := v'.proc.userRate, userRateSet := v'.proc.userRateSet }) v := by
  unfold parseModifiers
  cases hs : strchr setting 'x' with
  | none =>
    rw [hx hs]
    exact ⟨rfl, rfl, by rw [hrate, rateOf, hs]; rfl, rfl⟩
  | some rest =>
    dsimp only
    cases hp : parseFiniteDouble rest.tail with
    | none => exact wp_exit trivial
    | some rate =>
      dsimp only
      split
      · exact wp_exit trivial
      · refine wp_store trivial (wp_store trivial (wp_getenv trivial fun r _ => ?_))
        have hpost : (if true = true then some rate else none) = rateOf setting := by
          rw [rateOf, hs, Option.bind_some, hp, if_pos rfl]
        cases r with
        | none => exact ⟨rfl, rfl, hpost, rfl⟩
        | some _ =>
          refine wp_load trivial ?_
          rw [if_neg (by rw [hcache]; decide)]
          exact ⟨rfl, rfl, hpost, rfl⟩

theorem wp_parseOffset (hmode : v.proc.ftMode ≠ .noop) :
    (parseOffset setting).Wp Private (View.Answers E)
      (fun _ v' => v'.shm = v.shm ∧ v'.seen = v.seen ∧ v'.proc = { v.proc with
        ftMode := .startAt
        userOffset := v'.proc.userOffset
        userFakedTimeTimespec := offsetBase setting v.proc.ftplStarttime }) v := by
  refine wp_store trivial ?_
  rw [if_pos hmode]
  cases hs : splitOffset setting with
  | none => exact wp_exit trivial
  | some q =>
    obtain ⟨frac, factor, rest⟩ := q
    dsimp only
    split
    · exact wp_exit trivial
    · cases ho : offsetTimespec frac factor with
      | none => exact wp_exit trivial
      | some offset =>
        refine wp_store trivial ⟨trivial, ?_⟩
        rintro - v₁ rfl
        refine ⟨rfl, rfl, ?_⟩
        rw [offsetBase, hs]
        dsimp only
        rw [ho]

theorem wp_parseDate {lead s : CStr} {failure : CStr → String} :
    (parseDate B lead s failure).Wp Private (View.Answers E)
      (fun _ v' => v' = { v with proc := { v.proc with
        userFakedTimeTimespec := dateTime B v.proc.userFakedTimeFmt lead s } }) v := by
  refine wp_load trivial ?_
  dsimp only
  cases hs : B.strptime s v.proc.userFakedTimeFmt Tm.start with
  | none => exact wp_exit trivial
  | some q =>
    obtain ⟨tm, rest⟩ := q
    refine wp_store trivial ?_
    rw [dateTime, hs]
    dsimp only
    split
    next hdot =>
      cases hf : parseFiniteDoublePrefix
          (fractionText (lead ++ s.take (s.length - rest.length)) rest) with
      | none => exact wp_exit trivial
      | some q =>
        refine ⟨trivial, ?_⟩
        rintro - v₁ rfl
        rfl
    next hdot => rfl

theorem wp_parseStartAt (hE : ∀ r : Option CStr, E.admits (.getenv .faketimeDontReset) r →
      r.isSome = true) :
    (parseStartAt B setting).Wp Private (View.Answers E)
      (fun _ v' => v' = { v with proc := { v.proc with
        ftMode := .startAt
        userFakedTimeTimespec := dateTime B v.proc.userFakedTimeFmt ['@'] setting.tail } }) v := by
  refine wp_store trivial (wp_parseDate.bind ?_)
  rintro - v₁ rfl
  refine wp_getenv trivial fun r hr => ?_
  rw [if_neg (by rw [Option.isNone_eq_false_iff.mpr (hE r hr)]; simp)]
  rfl

/-- The settings that are given to all processes and do not reset the start time. -/
structure Common (E : Surroundings) (setting : CStr) : Prop where
  given : ∀ r : Option CStr, E.admits (.getenv .faketime) r → r = some setting
  keepsStart : setting.head? = some '+' ∨ setting.head? = some '-' ∨
    (setting.head? = some '@' ∧
      ∀ r : Option CStr, E.admits (.getenv .faketimeDontReset) r → r.isSome = true)
  noTick : strchr setting 'x' = none → strchr setting 'i' = none

/-- The modifiers after a start has been set. -/
theorem wp_modifiers {base : Timespec} {v₁ : View} {fmt : CStr} (offset : Timespec)
    (hv : Fresh fmt v.proc) (hE : Common E setting)
    (h₁ : v₁.proc = { v.proc with
      ftMode := .startAt, userOffset := offset, userFakedTimeTimespec := base }) :
    (parseModifiers setting).Wp Private (View.Answers E)
      (fun _ v' => v'.proc.parseConfigFile = v.proc.parseConfigFile ∧
        ClockIs v.proc.ftplStarttime base (rateOf setting) v'.proc) v₁ := by
  refine (wp_parseModifiers (by rw [h₁]; exact hv.noCache) (by rw [h₁]; exact hv.noRate)
    hE.noTick).mono ?_
  rintro - v₂ ⟨-, -, hrate, hproc⟩
  refine ⟨?_, ?_, ?_, ?_, ?_, hrate⟩
  all_goals rw [hproc, h₁]
  exact hv.noTick

theorem wp_parseByPrefix {fmt : CStr} (hv : Fresh fmt v.proc) (hE : Common E setting) :
    (parseByPrefix B setting).Wp Private (View.Answers E)
      (fun _ v' => v'.proc.parseConfigFile = v.proc.parseConfigFile ∧
        ClockIs v.proc.ftplStarttime (startBase B fmt setting v.proc.ftplStarttime)
          (rateOf setting) v'.proc) v := by
  have hoffset : setting.head? ≠ some '@' → (parseOffset setting >>= fun _ =>
      parseModifiers setting).Wp Private (View.Answers E) (fun _ v' =>
        v'.proc.parseConfigFile = v.proc.parseConfigFile ∧ ClockIs v.proc.ftplStarttime
          (startBase B fmt setting v.proc.ftplStarttime) (rateOf setting) v'.proc) v := by
    intro hat
    refine (wp_parseOffset hv.faking).bind ?_
    rintro - v₁ ⟨-, -, hproc⟩
    rw [startBase, if_neg hat]
    exact wp_modifiers _ hv hE hproc
  unfold parseByPrefix
  rcases hE.keepsStart with h | h | ⟨h, hdont⟩
  · rw [h]
    exact hoffset (by rw [h]; decide)
  · rw [h]
    exact hoffset (by rw [h]; decide)
  · rw [h, startBase, if_pos h, ← hv.format]
    refine (wp_parseStartAt hdont).bind ?_
    rintro - v₁ h₁
    exact wp_modifiers v.proc.userOffset hv hE (by rw [h₁])

/-- **The setting is applied to the start time the process has.** -/
theorem wp_firstSetting {fmt : CStr} (hv : Fresh fmt v.proc) (hE : Common E setting) :
    (firstSetting B).Wp Private (View.Answers E)
      (fun _ v' => Applied setting v'.proc ∧
        ClockIs v.proc.ftplStarttime (startBase B fmt setting v.proc.ftplStarttime)
          (rateOf setting) v'.proc) v := by
  refine wp_getenv trivial fun r hr => ?_
  cases hE.given r hr
  refine wp_store trivial (wp_load trivial ?_)
  have hne : setting ≠ [] := by
    rintro rfl
    rcases hE.keepsStart with h | h | ⟨h, -⟩ <;> cases h
  -- nothing has been saved yet, so the text is new whatever it is
  have hchanged : unchangedSetting setting v.proc.userFakedTimeSaved = false := by
    rw [hv.saved, unchangedSetting]
    cases setting with
    | nil => exact absurd rfl hne
    | cons c cs => rfl
  rw [hchanged]
  refine Wp.bind (Q := fun _ v' => v'.proc.parseConfigFile = false ∧
    ClockIs v.proc.ftplStarttime (startBase B fmt setting v.proc.ftplStarttime)
      (rateOf setting) v'.proc) ?_ ?_
  · refine wp_parseByPrefix (v := { v with proc := { v.proc with parseConfigFile := false } }) ?_ hE
    exact ⟨hv.shared, hv.faking, hv.noRate, hv.noTick, hv.saved, hv.noCache, hv.format⟩
  · rintro - v₁ ⟨hfile, hclock⟩
    refine ⟨trivial, ?_⟩
    rintro - v₂ rfl
    exact ⟨⟨hfile, rfl⟩, hclock.startAt, hclock.start_eq, hclock.base_eq, hclock.noTick,
      hclock.rate_eq⟩

end Setting

end LibFaketime
