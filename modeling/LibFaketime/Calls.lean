import LibFaketime.Files
import LibFaketime.Init
import LibFaketime.Sleep
import LibFaketime.World

/-!
# What the functions of a query may call

For each function on the way of a query, which calls it can make at all, whatever the
answers are (`Effects.Prog.Uses`). Two things are said about the calls
(`LibFaketime.Ordinary`). No assignment of an initialized process touches what is set up
once and for all: the records of the load file, whether there is a semaphore and a save
file, and whether file times are faked (`LibFaketime.Proc.fixed`); a load file, once left,
is not entered again. And it is said of a function whether it uses the locks; those that
do not are the pieces of which the others are made.
-/

namespace LibFaketime

open Effects Effects.Prog

/-- What is set up once and for all. -/
def Proc.fixed (s : Proc) : List SavedTimestamp × Bool × Bool × Bool :=
  (s.stss, s.sharedSemInitialized, s.outfileOpen, s.fakeStatDisabled)

/-- An assignment that leaves alone what is set up once and for all. -/
def Harmless (f : Proc → Proc) : Prop :=
  ∀ s, (f s).fixed = s.fixed ∧ (s.infileSet = false → (f s).infileSet = false)

/-- The settings that are read once, when the process is initialized, and the choice that is
made then between the environment and the configuration file. -/
def Proc.once (s : Proc) : Bool × Bool × Bool × CStr :=
  (s.parseConfigFile, s.cacheEnabled, s.limitedFaking, s.userFakedTimeFmt)

/-- The calls of a query; those about locks and the shared block only if `locks`
holds. -/
def Ordinary (locks : Prop) : Op → Prop
  | .store f => Harmless f
  | .setDontFake _ => False
  | .ftSemLock | .ftSemUnlock | .timeMutexLock | .timeMutexUnlock | .writeShared _ => locks
  | _ => True

/-- An assignment of an initialized process. -/
def RoutineStore (f : Proc → Proc) : Prop := Harmless f ∧ ∀ s, (f s).once = s.once

/-- The calls of an initialized process: ordinary calls that leave alone what is read once,
too, and the files that are written to set the clock. -/
def Routine (locks : Prop) : Op → Prop
  | .store f => RoutineStore f
  | .setDontFake _ | .setenv _ _ | .fopenWrite _ | .fprintf _ | .fclose => False
  | .ftSemLock | .ftSemUnlock | .timeMutexLock | .timeMutexUnlock | .writeShared _ => locks
  | _ => True

/-- The calls that wait, and the look into a variable that has not been assigned. -/
def Op.Unsettled : Op → Bool
  | .uninitialized => true
  | o => o.Waits

/-- The routine calls that neither wait nor look into such a variable. -/
def Prompt (locks : Prop) (o : Op) : Prop := Routine locks o ∧ o.Unsettled = false

/-- The last real and faked times of the clocks. -/
def Proc.caches (s : Proc) : SystemTime × SystemTime := (s.ftplTimecache, s.ftplFaketimecache)

/-- The assignments that leave the last times alone, and every other call. -/
def Op.KeepsCaches : Op → Prop
  | .store f => ∀ s, (f s).caches = s.caches
  | _ => True

/-- The calls inside a query: only at its end are the last times assigned. -/
def Inner (locks : Prop) (o : Op) : Prop := Prompt locks o ∧ o.KeepsCaches

/-- The configuration in use, and what decides when it is read again. -/
def Proc.fetched (s : Proc) : CStr × Bool × ℤ × Bool × ℤ × Bool :=
  (s.userFakedTimeSaved, s.fakeMonotonicClock, s.cacheDuration, s.forceCacheExpiration,
    s.lastDataFetch, s.cacheExpired)

/-- The assignments that leave that alone, and every other call. -/
def Op.KeepsFetched : Op → Prop
  | .store f => ∀ s, (f s).fetched = s.fetched
  | _ => True

/-- The calls inside a query that are not about the configuration. -/
def Aloof (locks : Prop) (o : Op) : Prop := Inner locks o ∧ o.KeepsFetched

/-- The limits, the settings of the external command, and what is counted for them. -/
def Proc.limitState (s : Proc) : (ℤ × ℤ × ℤ × ℤ × ℤ) × Bool × Bool × ℤ × ℤ :=
  ((s.callcounter, s.ftStartAfterSecs, s.ftStopAfterSecs, s.ftStartAfterNcalls,
    s.ftStopAfterNcalls), s.spawnsupport, s.spawned, s.ftSpawnSecs, s.ftSpawnNcalls)

/-- The assignments that leave that alone, and every other call that does not run the
command. -/
def Op.KeepsLimits : Op → Prop
  | .store f => ∀ s, (f s).limitState = s.limitState
  | .spawn => False
  | _ => True

/-- The assignments that do not end the replay, and every other call that does not give its
file back. -/
def Op.KeepsReplay : Op → Prop
  | .store f => ∀ s, (f s).infileSet = s.infileSet
  | .munmapStss => False
  | _ => True

/-- The calls inside a query that are about neither the configuration nor the limits. -/
def Detached (locks : Prop) (o : Op) : Prop := Aloof locks o ∧ o.KeepsLimits

/-- The calls inside a query that are about neither the configuration nor the replay. -/
def Counting (locks : Prop) (o : Op) : Prop := Aloof locks o ∧ o.KeepsReplay

/-- The calls that are about none of the three. -/
def Plain (locks : Prop) (o : Op) : Prop := Detached locks o ∧ o.KeepsReplay

/-- The calls inside a query that are about neither the limits nor the end of the replay. -/
def Refreshing (locks : Prop) (o : Op) : Prop := Inner locks o ∧ o.KeepsLimits ∧ o.KeepsReplay

variable {locks : Prop} {B : Build}

/-! ### Single calls -/

section Single

variable {β γ : Type}

theorem inner_store {f : Proc → Proc} (h : RoutineStore f) (hc : ∀ s, (f s).caches = s.caches) :
    (store f).Uses (Inner locks) := uses_perform ⟨⟨h, rfl⟩, hc⟩

theorem aloof_store {f : Proc → Proc} (h : RoutineStore f) (hc : ∀ s, (f s).caches = s.caches)
    (hf : ∀ s, (f s).fetched = s.fetched) : (store f).Uses (Aloof locks) :=
  uses_perform ⟨⟨⟨h, rfl⟩, hc⟩, hf⟩

/-- An assignment that mentions neither what is set up once and for all nor a setting that is
read once. -/
theorem routine_of_eq {f : Proc → Proc} (h : ∀ s, (f s).fixed = s.fixed)
    (h' : ∀ s, (f s).infileSet = s.infileSet) (h'' : ∀ s, (f s).once = s.once) : RoutineStore f :=
  ⟨fun s => ⟨h s, fun hs => (h' s).trans hs⟩, h''⟩

/-- What an assignment inside a query leaves alone. -/
def Proc.kept (s : Proc) :
    (List SavedTimestamp × Bool × Bool × Bool) × Bool × (Bool × Bool × Bool × CStr) ×
      SystemTime × SystemTime := (s.fixed, s.infileSet, s.once, s.caches)

/-- The usual case: an assignment that mentions none of all that. -/
theorem inner_set {f : Proc → Proc} (h : ∀ s, (f s).kept = s.kept) : (store f).Uses (Inner locks) :=
  inner_store (routine_of_eq (fun s => congrArg (fun k => k.1) (h s))
    (fun s => congrArg (fun k => k.2.1) (h s)) fun s => congrArg (fun k => k.2.2.1) (h s))
    fun s => congrArg (fun k => k.2.2.2) (h s)

theorem aloof_set {f : Proc → Proc} (h : ∀ s, (f s).kept = s.kept)
    (hf : ∀ s, (f s).fetched = s.fetched) : (store f).Uses (Aloof locks) :=
  aloof_store (routine_of_eq (fun s => congrArg (fun k => k.1) (h s))
    (fun s => congrArg (fun k => k.2.1) (h s)) fun s => congrArg (fun k => k.2.2.1) (h s))
    (fun s => congrArg (fun k => k.2.2.2) (h s)) hf

/-- What most assignments inside a query leave alone. -/
def Proc.untouched (s : Proc) := (s.kept, s.fetched, s.limitState)

theorem counting_set {f : Proc → Proc} (h : ∀ s, (f s).kept = s.kept)
    (hf : ∀ s, (f s).fetched = s.fetched) : (store f).Uses (Counting locks) := by
  have haloof : (store f).Uses (Aloof locks) := aloof_set h hf
  exact uses_perform ⟨haloof.1, fun s => congrArg (fun k => k.2.1) (h s)⟩

theorem detached_set {f : Proc → Proc} (h : RoutineStore f)
    (hf : ∀ s, ((f s).caches, (f s).fetched, (f s).limitState) =
      (s.caches, s.fetched, s.limitState)) : (store f).Uses (Detached locks) :=
  uses_perform ⟨⟨⟨⟨h, rfl⟩, fun s => congrArg (fun k => k.1) (hf s)⟩,
    fun s => congrArg (fun k => k.2.1) (hf s)⟩, fun s => congrArg (fun k => k.2.2) (hf s)⟩

theorem plain_set {f : Proc → Proc} (h : ∀ s, (f s).untouched = s.untouched) :
    (store f).Uses (Plain locks) := by
  have hkept : ∀ s, (f s).kept = s.kept := fun s => congrArg (fun k => k.1) (h s)
  have haloof : (store f).Uses (Aloof locks) :=
    aloof_set hkept fun s => congrArg (fun k => k.2.1) (h s)
  exact uses_perform ⟨⟨haloof.1, fun s => congrArg (fun k => k.2.2) (h s)⟩,
    fun s => congrArg (fun k => k.2.1) (hkept s)⟩

theorem refreshing_set {f : Proc → Proc} (h : ∀ s, (f s).kept = s.kept)
    (hl : ∀ s, (f s).limitState = s.limitState) : (store f).Uses (Refreshing locks) := by
  have hinner : (store f).Uses (Inner locks) := inner_set h
  exact uses_perform ⟨hinner.1, hl, fun s => congrArg (fun k => k.2.1) (h s)⟩

/-- The prompt calls that neither assign anything nor are about the locks. -/
def Op.Passive : Op → Prop
  | .store _ | .setDontFake _ | .setenv _ _ | .writeShared _ => False
  | .fopenWrite _ | .fprintf _ | .fclose => False
  | .ftSemLock | .ftSemUnlock | .timeMutexLock | .timeMutexUnlock => False
  | o => o.Unsettled = false

theorem aloof_of_passive {o : Op} (ho : o.Passive) : Aloof locks o := by
  cases o
  case store | setDontFake | setenv | writeShared | fopenWrite | fprintf | fclose | ftSemLock |
      ftSemUnlock | timeMutexLock | timeMutexUnlock => exact ho.elim
  all_goals exact ⟨⟨⟨trivial, ho⟩, trivial⟩, trivial⟩

/-- Those that neither run the command nor give back the file of the replay. -/
def Op.Idle : Op → Prop
  | .munmapStss | .spawn => False
  | o => o.Passive

theorem plain_of_idle {o : Op} (ho : o.Idle) : Plain locks o := by
  cases o
  case store | setDontFake | setenv | writeShared | fopenWrite | fprintf | fclose | ftSemLock |
      ftSemUnlock | timeMutexLock | timeMutexUnlock | munmapStss | spawn => exact ho.elim
  all_goals exact ⟨⟨aloof_of_passive ho, trivial⟩, trivial⟩

theorem plain_call {o : Op} {f : o.Ans → Sys γ} (ho : o.Idle)
    (hf : ∀ r, (f r).Uses (Plain locks)) : (perform (I := sys) o >>= f).Uses (Plain locks) :=
  uses_perform_bind (plain_of_idle ho) hf

theorem refreshing_call {o : Op} {f : o.Ans → Sys γ} (ho : o.Idle)
    (hf : ∀ r, (f r).Uses (Refreshing locks)) :
    (perform (I := sys) o >>= f).Uses (Refreshing locks) :=
  have hplain : Plain locks o := plain_of_idle ho
  uses_perform_bind ⟨hplain.1.1.1, hplain.1.2, hplain.2⟩ hf

theorem plain_exit {code : ℤ} {msg : String} : (exit code msg : Sys β).Uses (Plain locks) :=
  ⟨plain_of_idle (o := .exit code msg) rfl, fun e => Empty.elim e⟩

theorem plain_stalled : (stalled : Sys β).Uses (Plain locks) :=
  ⟨plain_of_idle (o := .stalled) rfl, fun e => Empty.elim e⟩

/-- The calls about the locks and the shared block. -/
def Op.Shared : Op → Prop
  | .ftSemLock | .ftSemUnlock | .timeMutexLock | .timeMutexUnlock | .writeShared _ => True
  | _ => False

theorem plain_of_shared (h : locks) {o : Op} (ho : o.Shared) : Plain locks o := by
  cases o
  case ftSemLock | ftSemUnlock | timeMutexLock | timeMutexUnlock | writeShared =>
    exact ⟨⟨⟨⟨⟨h, rfl⟩, trivial⟩, trivial⟩, trivial⟩, trivial⟩
  all_goals exact ho.elim

theorem plain_shared (h : locks) {o : Op} {f : o.Ans → Sys γ} (ho : o.Shared)
    (hf : ∀ r, (f r).Uses (Plain locks)) : (perform (I := sys) o >>= f).Uses (Plain locks) :=
  uses_perform_bind (plain_of_shared h ho) hf

theorem Routine.ordinary {o : Op} (h : Routine locks o) : Ordinary locks o := by
  cases o
  case store f => exact h.1
  case setDontFake b => exact h
  all_goals first | exact h | trivial

theorem detached_of_plain {p : Sys β} (h : p.Uses (Plain locks)) : p.Uses (Detached locks) :=
  h.mono fun _ => And.left

theorem aloof_of_detached {p : Sys β} (h : p.Uses (Detached locks)) : p.Uses (Aloof locks) :=
  h.mono fun _ => And.left

theorem aloof_of_plain {p : Sys β} (h : p.Uses (Plain locks)) : p.Uses (Aloof locks) :=
  aloof_of_detached (detached_of_plain h)

theorem refreshing_of_plain {p : Sys β} (h : p.Uses (Plain locks)) : p.Uses (Refreshing locks) :=
  h.mono fun _ h => ⟨h.1.1.1, h.1.2, h.2⟩

theorem inner_of_refreshing {p : Sys β} (h : p.Uses (Refreshing locks)) : p.Uses (Inner locks) :=
  h.mono fun _ => And.left

theorem inner_of_aloof {p : Sys β} (h : p.Uses (Aloof locks)) : p.Uses (Inner locks) :=
  h.mono fun _ => And.left

theorem prompt_of_inner {p : Sys β} (h : p.Uses (Inner locks)) : p.Uses (Prompt locks) :=
  h.mono fun _ => And.left

theorem routine_of_prompt {p : Sys β} (h : p.Uses (Prompt locks)) : p.Uses (Routine locks) :=
  h.mono fun _ => And.left

theorem routine_of_inner {p : Sys β} (h : p.Uses (Inner locks)) : p.Uses (Routine locks) :=
  routine_of_prompt (prompt_of_inner h)

theorem inner_of_plain {p : Sys β} (h : p.Uses (Plain locks)) : p.Uses (Inner locks) :=
  inner_of_aloof (aloof_of_plain h)

theorem routine_of_plain {p : Sys β} (h : p.Uses (Plain locks)) : p.Uses (Routine locks) :=
  routine_of_inner (inner_of_plain h)

theorem routine_of_refreshing {p : Sys β} (h : p.Uses (Refreshing locks)) :
    p.Uses (Routine locks) := routine_of_inner (inner_of_refreshing h)

theorem routine_of_aloof {p : Sys β} (h : p.Uses (Aloof locks)) : p.Uses (Routine locks) :=
  routine_of_inner (inner_of_aloof h)

end Single

/-! ### Start times -/

section Start

theorem plain_readClock (c : ClockId) (set : Timespec → SystemTime → SystemTime) :
    (readClock c set).Uses (Plain locks) := by
  refine plain_call rfl fun r => ?_
  cases r with
  | none => exact uses_pure _
  | some t => exact plain_set fun _ => rfl

theorem plain_systemTimeFromSystem : systemTimeFromSystem.Uses (Plain locks) :=
  (plain_readClock _ _).bind fun _ => (plain_readClock _ _).bind fun _ =>
    (plain_readClock _ _).bind fun _ => plain_readClock _ _

theorem plain_publishStarttime (h : locks) : publishStarttime.Uses (Plain locks) := by
  have hw : ∀ f, Plain locks (.writeShared f) := fun _ => plain_of_shared h trivial
  refine plain_call rfl fun s => ?_
  exact ⟨hw _, fun _ =>
    ⟨hw _, fun _ => ⟨hw _, fun _ => ⟨hw _, fun _ => ⟨hw _, fun _ => ⟨hw _, fun _ =>
    ⟨hw _, fun _ => ⟨hw _, fun _ => trivial⟩⟩⟩⟩⟩⟩⟩⟩

theorem plain_sharedToSystemTime : sharedToSystemTime.Uses (Plain locks) :=
  plain_call rfl fun _ =>
    plain_set fun _ => rfl

theorem plain_resetTime (h : locks) : resetTime.Uses (Plain locks) := by
  refine plain_systemTimeFromSystem.bind fun _ => plain_call rfl fun s => ?_
  split
  · refine plain_shared h trivial fun r => ?_
    cases r with
    | acquired =>
      refine (plain_publishStarttime h).bind fun _ =>
        plain_shared h trivial fun b => ?_
      split
      · exact uses_pure _
      · exact plain_exit
    | interrupted => exact plain_exit
    | failed => exact plain_exit
  · exact uses_pure _

end Start

/-! ### Settings -/

section Settings

theorem plain_xreset : xreset.Uses (Plain locks) := by
  refine plain_call rfl fun e => ?_
  split
  · refine plain_call rfl fun s => ?_
    split
    · exact plain_set fun _ => rfl
    · exact uses_pure _
  · exact uses_pure _

theorem plain_parseModifiers (text : CStr) : (parseModifiers text).Uses (Plain locks) := by
  unfold parseModifiers
  split
  · split
    · exact plain_exit
    · split
      · exact plain_exit
      · refine (plain_set fun _ => rfl).bind fun _ => ?_
        exact (plain_set fun _ => rfl).bind fun _ =>
          plain_xreset
  · split
    · exact uses_pure _
    · split
      · exact plain_exit
      · split
        · exact plain_exit
        · refine (plain_set fun _ => rfl).bind fun _ => ?_
          exact plain_set fun _ => rfl

theorem plain_parseDate (lead text : CStr) (failure : CStr → String) :
    (parseDate B lead text failure).Uses (Plain locks) := by
  refine plain_call rfl fun s => ?_
  dsimp only
  split
  · exact plain_exit
  · refine (plain_set fun _ => rfl).bind fun _ => ?_
    split
    · split
      · exact plain_exit
      · exact plain_set fun _ => rfl
    · exact uses_pure _

theorem plain_parseAbsolute (text : CStr) : (parseAbsolute B text).Uses (Plain locks) :=
  (plain_set fun _ => rfl).bind fun _ =>
    (plain_parseDate _ _ _).bind fun _ =>
      plain_set fun _ => rfl

theorem plain_parseOffset (text : CStr) : (parseOffset text).Uses (Plain locks) := by
  refine (plain_set fun _ => rfl).bind fun _ => ?_
  split
  · exact plain_exit
  · split
    · exact plain_exit
    · split
      · exact plain_exit
      · refine (plain_set fun _ => rfl).bind fun _ => ?_
        exact plain_set fun _ => rfl

/-- What follows a date or the time of a file: the start time is reset, if the environment
does not say otherwise. -/
theorem plain_resetUnless {β : Type} {p : Sys β} (h : locks) (hp : p.Uses (Plain locks)) :
    (getenv .faketimeDontReset >>= fun e =>
      if e.isNone = true then resetTime >>= fun _ => p else p).Uses (Plain locks) := by
  refine plain_call rfl fun e => ?_
  split
  · exact (plain_resetTime h).bind fun _ => hp
  · exact hp

theorem plain_parseStartAt (h : locks) (text : CStr) :
    (parseStartAt B text).Uses (Plain locks) := by
  refine (plain_set fun _ => rfl).bind fun _ =>
    (plain_parseDate _ _ _).bind fun _ => plain_call rfl fun e => ?_
  split
  · exact plain_resetTime h
  · exact uses_pure _

theorem plain_parseFollow (h : locks) (text : CStr) :
    (parseFollow text).Uses (Plain locks) := by
  have hlast : (load >>= fun s => if s.userFakedTimeSet = true then pure ()
      else parseModifiers text).Uses (Plain locks) := by
    refine plain_call rfl fun s => ?_
    split
    · exact uses_pure _
    · exact plain_parseModifiers _
  have hreset := plain_resetUnless h hlast
  refine (plain_set fun _ => rfl).bind fun _ =>
    plain_call rfl fun r => ?_
  cases r with
  | none => exact plain_exit
  | some path =>
    refine plain_call rfl fun m => ?_
    cases m with
    | none => exact plain_exit
    | some mtime =>
      refine (plain_set fun _ => rfl).bind fun _ =>
        plain_call rfl fun e => ?_
      split
      · exact (plain_set fun _ => rfl).bind fun _ => hreset
      · refine (plain_set fun _ => rfl).bind fun _ => ?_
        refine (plain_set fun _ => rfl).bind fun _ => ?_
        exact (plain_set fun _ => rfl).bind fun _ => hreset

theorem plain_parseByPrefix (h : locks) (text : CStr) :
    (parseByPrefix B text).Uses (Plain locks) := by
  unfold parseByPrefix
  split
  · exact (plain_parseOffset _).bind fun _ => plain_parseModifiers _
  · exact (plain_parseOffset _).bind fun _ => plain_parseModifiers _
  · exact (plain_parseStartAt h _).bind fun _ => plain_parseModifiers _
  · exact plain_parseFollow h _
  · exact plain_parseModifiers _
  · exact plain_parseModifiers _
  · exact (plain_parseAbsolute _).bind fun _ => plain_parseModifiers _

theorem refreshing_parseFtString (h : locks) (text : CStr) :
    (parseFtString B text).Uses (Refreshing locks) := by
  refine refreshing_call rfl fun s => ?_
  split
  · exact uses_pure _
  · exact (refreshing_of_plain (plain_parseByPrefix h _)).bind fun _ =>
      refreshing_set (fun _ => rfl) fun _ => rfl

end Settings

/-! ### The configuration -/

section Config

/-- The calls that look at the process and at what is outside. -/
def Op.Inspects : Op → Prop
  | .load | .getenv _ | .realClockGettime _ | .realStat _ | .openRead _ | .read _ _
  | .close _ => True
  | .perror _ | .exit _ _ | .stalled => True
  | _ => False

theorem Op.Inspects.idle {o : Op} (ho : o.Inspects) : o.Idle := by
  cases o
  all_goals first | exact ho.elim | rfl

theorem inspects_call {γ : Type} {o : Op} {f : o.Ans → Sys γ} (ho : o.Inspects)
    (hf : ∀ r, (f r).Uses Op.Inspects) : (perform (I := sys) o >>= f).Uses Op.Inspects :=
  uses_perform_bind ho hf

theorem inspects_openFirst (paths : List CStr) : (openFirst paths).Uses Op.Inspects := by
  induction paths with
  | nil => exact uses_pure _
  | cons path rest ih =>
    refine inspects_call trivial fun fd => ?_
    cases fd with
    | none => exact ih
    | some fd => exact uses_pure _

theorem inspects_readLoop (fuel fd : ℕ) (buffer : CStr) (bytes : ℤ) :
    (readLoop fuel fd buffer bytes).Uses Op.Inspects := by
  induction fuel generalizing buffer bytes with
  | zero => exact ⟨trivial, fun e => Empty.elim e⟩
  | succ fuel ih =>
    unfold readLoop
    split
    · refine inspects_call trivial fun r => ?_
      cases r with
      | failed => exact uses_pure _
      | bytes l =>
        dsimp only
        split
        · exact uses_pure _
        · exact ih _ _
    · exact uses_pure _

theorem inspects_configContents (fd : ℕ) : (configContents fd).Uses Op.Inspects := by
  refine (inspects_readLoop _ _ _ _).bind fun r => Uses.bind ?_ fun bytes =>
    inspects_call trivial fun closed => ?_
  · unfold probeEnd
    split
    · refine inspects_call trivial fun l => ?_
      cases l <;> exact uses_pure _
    · exact uses_pure _
  · split
    · exact inspects_call trivial fun _ => uses_pure _
    · split
      · exact inspects_call trivial fun _ => uses_pure _
      · split
        · exact inspects_call trivial fun _ => uses_pure _
        · split
          · exact inspects_call trivial fun _ => uses_pure _
          · exact uses_pure _

/-- The configuration file is looked for and read by calls that change nothing. -/
theorem inspects_findConfig : findConfig.Uses Op.Inspects := by
  refine inspects_call trivial fun e => inspects_call trivial fun e' =>
    (inspects_openFirst _).bind fun fd => ?_
  cases fd with
  | none => exact uses_pure _
  | some fd => exact inspects_configContents fd

theorem plain_findConfig : findConfig.Uses (Plain locks) :=
  inspects_findConfig.mono fun _ ho => plain_of_idle ho.idle

theorem refreshing_readConfigFile (h : locks) : (readConfigFile B).Uses (Refreshing locks) := by
  refine (refreshing_of_plain plain_findConfig).bind fun r => ?_
  cases r with
  | error result => exact uses_pure _
  | ok contents => exact (refreshing_parseFtString h _).bind fun _ => uses_pure _

theorem refreshing_getFakeMonotonicSetting : getFakeMonotonicSetting.Uses (Refreshing locks) := by
  have hlast : ∀ r, (assignFakeMonotonic r).Uses (Refreshing locks) := by
    intro r
    cases r with
    | none => exact uses_pure _
    | some v => exact refreshing_set (fun _ => rfl) fun _ => rfl
  refine refreshing_call rfl fun r => ?_
  cases r with
  | none => exact refreshing_call rfl hlast
  | some v => exact hlast (some v)

theorem untouched_expireCache (now : ℤ) (s : Proc) :
    (Proc.expireCache now s).kept = s.kept ∧
      (Proc.expireCache now s).limitState = s.limitState := by
  obtain ⟨expired, force, hs⟩ := Proc.exists_expireCache now s
  rw [hs]
  exact ⟨rfl, rfl⟩

theorem refreshing_refreshConfig (h : locks) : (refreshConfig B).Uses (Refreshing locks) := by
  have hmono : getFakeMonotonicSetting.Uses (Refreshing locks) := refreshing_getFakeMonotonicSetting
  refine refreshing_call rfl fun now => ?_
  refine (refreshing_set (fun s => (untouched_expireCache _ s).1)
    fun s => (untouched_expireCache _ s).2).bind fun _ => refreshing_call rfl fun s => ?_
  split
  · refine refreshing_call rfl fun e => ?_
    refine (refreshing_set (fun _ => rfl) fun _ => rfl).bind fun _ =>
      refreshing_call rfl fun s => ?_
    split
    · refine (refreshing_readConfigFile h).bind fun r => ?_
      split
      · exact (refreshing_parseFtString h _).bind fun _ => hmono
      · exact hmono
    · exact (refreshing_parseFtString h _).bind fun _ => hmono
  · exact uses_pure _

end Config

/-! ### The query -/

section Query

theorem counting_limitsAndSpawn (clkId : ClockId) (tp : Timespec) :
    (limitsAndSpawn clkId tp).Uses (Counting locks) := by
  have hload : ∀ {γ : Type} {f : Proc → Sys γ}, (∀ s, (f s).Uses (Counting locks)) →
      (load >>= f).Uses (Counting locks) := fun hf =>
    uses_perform_bind (I := sys) (o := .load) ⟨aloof_of_passive rfl, trivial⟩ hf
  refine Uses.bind (hload fun s => ?_) fun _ => hload fun s => ?_
  · split
    · exact counting_set (fun _ => rfl) fun _ => rfl
    · exact uses_pure _
  · split
    · dsimp only
      split
      · exact uses_pure _
      · split
        · refine (counting_set (fun _ => rfl) fun _ => rfl).bind fun _ => ?_
          exact uses_perform_bind (I := sys) (o := .spawn) ⟨aloof_of_passive rfl, trivial⟩
            fun _ => uses_pure _
        · exact uses_pure _
    · exact uses_pure _

theorem aloof_limitsAndSpawn (clkId : ClockId) (tp : Timespec) :
    (limitsAndSpawn clkId tp).Uses (Aloof locks) :=
  (counting_limitsAndSpawn clkId tp).mono fun _ => And.left

theorem plain_nextTime (h : locks) (retries : ℕ) (tp : Timespec) (ticklen : Proc → Timespec) :
    (nextTime retries tp ticklen).Uses (Plain locks) := by
  induction retries with
  | zero => exact plain_stalled
  | succ retries ih =>
    refine plain_call rfl fun s => ?_
    split
    · refine plain_shared h trivial fun r => ?_
      cases r with
      | interrupted => exact ih
      | failed => exact plain_exit
      | acquired =>
        refine plain_call rfl fun s₁ => plain_call rfl fun d =>
          plain_call rfl fun s₂ => plain_shared h trivial fun _ =>
            plain_shared h trivial fun b => ?_
        split
        · exact uses_pure _
        · exact plain_exit.bind fun _ => uses_pure _
    · exact uses_pure _

/-- The calls that save a time. -/
def Saves : Op → Prop
  | .load | .ftSemLock | .ftSemUnlock | .write _ | .perror _ | .exit _ _ | .stalled => True
  | _ => False

theorem saves_writeAllLoop (fuel : ℕ) (rest : List UInt8) (interrupted : ℕ) :
    (writeAllLoop fuel rest interrupted).Uses Saves := by
  induction fuel generalizing rest interrupted with
  | zero => exact ⟨trivial, fun e => Empty.elim e⟩
  | succ fuel ih =>
    unfold writeAllLoop
    split
    · exact uses_pure _
    · refine uses_perform_bind trivial fun r => ?_
      cases r with
      | interrupted =>
        dsimp only
        split
        · exact uses_pure _
        · exact ih _ _
      | failed => exact uses_pure _
      | wrote n =>
        dsimp only
        split
        · exact uses_pure _
        · split
          · exact uses_pure _
          · exact ih _ _

theorem saves_lockForSave (retries : ℕ) : (lockForSave retries).Uses Saves := by
  induction retries with
  | zero => exact ⟨trivial, fun e => Empty.elim e⟩
  | succ retries ih =>
    refine uses_perform_bind trivial fun r => ?_
    cases r with
    | acquired => exact uses_pure _
    | interrupted => exact ih
    | failed => exact ⟨trivial, fun e => Empty.elim e⟩

theorem saves_saveTime (retries : ℕ) (tp : Timespec) : (saveTime retries tp).Uses Saves := by
  have hlast : (ftSemUnlock >>= fun b => if b = true then pure ()
      else exit 1 "libfaketime: In save_time(), ft_sem_unlock failed").Uses Saves := by
    refine uses_perform_bind trivial fun b => ?_
    split
    · exact uses_pure _
    · exact ⟨trivial, fun e => Empty.elim e⟩
  refine uses_perform_bind trivial fun s => ?_
  split
  · refine (saves_lockForSave _).bind fun _ => (saves_writeAllLoop _ _ _).bind fun b => ?_
    split
    · exact hlast
    · exact uses_perform_bind trivial fun _ => hlast
  · exact uses_pure _

theorem plain_saveTime (h : locks) (retries : ℕ) (tp : Timespec) :
    (saveTime retries tp).Uses (Plain locks) := by
  refine (saves_saveTime retries tp).mono fun o ho => ?_
  cases o
  case ftSemLock | ftSemUnlock => exact plain_of_shared h trivial
  case load | write | perror | exit | stalled => exact plain_of_idle rfl
  all_goals exact ho.elim

theorem detached_call {γ : Type} {o : Op} {f : o.Ans → Sys γ} (ho : Plain locks o)
    (hf : ∀ r, (f r).Uses (Detached locks)) :
    (perform (I := sys) o >>= f).Uses (Detached locks) := uses_perform_bind ho.1 hf

theorem plain_handOver (h : locks) : handOver.Uses (Plain locks) := by
  refine plain_call rfl fun d => ?_
  split
  · exact plain_shared h trivial fun _ =>
      plain_systemTimeFromSystem.bind fun _ => plain_publishStarttime h
  · exact plain_sharedToSystemTime

/-- The end of the replay gives the file back and says so. -/
theorem detached_leaveReplay (h : locks) : leaveReplay.Uses (Detached locks) := by
  refine (detached_of_plain (plain_set fun _ => rfl)).bind fun _ =>
    (detached_of_plain (plain_handOver h)).bind fun _ => ?_
  refine uses_perform_bind ⟨aloof_of_passive rfl, trivial⟩ fun _ => ?_
  exact detached_set ⟨fun s => ⟨rfl, fun _ => rfl⟩, fun _ => rfl⟩ fun _ => rfl

theorem routine_cacheTimes (clkId : ClockId) (real fake : Timespec) :
    RoutineStore (Proc.cacheTimes clkId real fake) := by
  refine routine_of_eq (fun s => ?_) (fun s => ?_) fun s => ?_
  all_goals
    obtain ⟨reals, fakes, hs⟩ := Proc.exists_cacheTimes clkId real fake s
    simp only [hs, Proc.fixed, Proc.once]

theorem detached_loadTime (h : locks) (retries : ℕ) (tp : Timespec) :
    (loadTime retries tp).Uses (Detached locks) := by
  have hunlock : ∀ r : Bool × Timespec, (ftSemUnlock >>= fun b => if b = true then pure r
      else (exit 1 "libfaketime: In load_time(), ft_sem_unlock failed" >>= fun _ : Unit =>
        pure r)).Uses (Plain locks) := by
    intro r
    refine plain_shared h trivial fun b => ?_
    split
    · exact uses_pure _
    · exact plain_exit.bind fun _ => uses_pure _
  induction retries with
  | zero => exact detached_of_plain plain_stalled
  | succ retries ih =>
    refine detached_call (plain_of_idle rfl) fun s => ?_
    dsimp only
    split
    · refine detached_call (plain_of_shared h trivial) fun r => ?_
      cases r with
      | interrupted => exact ih
      | failed => exact detached_of_plain plain_exit
      | acquired =>
        refine detached_call (plain_of_idle rfl) fun d => ?_
        split
        · exact (detached_leaveReplay h).bind fun _ => detached_of_plain (hunlock _)
        · refine detached_of_plain (plain_call rfl fun s => ?_)
          exact plain_shared h trivial fun _ => hunlock _
    · exact uses_pure _

theorem plain_fakeByMode (h : locks) (clkId : ClockId) (tp : Timespec) :
    (fakeByMode B clkId tp).Uses (Plain locks) := by
  refine plain_call rfl fun s => ?_
  split
  · exact uses_pure _
  · split
    · exact (plain_nextTime h _ _ _).bind fun _ => uses_pure _
    · exact uses_pure _
  · exact uses_pure _

/-- What comes after the refresh: replay, and the switch on the mode. -/
theorem detached_replay (h : locks) (clkId : ClockId) (tp : Timespec) :
    (load >>= fun s =>
      if s.infileSet = true then loadTime B.retries tp >>= fun r =>
        if r.1 = true then pure (.abort 0 r.2) else fakeByMode B clkId r.2
      else fakeByMode B clkId tp : Sys Outcome).Uses (Detached locks) := by
  refine detached_call (plain_of_idle rfl) fun s => ?_
  split
  · refine (detached_loadTime h _ _).bind fun r => ?_
    split
    · exact uses_pure _
    · exact detached_of_plain (plain_fakeByMode h _ _)
  · exact detached_of_plain (plain_fakeByMode h _ _)

theorem inner_fakeLocked (h : locks) (clkId : ClockId) (tp : Timespec) :
    (fakeLocked B clkId tp).Uses (Inner locks) := by
  refine (inner_of_aloof (aloof_limitsAndSpawn _ _)).bind fun b => ?_
  split
  · exact uses_pure _
  · exact (inner_of_refreshing (refreshing_refreshConfig h)).bind fun _ =>
      inner_of_aloof (aloof_of_detached (detached_replay h clkId tp))

/-- At the end of a query the last times are assigned. -/
theorem prompt_fakeClockGettime (h : locks) (clkId : ClockId) (tp : Timespec) :
    (fakeClockGettime B clkId tp).Uses (Prompt locks) := by
  have hlast : ∀ out, (finishQuery B clkId tp out).Uses (Prompt locks) := by
    intro out
    cases out with
    | abort code tp' => exact uses_pure _
    | faked tp' =>
      exact (prompt_of_inner (inner_of_plain (plain_saveTime h _ _))).bind fun _ =>
        (uses_perform (I := sys) ⟨routine_cacheTimes _ _ _, rfl⟩).bind fun _ => uses_pure _
  have hlocked := prompt_of_inner (inner_fakeLocked (B := B) h clkId tp)
  refine uses_perform_bind ⟨trivial, rfl⟩ fun b => ?_
  split
  · exact uses_pure _
  · split
    · exact uses_perform_bind ⟨trivial, rfl⟩ fun s => uses_pure _
    · cases B.pthreadSinglethreadedTime with
      | true =>
        refine uses_perform_bind ⟨h, rfl⟩ fun _ => hlocked.bind fun out => ?_
        exact uses_perform_bind ⟨h, rfl⟩ fun _ => hlast out
      | false => exact hlocked.bind fun out => hlast out

end Query

/-! ### The other functions

The functions that do not report the time themselves use `fake_clock_gettime` as a whole,
and what is shown of it call by call is shown of them in the same way, whatever it is. -/

/-- The calls that touch neither variables nor locks nor the shared block, nor write files, and
that belong to neither the limits nor the replay. -/
def Op.Aside : Op → Prop
  | .store _ | .setDontFake _ | .setenv _ _ | .writeShared _ | .spawn | .munmapStss => False
  | .fopenWrite _ | .fprintf _ | .fclose => False
  | .ftSemLock | .ftSemUnlock | .timeMutexLock | .timeMutexUnlock => False
  | _ => True

/-- A judgement on programs that passes from their parts to the whole and that
`fake_clock_gettime` meets, as well as the few assignments made outside it. -/
structure Covers (B : Build) (J : {β : Type} → Sys β → Prop) : Prop where
  ret : ∀ {β : Type} (a : β), J (pure a : Sys β)
  seq : ∀ {β γ : Type} {p : Sys β} {f : β → Sys γ}, J p → (∀ a, J (f a)) → J (p >>= f)
  call : ∀ o : Op, o.Aside → J (perform (I := sys) o)
  query : ∀ clkId tp, J (fakeClockGettime B clkId tp)
  monotonic : J getFakeMonotonicSetting
  normalize : J (store fun s => { s with
    userFakedTimeTimespec := normalizeTimespecValue s.userFakedTimeTimespec })

section Others

variable {J : {β : Type} → Sys β → Prop} (hJ : Covers B J)

include hJ

theorem Covers.step {γ : Type} {o : Op} {f : o.Ans → Sys γ} (ho : o.Aside) (h : ∀ r, J (f r)) :
    J (perform (I := sys) o >>= f) := hJ.seq (hJ.call o ho) h

theorem Covers.exit {γ : Type} (code : ℤ) (msg : String) : J (exit code msg : Sys γ) :=
  hJ.step (o := .exit code msg) trivial fun e => Empty.elim e

theorem Covers.fakeTimestamp (t : Timespec) : J (fakeTimestamp B t) :=
  hJ.seq (hJ.query _ _) fun _ => hJ.ret _

theorem Covers.fakeStatxTimestamp (t : Option Timespec) : J (fakeStatxTimestamp B t) := by
  cases t with
  | none => exact hJ.ret _
  | some t => exact hJ.seq (hJ.fakeTimestamp t) fun _ => hJ.ret _

theorem Covers.fakeStatbuf (hlock : J (lockForStat B.retries)) (hunlock : J unlockForStat)
    (buf : Stat) : J (fakeStatbuf B buf) :=
  hJ.seq hlock fun _ => hJ.seq (hJ.fakeTimestamp _) fun _ => hJ.seq (hJ.fakeTimestamp _) fun _ =>
    hJ.seq (hJ.fakeTimestamp _) fun _ => hJ.seq hunlock fun _ => hJ.ret _

theorem Covers.fakeStatxbuf (hlock : J (lockForStat B.retries)) (hunlock : J unlockForStat)
    (buf : Statx) : J (fakeStatxbuf B buf) :=
  hJ.seq hlock fun _ => hJ.seq (hJ.fakeStatxTimestamp _) fun _ =>
    hJ.seq (hJ.fakeStatxTimestamp _) fun _ => hJ.seq (hJ.fakeStatxTimestamp _) fun _ =>
      hJ.seq (hJ.fakeStatxTimestamp _) fun _ => hJ.seq hunlock fun _ => hJ.ret _

theorem Covers.statHandlerCommon {β : Type} {fake : β → Sys β} (h : ∀ buf, J (fake buf))
    (buf : β) : J (statHandlerCommon fake buf) := by
  refine hJ.step trivial fun s => ?_
  split
  · exact hJ.ret _
  · refine hJ.step trivial fun b => ?_
    split
    · exact hJ.ret _
    · exact h buf

theorem Covers.realRequest (clkId : ClockId) (abstime : Bool) (req : Timespec) :
    J (realRequest clkId abstime req) := by
  unfold LibFaketime.realRequest
  split
  · refine hJ.step trivial fun s => ?_
    dsimp only
    split
    · exact hJ.step trivial fun _ => hJ.ret _
    · split
      · exact hJ.seq hJ.monotonic fun _ => hJ.step trivial fun _ => hJ.ret _
      · exact hJ.ret _
  · refine hJ.step trivial fun s => hJ.step trivial fun b => ?_
    split <;> exact hJ.ret _

theorem Covers.clockNanosleep (clkId : ClockId) (abstime : Bool) (req : Timespec) :
    J (clockNanosleep clkId abstime req) := by
  refine hJ.seq (hJ.realRequest _ _ _) fun r => hJ.step trivial fun r => ?_
  dsimp only
  split
  · exact hJ.ret _
  · split
    · exact hJ.ret _
    · refine hJ.step trivial fun s => hJ.step trivial fun b => ?_
      split <;> exact hJ.ret _

theorem Covers.realSetting (skip abstime : Bool) (clkId : ClockId) (new : Option Itimerspec) :
    J (realSetting skip abstime clkId new) := by
  unfold LibFaketime.realSetting
  split
  · exact hJ.ret _
  · split
    · exact hJ.ret _
    · refine hJ.seq ?_ fun _ => hJ.seq (hJ.step trivial fun _ => hJ.ret _) fun _ => hJ.ret _
      unfold realValue
      split
      · exact hJ.ret _
      · split
        · refine hJ.step trivial fun s => ?_
          split
          · exact hJ.seq hJ.normalize fun _ => hJ.step trivial fun _ => hJ.ret _
          · split <;> exact hJ.ret _
        · exact hJ.step trivial fun _ => hJ.ret _

theorem Covers.timerSettimeCommon (abstime : Bool) (clkId : ClockId) (new : Option Itimerspec) :
    J (timerSettimeCommon B abstime clkId new) := by
  refine hJ.step trivial fun skip => hJ.seq (hJ.realSetting _ _ _ _) fun newReal =>
    hJ.step trivial fun r => ?_
  dsimp only
  split
  · exact hJ.ret _
  · split
    · exact hJ.ret _
    · split
      · exact hJ.ret _
      · split
        · exact hJ.step trivial fun _ => hJ.ret _
        · exact hJ.seq (hJ.query _ _) fun _ => hJ.step trivial fun _ => hJ.ret _

theorem Covers.condWait (clkId : ClockId) (abstime realtime faketime : Timespec) :
    J (condWait clkId abstime realtime faketime) := by
  refine hJ.step trivial fun v => ?_
  cases v with
  | none =>
    refine hJ.step trivial fun s => ?_
    split
    · refine hJ.step trivial fun r => ?_
      cases r <;> exact hJ.ret _
    · exact hJ.ret _
  | some v =>
    dsimp only
    split
    · exact hJ.exit _ _
    · split
      · exact hJ.exit _ _
      · refine hJ.step trivial fun r => ?_
        cases r <;> exact hJ.ret _

theorem Covers.condDeadline (clkId : ClockId) (tdiff realtime faketime : Timespec) :
    J (condDeadline clkId tdiff realtime faketime) := by
  unfold LibFaketime.condDeadline
  split
  · refine hJ.step trivial fun s => ?_
    split
    · refine hJ.step trivial fun r => ?_
      cases r <;> exact hJ.ret _
    · refine hJ.seq (hJ.step trivial fun v => ?_) fun b => ?_
      · cases v <;> exact hJ.ret _
      · split <;> exact hJ.ret _
  · exact hJ.ret _

theorem Covers.pthreadCondTimedwaitCommon (clkId : ClockId) (abstime : Timespec) :
    J (pthreadCondTimedwaitCommon B clkId abstime) := by
  refine hJ.step trivial fun r => ?_
  cases r with
  | none => exact hJ.ret _
  | some realtime =>
    refine hJ.seq (hJ.query _ _) fun fake => hJ.seq (hJ.condWait _ _ _ _) fun r => ?_
    cases r with
    | error result => exact hJ.ret _
    | ok w =>
      refine hJ.seq (hJ.condDeadline _ _ _ _) fun r => ?_
      cases r with
      | error result => exact hJ.ret _
      | ok deadline => exact hJ.call _ trivial

end Others

/-! ### Routine calls, everywhere -/

theorem plain_lockForStat (h : locks) (retries : ℕ) :
    (lockForStat retries).Uses (Plain locks) := by
  have hoff : (store (fun s => { s with userPerTickIncSetBackup := s.userPerTickIncSet }) >>=
    fun _ =>
      store fun s => { s with userPerTickIncSet := false }).Uses (Plain locks) :=
    (plain_set fun _ => rfl).bind fun _ =>
      plain_set fun _ => rfl
  induction retries with
  | zero => exact plain_stalled
  | succ retries ih =>
    refine plain_call rfl fun s => ?_
    split
    · refine plain_shared h trivial fun r => ?_
      cases r with
      | interrupted => exact ih
      | failed => exact plain_exit
      | acquired => exact hoff
    · exact hoff

theorem plain_unlockForStat (h : locks) : unlockForStat.Uses (Plain locks) := by
  refine (plain_set fun _ => rfl).bind fun _ =>
    plain_call rfl fun s => ?_
  split
  · refine plain_shared h trivial fun b => ?_
    split
    · exact uses_pure _
    · exact plain_exit
  · exact uses_pure _

/-- The critical section is made of routine calls. -/
theorem plain_agreeOnStarttime (h : locks) :
    agreeOnStarttime.Uses (Plain locks) := by
  refine plain_call rfl fun s => ?_
  split
  · refine plain_shared h trivial fun r => ?_
    have hunlock : (ftSemUnlock >>= fun b => if b = true then pure ()
        else exit 1 "libfaketime: In ftpl_init(), ft_sem_unlock failed" : Sys Unit).Uses
          (Plain locks) := by
      refine plain_shared h trivial fun b => ?_
      split
      · exact uses_pure _
      · exact plain_exit
    cases r with
    | acquired =>
      refine plain_call rfl fun d => ?_
      split
      · exact (plain_systemTimeFromSystem.bind fun _ => plain_publishStarttime h).bind
          fun _ => hunlock
      · exact plain_sharedToSystemTime.bind fun _ => hunlock
    | interrupted => exact plain_exit
    | failed => exact plain_exit
  · exact plain_systemTimeFromSystem

/-- Every function makes routine calls only. -/
theorem covers_routine (h : locks) : Covers B fun p => p.Uses (Routine locks) where
  ret _ := uses_pure _
  seq := Uses.bind
  call o ho := uses_perform (by cases o <;> trivial)
  query clkId tp := routine_of_prompt (prompt_fakeClockGettime h clkId tp)
  monotonic := routine_of_inner (inner_of_refreshing refreshing_getFakeMonotonicSetting)
  normalize := routine_of_inner (inner_set fun _ => rfl)

/-! ### Runs of routine calls -/

section RoutineRuns

variable {β : Type} {w w' : World}

/-- A call other than an assignment leaves the variables alone. -/
theorem proc_of_seq {o : Op} {r : o.Ans} (hstore : ∀ f, o ≠ .store f)
    (hset : ∀ b, o ≠ .setDontFake b)
    (henv : ∀ v value, o ≠ .setenv v value) (h : seq w o = .ok (r, w')) :
    w'.proc = w.proc ∧ w'.dontFake = w.dontFake ∧ w'.os = w.os := by
  have hask : ∀ {f : o.Ans → World → World}, w.ask o f = .ok (r, w') →
      (∀ r v, (f r v).proc = v.proc ∧ (f r v).dontFake = v.dontFake ∧ (f r v).os = v.os) →
      w'.proc = w.proc ∧ w'.dontFake = w.dontFake ∧ w'.os = w.os := by
    intro f heq hf
    obtain ⟨-, rfl⟩ := World.ask_eq_ok heq
    exact hf r w.tick
  cases o
  case store f => exact absurd rfl (hstore f)
  case setDontFake b => exact absurd rfl (hset b)
  case setenv v value => exact absurd rfl (henv v value)
  case load | dontFake | timeMutexUnlock | readShared | writeShared | read | munmapStss | spawn |
      perror =>
    cases h
    exact ⟨rfl, rfl, rfl⟩
  case ftSemLock =>
    rw [seq_ftSemLock] at h
    split at h
    · cases h
    · exact hask h fun _ _ => ⟨rfl, rfl, rfl⟩
  case ftSemUnlock =>
    rw [seq_ftSemUnlock] at h
    exact hask h fun _ _ => ⟨rfl, rfl, rfl⟩
  case write bytes =>
    rw [seq_write] at h
    exact hask h fun _ _ => ⟨rfl, rfl, rfl⟩
  case timeMutexLock =>
    rw [seq_timeMutexLock] at h
    split at h
    · cases h
    · cases h
      exact ⟨rfl, rfl, rfl⟩
  case openRead path =>
    rw [seq_openRead] at h
    split at h
    · cases h
      exact ⟨rfl, rfl, rfl⟩
    · cases h
      exact ⟨rfl, rfl, rfl⟩
  case exit => cases h
  case stalled => cases h
  all_goals exact hask (f := fun _ w => w) h fun _ _ => ⟨rfl, rfl, rfl⟩

/-- A routine call leaves alone what is read once, the threads that are excluded, and the
environment. -/
theorem once_of_run {p : Sys β} (hp : p.Uses (Routine locks)) {a : β}
    (h : p.run seq w = .ok (a, w')) :
    w'.proc.once = w.proc.once ∧ w'.dontFake = w.dontFake ∧ w'.os = w.os := by
  refine hp.invariant_run (J := fun v => v.proc.once = w.proc.once ∧ v.dontFake = w.dontFake ∧
    v.os = w.os) (fun v o r v' ho hv hr => ?_) ⟨rfl, rfl, rfl⟩ h
  by_cases hstore : ∃ f, o = .store f
  · obtain ⟨f, rfl⟩ := hstore
    cases hr
    exact ⟨(ho.2 v.proc).trans hv.1, hv.2⟩
  · obtain ⟨h₁, h₂, h₃⟩ := proc_of_seq (fun f hf => hstore ⟨f, hf⟩) (by rintro b rfl; exact ho)
      (by rintro x value rfl; exact ho) hr
    exact ⟨by rw [h₁]; exact hv.1, h₂.trans hv.2.1, h₃.trans hv.2.2⟩

/-- **What every assignment keeps, a run keeps**, of calls that are routine. -/
theorem proc_of_run {A : Op → Prop} {J : Proc → Prop} {p : Sys β} (hp : p.Uses A)
    (hA : ∀ o, A o → Routine locks o) (hstore : ∀ f, A (.store f) → ∀ s, J s → J (f s))
    (hw : J w.proc) : p.Ends seq w fun _ w' => J w'.proc := by
  refine hp.ends (J := fun v : World => J v.proc) (fun v o r v' ho hv hr => ?_) hw
  by_cases hf : ∃ f, o = .store f
  · obtain ⟨f, rfl⟩ := hf
    cases hr
    exact hstore f ho v.proc hv
  · obtain ⟨h₁, -, -⟩ := proc_of_seq (fun f h => hf ⟨f, h⟩) (by rintro b rfl; exact hA _ ho)
      (by rintro x value rfl; exact hA _ ho) hr
    rw [h₁]
    exact hv

/-- Calls that are not about the configuration leave it alone. -/
theorem fetched_of_run {p : Sys β} (hp : p.Uses (Aloof locks)) :
    p.Ends seq w fun _ w' => w'.proc.fetched = w.proc.fetched :=
  proc_of_run (J := fun s => s.fetched = w.proc.fetched) hp (fun _ ho => ho.1.1.1)
    (fun _ hf s hs => (hf.2 s).trans hs) rfl

/-- Calls that are not about the limits leave them alone. -/
theorem limitState_of_run {p : Sys β} (hp : p.Uses fun o : Op => Routine locks o ∧ o.KeepsLimits) :
    p.Ends seq w fun _ w' => w'.proc.limitState = w.proc.limitState :=
  proc_of_run (J := fun s => s.limitState = w.proc.limitState) hp (fun _ ho => ho.1)
    (fun _ hf s hs => (hf.2 s).trans hs) rfl

/-- What is set up once and for all stays. -/
theorem fixed_of_run {p : Sys β} (hp : p.Uses (Routine locks)) :
    p.Ends seq w fun _ w' => w'.proc.fixed = w.proc.fixed :=
  proc_of_run (J := fun s => s.fixed = w.proc.fixed) hp (fun _ ho => ho)
    (fun _ hf s hs => (hf.1 s).1.trans hs) rfl

end RoutineRuns

/-! ### Other answers -/

section Silent

variable {A : Op → Bool} {g : ℕ → (o : Op) → Option o.Ans}

theorem Op.waits_of_unsettled {o : Op} (h : o.Unsettled = false) : o.Waits = false := by
  cases o <;> first | rfl | exact h

/-- The same world, except that the calls in `A` are answered by `g`. -/
def World.masked (w : World) (A : Op → Bool) (g : ℕ → (o : Op) → Option o.Ans) : World :=
  { w with os := fun n o => if A o then g n o else w.os n o }

/-- A call that is not in `A` does not notice. -/
theorem seq_masked {o : Op} (hA : A o = false) (henv : ∀ v, A (.getenv v) = false) (w : World) :
    seq (w.masked A g) o = (seq w o).map fun r => (r.1, r.2.masked A g) := by
  have hos : ∀ n, (w.masked A g).os n o = w.os n o := by
    intro n
    change (if A o then g n o else w.os n o) = w.os n o
    rw [hA, if_neg (by simp)]
  -- the calls the oracle answers
  have hask : ∀ {f : o.Ans → World → World}, seq (w.masked A g) o = (w.masked A g).ask o f →
      seq w o = w.ask o f → (∀ r v, f r (v.masked A g) = (f r v).masked A g) →
      seq (w.masked A g) o = (seq w o).map fun r => (r.1, r.2.masked A g) := by
    intro f hs hs' hf
    rw [hs, hs']
    unfold World.ask
    rw [show (w.masked A g).now = w.now from rfl, hos]
    cases w.os w.now o with
    | none => rfl
    | some r => exact congrArg (fun v => Except.ok (r, v)) (hf r w.tick)
  cases o
  case setenv v value =>
    refine hask seq_setenv seq_setenv fun r x => ?_
    cases r with
    | false => rfl
    | true =>
      refine congrArg (fun os => ({ x with os := os } : World)) ?_
      funext n o
      cases o
      case getenv y =>
        change (if y = v then _ else if A (.getenv y) then _ else _) =
          if A (.getenv y) then _ else _
        rw [henv]
        rfl
      all_goals rfl
  case ftSemLock =>
    by_cases hheld : w.semHeld = true
    · rw [seq_ftSemLock, seq_ftSemLock, show (w.masked A g).semHeld = w.semHeld from rfl,
        if_pos hheld, if_pos hheld]
      rfl
    · exact hask (if_neg hheld) (if_neg hheld) fun _ _ => rfl
  case timeMutexLock =>
    rw [seq_timeMutexLock, seq_timeMutexLock, show (w.masked A g).mutexHeld = w.mutexHeld from rfl]
    split <;> rfl
  case openRead path =>
    rw [seq_openRead, seq_openRead,
      show (w.masked A g).file (w.masked A g).now path = w.file w.now path from rfl]
    cases w.file w.now path <;> rfl
  case ftSemUnlock => exact hask seq_ftSemUnlock seq_ftSemUnlock fun _ _ => rfl
  case write bytes => exact hask seq_write seq_write fun _ _ => rfl
  all_goals first | rfl | exact hask (f := fun _ w => w) rfl rfl fun _ _ => rfl

/-- **Neither does a prompt program** if only unsettled calls are in `A`. -/
theorem run_masked {β : Type} {p : Sys β} (hp : p.Uses (Prompt locks))
    (hA : ∀ o, o.Unsettled = false → A o = false) (w : World) :
    p.run seq (w.masked A g) = (p.run seq w).map fun r => (r.1, r.2.masked A g) := by
  induction p generalizing w with
  | ret a => rfl
  | op o k ih =>
    rw [run_op, run_op, seq_masked (hA o hp.1.2) fun v => hA _ rfl]
    cases seq w o with
    | error x => rfl
    | ok r => exact ih r.1 (hp.2 r.1) r.2

theorem run_silent {β : Type} {p : Sys β} (hp : p.Uses (Prompt locks)) (w : World) :
    p.run seq w.silent = (p.run seq w).map fun r => (r.1, r.2.silent) :=
  run_masked hp (fun _ => Op.waits_of_unsettled) w

theorem runs_silent {β : Type} {p : Sys β} {w : World} {Q : β → World → Prop}
    (hp : p.Uses (Prompt locks)) (h : p.Runs seq w Q) :
    p.Runs seq w.silent fun r w' => ∃ v, w' = v.silent ∧ Q r v := by
  obtain ⟨r, v, hr, hq⟩ := h
  exact ⟨r, v.silent, by rw [run_silent hp, hr]; rfl, v, rfl, hq⟩

end Silent

end LibFaketime
