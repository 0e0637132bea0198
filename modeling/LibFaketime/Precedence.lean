import LibFaketime.Entry
import LibFaketime.Query

/-!
# Where the setting comes from

A setting can be in the environment variable `FAKETIME` or in one of three files, and with the
cache disabled every query looks for it again (`LibFaketime.Sources.setting`). The choice
between the variable and the files, however, is made once, when the process is initialized, by
whether the variable is set then: afterwards a variable that is set does not hide a file, and
the files of a process that was started with a variable are never looked at.

The main result is about the whole life of a process: a query goes on as if the setting it
should find had been handed to the parser, as long as the variable is set exactly if it was
set at the start, or there is no file to be found
(`LibFaketime.queries_use_current_setting`).
-/

namespace LibFaketime

open Effects Effects.Prog

/-! ### The life of a process -/

/-- **One step in the life of a process**: the environment, the files and everything else
outside change, or an intercepted function is called and returns. -/
inductive Life (B : Build) : World → World → Prop
  | outside {w : World} (os : ℕ → (o : Op) → Option o.Ans) (file : ℕ → CStr → Option CStr) :
      Life B w { w with os := os, file := file }
  | call {w w' : World} (e : Entry) (r : Reply) (h : (e.prog B).run seq w = .ok (r, w')) :
      Life B w w'

section Life

variable {β : Type} {B : Build} {locks : Prop} {w w' : World}

/-- What all assignments of the initialization keep holds when it returns. -/
theorem sets_of_run {K : Proc → Prop} {p : Sys β} (hp : p.Uses (Sets K)) {a : β} (hK : K w.proc)
    (h : p.run seq w = .ok (a, w')) : K w'.proc ∧ w'.os = w.os := by
  refine hp.invariant_run (J := fun v => K v.proc ∧ v.os = w.os) (fun v o r v' ho hv hr => ?_)
    ⟨hK, rfl⟩ h
  by_cases hstore : ∃ f, o = .store f
  · obtain ⟨f, rfl⟩ := hstore
    cases hr
    exact ⟨ho v.proc hv.1, hv.2⟩
  · by_cases hset : ∃ b, o = .setDontFake b
    · obtain ⟨b, rfl⟩ := hset
      cases hr
      exact hv
    · obtain ⟨h₁, -, h₃⟩ := proc_of_seq (fun f hf => hstore ⟨f, hf⟩) (fun b hb => hset ⟨b, hb⟩)
        (by rintro x value rfl; exact ho) hr
      exact ⟨by rw [h₁]; exact hv.1, h₃.trans hv.2⟩

/-- What the initialization has not touched when it comes to the setting of the user. -/
def Proc.unread (s : Proc) : Bool × CStr × Bool × ℤ × Bool :=
  (s.parseConfigFile, s.userFakedTimeSaved, s.forceCacheExpiration, s.lastDataFetch, s.cacheExpired)

/-- **The stages of the initialization**: what the first settings keep holds when the limits
and the files are read, and then come the start time and the setting of the user. -/
theorem exists_stages {K : Proc → Prop} (hun : Unaffected K)
    (hshared : ∀ b s, K s → K { s with sharedSemInitialized := b })
    (hmono : ∀ b s, K s → K { s with fakeMonotonicClock := b })
    (hmode : ∀ s, K s → K { s with ftMode := .noop }) (hK : K w.proc)
    (h : (ftplReallyInit B).run seq w = .ok ((), w')) :
    ∃ w₁ w₂ w₃ w₄, (K w₁.proc ∧ w₁.os = w.os) ∧
      readLimitsAndFiles.run seq w₁ = .ok ((), w₂) ∧ agreeOnStarttime.run seq w₂ = .ok ((), w₃) ∧
      (firstSetting B).run seq w₃ = .ok ((), w₄) ∧ w'.proc = w₄.proc := by
  obtain ⟨_, v₁, h₁, h⟩ := exists_of_run_bind h
  obtain ⟨hK₁, hos₁⟩ := sets_of_run (K := K)
    (uses_perform (I := sys) (o := .setDontFake true) trivial) hK h₁
  obtain ⟨_, v₂, h₂, h⟩ := exists_of_run_bind h
  obtain ⟨hK₂, hos₂⟩ := sets_of_run (uses_readSettings hun hshared hmono) hK₁ h₂
  obtain ⟨skipped, v₃, h₃, h⟩ := exists_of_run_bind h
  obtain ⟨hK₃, hos₃⟩ := sets_of_run (uses_skipCmds hmode) hK₂ h₃
  obtain ⟨excluded, v₄, h₄, h⟩ := exists_of_run_bind h
  obtain ⟨hK₄, hos₄⟩ := sets_of_run (uses_onlyCmds hmode) hK₃ h₄
  obtain ⟨_, v₅, h₅, h⟩ := exists_of_run_bind h
  obtain ⟨_, v₆, h₆, h⟩ := exists_of_run_bind h
  obtain ⟨_, v₇, h₇, h⟩ := exists_of_run_bind h
  refine ⟨v₄, v₅, v₆, v₇, ⟨hK₄, ?_⟩, h₅, h₆, h₇, ?_⟩
  · rw [hos₄, hos₃, hos₂, hos₁]
  · cases h
    rfl

/-- **The initialization up to the setting of the user**, and from there to its end. -/
theorem exists_firstSetting (h : (ftplReallyInit B).run seq w = .ok ((), w')) :
    ∃ w₁ w₂, w₁.proc.unread = w.proc.unread ∧ w₁.os = w.os ∧
      (firstSetting B).run seq w₁ = .ok ((), w₂) ∧ w'.proc = w₂.proc := by
  have hun : Unaffected fun s => s.unread = w.proc.unread := by
    constructor
    all_goals intros
    all_goals assumption
  obtain ⟨w₁, w₂, w₃, w₄, ⟨hK₁, hos₁⟩, h₂, h₃, h₄, hlast⟩ :=
    exists_stages hun (fun _ _ h => h) (fun _ _ h => h) (fun _ h => h) rfl h
  obtain ⟨hK₂, hos₂⟩ := sets_of_run (uses_readLimitsAndFiles hun (fun _ _ _ _ h => h)
    fun _ _ h => h) hK₁ h₂
  have haloof : agreeOnStarttime.Uses (Aloof True) :=
    aloof_of_plain (plain_agreeOnStarttime trivial)
  obtain ⟨honce₃, -, hos₃⟩ := once_of_run (routine_of_aloof haloof) h₃
  have hfetched₃ : w₃.proc.fetched = w₂.proc.fetched := fetched_of_run haloof _ _ h₃
  refine ⟨w₃, w₄, ?_, ?_, h₄, hlast⟩
  · rw [← hK₂]
    simp only [Proc.fetched, Proc.once, Proc.unread, Prod.mk.injEq] at honce₃ hfetched₃ ⊢
    exact ⟨honce₃.1, hfetched₃.1, hfetched₃.2.2.2⟩
  · rw [hos₃, hos₂, hos₁]

/-- **The choice of the source is made by the initialization**, by whether the variable is
set. -/
theorem latch_of_init {e : Option CStr} (hw : w.proc = Proc.initial)
    (henv : ∀ n, w.os n (.getenv .faketime) = some e)
    (h : (ftplReallyInit B).run seq w = .ok ((), w')) : w'.proc.parseConfigFile = e.isNone := by
  obtain ⟨w₁, w₂, hunread, hos, hfirst, hlast⟩ := exists_firstSetting h
  have hlatch : w₁.proc.parseConfigFile = true := by
    rw [show w₁.proc.parseConfigFile = w.proc.parseConfigFile from congrArg Prod.fst hunread, hw]
    rfl
  have henv₁ : w₁.os w₁.now (.getenv .faketime) = some e := by
    rw [hos]
    exact henv _
  rw [hlast]
  unfold firstSetting at hfirst
  rw [getenv, run_ask rfl henv₁] at hfirst
  cases e with
  | some setting =>
    rw [run_store] at hfirst
    obtain ⟨honce, -, -⟩ :=
      once_of_run (routine_of_refreshing (refreshing_parseFtString trivial _)) hfirst
    exact congrArg Prod.fst honce
  | none =>
    obtain ⟨honce, -, -⟩ := once_of_run
      ((routine_of_refreshing (refreshing_readConfigFile (B := B) trivial)).bind fun _ =>
        uses_pure _) hfirst
    exact (congrArg Prod.fst honce).trans hlatch

theorem routine_entry (e : Entry) : (e.prog B).Uses (Routine True) :=
  (covers_routine trivial).entry (routine_of_plain (plain_lockForStat trivial B.retries))
    (routine_of_plain (plain_unlockForStat trivial)) e

theorem Life.once (h : Life B w w') : w'.proc.once = w.proc.once ∧ w'.dontFake = w.dontFake := by
  cases h with
  | outside os file => exact ⟨rfl, rfl⟩
  | call e r h =>
    obtain ⟨h₁, h₂, -⟩ := once_of_run (routine_entry e) h
    exact ⟨h₁, h₂⟩

/-- **What is read once stays so for life.** -/
theorem once_of_life (h : Relation.ReflTransGen (Life B) w w') :
    w'.proc.once = w.proc.once ∧ w'.dontFake = w.dontFake := by
  induction h with
  | refl => exact ⟨rfl, rfl⟩
  | tail _ hstep ih => exact ⟨hstep.once.1.trans ih.1, hstep.once.2.trans ih.2⟩

end Life

/-! ### The sources of a setting -/

/-- The environment, and the contents of the files that can be opened. -/
structure Sources where
  env : EnvVar → Option CStr
  file : CStr → Option CStr

namespace Sources

/-- The configuration files, in the order in which they are looked for. -/
def paths (S : Sources) : List CStr :=
  [boundedPath (S.env .faketimeTimestampFile) [],
    boundedPath (S.env .home) "/.faketimerc".toList].filter (· ≠ []) ++ ["/etc/faketimerc".toList]

/-- The contents of the first of them that exists. -/
def configFile (S : Sources) : Option CStr := S.paths.findSome? S.file

/-- **The setting a query should use**: the environment variable if it is set, otherwise the
first file that exists, and otherwise no offset. -/
def setting (S : Sources) : CStr :=
  match S.env .faketime with
  | some v => v.take (bufferlen - 1)
  | none =>
    match S.configFile with
    | some contents => prepareConfigContents contents
    | none => "+0".toList

/-- A file that the library is able to use: it leaves room in the buffer and is a text. -/
def Usable (contents : CStr) : Prop := contents.length < bufferlen - 1 ∧ Char.ofNat 0 ∉ contents

instance (contents : CStr) : Decidable (Usable contents) := inferInstanceAs (Decidable (_ ∧ _))

/-- What `read_config_file` finds. -/
def contents (S : Sources) : Except ℤ CStr :=
  match S.configFile with
  | none => .error 0
  | some contents => if Usable contents then .ok contents else .error (-1)

/-- The text a refresh hands to the parser; `latch` is `parse_config_file`. A file that cannot
be used leaves everything as it is. -/
def used (S : Sources) (latch : Bool) : Option CStr :=
  if latch then
    match S.contents with
    | .ok contents => some (prepareConfigContents contents)
    | .error r => if r = 0 then some (defaultSetting (S.env .faketime)) else none
  else some (defaultSetting (S.env .faketime))

/-- **The latch does not matter**: there is no file, or the variable is set exactly if the
files are not looked at; and the file that is to be used can be used. -/
structure Followed (S : Sources) (latch : Bool) : Prop where
  latch : S.configFile = none ∨ ((S.env .faketime).isNone = latch)
  usable : S.env .faketime = none → ∀ contents, S.configFile = some contents → Usable contents

theorem Followed.used_eq {S : Sources} {latch : Bool} (h : S.Followed latch) :
    S.used latch = some S.setting := by
  unfold used setting contents defaultSetting
  cases hfile : S.configFile with
  | none =>
    cases latch <;> cases S.env .faketime <;> rfl
  | some contents =>
    have hlatch := h.latch.resolve_left (by rw [hfile]; simp)
    cases henv : S.env .faketime with
    | some v =>
      rw [henv] at hlatch
      rw [← hlatch]
      rfl
    | none =>
      rw [henv] at hlatch
      have husable : Usable contents := h.usable henv contents hfile
      obtain rfl : latch = true := hlatch.symm
      rw [if_pos rfl]
      dsimp only
      rw [if_pos husable]

end Sources

/-- The world has these sources, and files can be closed. -/
structure World.Shows (w : World) (S : Sources) : Prop where
  env : ∀ n v, w.os n (.getenv v) = some (S.env v)
  file : ∀ n, w.file n = S.file
  close : ∀ n fd, w.os n (.close fd) = some true

/-- Files have been read, and nothing else has happened. -/
def ReadOn (w w' : World) : Prop := ∃ m l, w' = { w with now := m, rest := l }

section Reading

variable {w w' w₁ : World} {S : Sources}

theorem ReadOn.refl (w : World) : ReadOn w w := ⟨_, _, rfl⟩

theorem ReadOn.trans (h : ReadOn w w₁) (h' : ReadOn w₁ w') : ReadOn w w' := by
  obtain ⟨m, l, rfl⟩ := h
  obtain ⟨m', l', rfl⟩ := h'
  exact ⟨m', l', rfl⟩

theorem World.Shows.readOn (hw : w.Shows S) (h : ReadOn w w') : w'.Shows S := by
  obtain ⟨m, l, rfl⟩ := h
  exact ⟨hw.env, hw.file, hw.close⟩

theorem runs_openFirst (hw : w.Shows S) (paths : List CStr) :
    (openFirst paths).Runs seq w fun r w' => ReadOn w w' ∧
      (match paths.findSome? S.file with
        | none => r = none
        | some contents => r = some 3 ∧ w'.rest = contents) := by
  induction paths generalizing w with
  | nil => exact runs_pure ⟨.refl w, rfl⟩
  | cons path paths ih =>
    have hopen : seq w (.openRead path) = match S.file path with
        | some contents => .ok (some 3, { w.tick with rest := contents })
        | none => .ok (none, { w.tick with rest := [] }) := by
      have hfile := congrFun (hw.file w.now) path
      cases h : S.file path <;> simp only [seq_openRead, hfile, h]
    rw [List.findSome?_cons]
    cases hfile : S.file path with
    | some contents =>
      rw [hfile] at hopen
      exact runs_perform_bind (I := sys) hopen (runs_pure ⟨⟨_, _, rfl⟩, rfl, rfl⟩)
    | none =>
      rw [hfile] at hopen
      have hread : ReadOn w { w.tick with rest := [] } := ⟨_, _, rfl⟩
      refine runs_perform_bind (I := sys) hopen ((ih (hw.readOn hread)).mono ?_)
      exact fun r w' h => ⟨hread.trans h.1, h.2⟩

/-- The read loop gets the whole file, or a full buffer. -/
theorem runs_readLoop (fuel fd : ℕ) :
    (readLoop (fuel + 2) fd [] 0).Runs seq w fun r w' => ReadOn w w' ∧
      r = if w.rest.length < bufferlen - 1 then (w.rest, 0)
        else (w.rest.take (bufferlen - 1), ((bufferlen - 1 : ℕ) : ℤ)) := by
  have hread : ∀ (w : World) n, seq w (.read fd n) =
      .ok (.bytes (w.rest.take n), { w with rest := w.rest.drop n }) := fun _ _ => rfl
  unfold readLoop
  rw [if_pos (by decide)]
  refine runs_perform_bind (I := sys) (hread _ _) ?_
  dsimp only
  rw [show bufferlen - 1 - ([] : CStr).length = bufferlen - 1 from rfl]
  by_cases hshort : w.rest.length < bufferlen - 1
  · rw [if_pos hshort, List.take_of_length_le hshort.le, List.drop_of_length_le hshort.le]
    split
    next hnil => exact runs_pure ⟨⟨_, _, rfl⟩, by rw [hnil]⟩
    next hnil =>
      unfold readLoop
      rw [List.nil_append, if_pos hshort]
      refine runs_perform_bind (I := sys) (hread _ _) ?_
      rw [List.take_nil]
      exact runs_pure ⟨⟨_, _, rfl⟩, rfl⟩
  · have hlen : (w.rest.take (bufferlen - 1)).length = bufferlen - 1 :=
      List.length_take_of_le (by omega)
    rw [if_neg hshort, if_neg (fun h => by rw [h] at hlen; cases hlen)]
    unfold readLoop
    rw [List.nil_append, if_neg (by omega), hlen]
    exact runs_pure ⟨⟨_, _, rfl⟩, rfl⟩

theorem runs_configContents (hw : w.Shows S) :
    (configContents 3).Runs seq w fun r w' => ReadOn w w' ∧
      r = if Sources.Usable w.rest then .ok w.rest else .error (-1) := by
  refine (runs_readLoop (w := w) (bufferlen - 2) 3).bind ?_
  rintro r w₁ ⟨h₁, hr⟩
  have hclose : ∀ w₂, ReadOn w w₂ → seq w₂ (.close 3) = .ok (true, w₂.tick) := fun w₂ h₂ =>
    World.ask_of_some (f := fun _ w => w) ((hw.readOn h₂).close _ _)
  have hcheck : ∀ bytes : ℤ, (checkedContents 3 r.1 bytes).Runs seq w₁ fun x w' => ReadOn w w' ∧
      x = if bytes = 0 ∧ Char.ofNat 0 ∉ r.1 then .ok r.1 else .error (-1) := by
    intro bytes
    have hread : ReadOn w w₁.tick := h₁.trans ⟨_, _, rfl⟩
    refine runs_perform_bind (I := sys) (hclose w₁ h₁) ?_
    rw [if_neg (by simp)]
    split
    next hpos => exact runs_perror (runs_pure ⟨hread, by rw [if_neg (by omega)]⟩)
    next hpos =>
      split
      next hneg => exact runs_perror (runs_pure ⟨hread, by rw [if_neg (by omega)]⟩)
      next hneg =>
        have hzero : bytes = 0 := by omega
        split
        next hnul => exact runs_perror (runs_pure ⟨hread, by rw [if_neg (fun h => h.2 hnul)]⟩)
        next hnul => exact runs_pure ⟨hread, by rw [if_pos ⟨hzero, hnul⟩]⟩
  by_cases hshort : w.rest.length < bufferlen - 1
  · rw [if_pos hshort] at hr
    subst hr
    unfold probeEnd
    rw [if_neg (by simp only; omega)]
    refine Runs.bind (runs_pure (Q := fun x w' => x = (0 : ℤ) ∧ w' = w₁) ⟨rfl, rfl⟩) ?_
    rintro _ _ ⟨rfl, rfl⟩
    refine (hcheck 0).mono fun x w' h => ⟨h.1, h.2.trans ?_⟩
    simp [Sources.Usable, hshort]
  · rw [if_neg hshort] at hr
    subst hr
    unfold probeEnd
    rw [if_neg (by simp [bufferlen])]
    refine Runs.bind
      (runs_pure (Q := fun x w' => x = ((bufferlen - 1 : ℕ) : ℤ) ∧ w' = w₁) ⟨rfl, rfl⟩) ?_
    rintro _ _ ⟨rfl, rfl⟩
    refine (hcheck _).mono fun x w' h => ⟨h.1, h.2.trans ?_⟩
    rw [if_neg (by simp [bufferlen]), if_neg (fun h => hshort h.1)]

/-- **`read_config_file` finds the first file that exists.** -/
theorem runs_findConfig (hw : w.Shows S) :
    findConfig.Runs seq w fun r w' => ReadOn w w' ∧ r = S.contents := by
  have htick : ∀ {w₁ : World}, ReadOn w w₁ → ReadOn w w₁.tick := fun h => h.trans ⟨_, _, rfl⟩
  refine runs_getenv (hw.env _ _) (runs_getenv (hw.env _ _) ?_)
  have hw₂ : w.tick.tick.Shows S := ⟨hw.env, hw.file, hw.close⟩
  refine (runs_openFirst hw₂ S.paths).bind ?_
  rintro r w₃ ⟨h₃, hr⟩
  have hread : ReadOn w w₃ := (htick (htick (.refl w))).trans h₃
  rw [← show S.configFile = S.paths.findSome? S.file from rfl] at hr
  unfold Sources.contents
  cases hfile : S.configFile with
  | none =>
    rw [hfile] at hr
    obtain rfl : r = none := hr
    exact runs_pure ⟨hread, rfl⟩
  | some contents =>
    rw [hfile] at hr
    obtain ⟨rfl, rfl⟩ := hr
    exact (runs_configContents (hw.readOn hread)).mono fun _ _ h => ⟨hread.trans h.1, h.2⟩

end Reading

/-! ### The text a query uses -/

/-- The part of `LibFaketime.refreshConfig` after the cache has expired. -/
def rereadConfig (B : Build) (now : ℤ) : Sys Unit := do
  let userFakedTime := defaultSetting (← getenv .faketime)
  store fun s => { s with lastDataFetch := now }
  if (← load).parseConfigFile then
    if (← readConfigFile B) = 0 then parseFtString B userFakedTime
  else parseFtString B userFakedTime
  getFakeMonotonicSetting

/-- What is left of a query once the configuration is known. -/
def afterRefresh (B : Build) (c : ClockId) (tp : Timespec) : Sys (ℤ × Option Timespec) := do
  let out ← (do
    if (← load).infileSet then
      let (loaded, tp) ← loadTime B.retries tp
      if loaded then pure (.abort 0 tp) else fakeByMode B c tp
    else fakeByMode B c tp)
  if B.pthreadSinglethreadedTime then timeMutexUnlock
  let r ← finishQuery B c tp out
  pure (r.1, some r.2)

/-- **The query uses the text `X`**: from a state that differs from the one it is made in at
most in caches and counters, it goes on as if `X` was handed to the parser. -/
def UsesSetting (B : Build) (c : ClockId) (w : World) (X : CStr) : Prop :=
  ∃ tp w₁, w.os w.now (.realClockGettime c) = some (some tp) ∧
    Like { w with mutexHeld := B.pthreadSinglethreadedTime } w₁ ∧ w₁.shm = w.shm ∧
    (clockGettime B c).run seq w =
      (parseFtString B X >>= fun _ => getFakeMonotonicSetting >>= fun _ => afterRefresh B c tp).run
        seq w₁

/-- A query that looks at the configuration: of a faked clock other than those of processor
time, in a thread that is not excluded, with the cache disabled and without limits. -/
structure Looks (c : ClockId) (w : World) : Prop where
  faking : w.dontFake = false
  clock : c.IsCpu = false
  monotonic : (w.proc.fakeMonotonicClock || !c.IsMonotonic) = true
  noCache : w.proc.cacheEnabled = false
  noLimits : w.proc.limitedFaking = false
  mutexFree : w.mutexHeld = false

section Use

variable {B : Build} {c : ClockId} {w : World} {S : Sources} {tp : Timespec}

/-- A query is a query of the limits, a refresh, and the rest. -/
theorem run_clockGettime_refresh (hlooks : Looks c w)
    (htp : w.os w.now (.realClockGettime c) = some (some tp)) :
    ∃ w₁, Like { w with mutexHeld := B.pthreadSinglethreadedTime } w₁ ∧ w₁.shm = w.shm ∧
      (clockGettime B c).run seq w =
        (refreshConfig B >>= fun _ => afterRefresh B c tp).run seq w₁ := by
  have hlim : ∀ b, (limitsAndSpawn c tp).Runs seq { w.tick with mutexHeld := b } fun r w' =>
      r = false ∧ Like { w.tick with mutexHeld := b } w' ∧ w'.shm = w.shm := fun b =>
    (runs_limitsAndSpawn (w := { w.tick with mutexHeld := b }) hlooks.noLimits).mono
      fun _ _ h => ⟨h.1, h.2.like⟩
  obtain ⟨_, w₁, ⟨rfl, h₁, hshm⟩, hlimits⟩ := (hlim B.pthreadSinglethreadedTime).exists_run_bind
  have hlike : Like { w with mutexHeld := B.pthreadSinglethreadedTime }
      { w.tick with mutexHeld := B.pthreadSinglethreadedTime } := ⟨rfl, rfl, rfl, rfl, rfl, rfl⟩
  refine ⟨w₁, hlike.trans h₁, hshm, ?_⟩
  have hload : ∀ {β : Type} (f : Proc → Sys β), (load >>= f).run seq w.tick =
      (f w.proc).run seq w.tick := fun _ => rfl
  have hdont : ∀ {β : Type} (f : Bool → Sys β), (dontFake >>= f).run seq w.tick =
      (f w.dontFake).run seq w.tick := fun _ => rfl
  refine (run_ask (w := w) (o := .realClockGettime c) rfl htp _).trans ?_
  dsimp only
  rw [hload, if_pos hlooks.monotonic]
  unfold fakeClockGettime fakeLocked afterRefresh
  rw [bind_assoc, hdont, hlooks.faking, if_neg (by simp), hlooks.clock, if_neg (by simp)]
  cases hB : B.pthreadSinglethreadedTime with
  | true =>
    rw [hB] at hlimits
    have hmutex : ∀ {β : Type} (f : Unit → Sys β), (timeMutexLock >>= f).run seq w.tick =
        (f ()).run seq { w.tick with mutexHeld := true } := by
      intro β f
      rw [run_bind, timeMutexLock, run_perform, seq_timeMutexLock,
        if_neg (by rw [show w.tick.mutexHeld = w.mutexHeld from rfl, hlooks.mutexFree]; simp)]
      rfl
    simp only [if_true, bind_assoc]
    rw [hmutex, hlimits, if_neg (by simp)]
    simp only [bind_assoc]
    rfl
  | false =>
    have hsame : ({ w.tick with mutexHeld := false } : World) = w.tick := by
      rw [show false = w.tick.mutexHeld from hlooks.mutexFree.symm]
    rw [hB, hsame] at hlimits
    simp only [Bool.false_eq_true, if_false, bind_assoc]
    rw [hlimits, if_neg (by simp)]
    simp only [bind_assoc]
    rfl

/-- A process that has just looked at its configuration, at the real time `now`. -/
def Proc.looked (now : ℤ) (s : Proc) : Proc := { Proc.expireCache now s with lastDataFetch := now }

theorem Proc.settings_looked (now : ℤ) (s : Proc) : (s.looked now).settings = s.settings :=
  settings_expireCache now s

theorem Proc.latch_looked (now : ℤ) (s : Proc) :
    (s.looked now).parseConfigFile = s.parseConfigFile :=
  Proc.field_eq (Proc.core_eq (s.settings_looked now)) Proc.parseConfigFile

/-- The parser is handed the text of a file or of the variable, if there is one to be used. -/
def applySetting (B : Build) : Option CStr → Sys Unit
  | some X => parseFtString B X
  | none => pure ()

/-- **What a refresh does** once the cache has expired: it looks at the sources, and the parser is
handed what is to be used of them. -/
theorem run_refreshConfig_looked (hw : w.Shows S) {r : Option Timespec}
    (hr : w.os w.now (.realClockGettime .realtime) = some r)
    (hexpires : (Proc.expireCache (r.getD .unset).tvSec w.proc).cacheExpired = true) :
    ∃ w₁, ReadOn { w with proc := w.proc.looked (r.getD .unset).tvSec } w₁ ∧
      (refreshConfig B).run seq w =
        (applySetting B (S.used w.proc.parseConfigFile) >>= fun _ =>
          getFakeMonotonicSetting).run seq w₁ := by
  obtain ⟨w₂, hw₂⟩ : ∃ w₂ : World, w₂ =
      { w.tick with proc := Proc.expireCache (r.getD .unset).tvSec w.proc } := ⟨_, rfl⟩
  have hexpired : w₂.proc.cacheExpired = true := by
    rw [hw₂]
    exact hexpires
  have hshows₂ : w₂.Shows S := by
    rw [hw₂]
    exact ⟨hw.env, hw.file, hw.close⟩
  obtain ⟨w₃, hw₃⟩ : ∃ w₃ : World, w₃ =
      { w₂.tick with proc := { w₂.proc with lastDataFetch := (r.getD .unset).tvSec } } := ⟨_, rfl⟩
  have hshows₃ : w₃.Shows S := by
    rw [hw₃]
    exact ⟨hshows₂.env, hshows₂.file, hshows₂.close⟩
  have h₃ : ReadOn { w with proc := w.proc.looked (r.getD .unset).tvSec } w₃ := by
    rw [hw₃, hw₂]
    exact ⟨_, _, rfl⟩
  have hlatch₃ : w₃.proc.parseConfigFile = w.proc.parseConfigFile := by
    rw [hw₃, hw₂]
    exact w.proc.latch_looked _
  -- the cache has expired, so the sources are looked at
  have hexpire : (refreshConfig B).run seq w =
      (if w₂.proc.cacheExpired then rereadConfig B (r.getD .unset).tvSec
        else pure ()).run seq w₂ := by
    rw [hw₂]
    exact run_ask (w := w) (o := .realClockGettime .realtime) rfl hr _
  have hchoice : (rereadConfig B (r.getD .unset).tvSec).run seq w₂ =
      (if w₃.proc.parseConfigFile then
        readConfigFile B >>= fun n => if n = 0 then
          parseFtString B (defaultSetting (S.env .faketime)) >>= fun _ => getFakeMonotonicSetting
          else getFakeMonotonicSetting
        else parseFtString B (defaultSetting (S.env .faketime)) >>= fun _ =>
          getFakeMonotonicSetting).run seq w₃ := by
    rw [hw₃]
    exact run_ask (w := w₂) (o := .getenv .faketime) rfl (hshows₂.env _ _) _
  rw [hexpired, if_pos rfl, hchoice] at hexpire
  rw [hexpire, hlatch₃]
  unfold Sources.used
  -- the file is asked first while the latch is set, and the variable if there is none
  cases hlatch : w.proc.parseConfigFile with
  | false =>
    rw [if_neg (by simp), if_neg (by simp)]
    exact ⟨w₃, h₃, rfl⟩
  | true =>
    obtain ⟨_, w₄, ⟨hread, rfl⟩, hfind⟩ := (runs_findConfig hshows₃).exists_run_bind
    refine ⟨w₄, h₃.trans hread, ?_⟩
    rw [if_pos rfl, if_pos rfl, readConfigFile, bind_assoc, hfind]
    cases hcontents : S.contents with
    | ok contents =>
      dsimp only
      rw [bind_assoc]
      rfl
    | error n =>
      dsimp only
      by_cases hzero : n = 0
      · rw [if_pos hzero, hzero]
        rfl
      · rw [if_neg hzero, pure_bind, if_neg hzero]
        rfl

/-- If there is a text to be used, that is a call of the parser. -/
theorem run_refreshConfig (hw : w.Shows S) {r : Option Timespec}
    (hr : w.os w.now (.realClockGettime .realtime) = some r)
    (hexpires : (Proc.expireCache (r.getD .unset).tvSec w.proc).cacheExpired = true) {X : CStr}
    (hused : S.used w.proc.parseConfigFile = some X) :
    ∃ w₁, Like w w₁ ∧ w₁.shm = w.shm ∧ (refreshConfig B).run seq w =
      (parseFtString B X >>= fun _ => getFakeMonotonicSetting).run seq w₁ := by
  obtain ⟨w₁, hread, hrun⟩ := run_refreshConfig_looked (B := B) hw hr hexpires
  rw [hused] at hrun
  have hlike : Like w w₁ ∧ w₁.shm = w.shm := by
    obtain ⟨m, l, rfl⟩ := hread
    exact ⟨⟨rfl, rfl, rfl, rfl, rfl, w.proc.settings_looked _⟩, rfl⟩
  exact ⟨w₁, hlike.1, hlike.2, hrun⟩

/-- Whatever the latch selects is what the query uses. -/
theorem usesSetting_of_used (hlooks : Looks c w) (hshows : w.Shows S)
    (hclock : ∀ n c, ∃ t, w.os n (.realClockGettime c) = some (some t)) {X : CStr}
    (hused : S.used w.proc.parseConfigFile = some X) : UsesSetting B c w X := by
  obtain ⟨tp, htp⟩ := hclock w.now c
  obtain ⟨w₁, h₁, hshm₁, hrun₁⟩ := run_clockGettime_refresh (B := B) hlooks htp
  have hshows₁ : w₁.Shows S := by
    refine ⟨?_, ?_, ?_⟩
    · rw [h₁.os]
      exact hshows.env
    · rw [h₁.file]
      exact hshows.file
    · rw [h₁.os]
      exact hshows.close
  obtain ⟨t, ht⟩ := hclock w₁.now .realtime
  rw [← h₁.os] at ht
  obtain ⟨w₂, h₂, hshm₂, hrun₂⟩ := run_refreshConfig (B := B) hshows₁ ht
    (cacheExpired_expireCache _ ((h₁.field Proc.cacheEnabled).trans hlooks.noCache)) (X := X)
    (by rw [h₁.field Proc.parseConfigFile]; exact hused)
  refine ⟨tp, w₂, htp, h₁.trans h₂, hshm₂.trans hshm₁, ?_⟩
  rw [hrun₁, run_bind, hrun₂, ← bind_assoc]
  exact (run_bind _ fun _ => afterRefresh B c tp).symm

end Use

/-! ### Every query of a life -/

/-- **Each query of a process uses the setting that is current**, at every point of its life
at which the variable is set exactly if it was set when the process was initialized, or no
configuration file exists, and a file that is to be used can be used. The environment and the
files may have changed in any way, and any functions may have been called. -/
theorem queries_use_current_setting {B : Build} {w₀ w₁ w : World} {e : Option CStr} {S : Sources}
    {c : ClockId} (hw₀ : w₀.proc = Proc.initial)
    (henv : ∀ n, w₀.os n (.getenv .faketime) = some e)
    (hinit : (ftplReallyInit B).run seq w₀ = .ok ((), w₁))
    (hlife : Relation.ReflTransGen (Life B) w₁ w) (hlooks : Looks c w) (hshows : w.Shows S)
    (hclock : ∀ n c, ∃ t, w.os n (.realClockGettime c) = some (some t))
    (hfollowed : S.Followed e.isNone) : UsesSetting B c w S.setting := by
  refine usesSetting_of_used hlooks hshows hclock ?_
  have hlatch : w.proc.parseConfigFile = e.isNone :=
    (congrArg Prod.fst (once_of_life hlife).1).trans (latch_of_init hw₀ henv hinit)
  rw [hlatch]
  exact hfollowed.used_eq

/-- The sources of a process with a file in its home directory and without a cache, and with
the variable `v`. -/
def homeSources (v : Option CStr) : Sources where
  env x := match x with
    | .home => some "/root".toList
    | .faketimeNoCache => some ['1']
    | .faketimeDontReset => some ['1']
    | .faketime => v
    | _ => none
  file path :=
    if path = "/root/.faketimerc".toList then some "1970-01-01 00:01:40\n".toList else none

/-- A process that has just been started with these sources. -/
def homeStart (v : Option CStr) : World :=
  { calmWorld (homeSources v).env (fun _ _ => ⟨60, 0⟩) ⟨0, 0⟩ Proc.initial with
    file := fun _ => (homeSources v).file }

/-- The same sources after the file has been rewritten. -/
def rewrittenSources : Sources where
  env := (homeSources none).env
  file path :=
    if path = "/root/.faketimerc".toList then some "1970-01-01 00:03:20\n".toList else none

/-- Started without the variable, a process uses the file as long as the variable is not set. It has
answered a query when the file is rewritten, and the next query uses what is in it then. -/
theorem home_query_uses_file : ∃ w₁ w,
    (ftplReallyInit epochBuild).run seq (homeStart none) = .ok ((), w₁) ∧
      Relation.ReflTransGen (Life epochBuild) w₁ w ∧ w.Shows rewrittenSources ∧
      w.proc.userFakedTimeTimespec = ⟨100, 0⟩ ∧
      UsesSetting epochBuild .realtime w "1970-01-01 00:03:20".toList := by
  obtain ⟨w₁, w₂, hinit, hcall, hlooks, hos, hbase⟩ : ∃ w₁ w₂,
      (ftplReallyInit epochBuild).run seq (homeStart none) = .ok ((), w₁) ∧
      ((Entry.clockGettime .realtime).prog epochBuild).run seq w₁ =
        .ok (.gettime .realtime 0 (some ⟨100, 0⟩), w₂) ∧
      Looks .realtime { w₂ with file := fun _ => rewrittenSources.file } ∧
      w₂.os = (homeStart none).os ∧ w₂.proc.userFakedTimeTimespec = ⟨100, 0⟩ :=
    ⟨_, _, rfl, rfl, ⟨rfl, rfl, rfl, rfl, rfl, rfl⟩, rfl, rfl⟩
  have hlife : Relation.ReflTransGen (Life epochBuild) w₁
      { w₂ with file := fun _ => rewrittenSources.file } :=
    (Relation.ReflTransGen.single (.call _ _ hcall)).tail (.outside w₂.os fun _ => _)
  have hshows : ({ w₂ with file := fun _ => rewrittenSources.file } : World).Shows
      rewrittenSources := by
    refine ⟨?_, fun _ => rfl, ?_⟩
    · rw [hos]
      exact fun _ _ => rfl
    · rw [hos]
      exact fun _ _ => rfl
  refine ⟨w₁, _, hinit, hlife, hshows, hbase, ?_⟩
  exact queries_use_current_setting (S := rewrittenSources)
    (rfl : (homeStart none).proc = Proc.initial) (fun _ => rfl) hinit hlife hlooks hshows
    (by rw [hos]; exact fun _ _ => ⟨_, rfl⟩) ⟨Or.inr rfl, fun _ _ h => by cases h; decide⟩

/-- Processes with the same settings differ in their bookkeeping at most. -/
theorem Proc.exists_of_settings {s s' : Proc} (h : s'.settings = s.settings) :
    ∃ real fake force fetch expired calls spawned, s' = { s with
      ftplTimecache := real
      ftplFaketimecache := fake
      forceCacheExpiration := force
      lastDataFetch := fetch
      cacheExpired := expired
      callcounter := calls
      spawned := spawned } := by
  refine ⟨s'.ftplTimecache, s'.ftplFaketimecache, s'.forceCacheExpiration, s'.lastDataFetch,
    s'.cacheExpired, s'.callcounter, s'.spawned, ?_⟩
  cases s
  cases s'
  simp only [Proc.settings, Proc.mk.injEq] at h ⊢
  tauto

/-- The variable it sets after that is ignored: the query goes on reporting the time of the
file, at which the clock stands still, and not one that goes on from there. -/
theorem home_query_ignores_variable :
    ∃ w₁ w, (ftplReallyInit epochBuild).run seq (homeStart none) = .ok ((), w₁) ∧
      Relation.ReflTransGen (Life epochBuild) w₁ w ∧ Looks .realtime w ∧
      w.Shows (homeSources (some "@1970-01-01 00:01:40".toList)) ∧
      (homeSources (some "@1970-01-01 00:01:40".toList)).setting = "@1970-01-01 00:01:40".toList ∧
      ¬ UsesSetting epochBuild .realtime w "@1970-01-01 00:01:40".toList := by
  refine ⟨_, _, rfl, .single (.outside (homeStart (some "@1970-01-01 00:01:40".toList)).os
    (homeStart (some "@1970-01-01 00:01:40".toList)).file), ⟨rfl, rfl, rfl, rfl, rfl, rfl⟩,
    ⟨fun _ _ => rfl, fun _ => rfl, fun _ _ => rfl⟩, rfl, ?_⟩
  rintro ⟨tp, w₂, htp, hlike, -, hrun⟩
  obtain ⟨os, file, now, p, dont, shm, sem, mutex, rest, saved⟩ := w₂
  obtain ⟨rfl, rfl, rfl, rfl, rfl, hset⟩ := hlike
  obtain ⟨_, _, _, _, _, _, _, rfl⟩ := Proc.exists_of_settings hset
  have hmode := congrArg (Except.map fun r => r.2.proc.ftMode) hrun
  change Except.ok FtMode.freeze = Except.ok FtMode.startAt at hmode
  cases hmode

end LibFaketime
