import LibFaketime.Refresh
import LibFaketime.Comments

/-!
# Contents without text

A configuration of empty lines and comments is no setting, and a process that finds one when it
is started reports the real time. That is so because the text that is left of it is empty, like
the text that is saved before there is any, and a text that is saved already is not parsed. Once
a setting has been applied the empty text is a new one, and is read as a date.

So contents without text are harmless as long as there has been no setting yet, and not after that
(`LibFaketime.blank_contents_iff`). A line of blanks is text in this sense.
-/

namespace LibFaketime

open Effects Effects.Prog

/-! ### What is left of the contents -/

/-- **There are only blank lines and comments.** -/
def Blank (contents : CStr) : Prop :=
  ∀ line ∈ linesOf contents, isComment line = true ∨ ∀ c ∈ line, isBlank c = true

/-- There are only empty lines and comments. -/
def NoText (contents : CStr) : Prop :=
  ∀ line ∈ linesOf contents, isComment line = true ∨ line = []

instance (contents : CStr) : Decidable (Blank contents) :=
  decidable_of_iff (((linesOf contents).all fun line => isComment line || line.all isBlank) = true)
    (by simp only [Blank, List.all_eq_true, Bool.or_eq_true])

instance (contents : CStr) : Decidable (NoText contents) :=
  inferInstanceAs (Decidable (∀ line ∈ linesOf contents, _ ∨ _))

section Lines

variable {contents : CStr}

theorem noText_iff : NoText contents ↔ prepareConfigContents contents = [] := by
  rw [List.eq_nil_iff_forall_not_mem]
  constructor
  · intro h c hc
    obtain ⟨line, hmem, hcomment, hc⟩ := mem_prepareConfigContents.mp hc
    rcases h line hmem with h | rfl
    · rw [hcomment] at h
      cases h
    · cases hc
  · intro h line hmem
    cases hcomment : isComment line with
    | true => exact Or.inl rfl
    | false =>
      refine Or.inr (List.eq_nil_iff_forall_not_mem.mpr fun c hc => ?_)
      exact h c (mem_prepareConfigContents.mpr ⟨line, hmem, hcomment, hc⟩)

theorem blank_iff : Blank contents ↔ ∀ c ∈ prepareConfigContents contents, isBlank c = true := by
  constructor
  · intro h c hc
    obtain ⟨line, hmem, hcomment, hc⟩ := mem_prepareConfigContents.mp hc
    rcases h line hmem with h | h
    · rw [hcomment] at h
      cases h
    · exact h c hc
  · intro h line hmem
    cases hcomment : isComment line with
    | true => exact Or.inl rfl
    | false =>
      refine Or.inr fun c hc => ?_
      exact h c (mem_prepareConfigContents.mpr ⟨line, hmem, hcomment, hc⟩)

end Lines

/-! ### Contents after contents -/

/-- **The process reports the real time**: whatever the time is, the rules of the mode leave it
as it is. -/
def ReportsReal (B : Build) (p : Proc) : Prop :=
  ∀ c tp (w : World), w.proc = p →
    (fakeByMode B c tp).Runs seq w fun o w' => o = .faked tp ∧ w' = w

/-- **The contents are harmless**, one after the other: no refresh ends the process, and after
blank contents it reports the real time. -/
def Uneventful (B : Build) : List (Moment × CStr) → Proc → Prop
  | [], _ => True
  | x :: rest, p => (refreshConfig B).Runs seq (x.1.start p) fun _ w' =>
      (Blank x.2 → ReportsReal B w'.proc) ∧ Uneventful B rest w'.proc

/-- The contents are accepted by a process that starts with them. -/
def AcceptedAlone (B : Build) (p : Proc) (m : Moment) (contents : CStr) : Prop :=
  (parseFtString B (prepareConfigContents contents)).Runs seq (m.start p) fun _ _ => True

/-- **Contents without text come first**: as soon as there has been some, nothing blank comes any
more. -/
def BlanksFirst : List CStr → Prop
  | [] => True
  | contents :: rest =>
    if NoText contents then BlanksFirst rest else ∀ d ∈ contents :: rest, ¬ Blank d

/-- No setting has been applied. -/
structure Record.Untouched (R : Record) : Prop where
  mode : R.marks.mode = .freeze
  notSet : R.marks.timeSet = false
  saved : R.saved = []
  latch : R.latch = true

/-- A setting has been applied, in a process that reads dates in the format `fmt`. -/
structure Record.Touched (fmt : CStr) (R : Record) : Prop where
  mode : R.marks.mode ≠ .noop
  saved : ∃ c ∈ R.saved, isBlank c = false
  fits : R.saved.take bufferlen = R.saved
  fmt : R.fmt = fmt
  latch : R.latch = true

/-- At the moment `m` the file with these contents is found, and they are blank or accepted by a
process that starts with them. -/
structure Given (B : Build) (p : Proc) (m : Moment) (contents : CStr) : Prop where
  due : m.Due
  found : m.sources.contents = .ok contents
  good : Blank contents ∨ AcceptedAlone B p m contents

section Refreshes

variable {B : Build} {m : Moment} {p p₀ : Proc} {contents s fmt : CStr}
  {rest : List (Moment × CStr)} {R : Record}

theorem used_of_found (h : m.sources.contents = .ok contents) :
    m.sources.used true = some (prepareConfigContents contents) := by
  unfold Sources.used
  rw [if_pos rfl, h]

theorem usable_of_found (h : m.sources.contents = .ok contents) : Sources.Usable contents := by
  unfold Sources.contents at h
  split at h
  · cases h
  · split at h
    next husable =>
      cases h
      exact husable
    next => cases h

/-- What is saved of contents that are found is all there is. -/
theorem take_of_found (h : m.sources.contents = .ok contents) {n : ℕ} (hn : bufferlen - 1 ≤ n) :
    (prepareConfigContents contents).take n = prepareConfigContents contents :=
  List.take_of_length_le
    (((length_prepareConfigContents_le contents).trans (usable_of_found h).1.le).trans hn)

/-- A blank text is taken for a date. -/
theorem kindOf_of_blank (h : ∀ c ∈ s, isBlank c = true) : kindOf s = .absolute := by
  cases s with
  | nil => rfl
  | cons c rest =>
    have hc := h c (List.mem_cons_self ..)
    unfold isBlank at hc
    rw [Bool.or_eq_true, beq_iff_eq, beq_iff_eq] at hc
    rcases hc with rfl | rfl <;> rfl

/-- **A blank text that is new** ends the process, or it stops the clock. -/
theorem not_reportsReal_of_blank (hm : m.Due) (hs : m.sources.used p.parseConfigFile = some s)
    (hmode : p.record.marks.mode ≠ .noop) (hnew : unchangedSetting s p.record.saved = false)
    (hblank : ∀ c ∈ s, isBlank c = true) :
    ¬ (refreshConfig B).Runs seq (m.start p) fun _ w' => ReportsReal B w'.proc := by
  by_cases haccepts : p.record.Accepts B m.sources.env m.files s
  · obtain ⟨_, w', hr, hrecord⟩ := runs_refresh (B := B) hm hs haccepts
    rw [runs_iff_of_run hr]
    intro hreal
    have hmarks : w'.proc.marks = p.record.marks.after m.sources.env s := by
      rw [show w'.proc.marks = w'.proc.record.marks from rfl, hrecord, Record.apply, hnew,
        if_neg (by simp)]
    have hafter : (p.record.marks.after m.sources.env s).mode = .freeze ∧
        (p.record.marks.after m.sources.env s).timeSet = true := by
      unfold Marks.after
      rw [kindOf_of_blank hblank]
      exact ⟨if_pos hmode, rfl⟩
    rw [← hmarks] at hafter
    obtain ⟨hfreeze, hset⟩ := hafter
    -- the clock stands still, and a second later that is not the real time
    obtain ⟨o, w'', hrun, ho, -⟩ :=
      hreal .realtime ⟨w'.proc.userFakedTimeTimespec.tvSec + 1, 0⟩ w' rfl
    unfold fakeByMode at hrun
    rw [run_load, show w'.proc.ftMode = .freeze from hfreeze,
      show w'.proc.userFakedTimeSet = true from hset] at hrun
    cases hrun
    rw [if_pos rfl] at ho
    have hsec : w'.proc.userFakedTimeTimespec.tvSec = w'.proc.userFakedTimeTimespec.tvSec + 1 :=
      congrArg (fun o => o.tp.tvSec) ho
    omega
  · obtain ⟨msg, hmsg⟩ := halts_refresh (B := B) hm hs haccepts
    exact hmsg.not_runs

/-- What a process accepts that starts with it is accepted later, too. -/
theorem accepts_of_alone (hp₀ : p₀.record.Untouched) (hm : m.Due)
    (hne : prepareConfigContents contents ≠ []) (h : AcceptedAlone B p₀ m contents)
    (timeSet : Bool) : LibFaketime.Accepts B m.sources.env m.files p₀.record.fmt timeSet
      (prepareConfigContents contents) := by
  have hrecord : (m.start p₀).proc.record = p₀.record := Proc.record_eq (hm.core_start p₀)
  refine Accepts.of_timeSet ?_ timeSet
  by_contra hno
  rw [← hrecord] at hno
  have hnew : unchangedSetting (prepareConfigContents contents)
      (m.start p₀).proc.userFakedTimeSaved = false := by
    rw [show (m.start p₀).proc.userFakedTimeSaved = [] from
      (congrArg Record.saved hrecord).trans hp₀.saved, unchangedSetting_nil hne]
  have hnotSet : (m.start p₀).proc.userFakedTimeSet = false :=
    (congrArg (fun R => R.marks.timeSet) hrecord).trans hp₀.notSet
  obtain ⟨msg, hmsg⟩ := halts_parse_of_new (B := B) (hm.obliging_start p₀) hm.stat hnew
    (by rw [hnotSet]; exact hno)
  exact hmsg.not_runs h

/-- A text that is not blank leaves a process that has a setting. -/
theorem Record.touched_apply {env : EnvVar → Option CStr} (hmode : R.marks.mode ≠ .noop)
    (hfmt : R.fmt = fmt) (hlatch : R.latch = true) (hs : ∃ c ∈ s, isBlank c = false)
    (htake : ∀ n, bufferlen - 1 ≤ n → s.take n = s)
    (hsame : unchangedSetting s R.saved = true → R.Touched fmt) : (R.apply env s).Touched fmt := by
  unfold Record.apply
  split
  next h => exact hsame h
  next =>
    rw [htake _ le_rfl]
    exact ⟨Marks.mode_after_ne hmode, hs, htake _ (by omega), hfmt, hlatch⟩

theorem exists_of_not_blank (h : ¬ Blank contents) :
    ∃ c ∈ prepareConfigContents contents, isBlank c = false := by
  rw [blank_iff] at h
  push Not at h
  obtain ⟨c, hc, hb⟩ := h
  exact ⟨c, hc, by simpa using hb⟩

/-- **The next contents are not blank**: they are accepted, and leave a setting. -/
theorem runs_of_not_blank (hp₀ : p₀.record.Untouched) (hx : Given B p₀ m contents)
    (hblank : ¬ Blank contents) (hmode : p.record.marks.mode ≠ .noop)
    (hfmt : p.record.fmt = p₀.record.fmt) (hlatch : p.record.latch = true)
    (hsame : unchangedSetting (prepareConfigContents contents) p.record.saved = true →
      p.record.Touched p₀.record.fmt) :
    ∃ a w', (refreshConfig B).run seq (m.start p) = .ok (a, w') ∧
      w'.proc.record.Touched p₀.record.fmt := by
  have htext := exists_of_not_blank hblank
  have hused : m.sources.used p.parseConfigFile = some (prepareConfigContents contents) := by
    rw [show p.parseConfigFile = true from hlatch]
    exact used_of_found hx.found
  have hne : prepareConfigContents contents ≠ [] := by
    obtain ⟨c, hc, -⟩ := htext
    exact List.ne_nil_of_mem hc
  obtain ⟨a, w', hr, hrecord⟩ := runs_refresh (B := B) hx.due hused fun _ => by
    rw [hfmt]
    exact accepts_of_alone hp₀ hx.due hne (hx.good.resolve_left hblank) _
  refine ⟨a, w', hr, ?_⟩
  rw [hrecord]
  exact Record.touched_apply hmode hfmt hlatch htext (fun _ => take_of_found hx.found) hsame

/-- A blank text is not the one of a setting. -/
theorem Record.Touched.new_of_blank (hR : R.Touched fmt) (htake : s.take bufferlen = s)
    (hblank : ∀ c ∈ s, isBlank c = true) : unchangedSetting s R.saved = false := by
  rw [unchangedSetting, Bool.and_eq_false_iff, htake, hR.fits]
  refine Or.inl (beq_eq_false_iff_ne.mpr ?_)
  rintro rfl
  obtain ⟨c, hc, hb⟩ := hR.saved
  rw [hblank c hc] at hb
  cases hb

/-- After a setting has been applied, the contents are harmless if none of them is blank. -/
theorem uneventful_of_touched (hp₀ : p₀.record.Untouched) (hp : p.record.Touched p₀.record.fmt)
    (hrest : ∀ x ∈ rest, Given B p₀ x.1 x.2) :
    Uneventful B rest p ↔ ∀ x ∈ rest, ¬ Blank x.2 := by
  induction rest generalizing p with
  | nil => exact iff_of_true trivial fun x hx => by cases hx
  | cons x rest ih =>
    have hx := hrest x (List.mem_cons_self ..)
    rw [List.forall_mem_cons]
    by_cases hblank : Blank x.2
    · refine iff_of_false (fun h => ?_) fun h => h.1 hblank
      have hused : x.1.sources.used p.parseConfigFile = some (prepareConfigContents x.2) := by
        rw [show p.parseConfigFile = true from hp.latch]
        exact used_of_found hx.found
      have htext := blank_iff.mp hblank
      refine not_reportsReal_of_blank (B := B) hx.due hused hp.mode
        (hp.new_of_blank (take_of_found hx.found (by omega)) htext) htext ?_
      exact Runs.mono h fun _ w' h' => h'.1 hblank
    · obtain ⟨a, w', hr, htouched⟩ := runs_of_not_blank hp₀ hx hblank hp.mode hp.fmt hp.latch
        fun _ => hp
      unfold Uneventful
      rw [runs_iff_of_run hr, ih htouched fun y hy => hrest y (List.mem_cons_of_mem _ hy)]
      exact ⟨fun h => ⟨hblank, h.2⟩, fun h => ⟨fun hb => absurd hb hblank, h.2⟩⟩

/-- A process without a setting goes on like that. -/
theorem runs_of_noText (hm : m.Due) (hfound : m.sources.contents = .ok contents)
    (htext : NoText contents) (hp : p.record.Untouched) :
    ∃ a w', (refreshConfig B).run seq (m.start p) = .ok (a, w') ∧ w'.proc.record = p.record := by
  have hnil := noText_iff.mp htext
  have hused : m.sources.used p.parseConfigFile = some [] := by
    rw [show p.parseConfigFile = true from hp.latch, used_of_found hfound, hnil]
  have hsame : unchangedSetting [] p.record.saved = true := by
    rw [hp.saved]
    rfl
  obtain ⟨a, w', hr, hrecord⟩ := runs_refresh (B := B) hm hused fun hnew => by
    rw [hsame] at hnew
    cases hnew
  refine ⟨a, w', hr, ?_⟩
  rw [hrecord, Record.apply, if_pos hsame]

theorem Record.Untouched.reportsReal (hp : p.record.Untouched) : ReportsReal B p := by
  rintro c tp w rfl
  refine runs_load ?_
  rw [show w.proc.ftMode = .freeze from hp.mode]
  dsimp only
  rw [show w.proc.userFakedTimeSet = false from hp.notSet, if_neg (by simp)]
  exact runs_pure ⟨rfl, rfl⟩

/-- **Blank contents are harmless if and only if they come before all others, and are without a
line of blanks.** Each of the contents is blank or accepted by a process that starts with it. -/
theorem blank_contents_iff (hp₀ : p₀.record.Untouched)
    (hrest : ∀ x ∈ rest, Given B p₀ x.1 x.2) :
    Uneventful B rest p₀ ↔ BlanksFirst (rest.map Prod.snd) := by
  have hall : ∀ p, p.record = p₀.record →
      (Uneventful B rest p ↔ BlanksFirst (rest.map Prod.snd)) := by
    induction rest with
    | nil => exact fun p hp => Iff.rfl
    | cons x rest ih =>
      intro p hrecord
      have hp : p.record.Untouched := by
        rw [hrecord]
        exact hp₀
      have hx := hrest x (List.mem_cons_self ..)
      have hafter : ∀ y ∈ rest, Given B p₀ y.1 y.2 := fun y hy =>
        hrest y (List.mem_cons_of_mem _ hy)
      have hused : x.1.sources.used p.parseConfigFile = some (prepareConfigContents x.2) := by
        rw [show p.parseConfigFile = true from hp.latch]
        exact used_of_found hx.found
      rw [List.map_cons, BlanksFirst]
      by_cases htext : NoText x.2
      · -- nothing happens
        obtain ⟨a, w', hr, hsame⟩ := runs_of_noText hx.due hx.found htext hp
        have hsame' : w'.proc.record = p₀.record := hsame.trans hrecord
        have hreal : ReportsReal B w'.proc := by
          refine Record.Untouched.reportsReal ?_
          rw [hsame']
          exact hp₀
        rw [if_pos htext]
        unfold Uneventful
        rw [runs_iff_of_run hr, ih hafter _ hsame']
        exact ⟨And.right, fun h => ⟨fun _ => hreal, h⟩⟩
      rw [if_neg htext, List.forall_mem_cons, List.forall_mem_map]
      have hne : prepareConfigContents x.2 ≠ [] := fun hnil => htext (noText_iff.mpr hnil)
      have hnew : unchangedSetting (prepareConfigContents x.2) p.record.saved = false := by
        rw [hp.saved]
        exact unchangedSetting_nil hne
      have hmode : p.record.marks.mode ≠ .noop := by
        rw [hp.mode]
        exact FtMode.noConfusion
      by_cases hblank : Blank x.2
      · -- a line of blanks
        refine iff_of_false (fun h => ?_) fun h => h.1 hblank
        refine not_reportsReal_of_blank (B := B) hx.due hused hmode hnew (blank_iff.mp hblank) ?_
        exact Runs.mono h fun _ w' h' => h'.1 hblank
      · -- the first setting
        obtain ⟨a, w', hr, htouched⟩ := runs_of_not_blank hp₀ hx hblank hmode
          (congrArg Record.fmt hrecord) hp.latch fun hsame => by
            rw [hnew] at hsame
            cases hsame
        unfold Uneventful
        rw [runs_iff_of_run hr, uneventful_of_touched hp₀ htouched hafter]
        exact ⟨fun h => ⟨hblank, h.2⟩, fun h => ⟨fun hb => absurd hb hblank, h.2⟩⟩
  exact hall p₀ rfl

end Refreshes

/-- A moment at which the file of the whole system has these contents, and the configuration must
be read again. -/
def etcMoment (contents : CStr) : Moment where
  sources := ⟨fun _ => none, fun _ => some contents⟩
  files _ := some ⟨0, 0⟩
  world := { calmWorld (fun _ => none) (fun _ _ => ⟨60, 0⟩) ⟨0, 0⟩ .initial with
    file := fun _ _ => some contents }
  between p := { p with forceCacheExpiration := true }

theorem due_etcMoment (contents : CStr) : (etcMoment contents).Due where
  shows := ⟨fun _ _ => rfl, fun _ => rfl, fun _ _ => rfl⟩
  obliging := ⟨fun _ _ => rfl, fun _ _ => ⟨_, rfl⟩, fun _ => rfl, fun _ => rfl, rfl⟩
  stat _ _ := rfl
  keeps _ := rfl
  expired r _ p := by
    unfold Proc.expireCache
    dsimp only
    split <;> split <;> rfl

theorem untouched_initial : Proc.initial.record.Untouched := ⟨rfl, rfl, rfl, rfl⟩

/-- A configuration that says nothing. -/
def emptyConfig : CStr := "\n# none\n".toList

/-- A configuration with an offset. -/
def offsetConfig : CStr := "+5\n".toList

theorem given_emptyConfig : Given plainBuild .initial (etcMoment emptyConfig) emptyConfig :=
  ⟨due_etcMoment _, rfl, Or.inl (by decide +kernel)⟩

theorem given_offsetConfig : Given plainBuild .initial (etcMoment offsetConfig) offsetConfig := by
  refine ⟨due_etcMoment _, rfl, Or.inr ?_⟩
  have htext : prepareConfigContents offsetConfig = "+5".toList := by decide +kernel
  have hpart : OffsetPart "+5".toList 5 1 [] :=
    ⟨by decide +kernel, Or.inl rfl, by decide +kernel⟩
  have hplain : scanned "+5".toList = some .plain := by
    rw [scanned, show strchr "+5".toList 'x' = none from rfl]
    rfl
  unfold AcceptedAlone
  rw [htext]
  refine (runs_parseFtString (fun _ _ => ⟨_, rfl⟩) (Or.inl rfl) ?_ hpart hplain).mono
    fun _ _ _ => trivial
  decide +kernel

/-- A process starts with nothing, and then finds an offset. -/
theorem blank_contents_of_start : Uneventful plainBuild
    [(etcMoment emptyConfig, emptyConfig), (etcMoment offsetConfig, offsetConfig)] .initial := by
  refine (blank_contents_iff untouched_initial ?_).mpr ?_
  · rw [List.forall_mem_cons, List.forall_mem_singleton]
    exact ⟨given_emptyConfig, given_offsetConfig⟩
  · rw [List.map_cons, BlanksFirst, if_pos (by decide +kernel), List.map_singleton, BlanksFirst,
      if_neg (by decide +kernel), List.forall_mem_singleton]
    decide +kernel

/-- **A process that has found an offset exits when the file is emptied.** -/
theorem blank_after_offset_exits :
    Given plainBuild .initial (etcMoment offsetConfig) offsetConfig ∧
      Given plainBuild .initial (etcMoment emptyConfig) emptyConfig ∧ Blank emptyConfig ∧
      (refreshConfig plainBuild).Runs seq ((etcMoment offsetConfig).start .initial) (fun _ w' =>
        ∃ msg, (refreshConfig plainBuild).Halts seq ((etcMoment emptyConfig).start w'.proc)
          (.exited 1 msg)) ∧
      ¬ Uneventful plainBuild
        [(etcMoment offsetConfig, offsetConfig), (etcMoment emptyConfig, emptyConfig)]
          .initial := by
  have hfirst : unchangedSetting (prepareConfigContents offsetConfig) Proc.initial.record.saved =
      false := by decide +kernel
  obtain ⟨_, w', hr, htouched⟩ := runs_of_not_blank (p := .initial) untouched_initial
    given_offsetConfig (by decide +kernel) FtMode.noConfusion rfl rfl fun hsame => by
      rw [hfirst] at hsame
      cases hsame
  have hnone : prepareConfigContents emptyConfig = [] := by decide +kernel
  have hused : (etcMoment emptyConfig).sources.used w'.proc.parseConfigFile = some [] := by
    rw [show w'.proc.parseConfigFile = true from htouched.latch,
      used_of_found given_emptyConfig.found, hnone]
  have hnew : unchangedSetting [] w'.proc.record.saved = false :=
    htouched.new_of_blank rfl fun c hc => by cases hc
  obtain ⟨msg, hmsg⟩ := halts_refresh (B := plainBuild) (due_etcMoment _) hused
    fun haccepts => (haccepts hnew).1 rfl
  refine ⟨given_offsetConfig, given_emptyConfig, by decide +kernel, ⟨_, w', hr, msg, hmsg⟩, ?_⟩
  unfold Uneventful
  rw [runs_iff_of_run hr]
  exact fun h => hmsg.not_runs h.2

end LibFaketime
