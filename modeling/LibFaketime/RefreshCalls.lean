import LibFaketime.Calls

/-!
# What a refresh is made of

A refresh of the configuration reads the environment and files, assigns the variables of the
setting one by one, and resets the start time or takes it from the last times that were reported.
Whatever is shown of these pieces is shown of the whole (`LibFaketime.RefreshCovers`), for any
judgement on programs that passes from the parts of a sequence to the sequence. Which calls are
made is one such judgement. What is left alone is another one, and a wider one: the lock is not
left alone by each call, but it is by the piece that takes it and releases it.
-/

namespace LibFaketime

open Effects Effects.Prog

/-! ### Assignments of a setting -/

/-- A process without what a setting says. The start time and `user_offset` are no part of that. -/
def Proc.besides (s : Proc) : Proc :=
  { s with
    ftMode := .freeze
    userFakedTimeTimespec := .unset
    userFakedTimeSet := false
    userFakedTimeSaved := []
    userRate := 1
    userRateSet := false
    userPerTickInc := .unset
    userPerTickIncSet := false
    forceCacheExpiration := false
    lastDataFetch := 0
    cacheExpired := false }

/-- An assignment of a setting. It does not exclude the process. -/
structure SetsSetting (f : Proc → Proc) : Prop where
  besides : ∀ s, (f s).besides = s.besides
  noop : ∀ s, (f s).ftMode = .noop → s.ftMode = .noop

/-- A field that is no part of a setting is left alone. -/
theorem SetsSetting.field_eq {β : Type} {f : Proc → Proc} (h : SetsSetting f) (g : Proc → β)
    (s : Proc) (hg : ∀ s, g s.besides = g s := by intro _; rfl) : g (f s) = g s := by
  rw [← hg, h.besides, hg]

/-- The usual case: an assignment that leaves the mode alone, too. -/
theorem setsSetting_of_eq {f : Proc → Proc}
    (h : ∀ s, ((f s).besides, (f s).ftMode) = (s.besides, s.ftMode)) : SetsSetting f :=
  ⟨fun s => congrArg (fun k => k.1) (h s), fun s hs =>
    (congrArg (fun k => k.2) (h s)).symm.trans hs⟩

/-- An assignment of the mode, to a process that is not excluded. -/
theorem setsSetting_mode {mode : FtMode} (h : mode ≠ .noop) :
    SetsSetting fun s => { s with ftMode := if s.ftMode ≠ .noop then mode else s.ftMode } := by
  refine ⟨fun _ => rfl, fun s hs => ?_⟩
  dsimp only at hs
  split at hs
  · exact absurd hs h
  · exact hs

theorem setsSetting_startAt : SetsSetting fun s => { s with ftMode := .startAt } :=
  ⟨fun _ => rfl, fun _ hs => by cases hs⟩

theorem setsSetting_expireCache (now : ℤ) : SetsSetting (Proc.expireCache now) := by
  refine setsSetting_of_eq fun s => ?_
  obtain ⟨expired, force, hs⟩ := Proc.exists_expireCache now s
  rw [hs]
  rfl

/-! ### The pieces -/

/-- A judgement on programs that passes from their parts to the whole and that the pieces of a
refresh meet. -/
structure RefreshCovers (J : {β : Type} → Sys β → Prop) : Prop where
  ret : ∀ {β : Type} (a : β), J (pure a : Sys β)
  seq : ∀ {β γ : Type} {p : Sys β} {f : β → Sys γ}, J p → (∀ a, J (f a)) → J (p >>= f)
  call : ∀ o : Op, o.Inspects → J (perform (I := sys) o)
  set : ∀ f, SetsSetting f → J (store f)
  reset : J resetTime
  xreset : J xreset

section Pieces

variable {B : Build} {J : {β : Type} → Sys β → Prop} (hJ : RefreshCovers J) {γ : Type}

include hJ

theorem RefreshCovers.step {o : Op} {f : o.Ans → Sys γ} (ho : o.Inspects) (h : ∀ r, J (f r)) :
    J (perform (I := sys) o >>= f) := hJ.seq (hJ.call o ho) h

theorem RefreshCovers.exit (code : ℤ) (msg : String) : J (exit code msg : Sys γ) :=
  hJ.step (o := .exit code msg) trivial fun e => Empty.elim e

theorem RefreshCovers.assign {g : Proc → Proc} {f : Unit → Sys γ} (hg : SetsSetting g)
    (h : J (f ())) : J (store g >>= f) := hJ.seq (hJ.set g hg) fun _ => h

theorem RefreshCovers.assignField {g : Proc → Proc} {f : Unit → Sys γ}
    (hg : ∀ s, ((g s).besides, (g s).ftMode) = (s.besides, s.ftMode)) (h : J (f ())) :
    J (store g >>= f) := hJ.assign (setsSetting_of_eq hg) h

theorem RefreshCovers.setField {g : Proc → Proc}
    (hg : ∀ s, ((g s).besides, (g s).ftMode) = (s.besides, s.ftMode)) : J (store g) :=
  hJ.set g (setsSetting_of_eq hg)

/-! ### The text of a setting -/

theorem RefreshCovers.parseModifiers (text : CStr) : J (parseModifiers text) := by
  unfold LibFaketime.parseModifiers
  split
  · split
    · exact hJ.exit _ _
    · split
      · exact hJ.exit _ _
      · refine hJ.assignField (fun _ => rfl) ?_
        exact hJ.assignField (fun _ => rfl) hJ.xreset
  · split
    · exact hJ.ret _
    · split
      · exact hJ.exit _ _
      · split
        · exact hJ.exit _ _
        · refine hJ.assignField (fun _ => rfl) ?_
          exact hJ.setField fun _ => rfl

theorem RefreshCovers.parseDate (lead text : CStr) (failure : CStr → String) :
    J (parseDate B lead text failure) := by
  refine hJ.step (o := .load) trivial fun s => ?_
  dsimp only
  split
  · exact hJ.exit _ _
  · refine hJ.assignField (fun _ => rfl) ?_
    split
    · split
      · exact hJ.exit _ _
      · exact hJ.setField fun _ => rfl
    · exact hJ.ret _

theorem RefreshCovers.parseAbsolute (text : CStr) : J (parseAbsolute B text) := by
  refine hJ.assign (setsSetting_mode FtMode.noConfusion) ?_
  exact hJ.seq (hJ.parseDate _ _ _) fun _ => hJ.setField fun _ => rfl

theorem RefreshCovers.parseStartAt (text : CStr) : J (parseStartAt B text) := by
  refine hJ.assign setsSetting_startAt (hJ.seq (hJ.parseDate _ _ _) fun _ => ?_)
  refine hJ.step (o := .getenv _) trivial fun e => ?_
  split
  · exact hJ.reset
  · exact hJ.ret _

/-- The one piece that assigns `user_offset`. -/
theorem RefreshCovers.parseOffset
    (hoffset : ∀ offset, J (store fun s => { s with userOffset := offset })) (text : CStr) :
    J (parseOffset text) := by
  refine hJ.assign (setsSetting_mode FtMode.noConfusion) ?_
  split
  · exact hJ.exit _ _
  · split
    · exact hJ.exit _ _
    · split
      · exact hJ.exit _ _
      · exact hJ.seq (hoffset _) fun _ => hJ.setField fun _ => rfl

theorem RefreshCovers.parseFollow (text : CStr) : J (parseFollow text) := by
  -- the start time, and the modifiers
  have hlast : J (load >>= fun s => if s.userFakedTimeSet = true then pure ()
      else LibFaketime.parseModifiers text) := by
    refine hJ.step (o := .load) trivial fun s => ?_
    split
    · exact hJ.ret _
    · exact hJ.parseModifiers _
  have hreset : J (getenv .faketimeDontReset >>= fun e => if e.isNone = true then
      resetTime >>= fun _ => load >>= fun s => if s.userFakedTimeSet = true then pure ()
        else LibFaketime.parseModifiers text
      else load >>= fun s => if s.userFakedTimeSet = true then pure ()
        else LibFaketime.parseModifiers text) := by
    refine hJ.step (o := .getenv _) trivial fun e => ?_
    split
    · exact hJ.seq hJ.reset fun _ => hlast
    · exact hlast
  refine hJ.assign setsSetting_startAt (hJ.step (o := .getenv _) trivial fun path => ?_)
  cases path with
  | none => exact hJ.exit _ _
  | some path =>
    refine hJ.step (o := .realStat path) trivial fun mtime => ?_
    cases mtime with
    | none => exact hJ.exit _ _
    | some mtime =>
      refine hJ.assignField (fun _ => rfl) (hJ.step (o := .getenv _) trivial fun e => ?_)
      split
      · exact hJ.assignField (fun _ => rfl) hreset
      · refine hJ.assignField (fun _ => rfl) (hJ.assign (setsSetting_mode FtMode.noConfusion) ?_)
        exact hJ.assignField (fun _ => rfl) hreset

theorem RefreshCovers.parseByPrefix
    (hoffset : ∀ offset, J (store fun s => { s with userOffset := offset })) (text : CStr) :
    J (parseByPrefix B text) := by
  unfold LibFaketime.parseByPrefix
  split
  · exact hJ.seq (hJ.parseOffset hoffset _) fun _ => hJ.parseModifiers _
  · exact hJ.seq (hJ.parseOffset hoffset _) fun _ => hJ.parseModifiers _
  · exact hJ.seq (hJ.parseStartAt _) fun _ => hJ.parseModifiers _
  · exact hJ.parseFollow _
  · exact hJ.parseModifiers _
  · exact hJ.parseModifiers _
  · exact hJ.seq (hJ.parseAbsolute _) fun _ => hJ.parseModifiers _

/-- A text is parsed by the case of its prefix. -/
theorem RefreshCovers.parseFtString {text : CStr} (h : J (LibFaketime.parseByPrefix B text)) :
    J (parseFtString B text) := by
  refine hJ.step (o := .load) trivial fun s => ?_
  split
  · exact hJ.ret _
  · exact hJ.seq h fun _ => hJ.setField fun _ => rfl

/-! ### The whole refresh -/

theorem RefreshCovers.of_inspects {β : Type} {p : Sys β} (h : p.Uses Op.Inspects) : J p := by
  induction p with
  | ret a => exact hJ.ret a
  | op o k ih => exact hJ.step h.1 fun r => ih r (h.2 r)

/-- What is shown of the parser is shown of the configuration file. -/
theorem RefreshCovers.readConfigFile (h : ∀ text, J (LibFaketime.parseFtString B text)) :
    J (readConfigFile B) := by
  refine hJ.seq (hJ.of_inspects inspects_findConfig) fun r => ?_
  cases r with
  | error result => exact hJ.ret _
  | ok contents => exact hJ.seq (h _) fun _ => hJ.ret _

/-- **What is shown of the pieces is shown of a refresh.** -/
theorem RefreshCovers.refreshConfig
    (hoffset : ∀ offset, J (store fun s => { s with userOffset := offset }))
    (hmono : J getFakeMonotonicSetting) : J (refreshConfig B) := by
  have hparse : ∀ text, J (LibFaketime.parseFtString B text) :=
    fun text => hJ.parseFtString (hJ.parseByPrefix hoffset text)
  refine hJ.step (o := .realClockGettime _) trivial fun now => ?_
  refine hJ.assign (setsSetting_expireCache _) (hJ.step (o := .load) trivial fun s => ?_)
  split
  · refine hJ.step (o := .getenv _) trivial fun e => hJ.assignField (fun _ => rfl) ?_
    refine hJ.step (o := .load) trivial fun s => ?_
    split
    · refine hJ.seq (hJ.readConfigFile hparse) fun r => ?_
      split
      · exact hJ.seq (hparse _) fun _ => hmono
      · exact hmono
    · exact hJ.seq (hparse _) fun _ => hmono
  · exact hJ.ret _

end Pieces

end LibFaketime
