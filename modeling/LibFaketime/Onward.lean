import LibFaketime.Entry
import LibFaketime.RefreshCalls

/-!
# What a query leaves alone

A query goes on from the state that the one before it has left, and between them they change the
setting, the start time, the ticks and the counters. The rest stays: the environment and the files,
the lock, the save file, the position in the load file, and the variables of a process that are
set up once (`LibFaketime.Onward`). Each stage of a query that comes to its end keeps it, up to the
save file at its very end.
-/

namespace LibFaketime

open Effects Effects.Prog

/-! ### The relation -/

/-- A process without what a query may change. -/
def Proc.lasting (s : Proc) : Proc :=
  { s.besides with
    ftplStarttime := .unset
    ftplTimecache := .unset
    ftplFaketimecache := .unset
    userOffset := .unset
    fakeMonotonicClock := true
    callcounter := 0
    spawned := false }

/-- The monotonic clocks are faked, and no value in the environment says otherwise. -/
structure World.FakesMonotonic (w : World) : Prop where
  faked : w.proc.fakeMonotonicClock = true
  env : ∀ n v, v = EnvVar.faketimeDontFakeMonotonic ∨ v = .dontFakeMonotonic →
    w.os n (.getenv v) ≠ some (some ['1'])

/-- **A later world of the same process**, as far as a query that has not saved its time yet may
change it. -/
structure Onward (w w' : World) : Prop where
  os : w'.os = w.os
  file : w'.file = w.file
  dontFake : w'.dontFake = w.dontFake
  semHeld : w'.semHeld = w.semHeld
  mutexHeld : w'.mutexHeld = w.mutexHeld
  saved : w'.saved = w.saved
  fileIdx : w'.shm.fileIdx = w.shm.fileIdx
  lasting : w'.proc.lasting = w.proc.lasting
  noop : w'.proc.ftMode = .noop → w.proc.ftMode = .noop
  monotonic : w.FakesMonotonic → w'.FakesMonotonic

section Onward

variable {w w₁ w₂ : World}

theorem Onward.refl (w : World) : Onward w w := ⟨rfl, rfl, rfl, rfl, rfl, rfl, rfl, rfl, id, id⟩

theorem Onward.trans (h : Onward w w₁) (h' : Onward w₁ w₂) : Onward w w₂ where
  os := h'.os.trans h.os
  file := h'.file.trans h.file
  dontFake := h'.dontFake.trans h.dontFake
  semHeld := h'.semHeld.trans h.semHeld
  mutexHeld := h'.mutexHeld.trans h.mutexHeld
  saved := h'.saved.trans h.saved
  fileIdx := h'.fileIdx.trans h.fileIdx
  lasting := h'.lasting.trans h.lasting
  noop := h.noop ∘ h'.noop
  monotonic := h'.monotonic ∘ h.monotonic

/-- A field that lasts is the same. -/
theorem Onward.field {β : Type} (h : Onward w w₁) (f : Proc → β)
    (hf : ∀ s, f s.lasting = f s := by intro _; rfl) : f w₁.proc = f w.proc := by
  rw [← hf, h.lasting, hf]

theorem Onward.tick (w : World) : Onward w w.tick :=
  ⟨rfl, rfl, rfl, rfl, rfl, rfl, rfl, rfl, id, fun h => ⟨h.faked, h.env⟩⟩

/-- An assignment of what may change. -/
theorem Onward.store {f : Proc → Proc}
    (h : ∀ s, ((f s).lasting, (f s).fakeMonotonicClock) = (s.lasting, s.fakeMonotonicClock))
    (hnoop : ∀ s, (f s).ftMode = .noop → s.ftMode = .noop) :
    Onward w { w with proc := f w.proc } := by
  refine ⟨rfl, rfl, rfl, rfl, rfl, rfl, rfl, congrArg (fun k => k.1) (h w.proc), hnoop w.proc, ?_⟩
  exact fun hm => ⟨(congrArg (fun k => k.2) (h w.proc)).trans hm.faked, hm.env⟩

/-- A call that only looks. -/
theorem onward_of_inspects {o : Op} (ho : o.Inspects) {r : o.Ans} (h : seq w o = .ok (r, w₁)) :
    Onward w w₁ := by
  have hask : w.ask o (fun _ w => w) = .ok (r, w₁) → Onward w w₁ := by
    intro heq
    obtain ⟨-, rfl⟩ := World.ask_eq_ok heq
    exact .tick w
  cases o
  case load | perror | read =>
    cases h
    exact ⟨rfl, rfl, rfl, rfl, rfl, rfl, rfl, rfl, id, fun hm => ⟨hm.faked, hm.env⟩⟩
  case openRead path =>
    rw [seq_openRead] at h
    split at h
    · cases h
      exact ⟨rfl, rfl, rfl, rfl, rfl, rfl, rfl, rfl, id, fun hm => ⟨hm.faked, hm.env⟩⟩
    · cases h
      exact ⟨rfl, rfl, rfl, rfl, rfl, rfl, rfl, rfl, id, fun hm => ⟨hm.faked, hm.env⟩⟩
  case getenv | realClockGettime | realStat | close => exact hask h
  case exit => cases h
  case stalled => cases h
  all_goals exact ho.elim

end Onward

/-! ### Programs -/

/-- **A program leads onward** if it does so, whenever it comes to its end, from a world in which
the semaphore is free. -/
def Advances {β : Type} (p : Sys β) : Prop :=
  ∀ w : World, w.semHeld = false → p.Ends seq w fun _ w' => Onward w w'

section Programs

variable {β γ : Type} {B : Build} {w : World}

theorem advances_pure (a : β) : Advances (pure a : Sys β) := fun w _ => ends_pure (.refl w)

theorem Advances.bind {p : Sys β} {f : β → Sys γ} (hp : Advances p) (hf : ∀ a, Advances (f a)) :
    Advances (p >>= f) := by
  intro w hfree
  refine (hp w hfree).bind fun a w₁ h₁ => ?_
  exact (hf a w₁ (h₁.semHeld.trans hfree)).mono fun _ _ h₂ => h₁.trans h₂

theorem advances_inspects {o : Op} (ho : o.Inspects) : Advances (perform (I := sys) o) := by
  intro w _ r w' hr
  rw [run_perform] at hr
  exact onward_of_inspects ho hr

theorem advances_step {o : Op} {f : o.Ans → Sys γ} (ho : o.Inspects) (h : ∀ r, Advances (f r)) :
    Advances (perform (I := sys) o >>= f) := (advances_inspects ho).bind h

theorem advances_store {f : Proc → Proc}
    (h : ∀ s, ((f s).lasting, (f s).fakeMonotonicClock) = (s.lasting, s.fakeMonotonicClock))
    (hnoop : ∀ s, (f s).ftMode = .noop → s.ftMode = .noop) : Advances (store f) := by
  intro w _ r w' hr
  cases hr
  exact .store h hnoop

/-- The usual case: an assignment that leaves the mode alone, too. -/
theorem advances_assign {f : Proc → Proc}
    (h : ∀ s, ((f s).lasting, (f s).fakeMonotonicClock, (f s).ftMode) =
      (s.lasting, s.fakeMonotonicClock, s.ftMode)) : Advances (store f) :=
  advances_store (fun s => congrArg (fun k => (k.1, k.2.1)) (h s)) fun s hs =>
    (congrArg (fun k => k.2.2) (h s)).symm.trans hs

/-! ### Start times -/

theorem advances_systemTimeFromSystem : Advances systemTimeFromSystem := by
  have hread : ∀ c set, Advances (readClock c set) := by
    intro c set
    refine advances_step (o := .realClockGettime c) trivial fun r => ?_
    cases r with
    | none => exact advances_pure _
    | some t => exact advances_assign fun _ => rfl
  exact (hread _ _).bind fun _ => (hread _ _).bind fun _ => (hread _ _).bind fun _ => hread _ _

/-- Publishing the start time leaves the position in the load file alone. -/
theorem ends_publishStarttime : publishStarttime.Ends seq w fun _ w' =>
    ∃ d : FtShared, w' = { w with shm := d } ∧ d.fileIdx = w.shm.fileIdx := by
  refine ends_load (ends_writeShared (ends_writeShared (ends_writeShared (ends_writeShared ?_))))
  refine ends_writeShared (ends_writeShared (ends_writeShared ?_))
  rintro _ _ ⟨⟩
  exact ⟨_, rfl, rfl⟩

/-- What a critical section leads to that is left again. -/
theorem onward_section (hfree : w.semHeld = false) {d : FtShared} (hd : d.fileIdx = w.shm.fileIdx)
    (n : ℕ) : Onward w { w with now := n, shm := d, semHeld := false } :=
  ⟨rfl, rfl, rfl, hfree.symm, rfl, rfl, hd, rfl, id, fun hm => ⟨hm.faked, hm.env⟩⟩

theorem advances_resetTime : Advances resetTime := by
  refine advances_systemTimeFromSystem.bind fun _ => advances_step (o := .load) trivial fun s => ?_
  split
  · intro w hfree
    refine ends_ftSemLock fun r => ?_
    cases r with
    | acquired =>
      refine ends_publishStarttime.bind ?_
      rintro _ _ ⟨d, rfl, hd⟩
      refine ends_ftSemUnlock fun b => ?_
      cases b with
      | false => exact ends_exit
      | true => exact ends_pure (onward_section hfree hd _)
    | interrupted => exact ends_exit
    | failed => exact ends_exit
  · exact advances_pure _

/-! ### The refresh -/

theorem advances_xreset : Advances xreset := by
  refine advances_step (o := .getenv _) trivial fun e => ?_
  split
  · refine advances_step (o := .load) trivial fun s => ?_
    split
    · exact advances_assign fun _ => rfl
    · exact advances_pure _
  · exact advances_pure _

theorem covers_advances : RefreshCovers Advances where
  ret := advances_pure
  seq := Advances.bind
  call _ := advances_inspects
  set f hf := by
    refine advances_store (fun s => ?_) hf.noop
    exact Prod.ext_iff.mpr ⟨hf.field_eq Proc.lasting s, hf.field_eq Proc.fakeMonotonicClock s⟩
  reset := advances_resetTime
  xreset := advances_xreset

/-- The monotonic setting is assigned what the environment has. -/
theorem advances_getFakeMonotonicSetting : Advances getFakeMonotonicSetting := by
  intro w hfree
  have hlast : ∀ w₁ r, Onward w w₁ → (w.FakesMonotonic → r ≠ some ['1']) →
      (assignFakeMonotonic r).Ends seq w₁ fun _ w' => Onward w w' := by
    intro w₁ r h₁ hr
    cases r with
    | none => exact ends_pure h₁
    | some v =>
      rintro _ _ ⟨⟩
      refine ⟨h₁.os, h₁.file, h₁.dontFake, h₁.semHeld, h₁.mutexHeld, h₁.saved, h₁.fileIdx,
        h₁.lasting, h₁.noop, fun hm => ⟨?_, ?_⟩⟩
      · have hv : v ≠ ['1'] := fun h => hr hm (congrArg some h)
        simpa using hv
      · change ∀ n x, _ → w₁.os n _ ≠ _
        rw [h₁.os]
        exact hm.env
  refine ends_ask (o := .getenv _) rfl fun r hr => ?_
  cases r with
  | some v =>
    exact hlast _ _ (.tick w) fun hm h => hm.env _ _ (Or.inl rfl) (hr.trans (congrArg some h))
  | none =>
    refine ends_ask (o := .getenv _) rfl fun r hr => ?_
    exact hlast _ _ ((Onward.tick w).trans (.tick _)) fun hm h =>
      hm.env _ _ (Or.inr rfl) (hr.trans (congrArg some h))

/-- **A refresh leads onward.** -/
theorem advances_refreshConfig : Advances (refreshConfig B) :=
  covers_advances.refreshConfig (fun _ => advances_assign fun _ => rfl)
    advances_getFakeMonotonicSetting

/-! ### The other stages -/

theorem advances_limitsAndSpawn (clkId : ClockId) (tp : Timespec) :
    Advances (limitsAndSpawn clkId tp) := by
  have hspawn : Advances spawn := by
    intro w _ r w' hr
    cases hr
    exact .refl w
  refine Advances.bind ?_ fun _ => advances_step (o := .load) trivial fun s => ?_
  · refine advances_step (o := .load) trivial fun s => ?_
    split
    · exact advances_assign fun _ => rfl
    · exact advances_pure _
  · split
    · dsimp only
      split
      · exact advances_pure _
      · split
        · refine Advances.bind (advances_assign fun _ => rfl) fun _ => hspawn.bind fun _ => ?_
          exact advances_pure _
        · exact advances_pure _
    · exact advances_pure _

theorem advances_nextTime (retries : ℕ) (tp : Timespec) (ticklen : Proc → Timespec) :
    Advances (nextTime retries tp ticklen) := by
  induction retries with
  | zero => exact fun _ _ => ends_stalled
  | succ retries ih =>
    refine advances_step (o := .load) trivial fun s => ?_
    split
    · intro w hfree
      refine ends_ftSemLock fun r => ?_
      cases r with
      | interrupted =>
        refine (ih _ rfl).mono fun _ w' h => Onward.trans ?_ h
        exact onward_section hfree rfl _
      | failed => exact ends_exit
      | acquired =>
        refine ends_load
          (ends_readShared (ends_load (ends_writeShared (ends_ftSemUnlock fun b => ?_))))
        cases b with
        | false => exact (ends_exit (Q := fun _ _ => False)).bind fun _ _ h => h.elim
        | true =>
          have hd : { w.shm with ticks := (w.shm.ticks + 1) % 2 ^ 64 }.fileIdx =
              w.shm.fileIdx := rfl
          exact ends_pure (onward_section hfree hd _)
    · exact advances_pure _

theorem advances_fakeByMode (clkId : ClockId) (tp : Timespec) :
    Advances (fakeByMode B clkId tp) := by
  refine advances_step (o := .load) trivial fun s => ?_
  split
  · exact advances_pure _
  · split
    · exact (advances_nextTime _ _ _).bind fun _ => advances_pure _
    · exact advances_pure _
  · exact advances_pure _

end Programs

end LibFaketime
