import LibFaketime.ExcludedWaits
import LibFaketime.OldValue
import LibFaketime.SyscallClock

/-!
# The limits

A query begins with the limits: it is counted, and if the limits shut it out, the reading is
handed on as it is. The external command is started there, too. What comes after that is about
neither (`LibFaketime.arrives_of_limits`), so that what is known of the first part of a query is
known of the query.

A query that is shut out and one that is let through are then described together
(`LibFaketime.runs_query_limited`).
-/

namespace LibFaketime

open Effects Effects.Prog

/-! ### How often the command is started -/

/-- `run_spawn_exec()`, or `system(ft_spawn_target)`. -/
def Op.startsCommand : Op → Bool
  | .spawn => true
  | _ => false

/-- How often a program starts the command. -/
def starts {β : Type} (p : Sys β) (w : World) : ℕ := p.count seq Op.startsCommand w

/-! ### After the limits -/

/-- The calls of a query that are not about the limits. -/
def Bystander {β : Type} (p : Sys β) : Prop := p.Uses fun o : Op => Routine True o ∧ o.KeepsLimits

/-- How often the program starts the command, and what it leaves in the variables of the
process. -/
def Arrives {β : Type} (Q : ℕ → Proc → Prop) (p : Sys β) (w : World) : Prop :=
  p.Ends seq w fun _ w' => Q (starts p w) w'.proc

section Arrives

variable {B : Build} {Q : ℕ → Proc → Prop} {w : World} {c : ClockId} {tp : Timespec}
  {β γ : Type}

theorem bystander_of_plain {p : Sys β} (hp : p.Uses (Plain True)) : Bystander p :=
  hp.mono fun _ ho => ⟨ho.1.1.1.1.1, ho.1.2⟩

theorem bystander_of_refreshing {p : Sys β} (hp : p.Uses (Refreshing True)) : Bystander p :=
  hp.mono fun _ ho => ⟨ho.1.1.1, ho.2.1⟩

theorem bystander_of_detached {p : Sys β} (hp : p.Uses (Detached True)) : Bystander p :=
  hp.mono fun _ ho => ⟨ho.1.1.1.1, ho.2⟩

/-- They do not start the command. -/
theorem Bystander.starts_eq_zero {p : Sys β} (hp : Bystander p) : starts p w = 0 :=
  Uses.count_eq_zero hp fun o ho => by
    cases o
    case spawn => exact ho.2.elim
    all_goals rfl

theorem bystander_finishQuery (out : Outcome) : Bystander (finishQuery B c tp out) := by
  cases out with
  | abort code tp' => exact uses_pure _
  | faked tp' =>
    refine (bystander_of_plain (plain_saveTime trivial _ _)).bind fun _ => Uses.bind
      (uses_perform (I := sys) ⟨routine_cacheTimes _ _ _, fun s => ?_⟩) fun _ => uses_pure _
    obtain ⟨reals, fakes, hs⟩ := Proc.exists_cacheTimes c tp (normalizeTimespecValue tp') s
    rw [hs]
    rfl

/-- What follows has nothing to do with it. -/
theorem Arrives.bind {p : Sys β} {f : β → Sys γ}
    (hQ : ∀ n s s', s'.limitState = s.limitState → Q n s → Q n s') (hp : Arrives Q p w)
    (hf : ∀ b, Bystander (f b)) : Arrives Q (p >>= f) w := by
  intro a w' hr
  obtain ⟨b, w₁, h₁, h₂, hcount⟩ := exists_of_run_bind_count (c := Op.startsCommand) hr
  rw [starts, hcount, ← starts, ← starts, (hf b).starts_eq_zero, Nat.add_zero]
  exact hQ _ _ _ (limitState_of_run (hf b) a w' h₂) (hp b w₁ h₁)

/-- What comes before does not start the command. -/
theorem Arrives.after {o : Op} {f : o.Ans → Sys γ} (hstart : o.startsCommand = false)
    (hf : ∀ r w₁, seq w o = .ok (r, w₁) → Arrives Q (f r) w₁) :
    Arrives Q (perform (I := sys) o >>= f) w := by
  have hnone : (perform (I := sys) o).Uses fun o : Op => o.startsCommand = false :=
    uses_perform hstart
  intro a w' hr
  obtain ⟨r, w₁, h₁, h₂, hcount⟩ := exists_of_run_bind_count (c := Op.startsCommand) hr
  rw [starts, hcount, hnone.count_eq_zero fun _ ho => ho, Nat.zero_add]
  rw [run_perform] at h₁
  exact hf r w₁ h₁ a w' h₂

/-- **What the limits and the command leave behind** is what the whole query leaves behind. -/
theorem arrives_of_limits (hQ : ∀ n s s', s'.limitState = s.limitState → Q n s → Q n s')
    (hfaking : w.dontFake = false) (hcpu : c.IsCpu = false)
    (hlimits : ∀ v : World, v.proc = w.proc → Arrives Q (limitsAndSpawn c tp) v) :
    Arrives Q (fakeClockGettime B c tp) w := by
  have hlocked : ∀ v : World, v.proc = w.proc → Arrives Q (fakeLocked B c tp) v := by
    intro v hv
    refine (hlimits v hv).bind hQ fun b => ?_
    split
    · exact uses_pure _
    · exact (bystander_of_refreshing (refreshing_refreshConfig trivial)).bind fun _ =>
        bystander_of_detached (detached_replay (trivial : True) c tp)
  have hunlock : Bystander timeMutexUnlock :=
    bystander_of_plain (uses_perform (plain_of_shared trivial trivial))
  refine Arrives.after (o := .dontFake) rfl ?_
  rintro _ _ ⟨⟩
  rw [hfaking, hcpu, if_neg (by simp), if_neg (by simp)]
  cases B.pthreadSinglethreadedTime with
  | false => exact (hlocked w rfl).bind hQ fun out => bystander_finishQuery out
  | true =>
    refine Arrives.after (o := .timeMutexLock) rfl fun _ v hlock => ?_
    have hproc : v.proc = w.proc := (proc_of_seq (o := .timeMutexLock) (fun _ h => nomatch h)
      (fun _ h => nomatch h) (fun _ _ h => nomatch h) hlock).1
    exact (hlocked v hproc).bind hQ fun out =>
      Uses.bind hunlock fun _ => bystander_finishQuery out

/-- A query is counted, and nothing else is. -/
theorem ends_callcounter (hfaking : w.dontFake = false) (hcpu : c.IsCpu = false) :
    (fakeClockGettime B c tp).Ends seq w fun _ w' =>
      w'.proc.callcounter = w.proc.counted.callcounter := by
  refine arrives_of_limits (Q := fun _ s => s.callcounter = w.proc.counted.callcounter) ?_
    hfaking hcpu fun v hv => ?_
  · intro _ s s' hs h
    exact (congrArg (fun k => k.1.1) hs).trans h
  · refine runs_limitsAndSpawn_counted.ends.mono ?_
    rintro r _ ⟨-, b, rfl⟩
    rw [← hv]

end Arrives

/-! ### What the limits go by -/

section Counted

variable {s s' : Proc} {c : ClockId} {tp : Timespec}

/-- Only the number of calls changes. -/
theorem counted_eq (s : Proc) : s.counted = { s with callcounter := if s.countsCalls then
    if s.callcounter < longMax then s.callcounter + 1 else s.callcounter else s.callcounter } := by
  unfold Proc.counted
  split <;> rfl

theorem core_counted (s : Proc) : s.counted.core = s.core := by
  unfold Proc.counted
  split <;> rfl

theorem core_iterate_counted (n : ℕ) (s : Proc) : (Proc.counted^[n] s).core = s.core := by
  induction n with
  | zero => rfl
  | succ n ih => rw [Function.iterate_succ_apply', core_counted, ih]

/-- What the limits say depends on the settings and on the number of the call. -/
theorem eq_of_core {β : Type} (hcore : s'.core = s.core) (hcalls : s'.callcounter = s.callcounter)
    (f : Proc → β)
    (hf : ∀ k (s : Proc), f { s.core with callcounter := k } = f { s with callcounter := k }) :
    f s' = f s := by
  have h := Proc.field_eq hcore (fun s => f { s with callcounter := s'.callcounter })
    (fun s => hf _ s)
  rwa [show ({ s with callcounter := s'.callcounter } : Proc) = s by rw [hcalls]] at h

theorem shutsOut_eq (hcore : s'.core = s.core) (hcalls : s'.callcounter = s.callcounter) :
    s'.shutsOut c tp = s.shutsOut c tp := by
  refine eq_of_core hcore hcalls (fun s => s.shutsOut c tp) fun k s => ?_
  rw [Proc.shutsOut, Proc.shutsOut, counted_eq, counted_eq]
  rfl

theorem callcounter_counted_eq (hcore : s'.core = s.core)
    (hcalls : s'.callcounter = s.callcounter) :
    s'.counted.callcounter = s.counted.callcounter := by
  refine eq_of_core hcore hcalls (fun s => s.counted.callcounter) fun k s => ?_
  rw [counted_eq, counted_eq]
  rfl

/-- The limits go by the second. -/
theorem shutsOut_of_second {tp' : Timespec} (h : (timespecsub tp' (s.ftplStarttime.of c)).tvSec =
    (timespecsub tp (s.ftplStarttime.of c)).tvSec) : s.shutsOut c tp' = s.shutsOut c tp := by
  rw [Proc.shutsOut, Proc.shutsOut, h]

end Counted

/-! ### The whole query -/

/-- The seconds that have passed on a clock when it shows `tp`. -/
def Proc.secondsSince (s : Proc) (c : ClockId) (tp : Timespec) : ℤ :=
  (timespecsub tp (s.ftplStarttime.of c)).tvSec

/-- **A setting in force**, in any mode and with any limits, but without a replay. The
configuration may be read again, and comes out the same. If the semaphore is held, it is not needed
for a tick or for the save file. -/
structure Standing (B : Build) (w : World) : Prop where
  calm : Calm w
  tries : 0 < B.retries
  noReplay : w.proc.infileSet = false
  mutexFree : w.mutexHeld = false
  semFree : w.proc.userPerTickIncSet = true → w.semHeld = false
  saves : w.semHeld = true → (w.proc.sharedSemInitialized && w.proc.outfileOpen) = false
  fixed : ∀ w₁, w₁.os = w.os → w₁.file = w.file → w₁.proc.core = w.proc.core →
    ∃ w₂, (refreshConfig B).run seq w₁ = .ok ((), w₂) ∧ Like w₁ w₂ ∧ w₂.shm = w₁.shm

/-- What the locked part of a query makes of a reading, the limits included. -/
def World.limited (w : World) (c : ClockId) (tp : Timespec) : Outcome :=
  if w.proc.shutsOut c tp then .abort 0 tp else w.outcome c tp

/-- The shared block after the query. -/
def World.limitedShm (w : World) (c : ClockId) (tp : Timespec) : FtShared :=
  if w.proc.shutsOut c tp then w.shm else w.ticked

section Standing

variable {B : Build} {w w' : World} {c : ClockId} {tp : Timespec}

theorem Standing.like (hs : Standing B w) (h : Like w w') : Standing B w' where
  calm := hs.calm.like h
  tries := hs.tries
  noReplay := (h.field Proc.infileSet).trans hs.noReplay
  mutexFree := h.mutexHeld.trans hs.mutexFree
  semFree hset := h.semHeld.trans (hs.semFree ((h.field Proc.userPerTickIncSet).symm.trans hset))
  saves := by
    rw [h.semHeld, h.field Proc.sharedSemInitialized, h.field Proc.outfileOpen]
    exact hs.saves
  fixed w₁ hos hfile hcore := hs.fixed w₁ (hos.trans h.os) (hfile.trans h.file) (hcore.trans h.core)

/-- The limits decide first. -/
theorem Standing.runs_fakeLocked (hs : Standing B w) (b : Bool) :
    (fakeLocked B c tp).Runs seq { w with mutexHeld := b } fun o w' =>
      o = w.limited c tp ∧ Like { w with mutexHeld := b } w' ∧ w'.shm = w.limitedShm c tp := by
  have hlimits : (limitsAndSpawn c tp).Runs seq { w with mutexHeld := b } fun r w' =>
      r = w.proc.shutsOut c tp ∧ Counted { w with mutexHeld := b } w' := by
    refine runs_limitsAndSpawn_counted.mono ?_
    rintro r _ ⟨hr, spawned, rfl⟩
    exact ⟨hr, counted_counted (w := { w with mutexHeld := b }) spawned⟩
  unfold World.limited World.limitedShm
  cases hout : w.proc.shutsOut c tp with
  | true =>
    rw [if_pos rfl, if_pos rfl]
    refine hlimits.bind ?_
    rintro _ w₁ ⟨rfl, hcounted⟩
    rw [hout, if_pos rfl]
    exact runs_pure ⟨rfl, hcounted.like⟩
  | false =>
    rw [if_neg (by simp), if_neg (by simp)]
    rw [hout] at hlimits
    refine runs_fakeLocked_let hs.calm hs.tries hlimits hs.noReplay hs.semFree fun w₁ hcounted => ?_
    exact hs.fixed w₁ hcounted.like.1.os hcounted.like.1.file hcounted.like.1.core

/-- **A query, whatever the limits are.** -/
theorem Standing.runs_query (hs : Standing B w) (hfaking : w.dontFake = false)
    (hcpu : c.IsCpu = false) (tp : Timespec) : (fakeClockGettime B c tp).Runs seq w fun x w' =>
      x = (w.limited c tp).result ∧ Like w w' ∧ w'.shm = w.limitedShm c tp ∧
        w'.proc.callcounter = w.proc.counted.callcounter := by
  have hquery := runs_fakeClockGettime_of_locked (B := B) (V := (· = w)) (o := w.limited c tp)
    hfaking (by rw [hcpu]; simp) hs.mutexFree hs.tries
    (by rintro _ rfl; exact ⟨hs.calm, hs.mutexFree, hs.saves⟩)
    ((hs.runs_fakeLocked _).mono fun _ _ h => ⟨h.1, w, rfl, h.2.1⟩)
  have hshm := ends_shm_of_locked (J := (· = w.limitedShm c tp)) hfaking hcpu fun b =>
    (hs.runs_fakeLocked b).ends.mono fun _ _ h => h.2.2
  refine ((hquery.and_ends hshm).and_ends (ends_callcounter hfaking hcpu)).mono ?_
  rintro _ w' ⟨⟨⟨rfl, _, rfl, hlike⟩, hshm'⟩, hcalls⟩
  exact ⟨rfl, hlike, hshm', hcalls⟩

end Standing

end LibFaketime
