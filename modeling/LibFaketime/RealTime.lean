import LibFaketime.Excluded
import LibFaketime.StartTime

/-!
# Excluded processes among others

The initialization of an excluded process, and its threads running together. A thread
relies on the others to leave an excluded process excluded, and to leave a process that is
being initialized to the thread that initializes it (`LibFaketime.SealRely`). The main
result, `LibFaketime.excluded_sees_real_time`, is about every pool a run can reach.
-/

namespace LibFaketime

open Effects Effects.Prog

variable {P T : Type}

/-! ### The protocol -/

section Protocol

/-- What holds between any two calls: every process that has been initialized is excluded,
and the thread that has done it does not fake. -/
structure SealInv (E : Surroundings) (first : P → T) (m : Mem P T Reply) : Prop where
  shm : m.shm.StartValid
  ready : ∀ p, m.ready p = true → Sealed E (m.proc p) ∧ m.dontFake (first p) = true ∧
    ((m.proc p).sharedSemInitialized = true → m.shm.HasStart)

/-- What a thread can rely on. -/
structure SealRely (E : Surroundings) (pid : T → P) (first : P → T) (t : T)
    (m m' : Mem P T Reply) : Prop where
  rest : m'.rest t = m.rest t
  heard : m'.heard t = m.heard t
  seen : m'.seen t = m.seen t
  dontFake : m'.dontFake t = m.dontFake t
  ready : ∀ p, m.ready p = true → m'.ready p = true
  hasStart : m.shm.HasStart → m'.shm.HasStart
  own : t = first (pid t) → m.ready (pid t) = false →
    m'.proc (pid t) = m.proc (pid t) ∧ m'.ready (pid t) = false
  later : m.ready (pid t) = true → Later E (m.proc (pid t)) (m'.proc (pid t))

/-- The protocol of excluded processes. -/
def sealProtocol (E : Surroundings) (pid : T → P) (first : P → T) :
    Protocol T (Mem P T Reply) where
  inv := SealInv E first
  rely := SealRely E pid first
  rely_refl _ _ := ⟨rfl, rfl, rfl, rfl, fun _ h => h, id, fun _ h => ⟨rfl, h⟩, fun _ => .refl _⟩
  rely_trans _ _ _ _ h h' := by
    refine ⟨h'.rest.trans h.rest, h'.heard.trans h.heard, h'.seen.trans h.seen,
      h'.dontFake.trans h.dontFake, fun p hp => h'.ready p (h.ready p hp),
      fun hs => h'.hasStart (h.hasStart hs), fun ht hr => ?_, fun hr => ?_⟩
    · obtain ⟨hp, hr₁⟩ := h.own ht hr
      obtain ⟨hp', hr₂⟩ := h'.own ht hr₁
      exact ⟨hp'.trans hp, hr₂⟩
    · exact (h.later hr).trans (h'.later (h.ready _ hr))

end Protocol

section Steps

variable [DecidableEq P] [DecidableEq T] {E : Surroundings} {pid : T → P} {first : P → T} {t : T}
  {m m' : Mem P T Reply} {B : Build}

/-- A process that is being initialized by `t`. -/
def Owns (pid : T → P) (first : P → T) (t : T) (m : Mem P T Reply) : Prop :=
  t = first (pid t) ∧ m.ready (pid t) = false

omit [DecidableEq P] [DecidableEq T] in
/-- Nobody else initializes the process of `t`, and nobody else's process is touched. -/
theorem Owns.ne (h : Owns pid first t m) {u : T} (hu : u ≠ t) (ho : Owns pid first u m) :
    pid u ≠ pid t := by
  intro hp
  exact hu (by rw [ho.1, hp, ← h.1])

omit [DecidableEq P] [DecidableEq T] in
/-- A step of `t` that does not touch variables, and at most sets a start time. -/
theorem sealed_frame (hi : SealInv E first m) (hproc : m'.proc = m.proc)
    (hready : m'.ready = m.ready) (hdont : m'.dontFake = m.dontFake)
    (hset : m.shm.HasStart → m'.shm.HasStart) (hvalid : m'.shm.StartValid)
    (hothers : ∀ u, u ≠ t → m'.rest u = m.rest u ∧ m'.heard u = m.heard u ∧ m'.seen u = m.seen u) :
    SealInv E first m' ∧ (sealProtocol E pid first).Guar t m m' := by
  refine ⟨⟨hvalid, fun p hp => ?_⟩, fun u hu => ?_⟩
  · rw [hready] at hp
    obtain ⟨hs, hd, hstart⟩ := hi.ready p hp
    rw [hproc, hdont]
    exact ⟨hs, hd, fun h => hset (hstart h)⟩
  · obtain ⟨h₁, h₂, h₃⟩ := hothers u hu
    refine ⟨h₁, h₂, h₃, by rw [hdont], fun p hp => by rw [hready]; exact hp, hset, fun _ hr => ?_,
      fun _ => ?_⟩
    · rw [hproc, hready]
      exact ⟨rfl, hr⟩
    · rw [hproc]
      exact .refl _

omit [DecidableEq P] in
/-- A reading of a clock. -/
theorem sealed_frame_read (hi : SealInv E first m) (c : ClockId) (r : Option Timespec) :
    SealInv E first { m.hear t (.clock c r) with
        seen := Function.update m.seen t (Function.update (m.seen t) c r) } ∧
      (sealProtocol E pid first).Guar t m { m.hear t (.clock c r) with
        seen := Function.update m.seen t (Function.update (m.seen t) c r) } :=
  sealed_frame hi rfl rfl rfl id hi.shm
    fun _ hu => ⟨rfl, Function.update_of_ne hu .., Function.update_of_ne hu ..⟩

/-- The state of a process one of whose threads is running: it has been initialized, or, if
`i` holds, it is being initialized and excluded already. -/
structure Running (E : Surroundings) (pid : T → P) (first : P → T) (t : T) (i : Prop) (d : Bool)
    (s₀ : Proc) (m : Mem P T Reply) : Prop where
  state : m.ready (pid t) = true ∨ i ∧ Owns pid first t m ∧ Sealed E (m.proc (pid t)) ∧
    ((m.proc (pid t)).sharedSemInitialized = true → m.shm.HasStart)
  later : Later E s₀ (m.proc (pid t))
  dontFake : m.dontFake t = d

variable {i : Prop} {d : Bool} {s₀ : Proc}

omit [DecidableEq P] [DecidableEq T] in
theorem Running.isSealed (h : Running E pid first t i d s₀ m) (hi : SealInv E first m) :
    Sealed E (m.proc (pid t)) ∧
      ((m.proc (pid t)).sharedSemInitialized = true → m.shm.HasStart) := by
  rcases h.state with hr | ⟨-, -, hs, hstart⟩
  · exact ⟨(hi.ready _ hr).1, (hi.ready _ hr).2.2⟩
  · exact ⟨hs, hstart⟩

omit [DecidableEq P] [DecidableEq T] in
theorem Running.stable (h : Running E pid first t i d s₀ m) (hr : SealRely E pid first t m m') :
    Running E pid first t i d s₀ m' := by
  refine ⟨?_, ?_, hr.dontFake.trans h.dontFake⟩
  · rcases h.state with hready | ⟨hi, ho, hs, hstart⟩
    · exact Or.inl (hr.ready _ hready)
    · obtain ⟨hp, hready⟩ := hr.own ho.1 ho.2
      rw [hp]
      exact Or.inr ⟨hi, ⟨ho.1, hready⟩, hs, fun h => hr.hasStart (hstart h)⟩
  · rcases h.state with hready | ⟨-, ho, -, -⟩
    · exact h.later.trans (hr.later hready)
    · rw [(hr.own ho.1 ho.2).1]
      exact h.later

omit [DecidableEq P] [DecidableEq T] in
theorem Running.frame (h : Running E pid first t i d s₀ m) (hproc : m'.proc = m.proc)
    (hready : m'.ready = m.ready) (hdont : m'.dontFake = m.dontFake)
    (hset : m.shm.HasStart → m'.shm.HasStart) : Running E pid first t i d s₀ m' := by
  refine ⟨?_, by rw [hproc]; exact h.later, by rw [hdont]; exact h.dontFake⟩
  rcases h.state with hr | ⟨hi, ho, hs, hstart⟩
  · exact Or.inl (by rw [hready]; exact hr)
  · refine Or.inr ⟨hi, ⟨ho.1, by rw [hready]; exact ho.2⟩, ?_⟩
    rw [hproc]
    exact ⟨hs, fun h => hset (hstart h)⟩

omit [DecidableEq T] in
/-- An assignment by a thread of an excluded process. -/
theorem sealed_store {f : Proc → Proc} (hf : Seals E f) (hi : SealInv E first m)
    (h : Running E pid first t i d s₀ m) :
    SealInv E first (m.assign (pid t) f) ∧
      (sealProtocol E pid first).Guar t m (m.assign (pid t) f) ∧
      Running E pid first t i d s₀ (m.assign (pid t) f) := by
  obtain ⟨hs, hstart⟩ := h.isSealed hi
  obtain ⟨hs', hl⟩ := hf _ hs
  refine ⟨⟨hi.shm, fun p hp => ?_⟩, fun u hu => ?_, ⟨?_, ?_, h.dontFake⟩⟩
  · obtain ⟨h₁, h₂, h₃⟩ := hi.ready p hp
    by_cases hpt : p = pid t
    · rw [hpt] at h₂ ⊢
      rw [Mem.assign_proc_self]
      exact ⟨hs', h₂, fun hsh => hstart (hl.shared.symm.trans hsh)⟩
    · rw [Mem.assign_proc_of_ne hpt]
      exact ⟨h₁, h₂, h₃⟩
  · refine ⟨rfl, rfl, rfl, rfl, fun _ h => h, id, fun hu₁ hu₂ => ⟨?_, hu₂⟩, fun _ => ?_⟩
    · have hne : pid u ≠ pid t := by
        rcases h.state with hr | ⟨-, ho, -, -⟩
        · intro hp
          rw [hp, hr] at hu₂
          cases hu₂
        · exact ho.ne hu ⟨hu₁, hu₂⟩
      exact Mem.assign_proc_of_ne hne
    · by_cases hp : pid u = pid t
      · rw [hp, Mem.assign_proc_self]
        exact hl
      · rw [Mem.assign_proc_of_ne hp]
        exact .refl _
  · rcases h.state with hr | ⟨hinit, ho, -, -⟩
    · exact Or.inl hr
    · refine Or.inr ⟨hinit, ho, ?_⟩
      rw [Mem.assign_proc_self]
      exact ⟨hs', fun hsh => hstart (hl.shared.symm.trans hsh)⟩
  · rw [Mem.assign_proc_self]
    exact h.later.trans hl

/-- What others do to the shared block takes no start time out of it. -/
def OthersKeepStart (E : Surroundings) : Prop :=
  ∀ b b', E.others b b' → (b.HasStart → b'.HasStart) ∧ (b.StartValid → b'.StartValid)

/-- What a thread of an excluded process sees. -/
def Mem.ask (m : Mem P T Reply) (t : T) : Ask := ⟨m.rest t, m.heard t⟩

/-- **A step of a thread of an excluded process**: it leaves the process excluded and disturbs
nobody. -/
structure Undisturbed (E : Surroundings) (pid : T → P) (first : P → T) (t : T) (i : Prop)
    (d : Bool) (s₀ : Proc) (m m' : Mem P T Reply) : Prop where
  inv : SealInv E first m'
  guar : (sealProtocol E pid first).Guar t m m'
  running : Running E pid first t i d s₀ m'

omit [DecidableEq P] [DecidableEq T] in
/-- A call that changes nothing. -/
theorem undisturbed_refl (hi : SealInv E first m) (h : Running E pid first t i d s₀ m) :
    Undisturbed E pid first t i d s₀ m m := ⟨hi, guar_refl _, h⟩

omit [DecidableEq P] [DecidableEq T] in
/-- A call that is about nothing but what belongs to the thread. -/
theorem undisturbed_local (hi : SealInv E first m) (h : Running E pid first t i d s₀ m)
    (hproc : m'.proc = m.proc) (hready : m'.ready = m.ready) (hdont : m'.dontFake = m.dontFake)
    (hshm : m'.shm = m.shm)
    (hothers : ∀ u, u ≠ t → m'.rest u = m.rest u ∧ m'.heard u = m.heard u ∧ m'.seen u = m.seen u) :
    Undisturbed E pid first t i d s₀ m m' := by
  have hset : m.shm.HasStart → m'.shm.HasStart := by
    rw [hshm]
    exact id
  obtain ⟨hi', hg⟩ := sealed_frame hi hproc hready hdont hset (by rw [hshm]; exact hi.shm) hothers
  exact ⟨hi', hg, h.frame hproc hready hdont hset⟩

omit [DecidableEq P] [DecidableEq T] in
/-- A call that changes the shared block. -/
theorem undisturbed_shm {b : FtShared} (hi : SealInv E first m)
    (h : Running E pid first t i d s₀ m) (hstart : m.shm.HasStart → b.HasStart)
    (hvalid : m.shm.StartValid → b.StartValid) :
    Undisturbed E pid first t i d s₀ m { m with shm := b } := by
  have hframe : SealInv E first { m with shm := b } ∧
      (sealProtocol E pid first).Guar t m { m with shm := b } :=
    sealed_frame hi rfl rfl rfl hstart (hvalid hi.shm) fun _ _ => ⟨rfl, rfl, rfl⟩
  exact ⟨hframe.1, hframe.2, h.frame rfl rfl rfl hstart⟩

/-- What the thread sees of such a step is what it sees of its call. -/
def AskStep (E : Surroundings) (pid : T → P) (first : P → T) (t : T) (i : Prop) (d : Bool)
    (s₀ : Proc) (m : Mem P T Reply) (o : Op) (r : o.Ans) (m' : Mem P T Reply) : Prop :=
  Undisturbed E pid first t i d s₀ m m' ∧ (m.ask t).Answers E d s₀ o r (m'.ask t)

/-- The shared block is read, which may show what other processes have made of it. -/
theorem askStep_readShared {r : FtShared} (hothers : OthersKeepStart E) (hi : SealInv E first m)
    (h : Running E pid first t i d s₀ m) (ha : m.Answers E pid t .readShared r m') :
    AskStep E pid first t i d s₀ m .readShared r m' := by
  obtain ⟨hd, rfl⟩ := ha
  refine ⟨undisturbed_shm hi h (hothers _ _ hd).1 (hothers _ _ hd).2, fun hsh => ?_, rfl⟩
  exact (hothers _ _ hd).1 ((h.isSealed hi).2 (h.later.shared.trans hsh))

/-- The semaphore is taken, or not. -/
theorem askStep_ftSemLock {r : LockResult} (hi : SealInv E first m)
    (h : Running E pid first t i d s₀ m) (ha : m.Answers E pid t .ftSemLock r m') :
    AskStep E pid first t i d s₀ m .ftSemLock r m' := by
  cases r with
  | acquired =>
    obtain ⟨-, rfl⟩ := ha
    exact ⟨undisturbed_local hi h rfl rfl rfl rfl fun _ _ => ⟨rfl, rfl, rfl⟩, rfl⟩
  | interrupted =>
    obtain rfl : m' = m := ha
    exact ⟨undisturbed_refl hi h, rfl⟩
  | failed =>
    obtain rfl : m' = m := ha
    exact ⟨undisturbed_refl hi h, rfl⟩

theorem askStep_ftSemUnlock {r : Bool} (hi : SealInv E first m)
    (h : Running E pid first t i d s₀ m) (ha : m.Answers E pid t .ftSemUnlock r m') :
    AskStep E pid first t i d s₀ m .ftSemUnlock r m' := by
  cases r with
  | true =>
    obtain rfl : m' = { m with sem := none } := ha
    exact ⟨undisturbed_local hi h rfl rfl rfl rfl fun _ _ => ⟨rfl, rfl, rfl⟩, rfl⟩
  | false =>
    obtain rfl : m' = m := ha
    exact ⟨undisturbed_refl hi h, rfl⟩

/-- A reading is heard by the thread. -/
theorem askStep_realClockGettime {c : ClockId} {r : Option Timespec} (hi : SealInv E first m)
    (h : Running E pid first t i d s₀ m) (ha : m.Answers E pid t (.realClockGettime c) r m') :
    AskStep E pid first t i d s₀ m (.realClockGettime c) r m' := by
  obtain ⟨hr, rfl⟩ := ha
  refine ⟨undisturbed_local hi h rfl rfl rfl rfl fun u hu =>
    ⟨rfl, Function.update_of_ne hu .., Function.update_of_ne hu ..⟩, hr, ?_⟩
  simp [Mem.ask, Mem.hear, Ask.hear]

theorem askStep_realGettimeofday {r : Option Timeval} (hi : SealInv E first m)
    (h : Running E pid first t i d s₀ m) (ha : m.Answers E pid t .realGettimeofday r m') :
    AskStep E pid first t i d s₀ m .realGettimeofday r m' := by
  obtain ⟨hr, rfl⟩ := ha
  refine ⟨undisturbed_local hi h rfl rfl rfl rfl fun u hu =>
    ⟨rfl, Function.update_of_ne hu .., rfl⟩, hr, ?_⟩
  simp [Mem.ask, Mem.hear, Ask.hear]

theorem askStep_openRead {path : CStr} {r : Option ℕ} (hi : SealInv E first m)
    (h : Running E pid first t i d s₀ m) (ha : m.Answers E pid t (.openRead path) r m') :
    AskStep E pid first t i d s₀ m (.openRead path) r m' := by
  obtain ⟨contents, hf, hsome, rfl⟩ := ha
  exact ⟨undisturbed_local hi h rfl rfl rfl rfl fun u hu =>
    ⟨Function.update_of_ne hu .., rfl, rfl⟩, contents, hf, hsome, by simp [Mem.ask]⟩

theorem askStep_read {fd count : ℕ} {r : ReadResult} (hi : SealInv E first m)
    (h : Running E pid first t i d s₀ m) (ha : m.Answers E pid t (.read fd count) r m') :
    AskStep E pid first t i d s₀ m (.read fd count) r m' := by
  cases r with
  | bytes l =>
    obtain ⟨hpre, hle, hnil, rfl⟩ := ha
    exact ⟨undisturbed_local hi h rfl rfl rfl rfl fun u hu =>
      ⟨Function.update_of_ne hu .., rfl, rfl⟩, hpre, hle, hnil, by simp [Mem.ask]⟩
  | failed =>
    obtain ⟨-, rfl⟩ := ha
    exact ⟨undisturbed_refl hi h, rfl⟩

/-- **Every call leaves the process excluded and disturbs nobody.** -/
theorem ask_step {o : Op} {r : o.Ans} (hothers : OthersKeepStart E)
    (hA : Sealing E (m.ask t) o) (hi : SealInv E first m) (h : Running E pid first t i d s₀ m)
    (ha : m.Answers E pid t o r m') : AskStep E pid first t i d s₀ m o r m' := by
  cases o with
  | load =>
    obtain ⟨rfl, rfl⟩ := ha
    exact ⟨undisturbed_refl hi h, ⟨(h.isSealed hi).1, h.later⟩, rfl⟩
  | store f =>
    obtain rfl : m' = m.assign (pid t) f := ha
    obtain ⟨h₁, h₂, h₃⟩ := sealed_store hA hi h
    exact ⟨⟨h₁, h₂, h₃⟩, rfl⟩
  | dontFake =>
    obtain ⟨rfl, rfl⟩ := ha
    exact ⟨undisturbed_refl hi h, h.dontFake, rfl⟩
  | setDontFake b => exact hA.elim
  | readShared => exact askStep_readShared hothers hi h ha
  | writeShared f =>
    obtain rfl : m' = { m with shm := f m.shm } := ha
    exact ⟨undisturbed_shm hi h (hA _).1 (hA _).2, rfl⟩
  | ftSemLock => exact askStep_ftSemLock hi h ha
  | ftSemUnlock => exact askStep_ftSemUnlock hi h ha
  | timeMutexLock =>
    obtain ⟨-, rfl⟩ := ha
    exact ⟨undisturbed_local hi h rfl rfl rfl rfl fun _ _ => ⟨rfl, rfl, rfl⟩, rfl⟩
  | timeMutexUnlock =>
    obtain rfl : m' = _ := ha
    exact ⟨undisturbed_local hi h rfl rfl rfl rfl fun _ _ => ⟨rfl, rfl, rfl⟩, rfl⟩
  | realClockGettime c => exact askStep_realClockGettime hi h ha
  | realGettimeofday => exact askStep_realGettimeofday hi h ha
  | openRead path => exact askStep_openRead hi h ha
  | read fd count => exact askStep_read hi h ha
  | getenv x =>
    obtain ⟨hr, rfl⟩ := ha
    exact ⟨undisturbed_refl hi h, hr, rfl⟩
  | _ =>
    obtain ⟨-, rfl⟩ := ha
    exact ⟨undisturbed_refl hi h, rfl⟩

/-- **The rule of excluded processes**: what is shown of a program on what its thread knows
holds among others. -/
theorem safe_of_ask {β : Type} {Q : β → Ask → Prop} {p : Sys β} {inits : Reply → Bool}
    {start : T → Mem P T Reply → Sys Reply → Prop} (hothers : OthersKeepStart E)
    (hp : AskWp E d s₀ Q p (m.ask t)) (hm : Running E pid first t i d s₀ m) :
    (sealProtocol E pid first).Safe (system E pid inits start) t
      (fun a m => Running E pid first t i d s₀ m ∧ Q a (m.ask t)) p m := by
  refine Protocol.safe_of_wp (P := sealProtocol E pid first) (M := system E pid inits start)
    (t := t)
    (V := fun m => m.ask t) (O := Ask.Answers E d s₀) (m := m) (A := Sealing E)
    (L := Running E pid first t i d s₀) ?_ ?_ hp hm
  · intro m₁ m₂ hr _ h
    refine ⟨h.stable hr, ?_⟩
    rw [Mem.ask, Mem.ask, hr.rest, hr.heard]
  · intro m₁ o r m₂ hA hi h ha
    obtain ⟨hstep, hanswers⟩ := ask_step hothers hA hi h ha
    exact ⟨hstep.inv, hstep.guar, hstep.running, hanswers⟩

end Steps

/-! ### The initialization of an excluded process -/

section Init

variable {E : Surroundings} {B : Build} {v : View} {M N : Prop}

/-- **The process is excluded**: it is among the commands to skip, or not among the only
ones to fake. -/
def Excluded (E : Surroundings) (B : Build) : Prop :=
  (∀ r : Option CStr, E.admits (.getenv .faketimeSkipCmds) r →
    ∃ cmds, r = some cmds ∧ B.progname ∈ tokens cmds) ∨
  (∀ r : Option CStr, E.admits (.getenv .faketimeOnlyCmds) r →
    ∃ cmds, r = some cmds ∧ B.progname ∉ tokens cmds)

/-- The variables of a process that reads the settings that are read once; `M` says that
it has got as far as the monotonic clock, and `N` that it has been excluded. -/
structure Bare (E : Surroundings) (M N : Prop) (s : Proc) : Prop where
  cache : s.ftplTimecache.real.tvNsec < 0
  noRate : s.userRateSet = false
  noReplay : NoReplay E → s.infileSet = false
  monotonic : M → MonotonicOff E → s.fakeMonotonicClock = false
  noop : N → s.ftMode = .noop

theorem bare_initial : Bare E False False Proc.initial :=
  ⟨by decide, rfl, fun _ => rfl, False.elim, False.elim⟩

theorem unaffected_bare : Unaffected (Bare E M N) := by
  constructor
  all_goals intros
  all_goals rename_i h
  all_goals exact ⟨h.cache, h.noRate, h.noReplay, h.monotonic, h.noop⟩

/-- The monotonic setting is read from the environment. -/
theorem wp_monotonicSetting (hv : Bare E False N v.proc) :
    getFakeMonotonicSetting.Wp Private (View.Answers E) (fun _ v' => Bare E True N v'.proc) v := by
  have hnone : (¬MonotonicOff E) → Bare E True N v.proc := fun hoff =>
    ⟨hv.cache, hv.noRate, hv.noReplay, fun _ h => absurd h hoff, hv.noop⟩
  have hlast : ∀ r : Option CStr, (MonotonicOff E → r = some ['1']) →
      (assignFakeMonotonic r).Wp Private (View.Answers E)
        (fun _ v' => Bare E True N v'.proc) v := by
    intro r hr
    cases r with
    | none => exact hnone fun hoff => by cases hr hoff
    | some w =>
      refine ⟨trivial, ?_⟩
      rintro - v' rfl
      refine ⟨hv.cache, hv.noRate, hv.noReplay, fun _ hoff => ?_, hv.noop⟩
      cases hr hoff
      rfl
  refine wp_getenv trivial fun r₁ h₁ => ?_
  cases r₁ with
  | none =>
    refine wp_getenv trivial fun r₂ h₂ => hlast r₂ fun hoff => ?_
    exact ((hoff none h₁).resolve_left (by simp)).2 r₂ h₂
  | some w => exact hlast (some w) fun hoff => (hoff (some w) h₁).resolve_right (by simp)

theorem wp_bareSettings (hv : Bare E False False v.proc) :
    readSettings.Wp Private (View.Answers E) (fun _ v' => Bare E True False v'.proc) v := by
  have hattach : attachShared.Uses (Sets (Bare E False False)) := by
    refine uses_perform_bind trivial fun e => ?_
    split
    · refine uses_perform_bind trivial fun b => uses_store fun _ h => ?_
      exact ⟨h.cache, h.noRate, h.noReplay, h.monotonic, h.noop⟩
    · exact uses_pure _
  refine (wp_of_sets hattach hv).bind fun _ v₁ h₁ => ?_
  refine (wp_of_sets (uses_statSetting unaffected_bare) h₁).bind fun _ v₂ h₂ => ?_
  refine (wp_of_sets (uses_cacheSettings unaffected_bare) h₂).bind fun _ v₃ h₃ => ?_
  exact wp_monotonicSetting h₃

/-- Nothing but the mode is assigned. -/
theorem Bare.excluded {s : Proc} (h : Bare E M N s) : Bare E M True { s with ftMode := .noop } :=
  ⟨h.cache, h.noRate, h.noReplay, h.monotonic, fun _ => rfl⟩

theorem wp_excludedSkip (hE : Excluded E B) (hv : Bare E True False v.proc) :
    (skipCmds B).Wp Private (View.Answers E) (fun b v' => Bare E True (b = true) v'.proc ∧
      (b = false → ∀ r : Option CStr, E.admits (.getenv .faketimeOnlyCmds) r →
        ∃ cmds, r = some cmds ∧ B.progname ∉ tokens cmds)) v := by
  have hno : Bare E True (false = true) v.proc :=
    ⟨hv.cache, hv.noRate, hv.noReplay, hv.monotonic, fun h => by cases h⟩
  refine wp_getenv trivial fun r hr => ?_
  cases r with
  | none =>
    refine ⟨hno, fun _ => hE.resolve_left fun hskip => ?_⟩
    obtain ⟨cmds, hcmds, -⟩ := hskip none hr
    cases hcmds
  | some cmds =>
    dsimp only
    split
    next =>
      refine ⟨trivial, ?_⟩
      rintro - v₂ rfl
      have hmark := hv.excluded
      exact ⟨⟨hmark.cache, hmark.noRate, hmark.noReplay, hmark.monotonic, fun _ => rfl⟩,
        fun hf => by cases hf⟩
    next hmem =>
      refine ⟨hno, fun _ => hE.resolve_left fun hskip => ?_⟩
      obtain ⟨cmds', hcmds, hin⟩ := hskip _ hr
      cases hcmds
      exact hmem hin

/-- **An excluded process gets the mode `FT_NOOP`**, by one of the two settings. -/
theorem wp_excludedOnly {b : Bool} (hv : Bare E True (b = true) v.proc)
    (hout : b = false → ∀ r : Option CStr, E.admits (.getenv .faketimeOnlyCmds) r →
      ∃ cmds, r = some cmds ∧ B.progname ∉ tokens cmds) :
    (onlyCmds B).Wp Private (View.Answers E)
      (fun e v' => (b || e) = true ∧ Bare E True True v'.proc) v := by
  have hskipped : b = true → (b || false) = true ∧ Bare E True True v.proc := by
    intro hb
    refine ⟨by rw [hb]; rfl, hv.cache, hv.noRate, hv.noReplay, hv.monotonic, fun _ => hv.noop hb⟩
  refine wp_getenv trivial fun r hr => ?_
  cases r with
  | none =>
    refine hskipped (Bool.eq_false_or_eq_true b |>.resolve_right fun hb => ?_)
    obtain ⟨cmds, hcmds, -⟩ := hout hb none hr
    cases hcmds
  | some cmds =>
    refine wp_getenv trivial fun r' _ => ?_
    split
    · exact wp_exit trivial
    · split
      next hmem =>
        refine hskipped (Bool.eq_false_or_eq_true b |>.resolve_right fun hb => ?_)
        obtain ⟨cmds', hcmds, hnot⟩ := hout hb _ hr
        cases hcmds
        exact hnot hmem
      next =>
        refine ⟨trivial, ?_⟩
        rintro - v₂ rfl
        exact ⟨Bool.or_true b, hv.excluded⟩

theorem wp_bareFiles (hv : Bare E M N v.proc) :
    readLimitsAndFiles.Wp Private (View.Answers E) (fun _ v' => Bare E M N v'.proc) v := by
  refine (wp_of_sets (uses_limitSettings unaffected_bare) hv).bind fun _ v₁ h₁ => ?_
  refine (wp_of_sets (uses_spawnSettings unaffected_bare) h₁).bind fun _ v₂ h₂ => ?_
  refine (wp_of_sets (uses_saveFile unaffected_bare.outfile) h₂).bind fun _ v₃ h₃ => ?_
  have hload : loadFile.Wp Private (View.Answers E) (fun _ v' => Bare E M N v'.proc) v₃ := by
    refine wp_getenv trivial fun r hr => ?_
    cases r with
    | none => exact h₃
    | some path =>
      -- a file to replay is only set if the environment names one
      have hreplay : ¬NoReplay E := fun hn => by cases hn (some path) hr
      refine ⟨trivial, ?_⟩
      rintro bytes v₄ ⟨-, rfl⟩
      cases bytes with
      | none => exact wp_exit trivial
      | some bytes =>
        dsimp only [Prog.bind]
        split
        · exact wp_exit trivial
        · refine ⟨trivial, ?_⟩
          rintro - v₅ rfl
          exact ⟨h₃.cache, h₃.noRate, fun hn => absurd hn hreplay, h₃.monotonic, h₃.noop⟩
  refine hload.bind fun _ v₄ h₄ => ?_
  have hformat : formatSetting.Uses (Sets (Bare E M N)) := by
    refine uses_perform_bind trivial fun r => ?_
    cases r with
    | none =>
      exact uses_store fun _ h => ⟨h.cache, h.noRate, h.noReplay, h.monotonic, h.noop⟩
    | some fmt =>
      dsimp only
      split
      · exact uses_exit
      · exact uses_store fun _ h => ⟨h.cache, h.noRate, h.noReplay, h.monotonic, h.noop⟩
  exact wp_of_sets hformat h₄

end Init

/-! ### The initialization among others -/

section Among

variable [DecidableEq P] [DecidableEq T] {E : Surroundings} {pid : T → P} {first : P → T} {t : T}
  {m m' : Mem P T Reply} {B : Build} {inits : Reply → Bool}
  {start : T → Mem P T Reply → Sys Reply → Prop}

/-- The calls of a thread that initializes a process and concern nobody else. -/
def OwnCall (v : View) (o : Op) : Prop := Private v o ∨ ∃ c, o = .realClockGettime c

/-- What such a thread sees of the memory. -/
def Mem.own (m : Mem P T Reply) (p : P) (t : T) : View := ⟨.created, m.proc p, m.seen t⟩

omit [DecidableEq P] [DecidableEq T] in
theorem Owns.stable (h : Owns pid first t m) (hr : SealRely E pid first t m m') :
    Owns pid first t m' ∧ m'.proc (pid t) = m.proc (pid t) :=
  ⟨⟨h.1, (hr.own h.1 h.2).2⟩, (hr.own h.1 h.2).1⟩

omit [DecidableEq T] in
/-- An assignment to the variables of a process that is being initialized. -/
theorem own_store {f : Proc → Proc} (hi : SealInv E first m) (h : Owns pid first t m) :
    SealInv E first (m.assign (pid t) f) ∧
      (sealProtocol E pid first).Guar t m (m.assign (pid t) f) := by
  have hne : ∀ p, m.ready p = true → p ≠ pid t := by
    rintro p hp rfl
    exact absurd (h.2.symm.trans hp) (by simp)
  refine ⟨⟨hi.shm, fun p hp => ?_⟩, fun u hu => ?_⟩
  · rw [Mem.assign_proc_of_ne (hne p hp)]
    exact hi.ready p hp
  · refine ⟨rfl, rfl, rfl, rfl, fun _ h => h, id, fun hu₁ hu₂ => ⟨?_, hu₂⟩, fun hr => ?_⟩
    · exact Mem.assign_proc_of_ne (h.ne hu ⟨hu₁, hu₂⟩)
    · rw [Mem.assign_proc_of_ne (hne _ hr)]
      exact .refl _

omit [DecidableEq P] in
/-- The flag of a thread that initializes its process. -/
theorem own_setDontFake (hfirst : ∀ p, pid (first p) = p) (hi : SealInv E first m)
    (h : Owns pid first t m) (b : Bool) :
    SealInv E first { m with dontFake := Function.update m.dontFake t b } ∧
      (sealProtocol E pid first).Guar t m
        { m with dontFake := Function.update m.dontFake t b } := by
  refine ⟨⟨hi.shm, fun p hp => ?_⟩, fun u hu => ?_⟩
  · obtain ⟨h₁, h₂, h₃⟩ := hi.ready p hp
    refine ⟨h₁, ?_, h₃⟩
    have hpt : first p ≠ t := by
      intro hpt
      have hp' : pid t = p := by rw [← hpt, hfirst]
      rw [← hp', h.2] at hp
      cases hp
    exact (Function.update_of_ne hpt ..).trans h₂
  · exact ⟨rfl, rfl, rfl, Function.update_of_ne hu .., fun _ h => h, id, fun _ hr => ⟨rfl, hr⟩,
      fun _ => .refl _⟩

/-- **A step of a thread that initializes its process.** -/
theorem own_step {o : Op} {r : o.Ans} (hfirst : ∀ p, pid (first p) = p)
    (hA : OwnCall (m.own (pid t) t) o) (hi : SealInv E first m) (h : Owns pid first t m)
    (ha : m.Answers E pid t o r m') :
    SealInv E first m' ∧ (sealProtocol E pid first).Guar t m m' ∧
      (Owns pid first t m' ∧ m'.shm = m.shm) ∧
      (m.own (pid t) t).Answers E o r (m'.own (pid t) t) := by
  have hsame : ∀ {m' : Mem P T Reply}, m' = m → SealInv E first m' ∧
      (sealProtocol E pid first).Guar t m m' ∧ (Owns pid first t m' ∧ m'.shm = m.shm) := by
    rintro m' rfl
    exact ⟨hi, guar_refl _, h, rfl⟩
  cases o with
  | load =>
    obtain ⟨rfl, rfl⟩ := ha
    obtain ⟨h₁, h₂, h₃⟩ := hsame rfl
    exact ⟨h₁, h₂, h₃, rfl, rfl⟩
  | store f =>
    obtain rfl : m' = m.assign (pid t) f := ha
    obtain ⟨h₁, h₂⟩ := own_store (f := f) hi h
    exact ⟨h₁, h₂, ⟨h, rfl⟩, by simp [View.Answers, Mem.own, Mem.assign]⟩
  | setDontFake b =>
    obtain rfl : m' = _ := ha
    obtain ⟨h₁, h₂⟩ := own_setDontFake hfirst hi h b
    exact ⟨h₁, h₂, ⟨h, rfl⟩, rfl⟩
  | realClockGettime c =>
    obtain ⟨hr, rfl⟩ := ha
    obtain ⟨h₁, h₂⟩ := sealed_frame_read hi c r
    exact ⟨h₁, h₂, ⟨h, rfl⟩, hr, by simp [Mem.own, Mem.hear]⟩
  | getenv x =>
    obtain ⟨hr, rfl⟩ := ha
    obtain ⟨h₁, h₂, h₃⟩ := hsame rfl
    exact ⟨h₁, h₂, h₃, hr, rfl⟩
  | openSave path =>
    obtain ⟨hr, rfl⟩ := ha
    obtain ⟨h₁, h₂, h₃⟩ := hsame rfl
    exact ⟨h₁, h₂, h₃, hr, rfl⟩
  | mapLoad path =>
    obtain ⟨hr, rfl⟩ := ha
    obtain ⟨h₁, h₂, h₃⟩ := hsame rfl
    exact ⟨h₁, h₂, h₃, hr, rfl⟩
  | ftShmInit =>
    obtain ⟨hr, rfl⟩ := ha
    obtain ⟨h₁, h₂, h₃⟩ := hsame rfl
    exact ⟨h₁, h₂, h₃, hr, rfl⟩
  | exit code msg => exact Empty.elim r
  | _ =>
    obtain hA | ⟨c, hc⟩ := hA
    · exact hA.elim
    · cases hc

/-- The rule of such calls; `c` says whether a start time is known to be shared. -/
theorem safe_of_own {β : Type} {Q : β → View → Prop} {p : Sys β} {A : View → Op → Prop} {c : Prop}
    (hfirst : ∀ p, pid (first p) = p) (hA : ∀ v o, A v o → OwnCall v o)
    (hp : p.Wp A (View.Answers E) Q (m.own (pid t) t)) (hm : Owns pid first t m)
    (hc : c → m.shm.HasStart) :
    (sealProtocol E pid first).Safe (system E pid inits start) t
      (fun a m => (Owns pid first t m ∧ (c → m.shm.HasStart)) ∧ Q a (m.own (pid t) t)) p m := by
  refine Protocol.safe_of_wp (P := sealProtocol E pid first) (M := system E pid inits start)
    (t := t)
    (V := fun m => m.own (pid t) t) (O := View.Answers E) (m := m) (A := A)
    (L := fun m => Owns pid first t m ∧ (c → m.shm.HasStart)) ?_ ?_ hp ⟨hm, hc⟩
  · rintro m₁ m₂ hr - ⟨h, hset⟩
    obtain ⟨h', hproc⟩ := h.stable hr
    refine ⟨⟨h', fun hc => hr.hasStart (hset hc)⟩, ?_⟩
    rw [Mem.own, Mem.own, hproc, hr.seen]
  · rintro m₁ o r m₂ ho hi ⟨h, hset⟩ ha
    obtain ⟨h₁, h₂, ⟨h₃, hshm⟩, h₄⟩ := own_step hfirst (hA _ _ ho) hi h ha
    refine ⟨h₁, h₂, ⟨h₃, fun hc => ?_⟩, h₄⟩
    rw [hshm]
    exact hset hc

/-- A process that has a start time, which others can take over if it is attached. -/
structure Anchored (E : Surroundings) (pid : T → P) (first : P → T) (t : T)
    (m : Mem P T Reply) : Prop where
  owns : Owns pid first t m
  bare : Bare E True True (m.proc (pid t))
  start : 0 ≤ (m.proc (pid t)).ftplStarttime.real.tvNsec
  shared : (m.proc (pid t)).sharedSemInitialized = true → m.shm.HasStart

/-- The start time is read from the clocks. -/
theorem wp_ownStart {v : View} (hclock : RealtimeWorks E) (hv : Bare E True True v.proc) :
    systemTimeFromSystem.Wp OwnCall (View.Answers E) (fun _ v' => Bare E True True v'.proc ∧
      0 ≤ v'.proc.ftplStarttime.real.tvNsec ∧
      v'.proc.sharedSemInitialized = v.proc.sharedSemInitialized) v := by
  have hread : MayRead OwnCall fun v => Bare E True True v.proc := by
    refine ⟨fun _ c _ => Or.inr ⟨c, rfl⟩, fun _ _ _ => Or.inl trivial, fun _ _ h => h, ?_⟩
    intro v start h
    exact ⟨h.cache, h.noRate, h.noReplay, h.monotonic, h.noop⟩
  refine (wp_systemTimeFromSystem hread hv).mono ?_
  rintro - v' ⟨-, hseen, hadmits, hproc⟩
  obtain ⟨x, hx, hn⟩ := hclock _ (hadmits .realtime (Or.inl rfl))
  refine ⟨?_, ?_, by rw [hproc]⟩
  · rw [hproc]
    exact ⟨hv.cache, hv.noRate, hv.noReplay, hv.monotonic, hv.noop⟩
  · rw [hseen.real x hx]
    exact hn.1

/-- An assignment to the shared block by a thread that initializes its process. -/
theorem safe_ownWrite {β : Type} {Q : β → Mem P T Reply → Prop} {g : FtShared → FtShared}
    {f : Unit → Sys β} (hg : ∀ b, (b.HasStart → (g b).HasStart) ∧ (b.StartValid → (g b).StartValid))
    (h : ∀ m₁, SealRely E pid first t m m₁ → SealInv E first m₁ →
      (sealProtocol E pid first).Safe (system E pid inits start) t Q (f ())
        { m₁ with shm := g m₁.shm }) :
    (sealProtocol E pid first).Safe (system E pid inits start) t Q (writeShared g >>= f) m := by
  refine safe_writeShared fun m₁ hr hi => ?_
  have hframe : SealInv E first { m₁ with shm := g m₁.shm } ∧
      (sealProtocol E pid first).Guar t m₁ { m₁ with shm := g m₁.shm } :=
    sealed_frame hi rfl rfl rfl (hg _).1 ((hg _).2 hi.shm) fun _ _ => ⟨rfl, rfl, rfl⟩
  exact ⟨hframe.1, hframe.2, h m₁ hr hi⟩

/-- Assignments to the shared block, one after the other: if one of them sets the start
time, it is there in the end. -/
theorem safe_ownWrites {s : Proc} (gs : List (FtShared → FtShared))
    (hgs : ∀ g ∈ gs, ∀ b, (b.HasStart → (g b).HasStart) ∧ (b.StartValid → (g b).StartValid))
    (hm : Owns pid first t m) (hs : m.proc (pid t) = s) :
    (sealProtocol E pid first).Safe (system E pid inits start) t
      (fun _ m' => Owns pid first t m' ∧ m'.proc (pid t) = s ∧
        ((m.shm.HasStart ∨ ∃ g ∈ gs, ∀ b, (g b).HasStart) → m'.shm.HasStart))
      (writeSteps gs) m := by
  induction gs generalizing m with
  | nil =>
    refine safe_pure fun m₁ hr _ => ?_
    obtain ⟨ho, hp⟩ := hm.stable hr
    refine ⟨ho, hp.trans hs, fun hset => hr.hasStart (hset.resolve_right ?_)⟩
    rintro ⟨g, hg, -⟩
    exact absurd hg (List.not_mem_nil)
  | cons g gs ih =>
    refine safe_ownWrite (hgs g (List.mem_cons_self ..)) fun m₁ hr _ => ?_
    obtain ⟨ho, hp⟩ := hm.stable hr
    refine (ih (m := { m₁ with shm := g m₁.shm })
      (fun g' hg' => hgs g' (List.mem_cons_of_mem _ hg')) ho (hp.trans hs)).mono ?_
    rintro - m₂ - ⟨h₁, h₂, h₃⟩
    refine ⟨h₁, h₂, fun hset => h₃ ?_⟩
    rcases hset with hset | ⟨g', hg', hall⟩
    · exact Or.inl ((hgs g (List.mem_cons_self ..) _).1 (hr.hasStart hset))
    · rcases List.mem_cons.mp hg' with rfl | hmem
      · exact Or.inl (hall _)
      · exact Or.inr ⟨g', hmem, hall⟩

/-- The start time of the process is published. -/
theorem safe_ownPublish (hm : Owns pid first t m) (hb : Bare E True True (m.proc (pid t)))
    (hstart : 0 ≤ (m.proc (pid t)).ftplStarttime.real.tvNsec) :
    (sealProtocol E pid first).Safe (system E pid inits start) t
      (fun _ m' => Anchored E pid first t m') publishStarttime m := by
  refine safe_load fun m₁ hr _ => ?_
  obtain ⟨ho, hp⟩ := hm.stable hr
  rw [systemTimeToShared_eq]
  refine (safe_ownWrites (publishSteps (m₁.proc (pid t)).ftplStarttime) ?_ ho rfl).mono ?_
  · intro g hg b
    simp only [publishSteps, List.mem_cons, List.not_mem_nil, or_false] at hg
    rw [hp] at hg
    rcases hg with rfl | rfl | rfl | rfl | rfl | rfl | rfl | rfl
    · exact ⟨id, id⟩
    · exact ⟨fun _ => hstart, fun _ => Or.inr hstart⟩
    all_goals exact ⟨id, id⟩
  · rintro - m₂ - ⟨h₁, h₂, h₃⟩
    refine ⟨h₁, by rw [h₂, hp]; exact hb, by rw [h₂, hp]; exact hstart, fun _ => h₃ (Or.inr ?_)⟩
    refine ⟨fun d => { d with
      startTimeReal.tvNsec := (m₁.proc (pid t)).ftplStarttime.real.tvNsec }, ?_, fun b => ?_⟩
    · exact List.mem_cons_of_mem _ (List.mem_cons_self ..)
    · change 0 ≤ (m₁.proc (pid t)).ftplStarttime.real.tvNsec
      rw [hp]
      exact hstart

/-- Reading the shared block. -/
theorem safe_ownRead {β : Type} {Q : β → Mem P T Reply → Prop} {f : FtShared → Sys β}
    (hothers : OthersKeepStart E)
    (h : ∀ m₁ b, SealRely E pid first t m m₁ → b.StartValid → (m₁.shm.HasStart → b.HasStart) →
      (sealProtocol E pid first).Safe (system E pid inits start) t Q (f b) { m₁ with shm := b }) :
    (sealProtocol E pid first).Safe (system E pid inits start) t Q (readShared >>= f) m := by
  rintro m₁ hr hi b m₂ ⟨hb, rfl⟩
  obtain ⟨h₁, h₂⟩ := hothers _ _ hb
  have hframe : SealInv E first { m₁ with shm := b } ∧
      (sealProtocol E pid first).Guar t m₁ { m₁ with shm := b } :=
    sealed_frame hi rfl rfl rfl h₁ (h₂ hi.shm) fun _ _ => ⟨rfl, rfl, rfl⟩
  exact ⟨hframe.1, hframe.2, h m₁ b hr (h₂ hi.shm) h₁⟩

/-- A start time that is there is taken over. -/
theorem safe_ownTakeOver (hothers : OthersKeepStart E) (hm : Owns pid first t m)
    (hb : Bare E True True (m.proc (pid t))) (hset : m.shm.HasStart) :
    (sealProtocol E pid first).Safe (system E pid inits start) t
      (fun _ m' => Anchored E pid first t m') sharedToSystemTime m := by
  refine safe_ownRead hothers fun m₁ b hr _ hkeep => ?_
  have hb' : b.HasStart := hkeep (hr.hasStart hset)
  obtain ⟨ho, hp⟩ := hm.stable hr
  rintro m₂ hr₂ hi₂ - m₃ rfl
  obtain ⟨ho₂, hp₂⟩ := Owns.stable (m := { m₁ with shm := b }) ho hr₂
  obtain ⟨h₁, h₂⟩ := own_store (f := fun s => { s with ftplStarttime := b.startTime }) hi₂ ho₂
  refine ⟨h₁, h₂, safe_pure fun m₄ hr₄ _ => ?_⟩
  obtain ⟨ho₄, hp₄⟩ := Owns.stable (m := m₂.assign (pid t) _) ho₂ hr₄
  have hproc : m₄.proc (pid t) = { m.proc (pid t) with ftplStarttime := b.startTime } := by
    rw [hp₄, Mem.assign_proc_self, hp₂]
    exact congrArg (fun s : Proc => { s with ftplStarttime := b.startTime }) hp
  refine ⟨ho₄, ?_, ?_, fun _ => hr₄.hasStart (hr₂.hasStart hb')⟩
  · rw [hproc]
    exact ⟨hb.cache, hb.noRate, hb.noReplay, hb.monotonic, hb.noop⟩
  · rw [hproc]
    exact hb'

omit [DecidableEq P] [DecidableEq T] in
theorem Anchored.stable (h : Anchored E pid first t m) (hr : SealRely E pid first t m m') :
    Anchored E pid first t m' := by
  obtain ⟨ho, hp⟩ := h.owns.stable hr
  refine ⟨ho, by rw [hp]; exact h.bare, by rw [hp]; exact h.start, fun hs => ?_⟩
  rw [hp] at hs
  exact hr.hasStart (h.shared hs)

/-- **The process gets a start time**, its own or that of the others. -/
theorem safe_ownAgree (hfirst : ∀ p, pid (first p) = p) (hclock : RealtimeWorks E)
    (hothers : OthersKeepStart E) (hm : Owns pid first t m)
    (hb : Bare E True True (m.proc (pid t))) :
    (sealProtocol E pid first).Safe (system E pid inits start) t
      (fun _ m' => Anchored E pid first t m') agreeOnStarttime m := by
  -- nobody takes a start time away, so giving the lock back changes nothing
  have hunlock : ∀ m₁, Anchored E pid first t m₁ →
      (sealProtocol E pid first).Safe (system E pid inits start) t
        (fun _ m' => Anchored E pid first t m') (ftSemUnlock >>= fun b => if b = true then pure ()
          else exit 1 "libfaketime: In ftpl_init(), ft_sem_unlock failed") m₁ := by
    intro m₁ h₁
    refine safe_ftSemUnlock (fun m₂ hr hi => ?_) fun _ => safe_exit
    have hframe : SealInv E first m₂.release ∧ (sealProtocol E pid first).Guar t m₂ m₂.release :=
      sealed_frame hi rfl rfl rfl id hi.shm fun _ _ => ⟨rfl, rfl, rfl⟩
    have h₂ := h₁.stable hr
    refine ⟨hframe.1, hframe.2, safe_pure fun m₃ hr₃ _ => ?_⟩
    exact Anchored.stable (m := m₂.release) ⟨h₂.owns, h₂.bare, h₂.start, h₂.shared⟩ hr₃
  refine safe_load fun m₁ hr₁ hi₁ => ?_
  obtain ⟨ho₁, hp₁⟩ := hm.stable hr₁
  have hb₁ : Bare E True True (m₁.proc (pid t)) := by rw [hp₁]; exact hb
  split
  next =>
    refine safe_ftSemLock (fun m₂ hr₂ hi₂ _ => ?_) fun m₂ r _ _ hr => ?_
    · have hframe : SealInv E first (m₂.acquire t) ∧
          (sealProtocol E pid first).Guar t m₂ (m₂.acquire t) :=
        sealed_frame hi₂ rfl rfl rfl id hi₂.shm fun _ _ => ⟨rfl, rfl, rfl⟩
      refine ⟨hframe.1, hframe.2, safe_ownRead hothers fun m₃ b hr₃ hvalid _ => ?_⟩
      obtain ⟨ho₂, hp₂⟩ := ho₁.stable hr₂
      obtain ⟨ho₃, hp₃⟩ := Owns.stable (m := m₂.acquire t) ho₂ hr₃
      have hb₃ : Bare E True True (m₃.proc (pid t)) := by
        rw [hp₃]
        change Bare E True True (m₂.proc (pid t))
        rw [hp₂]
        exact hb₁
      split
      next =>
        -- the first one publishes its own start time
        refine Protocol.Safe.bind (Q := fun _ m' => Anchored E pid first t m') ?_
          fun _ m₅ _ h₅ => hunlock m₅ h₅
        refine (safe_of_own (m := { m₃ with shm := b }) (c := False) hfirst (fun _ _ h => h)
          (wp_ownStart hclock hb₃) ho₃ False.elim).bind ?_
        rintro - m₄ - ⟨⟨ho₄, -⟩, hb₄, hs₄, -⟩
        exact safe_ownPublish ho₄ hb₄ hs₄
      next hne =>
        -- a block that is valid has all its start times or none
        have hset : b.HasStart := hvalid.resolve_left hne
        refine (safe_ownTakeOver (m := { m₃ with shm := b }) hothers ho₃ hb₃ hset).bind ?_
        exact fun _ m₅ _ h₅ => hunlock m₅ h₅
    · cases r with
      | acquired => exact absurd rfl hr
      | interrupted => exact safe_exit
      | failed => exact safe_exit
  next hshared =>
    refine (safe_of_own (c := False) hfirst (fun _ _ h => h) (wp_ownStart hclock hb₁) ho₁
      False.elim).mono ?_
    rintro - m₂ - ⟨⟨ho₂, -⟩, hb₂, hs₂, hsh₂⟩
    exact ⟨ho₂, hb₂, hs₂, fun h => absurd (hsh₂.symm.trans h) hshared⟩

omit [DecidableEq P] [DecidableEq T] in
/-- Once it is known where its setting comes from, the process is excluded for good. -/
theorem Anchored.running (h : Anchored E pid first t m)
    (hfile : (m.proc (pid t)).parseConfigFile = true → E.admits (.getenv .faketime) none) :
    Running E pid first t True (m.dontFake t) (m.proc (pid t)) m :=
  ⟨Or.inr ⟨trivial, h.owns, ⟨h.bare.noop trivial, h.start, h.bare.cache, fun _ => h.bare.noRate,
    h.bare.noReplay, h.bare.monotonic trivial, hfile⟩, h.shared⟩, .refl _, rfl⟩

/-- The setting of the user is applied and leaves the process excluded. -/
theorem safe_ownSetting (hE : ∀ text, MayApply E text → Tame E text) (hothers : OthersKeepStart E)
    (hm : Anchored E pid first t m) :
    (sealProtocol E pid first).Safe (system E pid inits start) t
      (fun _ m' => ∃ d s₀, Running E pid first t True d s₀ m') (firstSetting B) m := by
  have hask : ∀ {p : Sys Unit} {m₁ : Mem P T Reply} {d : Bool} {s₀ : Proc},
      Running E pid first t True d s₀ m₁ → Quiet E d s₀ p →
      (sealProtocol E pid first).Safe (system E pid inits start) t
        (fun _ m' => ∃ d s₀, Running E pid first t True d s₀ m') p m₁ := by
    intro p m₁ d s₀ hrun hq
    exact (safe_of_ask hothers (hq _) hrun).mono fun _ _ _ h => ⟨d, s₀, h.1⟩
  rintro m₁ hr₁ hi₁ r m₂ ⟨hr, rfl⟩
  refine ⟨hi₁, guar_refl _, ?_⟩
  have h₁ := hm.stable hr₁
  cases r with
  | some setting =>
    refine safe_store fun m₃ hr₃ hi₃ => ?_
    have h₃ := h₁.stable hr₃
    obtain ⟨hi₄, hg₄⟩ := own_store (f := fun s => { s with parseConfigFile := false }) hi₃ h₃.owns
    have h₄ : Anchored E pid first t
        (m₃.assign (pid t) fun s => { s with parseConfigFile := false }) := by
      refine ⟨h₃.owns, ?_, ?_, ?_⟩
      all_goals rw [Mem.assign_proc_self]
      · exact ⟨h₃.bare.cache, h₃.bare.noRate, h₃.bare.noReplay, h₃.bare.monotonic, h₃.bare.noop⟩
      · exact h₃.start
      · exact h₃.shared
    refine ⟨hi₄, hg₄, hask (h₄.running fun hfile => ?_) (quiet_parseFtString (hE _ (Or.inl hr)))⟩
    rw [Mem.assign_proc_self] at hfile
    cases hfile
  | none =>
    refine hask (h₁.running fun _ => hr) ?_
    exact (quiet_readConfigFile hE hr).bind fun _ => quiet_pure _

omit [DecidableEq P] in
/-- A thread that does not fake any more disturbs nobody. -/
theorem sealed_setDontFake (hi : SealInv E first m) :
    SealInv E first { m with dontFake := Function.update m.dontFake t true } ∧
      (sealProtocol E pid first).Guar t m
        { m with dontFake := Function.update m.dontFake t true } := by
  refine ⟨⟨hi.shm, fun p hp => ?_⟩, fun u hu => ?_⟩
  · obtain ⟨h₁, h₂, h₃⟩ := hi.ready p hp
    refine ⟨h₁, ?_, h₃⟩
    by_cases hpt : first p = t
    · rw [hpt]
      exact Function.update_self ..
    · exact (Function.update_of_ne hpt ..).trans h₂
  · exact ⟨rfl, rfl, rfl, Function.update_of_ne hu .., fun _ h => h, id, fun _ hr => ⟨rfl, hr⟩,
      fun _ => .refl _⟩

/-- **The initialization of an excluded process.** -/
theorem safe_ownInit (hfirst : ∀ p, pid (first p) = p) (hclock : RealtimeWorks E)
    (hothers : OthersKeepStart E) (hE : ∀ text, MayApply E text → Tame E text)
    (hexcl : Excluded E B) (hm : Owns pid first t m) (hproc : m.proc (pid t) = Proc.initial) :
    (sealProtocol E pid first).Safe (system E pid inits start) t
      (fun a m' => a = .initialized ∧ t = first (pid t) ∧
        ∃ s₀, Running E pid first t True true s₀ m')
      (initProg B) m := by
  have hprivate : ∀ v o, Private v o → OwnCall v o := fun _ _ h => Or.inl h
  have hbegin : (setDontFake true).Wp Private (View.Answers E)
      (fun _ v' => Bare E False False v'.proc) (m.own (pid t) t) := by
    refine ⟨trivial, ?_⟩
    rintro - v' rfl
    change Bare E False False (m.proc (pid t))
    rw [hproc]
    exact bare_initial
  refine Protocol.Safe.bind (Q := fun _ m' => ∃ s₀, Running E pid first t True true s₀ m') ?_
    fun _ m' _ ⟨s₀, h⟩ => safe_pure fun m₁ hr _ => ⟨rfl, hm.1, s₀, h.stable hr⟩
  refine (safe_of_own (c := False) hfirst hprivate hbegin hm False.elim).bind ?_
  rintro - m₁ - ⟨⟨ho₁, -⟩, h₁⟩
  refine (safe_of_own (c := False) hfirst hprivate (wp_bareSettings h₁) ho₁ False.elim).bind ?_
  rintro - m₂ - ⟨⟨ho₂, -⟩, h₂⟩
  refine (safe_of_own (c := False) hfirst hprivate
    (wp_excludedSkip hexcl h₂) ho₂ False.elim).bind ?_
  rintro skipped m₃ - ⟨⟨ho₃, -⟩, h₃, hout⟩
  refine (safe_of_own (c := False) hfirst hprivate (wp_excludedOnly h₃ hout) ho₃ False.elim).bind ?_
  rintro excluded m₄ - ⟨⟨ho₄, -⟩, heither, h₄⟩
  refine (safe_of_own (c := False) hfirst hprivate (wp_bareFiles h₄) ho₄ False.elim).bind ?_
  rintro - m₅ - ⟨⟨ho₅, -⟩, h₅⟩
  refine (safe_ownAgree hfirst hclock hothers ho₅ h₅).bind fun _ m₆ _ h₆ => ?_
  refine (safe_ownSetting hE hothers h₆).bind ?_
  rintro - m₇ - ⟨d, s₀, h₇⟩
  rw [heither]
  rintro m₈ hr₈ hi₈ - m₉ rfl
  have h₈ := h₇.stable hr₈
  obtain ⟨hi₉, hg₉⟩ : SealInv E first { m₈ with dontFake := Function.update m₈.dontFake t true } ∧
      (sealProtocol E pid first).Guar t m₈
        { m₈ with dontFake := Function.update m₈.dontFake t true } := sealed_setDontFake hi₈
  refine ⟨hi₉, hg₉, safe_pure fun m₁₀ hr _ => ⟨s₀, Running.stable ?_ hr⟩⟩
  exact ⟨h₈.state, h₈.later, Function.update_self ..⟩

end Among

/-! ### Any run -/

section Runs

variable [DecidableEq P] [DecidableEq T] {B : Build} {E : Surroundings} {pid : T → P}
  {first : P → T} {m₀ : Mem P T Reply} {s : Pool sys T (Mem P T Reply) Reply}

/-- Between two calls a thread has heard nothing, and a process that has not been
initialized has its initial variables. -/
def SealIdle (pid : T → P) (first : P → T) (t : T) (m : Mem P T Reply) : Prop :=
  m.heard t = none ∧ (Owns pid first t m → m.proc (pid t) = Proc.initial)

/-- What a call returns with. -/
def SealReturns (E : Surroundings) (pid : T → P) (first : P → T) (t : T) (a : Reply)
    (m : Mem P T Reply) : Prop :=
  (a = .initialized ∧ t = first (pid t) ∧ ∃ s₀, Running E pid first t True true s₀ m) ∨
    (a ≠ .initialized ∧ m.ready (pid t) = true ∧ a.IsReal (m.heard t))

/-- A return leaves the processes excluded; the one that has been initialized is from now
on. -/
theorem sealed_returned {t : T} {a : Reply} {m : Mem P T Reply} (hi : SealInv E first m)
    (h : SealReturns E pid first t a m) :
    SealInv E first (m.returned (fun r => r == .initialized) (pid t) t a) ∧
      (sealProtocol E pid first).Guar t m
        (m.returned (fun r => r == .initialized) (pid t) t a) ∧
      SealIdle pid first t (m.returned (fun r => r == .initialized) (pid t) t a) := by
  rcases h with ⟨rfl, ht, s₀, hrun⟩ | ⟨hne, hready, -⟩
  · obtain ⟨hs, hstart⟩ := hrun.isSealed hi
    refine ⟨⟨hi.shm, fun p hp => ?_⟩, fun u hu => ?_, Function.update_self .., fun ho => ?_⟩
    · by_cases hpt : p = pid t
      · rw [hpt]
        refine ⟨hs, ?_, hstart⟩
        rw [← ht]
        exact hrun.dontFake
      · exact hi.ready p ((Function.update_of_ne hpt ..).symm.trans hp)
    · refine ⟨rfl, Function.update_of_ne hu .., rfl, rfl, fun p hp => ?_, id, fun hu₁ hu₂ => ?_,
        fun _ => .refl _⟩
      · by_cases hpt : p = pid t
        · rw [hpt]
          exact Function.update_self ..
        · exact (Function.update_of_ne hpt ..).trans hp
      · have hne : pid u ≠ pid t := fun hp => hu (by rw [hu₁, hp, ← ht])
        exact ⟨rfl, (Function.update_of_ne hne ..).trans hu₂⟩
    · have htrue : (m.returned (fun r => r == .initialized) (pid t) t .initialized).ready (pid t)
          = true := Function.update_self ..
      exact absurd (ho.2.symm.trans htrue) (by simp)
  · have hsame : (m.returned (fun r => r == .initialized) (pid t) t a).ready = m.ready := by
      change (if (a == .initialized) = true then _ else m.ready) = m.ready
      rw [if_neg (by simpa using hne)]
    refine ⟨⟨hi.shm, fun p hp => ?_⟩, fun u hu => ?_, Function.update_self .., fun ho => ?_⟩
    · rw [hsame] at hp
      exact hi.ready p hp
    · exact ⟨rfl, Function.update_of_ne hu .., rfl, rfl, fun p hp => by rw [hsame]; exact hp, id,
        fun _ hr => ⟨rfl, by rw [hsame]; exact hr⟩, fun _ => .refl _⟩
    · have hfalse := ho.2
      rw [hsame, hready] at hfalse
      cases hfalse

/-- **An excluded process sees the real time.** The processes are excluded by
`FAKETIME_SKIP_CMDS` or `FAKETIME_ONLY_CMDS`, no setting starts with `@` or `%`, and every
call is one of those that are spared. Then, in whatever order the threads take their steps,
the mode of every process that has been initialized is `FT_NOOP`, and `clock_gettime`,
`gettimeofday` and `time` return what the real functions have returned, about the clock they were
asked about. -/
theorem excluded_sees_real_time (hfirst : ∀ p, pid (first p) = p) (hclock : RealtimeWorks E)
    (htod : ∀ tv, E.admits .realGettimeofday (some tv) → 0 ≤ tv.tvUsec)
    (hothers : OthersKeepStart E) (hexcl : Excluded E B)
    (hplain : ∀ text, MayApply E text → KeepsMode text)
    (hproc : ∀ p, m₀.proc p = Proc.initial) (hready : ∀ p, m₀.ready p = false)
    (hheard : ∀ t, m₀.heard t = none) (hshm : ftSharedHeaderValid m₀.shm = true)
    (hr : (library B E pid first fun t m e =>
      Spared E (t = first (pid t)) (m.proc (pid t)) e).Reach (Pool.init sys T Reply m₀) s) :
    (∀ p, s.mem.ready p = true → (s.mem.proc p).ftMode = .noop) ∧
      ∀ t a, s.code t = some (.ret a) → a.IsReal (s.mem.heard t) := by
  have htame : ∀ text, MayApply E text → Tame E text := fun text h =>
    ⟨hplain text h, fun hrate => hrate text h⟩
  -- the block is valid at first, and so it has no start time yet, or all of them
  have hvalid : m₀.shm.StartValid := by
    obtain ⟨-, ⟨hlow, -⟩, -⟩ := ftSharedHeaderValid_iff.mp hshm
    rw [FtShared.StartValid, FtShared.HasStart]
    omega
  have hidle : ∀ t m m', SealIdle pid first t m → SealRely E pid first t m m' →
      SealIdle pid first t m' := by
    rintro t m m' ⟨h₁, h₂⟩ hrely
    refine ⟨hrely.heard.trans h₁, fun ho => ?_⟩
    have ho' : Owns pid first t m := by
      refine ⟨ho.1, Bool.eq_false_iff.mpr fun hrdy => ?_⟩
      exact absurd (ho.2.symm.trans (hrely.ready _ hrdy)) (by simp)
    rw [(ho'.stable hrely).2]
    exact h₂ ho'
  have hstart : ∀ t m p, SealInv E first m → SealIdle pid first t m →
      (library B E pid first fun t m e =>
        Spared E (t = first (pid t)) (m.proc (pid t)) e).start t m p →
      (sealProtocol E pid first).Safe (library B E pid first fun t m e =>
        Spared E (t = first (pid t)) (m.proc (pid t)) e) t (SealReturns E pid first t) p m := by
    -- a thread initializes its process, or a later one asks for the time
    rintro t m p hi ⟨h₁, h₂⟩ (⟨ht, hrdy, rfl⟩ | ⟨hrdy, e, he, rfl⟩)
    · have ho : Owns pid first t m := ⟨ht, hrdy⟩
      exact (safe_ownInit hfirst hclock hothers htame hexcl ho (h₂ ho)).mono fun _ _ _ h => Or.inl h
    · have hspared : Spared E (m.dontFake t = true) (m.proc (pid t)) e := by
        refine he.mono fun ht => ?_
        rw [ht]
        exact (hi.ready _ hrdy).2.1
      refine (safe_of_ask (i := False) hothers (ask_entry htame hclock htod hspared h₁)
        ⟨Or.inl hrdy, .refl _, rfl⟩).mono ?_
      rintro a m' - ⟨hrun, hne, hreal⟩
      exact Or.inr ⟨hne, hrun.state.resolve_right fun h => h.1, hreal⟩
  have hinv₀ : SealInv E first m₀ :=
    ⟨hvalid, fun p hp => absurd ((hready p).symm.trans hp) (by simp)⟩
  have hidle₀ : ∀ t, SealIdle pid first t m₀ := fun t => ⟨hheard t, fun _ => hproc _⟩
  obtain ⟨hinv, hleft⟩ := Protocol.reach_safe (P := sealProtocol E pid first) hidle hstart
    (fun t a m m' hi h hf => hf ▸ sealed_returned hi h) hr hinv₀ hidle₀
  refine ⟨fun p hp => (hinv.ready p hp).1.noop, fun t a ha => ?_⟩
  have ht := hleft t
  rw [Protocol.Left, ha] at ht
  rcases ht s.mem (Protocol.rely_refl _ t _) hinv with ⟨rfl, -⟩ | ⟨-, -, h⟩
  · exact trivial
  · exact h

end Runs

/-! ### A command to skip -/

/-- The environment of a command named in `FAKETIME_SKIP_CMDS`. -/
def skippedEnv (setting : CStr) : EnvVar → Option CStr
  | .faketime => some setting
  | .faketimeSkipCmds => some "date".toList
  | _ => none

/-- The system it runs on. -/
def skippedSurroundings (setting : CStr) : Surroundings :=
  calmSurroundings (skippedEnv setting) (fun _ _ => ⟨50, 999⟩) ⟨0, 0⟩

/-- Its world before it is initialized. -/
def skippedStart (setting : CStr) : World :=
  calmWorld (skippedEnv setting) (fun _ _ => ⟨50, 999⟩) ⟨0, 0⟩ Proc.initial

/-- Its world after that, with a date at which the clock is to stand still. -/
def skippedWorld : World :=
  { skippedStart "1970-01-01 00:01:40".toList with
    now := 25
    dontFake := true
    proc := { startedAt with
      ftMode := .noop
      userFakedTimeSet := true
      userFakedTimeSaved := "1970-01-01 00:01:40".toList }
    shm := startedWorld.shm }

theorem run_initProg_skipped :
    (initProg epochBuild).run seq (skippedStart "1970-01-01 00:01:40".toList) =
      .ok (.initialized, skippedWorld) := rfl

theorem excluded_skipped (setting : CStr) : Excluded (skippedSurroundings setting) epochBuild := by
  refine Or.inl ?_
  rintro r ⟨n, h⟩
  cases h
  exact ⟨_, rfl, by decide⟩

/-- The thread that has initialized the command asks for the time. -/
theorem excluded_sees_real_time_skipped :
    ∃ s : Pool sys (Fin 2) (Mem Unit (Fin 2) Reply) Reply,
      (library epochBuild (skippedSurroundings "1970-01-01 00:01:40".toList) (fun _ => ())
        (fun _ => 0) fun t m e => Spared (skippedSurroundings "1970-01-01 00:01:40".toList)
          (t = 0) (m.proc ()) e).Reach (Pool.init sys (Fin 2) Reply (Mem.fresh Proc.initial)) s ∧
      (s.mem.proc ()).ftMode = .noop ∧
      s.code 0 = some (.ret (.gettime .realtime 0 (some ⟨50, 999⟩))) ∧
      (Reply.gettime .realtime 0 (some ⟨50, 999⟩)).IsReal (s.mem.heard 0) := by
  have hallow := calmSurroundings_allows (skippedEnv "1970-01-01 00:01:40".toList)
    (fun _ _ => ⟨50, 999⟩) ⟨0, 0⟩ Proc.initial
  obtain ⟨m, hr, hready, hdont, -, hs⟩ := exists_reach_ready epochBuild
    (fun _ : Unit => (0 : Fin 2)) (fun t m e => Spared
      (skippedSurroundings "1970-01-01 00:01:40".toList) (t = 0) (m.proc ()) e) (p := ()) hallow
    (Mem.fresh_stands (fun _ : Fin 2 => ()) 0 Proc.initial _ _ _) rfl rfl run_initProg_skipped
      rfl rfl
  have hs' : Stands (fun _ => ()) 0 { skippedWorld with rest := m.rest 0 } m := by
    have hs₁ := hs 0 rfl
    rw [hdont] at hs₁
    exact hs₁
  obtain ⟨m', c, hr', hc, hs₂⟩ := exists_reach_reply epochBuild (fun _ => 0) (fun t m e => Spared
      (skippedSurroundings "1970-01-01 00:01:40".toList) (t = 0) (m.proc ()) e)
    (e := .clockGettime .realtime) (a := .gettime .realtime 0 (some ⟨50, 999⟩))
    (w := { skippedWorld with rest := m.rest 0 }) (hallow.of_eq rfl rfl) hs' hready (Or.inl rfl) rfl
  have hmain := excluded_sees_real_time (fun _ => rfl) ?_ ?_ ?_
    (excluded_skipped "1970-01-01 00:01:40".toList) ?_ (fun _ => rfl) (fun _ => rfl) (fun _ => rfl)
    (by decide) (hr.trans hr')
  · refine ⟨_, hr.trans hr', ?_, hc, hmain.2 0 _ hc⟩
    rw [hs₂.proc]
    rfl
  · rintro r ⟨n, h⟩
    cases h
    exact ⟨_, rfl, (by decide : (⟨50, 999⟩ : Timespec).Normal)⟩
  · rintro tv ⟨n, h⟩
    cases h
    exact (by decide : (0 : ℤ) ≤ 999 / 1000)
  · rintro b b' rfl
    exact ⟨id, id⟩
  · rintro text (⟨n, h⟩ | ⟨⟨n, h⟩, -⟩)
    · cases h
      exact ⟨by decide, by decide⟩
    · cases h

/-- **An excluded process can see a faked time, and can be refused the time.** With a date
to start from the mode is not `FT_NOOP` after the initialization; and with a date to stand
still at, `clock_gettime` fails in a thread that has not initialized the process. -/
theorem excluded_process_faked_or_refused :
    (∃ m : Mem Unit (Fin 2) Reply, Excluded (skippedSurroundings "@1970-01-01 00:01:40".toList)
        epochBuild ∧
      (library epochBuild (skippedSurroundings "@1970-01-01 00:01:40".toList) (fun _ => ())
        (fun _ => 0) fun _ _ _ => True).Reach
          (Pool.init sys (Fin 2) Reply (Mem.fresh Proc.initial)) (Pool.init sys (Fin 2) Reply m) ∧
      m.ready () = true ∧ (m.proc ()).ftMode ≠ .noop) ∧
    ∃ s : Pool sys (Fin 2) (Mem Unit (Fin 2) Reply) Reply,
      Excluded (skippedSurroundings "1970-01-01 00:01:40".toList) epochBuild ∧
      (library epochBuild (skippedSurroundings "1970-01-01 00:01:40".toList) (fun _ => ())
        (fun _ => 0) fun _ _ _ => True).Reach
          (Pool.init sys (Fin 2) Reply (Mem.fresh Proc.initial)) s ∧
      s.code 1 = some (.ret (.gettime .realtime (-1) (some ⟨50, 999⟩))) := by
  constructor
  · have hallow := calmSurroundings_allows (skippedEnv "@1970-01-01 00:01:40".toList)
      (fun _ _ => ⟨50, 999⟩) ⟨0, 0⟩ Proc.initial
    have hinit : (initProg epochBuild).run seq (skippedStart "@1970-01-01 00:01:40".toList) =
        .ok (.initialized, { skippedStart "@1970-01-01 00:01:40".toList with
          now := 32, dontFake := true, proc := startedAt, shm := startedWorld.shm }) := rfl
    obtain ⟨m, hr, hready, -, -, hs⟩ := exists_reach_ready epochBuild
      (fun _ : Unit => (0 : Fin 2)) (fun _ _ _ => True) (p := ()) hallow
      (Mem.fresh_stands (fun _ : Fin 2 => ()) 0 Proc.initial _ _ _) rfl rfl hinit rfl rfl
    refine ⟨m, excluded_skipped _, hr, hready, ?_⟩
    rw [(hs 0 rfl).proc]
    exact (by decide : startedAt.ftMode ≠ .noop)
  · have hallow := calmSurroundings_allows (skippedEnv "1970-01-01 00:01:40".toList)
      (fun _ _ => ⟨50, 999⟩) ⟨0, 0⟩ Proc.initial
    obtain ⟨m, hr, hready, -, hdont, hs⟩ := exists_reach_ready epochBuild
      (fun _ : Unit => (0 : Fin 2)) (fun _ _ _ => True) (p := ()) hallow
      (Mem.fresh_stands (fun _ : Fin 2 => ()) 0 Proc.initial _ _ _) rfl rfl run_initProg_skipped rfl
      rfl
    have hs' : Stands (fun _ => ()) 1
        { skippedWorld with dontFake := false, rest := m.rest 1 } m := by
      have hs₁ := hs 1 rfl
      rw [hdont 1 (by decide)] at hs₁
      exact hs₁
    obtain ⟨m', c, hr', hc, -⟩ := exists_reach_reply epochBuild (fun _ => 0) (fun _ _ _ => True)
      (e := .clockGettime .realtime) (a := .gettime .realtime (-1) (some ⟨50, 999⟩))
      (w := { skippedWorld with dontFake := false, rest := m.rest 1 }) (hallow.of_eq rfl rfl) hs'
      hready trivial rfl
    exact ⟨_, excluded_skipped _, hr.trans hr', hc⟩

end LibFaketime
