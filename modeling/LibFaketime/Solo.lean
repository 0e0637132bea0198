import LibFaketime.World
import LibFaketime.System

/-!
# A run alone is a run among others

A thread that runs alone, in a `LibFaketime.World`, takes steps of the machine of
`LibFaketime.System` while the others do nothing. So what a sequential run computes is
reachable there, and a sequential run that stops leaves a thread in front of the call
at which it stopped.
-/

namespace LibFaketime

open Effects

variable {P T α : Type} [DecidableEq P] [DecidableEq T]

/-- The surroundings may answer as the oracle of a world does. -/
structure Surroundings.Allows (E : Surroundings) (w : World) : Prop where
  os : ∀ n o r, w.os n o = some r → E.admits o r
  file : ∀ n path, E.file path (w.file n path)
  others : ∀ d, E.others d d
  spawn : E.admits .spawn ()
  munmap : E.admits .munmapStss ()
  perror : ∀ msg, E.admits (.perror msg) ()
  setenv : ∀ v value, E.admits (.setenv v value) true → E.admits (.getenv v) (some value)

/-- The world of thread `t` is what the memory says about it. -/
structure Stands (pid : T → P) (t : T) (w : World) (m : Mem P T α) : Prop where
  proc : m.proc (pid t) = w.proc
  shm : m.shm = w.shm
  sem : m.sem = if w.semHeld then some t else none
  mutex : m.mutex (pid t) = if w.mutexHeld then some t else none
  dontFake : m.dontFake t = w.dontFake
  rest : m.rest t = w.rest

/-- What a thread that runs alone leaves as it is: what belongs to the others, and what they have
come back with. -/
structure Apart (pid : T → P) (t : T) (m m' : Mem P T α) : Prop where
  proc : ∀ p, p ≠ pid t → m'.proc p = m.proc p
  mutex : ∀ p, p ≠ pid t → m'.mutex p = m.mutex p
  dontFake : ∀ u, u ≠ t → m'.dontFake u = m.dontFake u
  rest : ∀ u, u ≠ t → m'.rest u = m.rest u
  ready : m'.ready = m.ready
  turn : ∀ u, u ≠ t → m'.turns.held u = m.turns.held u
  served : m'.turns.served = m.turns.served

omit [DecidableEq P] [DecidableEq T] in
theorem Apart.trans {pid : T → P} {t : T} {m₁ m₂ m₃ : Mem P T α} (h : Apart pid t m₁ m₂)
    (h' : Apart pid t m₂ m₃) : Apart pid t m₁ m₃ where
  proc p hp := (h'.proc p hp).trans (h.proc p hp)
  mutex p hp := (h'.mutex p hp).trans (h.mutex p hp)
  dontFake u hu := (h'.dontFake u hu).trans (h.dontFake u hu)
  rest u hu := (h'.rest u hu).trans (h.rest u hu)
  ready := h'.ready.trans h.ready
  turn u hu := (h'.turn u hu).trans (h.turn u hu)
  served := h'.served.trans h.served

section Step

variable {E : Surroundings} {pid : T → P} {t u : T} {w w' v : World} {m m' : Mem P T α}

omit [DecidableEq P] [DecidableEq T] in
/-- A world stands for the same memory after a call that changes neither. -/
theorem Stands.tick (h : Stands pid t w m) : Stands pid t w.tick m :=
  ⟨h.proc, h.shm, h.sem, h.mutex, h.dontFake, h.rest⟩

omit [DecidableEq P] [DecidableEq T] in
theorem Apart.refl (m : Mem P T α) : Apart pid t m m :=
  ⟨fun _ _ => rfl, fun _ _ => rfl, fun _ _ => rfl, fun _ _ => rfl, rfl, fun _ _ => rfl, rfl⟩

omit [DecidableEq P] [DecidableEq T] in
/-- A thread of another process finds its variables as they were, and the shared block as it has
been left. -/
theorem Stands.apart (hv : Stands pid u v m) (hs : Stands pid t w' m') (hap : Apart pid t m m')
    (hpid : pid u ≠ pid t) (hfree : w'.semHeld = false) (hfree' : v.semHeld = false) :
    Stands pid u { v with shm := w'.shm } m' := by
  have hu : u ≠ t := fun h => hpid (congrArg pid h)
  refine ⟨(hap.proc _ hpid).trans hv.proc, hs.shm, ?_, (hap.mutex _ hpid).trans hv.mutex,
    (hap.dontFake u hu).trans hv.dontFake, (hap.rest u hu).trans hv.rest⟩
  rw [hs.sem, hfree, hfree']
  rfl

omit [DecidableEq P] [DecidableEq T] in
theorem Surroundings.Allows.of_eq (hE : E.Allows w) (hos : w'.os = w.os)
    (hfile : w'.file = w.file) : E.Allows w' :=
  ⟨by rw [hos]; exact hE.os, by rw [hfile]; exact hE.file, hE.others, hE.spawn, hE.munmap,
    hE.perror, hE.setenv⟩

/-- **The machine mirrors a call of the world**: it gives the same answer, to which the new world
stands, and leaves what belongs to the others alone. -/
def Mirrors (E : Surroundings) (pid : T → P) (t : T) (m : Mem P T α) (o : Op) (r : o.Ans)
    (w' : World) : Prop :=
  ∃ m', m.Answers E pid t o r m' ∧ Stands pid t w' m' ∧ Apart pid t m m' ∧ E.Allows w'

/-- A call that the machine answers without changing the memory. -/
theorem mirrors_ask {o : Op} {r : o.Ans} (hE : E.Allows w) (hs : Stands pid t w m)
    (ho : ∀ r m', E.admits o r → m' = m → m.Answers E pid t o r m')
    (h : w.ask o (fun _ w => w) = .ok (r, w')) : Mirrors E pid t m o r w' := by
  obtain ⟨hr, rfl⟩ := World.ask_eq_ok h
  exact ⟨m, ho r m (hE.os _ _ _ hr) rfl, hs.tick, .refl m, hE.of_eq rfl rfl⟩

theorem mirrors_store {f : Proc → Proc} {r : Unit} (hE : E.Allows w) (hs : Stands pid t w m)
    (h : seq w (.store f) = .ok (r, w')) : Mirrors E pid t m (.store f) r w' := by
  cases h
  refine ⟨m.assign (pid t) f, rfl, ⟨?_, hs.shm, hs.sem, hs.mutex, hs.dontFake, hs.rest⟩,
    { Apart.refl m with proc := fun p hp => Function.update_of_ne hp .. }, hE.of_eq rfl rfl⟩
  exact (Function.update_self ..).trans (congrArg f hs.proc)

theorem mirrors_setDontFake {b : Bool} {r : Unit} (hE : E.Allows w) (hs : Stands pid t w m)
    (h : seq w (.setDontFake b) = .ok (r, w')) : Mirrors E pid t m (.setDontFake b) r w' := by
  cases h
  exact ⟨_, rfl, ⟨hs.proc, hs.shm, hs.sem, hs.mutex, Function.update_self .., hs.rest⟩,
    { Apart.refl m with dontFake := fun u hu => Function.update_of_ne hu .. }, hE.of_eq rfl rfl⟩

theorem mirrors_ftSemLock {r : LockResult} (hE : E.Allows w) (hs : Stands pid t w m)
    (h : seq w .ftSemLock = .ok (r, w')) : Mirrors E pid t m .ftSemLock r w' := by
  rw [seq_ftSemLock] at h
  split at h
  · cases h
  next hheld =>
    obtain ⟨hr, rfl⟩ := World.ask_eq_ok h
    have hn : m.sem = none := by rw [hs.sem, if_neg hheld]
    cases r with
    | acquired =>
      exact ⟨m.acquire t, ⟨hn, rfl⟩, ⟨hs.proc, hs.shm, rfl, hs.mutex, hs.dontFake, hs.rest⟩,
        { Apart.refl m with turn := fun u hu => Turns.take_held_of_ne hu }, hE.of_eq rfl rfl⟩
    | interrupted =>
      exact ⟨m, rfl, ⟨hs.proc, hs.shm, hn, hs.mutex, hs.dontFake, hs.rest⟩, .refl m,
        hE.of_eq rfl rfl⟩
    | failed =>
      exact ⟨m, rfl, ⟨hs.proc, hs.shm, hn, hs.mutex, hs.dontFake, hs.rest⟩, .refl m,
        hE.of_eq rfl rfl⟩

theorem mirrors_ftSemUnlock {r : Bool} (hE : E.Allows w) (hs : Stands pid t w m)
    (h : seq w .ftSemUnlock = .ok (r, w')) : Mirrors E pid t m .ftSemUnlock r w' := by
  rw [seq_ftSemUnlock] at h
  obtain ⟨hr, rfl⟩ := World.ask_eq_ok h
  cases r with
  | true =>
    refine ⟨m.release, rfl, ⟨hs.proc, hs.shm, ?_, hs.mutex, hs.dontFake, hs.rest⟩,
      { Apart.refl m with }, hE.of_eq rfl rfl⟩
    simp [Mem.release]
  | false =>
    refine ⟨m, rfl, ⟨hs.proc, hs.shm, ?_, hs.mutex, hs.dontFake, hs.rest⟩, .refl m,
      hE.of_eq rfl rfl⟩
    simpa [World.tick] using hs.sem

theorem mirrors_timeMutexLock {r : Unit} (hE : E.Allows w) (hs : Stands pid t w m)
    (h : seq w .timeMutexLock = .ok (r, w')) : Mirrors E pid t m .timeMutexLock r w' := by
  rw [seq_timeMutexLock] at h
  split at h
  · cases h
  next hheld =>
    cases h
    refine ⟨_, ⟨by rw [hs.mutex, if_neg hheld], rfl⟩,
      ⟨hs.proc, hs.shm, hs.sem, ?_, hs.dontFake, hs.rest⟩,
      { Apart.refl m with mutex := fun p hp => Function.update_of_ne hp .. }, hE.of_eq rfl rfl⟩
    rw [if_pos rfl]
    exact Function.update_self ..

theorem mirrors_timeMutexUnlock {r : Unit} (hE : E.Allows w) (hs : Stands pid t w m)
    (h : seq w .timeMutexUnlock = .ok (r, w')) : Mirrors E pid t m .timeMutexUnlock r w' := by
  cases h
  exact ⟨_, rfl, ⟨hs.proc, hs.shm, hs.sem, Function.update_self .., hs.dontFake, hs.rest⟩,
    { Apart.refl m with mutex := fun p hp => Function.update_of_ne hp .. }, hE.of_eq rfl rfl⟩

theorem mirrors_readShared {r : FtShared} (hE : E.Allows w) (hs : Stands pid t w m)
    (h : seq w .readShared = .ok (r, w')) : Mirrors E pid t m .readShared r w' := by
  cases h
  refine ⟨{ m with shm := w.shm }, ⟨?_, rfl⟩,
    ⟨hs.proc, rfl, hs.sem, hs.mutex, hs.dontFake, hs.rest⟩, { Apart.refl m with }, hE⟩
  rw [hs.shm]
  exact hE.others _

theorem mirrors_writeShared {f : FtShared → FtShared} {r : Unit} (hE : E.Allows w)
    (hs : Stands pid t w m) (h : seq w (.writeShared f) = .ok (r, w')) :
    Mirrors E pid t m (.writeShared f) r w' := by
  cases h
  exact ⟨{ m with shm := f m.shm }, rfl,
    ⟨hs.proc, congrArg f hs.shm, hs.sem, hs.mutex, hs.dontFake, hs.rest⟩, { Apart.refl m with },
    hE.of_eq rfl rfl⟩

/-- A reading is remembered, which no world knows of. -/
theorem mirrors_realClockGettime {c : ClockId} {r : Option Timespec} (hE : E.Allows w)
    (hs : Stands pid t w m) (h : seq w (.realClockGettime c) = .ok (r, w')) :
    Mirrors E pid t m (.realClockGettime c) r w' := by
  rw [seq_realClockGettime] at h
  obtain ⟨hr, rfl⟩ := World.ask_eq_ok h
  exact ⟨_, ⟨hE.os _ _ _ hr, rfl⟩, ⟨hs.proc, hs.shm, hs.sem, hs.mutex, hs.dontFake, hs.rest⟩,
    { Apart.refl m with }, hE.of_eq rfl rfl⟩

theorem mirrors_realGettimeofday {r : Option Timeval} (hE : E.Allows w) (hs : Stands pid t w m)
    (h : seq w .realGettimeofday = .ok (r, w')) : Mirrors E pid t m .realGettimeofday r w' := by
  obtain ⟨hr, rfl⟩ := World.ask_eq_ok (f := fun _ w => w) h
  exact ⟨_, ⟨hE.os _ _ _ hr, rfl⟩, ⟨hs.proc, hs.shm, hs.sem, hs.mutex, hs.dontFake, hs.rest⟩,
    { Apart.refl m with }, hE.of_eq rfl rfl⟩

theorem mirrors_openRead {path : CStr} {r : Option ℕ} (hE : E.Allows w) (hs : Stands pid t w m)
    (h : seq w (.openRead path) = .ok (r, w')) : Mirrors E pid t m (.openRead path) r w' := by
  rw [seq_openRead] at h
  have hfile := hE.file w.now path
  have hothers : ∀ l, Apart pid t m { m with rest := Function.update m.rest t l } := fun l =>
    { Apart.refl m with rest := fun u hu => Function.update_of_ne hu .. }
  cases hc : w.file w.now path with
  | some contents =>
    rw [hc] at h hfile
    cases h
    exact ⟨_, ⟨some contents, hfile, rfl, rfl⟩,
      ⟨hs.proc, hs.shm, hs.sem, hs.mutex, hs.dontFake, Function.update_self ..⟩, hothers _,
      hE.of_eq rfl rfl⟩
  | none =>
    rw [hc] at h hfile
    cases h
    exact ⟨_, ⟨none, hfile, rfl, rfl⟩,
      ⟨hs.proc, hs.shm, hs.sem, hs.mutex, hs.dontFake, Function.update_self ..⟩, hothers _,
      hE.of_eq rfl rfl⟩

theorem mirrors_read {fd count : ℕ} {r : ReadResult} (hE : E.Allows w) (hs : Stands pid t w m)
    (h : seq w (.read fd count) = .ok (r, w')) : Mirrors E pid t m (.read fd count) r w' := by
  cases h
  refine ⟨_, ⟨?_, List.length_take_le .., fun hl => ?_, rfl⟩,
    ⟨hs.proc, hs.shm, hs.sem, hs.mutex, hs.dontFake, ?_⟩,
    { Apart.refl m with rest := fun u hu => Function.update_of_ne hu .. }, hE.of_eq rfl rfl⟩
  · rw [hs.rest]
    exact List.take_prefix ..
  · rw [hs.rest]
    exact List.take_eq_nil_iff.mp hl
  · refine (Function.update_self ..).trans ?_
    rw [hs.rest, List.length_take]
    rcases Nat.le_total count w.rest.length with hle | hle
    · rw [Nat.min_eq_left hle]
    · rw [Nat.min_eq_right hle, List.drop_length, List.drop_eq_nil_of_le hle]

theorem mirrors_write {bytes : List UInt8} {r : WriteResult} (hE : E.Allows w)
    (hs : Stands pid t w m) (h : seq w (.write bytes) = .ok (r, w')) :
    Mirrors E pid t m (.write bytes) r w' := by
  rw [seq_write] at h
  obtain ⟨hr, rfl⟩ := World.ask_eq_ok h
  exact ⟨m, ⟨hE.os _ _ _ hr, rfl⟩, ⟨hs.proc, hs.shm, hs.sem, hs.mutex, hs.dontFake, hs.rest⟩,
    .refl m, hE.of_eq rfl rfl⟩

/-- What has been put into the environment is found there. -/
theorem mirrors_setenv {x : EnvVar} {value : CStr} {r : Bool} (hE : E.Allows w)
    (hs : Stands pid t w m) (h : seq w (.setenv x value) = .ok (r, w')) :
    Mirrors E pid t m (.setenv x value) r w' := by
  obtain ⟨hr, rfl⟩ := World.ask_eq_ok (w := w) h
  have hadmits := hE.os _ _ _ hr
  cases r with
  | false => exact ⟨m, ⟨hadmits, rfl⟩, hs.tick, .refl m, hE.of_eq rfl rfl⟩
  | true =>
    refine ⟨m, ⟨hadmits, rfl⟩, ⟨hs.proc, hs.shm, hs.sem, hs.mutex, hs.dontFake, hs.rest⟩, .refl m,
      ?_, hE.file, hE.others, hE.spawn, hE.munmap, hE.perror, hE.setenv⟩
    intro n o r ho
    cases o with
    | getenv y =>
      simp only [if_true, World.setEnv] at ho
      split at ho
      next hy =>
        cases ho
        cases hy
        exact hE.setenv _ _ hadmits
      next => exact hE.os _ _ _ ho
    | _ => exact hE.os _ _ _ ho

/-- **A call in a world is a call of the machine.** -/
theorem exists_answers {o : Op} {r : o.Ans} (hE : E.Allows w) (hs : Stands pid t w m)
    (h : seq w o = .ok (r, w')) : Mirrors E pid t m o r w' := by
  cases o with
  | load =>
    cases h
    exact ⟨m, ⟨hs.proc.symm, rfl⟩, hs, .refl m, hE⟩
  | dontFake =>
    cases h
    exact ⟨m, ⟨hs.dontFake.symm, rfl⟩, hs, .refl m, hE⟩
  | munmapStss =>
    cases h
    exact ⟨m, ⟨hE.munmap, rfl⟩, hs, .refl m, hE⟩
  | spawn =>
    cases h
    exact ⟨m, ⟨hE.spawn, rfl⟩, hs, .refl m, hE⟩
  | perror msg =>
    cases h
    exact ⟨m, ⟨hE.perror msg, rfl⟩, hs, .refl m, hE⟩
  | exit code msg => cases h
  | stalled => cases h
  | store f => exact mirrors_store hE hs h
  | setDontFake b => exact mirrors_setDontFake hE hs h
  | ftSemLock => exact mirrors_ftSemLock hE hs h
  | ftSemUnlock => exact mirrors_ftSemUnlock hE hs h
  | timeMutexLock => exact mirrors_timeMutexLock hE hs h
  | timeMutexUnlock => exact mirrors_timeMutexUnlock hE hs h
  | readShared => exact mirrors_readShared hE hs h
  | writeShared f => exact mirrors_writeShared hE hs h
  | realClockGettime c => exact mirrors_realClockGettime hE hs h
  | realGettimeofday => exact mirrors_realGettimeofday hE hs h
  | openRead path => exact mirrors_openRead hE hs h
  | read fd count => exact mirrors_read hE hs h
  | write bytes => exact mirrors_write hE hs h
  | setenv x value => exact mirrors_setenv hE hs h
  | _ => exact mirrors_ask hE hs (fun _ _ h h' => ⟨h, h'⟩) h

end Step

/-- The return of a program changes nothing a world says. -/
theorem Stands.returned {pid : T → P} {t u : T} {w : World} {m : Mem P T α} {a : α}
    (h : Stands pid t w m) (inits : α → Bool) : Stands pid t w (m.returned inits (pid u) u a) :=
  ⟨h.proc, h.shm, h.sem, h.mutex, h.dontFake, h.rest⟩

theorem Mem.returned_ready_self {inits : α → Bool} {p : P} {t : T} {a : α} {m : Mem P T α}
    (h : inits a = true) : (m.returned inits p t a).ready p = true := by
  unfold Mem.returned
  rw [if_pos h]
  exact Function.update_self ..

theorem Mem.returned_ready_of_ne {inits : α → Bool} {p q : P} {t : T} {a : α} {m : Mem P T α}
    (h : q ≠ p) : (m.returned inits p t a).ready q = m.ready q := by
  unfold Mem.returned
  split
  · exact Function.update_of_ne h ..
  · rfl

/-! ### Runs -/

section Run

variable {E : Surroundings} (pid : T → P) (inits : α → Bool)
  (start : T → Mem P T α → Sys α → Prop) {t : T} {w w' : World}
  {s : Pool sys T (Mem P T α) α} {p : Sys α}

/-- **A run alone that returns is a run of the machine.** -/
theorem reach_of_run {a : α} (hE : E.Allows w) (hs : Stands pid t w s.mem)
    (hc : s.code t = some p) (h : p.run seq w = .ok (a, w')) :
    ∃ m', (system E pid inits start).Reach s
        ⟨m', Function.update s.code t (some (Prog.ret a))⟩ ∧
      Stands pid t w' m' ∧ Apart pid t s.mem m' := by
  induction p generalizing w s with
  | ret b =>
    cases h
    refine ⟨s.mem, ?_, hs, .refl _⟩
    rw [← hc, Function.update_eq_self]
  | op o k ih =>
    rw [Prog.run_op] at h
    cases ho : seq w o with
    | error x =>
      rw [ho] at h
      cases h
    | ok r =>
      rw [ho] at h
      obtain ⟨m₁, ha, hs₁, hap, hE₁⟩ := exists_answers hE hs ho
      obtain ⟨m', hr, hs', hap'⟩ := ih r.1 (s := ⟨m₁, Function.update s.code t (some (k r.1))⟩)
        hE₁ hs₁ (Function.update_self ..) h
      refine ⟨m', .head (.call hc ha) ?_, hs', hap.trans hap'⟩
      rwa [Function.update_idem] at hr

/-- A call of an idle thread, from its start to its return, while the others do
nothing. -/
theorem reach_of_call {a : α} (hE : E.Allows w) (hs : Stands pid t w s.mem)
    (hidle : s.code t = none) (hstart : start t s.mem p) (h : p.run seq w = .ok (a, w')) :
    ∃ m', (system E pid inits start).Reach s ⟨m'.returned inits (pid t) t a, s.code⟩ ∧
      Stands pid t w' m' ∧ Apart pid t s.mem m' := by
  obtain ⟨m', hr, hs', hap⟩ := reach_of_run pid inits start
    (s := ⟨s.mem, Function.update s.code t (some p)⟩) hE hs (Function.update_self ..) h
  refine ⟨m', (Relation.ReflTransGen.head (.start hidle hstart) hr).tail ?_, hs', hap⟩
  have hcode : s.code = Function.update (Function.update
      (Function.update s.code t (some p)) t (some (Prog.ret a))) t none := by
    rw [Function.update_idem, Function.update_idem, ← hidle, Function.update_eq_self]
  have hfin := Machine.Step.finish (M := system E pid inits start)
    (s := ⟨m', Function.update (Function.update s.code t (some p)) t (some (Prog.ret a))⟩)
    (t := t) (a := a) (Function.update_self ..) rfl
  rwa [← hcode] at hfin

end Run

/-! ### Plain surroundings -/

/-- Surroundings in which anything may happen but nobody else uses the block. -/
def anySurroundings : Surroundings := ⟨fun _ _ => True, fun _ _ => True, fun d d' => d' = d⟩

theorem anySurroundings_allows (w : World) : anySurroundings.Allows w :=
  ⟨fun _ _ _ _ => trivial, fun _ _ => trivial, fun _ => rfl, trivial, trivial, fun _ => trivial,
    fun _ _ _ => trivial⟩

/-- Surroundings that answer as `calmOs` does. -/
def calmSurroundings (env : EnvVar → Option CStr) (clock : ℕ → ClockId → Timespec)
    (mtime : Timespec) : Surroundings where
  admits
    | .spawn, _ | .munmapStss, _ | .perror _, _ => True
    | o, r => ∃ n, calmOs env clock mtime n o = some r
  file _ contents := contents = none
  others d d' := d' = d

theorem calmSurroundings_allows (env : EnvVar → Option CStr) (clock : ℕ → ClockId → Timespec)
    (mtime : Timespec) (s : Proc) :
    (calmSurroundings env clock mtime).Allows (calmWorld env clock mtime s) where
  os := by
    intro n o r h
    cases o <;> first | trivial | exact ⟨n, h⟩
  file _ _ := rfl
  others _ := rfl
  spawn := trivial
  munmap := trivial
  perror _ := trivial
  setenv _ _ h := nomatch h.choose_spec

/-- Nobody has done anything yet, and every process has the variables `s`. -/
def Mem.fresh {P T α : Type} (s : Proc) : Mem P T α where
  proc _ := s
  shm := .created
  sem := none
  mutex _ := none
  dontFake _ := false
  rest _ := []
  ready _ := false
  turns := .start T α
  seen _ _ := none
  heard _ := none

theorem Mem.fresh_stands {P T α : Type} (pid : T → P) (t : T) (s : Proc)
    (env : EnvVar → Option CStr) (clock : ℕ → ClockId → Timespec) (mtime : Timespec) :
    Stands pid t (calmWorld env clock mtime s) (Mem.fresh s : Mem P T α) :=
  ⟨rfl, rfl, rfl, rfl, rfl, rfl⟩


end LibFaketime
