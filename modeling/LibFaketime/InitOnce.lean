import LibFaketime.Lib.Threads
import Mathlib.Data.Nat.Notation

/-!
# Initializing once

`ft_init_once_generic` is entered by every thread that comes first to an intercepted function, and
again by the thread that is initializing, whenever the initializer calls such a function itself. It
is a stack of calls for each thread here, over one memory: the state word, the control of
`pthread_once` and the mutex. Every access to the state word is a turn of its own, with the mutex
held or without it, and a failure to lock may come at any time and writes to the word from outside.

What keeps the initializer from being entered twice is not the word alone, then. The word leaves
`FT_INIT_UNINITIALIZED` for good before the initializer is called, and only the holder of the mutex
takes it from there (`LibFaketime.InitOnce.Glob`); and a thread that meets its own lock is inside
the initializer, since nowhere else does it call anything with the mutex held
(`LibFaketime.InitOnce.Below`).
-/

namespace LibFaketime

/-- `enum ft_init_state`. -/
inductive FtInitState where
  | uninitialized
  | initializing
  | ready
  | failed
  deriving DecidableEq

namespace InitOnce

open Threads

variable {T : Type}

/-! ### The memory -/

/-- `pthread_once_t`. -/
inductive OnceControl (T : Type) where
  | init
  /-- A thread is in the function that is run once; others have to wait. -/
  | running (t : T)
  | done
  deriving DecidableEq

/-- What `pthread_mutex_lock` returns. -/
inductive LockCode where
  | zero
  | edeadlk
  | other
  deriving DecidableEq

/-- `pthread_mutex_t`: whether it checks for errors, and who holds it. -/
structure Mutex (T : Type) where
  errorcheck : Bool
  owner : Option T
  deriving DecidableEq

variable [DecidableEq T] in
/-- What a call of `pthread_mutex_lock` returns if it does not fail for a reason of its own; nothing
while it blocks. A mutex that does not check for errors blocks its owner, too. -/
def Mutex.lock (x : Mutex T) (t : T) : Option LockCode :=
  match x.owner with
  | none => some .zero
  | some u => if u = t ∧ x.errorcheck = true then some .edeadlk else none

/-- The memory. -/
structure Mem (T : Type) where
  state : FtInitState
  onceControl : OnceControl T
  mutex : Mutex T
  /-- How often the initializer has been entered. -/
  entered : ℕ
  /-- The initializer has returned. -/
  completed : Bool
  deriving DecidableEq

/-! ### The calls -/

/-- Where a call of `ft_init_once_generic` is. -/
inductive Call where
  /-- Before `pthread_once`, or waiting in it. -/
  | once
  /-- In `init_mutex_cb`, run by `pthread_once`. -/
  | initMutexCb
  /-- `pthread_once` has failed. -/
  | onceFailed
  /-- Before the test for `FT_INIT_FAILED`. -/
  | testFailed
  /-- Before `pthread_mutex_lock`, or waiting in it. -/
  | lock
  /-- It has returned `EDEADLK`; before the test for `FT_INIT_INITIALIZING`. -/
  | deadlock
  /-- Before the state word is set to `FT_INIT_FAILED`. -/
  | fails
  /-- It has returned zero; before the test for `FT_INIT_UNINITIALIZED`. -/
  | testUninitialized
  /-- Before the state word is set to `FT_INIT_INITIALIZING`. -/
  | markInitializing
  /-- Before the call of `initializer_cb`. -/
  | callInitializer
  /-- In `initializer_cb`. -/
  | initializer
  /-- Before the state word is set to `FT_INIT_READY`. -/
  | markReady
  /-- Before `pthread_mutex_unlock`. -/
  | unlock
  /-- Before the test for `FT_INIT_READY`. -/
  | testReady
  /-- It has returned. -/
  | returned (b : Bool)
  deriving DecidableEq

/-- The calls of a thread, the innermost one first. -/
abbrev Stack := List Call

variable [DecidableEq T] in
/-- **One turn of thread `t`.** Only the initializer calls the function again. -/
inductive Turn (t : T) : Mem T × Stack → Mem T × Stack → Prop
  | call (m : Mem T) : Turn t (m, []) (m, [.once])
  | callAgain (m : Mem T) (fs : Stack) :
      Turn t (m, .initializer :: fs) (m, .once :: .initializer :: fs)
  | onceFails (m : Mem T) (fs : Stack) : Turn t (m, .once :: fs) (m, .onceFailed :: fs)
  | onceRuns (m : Mem T) (fs : Stack) (h : m.onceControl = .init) :
      Turn t (m, .once :: fs) ({ m with onceControl := .running t }, .initMutexCb :: fs)
  | onceDone (m : Mem T) (fs : Stack) (h : m.onceControl = .done) :
      Turn t (m, .once :: fs) (m, .testFailed :: fs)
  | initMutexCb (m : Mem T) (fs : Stack) :
      Turn t (m, .initMutexCb :: fs)
        ({ m with mutex := ⟨true, none⟩, onceControl := .done }, .testFailed :: fs)
  | onceFailed (m : Mem T) (fs : Stack) :
      Turn t (m, .onceFailed :: fs) ({ m with state := .failed }, .returned false :: fs)
  | hasFailed (m : Mem T) (fs : Stack) (h : m.state = .failed) :
      Turn t (m, .testFailed :: fs) (m, .returned false :: fs)
  | hasNotFailed (m : Mem T) (fs : Stack) (h : m.state ≠ .failed) :
      Turn t (m, .testFailed :: fs) (m, .lock :: fs)
  | locks (m : Mem T) (fs : Stack) (h : m.mutex.lock t = some .zero) :
      Turn t (m, .lock :: fs)
        ({ m with mutex := { m.mutex with owner := some t } }, .testUninitialized :: fs)
  | deadlocks (m : Mem T) (fs : Stack) (h : m.mutex.lock t = some .edeadlk) :
      Turn t (m, .lock :: fs) (m, .deadlock :: fs)
  /-- Another error, which may come at any time. -/
  | lockFails (m : Mem T) (fs : Stack) : Turn t (m, .lock :: fs) (m, .fails :: fs)
  | reenters (m : Mem T) (fs : Stack) (h : m.state = .initializing) :
      Turn t (m, .deadlock :: fs) (m, .returned true :: fs)
  | doesNotReenter (m : Mem T) (fs : Stack) (h : m.state ≠ .initializing) :
      Turn t (m, .deadlock :: fs) (m, .fails :: fs)
  | fails (m : Mem T) (fs : Stack) :
      Turn t (m, .fails :: fs) ({ m with state := .failed }, .returned false :: fs)
  | isUninitialized (m : Mem T) (fs : Stack) (h : m.state = .uninitialized) :
      Turn t (m, .testUninitialized :: fs) (m, .markInitializing :: fs)
  | isInitialized (m : Mem T) (fs : Stack) (h : m.state ≠ .uninitialized) :
      Turn t (m, .testUninitialized :: fs) (m, .unlock :: fs)
  | markInitializing (m : Mem T) (fs : Stack) :
      Turn t (m, .markInitializing :: fs)
        ({ m with state := .initializing }, .callInitializer :: fs)
  | enters (m : Mem T) (fs : Stack) :
      Turn t (m, .callInitializer :: fs) ({ m with entered := m.entered + 1 }, .initializer :: fs)
  | completes (m : Mem T) (fs : Stack) :
      Turn t (m, .initializer :: fs) ({ m with completed := true }, .markReady :: fs)
  | markReady (m : Mem T) (fs : Stack) :
      Turn t (m, .markReady :: fs) ({ m with state := .ready }, .unlock :: fs)
  | unlock (m : Mem T) (fs : Stack) :
      Turn t (m, .unlock :: fs)
        ({ m with mutex := { m.mutex with
            owner := if m.mutex.owner = some t then none else m.mutex.owner } },
          .testReady :: fs)
  | testReady (m : Mem T) (fs : Stack) :
      Turn t (m, .testReady :: fs) (m, .returned (decide (m.state = .ready)) :: fs)
  | goesOn (m : Mem T) (b : Bool) (fs : Stack) : Turn t (m, .returned b :: fs) (m, fs)

/-- The memory at the beginning: the mutex is the default one until it is initialized. -/
def Mem.start (T : Type) : Mem T := ⟨.uninitialized, .init, ⟨false, none⟩, 0, false⟩

/-- Nobody has called the function. -/
def start (T : Type) : Pool T (Mem T) Stack := ⟨.start T, fun _ => []⟩

/-! ### What holds of the memory -/

/-- **What holds of the memory**: the mutex checks for errors once `pthread_once` is through with
it, and the state word tells whether the initializer has been entered and has returned. -/
structure Glob (m : Mem T) : Prop where
  kind : m.onceControl = .done → m.mutex.errorcheck = true
  fresh : m.state = .uninitialized → m.entered = 0
  bound : m.entered ≤ 1
  ready : m.state = .ready → m.completed = true
  owned : m.mutex.owner ≠ none → m.onceControl = .done

/-- The call holds the mutex. -/
def Call.holds : Call → Bool
  | .testUninitialized | .markInitializing | .callInitializer | .initializer | .markReady
  | .unlock => true
  | _ => false

/-- What holds of a call of thread `t`, which is called by the initializer if it is `nested`. -/
def Call.Ok (t : T) (m : Mem T) (nested : Prop) : Call → Prop
  | .once | .onceFailed | .returned false => m.onceControl ≠ .running t
  | .initMutexCb => m.onceControl = .running t
  | .testFailed | .lock | .fails | .testUninitialized | .initializer | .unlock | .testReady =>
    m.onceControl = .done
  | .deadlock => m.onceControl = .done ∧ nested
  | .markInitializing => m.onceControl = .done ∧ m.entered = 0
  | .callInitializer => m.onceControl = .done ∧ m.entered = 0 ∧ m.state ≠ .uninitialized
  | .markReady => m.onceControl = .done ∧ m.completed = true
  | .returned true => m.onceControl ≠ .running t ∧ (nested ∨ m.completed = true)

/-- **What stands below a call**: nothing, or the initializer, which holds the mutex. -/
def Below (t : T) (m : Mem T) (f : Call) (fs : Stack) : Prop :=
  (fs = [] ∧ (f.holds = true ↔ m.mutex.owner = some t)) ∨
    (fs = [.initializer] ∧ f.holds = false ∧ m.mutex.owner = some t ∧ m.onceControl = .done)

/-- What holds of a thread. -/
def Loc (t : T) (m : Mem T) : Stack → Prop
  | [] => m.mutex.owner ≠ some t ∧ m.onceControl ≠ .running t
  | f :: fs => Below t m f fs ∧ f.Ok t m (fs ≠ [])

/-- **What a turn of another thread may do to the memory**, as far as thread `u` is concerned. -/
structure Rely (u : T) (m m' : Mem T) : Prop where
  owner : m'.mutex.owner = some u ↔ m.mutex.owner = some u
  running : m'.onceControl = .running u ↔ m.onceControl = .running u
  done : m.onceControl = .done → m'.onceControl = .done
  entered : m.mutex.owner = some u → m'.entered = m.entered
  state : m'.state = .uninitialized → m.state = .uninitialized
  completed : m.completed = true → m'.completed = true

variable {t u : T} {m m' : Mem T} {f f' : Call} {fs : Stack} {nested : Prop}

theorem Rely.refl (u : T) (m : Mem T) : Rely u m m :=
  ⟨Iff.rfl, Iff.rfl, id, fun _ => rfl, id, id⟩

theorem Call.Ok.rely (h : f.Ok u m nested) (hr : Rely u m m')
    (ho : f.holds = true → m.mutex.owner = some u) : f.Ok u m' nested := by
  have hrunning : m.onceControl ≠ .running u → m'.onceControl ≠ .running u :=
    fun hne heq => hne (hr.running.mp heq)
  cases f with
  | once | onceFailed => exact hrunning h
  | initMutexCb => exact hr.running.mpr h
  | testFailed | lock | fails | testUninitialized | initializer | unlock | testReady =>
    exact hr.done h
  | deadlock => exact ⟨hr.done h.1, h.2⟩
  | markInitializing => exact ⟨hr.done h.1, (hr.entered (ho rfl)).trans h.2⟩
  | callInitializer =>
    exact ⟨hr.done h.1, (hr.entered (ho rfl)).trans h.2.1, fun hs => h.2.2 (hr.state hs)⟩
  | markReady => exact ⟨hr.done h.1, hr.completed h.2⟩
  | returned b =>
    cases b with
    | false => exact hrunning h
    | true => exact ⟨hrunning h.1, h.2.imp_right hr.completed⟩

theorem Below.owner_of_holds (h : Below t m f fs) (hf : f.holds = true) :
    m.mutex.owner = some t := by
  rcases h with ⟨-, hiff⟩ | ⟨-, hno, -⟩
  · exact hiff.mp hf
  · rw [hf] at hno
    cases hno

theorem Below.eq_nil_of_holds (h : Below t m f fs) (hf : f.holds = true) : fs = [] := by
  rcases h with ⟨hfs, -⟩ | ⟨-, hno, -⟩
  · exact hfs
  · rw [hf] at hno
    cases hno

/-- A call that does not hold the mutex of its thread is made by the initializer. -/
theorem Below.eq_of_owner (h : Below t m f fs) (hf : f.holds = false)
    (ho : m.mutex.owner = some t) : fs = [.initializer] := by
  rcases h with ⟨-, hiff⟩ | ⟨hfs, -⟩
  · rw [hiff.mpr ho] at hf
    cases hf
  · exact hfs

theorem Below.rely (h : Below u m f fs) (hr : Rely u m m') : Below u m' f fs := by
  rcases h with ⟨hfs, hiff⟩ | ⟨hfs, hno, ho, hd⟩
  · exact Or.inl ⟨hfs, hiff.trans hr.owner.symm⟩
  · exact Or.inr ⟨hfs, hno, hr.owner.mpr ho, hr.done hd⟩

/-- **What holds of a thread survives the turns of the others.** -/
theorem Loc.rely {q : Stack} (h : Loc u m q) (hr : Rely u m m') : Loc u m' q := by
  rcases q with _ | ⟨f, fs⟩
  · exact ⟨fun ho => h.1 (hr.owner.mp ho), fun hc => h.2 (hr.running.mp hc)⟩
  · exact ⟨h.1.rely hr, h.2.rely hr h.1.owner_of_holds⟩

/-! ### What a turn keeps -/

/-- A turn that keeps the mutex, and what the memory must keep for that. -/
theorem Below.next (h : Below t m f fs) (hf : f'.holds = f.holds)
    (ho : m'.mutex.owner = m.mutex.owner) (hd : m.onceControl = .done → m'.onceControl = .done) :
    Below t m' f' fs := by
  rw [Below, hf, ho]
  rcases h with h | ⟨hfs, hno, howner, hdone⟩
  · exact Or.inl h
  · exact Or.inr ⟨hfs, hno, howner, hd hdone⟩

/-- **What a turn of thread `t` leaves behind.** -/
structure Kept (t : T) (m m' : Mem T) (q : Stack) : Prop where
  glob : Glob m'
  loc : Loc t m' q
  rely : ∀ u, u ≠ t → Rely u m m'

/-- A turn that does not touch the memory. -/
theorem kept_of_silent (hm : Glob m) (hb : Below t m f fs) (hf : f'.holds = f.holds)
    (hok : f'.Ok t m (fs ≠ [])) : Kept t m m (f' :: fs) :=
  ⟨hm, ⟨hb.next hf rfl id, hok⟩, fun u _ => Rely.refl u m⟩

/-- A turn that changes nothing but the state word, and not back to what it was at first. -/
theorem kept_of_state {state : FtInitState} (hm : Glob m) (hb : Below t m f fs)
    (hf : f'.holds = f.holds) (hne : state ≠ .uninitialized)
    (hready : state = .ready → m.completed = true)
    (hok : f'.Ok t { m with state := state } (fs ≠ [])) :
    Kept t m { m with state := state } (f' :: fs) :=
  ⟨⟨hm.kind, fun h => absurd h hne, hm.bound, hready, hm.owned⟩, ⟨hb.next hf rfl id, hok⟩,
    fun _ _ => ⟨Iff.rfl, Iff.rfl, id, fun _ => rfl, fun h => absurd h hne, id⟩⟩

section Lock

variable [DecidableEq T] {x : Mutex T}

theorem owner_of_lock_eq_zero (h : x.lock t = some .zero) : x.owner = none := by
  rw [Mutex.lock] at h
  split at h
  next hnone => exact hnone
  next =>
    split at h
    · cases h
    · cases h

theorem owner_of_lock_eq_edeadlk (h : x.lock t = some .edeadlk) : x.owner = some t := by
  rw [Mutex.lock] at h
  split at h
  next => cases h
  next u hsome =>
    split at h
    next heq => rw [hsome, heq.1]
    next => cases h

/-- **The owner of a mutex that checks for errors does not block on it.** -/
theorem lock_eq_edeadlk (hx : x.errorcheck = true) (h : x.owner = some t) :
    x.lock t = some .edeadlk := by
  rw [Mutex.lock, h]
  exact if_pos ⟨rfl, hx⟩

end Lock

/-- **A turn keeps what holds of the memory and of its thread**, and is one the others rely on. -/
theorem kept_of_turn [DecidableEq T] {q q' : Stack} (hm : Glob m) (hl : Loc t m q)
    (h : Turn t (m, q) (m', q')) : Kept t m m' q' := by
  have hnot : m.onceControl = .done → m.onceControl ≠ .running t := by
    rintro hd hr
    rw [hd] at hr
    cases hr
  cases h with
  | call =>
    refine ⟨hm, ⟨Or.inl ⟨rfl, iff_of_false nofun hl.1⟩, hl.2⟩, fun u _ => Rely.refl u m⟩
  | callAgain _ fs =>
    obtain ⟨hb, hok⟩ := hl
    obtain rfl := hb.eq_nil_of_holds rfl
    exact ⟨hm, ⟨Or.inr ⟨rfl, rfl, hb.owner_of_holds rfl, hok⟩, hnot hok⟩, fun u _ => Rely.refl u m⟩
  | onceFails => exact kept_of_silent hm hl.1 rfl hl.2
  | onceRuns _ fs h =>
    have hnd : m.onceControl ≠ .done := by
      rw [h]
      nofun
    refine ⟨⟨nofun, hm.fresh, hm.bound, hm.ready, fun ho => absurd (hm.owned ho) hnd⟩,
      ⟨hl.1.next rfl rfl fun hd => absurd hd hnd, rfl⟩, fun u hu => ?_⟩
    refine ⟨Iff.rfl, iff_of_false (fun heq => ?_) fun heq => ?_, fun hd => absurd hd hnd,
      fun _ => rfl, id, id⟩
    · cases heq
      exact hu rfl
    · rw [h] at heq
      cases heq
  | onceDone _ fs h => exact kept_of_silent hm hl.1 rfl h
  | initMutexCb =>
    have hrunning : m.onceControl = .running t := hl.2
    have hnone : none = m.mutex.owner := by
      by_contra hne
      have hd := hm.owned (Ne.symm hne)
      rw [hrunning] at hd
      cases hd
    refine ⟨⟨fun _ => rfl, hm.fresh, hm.bound, hm.ready, fun ho => absurd rfl ho⟩,
      ⟨hl.1.next rfl hnone fun _ => rfl, rfl⟩, fun u hu => ?_⟩
    refine ⟨?_, iff_of_false nofun fun heq => ?_, fun _ => rfl, fun _ => rfl, id, id⟩
    · rw [← hnone]
    · rw [hrunning] at heq
      cases heq
      exact hu rfl
  | onceFailed => exact kept_of_state hm hl.1 rfl nofun nofun hl.2
  | hasFailed => exact kept_of_silent hm hl.1 rfl (hnot hl.2)
  | hasNotFailed => exact kept_of_silent hm hl.1 rfl hl.2
  | locks _ fs h =>
    obtain ⟨hb, hd⟩ := hl
    have hnone := owner_of_lock_eq_zero h
    have hfs : fs = [] := by
      rcases hb with ⟨hfs, -⟩ | ⟨-, -, ho, -⟩
      · exact hfs
      · rw [hnone] at ho
        cases ho
    refine ⟨⟨hm.kind, hm.fresh, hm.bound, hm.ready, fun _ => hd⟩,
      ⟨Or.inl ⟨hfs, iff_of_true rfl rfl⟩, hd⟩, fun u hu => ?_⟩
    refine ⟨iff_of_false (fun heq => ?_) fun heq => ?_, Iff.rfl, id, fun _ => rfl, id, id⟩
    · cases heq
      exact hu rfl
    · rw [hnone] at heq
      cases heq
  | deadlocks _ fs h =>
    -- the lock is held further out, where the initializer has been called
    have hfs := hl.1.eq_of_owner rfl (owner_of_lock_eq_edeadlk h)
    exact kept_of_silent hm hl.1 rfl ⟨hl.2, by rw [hfs]; nofun⟩
  | lockFails => exact kept_of_silent hm hl.1 rfl hl.2
  | reenters => exact kept_of_silent hm hl.1 rfl ⟨hnot hl.2.1, Or.inl hl.2.2⟩
  | doesNotReenter => exact kept_of_silent hm hl.1 rfl hl.2.1
  | fails => exact kept_of_state hm hl.1 rfl nofun nofun (hnot hl.2)
  | isUninitialized _ fs h => exact kept_of_silent hm hl.1 rfl ⟨hl.2, hm.fresh h⟩
  | isInitialized => exact kept_of_silent hm hl.1 rfl hl.2
  | markInitializing => exact kept_of_state hm hl.1 rfl nofun nofun ⟨hl.2.1, hl.2.2, nofun⟩
  | enters =>
    obtain ⟨hb, hd, hzero, hmarked⟩ := hl
    have hone : m.entered + 1 ≤ 1 := Nat.succ_le_succ (Nat.le_of_eq hzero)
    refine ⟨⟨hm.kind, fun h => absurd h hmarked, hone, hm.ready, hm.owned⟩,
      ⟨hb.next rfl rfl id, hd⟩, fun u hu => ⟨Iff.rfl, Iff.rfl, id, fun ho => ?_, id, id⟩⟩
    -- nobody else holds the mutex
    rw [hb.owner_of_holds rfl] at ho
    cases ho
    exact absurd rfl hu
  | completes =>
    exact ⟨⟨hm.kind, hm.fresh, hm.bound, fun _ => rfl, hm.owned⟩,
      ⟨hl.1.next rfl rfl id, hl.2, rfl⟩,
      fun u _ => ⟨Iff.rfl, Iff.rfl, id, fun _ => rfl, id, fun _ => rfl⟩⟩
  | markReady => exact kept_of_state hm hl.1 rfl nofun (fun _ => hl.2.2) hl.2.1
  | unlock _ fs =>
    obtain ⟨hb, hd⟩ := hl
    have ho := hb.owner_of_holds rfl
    have hnone : (if m.mutex.owner = some t then none else m.mutex.owner) = none := if_pos ho
    rw [hnone]
    refine ⟨⟨hm.kind, hm.fresh, hm.bound, hm.ready, fun hne => absurd rfl hne⟩,
      ⟨Or.inl ⟨hb.eq_nil_of_holds rfl, iff_of_false nofun nofun⟩, hd⟩, fun u hu => ?_⟩
    refine ⟨iff_of_false nofun fun heq => ?_, Iff.rfl, id, fun _ => rfl, id, id⟩
    rw [ho] at heq
    cases heq
    exact hu rfl
  | testReady =>
    refine kept_of_silent hm hl.1 rfl ?_
    cases hready : decide (m.state = .ready) with
    | false => exact hnot hl.2
    | true => exact ⟨hnot hl.2, Or.inr (hm.ready (of_decide_eq_true hready))⟩
  | goesOn _ b =>
    obtain ⟨hb, hok⟩ := hl
    have hrunning : m.onceControl ≠ .running t := by
      cases b with
      | false => exact hok
      | true => exact hok.1
    refine ⟨hm, ?_, fun u _ => Rely.refl u m⟩
    rcases hb with ⟨rfl, hiff⟩ | ⟨rfl, -, ho, hd⟩
    · exact ⟨fun ho => absurd (hiff.mpr ho) nofun, hrunning⟩
    · exact ⟨Or.inl ⟨rfl, iff_of_true rfl ho⟩, hd⟩

/-! ### Every run -/

theorem glob_start (T : Type) : Glob (Mem.start T) :=
  ⟨nofun, fun _ => rfl, Nat.zero_le 1, nofun, fun h => absurd rfl h⟩

theorem loc_start (t : T) : Loc t (Mem.start T) [] := ⟨nofun, nofun⟩

variable [DecidableEq T]

theorem reach_inv {c : Pool T (Mem T) Stack} (h : Reach Turn (start T) c) :
    Glob c.mem ∧ ∀ t, Loc t c.mem (c.own t) := by
  refine reach_keeps (fun t m r m' r' hm hl ht => ?_) (glob_start T) loc_start h
  obtain ⟨hglob, hloc, hrely⟩ := kept_of_turn hm hl ht
  exact ⟨hglob, hloc, fun u hu q hq => hq.rely (hrely u hu)⟩

/-- **Initialization runs once and is re-entrant.** However the turns of the threads follow on one
another: the initializer has been entered at most once; a thread that comes to lock the mutex it
holds itself is answered, and does not block; and where a call returns `true` it is made by the
initializer itself, or the initializer has returned. -/
theorem init_once_is_reentrant (c : Pool T (Mem T) Stack) (h : Reach Turn (start T) c) :
    c.mem.entered ≤ 1 ∧
      (∀ t fs, c.own t = .lock :: fs → c.mem.mutex.owner = some t → c.mem.mutex.lock t ≠ none) ∧
      ∀ t fs, c.own t = .returned true :: fs →
        Call.initializer ∈ fs ∨ c.mem.completed = true := by
  obtain ⟨hm, hl⟩ := reach_inv h
  refine ⟨hm.bound, fun t fs hstack ho => ?_, fun t fs hstack => ?_⟩
  · have ht := hl t
    rw [hstack] at ht
    rw [lock_eq_edeadlk (hm.kind ht.2) ho]
    nofun
  · have ht := hl t
    rw [hstack] at ht
    obtain ⟨hb, -, hnested | hcompleted⟩ := ht
    · rcases hb with ⟨hfs, -⟩ | ⟨hfs, -⟩
      · exact absurd hfs hnested
      · rw [hfs]
        exact Or.inl List.mem_cons_self
    · exact Or.inr hcompleted

/-! ### A thread alone -/

theorem step_alone {m m' : Mem Unit} {q q' : Stack} (h : Turn () (m, q) (m', q')) :
    Step Turn ⟨m, fun _ => q⟩ ⟨m', fun _ => q'⟩ := by
  have hown : (fun _ => q') = Function.update (fun _ : Unit => q) () q' := by
    ext t : 1
    rw [Function.update_self]
  rw [hown]
  exact Step.turn h

/-- The memory while the initializer is at work for the first time. -/
def midway : Mem Unit := ⟨.initializing, .done, ⟨true, some ()⟩, 1, false⟩

/-- A thread initializes, and its initializer calls the function. -/
theorem reach_midway :
    Reach Turn (start Unit) ⟨midway, fun _ => [.returned true, .initializer]⟩ := by
  have hinitMutex : Reach Turn (start Unit) ⟨⟨.uninitialized, .done, ⟨true, none⟩, 0, false⟩,
      fun _ => [.testFailed]⟩ :=
    ((Relation.ReflTransGen.single (step_alone (.call _))).tail
      (step_alone (.onceRuns _ _ rfl))).tail (step_alone (.initMutexCb _ _))
  have hlock : Reach Turn (start Unit) ⟨⟨.uninitialized, .done, ⟨true, some ()⟩, 0, false⟩,
      fun _ => [.markInitializing]⟩ :=
    ((hinitMutex.tail (step_alone (.hasNotFailed _ _ nofun))).tail
      (step_alone (.locks _ _ rfl))).tail (step_alone (.isUninitialized _ _ rfl))
  have henter : Reach Turn (start Unit) ⟨midway, fun _ => [.initializer]⟩ :=
    (hlock.tail (step_alone (.markInitializing _ _))).tail (step_alone (.enters _ _))
  have hagain : Reach Turn (start Unit) ⟨midway, fun _ => [.lock, .initializer]⟩ :=
    ((henter.tail (step_alone (.callAgain _ _))).tail (step_alone (.onceDone _ _ rfl))).tail
      (step_alone (.hasNotFailed _ _ nofun))
  exact (hagain.tail (step_alone (.deadlocks _ _ rfl))).tail (step_alone (.reenters _ _ rfl))

/-- The call inside returns `true` before the initializer has returned. -/
theorem init_once_is_reentrant_midway :
    Reach Turn (start Unit) ⟨midway, fun _ => [.returned true, .initializer]⟩ ∧
      midway.entered ≤ 1 ∧ midway.completed = false ∧ Call.initializer ∈ [Call.initializer] := by
  obtain ⟨hentered, -, htrue⟩ := init_once_is_reentrant _ reach_midway
  exact ⟨reach_midway, hentered, rfl, (htrue () _ rfl).resolve_right nofun⟩

end InitOnce

end LibFaketime
