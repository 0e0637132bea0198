import LibFaketime.SharedInit
import LibFaketime.Lib.Interleave

/-!
# Who owns the shared objects

Processes come and go: each begins on its own or as the copy of another one, may turn into another
program, initializes the library and exits. Whoever makes the shared objects is to remove them, and
nobody else.

That a process has made them is written down three times over, and each of the three is passed on
in its own way: the flag `shmCreator` to a copy but not to another program, `FAKETIME_SHARED` to
both, and the number in the name of the lock to nobody, but it is compared with `getpid`, which may
be faked. The objects of a process are there from its initialization until it exits, in every order
of the calls of all processes, exactly if none of the three is tampered with
(`LibFaketime.objects_owned_iff`).
-/

namespace LibFaketime

open Effects Effects.Prog

/-! ### The processes -/

/-- What there is of a process. -/
structure Task where
  alive : Bool
  /-- `FAKETIME_SHARED`. -/
  shared : Option CStr
  vars : ObjVars
  /-- The process itself has made its objects; no program can see this. -/
  made : Bool

/-- All processes, and the files under `/dev/shm`. -/
structure Tree where
  files : CStr → Option ShmFile
  task : Pid → Task

/-- What is the same for all processes. -/
structure TreeSettings where
  /-- `FAKETIME_FLSHM` is set. -/
  flshm : Bool
  /-- The library has been built with `FAKE_PID`. -/
  fakePid : Bool
  /-- `FAKETIME_FAKEPID`. -/
  fakepid : Option CStr
  /-- A process may turn into another program after it has made its objects. -/
  makerExecs : Bool

/-- Nothing has been made, and no process is alive. -/
def Tree.start : Tree := ⟨fun _ => none, fun _ => ⟨false, none, .initial, false⟩⟩

/-- Change what there is of a process. -/
def Tree.setTask (m : Tree) (t : Pid) (v : Task) : Tree :=
  { m with task := Function.update m.task t v }

theorem files_setTask (m : Tree) (t : Pid) (v : Task) : (m.setTask t v).files = m.files := rfl

theorem task_setTask (m : Tree) (t : Pid) (v : Task) : (m.setTask t v).task t = v :=
  Function.update_self (f := m.task) ..

theorem task_setTask_of_ne (m : Tree) {t u : Pid} (v : Task) (hu : u ≠ t) :
    (m.setTask t v).task u = m.task u :=
  Function.update_of_ne (f := m.task) hu ..

/-- What a change leaves alone of the process is left alone of all. -/
theorem field_setTask {β : Type} (g : Task → β) {m : Tree} {t : Pid} {v : Task}
    (hg : g v = g (m.task t)) (u : Pid) : g ((m.setTask t v).task u) = g (m.task u) := by
  by_cases hu : u = t
  · rw [hu, task_setTask, hg]
  · rw [task_setTask_of_ne m v hu]

/-- Most changes leave a process alive, and the maker of what it has made. -/
theorem life_setTask {m : Tree} {t u : Pid} {v : Task} {made alive : Bool}
    (hmade : v.made = (m.task t).made) (halive : v.alive = (m.task t).alive)
    (h : (m.task u).made = made ∧ (m.task u).alive = alive) :
    ((m.setTask t v).task u).made = made ∧ ((m.setTask t v).task u).alive = alive :=
  ⟨(field_setTask Task.made hmade u).trans h.1, (field_setTask Task.alive halive u).trans h.2⟩

/-- What a process sees, for a call that fails or not. -/
def Tree.world (m : Tree) (t : Pid) (fails : Bool) : ShmWorld where
  pid := if fails then none else some t
  files := m.files
  faketimeShared := (m.task t).shared
  shmCreator := (m.task t).vars.shmCreator
  removed := []
  calls := 0
  fails _ _ := fails

/-- A process has changed what it sees. It has made its objects if this has set the flag. -/
def Tree.seen (m : Tree) (t : Pid) (w : ShmWorld) : Tree where
  files := w.files
  task := Function.update m.task t
    { m.task t with
      shared := w.faketimeShared
      vars := { (m.task t).vars with shmCreator := w.shmCreator }
      made := (m.task t).made || (!(m.task t).vars.shmCreator && w.shmCreator) }

/-- **What a call of a process may answer, and what it makes of all of them.** Whatever is read of
an object after it has been opened is left open, as it may have been removed meanwhile. -/
def Tree.Answers (S : TreeSettings) (fails : ShmOp → Prop) (t : Pid) (m : Tree) :
    (o : ObjOp) → o.Ans → Tree → Prop
  | .shm o, r, m' => ∃ b : Bool, (b = true → fails o) ∧ r = ((m.world t b).answer o).1 ∧
      m' = m.seen t ((m.world t b).answer o).2
  | .getenvShared, r, m' => r = (m.task t).shared ∧ m' = m
  | .unsetenvShared, _, m' => m' = m.setTask t { m.task t with shared := none }
  | .getenvFlshm, r, m' => r = S.flshm ∧ m' = m
  | .getenvFakepid, r, m' => r = S.fakepid ∧ m' = m
  | .loadVars, r, m' => r = (m.task t).vars ∧ m' = m
  | .storeVars f, _, m' => m' = m.setTask t { m.task t with vars := f (m.task t).vars }
  | .forked parent, _, m' => (m.task parent).alive = true ∧
      m' = m.setTask t { m.task parent with made := false }
  | .begun, _, m' => m' = m.setTask t ⟨true, none, .initial, false⟩
  | .execve, _, m' => m' = m.setTask t { m.task t with vars := .initial }
  | .shmOpenRdwr _, _, m' | .fstat _, _, m' | .readBlock _, _, m' => m' = m

/-! ### What a process does -/

/-- Whether the process goes on. -/
inductive Fate where
  | running
  | dead
deriving DecidableEq

/-- A process exits, and cleans up. -/
def exitProcess (fakePid : Bool) : Obj Fate := do
  ftCleanupShared fakePid
  pure .dead

/-- A process initializes the library. -/
def initProcess (fakePid : Bool) : Obj Fate := do
  match ← ftShmInitOnce with
  | .returns => pure .running
  | .exits => exitProcess fakePid

/-- One call after which the process goes on. -/
def liveOn (o : ObjOp) : Obj Fate := do
  let _ ← objCall o
  pure .running

/-- **All processes.** One that is not alive may begin, on its own or as a copy; one that is alive
may initialize the library, turn into another program, or exit. -/
def tree (S : TreeSettings) (fails : ShmOp → Prop) : Machine objSys Pid Tree Fate where
  ops := Tree.Answers S fails
  start t m p :=
    ((m.task t).alive = false ∧ (p = liveOn .begun ∨ ∃ parent, p = liveOn (.forked parent))) ∨
      ((m.task t).alive = true ∧ (p = initProcess S.fakePid ∨ p = exitProcess S.fakePid ∨
        (p = liveOn .execve ∧ ((m.task t).made = true → S.makerExecs = true))))
  finish t a m m' := m' = m.setTask t { m.task t with alive := decide (a = .running) }

/-- **The objects belong to those who have made them**: while a process that has made its objects
is not busy with them, they are there exactly if it is alive. -/
def Owned (s : Pool objSys Pid Tree Fate) : Prop :=
  ∀ t, s.code t = none → (s.mem.task t).made = true →
    ∀ path ∈ bothObjects t, (s.mem.files path).isSome = (s.mem.task t).alive

/-! ### Names of their own -/

section Names

variable {p q : ℕ}

theorem digits_inj (h : Nat.toDigits 10 p = Nat.toDigits 10 q) : p = q := by
  rw [← digitsVal_toDigits p, h, digitsVal_toDigits]

theorem lockPath_ne_shmPath (p q : ℕ) : lockPath p ≠ shmPath (shmName q) := by
  have hshm : (shmPath (shmName q)).take 19 = "/dev/shm/faketime_s".toList := by
    unfold shmPath shmName
    rw [← List.append_assoc, List.take_append_of_le_length (by decide)]
    rfl
  have hlock : (lockPath p).take 19 = "/dev/shm/faketime_l".toList := by
    unfold lockPath
    rw [List.take_take, List.take_append_of_le_length (by decide)]
    rfl
  intro h
  rw [h, hshm] at hlock
  exact absurd hlock (by decide)

theorem shmPath_inj (h : shmPath (shmName p) = shmPath (shmName q)) : p = q := by
  unfold shmPath shmName at h
  exact digits_inj (List.append_cancel_left (List.append_cancel_left h))

/-- The digits of a process number are few enough not to be cut. -/
theorem lockPath_inj {t u : Pid} (h : lockPath t = lockPath u) : t = u := by
  have huncut : ∀ t : Pid,
      lockPath t = "/dev/shm/faketime_lock_".toList ++ Nat.toDigits 10 t := by
    intro t
    have hdigits : (Nat.toDigits 10 t).length ≤ 19 :=
      length_toDigits_le (t.isLt.trans (by decide))
    have hdir : "/dev/shm/faketime_lock_".toList.length = 23 := rfl
    exact List.take_of_length_le (by rw [List.length_append, hdir]; omega)
  rw [huncut, huncut] at h
  exact Fin.ext (digits_inj (List.append_cancel_left h))

theorem names_short (t : Pid) : (semName t).length < 256 ∧ (shmName t).length < 256 := by
  have hdigits : (Nat.toDigits 10 t).length ≤ 19 := length_toDigits_le (t.isLt.trans (by decide))
  have hsem := length_semName t
  have hshm := length_shmName t
  omega

end Names

/-! ### What a process has of its own -/

/-- A process with its own two objects, as far as it matters whose they are. -/
structure Own where
  lock : Bool
  block : Bool
  alive : Bool
  shared : Option CStr
  started : Bool
  shmCreator : Bool
  made : Bool

/-- What there is of a process in a tree. -/
def Tree.own (m : Tree) (t : Pid) : Own where
  lock := (m.files (lockPath t)).isSome
  block := (m.files (shmPath (shmName t))).isSome
  alive := (m.task t).alive
  shared := (m.task t).shared
  started := (m.task t).vars.started
  shmCreator := (m.task t).vars.shmCreator
  made := (m.task t).made

/-- A copy of the process can do no harm: a flag that is set comes with a pair of names. -/
def Own.Tidy (v : Own) : Prop :=
  v.shmCreator = true →
    v.started = true ∧ (v.shared = none ∨ ∃ maker : Pid, v.shared = some (sharedObjs maker))

/-- The calls about files that a process may make. -/
def Own.ShmMay (t : Pid) (v : Own) : ShmOp → Prop
  | .openExcl path | .unlink path => path = lockPath t
  | .shmOpen name | .shmUnlink name => name = shmName t
  | .ftruncate fd _ | .assign fd _ => ∀ path, fd = some path → path = shmPath (shmName t)
  | .setenvShared value => value = sharedObjs t
  | .setShmCreator b => b = true → v.started = true ∧ v.shared = some (sharedObjs t)
  | _ => True

/-- What they answer, and what they make of what the process has. -/
def Own.ShmAnswers (t : Pid) (v : Own) : (o : ShmOp) → o.Ans → Own → Prop
  | .realGetpid, r, v' => r = some t.val ∧ v' = v
  | .openExcl path, r, v' =>
    (r = none ∧ v' = v) ∨ (v.lock = false ∧ r = some path ∧ v' = { v with lock := true })
  | .shmOpen name, r, v' =>
    (r = none ∧ v' = v) ∨
      (v.block = false ∧ r = some (shmPath name) ∧ v' = { v with block := true })
  | .openRdwr path, r, v' => (path = lockPath t → r.isSome = v.lock) ∧ v' = v
  | .mmap fd, r, v' => (r = none ∨ r = fd) ∧ v' = v
  | .unlink _, _, v' => v' = { v with lock := false }
  | .shmUnlink _, _, v' => v' = { v with block := false }
  | .setenvShared value, r, v' => v' = if r = true then { v with shared := some value } else v
  | .setShmCreator b, _, v' =>
    v' = { v with shmCreator := b, made := v.made || (!v.shmCreator && b) }
  | _, _, v' => v' = v

/-- The calls that do what they are asked to do. -/
def ShmOp.Reliable : ShmOp → Prop
  | .realGetpid | .openRdwr _ | .unlink _ | .shmUnlink _ => True
  | _ => False

/-- The files a call changes. -/
def ShmOp.touches : ShmOp → Set CStr
  | .openExcl path | .unlink path => {path}
  | .shmOpen name | .shmUnlink name => {shmPath name}
  | .ftruncate fd _ | .assign fd _ => {path | fd = some path}
  | _ => ∅

section Files

variable {w : ShmWorld} {o : ShmOp} {path : CStr}

theorem create_kept {b : Bool} {path' : CStr} (h : path ≠ path') :
    (w.create b path').2.files path = w.files path := by
  unfold ShmWorld.create
  split
  · rfl
  · exact Function.update_of_ne h ..

theorem change_kept {fd : Fd} {f : ShmFile → ShmFile} (h : fd ≠ some path) :
    (w.change fd f).files path = w.files path := by
  unfold ShmWorld.change
  split
  next path' file hfile =>
    obtain ⟨path'', rfl, hfile⟩ := Option.bind_eq_some_iff.mp hfile
    obtain ⟨file', -, heq⟩ := Option.map_eq_some_iff.mp hfile
    cases heq
    exact Function.update_of_ne (fun heq => h (congrArg some heq.symm)) ..
  next => rfl

theorem remove_kept {b : Bool} {path' : CStr} (h : path ≠ path') :
    (w.remove b path').2.files path = w.files path := by
  unfold ShmWorld.remove
  split
  · rfl
  · exact Function.update_of_ne h ..

/-- A call leaves all other files alone. -/
theorem answer_kept (h : path ∉ o.touches) : (w.answer o).2.files path = w.files path := by
  cases o with
  | openExcl path' => exact create_kept h
  | shmOpen name => exact create_kept h
  | ftruncate fd length =>
    simp only [ShmWorld.answer]
    split
    · rfl
    · exact change_kept h
  | assign mapping f => exact change_kept h
  | unlink path' => exact remove_kept h
  | shmUnlink name => exact remove_kept h
  | setenvShared value =>
    simp only [ShmWorld.answer]
    split <;> rfl
  | _ => rfl

/-- The calls that leave the variables alone. -/
def ShmOp.KeepsVars : ShmOp → Prop
  | .setenvShared _ | .setShmCreator _ => False
  | _ => True

theorem answer_vars (ho : o.KeepsVars) : (w.answer o).2.faketimeShared = w.faketimeShared ∧
    (w.answer o).2.shmCreator = w.shmCreator := by
  have hcreate : ∀ b path, (w.create b path).2.faketimeShared = w.faketimeShared ∧
      (w.create b path).2.shmCreator = w.shmCreator := by
    intro b path
    unfold ShmWorld.create
    split <;> exact ⟨rfl, rfl⟩
  have hchange : ∀ fd f, (w.change fd f).faketimeShared = w.faketimeShared ∧
      (w.change fd f).shmCreator = w.shmCreator := by
    intro fd f
    unfold ShmWorld.change
    split <;> exact ⟨rfl, rfl⟩
  have hremove : ∀ b path, (w.remove b path).2.faketimeShared = w.faketimeShared ∧
      (w.remove b path).2.shmCreator = w.shmCreator := by
    intro b path
    unfold ShmWorld.remove
    split <;> exact ⟨rfl, rfl⟩
  cases o with
  | setenvShared value | setShmCreator b => exact ho.elim
  | openExcl path => exact hcreate ..
  | shmOpen name => exact hcreate ..
  | assign mapping f => exact hchange ..
  | unlink path => exact hremove ..
  | shmUnlink name => exact hremove ..
  | ftruncate fd length =>
    simp only [ShmWorld.answer]
    split
    · exact ⟨rfl, rfl⟩
    · exact hchange ..
  | _ => exact ⟨rfl, rfl⟩

/-- A file is made if there is none. -/
theorem create_cases (w : ShmWorld) (b : Bool) (path : CStr) :
    w.create b path = (none, w.next) ∨
      ((w.files path).isSome = false ∧ w.create b path = (some path, w.put path .empty)) := by
  unfold ShmWorld.create
  split
  next => exact Or.inl rfl
  next h =>
    rw [Bool.or_eq_true, not_or, Bool.not_eq_true, Bool.not_eq_true] at h
    exact Or.inr ⟨h.2, rfl⟩

theorem isSome_put (w : ShmWorld) (path : CStr) (file : ShmFile) :
    ((w.put path file).files path).isSome = true := by
  simp only [ShmWorld.put, Function.update_self, Option.isSome_some]

/-- A file that is removed is gone. -/
theorem isSome_remove (w : ShmWorld) (path : CStr) :
    ((w.remove false path).2.files path).isSome = false := by
  unfold ShmWorld.remove
  split
  next h =>
    rw [Bool.false_or, Option.isNone_iff_eq_none] at h
    rw [ShmWorld.next, h, Option.isSome_none]
  next => simp

/-- Changing a file does not remove it. -/
theorem isSome_change (fd : Fd) (f : ShmFile → ShmFile) (path : CStr) :
    ((w.change fd f).files path).isSome = (w.files path).isSome := by
  by_cases h : fd = some path
  · subst h
    unfold ShmWorld.change
    rw [Option.bind_some]
    cases hfile : w.files path with
    | none => rw [Option.map_none, ShmWorld.next, hfile]
    | some file => simp [ShmWorld.put]
  · rw [change_kept h]

end Files

/-! ### The calls of one process -/

section Calls

variable {S : TreeSettings} {fails : ShmOp → Prop} {t u : Pid} {m m' : Tree} {w : ShmWorld}

theorem own_seen (m : Tree) (t : Pid) (w : ShmWorld) : (m.seen t w).own t =
    { m.own t with
      lock := (w.files (lockPath t)).isSome
      block := (w.files (shmPath (shmName t))).isSome
      shared := w.faketimeShared
      shmCreator := w.shmCreator
      made := (m.own t).made || (!(m.own t).shmCreator && w.shmCreator) } := by
  simp only [Tree.own, Tree.seen, Function.update_self]

/-- Unless the flag is changed, nothing has been made. -/
theorem own_seen_of_flag (hflag : w.shmCreator = (m.own t).shmCreator) : (m.seen t w).own t =
    { m.own t with
      lock := (w.files (lockPath t)).isSome
      block := (w.files (shmPath (shmName t))).isSome
      shared := w.faketimeShared } := by
  rw [own_seen, hflag, Bool.not_and_self, Bool.or_false]

/-- A call that leaves the variables alone shows in the files only. -/
theorem own_seen_of_keepsVars {o : ShmOp} {b lock block : Bool} (ho : o.KeepsVars)
    (hlock : (((m.world t b).answer o).2.files (lockPath t)).isSome = lock)
    (hblock : (((m.world t b).answer o).2.files (shmPath (shmName t))).isSome = block) :
    (m.seen t ((m.world t b).answer o).2).own t =
      { m.own t with lock := lock, block := block } := by
  obtain ⟨hshared, hflag⟩ := answer_vars (w := m.world t b) ho
  rw [own_seen_of_flag hflag, hlock, hblock, hshared]
  rfl

/-- **What a process sees of its own calls about files.** -/
theorem shmAnswers_of_answers {o : ShmOp} {r : o.Ans} (hfails : ∀ o, o.Reliable → ¬ fails o)
    (ho : (m.own t).ShmMay t o) (h : m.Answers S fails t (.shm o) r m') :
    (m.own t).ShmAnswers t o r (m'.own t) := by
  obtain ⟨b, hb, rfl, rfl⟩ := h
  have hworks : o.Reliable → b = false := fun hr => by
    rw [← Bool.not_eq_true]
    exact fun h => hfails o hr (hb h)
  have hkept : ∀ path, path ∉ o.touches →
      (((m.world t b).answer o).2.files path).isSome = (m.files path).isSome :=
    fun path h => congrArg Option.isSome (answer_kept h)
  have hshm : shmPath (shmName t) ≠ lockPath t := (lockPath_ne_shmPath t t).symm
  -- what a process keeps an eye on is the two objects that bear its number
  cases o with
  | setShmCreator b' => exact own_seen ..
  | setenvShared value =>
    cases b with
    | true => exact own_seen_of_flag rfl
    | false => exact own_seen_of_flag rfl
  | realGetpid =>
    obtain rfl := hworks trivial
    exact ⟨rfl, own_seen_of_keepsVars trivial rfl rfl⟩
  | openExcl path =>
    obtain rfl : path = lockPath t := ho
    rcases create_cases (m.world t b) b (lockPath t) with hc | ⟨hfree, hc⟩
    · have hc' : (m.world t b).answer (.openExcl (lockPath t)) = (none, (m.world t b).next) := hc
      exact Or.inl ⟨congrArg Prod.fst hc', own_seen_of_keepsVars trivial (by rw [hc']; rfl)
        (by rw [hc']; rfl)⟩
    · have hc' : (m.world t b).answer (.openExcl (lockPath t)) = _ := hc
      exact Or.inr ⟨hfree, congrArg Prod.fst hc', own_seen_of_keepsVars trivial
        (by rw [hc']; exact isSome_put ..) (hkept _ hshm)⟩
  | shmOpen name =>
    obtain rfl : name = shmName t := ho
    rcases create_cases (m.world t b) b (shmPath (shmName t)) with hc | ⟨hfree, hc⟩
    · have hc' : (m.world t b).answer (.shmOpen (shmName t)) = (none, (m.world t b).next) := hc
      exact Or.inl ⟨congrArg Prod.fst hc', own_seen_of_keepsVars trivial (by rw [hc']; rfl)
        (by rw [hc']; rfl)⟩
    · have hc' : (m.world t b).answer (.shmOpen (shmName t)) = _ := hc
      exact Or.inr ⟨hfree, congrArg Prod.fst hc', own_seen_of_keepsVars trivial
        (hkept _ hshm.symm) (by rw [hc']; exact isSome_put ..)⟩
  | openRdwr path =>
    obtain rfl := hworks trivial
    refine ⟨?_, own_seen_of_keepsVars trivial rfl rfl⟩
    rintro rfl
    change (if (false || ((m.files (lockPath t)).isNone)) = true then none else some _).isSome = _
    cases hfile : m.files (lockPath t) with
    | none => simp [Tree.own, hfile]
    | some file => simp [Tree.own, hfile]
  | mmap fd =>
    refine ⟨?_, own_seen_of_keepsVars trivial rfl rfl⟩
    cases b with
    | true => exact Or.inl rfl
    | false => exact Or.inr rfl
  | ftruncate fd length =>
    -- a file that changes its length is still there
    have hsame : ∀ path, (((m.world t b).answer (.ftruncate fd length)).2.files path).isSome =
        (m.files path).isSome := by
      intro path
      simp only [ShmWorld.answer]
      split
      · rfl
      · exact isSome_change ..
    exact own_seen_of_keepsVars trivial (hsame _) (hsame _)
  | assign mapping f =>
    exact own_seen_of_keepsVars trivial (isSome_change ..) (isSome_change ..)
  | unlink path =>
    obtain rfl : path = lockPath t := ho
    obtain rfl := hworks trivial
    exact own_seen_of_keepsVars trivial (isSome_remove ..) (hkept _ hshm)
  | shmUnlink name =>
    obtain rfl : name = shmName t := ho
    obtain rfl := hworks trivial
    exact own_seen_of_keepsVars trivial (hkept _ hshm.symm) (isSome_remove ..)
  | _ => exact own_seen_of_keepsVars trivial rfl rfl

/-- **A process touches nobody else's objects.** -/
theorem own_seen_of_ne {o : ShmOp} {b : Bool} (ho : (m.own t).ShmMay t o) (hu : u ≠ t) :
    (m.seen t ((m.world t b).answer o).2).own u = m.own u := by
  have htouch : ∀ path ∈ o.touches, path = lockPath t ∨ path = shmPath (shmName t) := by
    intro path hpath
    cases o with
    | openExcl path' | unlink path' => exact Or.inl (hpath.trans ho)
    | shmOpen name | shmUnlink name => exact Or.inr (hpath.trans (congrArg shmPath ho))
    | ftruncate fd length => exact Or.inr (ho path hpath)
    | assign mapping f => exact Or.inr (ho path hpath)
    | _ => exact hpath.elim
  have hlock : lockPath u ∉ o.touches := by
    intro h
    rcases htouch _ h with h | h
    · exact hu (lockPath_inj h)
    · exact lockPath_ne_shmPath _ _ h
  have hblock : shmPath (shmName u) ∉ o.touches := by
    intro h
    rcases htouch _ h with h | h
    · exact lockPath_ne_shmPath _ _ h.symm
    · exact hu (Fin.ext (shmPath_inj h))
  simp only [Tree.own, Tree.seen, answer_kept hlock, answer_kept hblock, Function.update_of_ne hu]
  rfl

/-- The calls a process may make. -/
def Own.May (t : Pid) (v : Own) : ObjOp → Prop
  | .shm o => v.ShmMay t o
  | .storeVars f => ∀ vars : ObjVars, vars.started = v.started → vars.shmCreator = v.shmCreator →
      Own.Tidy { v with started := (f vars).started, shmCreator := (f vars).shmCreator }
  | _ => True

/-- What they answer, and what they make of what the process has. -/
def Own.Answers (S : TreeSettings) (t : Pid) (v : Own) : (o : ObjOp) → o.Ans → Own → Prop
  | .shm o, r, v' => v.ShmAnswers t o r v'
  | .getenvShared, r, v' => r = v.shared ∧ v' = v
  | .unsetenvShared, _, v' => v' = { v with shared := none }
  | .getenvFlshm, r, v' => r = S.flshm ∧ v' = v
  | .getenvFakepid, r, v' => r = S.fakepid ∧ v' = v
  | .loadVars, r, v' => r.started = v.started ∧ r.shmCreator = v.shmCreator ∧ v' = v
  | .storeVars f, _, v' => ∃ vars : ObjVars, vars.started = v.started ∧
      vars.shmCreator = v.shmCreator ∧
      v' = { v with started := (f vars).started, shmCreator := (f vars).shmCreator }
  | .forked _, _, v' => ∃ p : Own, p.Tidy ∧
      v' = { p with lock := v.lock, block := v.block, made := false }
  | .begun, _, v' => v' = ⟨v.lock, v.block, true, none, false, false, false⟩
  | .execve, _, v' => v' = { v with started := false, shmCreator := false }
  | _, _, v' => v' = v

theorem Own.Tidy.shmAnswers {v v' : Own} {o : ShmOp} {r : o.Ans} (hv : v.Tidy) (ho : v.ShmMay t o)
    (h : v.ShmAnswers t o r v') : v'.Tidy := by
  cases o with
  | openExcl path | shmOpen name =>
    obtain ⟨-, rfl⟩ | ⟨-, -, rfl⟩ := h
    · exact hv
    · exact hv
  | realGetpid | openRdwr path | mmap fd =>
    obtain ⟨-, rfl⟩ := h
    exact hv
  | unlink path | shmUnlink name =>
    obtain rfl : v' = _ := h
    exact hv
  | setenvShared value =>
    obtain rfl : v' = _ := h
    split
    · exact fun hflag => ⟨(hv hflag).1, Or.inr ⟨t, congrArg some ho⟩⟩
    · exact hv
  | setShmCreator b =>
    obtain rfl : v' = _ := h
    exact fun hflag => ⟨(ho hflag).1, Or.inr ⟨t, (ho hflag).2⟩⟩
  | _ =>
    obtain rfl : v' = v := h
    exact hv

/-- No process could do harm if it were copied. -/
def Tree.Tidy (m : Tree) : Prop := ∀ t, (m.own t).Tidy

theorem own_setTask (m : Tree) (t : Pid) (v : Task) : (m.setTask t v).own t =
    { m.own t with
      alive := v.alive
      shared := v.shared
      started := v.vars.started
      shmCreator := v.vars.shmCreator
      made := v.made } := by
  simp only [Tree.own, files_setTask, task_setTask]

theorem own_setTask_of_ne (m : Tree) (v : Task) (hu : u ≠ t) :
    (m.setTask t v).own u = m.own u := by
  simp only [Tree.own, files_setTask, task_setTask_of_ne m v hu]

theorem answers_of_answers {o : ObjOp} {r : o.Ans} (hfails : ∀ o, o.Reliable → ¬ fails o)
    (hm : m.Tidy) (ho : (m.own t).May t o) (h : m.Answers S fails t o r m') :
    (m.own t).Answers S t o r (m'.own t) ∧ (m'.own t).Tidy ∧
      ∀ u, u ≠ t → m'.own u = m.own u := by
  cases o with
  | shm o =>
    have hown := shmAnswers_of_answers hfails ho h
    refine ⟨hown, (hm t).shmAnswers ho hown, fun u hu => ?_⟩
    obtain ⟨b, -, -, rfl⟩ := h
    exact own_seen_of_ne ho hu
  | getenvShared | getenvFlshm | getenvFakepid =>
    obtain ⟨rfl, rfl⟩ := h
    exact ⟨⟨rfl, rfl⟩, hm t, fun _ _ => rfl⟩
  | loadVars =>
    obtain ⟨rfl, rfl⟩ := h
    exact ⟨⟨rfl, rfl, rfl⟩, hm t, fun _ _ => rfl⟩
  | unsetenvShared =>
    obtain rfl : m' = _ := h
    refine ⟨own_setTask .., ?_, fun u hu => own_setTask_of_ne _ _ hu⟩
    rw [own_setTask]
    exact fun hflag => ⟨(hm t hflag).1, Or.inl rfl⟩
  | storeVars f =>
    obtain rfl : m' = _ := h
    refine ⟨⟨(m.task t).vars, rfl, rfl, own_setTask ..⟩, ?_, fun u hu => own_setTask_of_ne _ _ hu⟩
    rw [own_setTask]
    exact ho _ rfl rfl
  | forked parent =>
    obtain ⟨-, rfl⟩ := h
    refine ⟨⟨m.own parent, hm parent, own_setTask ..⟩, ?_, fun u hu => own_setTask_of_ne _ _ hu⟩
    rw [own_setTask]
    exact hm parent
  | begun =>
    obtain rfl : m' = _ := h
    refine ⟨own_setTask .., ?_, fun u hu => own_setTask_of_ne _ _ hu⟩
    rw [own_setTask]
    exact fun h => nomatch h
  | execve =>
    obtain rfl : m' = _ := h
    refine ⟨own_setTask .., ?_, fun u hu => own_setTask_of_ne _ _ hu⟩
    rw [own_setTask]
    exact fun h => nomatch h
  | _ =>
    obtain rfl : m' = m := h
    exact ⟨rfl, hm t, fun _ _ => rfl⟩

end Calls

/-! ### Making the objects -/

section Making

variable {t : Pid} {v : Own} {β : Type} {Q : β → Own → Prop}

/-- The calls after which the process has what it had. -/
def ShmOp.Still : ShmOp → Prop
  | .openRdwr _ | .ftruncate _ _ | .mmap _ | .munmap _ | .assign _ _ | .close _ | .flockEx _
  | .flockUn _ | .perror _ => True
  | _ => False

theorem Own.ShmAnswers.still {o : ShmOp} {r : o.Ans} {v' : Own} (ho : o.Still)
    (h : v.ShmAnswers t o r v') : v' = v := by
  cases o with
  | openRdwr path | mmap fd => exact h.2
  | realGetpid | openExcl path | shmOpen name | unlink path | shmUnlink name => exact ho.elim
  | setenvShared value | setShmCreator b => exact ho.elim
  | _ => exact h

theorem wp_still {o : ShmOp} {f : o.Ans → Shm β} (ho : o.Still) (hmay : v.ShmMay t o)
    (h : ∀ r, (f r).Wp (Own.ShmMay t) (Own.ShmAnswers t) Q v) :
    (shmCall o >>= f).Wp (Own.ShmMay t) (Own.ShmAnswers t) Q v := by
  refine ⟨hmay, fun r v' hv' => ?_⟩
  obtain rfl := hv'.still ho
  exact h r

/-- A call that is made or not. -/
theorem wp_still_if {c : Bool} {o : ShmOp} {p : Shm β} (ho : o.Still) (hmay : v.ShmMay t o)
    (hp : p.Wp (Own.ShmMay t) (Own.ShmAnswers t) Q v) :
    (if c = true then (shmCall o >>= fun _ => p) else p).Wp (Own.ShmMay t) (Own.ShmAnswers t) Q
      v := by
  split
  · exact wp_still ho hmay fun _ => hp
  · exact hp

theorem wp_ftSemClose {sem : FtSem} {f : Bool × FtSem → Shm β}
    (h : ∀ b, (f (b, { sem with fd := none })).Wp (Own.ShmMay t) (Own.ShmAnswers t) Q v) :
    (ftSemClose sem >>= f).Wp (Own.ShmMay t) (Own.ShmAnswers t) Q v :=
  wp_still trivial trivial h

/-- The two calls at the end of each clean-up. -/
theorem wp_unlink_both {sem : FtSem} (hname : sem.name = semName t) {b : β}
    (hQ : Q b { v with lock := false, block := false }) :
    (do
      let _ ← ftSemUnlink sem
      let _ ← shmCall (.shmUnlink (shmName t))
      pure b : Shm β).Wp (Own.ShmMay t) (Own.ShmAnswers t) Q v := by
  have hpath : ftSemNameToPath sem.name = some (lockPath t) := by
    rw [hname, ftSemNameToPath_semName]
  rw [ftSemUnlink, hpath]
  refine ⟨rfl, ?_⟩
  rintro _ _ rfl
  refine ⟨rfl, ?_⟩
  rintro _ _ rfl
  exact hQ

/-- Wherever the making fails, the process has neither object in the end. -/
theorem wp_ftShmFatal {sem : FtSem} (hname : sem.name = semName t) {msg : String}
    {shmFd mapping : Fd} {locked : Bool} {Q : ShmEnd → Own → Prop}
    (hQ : Q .exits { v with lock := false, block := false }) :
    (ftShmFatal msg sem shmFd mapping (shmName t) locked).Wp (Own.ShmMay t) (Own.ShmAnswers t)
      Q v := by
  refine wp_still trivial trivial fun _ => ?_
  have hclean : (ftShmCleanupCreated sem shmFd mapping (shmName t) locked).Wp (Own.ShmMay t)
      (Own.ShmAnswers t) (fun _ v' => v' = { v with lock := false, block := false }) v := by
    unfold ftShmCleanupCreated
    dsimp only
    refine wp_still_if (o := .flockUn sem.fd) trivial trivial ?_
    refine wp_still_if (o := .munmap mapping) trivial trivial ?_
    refine wp_still_if (o := .close shmFd) trivial trivial ?_
    exact wp_ftSemClose fun _ => wp_unlink_both hname rfl
  refine hclean.bind ?_
  rintro _ _ rfl
  exact hQ

/-- A process that has not made its objects. -/
def Own.before (alive : Bool) (shared : Option CStr) : Own :=
  ⟨false, false, alive, shared, true, false, false⟩

/-- A process that has made them. -/
def Own.after (t : Pid) (alive : Bool) : Own :=
  ⟨true, true, alive, some (sharedObjs t), true, true, true⟩

/-- How the making of the objects ends. -/
def CreateEnd (t : Pid) (alive : Bool) (shared : Option CStr) (e : ShmEnd) (v : Own) : Prop :=
  v = .before alive shared ∨ (e = .returns ∧ v = .after t alive)

variable {alive : Bool} {shared : Option CStr}

theorem wp_ftShmPublish {sem : FtSem} (hname : sem.name = semName t) :
    (ftShmPublish sem (semName t) (shmName t)).Wp (Own.ShmMay t) (Own.ShmAnswers t)
      (CreateEnd t alive shared) ⟨true, true, alive, shared, true, false, false⟩ := by
  unfold ftShmPublish
  dsimp only
  split
  next => exact wp_unlink_both hname (Or.inl rfl)
  refine wp_ftSemClose fun closed => ?_
  dsimp only
  split
  next => exact wp_unlink_both hname (Or.inl rfl)
  have hopen : (ftSemOpen (sscanfWord (semName t ++ ' ' :: shmName t))).Wp (Own.ShmMay t)
      (Own.ShmAnswers t) (fun _ v' => v' = ⟨true, true, alive, shared, true, false, false⟩)
      ⟨true, true, alive, shared, true, false, false⟩ := by
    unfold ftSemOpen
    split
    · rfl
    · refine wp_still trivial trivial fun fd => ?_
      cases fd <;> rfl
  refine hopen.bind ?_
  rintro (_ | sem') _ rfl
  · exact wp_still trivial trivial fun _ => wp_unlink_both hname (Or.inl rfl)
  · refine wp_ftSemClose fun _ => ?_
    refine ⟨rfl, fun set v' hv' => ?_⟩
    obtain rfl : v' = _ := hv'
    cases set with
    | true =>
      refine ⟨fun _ => ⟨rfl, rfl⟩, ?_⟩
      rintro - _ rfl
      exact Or.inr ⟨rfl, rfl⟩
    | false => exact wp_still trivial trivial fun _ => wp_unlink_both hname (Or.inl rfl)

theorem wp_ftShmFill {sem : FtSem} (hname : sem.name = semName t) :
    (ftShmFill sem (some (shmPath (shmName t))) (semName t) (shmName t)).Wp (Own.ShmMay t)
      (Own.ShmAnswers t) (CreateEnd t alive shared)
      ⟨true, true, alive, shared, true, false, false⟩ := by
  have hown : ∀ path, (some (shmPath (shmName t)) : Fd) = some path →
      path = shmPath (shmName t) := fun _ h => (Option.some.inj h).symm
  refine wp_still trivial hown fun sized => ?_
  split
  next => exact wp_ftShmFatal hname (Or.inl rfl)
  refine ⟨trivial, ?_⟩
  rintro mapping _ ⟨hmapping, rfl⟩
  cases mapping with
  | none => exact wp_ftShmFatal hname (Or.inl rfl)
  | some mapping =>
    obtain rfl : mapping = shmPath (shmName t) := by
      rcases hmapping with h | h
      · cases h
      · exact Option.some.inj h
    refine wp_still trivial trivial fun closed => ?_
    split
    next => exact wp_ftShmFatal hname (Or.inl rfl)
    refine wp_still trivial trivial fun locked => ?_
    split
    next => exact wp_ftShmFatal hname (Or.inl rfl)
    refine wp_still trivial hown fun _ => wp_still trivial trivial fun unlocked => ?_
    split
    next => exact wp_ftShmFatal hname (Or.inl rfl)
    refine wp_still trivial trivial fun unmapped => ?_
    split
    next => exact wp_ftShmFatal hname (Or.inl rfl)
    exact wp_ftShmPublish hname

theorem wp_ftSemCreate (hname : (semName t).take 255 = semName t) :
    (ftSemCreate (semName t)).Wp (Own.ShmMay t) (Own.ShmAnswers t)
      (fun r v => (r = none ∧ v = .before alive shared) ∨
        ∃ sem, r = some sem ∧ sem.name = semName t ∧
          v = ⟨true, false, alive, shared, true, false, false⟩) (.before alive shared) := by
  rw [ftSemCreate, ftSemNameToPath_semName]
  refine ⟨rfl, ?_⟩
  rintro r v' (⟨rfl, rfl⟩ | ⟨-, rfl, rfl⟩)
  · exact Or.inl ⟨rfl, rfl⟩
  · exact Or.inr ⟨_, rfl, hname, rfl⟩

/-- **A process makes both of its objects or none**, whatever the others do meanwhile. -/
theorem wp_ftShmCreate : ftShmCreate.Wp (Own.ShmMay t) (Own.ShmAnswers t)
    (CreateEnd t alive shared) (.before alive shared) := by
  refine ⟨trivial, ?_⟩
  rintro _ _ ⟨rfl, rfl⟩
  dsimp only [Prog.bind]
  split
  next => exact Or.inl rfl
  split
  next => exact Or.inl rfl
  next hsem _ =>
    refine (wp_ftSemCreate (List.take_of_length_le (by omega))).bind ?_
    rintro _ _ (⟨rfl, rfl⟩ | ⟨sem, rfl, hname, rfl⟩)
    · exact Or.inl rfl
    · refine ⟨rfl, ?_⟩
      rintro fd _ (⟨rfl, rfl⟩ | ⟨-, rfl, rfl⟩)
      · refine wp_ftSemClose fun _ => ?_
        rw [ftSemUnlink, hname, ftSemNameToPath_semName]
        refine ⟨rfl, ?_⟩
        rintro _ _ rfl
        exact Or.inl rfl
      · exact wp_ftShmFill hname

end Making

/-! ### Reading the names -/

section Texts

variable {value semN shmN : CStr}

/-- The words that are accepted are the words that are read again. -/
theorem sscanfWords_of_parse (h : parseSharedObjects value = some (semN, shmN)) :
    sscanfWords [255, 255] value = [semN, shmN] := by
  rw [parseSharedObjects] at h
  split at h
  next a b hwords =>
    split at h
    next =>
      cases h
      unfold sscanfWords at hwords ⊢
      cases hfirst : scanWord 255 value with
      | none =>
        rw [hfirst] at hwords
        cases hwords
      | some first =>
        rw [hfirst] at hwords
        dsimp only at hwords ⊢
        unfold sscanfWords at hwords ⊢
        cases hsecond : scanWord 255 (first.2.dropWhile isspace) with
        | none =>
          rw [hsecond] at hwords
          cases hwords
        | some second =>
          rw [hsecond] at hwords
          dsimp only at hwords ⊢
          unfold sscanfWords at hwords ⊢
          cases hthird : scanWord 1 (second.2.dropWhile isspace) with
          | none =>
            rw [hthird] at hwords
            exact hwords
          | some third =>
            rw [hthird] at hwords
            cases hwords
    next => cases h
  next => cases h

theorem parse_sharedObjs (t : Pid) :
    parseSharedObjects (sharedObjs t) = some (semName t, shmName t) :=
  parseSharedObjects_sharedObjs (names_short t).1 (names_short t).2

theorem sharedObjs_inj {t u : Pid} (h : sharedObjs t = sharedObjs u) : t = u := by
  have hsem := congrArg parseSharedObjects h
  rw [parse_sharedObjs, parse_sharedObjs] at hsem
  have hname : semName t = semName u := congrArg Prod.fst (Option.some.inj hsem)
  exact Fin.ext (digits_inj (List.append_cancel_left hname))

theorem strtol_toDigits (n : ℕ) : strtol (Nat.toDigits 10 n) = some ((n : ℤ), []) := by
  obtain ⟨htake, hdrop⟩ := takeWhile_toDigits n [] (by simp)
  have hval := digitsVal_toDigits n
  have hmem : ∀ c ∈ Nat.toDigits 10 n, isDigit 10 c = true := fun c hc =>
    (isDigit_of_mem_toDigits hc).1
  rw [List.append_nil] at htake hdrop
  cases hs : Nat.toDigits 10 n with
  | nil => exact absurd hs Nat.toDigits_ne_nil
  | cons c s =>
    rw [hs] at htake hdrop hval hmem
    have hc := hmem c (List.mem_cons_self ..)
    have hspace : (c :: s).dropWhile isspace = c :: s :=
      List.dropWhile_cons_of_neg (by rw [isspace_of_isDigit hc]; simp)
    have hminus : c ≠ '-' := ne_of_isDigit hc (by decide)
    have hplus : c ≠ '+' := ne_of_isDigit hc (by decide)
    rw [strtol, hspace]
    dsimp only
    split
    next heq => exact absurd (List.cons.inj heq).1 hminus
    next heq => exact absurd (List.cons.inj heq).1 hplus
    next => simp [htake, hdrop, hval]

/-- The number in the name of a lock is the one it has been made from. -/
theorem semOwnerPid_semName (t : Pid) : semOwnerPid (semName t) = some (t : ℤ) := by
  have hlt : (t : ℕ) < 2 ^ 31 := t.isLt
  have hpre : semPrefix.isPrefixOf (semName t) = true := by
    rw [List.isPrefixOf_iff_prefix]
    exact List.prefix_append ..
  have hdrop : (semName t).drop semPrefix.length = Nat.toDigits 10 t := List.drop_left ..
  rw [semOwnerPid, hpre, if_pos rfl, hdrop, strtol_toDigits, Option.map_some]
  have hmin : min ((t : ℕ) : ℤ) (2 ^ 63 - 1) = (t : ℕ) := by omega
  have hmod : (((t : ℕ) : ℤ)).bmod (2 ^ 32) = (t : ℕ) := by
    rw [Int.bmod_eq_of_le] <;> omega
  dsimp only
  rw [hmin, hmod]

end Texts

/-! ### Initializing -/

section Initializing

variable {S : TreeSettings} {t : Pid} {v : Own} {β : Type} {Q : β → Own → Prop} {alive : Bool}
  {shared : Option CStr}

theorem wp_liftShm {p : Shm β} (hp : p.Wp (Own.ShmMay t) (Own.ShmAnswers t) Q v) :
    (liftShm p).Wp (Own.May t) (Own.Answers S t) Q v :=
  hp.via (fun _ _ h => h) fun _ _ _ _ h => h

/-- The calls after which the process has what it had. -/
def ObjOp.Still : ObjOp → Prop
  | .shm o => o.Still
  | .shmOpenRdwr _ | .fstat _ | .readBlock _ => True
  | _ => False

theorem wp_objStill {o : ObjOp} {f : o.Ans → Obj β} (ho : o.Still) (hmay : v.May t o)
    (h : ∀ r, (f r).Wp (Own.May t) (Own.Answers S t) Q v) :
    (objCall o >>= f).Wp (Own.May t) (Own.Answers S t) Q v := by
  refine ⟨hmay, fun r v' hv' => ?_⟩
  have hsame : v' = v := by
    cases o with
    | shm o => exact Own.ShmAnswers.still ho hv'
    | shmOpenRdwr name | fstat fd | readBlock mapping => exact hv'
    | _ => exact ho.elim
  rw [hsame]
  exact h r

theorem wp_loadVars {f : ObjVars → Obj β} (h : ∀ vars : ObjVars, vars.started = v.started →
    vars.shmCreator = v.shmCreator → (f vars).Wp (Own.May t) (Own.Answers S t) Q v) :
    (objCall .loadVars >>= f).Wp (Own.May t) (Own.Answers S t) Q v := by
  refine ⟨trivial, ?_⟩
  rintro vars _ ⟨hstarted, hflag, rfl⟩
  exact h vars hstarted hflag

/-- Variables are assigned that do not matter. -/
theorem wp_storeVars {g : ObjVars → ObjVars} {f : Unit → Obj β} (hv : v.Tidy)
    (hg : ∀ vars, (g vars).started = vars.started ∧ (g vars).shmCreator = vars.shmCreator)
    (h : (f ()).Wp (Own.May t) (Own.Answers S t) Q v) :
    (objCall (.storeVars g) >>= f).Wp (Own.May t) (Own.Answers S t) Q v := by
  have hsame : ∀ vars : ObjVars, vars.started = v.started → vars.shmCreator = v.shmCreator →
      { v with started := (g vars).started, shmCreator := (g vars).shmCreator } = v := by
    intro vars hstarted hflag
    rw [(hg vars).1, (hg vars).2, hstarted, hflag]
  refine ⟨fun vars hstarted hflag => (hsame vars hstarted hflag).symm ▸ hv, ?_⟩
  rintro - _ ⟨vars, hstarted, hflag, rfl⟩
  rw [hsame vars hstarted hflag]
  exact h

theorem wp_liftClose {sem : FtSem} {f : Bool × FtSem → Obj β}
    (h : ∀ r, (f r).Wp (Own.May t) (Own.Answers S t) Q v) :
    (liftShm (ftSemClose sem) >>= f).Wp (Own.May t) (Own.Answers S t) Q v :=
  wp_objStill (o := .shm (.close sem.fd)) trivial trivial fun _ => h _

theorem wp_detachSem (hv : v.Tidy) (vars : ObjVars) :
    (detachSem vars).Wp (Own.May t) (Own.Answers S t) (fun _ v' => v' = v) v := by
  unfold detachSem
  split
  · exact wp_liftClose fun _ => wp_storeVars hv (fun _ => ⟨rfl, rfl⟩) rfl
  · rfl

theorem wp_detachShared (hv : v.Tidy) (vars : ObjVars) :
    (detachShared vars).Wp (Own.May t) (Own.Answers S t) (fun _ v' => v' = v) v := by
  unfold detachShared
  split
  · exact wp_objStill trivial trivial fun _ => wp_storeVars hv (fun _ => ⟨rfl, rfl⟩) rfl
  · rfl

theorem wp_ftShmCleanupAttached (hv : v.Tidy) (shmFd : Fd) :
    (ftShmCleanupAttached shmFd).Wp (Own.May t) (Own.Answers S t) (fun _ v' => v' = v) v := by
  have hclose : ∀ vars : ObjVars, (if shmFd.isSome = true then do
      let _ ← objCall (.shm (.close shmFd))
      detachSem vars
      else detachSem vars : Obj Unit).Wp (Own.May t) (Own.Answers S t) (fun _ v' => v' = v) v := by
    intro vars
    split
    · exact wp_objStill (o := .shm (.close shmFd)) trivial trivial fun _ => wp_detachSem hv vars
    · exact wp_detachSem hv vars
  refine wp_loadVars fun vars _ _ => ?_
  dsimp only
  split
  · exact wp_objStill trivial trivial fun _ => wp_storeVars hv (fun _ => ⟨rfl, rfl⟩) (hclose vars)
  · exact wp_storeVars hv (fun _ => ⟨rfl, rfl⟩) (hclose vars)

/-- A failure to attach leaves the objects alone. -/
theorem wp_ftShmGiveUp (hv : v.Tidy) (msg : String) (shmFd : Fd) :
    (ftShmGiveUp msg shmFd).Wp (Own.May t) (Own.Answers S t) (fun _ v' => v' = v) v := by
  refine wp_objStill (o := .shm (.perror msg)) trivial trivial fun _ => ?_
  exact (wp_ftShmCleanupAttached hv shmFd).bind fun _ _ h => h

theorem wp_ftShmAttach (hv : v.Tidy) (shmName : CStr) :
    (ftShmAttach shmName).Wp (Own.May t) (Own.Answers S t) (fun _ v' => v' = v) v := by
  refine wp_objStill trivial trivial fun fd => ?_
  cases fd with
  | none => exact wp_ftShmGiveUp hv _ _
  | some fd =>
    refine wp_objStill trivial trivial fun size => ?_
    cases size with
    | none => exact wp_ftShmGiveUp hv _ _
    | some size =>
      dsimp only
      split
      next => exact wp_ftShmGiveUp hv _ _
      refine wp_objStill (o := .shm (.mmap (some fd))) trivial trivial fun ftShared => ?_
      refine wp_storeVars hv (fun _ => ⟨rfl, rfl⟩) ?_
      split
      next => exact wp_ftShmGiveUp hv _ _
      refine wp_objStill trivial trivial fun block => ?_
      split
      next => exact wp_ftShmGiveUp hv _ _
      refine wp_objStill (o := .shm (.close (some fd))) trivial trivial fun closed => ?_
      split
      next => exact wp_ftShmGiveUp hv _ _
      rfl

theorem tidy_before : (Own.before alive shared).Tidy := fun h => nomatch h

theorem tidy_after : (Own.after t alive).Tidy := fun _ => ⟨rfl, Or.inr ⟨t, rfl⟩⟩

/-- What a process knows of the objects on its way: the variable is as it was found, or it names the
objects the process has made. -/
def Knows (t : Pid) (alive : Bool) (shared env : Option CStr) (v : Own) : Prop :=
  (v = .before alive shared ∧ env = shared) ∨ (v = .after t alive ∧ env = some (sharedObjs t))

/-- It has made its objects, or not. -/
def Fit (t : Pid) (alive : Bool) (v : Own) : Prop :=
  v = .after t alive ∨ ∃ shared, v = .before alive shared

theorem Knows.fit {env : Option CStr} (h : Knows t alive shared env v) : Fit t alive v := by
  rcases h with ⟨rfl, -⟩ | ⟨rfl, -⟩
  · exact Or.inr ⟨shared, rfl⟩
  · exact Or.inl rfl

theorem Fit.tidy (h : Fit t alive v) : v.Tidy := by
  rcases h with rfl | ⟨shared, rfl⟩
  · exact tidy_after
  · exact tidy_before

/-- How a stage of the initialization ends, where it may end the process. -/
def StageEnd (t : Pid) (alive : Bool) (shared : Option CStr) (r : Option (Option CStr)) (v : Own) :
    Prop :=
  match r with
  | none => Fit t alive v
  | some env => Knows t alive shared env v

theorem wp_recreate (alive : Bool) (shared : Option CStr) :
    recreate.Wp (Own.May t) (Own.Answers S t) (StageEnd t alive shared) (.before alive shared) := by
  refine (wp_liftShm wp_ftShmCreate).bind ?_
  rintro e _ (rfl | ⟨rfl, rfl⟩)
  · cases e with
    | exits => exact Or.inr ⟨shared, rfl⟩
    | returns =>
      refine ⟨trivial, ?_⟩
      rintro _ _ ⟨rfl, rfl⟩
      exact Or.inl ⟨rfl, rfl⟩
  · refine ⟨trivial, ?_⟩
    rintro _ _ ⟨rfl, rfl⟩
    exact Or.inr ⟨rfl, rfl⟩

/-- A lock is opened. One that the process has made is there. -/
theorem wp_liftOpen {name : CStr} {f : Option FtSem → Obj β}
    (hnone : (name = semName t → v.lock = false) →
      (f none).Wp (Own.May t) (Own.Answers S t) Q v)
    (hsome : ∀ sem : FtSem, sem.name = name.take 255 →
      (f (some sem)).Wp (Own.May t) (Own.Answers S t) Q v) :
    (liftShm (ftSemOpen name) >>= f).Wp (Own.May t) (Own.Answers S t) Q v := by
  have hopen : (ftSemOpen name).Wp (Own.ShmMay t) (Own.ShmAnswers t)
      (fun r v' => v' = v ∧ ((r = none ∧ (name = semName t → v.lock = false)) ∨
        ∃ sem, r = some sem ∧ sem.name = name.take 255)) v := by
    unfold ftSemOpen
    split
    next hpath =>
      refine ⟨rfl, Or.inl ⟨rfl, ?_⟩⟩
      rintro rfl
      rw [ftSemNameToPath_semName] at hpath
      cases hpath
    next path hpath =>
      refine ⟨trivial, ?_⟩
      rintro r _ ⟨hr, rfl⟩
      cases r with
      | none =>
        refine ⟨rfl, Or.inl ⟨rfl, ?_⟩⟩
        rintro rfl
        rw [ftSemNameToPath_semName] at hpath
        exact (hr (Option.some.inj hpath).symm).symm
      | some fd => exact ⟨rfl, Or.inr ⟨_, rfl, rfl⟩⟩
  refine (wp_liftShm hopen).bind ?_
  rintro _ _ ⟨rfl, ⟨rfl, hlock⟩ | ⟨sem, rfl, hname⟩⟩
  · exact hnone hlock
  · exact hsome sem hname

theorem wp_checkStale {env : Option CStr} (h : Knows t alive shared env v) :
    (checkStale env).Wp (Own.May t) (Own.Answers S t) (StageEnd t alive shared) v := by
  unfold checkStale
  split
  next => exact h
  next value =>
    split
    next => exact h.fit
    next semN shmN hparse =>
      refine wp_liftOpen (fun hlock => ?_) fun sem _ => wp_liftClose fun _ => h
      rcases h with ⟨rfl, -⟩ | ⟨rfl, henv⟩
      · exact wp_recreate ..
      · -- the objects of the process itself are not stale
        cases henv
        rw [parse_sharedObjs] at hparse
        cases hparse
        cases hlock rfl

theorem wp_attachOrElse {again : Obj ShmEnd} {env : Option CStr}
    (h : Knows t alive shared env v) (hagain : again.Wp (Own.May t) (Own.Answers S t)
      (fun _ v' => Fit t alive v') (.before alive shared)) :
    (attachOrElse again env).Wp (Own.May t) (Own.Answers S t) (fun _ v' => Fit t alive v') v := by
  unfold attachOrElse
  split
  next => exact h.fit
  next value =>
    split
    next semN shmN hwords =>
      refine wp_liftOpen (fun hlock => ?_) fun sem _ => ?_
      · rcases h with ⟨rfl, -⟩ | ⟨rfl, henv⟩
        · refine wp_loadVars fun vars _ hflag => ?_
          rw [hflag]
          exact hagain
        · cases henv
          rw [sscanfWords_of_parse (parse_sharedObjs t)] at hwords
          cases hwords
          cases hlock rfl
      · refine wp_storeVars h.fit.tidy (fun _ => ⟨rfl, rfl⟩) ?_
        refine (wp_ftShmAttach h.fit.tidy shmN).mono ?_
        rintro _ _ rfl
        exact h.fit
    next => exact h.fit

/-- The loop ends after a bounded number of attempts; the induction is on those that are left. -/
theorem wp_retrySharedObjects (retries : ℕ) {env : Option CStr} (h : Knows t alive shared env v) :
    (retrySharedObjects retries env).Wp (Own.May t) (Own.Answers S t) (fun _ v' => Fit t alive v')
      v := by
  induction retries generalizing env shared v with
  | zero => exact wp_attachOrElse h (Or.inr ⟨shared, rfl⟩)
  | succ retries ih =>
    refine wp_attachOrElse h ⟨trivial, ?_⟩
    rintro _ _ rfl
    refine (wp_recreate alive none).bind fun r v' hv' => ?_
    cases r with
    | none => exact hv'
    | some env => exact ih hv'

/-- **The initialization makes both objects or none.** -/
theorem wp_ftShmReallyInit (hflshm : S.flshm = false) :
    ftShmReallyInit.Wp (Own.May t) (Own.Answers S t) (fun _ v' => Fit t alive v')
      (.before alive shared) := by
  unfold ftShmReallyInit
  refine Wp.bind (Q := StageEnd t alive shared) ?_ fun r v' hv' => ?_
  · refine ⟨trivial, ?_⟩
    rintro r _ ⟨rfl, rfl⟩
    cases r with
    | none => exact wp_recreate ..
    | some value => exact Or.inl ⟨rfl, rfl⟩
  cases r with
  | none => exact hv'
  | some env =>
    refine (wp_checkStale hv').bind fun r v' hv' => ?_
    cases r with
    | none => exact hv'
    | some env =>
      refine (wp_retrySharedObjects 2 hv').bind fun e v' hv' => ?_
      cases e with
      | exits => exact hv'
      | returns =>
        refine ⟨trivial, ?_⟩
        rintro _ _ ⟨rfl, rfl⟩
        rw [hflshm]
        exact hv'

/-- **What holds of a process that is alive and not busy**: its objects are there if it has made
them, and then it has the flag and the names. -/
structure Own.Settled (t : Pid) (v : Own) : Prop where
  made : v.made = true → v.shmCreator = true ∧ v.shared = some (sharedObjs t) ∧ v.lock = true ∧
    v.block = true
  free : v.made = false → v.lock = false ∧ v.block = false

theorem Fit.settled (h : Fit t alive v) : v.Settled t := by
  rcases h with rfl | ⟨shared, rfl⟩
  · exact ⟨fun _ => ⟨rfl, rfl, rfl, rfl⟩, nofun⟩
  · exact ⟨nofun, fun _ => ⟨rfl, rfl⟩⟩

theorem wp_ftShmInitOnce (hflshm : S.flshm = false) (hs : v.Settled t) (hv : v.Tidy) :
    ftShmInitOnce.Wp (Own.May t) (Own.Answers S t) (fun _ v' => v'.Settled t ∧ v'.Tidy) v := by
  refine wp_loadVars fun vars hstarted _ => ?_
  rw [hstarted]
  split
  next => exact ⟨hs, hv⟩
  next hnot =>
    -- nothing has been made before the first call
    have hflag : v.shmCreator = false := by
      rw [← Bool.not_eq_true]
      exact fun h => hnot (hv h).1
    have hmade : v.made = false := by
      rw [← Bool.not_eq_true]
      intro h
      rw [(hs.made h).1] at hflag
      cases hflag
    obtain ⟨hlock, hblock⟩ := hs.free hmade
    refine ⟨fun vars _ hc h => ?_, ?_⟩
    · rw [show _ = v.shmCreator from hc, hflag] at h
      cases h
    · rintro - _ ⟨vars, -, hc, rfl⟩
      have hbefore : { v with started := true, shmCreator := vars.shmCreator } =
          Own.before v.alive v.shared := by
        rw [hc, hflag, Own.before, hlock, hblock, hmade]
      rw [hbefore]
      exact (wp_ftShmReallyInit hflshm).mono fun _ _ h => ⟨h.settled, h.tidy⟩

end Initializing

/-! ### Exiting -/

section Exiting

variable {S : TreeSettings} {t : Pid} {v : Own} {β : Type} {Q : β → Own → Prop}

/-- Who the process is, if nothing else is claimed. -/
theorem wp_getpid (hpid : S.fakePid = true → S.fakepid = none) :
    (getpid S.fakePid).Wp (Own.May t) (Own.Answers S t) (fun r v' => r = (t : ℤ) ∧ v' = v) v := by
  unfold getpid
  dsimp only
  split
  next hfake =>
    refine ⟨trivial, ?_⟩
    rintro _ _ ⟨rfl, rfl⟩
    rw [hpid hfake]
    refine ⟨trivial, ?_⟩
    rintro _ _ ⟨rfl, rfl⟩
    exact ⟨rfl, rfl⟩
  next =>
    refine ⟨trivial, ?_⟩
    rintro _ _ ⟨rfl, rfl⟩
    exact ⟨rfl, rfl⟩

/-- The process has neither object. -/
def Own.Bare (v : Own) : Prop := v.lock = false ∧ v.block = false

/-- The end of `ft_shm_destroy`, once it is known whose the objects are. -/
theorem wp_destroyOwned {maker : Pid} {sem : FtSem} (hname : sem.name = semName maker)
    (hpid : S.fakePid = true → S.fakepid = none) (hbare : maker ≠ t → v.Bare) :
    (do
      if (← getpid S.fakePid) = (maker : ℤ) then
        let _ ← liftShm (ftSemUnlink sem)
        let _ ← objCall (.shm (.shmUnlink (shmName maker)))
        objCall .unsetenvShared
      let _ ← liftShm (ftSemClose sem)
      pure .returns : Obj ShmEnd).Wp (Own.May t) (Own.Answers S t) (fun _ v' => v'.Bare) v := by
  refine (wp_getpid hpid).bind ?_
  rintro _ v ⟨rfl, rfl⟩
  split
  next howner =>
    obtain rfl : t = maker := Fin.ext (Int.ofNat.inj howner)
    have hunlink : (ftSemUnlink sem).Wp (Own.ShmMay t) (Own.ShmAnswers t)
        (fun _ v' => v' = { v with lock := false }) v := by
      rw [ftSemUnlink, hname, ftSemNameToPath_semName]
      exact ⟨rfl, fun _ _ h => h⟩
    refine (wp_liftShm hunlink).bind ?_
    rintro _ _ rfl
    refine ⟨rfl, ?_⟩
    rintro _ _ rfl
    refine ⟨trivial, ?_⟩
    rintro _ _ rfl
    exact wp_liftClose fun _ => ⟨rfl, rfl⟩
  next howner =>
    refine wp_liftClose fun _ => hbare ?_
    rintro rfl
    exact howner rfl

/-- **A process removes the objects that it has made**, and no others. -/
theorem wp_ftShmDestroy (hpid : S.fakePid = true → S.fakepid = none) (hs : v.Settled t)
    (hv : v.Tidy) (hflag : v.shmCreator = true) :
    (ftShmDestroy S.fakePid).Wp (Own.May t) (Own.Answers S t) (fun _ v' => v'.Bare) v := by
  have hfree : v.shared ≠ some (sharedObjs t) ∨ v.lock = false → v.Bare := by
    intro h
    refine hs.free ?_
    rw [← Bool.not_eq_true]
    intro hmade
    obtain ⟨-, hshared, hlock, -⟩ := hs.made hmade
    rcases h with h | h
    · exact h hshared
    · rw [h] at hlock
      cases hlock
  refine ⟨trivial, ?_⟩
  rintro _ _ ⟨rfl, rfl⟩
  rcases (hv hflag).2 with hnone | ⟨maker, hmaker⟩
  · rw [hnone]
    exact hfree (Or.inl (by rw [hnone]; exact nofun))
  · rw [hmaker]
    dsimp only [Prog.bind]
    rw [parse_sharedObjs]
    dsimp only
    refine wp_liftOpen (fun hlock => ?_) fun sem hname => ?_
    · by_cases hown : maker = t
      · exact hfree (Or.inr (hlock (by rw [hown])))
      · exact hfree (Or.inl fun h => hown (sharedObjs_inj (Option.some.inj (hmaker.symm.trans h))))
    · dsimp only
      rw [semOwnerPid_semName]
      rw [List.take_of_length_le (by have := names_short maker; omega)] at hname
      refine wp_destroyOwned hname hpid fun hown => hfree (Or.inl fun h => hown ?_)
      exact sharedObjs_inj (Option.some.inj (hmaker.symm.trans h))

theorem wp_ftCleanupShared (hpid : S.fakePid = true → S.fakepid = none) (hs : v.Settled t)
    (hv : v.Tidy) :
    (ftCleanupShared S.fakePid).Wp (Own.May t) (Own.Answers S t) (fun _ v' => v'.Bare) v := by
  refine wp_loadVars fun vars _ hflag => ?_
  refine (wp_detachShared hv vars).bind ?_
  rintro _ _ rfl
  refine (wp_detachSem hv vars).bind ?_
  rintro _ _ rfl
  rw [hflag]
  split
  next hcreator =>
    refine (wp_ftShmDestroy hpid hs hv hcreator).bind fun _ v' hv' => ?_
    refine ⟨fun _ _ _ h => absurd h Bool.false_ne_true, ?_⟩
    rintro - _ ⟨vars, -, -, rfl⟩
    exact hv'
  next hcreator =>
    refine hs.free ?_
    rw [← Bool.not_eq_true]
    exact fun hmade => hcreator (hs.made hmade).1

end Exiting

/-! ### All processes -/

section All

variable {S : TreeSettings} {fails : ShmOp → Prop} {t : Pid} {v : Own}

/-- What holds when a process has done what it began. -/
def Own.Ends (t : Pid) (a : Fate) (v : Own) : Prop :=
  match a with
  | .running => v.Settled t
  | .dead => v.Bare

/-- What holds of a process that is not busy, alive or not. -/
def Own.Idle (t : Pid) (v : Own) : Prop := v.Ends t (if v.alive = true then .running else .dead)

theorem wp_exitProcess (hpid : S.fakePid = true → S.fakepid = none) (hs : v.Settled t)
    (hv : v.Tidy) :
    (exitProcess S.fakePid).Wp (Own.May t) (Own.Answers S t) (Own.Ends t) v :=
  (wp_ftCleanupShared hpid hs hv).bind fun _ _ h => h

theorem wp_initProcess (hflshm : S.flshm = false) (hpid : S.fakePid = true → S.fakepid = none)
    (hs : v.Settled t) (hv : v.Tidy) :
    (initProcess S.fakePid).Wp (Own.May t) (Own.Answers S t) (Own.Ends t) v := by
  refine (wp_ftShmInitOnce hflshm hs hv).bind fun e v' hv' => ?_
  cases e with
  | returns => exact hv'.1
  | exits => exact wp_exitProcess hpid hv'.1 hv'.2

/-- A process that has made nothing may change in any other way. -/
theorem wp_liveOn {o : ObjOp} (hmay : v.May t o) (h : ∀ r v', v.Answers S t o r v' →
    v'.made = false ∧ v'.lock = v.lock ∧ v'.block = v.block) (hbare : v.Bare) :
    (liveOn o).Wp (Own.May t) (Own.Answers S t) (Own.Ends t) v := by
  refine ⟨hmay, fun r v' hv' => ⟨fun hmade => ?_, fun _ => ?_⟩⟩
  · rw [(h r v' hv').1] at hmade
    cases hmade
  · rw [(h r v' hv').2.1, (h r v' hv').2.2]
    exact hbare

/-- What all processes keep to. -/
def treeViews (hfails : ∀ o, o.Reliable → ¬ fails o) (hflshm : S.flshm = false)
    (hpid : S.fakePid = true → S.fakepid = none) (hexecs : S.makerExecs = false) :
    (tree S fails).Views where
  View _ := Own
  view t m := m.own t
  allowed := Own.May
  answers := Own.Answers S
  done := Own.Ends
  idle t m := (m.own t).Idle t
  inv := Tree.Tidy
  start t m p hm hidle hp := by
    rcases hp with ⟨hdead, hp⟩ | ⟨halive, hp⟩
    · have hbare : (m.own t).Bare := by
        rw [Own.Idle, show (m.own t).alive = false from hdead] at hidle
        exact hidle
      rcases hp with rfl | ⟨parent, rfl⟩
      · refine wp_liveOn trivial ?_ hbare
        rintro - _ rfl
        exact ⟨rfl, rfl, rfl⟩
      · refine wp_liveOn trivial ?_ hbare
        rintro - _ ⟨p, -, rfl⟩
        exact ⟨rfl, rfl, rfl⟩
    · have hs : (m.own t).Settled t := by
        rw [Own.Idle, show (m.own t).alive = true from halive] at hidle
        exact hidle
      rcases hp with rfl | rfl | ⟨rfl, hmade⟩
      · exact wp_initProcess hflshm hpid hs (hm t)
      · exact wp_exitProcess hpid hs (hm t)
      · have hfree : (m.own t).made = false := by
          rw [← Bool.not_eq_true]
          intro h
          rw [hexecs] at hmade
          cases hmade h
        refine wp_liveOn trivial ?_ (hs.free hfree)
        rintro - _ rfl
        exact ⟨hfree, rfl, rfl⟩
  call t m o r m' hm ho h := by
    obtain ⟨hown, htidy, hothers⟩ := answers_of_answers hfails hm ho h
    refine ⟨fun u => ?_, hown, fun u hu => ⟨hothers u hu, fun hidle => ?_⟩⟩
    · by_cases hu : u = t
      · rw [hu]
        exact htidy
      · rw [hothers u hu]
        exact hm u
    · rw [hothers u hu]
      exact hidle
  finish t a m m' hm hdone h := by
    obtain rfl : m' = _ := h
    have hself := own_setTask m t { m.task t with alive := decide (a = .running) }
    have hothers := fun u (hu : u ≠ t) =>
      own_setTask_of_ne m { m.task t with alive := decide (a = .running) } hu
    refine ⟨fun u => ?_, ?_, fun u hu => ⟨hothers u hu, fun hidle => ?_⟩⟩
    · by_cases hu : u = t
      · rw [hu, hself]
        exact hm t
      · rw [hothers u hu]
        exact hm u
    · rw [hself]
      cases a with
      | running => exact ⟨hdone.made, hdone.free⟩
      | dead => exact hdone
    · rw [hothers u hu]
      exact hidle

/-- **As long as nothing is tampered with, everybody removes what he has made.** -/
theorem owned_of_reach (hfails : ∀ o, o.Reliable → ¬ fails o) (hflshm : S.flshm = false)
    (hpid : S.fakePid = true → S.fakepid = none) (hexecs : S.makerExecs = false)
    {s : Pool objSys Pid Tree Fate}
    (hr : (tree S fails).Reach (Pool.init objSys Pid Fate Tree.start) s) : Owned s := by
  have hidle₀ : ∀ t, (Tree.start.own t).Idle t := fun _ => ⟨rfl, rfl⟩
  obtain ⟨-, hleft⟩ := (treeViews hfails hflshm hpid hexecs).reach hr
    (fun t h => absurd h Bool.false_ne_true) hidle₀
  intro t hc hmade path hpath
  have ht := hleft t
  rw [Machine.Views.Left, hc] at ht
  have ht : (s.mem.own t).Idle t := ht
  cases halive : (s.mem.task t).alive with
  | true =>
    rw [Own.Idle, show (s.mem.own t).alive = true from halive] at ht
    obtain ⟨-, -, hlock, hblock⟩ := Own.Settled.made ht hmade
    rcases hpath with rfl | rfl
    · exact hblock
    · exact hlock
  | false =>
    rw [Own.Idle, show (s.mem.own t).alive = false from halive] at ht
    rcases hpath with rfl | rfl
    · exact ht.2
    · exact ht.1

end All

/-! ### Runs in which something is tampered with -/

/-- A process whose calls all succeed, while the others wait. -/
def alone (S : TreeSettings) (t : Pid) : Handler objSys Tree Unit := fun m o =>
  match o with
  | .shm o => .ok (((m.world t false).answer o).1, m.seen t ((m.world t false).answer o).2)
  | .getenvShared => .ok ((m.task t).shared, m)
  | .unsetenvShared => .ok ((), m.setTask t { m.task t with shared := none })
  | .getenvFlshm => .ok (S.flshm, m)
  | .getenvFakepid => .ok (S.fakepid, m)
  | .loadVars => .ok ((m.task t).vars, m)
  | .storeVars f => .ok ((), m.setTask t { m.task t with vars := f (m.task t).vars })
  | .forked parent =>
    if (m.task parent).alive = true then
      .ok ((), m.setTask t { m.task parent with made := false })
    else .error ()
  | .begun => .ok ((), m.setTask t ⟨true, none, .initial, false⟩)
  | .execve => .ok ((), m.setTask t { m.task t with vars := .initial })
  | .shmOpenRdwr name => .ok (some (shmPath name), m)
  | .fstat _ => .ok (some ftSharedSize, m)
  | .readBlock _ => .ok (.created, m)

/-- What becomes of all processes when one of them runs a program to its end. -/
def Tree.lives (m : Tree) (S : TreeSettings) (t : Pid) (p : Obj Fate) : Tree :=
  match p.run (alone S t) m with
  | .ok (a, m') => m'.setTask t { m'.task t with alive := decide (a = .running) }
  | .error _ => m

section Tampering

variable {S : TreeSettings} {fails : ShmOp → Prop} {t u : Pid} {m m' : Tree}

theorem answers_of_alone (m : Tree) (o : ObjOp) (r : o.Ans) (m' : Tree)
    (h : alone S t m o = .ok (r, m')) : m.Answers S fails t o r m' := by
  cases o with
  | shm o =>
    cases h
    exact ⟨false, nofun, rfl, rfl⟩
  | forked parent =>
    by_cases halive : (m.task parent).alive = true
    · rw [show alone S t m (.forked parent) = _ from if_pos halive] at h
      cases h
      exact ⟨halive, rfl⟩
    · rw [show alone S t m (.forked parent) = _ from if_neg halive] at h
      cases h
  | getenvShared | getenvFlshm | getenvFakepid | loadVars =>
    cases h
    exact ⟨rfl, rfl⟩
  | _ =>
    cases h
    rfl

theorem reach_lives {p : Obj Fate} (hp : (tree S fails).start t m p) :
    (tree S fails).Reach ⟨m, fun _ => none⟩ ⟨m.lives S t p, fun _ => none⟩ := by
  unfold Tree.lives
  split
  next a m' hr =>
    exact (Machine.runs_of_run id answers_of_alone hr).reach_of_return
      (s := ⟨m, fun _ => none⟩) rfl hp rfl
  next => exact .refl

/-- What a call leaves as it is that changes nothing but the variables that do not matter. -/
structure Tree.Kept (m m' : Tree) : Prop where
  files : m'.files = m.files
  shared : ∀ u, (m'.task u).shared = (m.task u).shared
  flag : ∀ u, (m'.task u).vars.shmCreator = (m.task u).vars.shmCreator
  made : ∀ u, (m'.task u).made = (m.task u).made
  alive : ∀ u, (m'.task u).alive = (m.task u).alive

theorem Tree.Kept.refl (m : Tree) : m.Kept m :=
  ⟨rfl, fun _ => rfl, fun _ => rfl, fun _ => rfl, fun _ => rfl⟩

theorem Tree.Kept.trans {m'' : Tree} (h : m.Kept m') (h' : m'.Kept m'') : m.Kept m'' :=
  ⟨h'.files.trans h.files, fun u => (h'.shared u).trans (h.shared u),
    fun u => (h'.flag u).trans (h.flag u), fun u => (h'.made u).trans (h.made u),
    fun u => (h'.alive u).trans (h.alive u)⟩

theorem kept_setVars {vars : ObjVars} (h : vars.shmCreator = (m.task t).vars.shmCreator) :
    m.Kept (m.setTask t { m.task t with vars := vars }) := by
  exact ⟨rfl, field_setTask Task.shared rfl, field_setTask (fun v => v.vars.shmCreator) h,
    field_setTask Task.made rfl, field_setTask Task.alive rfl⟩

/-- A call about a file that is open changes nothing at all. -/
theorem seen_next {b : Bool} : m.seen t (m.world t b).next = m := by
  have htask : { m.task t with
      shared := (m.task t).shared
      vars := { (m.task t).vars with shmCreator := (m.task t).vars.shmCreator }
      made := (m.task t).made || (!(m.task t).vars.shmCreator && (m.task t).vars.shmCreator) } =
        m.task t := by
    rw [Bool.not_and_self, Bool.or_false]
  exact congrArg (Tree.mk m.files)
    ((congrArg (Function.update m.task t) htask).trans (Function.update_eq_self ..))

theorem runs_quietShm {β : Type} {Q : β → Tree → Prop} {o : ShmOp} {f : o.Ans → Obj β}
    (ho : o.Quiet) (h : (f ((m.world t false).answer o).1).Runs (alone S t) m Q) :
    (objCall (.shm o) >>= f).Runs (alone S t) m Q := by
  have hcall : alone S t m (.shm o) = .ok (((m.world t false).answer o).1, m) := by
    change Except.ok (_, m.seen t ((m.world t false).answer o).2) = _
    rw [answer_quiet ho, seen_next]
  exact runs_perform_bind (I := objSys) hcall h

theorem runs_setVars {g : ObjVars → ObjVars} (hg : ∀ vars, (g vars).shmCreator = vars.shmCreator) :
    (objCall (.storeVars g)).Runs (alone S t) m fun _ m' => m.Kept m' :=
  ⟨(), _, rfl, kept_setVars (hg _)⟩

theorem runs_detachSem (vars : ObjVars) :
    (detachSem vars).Runs (alone S t) m fun _ m' => m.Kept m' := by
  unfold detachSem
  split
  · exact runs_quietShm (o := .close vars.sharedSem.fd) trivial (runs_setVars fun _ => rfl)
  · exact runs_pure (.refl m)

theorem runs_detachShared (vars : ObjVars) :
    (detachShared vars).Runs (alone S t) m fun _ m' => m.Kept m' := by
  unfold detachShared
  split
  next mapping _ =>
    exact runs_quietShm (o := .munmap mapping) trivial (runs_setVars fun _ => rfl)
  · exact runs_pure (.refl m)

/-- A call that leaves the variables alone makes nobody the maker of anything. -/
theorem made_seen {b : Bool} {o : ShmOp} (ho : o.KeepsVars) (u : Pid) :
    ((m.seen t ((m.world t b).answer o).2).task u).made = (m.task u).made ∧
      ((m.seen t ((m.world t b).answer o).2).task u).alive = (m.task u).alive := by
  have hflag : ((m.world t b).answer o).2.shmCreator = (m.task t).vars.shmCreator :=
    (answer_vars ho).2
  by_cases hu : u = t
  · simp only [hu, Tree.seen, Function.update_self, hflag, Bool.not_and_self, Bool.or_false,
      and_self]
  · simp only [Tree.seen, Function.update_of_ne hu, and_self]

/-- A process unlinks the lock and the memory of the process in whose name it opened them. -/
theorem runs_unlink {maker : Pid} {sem : FtSem} (hname : sem.name = semName maker) {β : Type}
    {Q : β → Tree → Prop} {f : Obj β}
    (h : ∀ m' : Tree, (m'.files (lockPath maker)).isSome = false →
      (∀ u, (m'.task u).made = (m.task u).made ∧ (m'.task u).alive = (m.task u).alive) →
      f.Runs (alone S t) m' Q) :
    (do
      let _ ← liftShm (ftSemUnlink sem)
      let _ ← objCall (.shm (.shmUnlink (shmName maker)))
      objCall .unsetenvShared
      f : Obj β).Runs (alone S t) m Q := by
  rw [ftSemUnlink, hname, ftSemNameToPath_semName]
  refine runs_perform_bind (I := objSys) (o := .shm (.unlink (lockPath maker))) rfl ?_
  have hgone : ((m.seen t ((m.world t false).answer (.unlink (lockPath maker))).2).files
      (lockPath maker)).isSome = false := isSome_remove ..
  have hmade := made_seen (m := m) (t := t) (b := false) (o := .unlink (lockPath maker)) trivial
  generalize m.seen t ((m.world t false).answer (.unlink (lockPath maker))).2 = m₁ at hgone hmade
  refine runs_perform_bind (I := objSys) (o := .shm (.shmUnlink (shmName maker))) rfl ?_
  have hgone' : ((m₁.seen t ((m₁.world t false).answer (.shmUnlink (shmName maker))).2).files
      (lockPath maker)).isSome = false := by
    have hother : lockPath maker ∉ (ShmOp.shmUnlink (shmName maker)).touches :=
      fun h => lockPath_ne_shmPath _ _ h
    exact (congrArg Option.isSome (answer_kept (w := m₁.world t false) hother)).trans hgone
  have hmade' := made_seen (m := m₁) (t := t) (b := false) (o := .shmUnlink (shmName maker)) trivial
  refine runs_perform_bind (I := objSys) (o := .unsetenvShared) rfl (h _ hgone' fun u => ?_)
  have hboth := And.intro ((hmade' u).1.trans (hmade u).1) ((hmade' u).2.trans (hmade u).2)
  generalize m₁.seen t ((m₁.world t false).answer (.shmUnlink (shmName maker))).2 = m₂ at hboth
  exact life_setTask rfl rfl hboth

/-- **What a process removes goes by the number it believes to have.** -/
theorem runs_ftShmDestroy {maker : Pid} {k : ℤ}
    (hpid : ∀ m, (getpid S.fakePid).run (alone S t) m = .ok (k, m))
    (hshared : (m.task t).shared = some (sharedObjs maker))
    (hlock : (m.files (lockPath maker)).isSome = true) :
    (ftShmDestroy S.fakePid).Runs (alone S t) m fun _ m' =>
      (m'.files (lockPath maker)).isSome = !decide (k = maker) ∧
        ∀ u, (m'.task u).made = (m.task u).made ∧ (m'.task u).alive = (m.task u).alive := by
  refine runs_perform_bind (I := objSys) (o := .getenvShared) (r := (m.task t).shared) rfl ?_
  rw [hshared]
  dsimp only
  rw [parse_sharedObjs]
  have hfd : ((m.world t false).answer (.openRdwr (lockPath maker))).1 = some (lockPath maker) := by
    obtain ⟨file, hfile⟩ := Option.isSome_iff_exists.mp hlock
    change (if (false || (m.files (lockPath maker)).isNone) = true then none else _) = _
    rw [hfile]
    rfl
  have hopen : (liftShm (ftSemOpen (semName maker))).Runs (alone S t) m fun r m' =>
      m' = m ∧ ∃ sem, r = some sem ∧ sem.name = semName maker := by
    rw [ftSemOpen, ftSemNameToPath_semName]
    refine runs_quietShm (o := .openRdwr (lockPath maker)) trivial ?_
    rw [hfd]
    exact runs_pure ⟨rfl, _, rfl, List.take_of_length_le (by have := names_short maker; omega)⟩
  refine hopen.bind ?_
  rintro _ _ ⟨rfl, sem, rfl, hname⟩
  dsimp only
  rw [semOwnerPid_semName]
  dsimp only
  have hclose : ∀ m' : Tree, (do
      let _ ← liftShm (ftSemClose sem)
      pure .returns : Obj ShmEnd).Runs (alone S t) m' fun _ m'' => m'' = m' := fun m' =>
    runs_quietShm (o := .close sem.fd) trivial (runs_pure rfl)
  refine Runs.bind (Q := fun r m' => r = k ∧ m' = _) ⟨k, _, hpid _, rfl, rfl⟩ ?_
  rintro _ _ ⟨rfl, rfl⟩
  split
  next howner =>
    refine runs_unlink hname fun m' hgone hmade => (hclose m').mono ?_
    rintro _ _ rfl
    exact ⟨by rw [hgone, decide_eq_true howner]; rfl, hmade⟩
  next howner =>
    refine (hclose _).mono ?_
    rintro _ _ rfl
    exact ⟨by rw [hlock, decide_eq_false howner]; rfl, fun _ => ⟨rfl, rfl⟩⟩

/-- **A process that exits with the flag removes the objects that its variable names, if it
believes to be their maker.** -/
theorem runs_exitProcess {maker : Pid} {k : ℤ}
    (hpid : ∀ m, (getpid S.fakePid).run (alone S t) m = .ok (k, m))
    (hshared : (m.task t).shared = some (sharedObjs maker))
    (hflag : (m.task t).vars.shmCreator = true)
    (hlock : (m.files (lockPath maker)).isSome = true) :
    (exitProcess S.fakePid).Runs (alone S t) m fun a m' => a = .dead ∧
      (m'.files (lockPath maker)).isSome = !decide (k = maker) ∧
        ∀ u, (m'.task u).made = (m.task u).made ∧ (m'.task u).alive = (m.task u).alive := by
  unfold exitProcess ftCleanupShared
  rw [Prog.bind_assoc]
  refine runs_perform_bind (I := objSys) (o := .loadVars) rfl ?_
  simp only [hflag, if_true, Prog.bind_assoc]
  refine (runs_detachShared (m.task t).vars).bind fun _ m₁ h₁ => ?_
  refine (runs_detachSem (m.task t).vars).bind fun _ m₂ h₂ => ?_
  have h := h₁.trans h₂
  refine (runs_ftShmDestroy hpid ((h.shared t).trans hshared)
    (by rw [h.files]; exact hlock)).bind fun _ m₃ h₃ => ?_
  refine runs_perform_bind (I := objSys) (o := .storeVars _) rfl
    (runs_pure ⟨rfl, h₃.1, fun u => ?_⟩)
  have hu := h₃.2 u
  rw [h.made, h.alive] at hu
  exact life_setTask rfl rfl hu

/-- One that does not have the flag, or not the variable, removes nothing. -/
theorem runs_exitProcess_of_unset
    (h : (m.task t).vars.shmCreator = false ∨ (m.task t).shared = none) :
    (exitProcess S.fakePid).Runs (alone S t) m fun a m' => a = .dead ∧ m'.files = m.files ∧
      ∀ u, (m'.task u).made = (m.task u).made ∧ (m'.task u).alive = (m.task u).alive := by
  unfold exitProcess ftCleanupShared
  rw [Prog.bind_assoc]
  refine runs_perform_bind (I := objSys) (o := .loadVars) rfl ?_
  simp only [Prog.bind_assoc]
  refine (runs_detachShared (m.task t).vars).bind fun _ m₁ h₁ => ?_
  refine (runs_detachSem (m.task t).vars).bind fun _ m₂ h₂ => ?_
  have hkept := h₁.trans h₂
  split
  next hflag =>
    have hnone : (m₂.task t).shared = none :=
      (hkept.shared t).trans (h.resolve_left (by rw [hflag]; exact nofun))
    have hdestroy : (ftShmDestroy S.fakePid).Runs (alone S t) m₂ fun _ m' => m' = m₂ := by
      refine runs_perform_bind (I := objSys) (o := .getenvShared) rfl ?_
      rw [hnone]
      exact runs_pure rfl
    rw [Prog.bind_assoc]
    refine hdestroy.bind ?_
    rintro _ _ rfl
    refine runs_perform_bind (I := objSys) (o := .storeVars _) rfl
      (runs_pure ⟨rfl, hkept.files, fun u => ?_⟩)
    exact life_setTask rfl rfl ⟨hkept.made u, hkept.alive u⟩
  next => exact runs_pure ⟨rfl, hkept.files, fun u => ⟨hkept.made u, hkept.alive u⟩⟩

/-- What is left when a process has exited. -/
theorem lives_of_runs {Q : Tree → Prop}
    (h : (exitProcess S.fakePid).Runs (alone S t) m fun a m' => a = .dead ∧ Q m' ∧
      ∀ u, (m'.task u).made = (m.task u).made ∧ (m'.task u).alive = (m.task u).alive) :
    ∃ m', Q m' ∧ (m.lives S t (exitProcess S.fakePid)).files = m'.files ∧
      ∀ u, ((m.lives S t (exitProcess S.fakePid)).task u).made = (m.task u).made ∧
        ((m.lives S t (exitProcess S.fakePid)).task u).alive =
          (!decide (u = t) && (m.task u).alive) := by
  obtain ⟨a, m', hr, rfl, hq, hkept⟩ := h
  refine ⟨m', hq, ?_⟩
  unfold Tree.lives
  rw [hr]
  refine ⟨rfl, fun u => ?_⟩
  by_cases hu : u = t
  · rw [hu, task_setTask, decide_eq_true rfl]
    exact ⟨(hkept t).1, rfl⟩
  · rw [task_setTask_of_ne m' _ hu, decide_eq_false hu]
    exact hkept u

end Tampering

/-! ### The result -/

section Result

variable {S : TreeSettings} {fails : ShmOp → Prop} {m : Tree} {t u : Pid}

/-- A process has made its objects, and has them in its variable unless that is gone. -/
structure Tree.Maker (flshm : Bool) (m : Tree) : Prop where
  made : (m.task 7).made = true
  alive : (m.task 7).alive = true
  flag : (m.task 7).vars.shmCreator = true
  lock : (m.files (lockPath (7 : Pid))).isSome = true
  shared : (m.task 7).shared = if flshm = true then none else some (sharedObjs (7 : Pid))
  other : (m.task 8).alive = false

instance (flshm : Bool) (m : Tree) : Decidable (m.Maker flshm) :=
  decidable_of_iff
    ((m.task 7).made = true ∧ (m.task 7).alive = true ∧ (m.task 7).vars.shmCreator = true ∧
      (m.files (lockPath (7 : Pid))).isSome = true ∧
      (m.task 7).shared = (if flshm = true then none else some (sharedObjs (7 : Pid))) ∧
      (m.task 8).alive = false)
    ⟨fun ⟨h₁, h₂, h₃, h₄, h₅, h₆⟩ => ⟨h₁, h₂, h₃, h₄, h₅, h₆⟩,
      fun ⟨h₁, h₂, h₃, h₄, h₅, h₆⟩ => ⟨h₁, h₂, h₃, h₄, h₅, h₆⟩⟩

/-- A process that never asks for its number cannot be told another one. -/
def unasked (flshm : Bool) : Handler objSys Tree Unit := fun m o =>
  match o with
  | .getenvFakepid => .error ()
  | o => alone ⟨flshm, false, none, false⟩ 7 m o

theorem alone_of_unasked {o : ObjOp} {r : o.Ans} {m m' : Tree}
    (h : unasked S.flshm m o = .ok (r, m')) : alone S 7 m o = .ok (r, m') := by
  cases o with
  | getenvFakepid => cases h
  | _ => exact h

/-- A process has begun, and initializes the library. -/
def Tree.begun (flshm fakePid : Bool) : Except Unit (Fate × Tree) :=
  (initProcess fakePid).run (unasked flshm)
    (Tree.start.lives ⟨flshm, fakePid, none, false⟩ 7 (liveOn .begun))

set_option maxRecDepth 10000 in
theorem maker_begun : ∀ flshm fakePid : Bool, (Tree.begun flshm fakePid).toOption.any
    (fun r => decide (r.1 = .running) && decide (r.2.Maker flshm)) = true := by
  decide +kernel

theorem exists_maker (S : TreeSettings) (fails : ShmOp → Prop) : ∃ m : Tree,
    (tree S fails).Reach (Pool.init objSys Pid Fate Tree.start) ⟨m, fun _ => none⟩ ∧
      m.Maker S.flshm := by
  have hmaker := maker_begun S.flshm S.fakePid
  cases hr : Tree.begun S.flshm S.fakePid with
  | error x =>
    rw [hr] at hmaker
    cases hmaker
  | ok r =>
    obtain ⟨a, m⟩ := r
    rw [hr] at hmaker
    obtain ⟨ha, hm⟩ := Bool.and_eq_true_iff.mp hmaker
    obtain rfl : a = .running := of_decide_eq_true ha
    have hm := of_decide_eq_true hm
    have hsame : m.setTask 7 { m.task 7 with alive := decide (Fate.running = .running) } = m := by
      have htask : { m.task 7 with alive := decide (Fate.running = .running) } = m.task 7 := by
        rw [decide_eq_true rfl, ← hm.alive]
      rw [htask, Tree.setTask, Function.update_eq_self]
    have hunasked : ∀ m (o : ObjOp) (r : o.Ans) m', unasked S.flshm m o = .ok (r, m') →
        m.Answers S fails 7 o r m' :=
      fun m o r m' h => answers_of_alone m o r m' (alone_of_unasked h)
    refine ⟨m, (reach_lives (S := S) (t := 7) (p := liveOn .begun)
      (Or.inl ⟨rfl, Or.inl rfl⟩)).trans ?_, hm⟩
    exact (Machine.runs_of_run (M := tree S fails) id hunasked hr).reach_of_return
      (s := ⟨_, fun _ => none⟩) rfl (Or.inr ⟨rfl, Or.inl rfl⟩) hsame.symm

/-- An object that is there, or not, unlike its maker. -/
theorem not_owned (hmade : (m.task t).made = true)
    (h : (m.files (lockPath t)).isSome ≠ (m.task t).alive) :
    ¬ Owned (⟨m, fun _ => none⟩ : Pool objSys Pid Tree Fate) :=
  fun howned => h (howned t rfl hmade (lockPath t) (Or.inr rfl))

/-- A maker that has lost its flag or its variable leaves its objects behind. -/
theorem exists_leak_of_unset
    (hr : (tree S fails).Reach (Pool.init objSys Pid Fate Tree.start) ⟨m, fun _ => none⟩)
    (hmade : (m.task t).made = true) (halive : (m.task t).alive = true)
    (hlock : (m.files (lockPath t)).isSome = true)
    (h : (m.task t).vars.shmCreator = false ∨ (m.task t).shared = none) :
    ∃ s, (tree S fails).Reach (Pool.init objSys Pid Fate Tree.start) s ∧ ¬ Owned s := by
  obtain ⟨m', hfiles, hlives, hkept⟩ := lives_of_runs (runs_exitProcess_of_unset h)
  refine ⟨_, hr.trans (reach_lives (Or.inr ⟨halive, Or.inr (Or.inl rfl)⟩)), ?_⟩
  refine not_owned (t := t) ((hkept t).1.trans hmade) ?_
  rw [hlives, hfiles, hlock, (hkept t).2, decide_eq_true rfl]
  exact nofun

/-- With `FAKETIME_FLSHM` the variable is gone. -/
theorem exists_leak_of_flshm (hflshm : S.flshm = true) :
    ∃ s, (tree S fails).Reach (Pool.init objSys Pid Fate Tree.start) s ∧ ¬ Owned s := by
  obtain ⟨m, hr, hmade, halive, -, hlock, hshared, -⟩ := exists_maker S fails
  rw [if_pos hflshm] at hshared
  exact exists_leak_of_unset hr hmade halive hlock (Or.inr hshared)

/-- The flag does not survive `execve`. -/
theorem exists_leak_of_execs (hexecs : S.makerExecs = true) :
    ∃ s, (tree S fails).Reach (Pool.init objSys Pid Fate Tree.start) s ∧ ¬ Owned s := by
  obtain ⟨m, hr, hmade, halive, -, hlock, -, -⟩ := exists_maker S fails
  have hr' := hr.trans (reach_lives (p := liveOn .execve)
    (Or.inr ⟨halive, Or.inr (Or.inr ⟨rfl, fun _ => hexecs⟩)⟩))
  have htask : (m.lives S 7 (liveOn .execve)).task 7 =
      { m.task 7 with alive := true, vars := .initial } := by
    change (Tree.setTask (m.setTask 7 _) 7 _).task 7 = _
    rw [task_setTask, task_setTask]
    rfl
  refine exists_leak_of_unset (t := 7) hr' ?_ ?_ hlock (Or.inl ?_)
  · rw [htask]
    exact hmade
  · rw [htask]
  · rw [htask]
    rfl

/-- A copy has everything but what no program can see. -/
theorem lives_forked (S : TreeSettings) (h : (m.task u).alive = true) :
    m.lives S t (liveOn (.forked u)) =
      m.setTask t { m.task u with made := false, alive := true } := by
  have hrun : (liveOn (.forked u)).run (alone S t) m =
      .ok (.running, m.setTask t { m.task u with made := false }) := by
    change (Prog.op (I := objSys) (.forked u) _).run (alone S t) m = _
    rw [Prog.run_op]
    simp only [alone, if_pos h]
    rfl
  unfold Tree.lives
  rw [hrun]
  simp only [Tree.setTask, Function.update_self, Function.update_idem, decide_true]

/-- What `getpid` tells goes by the variable, if there is one. -/
theorem run_getpid {v : CStr} (hpid : S.fakePid = true) (hv : S.fakepid = some v) (m : Tree) :
    (getpid S.fakePid).run (alone S t) m = .ok (parseFakepid v, m) := by
  rw [hpid, getpid]
  change (Prog.op (I := objSys) ObjOp.getenvFakepid _).run (alone S t) m = _
  rw [Prog.run_op]
  simp only [alone, hv]
  rfl

/-- **A maker that is told another number leaves its objects behind, and a copy of it that is told
its number removes them.** -/
theorem exists_stray_of_fakepid {v : CStr} (hflshm : S.flshm = false) (hpid : S.fakePid = true)
    (hv : S.fakepid = some v) :
    ∃ s, (tree S fails).Reach (Pool.init objSys Pid Fate Tree.start) s ∧ ¬ Owned s := by
  obtain ⟨m, hr, hmade, halive, hflag, hlock, hshared, hother⟩ := exists_maker S fails
  rw [if_neg (by rw [hflshm]; exact nofun)] at hshared
  by_cases hk : parseFakepid v = (7 : Pid)
  · -- a copy of the maker exits
    have hr' := hr.trans (reach_lives (p := liveOn (.forked 7)) (Or.inl ⟨hother, Or.inr ⟨7, rfl⟩⟩))
    rw [lives_forked S halive] at hr'
    have hmaker := task_setTask_of_ne m { m.task 7 with made := false, alive := true }
      (show (7 : Pid) ≠ 8 by decide)
    have hcopy := task_setTask m 8 { m.task 7 with made := false, alive := true }
    have hfiles := files_setTask m 8 { m.task 7 with made := false, alive := true }
    generalize m.setTask 8 { m.task 7 with made := false, alive := true } = m₁ at *
    obtain ⟨m', hgone, hlives, hkept⟩ := lives_of_runs (runs_exitProcess (t := 8)
      (run_getpid hpid hv) (by rw [hcopy]; exact hshared) (by rw [hcopy]; exact hflag)
      (by rw [hfiles]; exact hlock))
    refine ⟨_, hr'.trans (reach_lives (Or.inr ⟨by rw [hcopy], Or.inr (Or.inl rfl)⟩)), ?_⟩
    refine not_owned (t := 7) ((hkept 7).1.trans (by rw [hmaker]; exact hmade)) ?_
    rw [hlives, hgone, decide_eq_true hk, (hkept 7).2, hmaker, halive]
    exact nofun
  · obtain ⟨m', hleft, hlives, hkept⟩ :=
      lives_of_runs (runs_exitProcess (t := 7) (run_getpid hpid hv) hshared hflag hlock)
    refine ⟨_, hr.trans (reach_lives (Or.inr ⟨halive, Or.inr (Or.inl rfl)⟩)), ?_⟩
    refine not_owned (t := 7) ((hkept 7).1.trans hmade) ?_
    rw [hlives, hleft, (hkept 7).2, decide_eq_false hk]
    exact nofun

/-- **Everybody removes what he has made, and nothing else**, in every order of the calls of all
processes, exactly if no maker loses its variable to `FAKETIME_FLSHM`, or its flag to `execve`, and
none is told another number than its own. -/
theorem objects_owned_iff (hfails : ∀ o, o.Reliable → ¬ fails o) :
    (∀ s, (tree S fails).Reach (Pool.init objSys Pid Fate Tree.start) s → Owned s) ↔
      S.flshm = false ∧ (S.fakePid = true → S.fakepid = none) ∧ S.makerExecs = false := by
  constructor
  · intro h
    have hnot : ¬ ∃ s, (tree S fails).Reach (Pool.init objSys Pid Fate Tree.start) s ∧ ¬ Owned s :=
      fun ⟨s, hr, howned⟩ => howned (h s hr)
    have hflshm : S.flshm = false := by
      rw [← Bool.not_eq_true]
      exact fun h => hnot (exists_leak_of_flshm h)
    refine ⟨hflshm, fun hpid => ?_, ?_⟩
    · rw [← Option.not_isSome_iff_eq_none, Option.isSome_iff_exists]
      rintro ⟨v, hv⟩
      exact hnot (exists_stray_of_fakepid hflshm hpid hv)
    · rw [← Bool.not_eq_true]
      exact fun h => hnot (exists_leak_of_execs h)
  · rintro ⟨hflshm, hpid, hexecs⟩ s hr
    exact owned_of_reach hfails hflshm hpid hexecs hr

/-- Where every call that may fail fails, nobody leaves anything behind. -/
theorem objects_owned_iff_unreliable :
    ¬ ∃ s, (tree ⟨false, true, none, false⟩ fun o => ¬ o.Reliable).Reach
      (Pool.init objSys Pid Fate Tree.start) s ∧ ¬ Owned s := by
  rintro ⟨s, hr, howned⟩
  exact howned ((objects_owned_iff fun _ h hn => hn h).mpr ⟨rfl, fun _ => rfl, rfl⟩ s hr)

end Result

end LibFaketime
