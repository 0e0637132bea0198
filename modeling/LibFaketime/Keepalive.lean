import LibFaketime.Ownership

/-!
# The wrapper and those it serves

The wrapper makes the shared objects for the command it runs, and removes them when they are no
longer needed. That is not when the command has ended, as it may have started others that go on. So
the wrapper opens a pipe, whose writing end everybody inherits who descends from it, and once the
command has ended it reads: as nobody writes, it reads nothing until the last of them has ended.

Whether this works depends on the others and on the calls of the wrapper itself. In every order of
the calls of all processes, the objects are there as long as a descendant is alive, and the wrapper
leaves the files as it found them, exactly if no descendant closes the pipe or writes to it and none
of seven calls fails (`LibFaketime.wrapper_keeps_iff`).
-/

namespace LibFaketime

open Effects Effects.Prog

/-! ### The calls -/

/-- How a process has ended. -/
inductive WaitStatus where
  | exited (code : ℕ)
  | signaled (sig : ℕ)
  /-- Neither `WIFSIGNALED` nor `WIFEXITED`. -/
  | other
deriving DecidableEq

/-- What `waitpid` answers. -/
inductive Waited where
  | waited (status : WaitStatus)
  | interrupted
  | failed
deriving DecidableEq

/-- What `read` answers. -/
inductive ReadByte where
  | byte
  | endOfFile
  | interrupted
  | failed
deriving DecidableEq

/-- What the wrapper asks of the system once `FAKETIME` is set, and what the processes below it do
that concerns the wrapper. -/
inductive WrapOp where
  /-- A call about the lock, the block or `FAKETIME_SHARED`. -/
  | shm (o : ShmOp)
  /-- `pipe(keepalive_fds)`. -/
  | pipe
  /-- `malloc(len)`, for the new `LD_PRELOAD`. -/
  | malloc
  /-- `setenv("LD_PRELOAD", ld_preload_new, true)`. -/
  | setenvPreload
  /-- `fork`. In the child, `execvp` follows. -/
  | fork
  /-- `close(keepalive_fds[0])`. -/
  | closeRead
  /-- `close(keepalive_fds[1])`. -/
  | closeWrite
  /-- `waitpid(pid, status, 0)`. -/
  | waitpid (pid : ℕ)
  /-- `read(keepalive_fds[0], &buf, 1)`. -/
  | readByte
  /-- A byte is written to the pipe. -/
  | writeByte
  /-- The process ends. -/
  | ends (status : WaitStatus)
  /-- One attempt more than the model follows. -/
  | never

/-- The answers. -/
@[reducible] def WrapOp.Ans : WrapOp → Type
  | .shm o => o.Ans
  | .pipe | .malloc | .setenvPreload => Bool
  | .fork => Option ℕ
  | .waitpid _ => Waited
  | .readByte => ReadByte
  | .never => Empty
  | _ => Unit

/-- The interface. -/
abbrev wrapSys : Interface := ⟨WrapOp, WrapOp.Ans⟩

/-- A function over these calls. -/
abbrev Wrap (α : Type) := Prog wrapSys α

/-- One call. -/
def wrapCall (o : WrapOp) : Wrap o.Ans := perform (I := wrapSys) o

/-- A function about the lock and the block. -/
def wrapShm {α : Type} (p : Shm α) : Wrap α := p.via (J := wrapSys) .shm fun _ r => r

/-! ### The wrapper -/

/-- `cleanup_shobjs`. -/
def cleanupShobjs (wrapperSem : FtSem) (shmName : CStr) : Shm Unit := do
  if !(← ftSemUnlink wrapperSem) then shmCall (.perror "faketime: ft_sem_unlink")
  if !(← shmCall (.shmUnlink shmName)) then shmCall (.perror "faketime: shm_unlink")

/-- A failure before there is anything to clean up. -/
def wrapperFails {α : Type} (msg : String) : Shm (Option α) := do
  shmCall (.perror msg)
  pure none

/-- A failure after both objects have been made. -/
def wrapperCleans {α : Type} (msg : String) (wrapperSem : FtSem) (shmName : CStr) :
    Shm (Option α) := do
  shmCall (.perror msg)
  cleanupShobjs wrapperSem shmName
  pure none

/-- The part of `main` that fills the block, and tells its name. -/
def fillShobjs (wrapperSem : FtSem) (shmFd : Fd) (semName shmName : CStr) :
    Shm (Option FtSem) := do
  if !(← shmCall (.ftruncate shmFd ftSharedSize)) then
    shmCall (.perror "faketime: ftruncate")
    let _ ← shmCall (.close shmFd)
    cleanupShobjs wrapperSem shmName
    pure none
  else
    match ← shmCall (.mmap shmFd) with
    | none =>
      shmCall (.perror "faketime: mmap")
      let _ ← shmCall (.close shmFd)
      cleanupShobjs wrapperSem shmName
      pure none
    | some mapping =>
      if !(← shmCall (.close shmFd)) then wrapperCleans "faketime: close" wrapperSem shmName
      else if !(← shmCall (.flockEx wrapperSem.fd)) then
        wrapperCleans "faketime: ft_sem_lock" wrapperSem shmName
      else
        -- init elapsed time ticks to zero
        shmCall (.assign (some mapping) FtShared.assigned)
        if !(← shmCall (.munmap (some mapping))) then
          wrapperCleans "faketime: munmap" wrapperSem shmName
        else if !(← shmCall (.flockUn wrapperSem.fd)) then
          wrapperCleans "faketime: ft_sem_unlock" wrapperSem shmName
        else if pathBufsize * 2 + 1 ≤ semName.length + shmName.length + 1 then
          wrapperCleans "faketime: failed to format shared-state configuration\n" wrapperSem shmName
        else if !(← shmCall (.setenvShared (semName ++ ' ' :: shmName))) then
          -- as in `set_env_or_exit`, the objects stay
          wrapperFails "faketime: setenv"
        else
          let (_, wrapperSem) ← ftSemClose wrapperSem
          pure (some wrapperSem)

/-- The part of `main` that makes the lock and the block. There is no lock if the wrapper exits. -/
def createShobjs (pid : ℕ) : Shm (Option FtSem) := do
  if pathBufsize ≤ (semName pid).length then
    wrapperFails "faketime: failed to format semaphore name\n"
  else if pathBufsize ≤ (shmName pid).length then
    wrapperFails "faketime: failed to format shared-state names\n"
  else
    match ← ftSemCreate (semName pid) with
    | none =>
      shmCall (.perror "faketime: ft_sem_create")
      wrapperFails ("The faketime wrapper failed to create its lock.\nHowever, you may " ++
        "LD_PRELOAD libfaketime without using this wrapper.\n")
    | some wrapperSem =>
      match ← shmCall (.shmOpen (shmName pid)) with
      | none =>
        shmCall (.perror "faketime: shm_open")
        let _ ← ftSemUnlink wrapperSem
        pure none
      | some fd => fillShobjs wrapperSem (some fd) (semName pid) (shmName pid)

/-- Whether a process goes on, and its exit code if not. -/
inductive WrapEnd where
  | goesOn
  | exits (code : ℕ)
deriving DecidableEq

/-- What happens where the model does not follow. -/
def giveUp {α : Type} : Wrap α := do
  let r ← wrapCall .never
  r.elim

/-- `wait_for_child`, up to a number of interruptions. -/
def waitForChild (pid : ℕ) : ℕ → Wrap (Option WaitStatus)
  | 0 => giveUp
  | retries + 1 => do
    match ← wrapCall (.waitpid pid) with
    | .waited status => pure (some status)
    | .interrupted => waitForChild pid retries
    | .failed => pure none

/-- The loop that reads the pipe, up to a number of interruptions. Nothing is `-1`. -/
def readKeepalive : ℕ → Wrap (Option ℕ)
  | 0 => giveUp
  | retries + 1 => do
    match ← wrapCall .readByte with
    | .byte => pure (some 1)
    | .endOfFile => pure (some 0)
    | .interrupted => readKeepalive retries
    | .failed => pure none

/-- The exit code for the status of the child. -/
def exitCode : WaitStatus → ℕ
  | .exited code => code
  | .signaled _ | .other => 1

/-- The part of `main` that runs the command and cleans up the shared objects. -/
def runCommand (retries : ℕ) (wrapperSem : FtSem) (shmName : CStr) : Wrap WrapEnd := do
  match ← wrapCall .fork with
  | some childPid =>
    wrapCall .closeWrite
    match ← waitForChild childPid retries with
    | none =>
      wrapCall (.shm (.perror "faketime: waitpid"))
      wrapCall .closeRead
      wrapShm (cleanupShobjs wrapperSem shmName)
      pure (.exits 1)
    | some status =>
      let bytesRead ← readKeepalive retries
      wrapCall .closeRead
      match bytesRead with
      | none =>
        wrapCall (.shm (.perror "faketime: read"))
        wrapShm (cleanupShobjs wrapperSem shmName)
        pure (.exits 1)
      | some _ =>
        wrapShm (cleanupShobjs wrapperSem shmName)
        pure (.exits (exitCode status))
  | none =>
    wrapCall (.shm (.perror "faketime: fork"))
    wrapCall .closeRead
    wrapCall .closeWrite
    wrapShm (cleanupShobjs wrapperSem shmName)
    pure (.exits 1)

/-- `main`, once `FAKETIME` is set. -/
def wrapperMain (retries pid : ℕ) : Wrap WrapEnd := do
  if !(← wrapCall .pipe) then
    wrapCall (.shm (.perror "faketime: pipe"))
    pure (.exits 1)
  else
    match ← wrapShm (createShobjs pid) with
    | none => pure (.exits 1)
    | some wrapperSem =>
      if !(← wrapCall .malloc) then
        wrapCall (.shm (.perror "faketime: malloc"))
        pure (.exits 1)
      else if !(← wrapCall .setenvPreload) then
        wrapCall (.shm (.perror "faketime: setenv"))
        pure (.exits 1)
      else runCommand retries wrapperSem (shmName pid)

/-! ### All processes -/

/-- A process: alive, and whether it holds the writing end of the pipe, or dead. -/
inductive ProcLife where
  | alive (holds : Bool)
  | dead (status : WaitStatus)
deriving DecidableEq

/-- The wrapper, which is process 0, and all that descend from it. -/
structure Household where
  /-- The files under `/dev/shm`. -/
  files : CStr → Option ShmFile
  /-- `FAKETIME_SHARED`, as the wrapper hands it on. -/
  shared : Option CStr
  /-- The processes there are, or have been. -/
  proc : ℕ → Option ProcLife
  /-- The bytes in the pipe. -/
  written : ℕ
  /-- The exit code of the wrapper, once it has ended. -/
  ended : Option ℕ

/-- What may go wrong. -/
inductive Trouble where
  /-- A descendant closes the writing end of the pipe. -/
  | closes
  /-- A descendant writes to it. -/
  | writes
  /-- The call of the wrapper fails. -/
  | unlink
  | shmUnlink
  | setenv
  | malloc
  | setenvPreload
  | waitpid
  | read
deriving DecidableEq

/-- Whether a call about the objects may fail. -/
def MayFail (S : Trouble → Prop) : ShmOp → Prop
  | .unlink _ => S .unlink
  | .shmUnlink _ => S .shmUnlink
  | .setenvShared _ => S .setenv
  | _ => True

/-- The wrapper begins, with files that others have left. -/
def Household.begins (found : CStr → Option ShmFile) : Household where
  files := found
  shared := none
  proc t := if t = 0 then some (.alive false) else none
  written := 0
  ended := none

/-- What becomes of a process. -/
def Household.setLife (m : Household) (t : ℕ) (v : ProcLife) : Household :=
  { m with proc := Function.update m.proc t (some v) }

/-- What the wrapper sees of the files, for a call that fails or not. -/
def Household.world (m : Household) (fails : Bool) : ShmWorld where
  pid := none
  files := m.files
  faketimeShared := m.shared
  shmCreator := false
  removed := []
  calls := 0
  fails _ _ := fails

/-- The wrapper has changed what it sees. -/
def Household.seen (m : Household) (w : ShmWorld) : Household :=
  { m with files := w.files, shared := w.faketimeShared }

/-- **What a call may answer, and what it makes of the household.** -/
def Household.Answers (S : Trouble → Prop) (t : ℕ) (m : Household) :
    (o : WrapOp) → o.Ans → Household → Prop
  | .shm o, r, m' => ∃ b : Bool, (b = true → MayFail S o) ∧ r = ((m.world b).answer o).1 ∧
      m' = m.seen ((m.world b).answer o).2
  | .pipe, r, m' => m' = if r = true then m.setLife t (.alive true) else m
  | .malloc, r, m' => (r = false → S .malloc) ∧ m' = m
  | .setenvPreload, r, m' => (r = false → S .setenvPreload) ∧ m' = m
  | .fork, none, m' => m' = m
  | .fork, some child, m' => ∃ holds, m.proc t = some (.alive holds) ∧ m.proc child = none ∧
      m' = m.setLife child (.alive holds)
  | .closeRead, _, m' => m' = m
  | .closeWrite, _, m' => m' = m.setLife t (.alive false)
  | .waitpid pid, .waited status, m' => m.proc pid = some (.dead status) ∧ m' = m
  | .waitpid _, .interrupted, m' => m' = m
  | .waitpid _, .failed, m' => S .waitpid ∧ m' = m
  | .readByte, .byte, m' => ∃ n, m.written = n + 1 ∧ m' = { m with written := n }
  | .readByte, .endOfFile, m' => m.written = 0 ∧ (∀ u, m.proc u ≠ some (.alive true)) ∧ m' = m
  | .readByte, .interrupted, m' => m' = m
  | .readByte, .failed, m' => S .read ∧ m' = m
  | .writeByte, _, m' => m' = { m with written := m.written + 1 }
  | .ends status, _, m' => m' = m.setLife t (.dead status)
  | .never, _, _ => False

/-- A process does one thing that concerns the wrapper, and goes on. -/
def liveWith (o : WrapOp) : Wrap WrapEnd := do
  let _ ← wrapCall o
  pure .goesOn

/-- **The household.** The wrapper runs once; whoever descends from it may start another process or
end, and close the pipe or write to it as far as that may happen. -/
def household (S : Trouble → Prop) (pid : Pid) : Machine wrapSys ℕ Household WrapEnd where
  ops := Household.Answers S
  start t m p :=
    (t = 0 ∧ m.ended = none ∧ ∃ retries, p = wrapperMain retries pid) ∨
      (t ≠ 0 ∧ (∃ holds, m.proc t = some (.alive holds)) ∧
        (p = liveWith .fork ∨ (∃ status, p = liveWith (.ends status)) ∨
          (S .closes ∧ p = liveWith .closeWrite) ∨
          (S .writes ∧ p = liveWith .writeByte)))
  finish t a m m' :=
    match a with
    | .goesOn => m' = m
    | .exits code => m' = { m.setLife t (.dead (.exited code)) with ended := some code }

/-- The objects of the wrapper are as those need them who find them through `FAKETIME_SHARED`. -/
def Household.Served (pid : Pid) (m : Household) : Prop :=
  m.shared = some (sharedObjs pid) ∧ (m.files (lockPath pid)).isSome = true ∧
    ∃ file, m.files (shmPath (shmName pid)) = some file ∧ file.length = ftSharedSize ∧
      ftSharedHeaderValid file.block = true

/-- No descendant is alive. -/
def Household.Empty (m : Household) : Prop := ∀ t, t ≠ 0 → ∀ holds, m.proc t ≠ some (.alive holds)

/-- **The wrapper keeps its word**: as long as a descendant is alive it finds the objects, and once
the wrapper has ended the files are as it has found them. -/
def KeepsWord (pid : Pid) (found : CStr → Option ShmFile) (s : Pool wrapSys ℕ Household WrapEnd) :
    Prop :=
  (s.mem.Empty ∨ s.mem.Served pid) ∧ (s.code 0 = none → s.mem.files = found)

/-! ### What the wrapper does with its objects -/

/-- The two objects of the wrapper, and the variable that names them. -/
structure Pair where
  lock : Option ShmFile
  block : Option ShmFile
  shared : Option CStr

/-- What the wrapper has of its objects. -/
def Household.pair (t : Pid) (m : Household) : Pair :=
  ⟨m.files (lockPath t), m.files (shmPath (shmName t)), m.shared⟩

/-- The calls about the objects that the wrapper makes. -/
def Pair.May (t : Pid) : ShmOp → Prop
  | .openExcl path | .unlink path => path = lockPath t
  | .shmOpen name | .shmUnlink name => name = shmName t
  | .ftruncate fd _ | .assign fd _ => fd = some (shmPath (shmName t))
  | .setShmCreator _ => False
  | _ => True

/-- What they answer, and what they make of the objects. -/
def Pair.Answers (v : Pair) : (o : ShmOp) → o.Ans → Pair → Prop
  | .openExcl path, r, v' =>
    (r = none ∧ v' = v) ∨ (v.lock = none ∧ r = some path ∧ v' = { v with lock := some .empty })
  | .shmOpen name, r, v' =>
    (r = none ∧ v' = v) ∨
      (v.block = none ∧ r = some (shmPath name) ∧ v' = { v with block := some .empty })
  | .ftruncate _ length, r, v' =>
    v' = if r = true then { v with block := v.block.map fun f => { f with length := length } }
      else v
  | .assign _ g, _, v' =>
    v' = { v with block := v.block.map fun f => { f with block := g f.block } }
  | .mmap fd, r, v' => (r = none ∨ r = fd) ∧ v' = v
  | .unlink _, _, v' => v' = { v with lock := none }
  | .shmUnlink _, _, v' => v' = { v with block := none }
  | .setenvShared value, r, v' => r = true ∧ v' = { v with shared := some value }
  | _, _, v' => v' = v

section Objects

variable {S : Trouble → Prop} {pid : Pid} {m m' : Household} {w : ShmWorld}

theorem change_self {f : ShmFile → ShmFile} {path : CStr} :
    (w.change (some path) f).files path = (w.files path).map f := by
  unfold ShmWorld.change
  rw [Option.bind_some]
  cases hfile : w.files path with
  | none => rw [Option.map_none, ShmWorld.next, hfile, Option.map_none]
  | some file => simp [ShmWorld.put]

theorem remove_self {path : CStr} : (w.remove false path).2.files path = none := by
  rw [← Option.not_isSome_iff_eq_none, isSome_remove]
  exact Bool.false_ne_true

/-- **What the wrapper sees of its calls about the objects.** -/
theorem pairAnswers_of_answers {o : ShmOp} {r : o.Ans} {b : Bool} (hb : b = true → MayFail S o)
    (hfails : ∀ c, ¬ S c) (ho : Pair.May pid o) (hr : r = ((m.world b).answer o).1) :
    (m.pair pid).Answers o r ((m.seen ((m.world b).answer o).2).pair pid) := by
  subst hr
  have hshm : shmPath (shmName pid) ≠ lockPath pid := (lockPath_ne_shmPath _ _).symm
  have hkept : ∀ path, path ∉ o.touches → ((m.world b).answer o).2.files path = m.files path :=
    fun path h => answer_kept h
  have hvars : o.KeepsVars → ((m.world b).answer o).2.faketimeShared = m.shared :=
    fun h => (answer_vars h).1
  have hpair : ∀ {lock block shared}, ((m.world b).answer o).2.files (lockPath pid) = lock →
      ((m.world b).answer o).2.files (shmPath (shmName pid)) = block →
      ((m.world b).answer o).2.faketimeShared = shared →
      (m.seen ((m.world b).answer o).2).pair pid = ⟨lock, block, shared⟩ := by
    rintro _ _ _ rfl rfl rfl
    rfl
  have hnone : ∀ path, ((m.world b).files path).isSome = false → m.files path = none := by
    intro path h
    rw [← Option.not_isSome_iff_eq_none, Bool.not_eq_true]
    exact h
  -- each call touches one of the two objects at most, and its name is the wrapper's own
  cases o with
  | openExcl path =>
    obtain rfl : path = lockPath pid := ho
    rcases create_cases (m.world b) b (lockPath pid) with hc | ⟨hfree, hc⟩
    · have hc' : (m.world b).answer (.openExcl (lockPath pid)) = _ := hc
      exact Or.inl ⟨congrArg Prod.fst hc', hpair (by rw [hc']; rfl) (hkept _ hshm) (hvars trivial)⟩
    · have hc' : (m.world b).answer (.openExcl (lockPath pid)) = _ := hc
      refine Or.inr ⟨hnone _ hfree, congrArg Prod.fst hc', hpair ?_ (hkept _ hshm) (hvars trivial)⟩
      rw [hc']
      exact Function.update_self ..
  | shmOpen name =>
    obtain rfl : name = shmName pid := ho
    rcases create_cases (m.world b) b (shmPath (shmName pid)) with hc | ⟨hfree, hc⟩
    · have hc' : (m.world b).answer (.shmOpen (shmName pid)) = _ := hc
      exact Or.inl ⟨congrArg Prod.fst hc', hpair (hkept _ hshm.symm) (by rw [hc']; rfl)
        (hvars trivial)⟩
    · have hc' : (m.world b).answer (.shmOpen (shmName pid)) = _ := hc
      refine Or.inr ⟨hnone _ hfree, congrArg Prod.fst hc', hpair (hkept _ hshm.symm) ?_
        (hvars trivial)⟩
      rw [hc']
      exact Function.update_self ..
  | ftruncate fd length =>
    obtain rfl : fd = some (shmPath (shmName pid)) := ho
    cases b with
    | true => exact hpair rfl rfl rfl
    | false =>
      have hc : (m.world false).answer (.ftruncate (some (shmPath (shmName pid))) length) =
        (true, (m.world false).change (some (shmPath (shmName pid))) _) := rfl
      refine (hpair (hkept _ fun h => hshm (Option.some.inj h)) ?_ (hvars trivial)).trans
        (if_pos rfl).symm
      rw [hc]
      exact change_self
  | assign fd g =>
    obtain rfl : fd = some (shmPath (shmName pid)) := ho
    exact hpair (hkept _ fun h => hshm (Option.some.inj h)) change_self (hvars trivial)
  | mmap fd =>
    refine ⟨?_, hpair rfl rfl rfl⟩
    cases b with
    | true => exact Or.inl rfl
    | false => exact Or.inr rfl
  | unlink path =>
    obtain rfl : path = lockPath pid := ho
    obtain rfl : b = false := by
      rw [← Bool.not_eq_true]
      -- taking an object away is one of the calls that do not fail here
      exact fun h => hfails _ (hb h)
    exact hpair remove_self (hkept _ hshm) (hvars trivial)
  | shmUnlink name =>
    obtain rfl : name = shmName pid := ho
    obtain rfl : b = false := by
      rw [← Bool.not_eq_true]
      exact fun h => hfails _ (hb h)
    exact hpair (hkept _ hshm.symm) remove_self (hvars trivial)
  | setenvShared value =>
    obtain rfl : b = false := by
      rw [← Bool.not_eq_true]
      exact fun h => hfails _ (hb h)
    exact ⟨rfl, rfl⟩
  | setShmCreator b' => exact ho.elim
  | _ => exact hpair rfl rfl rfl

end Objects

/-- The objects of a wrapper that has made them. -/
structure Pair.Serves (t : Pid) (v : Pair) : Prop where
  shared : v.shared = some (sharedObjs t)
  lock : v.lock.isSome = true
  block : ∃ file, v.block = some file ∧ file.length = ftSharedSize ∧
    ftSharedHeaderValid file.block = true

section Making

variable {β : Type} {t : Pid} {v : Pair} {Q : β → Pair → Prop}

/-- A call that changes nothing. -/
theorem wp_quietPair {o : ShmOp} {f : o.Ans → Shm β} (hmay : Pair.May t o)
    (hquiet : ∀ r v', v.Answers o r v' → v' = v)
    (h : ∀ r, (f r).Wp (fun _ => Pair.May t) Pair.Answers Q v) :
    (shmCall o >>= f).Wp (fun _ => Pair.May t) Pair.Answers Q v := by
  refine ⟨hmay, fun r v' hv' => ?_⟩
  obtain rfl := hquiet r v' hv'
  exact h r

theorem wp_unlinkPair {sem : FtSem} (hname : sem.name = semName t) {f : Bool → Shm β}
    (h : ∀ r, (f r).Wp (fun _ => Pair.May t) Pair.Answers Q { v with lock := none }) :
    (ftSemUnlink sem >>= f).Wp (fun _ => Pair.May t) Pair.Answers Q v := by
  rw [ftSemUnlink, hname, ftSemNameToPath_semName]
  refine ⟨rfl, ?_⟩
  rintro r _ rfl
  exact h r

/-- **The clean-up removes both objects.** -/
theorem wp_cleanupShobjs {sem : FtSem} (hname : sem.name = semName t) :
    (cleanupShobjs sem (shmName t)).Wp (fun _ => Pair.May t) Pair.Answers
      (fun _ v' => v' = ⟨none, none, v.shared⟩) v := by
  have hblock : ∀ v' : Pair, v' = { v with lock := none } →
      (do if !(← shmCall (.shmUnlink (shmName t))) then
        shmCall (.perror "faketime: shm_unlink") : Shm Unit).Wp (fun _ => Pair.May t) Pair.Answers
        (fun _ v' => v' = ⟨none, none, v.shared⟩) v' := by
    rintro _ rfl
    refine ⟨rfl, ?_⟩
    rintro r _ rfl
    cases r with
    | true => rfl
    | false => exact ⟨trivial, fun _ _ h => h⟩
  refine wp_unlinkPair hname fun r => ?_
  cases r with
  | true => exact hblock _ rfl
  | false => exact wp_quietPair trivial (fun _ _ h => h) fun _ => hblock _ rfl

theorem wp_cleanupShobjs_bind {sem : FtSem} (hname : sem.name = semName t) {f : Unit → Shm β}
    (h : (f ()).Wp (fun _ => Pair.May t) Pair.Answers Q ⟨none, none, v.shared⟩) :
    (cleanupShobjs sem (shmName t) >>= f).Wp (fun _ => Pair.May t) Pair.Answers Q v := by
  refine (wp_cleanupShobjs hname).bind ?_
  rintro _ _ rfl
  exact h

/-- How the making of the objects ends: they are there, or as they were. -/
def Pair.Made (t : Pid) (v : Pair) (r : Option FtSem) (v' : Pair) : Prop :=
  (r = none ∧ v'.lock = v.lock ∧ v'.block = v.block) ∨
    ∃ sem, r = some sem ∧ sem.name = semName t ∧ v.lock = none ∧ v.block = none ∧ v'.Serves t

/-- A failure while the block is open. -/
theorem wp_fails_open {sem : FtSem} (hname : sem.name = semName t) {msg : String} {fd : Fd}
    {shared : Option CStr} (v' : Pair) : (do
      shmCall (.perror msg)
      let _ ← shmCall (.close fd)
      cleanupShobjs sem (shmName t)
      pure none : Shm (Option FtSem)).Wp (fun _ => Pair.May t) Pair.Answers
        (Pair.Made t ⟨none, none, shared⟩) v' :=
  wp_quietPair trivial (fun _ _ h => h) fun _ => wp_quietPair trivial (fun _ _ h => h) fun _ =>
    wp_cleanupShobjs_bind hname (Or.inl ⟨rfl, rfl, rfl⟩)

theorem wp_wrapperCleans {sem : FtSem} (hname : sem.name = semName t) {msg : String}
    {shared : Option CStr} (v' : Pair) :
    (wrapperCleans msg sem (shmName t) : Shm (Option FtSem)).Wp (fun _ => Pair.May t) Pair.Answers
      (Pair.Made t ⟨none, none, shared⟩) v' :=
  wp_quietPair trivial (fun _ _ h => h) fun _ =>
    wp_cleanupShobjs_bind hname (Or.inl ⟨rfl, rfl, rfl⟩)

theorem wp_fillShobjs {sem : FtSem} (hname : sem.name = semName t) {shared : Option CStr} :
    (fillShobjs sem (some (shmPath (shmName t))) (semName t) (shmName t)).Wp (fun _ => Pair.May t)
      Pair.Answers (Pair.Made t ⟨none, none, shared⟩) ⟨some .empty, some .empty, shared⟩ := by
  refine ⟨rfl, fun sized v' hv' => ?_⟩
  obtain rfl : v' = _ := hv'
  cases sized with
  | false => exact wp_fails_open hname _
  | true =>
    refine ⟨trivial, ?_⟩
    rintro mapping _ ⟨hmapping, rfl⟩
    cases mapping with
    | none => exact wp_fails_open hname _
    | some mapping =>
      obtain rfl : mapping = shmPath (shmName t) := by
        rcases hmapping with h | h
        · cases h
        · exact Option.some.inj h
      refine wp_quietPair trivial (fun _ _ h => h) fun closed => ?_
      split
      next => exact wp_wrapperCleans hname _
      refine wp_quietPair trivial (fun _ _ h => h) fun locked => ?_
      split
      next => exact wp_wrapperCleans hname _
      refine ⟨rfl, ?_⟩
      rintro - _ rfl
      refine wp_quietPair trivial (fun _ _ h => h) fun unmapped => ?_
      split
      next => exact wp_wrapperCleans hname _
      refine wp_quietPair trivial (fun _ _ h => h) fun unlocked => ?_
      split
      next => exact wp_wrapperCleans hname _
      split
      next => exact wp_wrapperCleans hname _
      refine ⟨trivial, ?_⟩
      rintro _ _ ⟨rfl, rfl⟩
      refine wp_quietPair trivial (fun _ _ h => h) fun _ => ?_
      exact Or.inr ⟨_, rfl, hname, rfl, rfl, rfl, rfl, _, rfl, rfl, rfl⟩

/-- **The wrapper makes both objects or leaves the files as they were.** -/
theorem wp_createShobjs : (createShobjs t).Wp (fun _ => Pair.May t) Pair.Answers (Pair.Made t v)
    v := by
  unfold createShobjs
  split
  next => exact wp_quietPair trivial (fun _ _ h => h) fun _ => Or.inl ⟨rfl, rfl, rfl⟩
  split
  next => exact wp_quietPair trivial (fun _ _ h => h) fun _ => Or.inl ⟨rfl, rfl, rfl⟩
  rw [ftSemCreate, ftSemNameToPath_semName]
  refine ⟨rfl, ?_⟩
  rintro r _ (⟨rfl, rfl⟩ | ⟨hlock, rfl, rfl⟩)
  · exact wp_quietPair trivial (fun _ _ h => h) fun _ =>
      wp_quietPair trivial (fun _ _ h => h) fun _ => Or.inl ⟨rfl, rfl, rfl⟩
  · have hname : (semName t).take 255 = semName t :=
      List.take_of_length_le (by have := names_short t; omega)
    refine ⟨rfl, ?_⟩
    rintro r _ (⟨rfl, rfl⟩ | ⟨hblock, rfl, rfl⟩)
    · refine wp_quietPair trivial (fun _ _ h => h) fun _ => ?_
      exact wp_unlinkPair hname fun _ => Or.inl ⟨rfl, hlock.symm, rfl⟩
    · obtain ⟨lock, block, shared⟩ := v
      obtain rfl : lock = none := hlock
      obtain rfl : block = none := hblock
      exact wp_fillShobjs hname

end Making

/-! ### The wrapper among the others -/

section Keeping

variable {S : Trouble → Prop} {pid : Pid} {found : CStr → Option ShmFile} {m m' : Household}
  {t : ℕ} {holds : Bool}

/-- What holds between any two calls, as long as nobody closes the pipe or writes to it. -/
structure Household.Good (pid : Pid) (m : Household) : Prop where
  served : m.Empty ∨ m.Served pid
  holds : ∀ t, t ≠ 0 → ∀ b, m.proc t = some (.alive b) → b = true
  written : m.written = 0
  wrapper : m.proc 0 ≠ none

/-- What the others leave alone. -/
structure Household.Apart (m m' : Household) : Prop where
  files : m'.files = m.files
  shared : m'.shared = m.shared
  ended : m'.ended = m.ended
  wrapper : m'.proc 0 = m.proc 0
  empty : m.Empty → m'.Empty

theorem Household.Apart.refl (m : Household) : m.Apart m := ⟨rfl, rfl, rfl, rfl, id⟩

theorem Household.Apart.trans {m'' : Household} (h : m.Apart m') (h' : m'.Apart m'') :
    m.Apart m'' :=
  ⟨h'.files.trans h.files, h'.shared.trans h.shared, h'.ended.trans h.ended,
    h'.wrapper.trans h.wrapper, fun he => h'.empty (h.empty he)⟩

/-- Nobody but the wrapper relies on anything. -/
def keeping (pid : Pid) : Protocol ℕ Household where
  inv := Household.Good pid
  rely t m m' := t = 0 → m.Apart m'
  rely_refl _ m _ := .refl m
  rely_trans _ _ _ _ h h' h0 := (h h0).trans (h' h0)

theorem Household.Apart.pair (h : m.Apart m') (t : Pid) : m'.pair t = m.pair t := by
  rw [Household.pair, Household.pair, h.files, h.shared]

theorem Household.Served.apart (hm : m.Served pid) (h : m.Apart m') : m'.Served pid := by
  rw [Household.Served, h.files, h.shared]
  exact hm

theorem proc_setLife (m : Household) (t : ℕ) (v : ProcLife) : (m.setLife t v).proc t = some v :=
  Function.update_self (f := m.proc) ..

theorem proc_setLife_of_ne (m : Household) {u : ℕ} (v : ProcLife) (hu : u ≠ t) :
    (m.setLife t v).proc u = m.proc u :=
  Function.update_of_ne (f := m.proc) hu ..

/-- The wrapper is not one of those that descend from it. -/
theorem empty_setLife_wrapper {v : ProcLife} : (m.setLife 0 v).Empty ↔ m.Empty := by
  refine forall_congr' fun u => imp_congr_right fun hu => ?_
  rw [proc_setLife_of_ne m v hu]

/-- Whatever becomes of the wrapper is none of the others' business. -/
theorem Household.Good.setLife_wrapper (hm : m.Good pid) (v : ProcLife) :
    (m.setLife 0 v).Good pid where
  served := hm.served.imp empty_setLife_wrapper.mpr id
  holds u hu := by
    rw [proc_setLife_of_ne m v hu]
    exact hm.holds u hu
  written := hm.written
  wrapper := by
    rw [proc_setLife]
    exact nofun

/-- **One more descendant**, who finds the objects. -/
theorem Household.Good.fork (hm : m.Good pid) (hs : m.Served pid) {child : ℕ}
    (hchild : m.proc child = none) : (m.setLife child (.alive true)).Good pid where
  served := Or.inr hs
  holds u hu b hb := by
    by_cases h : u = child
    · rw [h, proc_setLife] at hb
      cases hb
      rfl
    · rw [proc_setLife_of_ne m _ h] at hb
      exact hm.holds u hu b hb
  written := hm.written
  wrapper := by
    have hne : 0 ≠ child := by
      rintro rfl
      exact hm.wrapper hchild
    rw [proc_setLife_of_ne m _ hne]
    exact hm.wrapper

/-- One less. -/
theorem Household.Good.dies (hm : m.Good pid) (ht : t ≠ 0) (status : WaitStatus) :
    (m.setLife t (.dead status)).Good pid ∧ m.Apart (m.setLife t (.dead status)) := by
  have halive : ∀ u b, (m.setLife t (.dead status)).proc u = some (.alive b) →
      m.proc u = some (.alive b) := by
    intro u b hb
    by_cases h : u = t
    · rw [h, proc_setLife] at hb
      cases hb
    · rwa [proc_setLife_of_ne m _ h] at hb
  have hempty : m.Empty → (m.setLife t (.dead status)).Empty :=
    fun he u hu b hb => he u hu b (halive u b hb)
  have hwrapper := proc_setLife_of_ne m (.dead status) ht.symm
  have hself : (m.setLife t (.dead status)).proc 0 ≠ none := by
    rw [hwrapper]
    exact hm.wrapper
  exact ⟨⟨hm.served.imp hempty id, fun u hu b hb => hm.holds u hu b (halive u b hb), hm.written,
    hself⟩, rfl, rfl, rfl, hwrapper, hempty⟩

/-- **What a descendant does leaves the wrapper alone.** -/
theorem safe_liveWith (ht : t ≠ 0) {o : WrapOp} (ho : o = .fork ∨ ∃ status, o = .ends status) :
    (keeping pid).Safe (household S pid) t (fun a _ => a = .goesOn) (liveWith o) m := by
  rintro m₁ - hm r m₂ h
  have key : m₂.Good pid ∧ m₁.Apart m₂ := by
    rcases ho with rfl | ⟨status, rfl⟩
    · cases r with
      | none =>
        obtain rfl : m₂ = m₁ := h
        exact ⟨hm, .refl _⟩
      | some child =>
        obtain ⟨holds, halive, hchild, rfl⟩ := h
        obtain rfl := hm.holds t ht holds halive
        have hnot : ¬ m₁.Empty := fun he => he t ht true halive
        have hne : 0 ≠ child := by
          rintro rfl
          exact hm.wrapper hchild
        exact ⟨hm.fork (hm.served.resolve_left hnot) hchild, rfl, rfl, rfl,
          proc_setLife_of_ne m₁ _ hne, fun he => absurd he hnot⟩
    · obtain rfl : m₂ = _ := h
      exact hm.dies ht status
  exact ⟨key.1, fun _ _ _ => key.2, fun _ _ _ => rfl⟩

/-- **The wrapper alone**: it has not ended, and whatever files it has not made are as they were. -/
structure Household.Alone (pid : Pid) (found : CStr → Option ShmFile) (holds : Bool)
    (m : Household) : Prop where
  empty : m.Empty
  ended : m.ended = none
  wrapper : m.proc 0 = some (.alive holds)
  others : ∀ path, path ≠ lockPath pid → path ≠ shmPath (shmName pid) →
    m.files path = found path

theorem Household.Alone.apart (hm : m.Alone pid found holds) (h : m.Apart m') :
    m'.Alone pid found holds where
  empty := h.empty hm.empty
  ended := h.ended.trans hm.ended
  wrapper := h.wrapper.trans hm.wrapper
  others path hlock hblock := by
    rw [h.files]
    exact hm.others path hlock hblock

/-- If its own are as they were too, all are. -/
theorem Household.Alone.files_eq (hm : m.Alone pid found holds)
    (hlock : m.files (lockPath pid) = found (lockPath pid))
    (hblock : m.files (shmPath (shmName pid)) = found (shmPath (shmName pid))) :
    m.files = found := by
  funext path
  by_cases h : path = lockPath pid
  · rw [h, hlock]
  · by_cases h' : path = shmPath (shmName pid)
    · rw [h', hblock]
    · exact hm.others path h h'

/-- The calls about the objects, among the others. -/
def Pair.WrapMay (t : Pid) : WrapOp → Prop
  | .shm o => Pair.May t o
  | _ => False

def Pair.WrapAnswers (v : Pair) : (o : WrapOp) → o.Ans → Pair → Prop
  | .shm o, r, v' => v.Answers o r v'
  | _, _, _ => False

/-- A call about the objects changes no other file. -/
theorem touches_of_may {o : ShmOp} {path : CStr} {t : Pid} (ho : Pair.May t o)
    (hpath : path ∈ o.touches) : path = lockPath t ∨ path = shmPath (shmName t) := by
  cases o with
  | openExcl path' | unlink path' => exact Or.inl (hpath.trans ho)
  | shmOpen name | shmUnlink name => exact Or.inr (hpath.trans (congrArg shmPath ho))
  | ftruncate fd length | assign fd g =>
    exact Or.inr (Option.some.inj ((show fd = some path from hpath).symm.trans ho))
  | _ => exact hpath.elim

/-- **As long as nobody descends from the wrapper**, it may do with its objects what it likes. -/
theorem safe_wrapShm {β : Type} (hfails : ∀ c, ¬ S c) {p : Shm β} {Q : β → Pair → Prop}
    (hp : p.Wp (fun _ => Pair.May pid) Pair.Answers Q (m.pair pid))
    (hm : m.Alone pid found holds) :
    (keeping pid).Safe (household S pid) 0 (fun a m => m.Alone pid found holds ∧ Q a (m.pair pid))
      (wrapShm p) m := by
  refine Protocol.safe_of_wp (V := Household.pair pid) (A := fun _ => Pair.WrapMay pid)
    (O := Pair.WrapAnswers) ?_ ?_ (hp.via (fun _ _ h => h) fun _ _ _ _ h => h) hm
  · intro m₁ m₂ hr _ hm₁
    exact ⟨hm₁.apart (hr rfl), (hr rfl).pair pid⟩
  · intro m₁ o r m₂ ho hgood hm₁ h
    cases o with
    | shm o =>
      obtain ⟨b, hb, hr, rfl⟩ := h
      have hgood' : (m₁.seen ((m₁.world b).answer o).2).Good pid :=
        ⟨Or.inl hm₁.empty, hgood.holds, hgood.written, hgood.wrapper⟩
      refine ⟨hgood', fun u hu hu0 => absurd hu0 hu,
        ⟨hm₁.empty, hm₁.ended, hm₁.wrapper, fun path hlock hblock => ?_⟩,
        pairAnswers_of_answers hb hfails ho hr⟩
      have hpath : path ∉ o.touches := fun h => (touches_of_may ho h).elim hlock hblock
      exact (answer_kept (w := m₁.world b) hpath).trans (hm₁.others path hlock hblock)
    | _ => exact ho.elim

/-- One call of the wrapper. -/
theorem safe_wrapCall {β : Type} {o : WrapOp} {k : o.Ans → Wrap β} {Q : β → Household → Prop}
    (h : ∀ m₁, m.Apart m₁ → m₁.Good pid → ∀ r m₂, m₁.Answers S 0 o r m₂ →
      m₂.Good pid ∧ (keeping pid).Safe (household S pid) 0 Q (k r) m₂) :
    (keeping pid).Safe (household S pid) 0 Q (wrapCall o >>= k) m := by
  intro m₁ hr hm r m₂ ho
  obtain ⟨hgood, hsafe⟩ := h m₁ (hr rfl) hm r m₂ ho
  exact ⟨hgood, fun u hu hu0 => absurd hu0 hu, hsafe⟩

/-- **The wrapper among its descendants**, who find the objects. -/
structure Household.Among (pid : Pid) (found : CStr → Option ShmFile) (holds : Bool)
    (m : Household) : Prop where
  served : m.Served pid
  ended : m.ended = none
  wrapper : m.proc 0 = some (.alive holds)
  others : ∀ path, path ≠ lockPath pid → path ≠ shmPath (shmName pid) →
    m.files path = found path

theorem Household.Among.apart (hm : m.Among pid found holds) (h : m.Apart m') :
    m'.Among pid found holds where
  served := hm.served.apart h
  ended := h.ended.trans hm.ended
  wrapper := h.wrapper.trans hm.wrapper
  others path hlock hblock := by
    rw [h.files]
    exact hm.others path hlock hblock

/-- Without them it is alone. -/
theorem Household.Among.alone (hm : m.Among pid found holds) (he : m.Empty) :
    m.Alone pid found holds :=
  ⟨he, hm.ended, hm.wrapper, hm.others⟩

/-- The wrapper ends, and the files are as it has found them. -/
def LeavesFound (found : CStr → Option ShmFile) (a : WrapEnd) (m : Household) : Prop :=
  (∃ code, a = .exits code) ∧ m.files = found

theorem safe_exits {code : ℕ} (h : m.files = found) :
    (keeping pid).Safe (household S pid) 0 (LeavesFound found) (pure (.exits code)) m :=
  fun _ hr _ => ⟨⟨code, rfl⟩, (hr rfl).files.trans h⟩

/-- A message changes nothing. -/
theorem safe_perror {β : Type} {msg : String} {p : Wrap β} {Q : β → Household → Prop}
    (h : ∀ m₁, m.Apart m₁ → m₁.Good pid → (keeping pid).Safe (household S pid) 0 Q p m₁) :
    (keeping pid).Safe (household S pid) 0 Q (wrapCall (.shm (.perror msg)) >>= fun _ => p) m := by
  refine safe_wrapCall fun m₁ hr hm r m₂ ho => ?_
  obtain ⟨b, -, -, rfl⟩ := ho
  exact ⟨hm, h m₁ hr hm⟩

/-- Nor does it that the wrapper closes its end of the pipe. -/
theorem safe_closeRead {β : Type} {p : Wrap β} {Q : β → Household → Prop}
    (h : ∀ m₁, m.Apart m₁ → m₁.Good pid → (keeping pid).Safe (household S pid) 0 Q p m₁) :
    (keeping pid).Safe (household S pid) 0 Q (wrapCall .closeRead >>= fun _ => p) m := by
  refine safe_wrapCall fun m₁ hr hm r m₂ ho => ?_
  obtain rfl : m₂ = m₁ := ho
  exact ⟨hm, h _ hr hm⟩

variable (hfails : ∀ c, ¬ S c) {sem : FtSem} (hname : sem.name = semName pid)
  (hlock : found (lockPath pid) = none) (hblock : found (shmPath (shmName pid)) = none)

include hfails hname hlock hblock in
/-- **The last thing the wrapper does**, alone: it cleans up. -/
theorem safe_cleanup {code : ℕ} (hm : m.Alone pid found holds) :
    (keeping pid).Safe (household S pid) 0 (LeavesFound found)
      (wrapShm (cleanupShobjs sem (shmName pid)) >>= fun _ => pure (.exits code)) m := by
  refine (safe_wrapShm hfails (wp_cleanupShobjs hname) hm).bind ?_
  rintro _ m₁ - ⟨hm₁, hv⟩
  refine safe_exits (hm₁.files_eq ?_ ?_)
  · rw [hlock]
    exact congrArg Pair.lock hv
  · rw [hblock]
    exact congrArg Pair.block hv

include hfails in
/-- The wrapper waits for the command, however often it is interrupted. -/
theorem safe_waitForChild {child : ℕ} {k : Option WaitStatus → Wrap WrapEnd} (retries : ℕ)
    (hm : m.Among pid found holds)
    (h : ∀ status m₁, m₁.Among pid found holds →
      (keeping pid).Safe (household S pid) 0 (LeavesFound found) (k (some status)) m₁) :
    (keeping pid).Safe (household S pid) 0 (LeavesFound found) (waitForChild child retries >>= k)
      m := by
  induction retries generalizing m with
  | zero => exact safe_wrapCall fun _ _ _ r => r.elim
  | succ retries ih =>
    refine safe_wrapCall fun m₁ hr hgood r m₂ ho => ?_
    cases r with
    | waited status =>
      obtain ⟨-, rfl⟩ := ho
      exact ⟨hgood, h status _ (hm.apart hr)⟩
    | interrupted =>
      obtain rfl : m₂ = m₁ := ho
      exact ⟨hgood, ih (hm.apart hr)⟩
    | failed => exact absurd ho.1 (hfails _)

include hfails in
/-- **It reads nothing until it is alone.** -/
theorem safe_readKeepalive {k : Option ℕ → Wrap WrapEnd} (retries : ℕ)
    (hm : m.Among pid found holds)
    (h : ∀ m₁, m₁.Alone pid found holds →
      (keeping pid).Safe (household S pid) 0 (LeavesFound found) (k (some 0)) m₁) :
    (keeping pid).Safe (household S pid) 0 (LeavesFound found) (readKeepalive retries >>= k) m := by
  induction retries generalizing m with
  | zero => exact safe_wrapCall fun _ _ _ r => r.elim
  | succ retries ih =>
    refine safe_wrapCall fun m₁ hr hgood r m₂ ho => ?_
    cases r with
    | byte =>
      obtain ⟨n, hn, -⟩ := ho
      rw [hgood.written] at hn
      cases hn
    | endOfFile =>
      obtain ⟨-, hclosed, rfl⟩ := ho
      refine ⟨hgood, h _ ((hm.apart hr).alone fun t ht b hb => ?_)⟩
      -- whoever is alive holds the pipe
      obtain rfl := hgood.holds t ht b hb
      exact hclosed t hb
    | interrupted =>
      obtain rfl : m₂ = m₁ := ho
      exact ⟨hgood, ih (hm.apart hr)⟩
    | failed => exact absurd ho.1 (hfails _)

include hfails hname hlock hblock in
theorem safe_runCommand (retries : ℕ) (hm : m.Alone pid found true)
    (hs : (m.pair pid).Serves pid) :
    (keeping pid).Safe (household S pid) 0 (LeavesFound found)
      (runCommand retries sem (shmName pid)) m := by
  refine safe_wrapCall fun m₁ hr hgood r m₂ ho => ?_
  have hm₁ := hm.apart hr
  cases r with
  | none =>
    obtain rfl : m₂ = m₁ := ho
    refine ⟨hgood, safe_perror fun m₃ hr₃ _ => safe_closeRead fun m₄ hr₄ _ => ?_⟩
    refine safe_wrapCall fun m₅ hr₅ hgood₅ r m₆ ho => ?_
    obtain rfl : m₆ = _ := ho
    have hm₅ := ((hm₁.apart hr₃).apart hr₄).apart hr₅
    have hm₆ : (m₅.setLife 0 (.alive false)).Alone pid found false :=
      ⟨empty_setLife_wrapper.mpr hm₅.empty, hm₅.ended, proc_setLife .., hm₅.others⟩
    exact ⟨hgood₅.setLife_wrapper _, safe_cleanup hfails hname hlock hblock hm₆⟩
  | some child =>
    obtain ⟨b, hb, hchild, rfl⟩ := ho
    obtain rfl : b = true := by
      rw [hm₁.wrapper] at hb
      cases hb
      rfl
    have hserved : m₁.Served pid := by
      rw [← hr.pair pid] at hs
      exact ⟨hs.shared, hs.lock, hs.block⟩
    have hne : 0 ≠ child := by
      rintro rfl
      exact hgood.wrapper hchild
    have hm₂ : (m₁.setLife child (.alive true)).Among pid found true :=
      ⟨hserved, hm₁.ended, (proc_setLife_of_ne m₁ _ hne).trans hm₁.wrapper, hm₁.others⟩
    refine ⟨hgood.fork hserved hchild, safe_wrapCall fun m₃ hr₃ hgood₃ r m₄ ho => ?_⟩
    obtain rfl : m₄ = _ := ho
    have hm₃ := hm₂.apart hr₃
    have hm₄ : (m₃.setLife 0 (.alive false)).Among pid found false :=
      ⟨hm₃.served, hm₃.ended, proc_setLife .., hm₃.others⟩
    refine ⟨hgood₃.setLife_wrapper _, safe_waitForChild hfails retries hm₄ fun status m₅ hm₅ => ?_⟩
    refine safe_readKeepalive hfails retries hm₅ fun m₆ hm₆ => ?_
    exact safe_closeRead fun m₇ hr₇ _ => safe_cleanup hfails hname hlock hblock (hm₆.apart hr₇)

include hfails in
/-- **The wrapper leaves the files as it has found them**, whatever its descendants do meanwhile. -/
theorem safe_wrapperMain (retries : ℕ) (hm : m.Alone pid found false) (hfiles : m.files = found) :
    (keeping pid).Safe (household S pid) 0 (LeavesFound found) (wrapperMain retries pid) m := by
  refine safe_wrapCall fun m₁ hr hgood r m₂ ho => ?_
  have hm₁ := hm.apart hr
  obtain rfl : m₂ = _ := ho
  cases r with
  | false =>
    refine ⟨hgood, safe_perror fun m₃ hr₃ _ => safe_exits ?_⟩
    exact hr₃.files.trans (hr.files.trans hfiles)
  | true =>
    have hm₂ : (m₁.setLife 0 (.alive true)).Alone pid found true :=
      ⟨empty_setLife_wrapper.mpr hm₁.empty, hm₁.ended, proc_setLife .., hm₁.others⟩
    have hpair : (m₁.setLife 0 (.alive true)).pair pid =
        ⟨found (lockPath pid), found (shmPath (shmName pid)), m₁.shared⟩ := by
      rw [← hr.files.trans hfiles]
      rfl
    refine ⟨hgood.setLife_wrapper _, (safe_wrapShm hfails wp_createShobjs hm₂).bind ?_⟩
    rintro _ m₃ - ⟨hm₃, ⟨rfl, hlock, hblock⟩ | ⟨sem, rfl, hname, hlock, hblock, hs⟩⟩
    · rw [hpair] at hlock hblock
      exact safe_exits (hm₃.files_eq hlock hblock)
    · rw [hpair] at hlock hblock
      refine safe_wrapCall fun m₄ hr₄ hgood₄ r m₅ ho => ?_
      obtain ⟨hr, rfl⟩ := ho
      cases r with
      | false => exact absurd (hr rfl) (hfails _)
      | true =>
        refine ⟨hgood₄, safe_wrapCall fun m₆ hr₆ hgood₆ r m₇ ho => ?_⟩
        obtain ⟨hr, rfl⟩ := ho
        cases r with
        | false => exact absurd (hr rfl) (hfails _)
        | true =>
          have hr' := hr₄.trans hr₆
          rw [← hr'.pair pid] at hs
          exact ⟨hgood₆, safe_runCommand hfails hname hlock hblock retries (hm₃.apart hr') hs⟩

include hfails in
/-- **The wrapper keeps its word in every run**, if nobody closes the pipe or writes to it. -/
theorem kept_of_reach {s : Pool wrapSys ℕ Household WrapEnd}
    (hr : (household S pid).Reach (Pool.init wrapSys ℕ WrapEnd (.begins found)) s) :
    KeepsWord pid found s := by
  let idle (t : ℕ) (m : Household) : Prop :=
    t = 0 → m.files = found ∧ (m.ended = none → m.Alone pid found false)
  let ends (t : ℕ) (a : WrapEnd) (m : Household) : Prop :=
    (t = 0 → LeavesFound found a m) ∧ (t ≠ 0 → a = .goesOn)
  -- nobody touches what the wrapper has found, so it can still begin
  have hstable : ∀ t m m', idle t m → (keeping pid).rely t m m' → idle t m' := by
    intro t m m' hidle hrely ht
    have hr := hrely ht
    refine ⟨hr.files.trans (hidle ht).1, fun he => ((hidle ht).2 ?_).apart hr⟩
    rw [← hr.ended]
    exact he
  have hstart : ∀ t m p, m.Good pid → idle t m → (household S pid).start t m p →
      (keeping pid).Safe (household S pid) t (ends t) p m := by
    rintro t m p - hidle (⟨rfl, he, retries, rfl⟩ | ⟨ht, -, hp⟩)
    · refine (safe_wrapperMain hfails retries ((hidle rfl).2 he) (hidle rfl).1).mono ?_
      exact fun a m _ h => ⟨fun _ => h, fun h => absurd rfl h⟩
    · have hsafe : ∀ o : WrapOp, (o = .fork ∨ ∃ status, o = .ends status) →
          (keeping pid).Safe (household S pid) t (ends t) (liveWith o) m := fun o ho =>
        (safe_liveWith ht ho).mono fun a m _ h => ⟨fun h => absurd h ht, fun _ => h⟩
      rcases hp with rfl | ⟨status, rfl⟩ | ⟨h, -⟩ | ⟨h, -⟩
      · exact hsafe _ (Or.inl rfl)
      · exact hsafe _ (Or.inr ⟨status, rfl⟩)
      · exact absurd h (hfails _)
      · exact absurd h (hfails _)
  have hfinish : ∀ t a m m', m.Good pid → ends t a m → (household S pid).finish t a m m' →
      m'.Good pid ∧ (keeping pid).Guar t m m' ∧ idle t m' := by
    intro t a m m' hm hends h
    -- only the end of the wrapper leaves a mark; the others go on
    by_cases ht : t = 0
    · subst ht
      obtain ⟨⟨code, rfl⟩, hfiles⟩ := hends.1 rfl
      obtain rfl : m' = _ := h
      have hgood := hm.setLife_wrapper (.dead (.exited code))
      exact ⟨⟨hgood.served, hgood.holds, hgood.written, hgood.wrapper⟩,
        fun u hu hu0 => absurd hu0 hu, fun _ => ⟨hfiles, nofun⟩⟩
    · obtain rfl := hends.2 ht
      obtain rfl : m' = m := h
      exact ⟨hm, fun u hu _ => .refl _, fun h => absurd h ht⟩
  have hempty : (Household.begins found).Empty := by
    intro t ht b hb
    rw [show (Household.begins found).proc t = none from if_neg ht] at hb
    cases hb
  have hgood : (Household.begins found).Good pid :=
    ⟨Or.inl hempty, fun t ht b hb => absurd hb (hempty t ht b), rfl, nofun⟩
  have hidle : ∀ t, idle t (.begins found) :=
    fun t _ => ⟨rfl, fun _ => ⟨hempty, rfl, rfl, fun _ _ _ => rfl⟩⟩
  obtain ⟨hinv, hleft⟩ := Protocol.reach_safe hstable hstart hfinish hr hgood hidle
  refine ⟨hinv.served, fun hcode => ?_⟩
  have hwrapper := hleft 0
  rw [Protocol.Left, hcode] at hwrapper
  exact (hwrapper rfl).1

end Keeping

/-! ### Runs in which something goes wrong -/

/-- What process 1 makes of the household, if it is alive. It starts process 2. -/
def Household.does (m : Household) (o : WrapOp) : Household :=
  match m.proc 1 with
  | some (.alive holds) =>
    match o with
    | .fork => if m.proc 2 = none then m.setLife 2 (.alive holds) else m
    | .closeWrite => m.setLife 1 (.alive false)
    | .writeByte => { m with written := m.written + 1 }
    | .ends status => m.setLife 1 (.dead status)
    | _ => m
  | _ => m

/-- What process 1 does before the wrapper has waited for it. -/
def Trouble.acts : Trouble → List WrapOp
  | .closes => [.closeWrite, .fork, .ends (.exited 0)]
  | .writes => [.fork, .writeByte, .ends (.exited 0)]
  | .read => [.fork, .ends (.exited 0)]
  | _ => []

/-- Whether there is a process 1. -/
def Trouble.forks : Trouble → Bool
  | .closes | .writes | .read | .waitpid => true
  | _ => false

/-- Whether the trouble is that the call fails. -/
def Trouble.strikes (c : Trouble) : ShmOp → Bool
  | .unlink _ => decide (c = .unlink)
  | .shmUnlink _ => decide (c = .shmUnlink)
  | .setenvShared _ => decide (c = .setenv)
  | _ => false

/-- **The calls of a wrapper in trouble**, for a household of three. -/
def troubled (c : Trouble) : Handler wrapSys Household Unit := fun m o =>
  match o with
  | .shm o => .ok (((m.world (c.strikes o)).answer o).1,
      m.seen ((m.world (c.strikes o)).answer o).2)
  | .pipe => .ok (true, m.setLife 0 (.alive true))
  | .malloc => .ok (decide (c ≠ .malloc), m)
  | .setenvPreload => .ok (decide (c ≠ .setenvPreload), m)
  | .fork =>
    match m.proc 0, m.proc 1 with
    | some (.alive holds), none =>
      if c.forks then .ok (some 1, m.setLife 1 (.alive holds)) else .ok (none, m)
    | _, _ => .error ()
  | .closeRead => .ok ((), m)
  | .closeWrite => .ok ((), m.setLife 0 (.alive false))
  | .waitpid pid =>
    let m := c.acts.foldl Household.does m
    if c = .waitpid then .ok (.failed, m)
    else
      match m.proc pid with
      | some (.dead status) => .ok (.waited status, m)
      | _ => .error ()
  | .readByte =>
    if c = .read then .ok (.failed, m)
    else
      match m.written with
      | n + 1 => .ok (.byte, { m with written := n })
      | 0 =>
        if [0, 1, 2].any fun t => decide (m.proc t = some (.alive true)) then .error ()
        else .ok (.endOfFile, m)
  | .writeByte => .ok ((), { m with written := m.written + 1 })
  | .ends status => .ok ((), m.setLife 0 (.dead status))
  | .never => .error ()

/-- Something is left of the objects, or somebody is left without them. -/
def Household.astray (m : Household) (pid : Pid) : Bool :=
  (m.files (lockPath pid)).isSome || (m.files (shmPath (shmName pid))).isSome ||
    [1, 2].any fun t => [true, false].any fun b => decide (m.proc t = some (.alive b))

set_option maxRecDepth 10000 in
theorem astray_of_trouble : ∀ c, ((wrapperMain 1 7).run (troubled c)
    (.begins fun _ => none)).toOption.any
      (fun r => decide (r.1 ≠ .goesOn) && r.2.astray 7) = true := by
  intro c
  cases c <;> decide +kernel

section Astray

variable {S : Trouble → Prop} {pid : Pid} {c : Trouble} {m m' : Household}
  {code : ℕ → Option (Wrap WrapEnd)}

/-- Only the processes 0, 1 and 2 have ever been there. -/
def Household.Small (m : Household) : Prop := ∀ t, 3 ≤ t → m.proc t = none

theorem Household.Small.setLife (hm : m.Small) {t : ℕ} (ht : t < 3) (v : ProcLife) :
    (m.setLife t v).Small := fun u hu => by
  rw [proc_setLife_of_ne m v (by omega)]
  exact hm u hu

/-- What a descendant may do. -/
def WrapOp.Done (S : Trouble → Prop) (o : WrapOp) : Prop :=
  o = .fork ∨ (∃ status, o = .ends status) ∨ (S .closes ∧ o = .closeWrite) ∨
    (S .writes ∧ o = .writeByte)

theorem done_of_mem_acts (hc : S c) {o : WrapOp} (ho : o ∈ c.acts) : o.Done S := by
  cases c with
  | closes =>
    rcases List.mem_cons.mp ho with rfl | ho
    · exact Or.inr (Or.inr (Or.inl ⟨hc, rfl⟩))
    rcases List.mem_cons.mp ho with rfl | ho
    · exact Or.inl rfl
    · exact Or.inr (Or.inl ⟨_, List.mem_singleton.mp ho⟩)
  | writes =>
    rcases List.mem_cons.mp ho with rfl | ho
    · exact Or.inl rfl
    rcases List.mem_cons.mp ho with rfl | ho
    · exact Or.inr (Or.inr (Or.inr ⟨hc, rfl⟩))
    · exact Or.inr (Or.inl ⟨_, List.mem_singleton.mp ho⟩)
  | read =>
    rcases List.mem_cons.mp ho with rfl | ho
    · exact Or.inl rfl
    · exact Or.inr (Or.inl ⟨_, List.mem_singleton.mp ho⟩)
  | _ => exact absurd ho List.not_mem_nil

/-- One thing that process 1 does. -/
theorem reach_does {o : WrapOp} (ho : o.Done S) (hcode : code 1 = none) (hm : m.Small) :
    (household S pid).Reach ⟨m, code⟩ ⟨m.does o, code⟩ ∧ (m.does o).Small := by
  cases hproc : m.proc 1 with
  | none =>
    simp only [Household.does, hproc]
    exact ⟨.refl, hm⟩
  | some v =>
    cases v with
    | dead status =>
      simp only [Household.does, hproc]
      exact ⟨.refl, hm⟩
    | alive holds =>
      have hstart : (household S pid).start 1 m (liveWith o) := by
        refine Or.inr ⟨one_ne_zero, ⟨holds, hproc⟩, ?_⟩
        rcases ho with rfl | ⟨status, rfl⟩ | ⟨h, rfl⟩ | ⟨h, rfl⟩
        · exact Or.inl rfl
        · exact Or.inr (Or.inl ⟨status, rfl⟩)
        · exact Or.inr (Or.inr (Or.inl ⟨h, rfl⟩))
        · exact Or.inr (Or.inr (Or.inr ⟨h, rfl⟩))
      have hreach : ∀ r m₁, m.Answers S 1 o r m₁ →
          (household S pid).Reach ⟨m, code⟩ ⟨m₁, code⟩ := fun r m₁ h =>
        Machine.Runs.reach_of_return (M := household S pid) (s := ⟨m, code⟩) hcode hstart
          (.call h .refl) rfl
      rcases ho with rfl | ⟨status, rfl⟩ | ⟨-, rfl⟩ | ⟨-, rfl⟩
      · simp only [Household.does, hproc]
        split
        next hfree => exact ⟨hreach (some 2) _ ⟨holds, hproc, hfree, rfl⟩, hm.setLife (by decide) _⟩
        next => exact ⟨.refl, hm⟩
      · simp only [Household.does, hproc]
        exact ⟨hreach () _ rfl, hm.setLife (by decide) _⟩
      · simp only [Household.does, hproc]
        exact ⟨hreach () _ rfl, hm.setLife (by decide) _⟩
      · simp only [Household.does, hproc]
        exact ⟨hreach () _ rfl, hm⟩

/-- Many, one after the other. -/
theorem reach_foldl_does {acts : List WrapOp} (hacts : ∀ o ∈ acts, o.Done S)
    (hcode : code 1 = none) (hm : m.Small) :
    (household S pid).Reach ⟨m, code⟩ ⟨acts.foldl Household.does m, code⟩ ∧
      (acts.foldl Household.does m).Small := by
  induction acts generalizing m with
  | nil => exact ⟨.refl, hm⟩
  | cons o acts ih =>
    have hfirst : (household S pid).Reach ⟨m, code⟩ ⟨m.does o, code⟩ ∧ (m.does o).Small :=
      reach_does (hacts o (List.mem_cons_self ..)) hcode hm
    obtain ⟨hr, hm'⟩ := ih (fun o ho => hacts o (List.mem_cons_of_mem _ ho)) hfirst.2
    exact ⟨hfirst.1.trans hr, hm'⟩

/-- **What a wrapper in trouble is answered may be answered**, once process 1 has done its part. -/
theorem answers_of_troubled (hc : S c) (hm : m.Small) {o : WrapOp} {r : o.Ans}
    (h : troubled c m o = .ok (r, m')) : m'.Small ∧ ∃ m₁, m₁.Answers S 0 o r m' ∧ ∀ q,
      (household S pid).Reach ⟨m, Function.update (fun _ => none) 0 (some q)⟩
        ⟨m₁, Function.update (fun _ => none) 0 (some q)⟩ := by
  -- all calls but one are answered at once
  have hself : ∀ {m'}, m'.Small → m.Answers S 0 o r m' → m'.Small ∧ ∃ m₁, m₁.Answers S 0 o r m' ∧
      ∀ q, (household S pid).Reach ⟨m, Function.update (fun _ => none) 0 (some q)⟩
        ⟨m₁, Function.update (fun _ => none) 0 (some q)⟩ :=
    fun hm' ho => ⟨hm', m, ho, fun _ => .refl⟩
  cases o with
  | shm o =>
    cases h
    refine hself hm ⟨c.strikes o, fun hstrikes => ?_, rfl, rfl⟩
    cases o with
    | unlink path | shmUnlink name | setenvShared value =>
      obtain rfl := of_decide_eq_true hstrikes
      exact hc
    | _ => exact trivial
  | pipe =>
    cases h
    exact hself (hm.setLife (by decide) _) rfl
  | malloc | setenvPreload =>
    cases h
    refine hself hm ⟨fun hr => ?_, rfl⟩
    obtain rfl := not_not.mp (of_decide_eq_false hr)
    exact hc
  | fork =>
    simp only [troubled] at h
    split at h
    next holds hself' hfree =>
      split at h
      · cases h
        exact hself (hm.setLife (by decide) _) ⟨holds, hself', hfree, rfl⟩
      · cases h
        exact hself hm rfl
    next => cases h
  | closeRead =>
    cases h
    exact hself hm rfl
  | closeWrite =>
    cases h
    exact hself (hm.setLife (by decide) _) rfl
  | waitpid child =>
    have hacts : ∀ q, (household S pid).Reach ⟨m, Function.update (fun _ => none) 0 (some q)⟩
        ⟨c.acts.foldl Household.does m, Function.update (fun _ => none) 0 (some q)⟩ ∧
          (c.acts.foldl Household.does m).Small := fun q =>
      reach_foldl_does (fun _ => done_of_mem_acts hc) (Function.update_of_ne one_ne_zero ..) hm
    simp only [troubled] at h
    split at h
    next hwait =>
      cases h
      subst hwait
      exact ⟨(hacts giveUp).2, _, ⟨hc, rfl⟩, fun q => (hacts q).1⟩
    next =>
      split at h
      next status hdead =>
        cases h
        exact ⟨(hacts giveUp).2, _, ⟨hdead, rfl⟩, fun q => (hacts q).1⟩
      next => cases h
  | readByte =>
    simp only [troubled] at h
    split at h
    next hread =>
      cases h
      subst hread
      exact hself hm ⟨hc, rfl⟩
    next =>
      split at h
      next n hn =>
        cases h
        exact hself hm ⟨n, hn, rfl⟩
      next hn =>
        split at h
        next => cases h
        next hclosed =>
          cases h
          refine hself hm ⟨hn, fun t ht => hclosed ?_, rfl⟩
          -- there is nobody beyond the first three
          have hlt : t < 3 := by
            by_contra hge
            rw [hm t (by omega)] at ht
            cases ht
          refine List.any_eq_true.mpr ⟨t, ?_, decide_eq_true ht⟩
          simp only [List.mem_cons, List.not_mem_nil, or_false]
          omega
  | writeByte =>
    cases h
    exact hself hm rfl
  | ends status =>
    cases h
    exact hself (hm.setLife (by decide) _) rfl
  | never => cases h

end Astray

/-- A wrapper that has ended so has not kept its word. -/
theorem not_keepsWord_of_astray {m : Household} {pid : Pid} {status : ℕ}
    {code : ℕ → Option (Wrap WrapEnd)} (hm : m.astray pid = true) (hcode : code 0 = none) :
    ¬ KeepsWord pid (fun _ => none)
      ⟨{ m.setLife 0 (.dead (.exited status)) with ended := some status }, code⟩ := by
  rintro ⟨hserved, hfiles⟩
  have hnone : m.files = fun _ => none := hfiles hcode
  rw [Household.astray, hnone] at hm
  obtain ⟨t, ht, ht'⟩ := List.any_eq_true.mp hm
  obtain ⟨b, -, hb⟩ := List.any_eq_true.mp ht'
  have ht0 : t ≠ 0 := by
    rintro rfl
    exact absurd ht (by decide)
  rcases hserved with hempty | ⟨-, hlock, -⟩
  · exact empty_setLife_wrapper.mp hempty t ht0 b (of_decide_eq_true hb)
  · have hlock' : (m.files (lockPath pid)).isSome = true := hlock
    rw [hnone] at hlock'
    cases hlock'

/-- **The wrapper keeps its word exactly if nothing goes wrong**: with any number and any files it
finds, in every order of the calls of all processes. -/
theorem wrapper_keeps_iff (S : Trouble → Prop) :
    (∀ pid found s, (household S pid).Reach (Pool.init wrapSys ℕ WrapEnd (.begins found)) s →
      KeepsWord pid found s) ↔ ∀ c, ¬ S c := by
  constructor
  · intro h c hc
    have hastray := astray_of_trouble c
    cases hr : (wrapperMain 1 7).run (troubled c) (.begins fun _ => none) with
    | error x =>
      rw [hr] at hastray
      cases hastray
    | ok r =>
      obtain ⟨a, m⟩ := r
      rw [hr] at hastray
      obtain ⟨ha, hm⟩ := Bool.and_eq_true_iff.mp hastray
      obtain ⟨code, rfl⟩ : ∃ code, a = .exits code := by
        cases a with
        | goesOn => exact absurd rfl (of_decide_eq_true ha)
        | exits code => exact ⟨code, rfl⟩
      have hsmall : (Household.begins fun _ => none).Small := fun t ht => if_neg (by omega)
      have hrun := Machine.reach_of_run (M := household S 7) (c := fun _ => none)
        (fun m o r m' hm ho => answers_of_troubled hc hm ho) hsmall hr
      have hstart : (household S 7).Step ⟨.begins fun _ => none, fun _ => none⟩
          ⟨.begins fun _ => none, Function.update (fun _ => none) 0 (some (wrapperMain 1 7))⟩ :=
        .start rfl (Or.inl ⟨rfl, rfl, 1, rfl⟩)
      have hfinish : (household S 7).finish 0 (.exits code) m
          { m.setLife 0 (.dead (.exited code)) with ended := some code } := rfl
      refine not_keepsWord_of_astray hm (Function.update_self ..) (h 7 _ _
        ((Relation.ReflTransGen.head hstart hrun).tail (.finish rfl hfinish)))
  · exact fun hfails pid found s hr => kept_of_reach hfails hr

end LibFaketime
