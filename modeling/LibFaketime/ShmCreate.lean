import LibFaketime.Strings
import LibFaketime.Lib.Names

/-!
# Creating the shared objects

A process that finds no shared objects makes its own: a file to lock, a block of shared memory
with its header, and the variable that tells the child processes their names. Each of the calls for
it can fail, and nearly each failure has a clean-up of its own.

The process is alone with the names it has picked, but it cannot rely on that: other objects may
stand under them already. What the clean-ups have to restore is the table of names as it was found
(`LibFaketime.shm_create_all_or_nothing`).
-/

namespace LibFaketime

open Effects Effects.Prog

/-! ### The calls -/

/-- A descriptor: `-1`, or what it has been opened on. A pointer to a mapping is written in the same
way, with `none` for `MAP_FAILED`. -/
abbrev Fd := Option CStr

/-- What `ft_shm_create` asks of the system, and the variables it assigns. -/
inductive ShmOp where
  /-- The real `getpid`; there is none if it is missing. -/
  | realGetpid
  /-- `open(path, O_CREAT|O_EXCL|O_RDWR, S_IWUSR|S_IRUSR)`. -/
  | openExcl (path : CStr)
  /-- `open(path, O_RDWR)`. -/
  | openRdwr (path : CStr)
  /-- `shm_open(name, O_CREAT|O_EXCL|O_RDWR, S_IWUSR|S_IRUSR)`. -/
  | shmOpen (name : CStr)
  | ftruncate (fd : Fd) (length : ℕ)
  /-- `mmap`, of the whole block, shared. -/
  | mmap (fd : Fd)
  | munmap (mapping : Fd)
  /-- Assignments to the fields of the mapped block. -/
  | assign (mapping : Fd) (f : FtShared → FtShared)
  | close (fd : Fd)
  /-- `flock(fd, LOCK_EX)`. -/
  | flockEx (fd : Fd)
  /-- `flock(fd, LOCK_UN)`. -/
  | flockUn (fd : Fd)
  | unlink (path : CStr)
  | shmUnlink (name : CStr)
  /-- `setenv("FAKETIME_SHARED", value, true)`. -/
  | setenvShared (value : CStr)
  /-- `shmCreator = b`. -/
  | setShmCreator (b : Bool)
  /-- `perror`, or a message to `stderr`. -/
  | perror (msg : String)

/-- The answers. A call without a result of its own says whether it has succeeded. -/
@[reducible] def ShmOp.Ans : ShmOp → Type
  | .realGetpid => Option ℕ
  | .openExcl _ | .openRdwr _ | .shmOpen _ | .mmap _ => Fd
  | .assign _ _ | .setShmCreator _ | .perror _ => Unit
  | _ => Bool

/-- The interface of `ft_shm_create`. -/
abbrev shmSys : Interface := ⟨ShmOp, ShmOp.Ans⟩

/-- A function over these calls. -/
abbrev Shm (α : Type) := Prog shmSys α

/-- One call. -/
def shmCall (o : ShmOp) : Shm o.Ans := perform (I := shmSys) o

/-! ### The lock -/

/-- `ft_sem_t`. -/
structure FtSem where
  name : CStr
  fd : Fd

/-- What the name of a semaphore begins with. -/
def semPrefix : CStr := "/faketime_sem_".toList

/-- `ft_sem_name_to_path`, into a buffer of 256 bytes. -/
def ftSemNameToPath (name : CStr) : Option CStr :=
  (strstr semPrefix name).map fun p =>
    ("/dev/shm/faketime_lock_".toList ++ p.drop semPrefix.length).take 255

/-- `ft_sem_create`. -/
def ftSemCreate (name : CStr) : Shm (Option FtSem) :=
  match ftSemNameToPath name with
  | none => pure none
  | some path => do
    match ← shmCall (.openExcl path) with
    | none => pure none
    | some fd => pure (some ⟨name.take 255, some fd⟩)

/-- `ft_sem_open`. -/
def ftSemOpen (name : CStr) : Shm (Option FtSem) :=
  match ftSemNameToPath name with
  | none => pure none
  | some path => do
    match ← shmCall (.openRdwr path) with
    | none => pure none
    | some fd => pure (some ⟨name.take 255, some fd⟩)

/-- `ft_sem_close`: whether it succeeds, and what it leaves. -/
def ftSemClose (sem : FtSem) : Shm (Bool × FtSem) := do
  let ret ← shmCall (.close sem.fd)
  pure (ret, { sem with fd := none })

/-- `ft_sem_unlink`. -/
def ftSemUnlink (sem : FtSem) : Shm Bool :=
  match ftSemNameToPath sem.name with
  | none => pure false
  | some path => shmCall (.unlink path)

/-! ### The objects -/

/-- How `ft_shm_create` ends. -/
inductive ShmEnd where
  | returns
  /-- `exit(EXIT_FAILURE)`. -/
  | exits
deriving DecidableEq, Repr

/-- `ft_shm_cleanup_created`, and what it leaves of the variables it is given. -/
def ftShmCleanupCreated (sem : FtSem) (shmFd mapping : Fd) (shmName : CStr) (locked : Bool) :
    Shm (FtSem × Fd × Fd) := do
  if locked then
    let _ ← shmCall (.flockUn sem.fd)
  if mapping.isSome then
    let _ ← shmCall (.munmap mapping)
  if shmFd.isSome then
    let _ ← shmCall (.close shmFd)
  let (_, sem) ← ftSemClose sem
  let _ ← ftSemUnlink sem
  let _ ← shmCall (.shmUnlink shmName)
  pure (sem, none, none)

/-- `sscanf` with `%255s`: the first word of a text. -/
def sscanfWord (s : CStr) : CStr := ((scanWord 255 s).map Prod.fst).getD []

/-- The assignments to the new block. -/
def FtShared.assigned (b : FtShared) : FtShared :=
  { b with
    magic := ftSharedMagic
    version := ftSharedVersion
    size := ftSharedSize
    ticks := 0
    fileIdx := 0
    startTimeReal := ⟨0, -1⟩
    startTimeMon := ⟨0, -1⟩
    startTimeMonRaw := ⟨0, -1⟩
    startTimeBoot := ⟨0, -1⟩ }

/-- `ft_shm_create`, from the test of the names on. -/
def ftShmPublish (semN : FtSem) (semName shmName : CStr) : Shm ShmEnd := do
  let sharedObjsN := semName ++ ' ' :: shmName
  if 513 ≤ sharedObjsN.length then
    let _ ← ftSemUnlink semN
    let _ ← shmCall (.shmUnlink shmName)
    pure .returns
  else
    let (closed, semN) ← ftSemClose semN
    if !closed then
      let _ ← ftSemUnlink semN
      let _ ← shmCall (.shmUnlink shmName)
      pure .returns
    else
      match ← ftSemOpen (sscanfWord sharedObjsN) with
      | none =>
        shmCall (.perror "libfaketime: In ft_shm_create(), non-fatal ft_sem_open issue with %s\n")
        let _ ← ftSemUnlink semN
        let _ ← shmCall (.shmUnlink shmName)
        pure .returns
      | some sharedSemT =>
        let _ ← ftSemClose sharedSemT
        if ← shmCall (.setenvShared sharedObjsN) then
          shmCall (.setShmCreator true)
          pure .returns
        else
          shmCall (.perror "libfaketime: In ft_shm_create(), setting FAKETIME_SHARED failed")
          let _ ← ftSemUnlink semN
          let _ ← shmCall (.shmUnlink shmName)
          pure .returns

/-- A failure that ends the process. -/
def ftShmFatal (msg : String) (sem : FtSem) (shmFd mapping : Fd) (shmName : CStr) (locked : Bool) :
    Shm ShmEnd := do
  shmCall (.perror msg)
  let _ ← ftShmCleanupCreated sem shmFd mapping shmName locked
  pure .exits

/-- `ft_shm_create`, once both objects are there. -/
def ftShmFill (semN : FtSem) (shmFdN : Fd) (semName shmName : CStr) : Shm ShmEnd := do
  if !(← shmCall (.ftruncate shmFdN ftSharedSize)) then
    ftShmFatal "libfaketime: In ft_shm_create(), ftruncate failed" semN shmFdN none shmName false
  else
    match ← shmCall (.mmap shmFdN) with
    | none =>
      ftShmFatal "libfaketime: In ft_shm_create(), mmap failed" semN shmFdN none shmName false
    | some mapping =>
      let ftSharedN : Fd := some mapping
      if !(← shmCall (.close shmFdN)) then
        ftShmFatal "libfaketime: In ft_shm_create(), close failed" semN none ftSharedN shmName false
      else if !(← shmCall (.flockEx semN.fd)) then
        ftShmFatal "libfaketime: In ft_shm_create(), ft_sem_lock failed" semN none ftSharedN shmName
          false
      else
        -- init elapsed time ticks to zero
        shmCall (.assign ftSharedN FtShared.assigned)
        if !(← shmCall (.flockUn semN.fd)) then
          ftShmFatal "libfaketime: In ft_shm_create(), ft_sem_unlock failed" semN none ftSharedN
            shmName true
        else if !(← shmCall (.munmap ftSharedN)) then
          ftShmFatal "libfaketime: In ft_shm_create(), munmap failed" semN none none shmName false
        else ftShmPublish semN semName shmName

/-- `sem_name`. -/
def semName (pid : ℕ) : CStr := semPrefix ++ Nat.toDigits 10 pid

/-- `shm_name`. -/
def shmName (pid : ℕ) : CStr := "/faketime_shm_".toList ++ Nat.toDigits 10 pid

/-- **`ft_shm_create`**, with the lock on a file. -/
def ftShmCreate : Shm ShmEnd := do
  match ← shmCall .realGetpid with
  | none => pure .returns
  | some pid =>
    if 256 ≤ (semName pid).length then pure .returns
    else if 256 ≤ (shmName pid).length then pure .returns
    else
      match ← ftSemCreate (semName pid) with
      -- silently fail on platforms that do not support semaphores
      | none => pure .returns
      | some semN =>
        match ← shmCall (.shmOpen (shmName pid)) with
        | none =>
          let (_, semN) ← ftSemClose semN
          let _ ← ftSemUnlink semN
          pure .returns
        | some fd => ftShmFill semN (some fd) (semName pid) (shmName pid)

/-! ### The table of names -/

/-- A file under `/dev/shm`: its length, and its first bytes read as a block. -/
structure ShmFile where
  length : ℕ
  block : FtShared
deriving DecidableEq, Repr

/-- A file that has just been made. -/
def ShmFile.empty : ShmFile := ⟨0, ⟨0, 0, 0, 0, 0, ⟨0, 0⟩, ⟨0, 0⟩, ⟨0, 0⟩, ⟨0, 0⟩⟩⟩

/-- The path of a shared memory object. -/
def shmPath (name : CStr) : CStr := "/dev/shm".toList ++ name

/-- What `ft_shm_create` finds, and which of its calls fail. -/
structure ShmWorld where
  pid : Option ℕ
  /-- The files, by path. -/
  files : CStr → Option ShmFile
  /-- `FAKETIME_SHARED`. -/
  faketimeShared : Option CStr
  shmCreator : Bool
  /-- The paths of the files that have been removed. -/
  removed : List CStr
  /-- The number of calls so far. -/
  calls : ℕ
  /-- The call with this number fails, whatever the state. -/
  fails : ℕ → ShmOp → Bool

/-- The next call. -/
def ShmWorld.next (w : ShmWorld) : ShmWorld := { w with calls := w.calls + 1 }

/-- Put a file under a path. -/
def ShmWorld.put (w : ShmWorld) (path : CStr) (f : ShmFile) : ShmWorld :=
  { w.next with files := Function.update w.files path (some f) }

/-- Make a file that must not be there. -/
def ShmWorld.create (w : ShmWorld) (fails : Bool) (path : CStr) : Fd × ShmWorld :=
  if fails || (w.files path).isSome then (none, w.next) else (some path, w.put path .empty)

/-- Change a file that is open, or mapped. -/
def ShmWorld.change (w : ShmWorld) (fd : Fd) (f : ShmFile → ShmFile) : ShmWorld :=
  match fd.bind fun path => (w.files path).map (Prod.mk path) with
  | some (path, file) => w.put path (f file)
  | none => w.next

/-- Remove a file. -/
def ShmWorld.remove (w : ShmWorld) (fails : Bool) (path : CStr) : Bool × ShmWorld :=
  if fails || (w.files path).isNone then (false, w.next)
  else (true, { w.next with
    files := Function.update w.files path none, removed := path :: w.removed })

/-- **What a call answers and does.** -/
def ShmWorld.answer (w : ShmWorld) : (o : ShmOp) → o.Ans × ShmWorld
  | .realGetpid => (w.pid, w.next)
  | .openExcl path => w.create (w.fails w.calls (.openExcl path)) path
  | .openRdwr path =>
    (if w.fails w.calls (.openRdwr path) || (w.files path).isNone then none else some path, w.next)
  | .shmOpen name => w.create (w.fails w.calls (.shmOpen name)) (shmPath name)
  | .ftruncate fd length =>
    if w.fails w.calls (.ftruncate fd length) || fd.isNone then (false, w.next)
    else (true, w.change fd fun f => { f with length := length })
  | .mmap fd => (if w.fails w.calls (.mmap fd) then none else fd, w.next)
  | .munmap mapping => (!w.fails w.calls (.munmap mapping) && mapping.isSome, w.next)
  | .assign mapping f => ((), w.change mapping fun file => { file with block := f file.block })
  | .close fd => (!w.fails w.calls (.close fd) && fd.isSome, w.next)
  | .flockEx fd => (!w.fails w.calls (.flockEx fd) && fd.isSome, w.next)
  | .flockUn fd => (!w.fails w.calls (.flockUn fd) && fd.isSome, w.next)
  | .unlink path => w.remove (w.fails w.calls (.unlink path)) path
  | .shmUnlink name => w.remove (w.fails w.calls (.shmUnlink name)) (shmPath name)
  | .setenvShared value =>
    if w.fails w.calls (.setenvShared value) then (false, w.next)
    else (true, { w.next with faketimeShared := some value })
  | .setShmCreator b => ((), { w.next with shmCreator := b })
  | .perror _ => ((), w.next)

/-- The system as a handler. Every call returns. -/
def shm : Handler shmSys ShmWorld Empty := fun w o => .ok (w.answer o)

/-! ### The account -/

/-- **On the way**: the files `made` have been added to those of `w₀`, and nothing else has
happened. Whatever has been removed was not there in `w₀`. -/
structure Midway (w₀ : ShmWorld) (made : Set CStr) (w : ShmWorld) : Prop where
  added : Names.Added w₀.files w.files made
  shared : w.faketimeShared = w₀.faketimeShared
  creator : w.shmCreator = w₀.shmCreator
  fails : w.fails = w₀.fails
  removed : ∀ path ∈ w.removed, path ∈ w₀.removed ∨ w₀.files path = none

/-- A call that only reads, or whose effects are not seen from outside. -/
def ShmOp.Quiet : ShmOp → Prop
  | .realGetpid | .openRdwr _ | .mmap _ | .munmap _ | .close _ | .flockEx _ | .flockUn _
  | .perror _ => True
  | _ => False

/-- Some call fails. -/
def ShmWorld.Faulty (w : ShmWorld) : Prop := ∃ n o, w.fails n o = true

section Account

variable {w₀ w : ShmWorld} {made : Set CStr} {β : Type} {Q : β → ShmWorld → Prop} {path : CStr}

theorem Midway.refl (w : ShmWorld) : Midway w ∅ w :=
  ⟨.refl _, rfl, rfl, rfl, fun _ => Or.inl⟩

theorem Midway.next (h : Midway w₀ made w) : Midway w₀ made w.next :=
  ⟨h.added, h.shared, h.creator, h.fails, h.removed⟩

/-- A call that fails makes the system a faulty one. -/
theorem Midway.faulty {n : ℕ} {o : ShmOp} (h : Midway w₀ made w) (hf : w.fails n o = true) :
    w₀.Faulty := ⟨n, o, h.fails ▸ hf⟩

theorem runs_shmCall {o : ShmOp} {f : o.Ans → Shm β}
    (h : (f (w.answer o).1).Runs shm (w.answer o).2 Q) : (shmCall o >>= f).Runs shm w Q :=
  runs_perform_bind (I := shmSys) (o := o) rfl h

theorem runs_answer (o : ShmOp) : (shmCall o).Runs shm w fun r w' =>
    r = (w.answer o).1 ∧ w' = (w.answer o).2 := runs_perform rfl

theorem answer_quiet {o : ShmOp} (ho : o.Quiet) : (w.answer o).2 = w.next := by
  cases o <;> first | rfl | exact ho.elim

/-- The rule of a quiet call, whatever it answers. -/
theorem runs_quiet {J : ShmWorld → Prop} {o : ShmOp} {f : o.Ans → Shm β}
    (ho : o.Quiet) (hw : J w) (hJ : ∀ v, J v → J v.next)
    (h : ∀ r w', J w' → (w.answer o).1 = r → (f r).Runs shm w' Q) :
    (shmCall o >>= f).Runs shm w Q := by
  refine runs_shmCall (h _ _ ?_ rfl)
  rw [answer_quiet ho]
  exact hJ w hw

theorem Midway.put (h : Midway w₀ made w) (hpath : path ∈ made) (file : ShmFile) :
    Midway w₀ made (w.put path file) :=
  ⟨h.added.assign hpath file, h.shared, h.creator, h.fails, h.removed⟩

/-- A file is made, unless the call fails or something is there already. -/
theorem Midway.create (h : Midway w₀ made w) (fails : Bool) (hpath : path ∉ made) :
    w.create fails path = (none, w.next) ∧ (fails = true ∨ w₀.files path ≠ none) ∨
      w.create fails path = (some path, w.put path .empty) ∧
        Midway w₀ (insert path made) (w.put path .empty) := by
  unfold ShmWorld.create
  split
  next hf =>
    rw [Bool.or_eq_true, Option.isSome_iff_ne_none, h.added.kept path hpath] at hf
    exact Or.inl ⟨rfl, hf⟩
  next hf =>
    rw [Bool.or_eq_true, not_or, Option.not_isSome_iff_eq_none] at hf
    exact Or.inr ⟨rfl, h.added.create hf.2 .empty, h.shared, h.creator, h.fails, h.removed⟩

/-- A file that was made is removed. -/
theorem Midway.remove (h : Midway w₀ made w) (hpath : path ∈ made) :
    Midway w₀ (made \ {path}) (w.remove false path).2 := by
  obtain ⟨file, hfile⟩ := h.added.present path hpath
  rw [ShmWorld.remove, hfile, if_neg (by simp)]
  refine ⟨h.added.remove hpath, h.shared, h.creator, h.fails, ?_⟩
  intro path' hmem
  rcases List.mem_cons.mp hmem with rfl | hmem
  · exact Or.inr (h.added.fresh _ hpath)
  · exact h.removed path' hmem

/-- A file that was made is changed. -/
theorem Midway.change (h : Midway w₀ made w) (hpath : path ∈ made) (f : ShmFile → ShmFile) :
    Midway w₀ made (w.change (some path) f) ∧
      (w.change (some path) f).files path = (w.files path).map f := by
  obtain ⟨file, hfile⟩ := h.added.present path hpath
  have hchange : w.change (some path) f = w.put path (f file) := by
    rw [ShmWorld.change, Option.bind_some, hfile, Option.map_some]
  rw [hchange, hfile]
  exact ⟨h.put hpath _, Function.update_self ..⟩

end Account

/-! ### The names -/

section Texts

variable {pid : ℕ}

/-- The path of the lock. -/
def lockPath (pid : ℕ) : CStr :=
  ("/dev/shm/faketime_lock_".toList ++ Nat.toDigits 10 pid).take 255

theorem ftSemNameToPath_semName : ftSemNameToPath (semName pid) = some (lockPath pid) := by
  rw [ftSemNameToPath, semName, strstr_append, Option.map_some, List.drop_left, lockPath]

/-- The two files are different. -/
theorem shmPath_ne_lockPath : shmPath (shmName pid) ≠ lockPath pid := by
  have hshm : (shmPath (shmName pid)).take 19 = "/dev/shm/faketime_s".toList := by
    unfold shmPath shmName
    rw [← List.append_assoc, List.take_append_of_le_length (by decide)]
    rfl
  have hlock : (lockPath pid).take 19 = "/dev/shm/faketime_l".toList := by
    unfold lockPath
    rw [List.take_take, List.take_append_of_le_length (by decide)]
    rfl
  intro h
  rw [h, hlock] at hshm
  exact absurd hshm (by decide)

theorem isspace_of_mem_semName {c : Char} (h : c ∈ semName pid) : isspace c = false := by
  rcases List.mem_append.mp h with hc | hc
  · have hprefix : semPrefix.all (fun c => !isspace c) = true := rfl
    have hblack := List.all_eq_true.mp hprefix c hc
    rwa [Bool.not_eq_true'] at hblack
  · exact isspace_of_isDigit (isDigit_of_mem_toDigits hc).1

/-- The first word of the variable is the name of the lock. -/
theorem sscanfWord_semName (h : (semName pid).length < 256) (rest : CStr) :
    sscanfWord (semName pid ++ ' ' :: rest) = semName pid := by
  have hne : semName pid ≠ [] := List.append_ne_nil_of_left_ne_nil (by decide) _
  rw [sscanfWord, scanWord_append hne (fun c hc => isspace_of_mem_semName hc) (by omega)
    (by rintro c ⟨⟩; rfl)]
  rfl

end Texts

/-! ### The clean-ups -/

/-- The calls that remove an object do not fail. -/
def ShmWorld.CleansUp (w : ShmWorld) : Prop :=
  ∀ n, (∀ path, w.fails n (.unlink path) = false) ∧ ∀ name, w.fails n (.shmUnlink name) = false

/-- Both objects are there. -/
def bothObjects (pid : ℕ) : Set CStr := {shmPath (shmName pid), lockPath pid}

section CleanUp

variable {w₀ w : ShmWorld} {made : Set CStr} {pid : ℕ} {sem : FtSem} {β : Type}

theorem bothObjects_remove : (bothObjects pid \ {lockPath pid}) \ {shmPath (shmName pid)} = ∅ := by
  unfold bothObjects
  ext path
  simp only [Set.mem_sdiff, Set.mem_insert_iff, Set.mem_singleton_iff, Set.mem_empty_iff_false]
  tauto

theorem runs_ftSemUnlink (hclean : w₀.CleansUp)
    (hname : ftSemNameToPath sem.name = some (lockPath pid)) (hmem : lockPath pid ∈ made)
    (h : Midway w₀ made w) :
    (ftSemUnlink sem).Runs shm w fun _ w' => Midway w₀ (made \ {lockPath pid}) w' := by
  rw [ftSemUnlink, hname]
  refine (runs_answer _).mono ?_
  rintro _ _ ⟨rfl, rfl⟩
  have hworks : w.fails w.calls (.unlink (lockPath pid)) = false := by
    rw [h.fails]
    exact (hclean _).1 _
  change Midway w₀ _ (w.remove (w.fails w.calls (.unlink (lockPath pid))) (lockPath pid)).2
  rw [hworks]
  exact h.remove hmem

theorem runs_shmUnlink (hclean : w₀.CleansUp) {name : CStr} (hmem : shmPath name ∈ made)
    (h : Midway w₀ made w) : (shmCall (.shmUnlink name)).Runs shm w fun _ w' =>
      Midway w₀ (made \ {shmPath name}) w' := by
  refine (runs_answer _).mono ?_
  rintro _ _ ⟨rfl, rfl⟩
  have hworks : w.fails w.calls (.shmUnlink name) = false := by
    rw [h.fails]
    exact (hclean _).2 _
  change Midway w₀ _ (w.remove (w.fails w.calls (.shmUnlink name)) (shmPath name)).2
  rw [hworks]
  exact h.remove hmem

/-- The two calls at the end of each clean-up. -/
theorem runs_unlink_both (hclean : w₀.CleansUp)
    (hname : ftSemNameToPath sem.name = some (lockPath pid)) (h : Midway w₀ (bothObjects pid) w)
    (b : β) : (do
      let _ ← ftSemUnlink sem
      let _ ← shmCall (.shmUnlink (shmName pid))
      pure b : Shm β).Runs shm w fun b' w' => b' = b ∧ Midway w₀ ∅ w' := by
  refine (runs_ftSemUnlink hclean hname (Or.inr rfl) h).bind fun _ w₁ h₁ => ?_
  have hmem : shmPath (shmName pid) ∈ bothObjects pid \ {lockPath pid} :=
    ⟨Or.inl rfl, shmPath_ne_lockPath⟩
  refine (runs_shmUnlink hclean hmem h₁).bind fun _ w₂ h₂ => ?_
  rw [bothObjects_remove] at h₂
  exact runs_pure ⟨rfl, h₂⟩

theorem runs_ftSemClose : (ftSemClose sem).Runs shm w fun r w' =>
    r = (!w.fails w.calls (.close sem.fd) && sem.fd.isSome, { sem with fd := none }) ∧
      w' = w.next :=
  runs_shmCall (runs_pure ⟨rfl, rfl⟩)

/-- A quiet call that is made or not. -/
theorem runs_quiet_if {c : Bool} {o : ShmOp} {p : Shm β} {Q : β → ShmWorld → Prop} (ho : o.Quiet)
    (h : Midway w₀ made w) (hp : ∀ w', Midway w₀ made w' → p.Runs shm w' Q) :
    (if c = true then (shmCall o >>= fun _ => p) else p).Runs shm w Q := by
  split
  · exact runs_quiet ho h (fun _ => Midway.next) fun _ w' hw' _ => hp w' hw'
  · exact hp w h

/-- `ft_shm_cleanup_created` removes both objects, whatever else it is told to do. -/
theorem runs_ftShmCleanupCreated (hclean : w₀.CleansUp)
    (hname : ftSemNameToPath sem.name = some (lockPath pid)) (shmFd mapping : Fd) (locked : Bool)
    (h : Midway w₀ (bothObjects pid) w) :
    (ftShmCleanupCreated sem shmFd mapping (shmName pid) locked).Runs shm w fun _ w' =>
      Midway w₀ ∅ w' := by
  unfold ftShmCleanupCreated
  dsimp only
  refine runs_quiet_if (o := .flockUn sem.fd) trivial h fun w₁ h₁ => ?_
  refine runs_quiet_if (o := .munmap mapping) trivial h₁ fun w₂ h₂ => ?_
  refine runs_quiet_if (o := .close shmFd) trivial h₂ fun w₃ h₃ => ?_
  refine runs_ftSemClose.bind ?_
  rintro _ _ ⟨rfl, rfl⟩
  exact (runs_unlink_both hclean hname h₃.next _).mono fun _ _ hu => hu.2

/-- A failure that ends the process. -/
theorem runs_ftShmFatal (hclean : w₀.CleansUp)
    (hname : ftSemNameToPath sem.name = some (lockPath pid)) (msg : String) (shmFd mapping : Fd)
    (locked : Bool) (h : Midway w₀ (bothObjects pid) w) :
    (ftShmFatal msg sem shmFd mapping (shmName pid) locked).Runs shm w fun _ w' =>
      Midway w₀ ∅ w' := by
  refine runs_quiet (o := .perror msg) trivial h (fun _ => Midway.next) fun _ w₁ h₁ _ => ?_
  exact (runs_ftShmCleanupCreated hclean hname shmFd mapping locked h₁).bind
    fun _ _ h₂ => runs_pure h₂

end CleanUp

/-! ### All or nothing -/

/-- **Both objects are there** and can be found: the block has a valid header, and no tick has been
taken and no record read. -/
structure Created (w₀ : ShmWorld) (pid : ℕ) (w : ShmWorld) : Prop where
  added : Names.Added w₀.files w.files (bothObjects pid)
  block : ∃ file, w.files (shmPath (shmName pid)) = some file ∧ file.length = ftSharedSize ∧
    ftSharedHeaderValid file.block = true ∧ file.block.ticks = 0 ∧ file.block.fileIdx = 0
  lock : ftSemNameToPath (semName pid) = some (lockPath pid)
  shared : w.faketimeShared = some (semName pid ++ ' ' :: shmName pid)
  creator : w.shmCreator = true
  removed : ∀ path ∈ w.removed, path ∈ w₀.removed ∨ w₀.files path = none

/-- **Nothing has happened**: the objects are those that were there before, with what was in them,
and no object that was there has been removed in between. -/
structure Untouched (w₀ w : ShmWorld) : Prop where
  files : w.files = w₀.files
  shared : w.faketimeShared = w₀.faketimeShared
  creator : w.shmCreator = w₀.shmCreator
  removed : ∀ path ∈ w.removed, path ∈ w₀.removed ∨ w₀.files path = none

/-- Both objects are there, and the memory has its size and holds the block `b`. -/
structure HoldsBlock (w₀ : ShmWorld) (pid : ℕ) (b : FtShared) (w : ShmWorld) : Prop where
  midway : Midway w₀ (bothObjects pid) w
  block : w.files (shmPath (shmName pid)) = some ⟨ftSharedSize, b⟩

/-- How a call that has made both objects ends. -/
def ShmSettled (w₀ : ShmWorld) (pid : ℕ) (e : ShmEnd) (w : ShmWorld) : Prop :=
  (e = .returns ∧ Created w₀ pid w) ∨ (Midway w₀ ∅ w ∧ w₀.Faulty)

section Create

variable {w₀ w : ShmWorld} {pid : ℕ} {sem : FtSem} {made : Set CStr}

theorem Midway.untouched (h : Midway w₀ ∅ w) : Untouched w₀ w :=
  ⟨h.added.eq, h.shared, h.creator, h.removed⟩

theorem HoldsBlock.next {b : FtShared} (h : HoldsBlock w₀ pid b w) : HoldsBlock w₀ pid b w.next :=
  ⟨h.midway.next, h.block⟩

/-- A call on a descriptor that is open says that it has failed. -/
theorem Midway.faulty_of_answer {o : ShmOp} {fd : CStr} (h : Midway w₀ made w)
    (hr : (!w.fails w.calls o && (some fd : Fd).isSome) = false) : w₀.Faulty := by
  rw [Option.isSome_some, Bool.and_true, Bool.not_eq_false_eq_eq_true] at hr
  exact h.faulty hr

theorem runs_setenvShared {β : Type} {Q : β → ShmWorld → Prop} {value : CStr} {f : Bool → Shm β}
    (hfails : w.fails w.calls (.setenvShared value) = true → (f false).Runs shm w.next Q)
    (hset : (f true).Runs shm { w.next with faketimeShared := some value } Q) :
    (shmCall (.setenvShared value) >>= f).Runs shm w Q := by
  refine runs_shmCall ?_
  simp only [ShmWorld.answer]
  split
  next h => exact hfails h
  next => exact hset

/-- A lock that is there can be opened, unless the call fails. -/
theorem runs_ftSemOpen (h : Midway w₀ (bothObjects pid) w) :
    (ftSemOpen (semName pid)).Runs shm w fun r w' => (r = none → w₀.Faulty) ∧ w' = w.next := by
  obtain ⟨file, hfile⟩ := h.added.present (lockPath pid) (Or.inr rfl)
  rw [ftSemOpen, ftSemNameToPath_semName]
  refine runs_shmCall ?_
  simp only [ShmWorld.answer, hfile, Option.isNone_some, Bool.or_false]
  cases hfails : w.fails w.calls (.openRdwr (lockPath pid)) with
  | true => exact runs_pure ⟨fun _ => h.faulty hfails, rfl⟩
  | false => exact runs_pure ⟨nofun, rfl⟩

/-- The names are made known, or the objects are removed. -/
theorem runs_ftShmPublish (hclean : w₀.CleansUp) (hname : sem.name = semName pid) {fd : CStr}
    (hfd : sem.fd = some fd) (hsem : (semName pid).length < 256)
    (hshm : (shmName pid).length < 256) (h : HoldsBlock w₀ pid .created w) :
    (ftShmPublish sem (semName pid) (shmName pid)).Runs shm w (ShmSettled w₀ pid) := by
  have hpath : ftSemNameToPath sem.name = some (lockPath pid) := by
    rw [hname, ftSemNameToPath_semName]
  -- an error here takes both objects away without a message
  have hundo : ∀ {v : ShmWorld} {sem' : FtSem}, sem'.name = sem.name →
      Midway w₀ (bothObjects pid) v → w₀.Faulty → (do
        let _ ← ftSemUnlink sem'
        let _ ← shmCall (.shmUnlink (shmName pid))
        pure .returns : Shm ShmEnd).Runs shm v (ShmSettled w₀ pid) := fun hsame hv hfaulty =>
    (runs_unlink_both hclean (hsame ▸ hpath) hv _).mono fun _ _ hu => Or.inr ⟨hu.2, hfaulty⟩
  have hlength : ¬ 513 ≤ (semName pid ++ ' ' :: shmName pid).length := by
    rw [List.length_append, List.length_cons]
    omega
  unfold ftShmPublish
  dsimp only
  rw [if_neg hlength]
  refine runs_ftSemClose.bind ?_
  rintro _ _ ⟨rfl, rfl⟩
  dsimp only
  split
  next hclosed =>
    rw [hfd, Bool.not_eq_true'] at hclosed
    exact hundo rfl h.next.midway (h.midway.faulty_of_answer hclosed)
  next =>
    rw [sscanfWord_semName hsem]
    refine (runs_ftSemOpen h.next.midway).bind ?_
    rintro (_ | sharedSemT) _ ⟨hopened, rfl⟩
    · refine runs_quiet trivial h.next.next.midway (fun _ => Midway.next) fun _ v hv _ => ?_
      exact hundo rfl hv (hopened rfl)
    · refine runs_ftSemClose.bind ?_
      rintro _ v ⟨rfl, rfl⟩
      have hv := h.next.next.next
      refine runs_setenvShared (fun hfails => ?_) (runs_shmCall (runs_pure (Or.inl ⟨rfl, ?_⟩)))
      · refine runs_quiet trivial hv.next.midway (fun _ => Midway.next) fun _ v' hv' _ => ?_
        exact hundo rfl hv' (hv.midway.faulty hfails)
      · exact ⟨hv.midway.added, ⟨_, hv.block, rfl, rfl, rfl, rfl⟩, ftSemNameToPath_semName, rfl,
          rfl, hv.midway.removed⟩

theorem runs_ftruncate {β : Type} {Q : β → ShmWorld → Prop} {fd : CStr} {length : ℕ}
    {f : Bool → Shm β}
    (hfails : w.fails w.calls (.ftruncate (some fd) length) = true → (f false).Runs shm w.next Q)
    (hset : (f true).Runs shm (w.change (some fd) fun file => { file with length := length }) Q) :
    (shmCall (.ftruncate (some fd) length) >>= f).Runs shm w Q := by
  refine runs_shmCall ?_
  simp only [ShmWorld.answer, Option.isNone_some, Bool.or_false]
  split
  next h => exact hfails h
  next => exact hset

theorem runs_mmap {β : Type} {Q : β → ShmWorld → Prop} {fd : CStr} {f : Fd → Shm β}
    (hfails : w.fails w.calls (.mmap (some fd)) = true → (f none).Runs shm w.next Q)
    (hset : (f (some fd)).Runs shm w.next Q) :
    (shmCall (.mmap (some fd)) >>= f).Runs shm w Q := by
  refine runs_shmCall ?_
  simp only [ShmWorld.answer]
  split
  next h => exact hfails h
  next => exact hset

/-- The memory is given its size and its block. Wherever this fails, both objects are removed. -/
theorem runs_ftShmFill (hclean : w₀.CleansUp) (hname : sem.name = semName pid) {fd : CStr}
    (hfd : sem.fd = some fd) (hsem : (semName pid).length < 256)
    (hshm : (shmName pid).length < 256) (h : Midway w₀ (bothObjects pid) w) :
    (ftShmFill sem (some (shmPath (shmName pid))) (semName pid) (shmName pid)).Runs shm w
      (ShmSettled w₀ pid) := by
  have hpath : ftSemNameToPath sem.name = some (lockPath pid) := by
    rw [hname, ftSemNameToPath_semName]
  have hmem : shmPath (shmName pid) ∈ bothObjects pid := Or.inl rfl
  -- whatever fails from here on, both objects are taken away again
  have hfatal : ∀ {v : ShmWorld} {msg : String} {shmFd mapping : Fd} {locked : Bool},
      Midway w₀ (bothObjects pid) v → w₀.Faulty →
      (ftShmFatal msg sem shmFd mapping (shmName pid) locked).Runs shm v (ShmSettled w₀ pid) :=
    fun hv hfaulty =>
      (runs_ftShmFatal hclean hpath _ _ _ _ hv).mono fun _ _ hu => Or.inr ⟨hu, hfaulty⟩
  refine runs_ftruncate (fun hfails => ?_) ?_
  · exact hfatal h.next (h.faulty hfails)
  obtain ⟨file, hfile⟩ := h.added.present _ hmem
  obtain ⟨h₁, hsize⟩ := h.change hmem fun file => { file with length := ftSharedSize }
  have hh : HoldsBlock w₀ pid file.block _ := ⟨h₁, hsize.trans (by rw [hfile, Option.map_some])⟩
  refine runs_mmap (fun hfails => ?_) ?_
  · exact hfatal h₁.next (h₁.faulty hfails)
  refine runs_quiet trivial hh.next (fun _ => HoldsBlock.next) fun closed v hv hclosed => ?_
  cases closed with
  | false => exact hfatal hv.midway (hh.next.midway.faulty_of_answer hclosed)
  | true =>
    rw [if_neg (by simp)]
    refine runs_quiet trivial hv (fun _ => HoldsBlock.next) fun locked v' hv' hlocked => ?_
    cases locked with
    | false => exact hfatal hv'.midway (hv.midway.faulty_of_answer (hfd ▸ hlocked))
    | true =>
      rw [if_neg (by simp)]
      refine runs_shmCall ?_
      obtain ⟨h₂, hblock⟩ :=
        hv'.midway.change hmem fun file => { file with block := file.block.assigned }
      have hh' : HoldsBlock w₀ pid .created _ := ⟨h₂, hblock.trans (by rw [hv'.block]; rfl)⟩
      refine runs_quiet trivial hh' (fun _ => HoldsBlock.next) fun unlocked u hu hunlocked => ?_
      cases unlocked with
      | false => exact hfatal hu.midway (hh'.midway.faulty_of_answer (hfd ▸ hunlocked))
      | true =>
        rw [if_neg (by simp)]
        refine runs_quiet trivial hu (fun _ => HoldsBlock.next) fun unmapped u' hu' hunmapped => ?_
        cases unmapped with
        | false => exact hfatal hu'.midway (hu.midway.faulty_of_answer hunmapped)
        | true =>
          rw [if_neg (by simp)]
          exact runs_ftShmPublish hclean hname hfd hsem hshm hu'

theorem runs_ftSemCreate (h : Midway w₀ ∅ w) : (ftSemCreate (semName pid)).Runs shm w fun r w' =>
    (r = none ∧ Midway w₀ ∅ w' ∧ (w₀.Faulty ∨ w₀.files (lockPath pid) ≠ none)) ∨
      (r = some ⟨(semName pid).take 255, some (lockPath pid)⟩ ∧
        Midway w₀ {lockPath pid} w') := by
  rw [ftSemCreate, ftSemNameToPath_semName]
  refine runs_shmCall ?_
  simp only [ShmWorld.answer]
  rcases h.create (w.fails w.calls (.openExcl (lockPath pid))) (Set.notMem_empty _) with
    ⟨hcreate, hwhy⟩ | ⟨hcreate, hmade⟩
  · rw [hcreate]
    exact runs_pure (Or.inl ⟨rfl, h.next, hwhy.imp_left h.faulty⟩)
  · rw [hcreate]
    rw [insert_empty_eq] at hmade
    exact runs_pure (Or.inr ⟨rfl, hmade⟩)

theorem runs_shmOpen (h : Midway w₀ {lockPath pid} w) :
    (shmCall (.shmOpen (shmName pid))).Runs shm w fun r w' =>
      (r = none ∧ Midway w₀ {lockPath pid} w' ∧
          (w₀.Faulty ∨ w₀.files (shmPath (shmName pid)) ≠ none)) ∨
        (r = some (shmPath (shmName pid)) ∧ Midway w₀ (bothObjects pid) w') := by
  refine (runs_answer _).mono ?_
  rintro _ _ ⟨rfl, rfl⟩
  simp only [ShmWorld.answer]
  rcases h.create (w.fails w.calls (.shmOpen (shmName pid))) shmPath_ne_lockPath with
    ⟨hcreate, hwhy⟩ | ⟨hcreate, hmade⟩
  · rw [hcreate]
    exact Or.inl ⟨rfl, h.next, hwhy.imp_left h.faulty⟩
  · rw [hcreate]
    exact Or.inr ⟨rfl, hmade⟩

/-- What keeps the objects from being made. -/
def ShmWorld.Hindered (w : ShmWorld) : Prop :=
  w.Faulty ∨ w.pid = none ∨ ∃ pid, w.pid = some pid ∧
    (256 ≤ (semName pid).length ∨ 256 ≤ (shmName pid).length ∨
      ∃ path ∈ bothObjects pid, w.files path ≠ none)

/-- **`ft_shm_create` is all or nothing**, whichever of its calls fail and whatever stands under
the names: either it makes both objects, with a valid header, and makes them known; or it leaves
everything as it was, having removed nothing but its own, and this only if something was in its
way. Only the calls that remove an object are taken to succeed. -/
theorem shm_create_all_or_nothing (hclean : w.CleansUp) :
    ftShmCreate.Runs shm w fun e w' =>
      (e = .returns ∧ ∃ pid, w.pid = some pid ∧ Created w pid w') ∨
        (Untouched w w' ∧ w.Hindered) := by
  refine runs_quiet trivial (Midway.refl w) (fun _ => Midway.next) fun pid w₁ h₁ hpid => ?_
  cases pid with
  | none => exact runs_pure (Or.inr ⟨h₁.untouched, Or.inr (Or.inl hpid)⟩)
  | some pid =>
    -- names that are too long and objects that are there already stand in the way
    have hind : (256 ≤ (semName pid).length ∨ 256 ≤ (shmName pid).length ∨
        ∃ path ∈ bothObjects pid, w.files path ≠ none) → w.Hindered := fun h =>
      Or.inr (Or.inr ⟨pid, hpid, h⟩)
    dsimp only
    split
    next hlong => exact runs_pure (Or.inr ⟨h₁.untouched, hind (Or.inl hlong)⟩)
    split
    next hlong => exact runs_pure (Or.inr ⟨h₁.untouched, hind (Or.inr (Or.inl hlong))⟩)
    next hsem hshm =>
      have hfree : ∀ {path : CStr}, path ∈ bothObjects pid → w.Faulty ∨ w.files path ≠ none →
          w.Hindered := fun {path} hmem h =>
        h.elim Or.inl fun hthere => hind (Or.inr (Or.inr ⟨path, hmem, hthere⟩))
      refine (runs_ftSemCreate h₁).bind ?_
      rintro _ w₂ (⟨rfl, h₂, hwhy⟩ | ⟨rfl, h₂⟩)
      · exact runs_pure (Or.inr ⟨h₂.untouched, hfree (Or.inr rfl) hwhy⟩)
      have hname : (semName pid).take 255 = semName pid := List.take_of_length_le (by omega)
      rw [hname]
      refine (runs_shmOpen h₂).bind ?_
      rintro _ w₃ (⟨rfl, h₃, hwhy⟩ | ⟨rfl, h₃⟩)
      · refine runs_ftSemClose.bind ?_
        rintro _ _ ⟨rfl, rfl⟩
        refine (runs_ftSemUnlink hclean ftSemNameToPath_semName (Set.mem_singleton _) h₃.next).bind
          fun _ w₄ h₄ => ?_
        -- the first object is taken away again, and nothing is left behind
        rw [Set.sdiff_self] at h₄
        exact runs_pure (Or.inr ⟨h₄.untouched, hfree (Or.inl rfl) hwhy⟩)
      · refine (runs_ftShmFill hclean rfl rfl (by omega) (by omega) h₃).mono ?_
        rintro e w' (⟨rfl, hcreated⟩ | ⟨hundone, hfaulty⟩)
        · exact Or.inl ⟨rfl, pid, hpid, hcreated⟩
        · exact Or.inr ⟨hundone.untouched, Or.inl hfaulty⟩

end Create

/-- A process with the number 7 that finds nothing, and all of whose calls succeed. -/
def quietStart : ShmWorld := ⟨some 7, fun _ => none, none, false, [], 0, fun _ _ => false⟩

/-- It makes both objects. -/
theorem shm_create_quietStart :
    ftShmCreate.Runs shm quietStart fun e w' => e = .returns ∧ Created quietStart 7 w' := by
  refine (shm_create_all_or_nothing (w := quietStart) fun _ => ⟨fun _ => rfl, fun _ => rfl⟩).mono ?_
  rintro e w' (⟨he, pid, ⟨⟩, hcreated⟩ | ⟨-, hhindered⟩)
  · exact ⟨he, hcreated⟩
  · rcases hhindered with ⟨n, o, ⟨⟩⟩ | ⟨⟨⟩⟩ | ⟨pid, ⟨⟩, hlong | hlong | ⟨path, -, hthere⟩⟩
    · exact absurd hlong (by decide)
    · exact absurd hlong (by decide)
    · exact absurd rfl hthere

end LibFaketime
