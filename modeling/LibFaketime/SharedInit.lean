import LibFaketime.SharedNames

/-!
# Attaching to the shared objects, and removing them

A process finds the shared objects through `FAKETIME_SHARED`, or makes them, and when it exits it
removes those it has made. What it goes by is a flag of its own, the variable, and the process
number in the name of the lock, which it compares with what `getpid` tells it.

These are the functions; what becomes of the objects when many processes run them is the subject of
a file of its own.
-/

namespace LibFaketime

open Effects Effects.Prog

/-! ### The calls -/

/-- The numbers of processes. -/
abbrev Pid := Fin (2 ^ 31)

/-- The static variables of a process that are about the shared objects. -/
structure ObjVars where
  /-- The state of `ft_shm_init`: it has been called. -/
  started : Bool
  shmCreator : Bool
  /-- `ft_shared`: nothing for a null pointer, and `MAP_FAILED` or the mapping otherwise. -/
  ftShared : Option Fd
  sharedSem : FtSem
  sharedSemInitialized : Bool

/-- Their initial values. -/
def ObjVars.initial : ObjVars := ⟨false, false, none, ⟨[], none⟩, false⟩

/-- What a process asks of the system about the shared objects, and the variables it reads and
assigns. -/
inductive ObjOp where
  /-- A call of `ft_shm_create`, or about the lock. -/
  | shm (o : ShmOp)
  /-- `getenv("FAKETIME_SHARED")`. -/
  | getenvShared
  /-- `unsetenv("FAKETIME_SHARED")`. -/
  | unsetenvShared
  /-- `getenv("FAKETIME_FLSHM") != NULL`. -/
  | getenvFlshm
  /-- `getenv("FAKETIME_FAKEPID")`. -/
  | getenvFakepid
  /-- `shm_open(name, O_RDWR, S_IWUSR|S_IRUSR)`. -/
  | shmOpenRdwr (name : CStr)
  /-- `fstat`, for the size. -/
  | fstat (fd : Fd)
  /-- The block behind a mapping. -/
  | readBlock (mapping : Fd)
  | loadVars
  | storeVars (f : ObjVars → ObjVars)
  /-- The process comes to life as a copy of another one. -/
  | forked (parent : Pid)
  /-- It is the first of its kind, without `FAKETIME_SHARED`. -/
  | begun
  /-- It has become another program, with the environment it had. -/
  | execve

/-- The answers. -/
@[reducible] def ObjOp.Ans : ObjOp → Type
  | .shm o => o.Ans
  | .getenvShared | .getenvFakepid => Option CStr
  | .getenvFlshm => Bool
  | .shmOpenRdwr _ => Fd
  | .fstat _ => Option ℤ
  | .readBlock _ => FtShared
  | .loadVars => ObjVars
  | _ => Unit

/-- The interface. -/
abbrev objSys : Interface := ⟨ObjOp, ObjOp.Ans⟩

/-- A function over these calls. -/
abbrev Obj (α : Type) := Prog objSys α

/-- One call. -/
def objCall (o : ObjOp) : Obj o.Ans := perform (I := objSys) o

/-- A function about the lock, or `ft_shm_create`. -/
def liftShm {α : Type} (p : Shm α) : Obj α := p.via (J := objSys) .shm fun _ r => r

/-! ### Who the process is -/

/-- `FAKETIME_FAKEPID` as a number; `-1` for a text that is none, or does not fit. -/
def parseFakepid (pidstring : CStr) : ℤ :=
  match strtoPrefixed pidstring with
  | some (neg, n, []) =>
    if neg && n != 0 then -1 else if 2 ^ 31 ≤ n then -1 else n
  | _ => -1

/-- `getpid`. With `FAKE_PID` it is what `FAKETIME_FAKEPID` says. -/
def getpid (fakePid : Bool) : Obj ℤ := do
  let real : Obj ℤ := do
    match ← liftShm (shmCall .realGetpid) with
    | none => pure (-1)
    | some pid => pure pid
  if fakePid then
    match ← objCall .getenvFakepid with
    | some pidstring => pure (parseFakepid pidstring)
    | none => real
  else real

/-- `sscanf(sem_name, "/faketime_sem_%d", &sem_owner_pid)`: an `int`, whatever the digits. -/
def semOwnerPid (semName : CStr) : Option ℤ :=
  if semPrefix.isPrefixOf semName then
    (strtol (semName.drop semPrefix.length)).map fun r => (min r.1 (2 ^ 63 - 1)).bmod (2 ^ 32)
  else none

/-! ### Removing the objects -/

/-- `ft_shm_destroy`. -/
def ftShmDestroy (fakePid : Bool) : Obj ShmEnd := do
  match ← objCall .getenvShared with
  | none => pure .returns
  | some ftSharedEnv =>
    match parseSharedObjects ftSharedEnv with
    | none => pure .exits
    | some (semName, shmName) =>
      match ← liftShm (ftSemOpen semName) with
      | none => pure .returns
      | some ftSem =>
        match semOwnerPid semName with
        | none => pure .exits
        | some owner =>
          if (← getpid fakePid) = owner then
            let _ ← liftShm (ftSemUnlink ftSem)
            let _ ← objCall (.shm (.shmUnlink shmName))
            objCall .unsetenvShared
          let _ ← liftShm (ftSemClose ftSem)
          pure .returns

/-- A process gives back the lock. -/
def detachSem (v : ObjVars) : Obj Unit := do
  if v.sharedSemInitialized then
    let (_, sem) ← liftShm (ftSemClose v.sharedSem)
    objCall (.storeVars fun v => { v with sharedSem := sem, sharedSemInitialized := false })

/-- And the memory. -/
def detachShared (v : ObjVars) : Obj Unit := do
  if let some mapping := v.ftShared then
    let _ ← objCall (.shm (.munmap mapping))
    objCall (.storeVars fun v => { v with ftShared := none })

/-- What `ft_cleanup` does about the shared objects. -/
def ftCleanupShared (fakePid : Bool) : Obj Unit := do
  let v ← objCall .loadVars
  detachShared v
  detachSem v
  if v.shmCreator then
    let _ ← ftShmDestroy fakePid
    objCall (.storeVars fun v => { v with shmCreator := false })

/-! ### Attaching -/

/-- `ft_shm_cleanup_attached`. -/
def ftShmCleanupAttached (shmFd : Fd) : Obj Unit := do
  let v ← objCall .loadVars
  if let some (some mapping) := v.ftShared then
    let _ ← objCall (.shm (.munmap (some mapping)))
  objCall (.storeVars fun v => { v with ftShared := none })
  if shmFd.isSome then
    let _ ← objCall (.shm (.close shmFd))
  detachSem v

/-- A failure to attach. -/
def ftShmGiveUp (msg : String) (shmFd : Fd) : Obj ShmEnd := do
  objCall (.shm (.perror msg))
  ftShmCleanupAttached shmFd
  pure .exits

/-- The part of `ft_shm_really_init` that attaches to the shared memory. -/
def ftShmAttach (shmName : CStr) : Obj ShmEnd := do
  match ← objCall (.shmOpenRdwr shmName) with
  | none => ftShmGiveUp "libfaketime: In ft_shm_init(), shm_open failed" none
  | some fd =>
    match ← objCall (.fstat (some fd)) with
    | none => ftShmGiveUp "libfaketime: In ft_shm_init(), fstat on shared memory failed" (some fd)
    | some size =>
      if size < ftSharedSize then
        ftShmGiveUp "libfaketime: In ft_shm_init(), shared memory is too small" (some fd)
      else
        let ftShared ← objCall (.shm (.mmap (some fd)))
        objCall (.storeVars fun v => { v with ftShared := some ftShared })
        if ftShared.isNone then
          ftShmGiveUp "libfaketime: In ft_shm_init(), mmap failed" (some fd)
        else if !ftSharedHeaderValid (← objCall (.readBlock ftShared)) then
          ftShmGiveUp "libfaketime: In ft_shm_init(), incompatible shared-memory header" (some fd)
        else if !(← objCall (.shm (.close (some fd)))) then
          ftShmGiveUp "libfaketime: In ft_shm_init(), close failed" none
        else pure .returns

/-- `ft_shm_create`, and the variable afterwards; nothing if the process exits. -/
def recreate : Obj (Option (Option CStr)) := do
  match ← liftShm ftShmCreate with
  | .exits => pure none
  | .returns =>
    let ftSharedEnv ← objCall .getenvShared
    pure (some ftSharedEnv)

/-- The check for stale objects. -/
def checkStale (ftSharedEnv : Option CStr) : Obj (Option (Option CStr)) :=
  match ftSharedEnv with
  | none => pure (some none)
  | some value =>
    match parseSharedObjects value with
    | none => pure none
    | some (semName, _) => do
      match ← liftShm (ftSemOpen semName) with
      | none => recreate
      | some sharedSemR =>
        let _ ← liftShm (ftSemClose sharedSemR)
        pure (some (some value))

/-- What follows the label `retry_shared_objects`. If the lock is gone, and is not one that the
process has made, it goes on with `again`. -/
def attachOrElse (again : Obj ShmEnd) (ftSharedEnv : Option CStr) : Obj ShmEnd :=
  match ftSharedEnv with
  | none => pure .returns
  | some value =>
    match sscanfWords [255, 255] value with
    | [semName, shmName] => do
      match ← liftShm (ftSemOpen semName) with
      | some sharedSem =>
        objCall (.storeVars fun v =>
          { v with sharedSem := sharedSem, sharedSemInitialized := true })
        ftShmAttach shmName
      | none => if (← objCall .loadVars).shmCreator then pure .exits else again
    | _ => pure .exits

/-- The loop around it, with the number of times the objects may still be made anew. -/
def retrySharedObjects : ℕ → Option CStr → Obj ShmEnd
  | 0 => attachOrElse (pure .exits)
  | retries + 1 => attachOrElse do
    -- drop the stale pair before creating a replacement for this process
    objCall .unsetenvShared
    match ← recreate with
    | none => pure .exits
    | some ftSharedEnv => retrySharedObjects retries ftSharedEnv

/-- `ft_shm_really_init`. -/
def ftShmReallyInit : Obj ShmEnd := do
  let found : Obj (Option (Option CStr)) := do
    match ← objCall .getenvShared with
    | none => recreate
    | some value => pure (some (some value))
  match ← found with
  | none => pure .exits
  | some ftSharedEnv =>
    match ← checkStale ftSharedEnv with
    | none => pure .exits
    | some ftSharedEnv =>
      match ← retrySharedObjects 2 ftSharedEnv with
      | .exits => pure .exits
      | .returns =>
        if ← objCall .getenvFlshm then objCall .unsetenvShared
        pure .returns

/-- `ft_shm_init`, in a process with one thread. -/
def ftShmInitOnce : Obj ShmEnd := do
  if (← objCall .loadVars).started then pure .returns
  else
    objCall (.storeVars fun v => { v with started := true })
    ftShmReallyInit

end LibFaketime
