import LibFaketime.ShmCreate

/-!
# The names of the shared objects

`FAKETIME_SHARED` is a text from the environment, and the two names in it become names of objects
and the path of a lock. It is split by a scan of limited width first and looked at afterwards, so a
name that is too long is cut, and what is behind the cut counts as the next one. What comes of that
is still looked at whole: a name is what the library itself would have made, its prefix and digits,
or the text is refused (`LibFaketime.shared_names_are_confined`).
-/

namespace LibFaketime

open Effects Effects.Prog

/-! ### Reading the variable -/

/-- What the name of a shared memory object begins with. -/
def shmPrefix : CStr := "/faketime_shm_".toList

/-- `valid_shared_name`. -/
def validSharedName (name pre : CStr) : Bool :=
  if !pre.isPrefixOf name || name.drop pre.length == [] then false
  else (name.drop pre.length).all fun c => !(decide (c < '0') || decide ('9' < c))

/-- `sscanf` with conversions `%s` of these widths, and a space between them: the words that are
converted. -/
def sscanfWords : List ℕ → CStr → List CStr
  | [], _ => []
  | width :: widths, value =>
    match scanWord width value with
    | none => []
    | some (word, rest) => word :: sscanfWords widths (rest.dropWhile isspace)

/-- `parse_shared_objects`: the two names. -/
def parseSharedObjects (value : CStr) : Option (CStr × CStr) :=
  match sscanfWords [255, 255, 1] value with
  | [semName, shmName] =>
    if validSharedName semName semPrefix && validSharedName shmName shmPrefix then
      some (semName, shmName)
    else none
  | _ => none

/-! ### Writing it -/

/-- `PATH_BUFSIZE`. -/
def pathBufsize : ℕ := 4096

/-- The names in one text. -/
def sharedObjs (pid : ℕ) : CStr := semName pid ++ ' ' :: shmName pid

/-- The wrapper's value of `FAKETIME_SHARED`; nothing where it exits because a buffer is too
small. -/
def wrapperSharedObjs (pid : ℕ) : Option CStr :=
  if pathBufsize ≤ (semName pid).length then none
  else if pathBufsize ≤ (shmName pid).length then none
  else if pathBufsize * 2 + 1 ≤ (semName pid).length + (shmName pid).length + 1 then none
  else some (sharedObjs pid)

/-! ### Valid names -/

section Names

variable {name pre value semN shmN digits : CStr} {c : Char} {pid : ℕ}

/-- The characters `0` to `9`. -/
def IsDecimal (digits : CStr) : Prop := digits ≠ [] ∧ ∀ c ∈ digits, '0' ≤ c ∧ c ≤ '9'

theorem not_slash_mem (h : IsDecimal digits) : '/' ∉ digits := fun hmem =>
  absurd (h.2 _ hmem) (by decide)

/-- **A valid name is the prefix and digits.** -/
theorem validSharedName_iff :
    validSharedName name pre = true ↔ ∃ digits, IsDecimal digits ∧ name = pre ++ digits := by
  have hdigit : ∀ c : Char,
      (!(decide (c < '0') || decide ('9' < c))) = true ↔ '0' ≤ c ∧ c ≤ '9' := by
    intro c
    rw [Bool.not_eq_true', Bool.or_eq_false_iff, decide_eq_false_iff_not, decide_eq_false_iff_not,
      Char.not_lt, Char.not_lt]
  rw [validSharedName]
  constructor
  · intro h
    split at h
    next => cases h
    next hpre =>
      rw [Bool.or_eq_true, not_or, Bool.not_eq_true, Bool.not_eq_false', beq_iff_eq] at hpre
      obtain ⟨digits, rfl⟩ := List.isPrefixOf_iff_prefix.mp hpre.1
      rw [List.drop_left] at h hpre
      exact ⟨digits, ⟨hpre.2, fun c hc => (hdigit c).mp (List.all_eq_true.mp h c hc)⟩, rfl⟩
  · rintro ⟨digits, ⟨hne, hdigits⟩, rfl⟩
    have hpre : pre.isPrefixOf (pre ++ digits) = true := by simp
    rw [List.drop_left, hpre, if_neg (by simpa using hne), List.all_eq_true]
    exact fun c hc => (hdigit c).mpr (hdigits c hc)

theorem isDecimal_toDigits (pid : ℕ) : IsDecimal (Nat.toDigits 10 pid) := by
  refine ⟨Nat.toDigits_ne_nil, fun c hc => ?_⟩
  have hdigit := Nat.isDigit_of_mem_toDigits (by decide) (by decide) hc
  simp only [Char.isDigit, Bool.and_eq_true, decide_eq_true_eq, ge_iff_le] at hdigit
  exact hdigit

/-- What is accepted are two valid names. -/
theorem valid_of_parseSharedObjects (h : parseSharedObjects value = some (semN, shmN)) :
    validSharedName semN semPrefix = true ∧ validSharedName shmN shmPrefix = true := by
  rw [parseSharedObjects] at h
  split at h
  next =>
    split at h
    next hvalid =>
      cases h
      rwa [Bool.and_eq_true] at hvalid
    next => cases h
  next => cases h

/-- The path of the lock: a fixed directory, and a name that ends in digits of the name. -/
theorem ftSemNameToPath_prefix (digits : CStr) : ftSemNameToPath (semPrefix ++ digits) =
    some ("/dev/shm/faketime_lock_".toList ++ digits.take 232) := by
  have hlock : "/dev/shm/faketime_lock_".toList.length = 23 := rfl
  rw [ftSemNameToPath, strstr_append, Option.map_some, List.drop_left, List.take_append, hlock,
    List.take_of_length_le (by rw [hlock]; decide)]

/-! ### The names of a process -/

theorem isspace_of_mem_shmName (h : c ∈ shmName pid) : isspace c = false := by
  rcases List.mem_append.mp h with hc | hc
  · have hprefix : "/faketime_shm_".toList.all (fun c => !isspace c) = true := rfl
    have hblack := List.all_eq_true.mp hprefix c hc
    rwa [Bool.not_eq_true'] at hblack
  · exact isspace_of_isDigit (isDigit_of_mem_toDigits hc).1

/-- **The names of a process are read back**, if they fit the buffers. -/
theorem parseSharedObjects_sharedObjs (hsem : (semName pid).length < 256)
    (hshm : (shmName pid).length < 256) :
    parseSharedObjects (sharedObjs pid) = some (semName pid, shmName pid) := by
  have hfirst : scanWord 255 (sharedObjs pid) = some (semName pid, ' ' :: shmName pid) :=
    scanWord_append (List.append_ne_nil_of_left_ne_nil (by decide) _)
      (fun c hc => isspace_of_mem_semName hc) (by omega) (by rintro c ⟨⟩; rfl)
  have hne : shmName pid ≠ [] := List.append_ne_nil_of_left_ne_nil (by decide) _
  have hsecond : scanWord 255 ((' ' :: shmName pid).dropWhile isspace) =
      some (shmName pid, []) := by
    have hhead : (' ' :: shmName pid).dropWhile isspace = shmName pid ++ [] := by
      obtain ⟨c, l, hcons⟩ := List.exists_cons_of_ne_nil hne
      have hmem : c ∈ shmName pid := by
        rw [hcons]
        exact List.mem_cons_self
      have hc := isspace_of_mem_shmName hmem
      rw [List.dropWhile_cons_of_pos rfl, List.append_nil, hcons,
        List.dropWhile_cons_of_neg (by rw [hc]; simp)]
    rw [hhead]
    exact scanWord_append hne (fun c hc => isspace_of_mem_shmName hc) (by omega)
      fun c hc => by cases hc
  have hwords : sscanfWords [255, 255, 1] (sharedObjs pid) = [semName pid, shmName pid] := by
    rw [sscanfWords, hfirst]
    dsimp only
    rw [sscanfWords, hsecond]
    rfl
  have hvalid : (validSharedName (semName pid) semPrefix &&
      validSharedName (shmName pid) shmPrefix) = true := by
    rw [Bool.and_eq_true, validSharedName_iff, validSharedName_iff]
    exact ⟨⟨_, isDecimal_toDigits pid, rfl⟩, ⟨_, isDecimal_toDigits pid, rfl⟩⟩
  rw [parseSharedObjects, hwords]
  exact if_pos hvalid

/-- The names of a process whose number is a `long` fit all buffers. -/
theorem length_toDigits_le (h : pid < 2 ^ 63) : (Nat.toDigits 10 pid).length ≤ 19 :=
  (Nat.length_toDigits_le_iff (by decide) (by decide)).mpr (h.trans_le (by decide))

theorem length_semName (pid : ℕ) : (semName pid).length = 14 + (Nat.toDigits 10 pid).length :=
  List.length_append

theorem length_shmName (pid : ℕ) : (shmName pid).length = 14 + (Nat.toDigits 10 pid).length :=
  List.length_append

end Names

/-! ### What `ft_shm_create` puts into the variable -/

/-- A call that puts nothing but `value` into `FAKETIME_SHARED`. -/
def ShmOp.Puts (value : CStr) : ShmOp → Prop
  | .setenvShared v => v = value
  | _ => True

section Puts

variable {value : CStr} {pid : ℕ}

theorem puts_ftSemOpen (name : CStr) : (ftSemOpen name).Uses (ShmOp.Puts value) := by
  rw [ftSemOpen]
  split
  · exact uses_pure _
  · refine uses_perform_bind trivial fun fd => ?_
    cases fd <;> exact uses_pure _

theorem puts_ftSemCreate (name : CStr) : (ftSemCreate name).Uses (ShmOp.Puts value) := by
  rw [ftSemCreate]
  split
  · exact uses_pure _
  · refine uses_perform_bind trivial fun fd => ?_
    cases fd <;> exact uses_pure _

theorem puts_ftSemClose (sem : FtSem) : (ftSemClose sem).Uses (ShmOp.Puts value) :=
  uses_perform_bind trivial fun _ => uses_pure _

theorem puts_ftSemUnlink (sem : FtSem) : (ftSemUnlink sem).Uses (ShmOp.Puts value) := by
  rw [ftSemUnlink]
  split
  · exact uses_pure _
  · exact uses_perform trivial

/-- A call that is made under a condition. -/
theorem puts_if {α : Type} {c : Bool} {o : ShmOp} {p : Shm α} (ho : o.Puts value)
    (hp : p.Uses (ShmOp.Puts value)) :
    (if c = true then (shmCall o >>= fun _ => p) else p).Uses (ShmOp.Puts value) := by
  split
  · exact uses_perform_bind ho fun _ => hp
  · exact hp

theorem puts_ftShmCleanupCreated (sem : FtSem) (shmFd mapping : Fd) (shmName : CStr)
    (locked : Bool) :
    (ftShmCleanupCreated sem shmFd mapping shmName locked).Uses (ShmOp.Puts value) := by
  unfold ftShmCleanupCreated
  dsimp only
  refine puts_if (o := .flockUn sem.fd) trivial ?_
  refine puts_if (o := .munmap mapping) trivial ?_
  refine puts_if (o := .close shmFd) trivial ?_
  exact (puts_ftSemClose sem).bind fun _ => (puts_ftSemUnlink _).bind fun _ =>
    uses_perform_bind trivial fun _ => uses_pure _

theorem puts_ftShmFatal (msg : String) (sem : FtSem) (shmFd mapping : Fd) (shmName : CStr)
    (locked : Bool) :
    (ftShmFatal msg sem shmFd mapping shmName locked).Uses (ShmOp.Puts value) :=
  uses_perform_bind trivial fun _ =>
    (puts_ftShmCleanupCreated _ _ _ _ _).bind fun _ => uses_pure _

theorem puts_ftShmPublish (semN : FtSem) (semName shmName : CStr) :
    (ftShmPublish semN semName shmName).Uses (ShmOp.Puts (semName ++ ' ' :: shmName)) := by
  have hundo : ∀ sem : FtSem, (do
      let _ ← ftSemUnlink sem
      let _ ← shmCall (.shmUnlink shmName)
      pure .returns : Shm ShmEnd).Uses (ShmOp.Puts (semName ++ ' ' :: shmName)) := fun sem =>
    (puts_ftSemUnlink sem).bind fun _ => uses_perform_bind trivial fun _ => uses_pure _
  unfold ftShmPublish
  dsimp only
  split
  · exact hundo semN
  · refine (puts_ftSemClose semN).bind fun closed => ?_
    split
    · exact hundo _
    · refine (puts_ftSemOpen _).bind fun opened => ?_
      cases opened with
      | none => exact uses_perform_bind trivial fun _ => hundo _
      | some sem =>
        refine (puts_ftSemClose sem).bind fun _ => ?_
        -- the only call that touches the variable
        refine uses_perform_bind rfl fun ok => ?_
        split
        · exact uses_perform_bind trivial fun _ => uses_pure _
        · exact uses_perform_bind trivial fun _ => hundo _

theorem puts_ftShmFill (semN : FtSem) (shmFdN : Fd) (semName shmName : CStr) :
    (ftShmFill semN shmFdN semName shmName).Uses
      (ShmOp.Puts (semName ++ ' ' :: shmName)) := by
  unfold ftShmFill
  refine uses_perform_bind trivial fun ok => ?_
  split
  · exact puts_ftShmFatal _ _ _ _ _ _
  refine uses_perform_bind trivial fun mapping => ?_
  cases mapping with
  | none => exact puts_ftShmFatal _ _ _ _ _ _
  | some mapping =>
    refine uses_perform_bind trivial fun closed => ?_
    split
    · exact puts_ftShmFatal _ _ _ _ _ _
    refine uses_perform_bind trivial fun locked => ?_
    split
    · exact puts_ftShmFatal _ _ _ _ _ _
    refine uses_perform_bind trivial fun _ => uses_perform_bind trivial fun unlocked => ?_
    split
    · exact puts_ftShmFatal _ _ _ _ _ _
    refine uses_perform_bind trivial fun unmapped => ?_
    split
    · exact puts_ftShmFatal _ _ _ _ _ _
    · exact puts_ftShmPublish semN semName shmName

/-- **What `ft_shm_create` puts into `FAKETIME_SHARED`** are the names of the process, and only if
they fit the buffers. -/
theorem sharedObjs_of_makes {w : ShmWorld} (hpid : w.pid = some pid)
    (h : ftShmCreate.Makes shm (fun o _ => o = .setenvShared value) w) :
    value = sharedObjs pid ∧ (semName pid).length < 256 ∧ (shmName pid).length < 256 := by
  obtain h | ⟨r, w', hr, h⟩ := h
  · cases h
  · obtain rfl : some pid = r := by
      have hanswer := congrArg Prod.fst (Except.ok.inj hr)
      exact hpid.symm.trans hanswer
    have hnone : ∀ {α : Type} {p : Shm α} {v : ShmWorld}, p.Uses (ShmOp.Puts (sharedObjs pid)) →
        p.Makes shm (fun o _ => o = .setenvShared value) v → value = sharedObjs pid := by
      intro α p v hp hmakes
      by_contra hne
      refine hp.not_makes (fun o _ ho heq => ?_) hmakes
      rw [heq] at ho
      exact hne ho
    change Makes shm _ (if 256 ≤ (semName pid).length then pure ShmEnd.returns else _) w' at h
    split at h
    next => exact h.elim
    next hsem =>
    split at h
    next => exact h.elim
    next hshm =>
      refine ⟨hnone ?_ h, by omega, by omega⟩
      refine (puts_ftSemCreate _).bind fun sem => ?_
      cases sem with
      | none => exact uses_pure _
      | some sem =>
        refine uses_perform_bind trivial fun fd => ?_
        cases fd with
        | none =>
          exact (puts_ftSemClose _).bind fun _ => (puts_ftSemUnlink _).bind fun _ => uses_pure _
        | some fd => exact puts_ftShmFill _ _ _ _

end Puts

/-- **The names of the shared objects are confined, and read back.** Whatever the text is, the names
that come of it are the two prefixes, each with digits behind it, and so the lock is in its
directory; and what `ft_shm_create` or the wrapper puts into the variable, for whatever number of
the process, are names that come of it again. -/
theorem shared_names_are_confined :
    (∀ value semN shmN, parseSharedObjects value = some (semN, shmN) →
      (∃ digits, IsDecimal digits ∧ semN = "/faketime_sem_".toList ++ digits ∧
        ∃ digits', digits' <+: digits ∧ '/' ∉ digits' ∧
          ftSemNameToPath semN = some ("/dev/shm/faketime_lock_".toList ++ digits')) ∧
      ∃ digits, IsDecimal digits ∧ shmN = "/faketime_shm_".toList ++ digits) ∧
    (∀ (pid : ℕ) (w : ShmWorld) (value : CStr), w.pid = some pid →
      ftShmCreate.Makes shm (fun o _ => o = .setenvShared value) w →
        parseSharedObjects value = some (semName pid, shmName pid)) ∧
    ∀ pid < 2 ^ 63, ∃ value, wrapperSharedObjs pid = some value ∧
      parseSharedObjects value = some (semName pid, shmName pid) := by
  refine ⟨fun value semN shmN h => ?_, fun pid w value hpid h => ?_, fun pid hpid => ?_⟩
  · obtain ⟨hsem, hshm⟩ := valid_of_parseSharedObjects h
    obtain ⟨digits, hdigits, rfl⟩ := validSharedName_iff.mp hsem
    refine ⟨⟨digits, hdigits, rfl, digits.take 232, List.take_prefix _ _, fun hmem => ?_,
      ftSemNameToPath_prefix digits⟩, validSharedName_iff.mp hshm⟩
    exact not_slash_mem hdigits (List.mem_of_mem_take hmem)
  · obtain ⟨rfl, hsem, hshm⟩ := sharedObjs_of_makes hpid h
    exact parseSharedObjects_sharedObjs hsem hshm
  · have hdigits := length_toDigits_le hpid
    have hsem := length_semName pid
    have hshm := length_shmName pid
    have hsmall : ∀ n, n ≤ 70 → ¬ pathBufsize ≤ n := fun n hn h =>
      absurd (h.trans hn) (by decide)
    refine ⟨sharedObjs pid, ?_, parseSharedObjects_sharedObjs (by omega) (by omega)⟩
    rw [wrapperSharedObjs, if_neg (hsmall _ (by omega)), if_neg (hsmall _ (by omega)),
      if_neg fun h => hsmall _ (by omega) (le_trans (by rw [pathBufsize]; decide) h)]

/-- A process that finds nothing makes its objects known. -/
theorem makes_setenvShared_quietStart :
    ftShmCreate.Makes shm (fun o _ => o = .setenvShared (sharedObjs 7)) quietStart := by
  -- the lock and the block are made
  refine Or.inr ⟨some 7, _, rfl, ?_⟩
  refine Or.inr ⟨some "/dev/shm/faketime_lock_7".toList, _, rfl, ?_⟩
  refine Or.inr ⟨some "/dev/shm/faketime_shm_7".toList, _, rfl, ?_⟩
  -- the block gets its length and its header
  refine Or.inr ⟨true, _, rfl, ?_⟩
  refine Or.inr ⟨some "/dev/shm/faketime_shm_7".toList, _, rfl, ?_⟩
  refine Or.inr ⟨true, _, rfl, ?_⟩
  refine Or.inr ⟨true, _, rfl, ?_⟩
  refine Or.inr ⟨(), _, rfl, ?_⟩
  refine Or.inr ⟨true, _, rfl, ?_⟩
  refine Or.inr ⟨true, _, rfl, ?_⟩
  -- the lock can be opened by its name
  refine Or.inr ⟨true, _, rfl, ?_⟩
  refine Or.inr ⟨some "/dev/shm/faketime_lock_7".toList, _, rfl, ?_⟩
  refine Or.inr ⟨true, _, rfl, ?_⟩
  exact Or.inl rfl

/-- What it makes known is read back. -/
theorem shared_names_are_confined_quietStart :
    ftShmCreate.Makes shm (fun o _ => o = .setenvShared (sharedObjs 7)) quietStart ∧
      parseSharedObjects (sharedObjs 7) = some (semName 7, shmName 7) :=
  ⟨makes_setenvShared_quietStart,
    shared_names_are_confined.2.1 7 quietStart (sharedObjs 7) rfl makes_setenvShared_quietStart⟩

end LibFaketime
