import LibFaketime.WriteAll

/-!
# The save file

Processes append their timestamps to one file, sixteen bytes each, and take turns at it: a
record is written with the lock held. It need not be written at once. `write` may take a part
of it and fail on the rest, and then `write_all` gives up and leaves in the file what it has
written so far; every later record is out of step from there on. So the file consists of
whole records exactly as long as no `write` fails behind one that took a part of a record
(`LibFaketime.save_file_is_whole_iff`).

A call of `save_time` is described by what it meets (`LibFaketime.Save`): the process that
makes it, and what the lock and `write` answer it, in their order.
-/

namespace LibFaketime

open Effects Effects.Prog

/-! ### Torn records -/

/-- **A record is torn**: the first answer at which `write_all` gives up comes when a part of the
record has been written. -/
def Torn (results : ℕ → WriteResult) : Prop :=
  ∃ n, GivesUp results n ∧ (∀ m < n, ¬ GivesUp results m) ∧ 0 < written results n ∧
    written results n < savedTimestampSize

/-! ### A call of `save_time` -/

/-- **A call of `save_time`**: the process, the time, and what the system answers. `write` never
reports more bytes than it was given. -/
structure Save where
  proc : Proc
  tp : Timespec
  /-- How often the lock is interrupted. -/
  interruptions : ℕ
  /-- Whether it is taken after that; otherwise it fails. -/
  granted : Bool
  /-- What `write` answers, call by call. -/
  results : ℕ → WriteResult
  /-- Whether the lock is released. -/
  released : Bool
  counts : ∀ n k, results n = .wrote k → k ≤ savedTimestampSize - written results n

namespace Save

variable (e : Save) (file : List UInt8)

/-- The bytes of the record. -/
def record : List UInt8 := (savedTimestamp e.tp).bytes

/-- The system such a call meets, with `file` in the save file. -/
def world : World where
  os n
    | .ftSemLock => some (if n < e.interruptions then .interrupted
        else if e.granted then .acquired else .failed)
    | .ftSemUnlock => some e.released
    | .write _ => some (e.results (n - (e.interruptions + 1)))
    | _ => none
  file _ _ := none
  now := 0
  proc := e.proc
  dontFake := false
  shm := .created
  semHeld := false
  mutexHeld := false
  rest := []
  saved := file

/-- The system when the lock has been taken. -/
def locked : World := { e.world file with now := e.interruptions + 1, semHeld := true }

/-- **What is in the file after the call**, whether it returns or exits. -/
def after : List UInt8 := ((saveTime (e.interruptions + 1) e.tp).last seq (e.world file)).saved

/-- `write_all` reports that it has not written the record. -/
def Fails : Prop := (writeAll e.record).Runs seq (e.locked file) fun ok _ => ok = false

/-- The record is written, and torn. -/
def Tears : Prop :=
  e.proc.sharedSemInitialized = true ∧ e.proc.outfileOpen = true ∧ e.granted = true ∧
    Torn e.results

end Save

/-- What is in a file after some calls, in the order in which they got the lock. -/
def fileAfter (saves : List Save) : List UInt8 := saves.foldl (fun file e => e.after file) []

/-- **The file consists of whole records**, in the order of the calls, and the last call has
added nothing if it failed. -/
structure Intact (saves : List Save) : Prop where
  length : savedTimestampSize ∣ (fileAfter saves).length
  records : ∃ kept : List Timespec, kept.Sublist (saves.map Save.tp) ∧
    fileAfter saves = kept.flatMap fun tp => (savedTimestamp tp).bytes
  failed : ∀ l e, saves = l ++ [e] → e.Fails (fileAfter l) → fileAfter saves = fileAfter l

/-! ### The loop of `write_all` -/

namespace Save

variable {e : Save} {file : List UInt8}

theorem length_record (e : Save) : e.record.length = savedTimestampSize := by
  simp [record, savedTimestamp, SavedTimestamp.bytes, htobe64, savedTimestampSize]

/-- What the loop of `write_all` leaves when it has come to an end at call `N`: either
the record is complete, or the answer to that call made it give up. -/
def LoopEnds (e : Save) (file : List UInt8) (n : ℕ) (ok : Bool) (v : World) : Prop :=
  v.os = (e.world file).os ∧ ∃ N, v.saved = file ++ e.record.take (written e.results N) ∧
    (∀ m, n ≤ m → m < N → ¬ GivesUp e.results m) ∧
    ((ok = true ∧ written e.results N = savedTimestampSize) ∨
      (ok = false ∧ written e.results N < savedTimestampSize ∧ GivesUp e.results N))

/-- **What `write_all` does**, with all its answers. -/
theorem runs_writeAll_results (e : Save) (file : List UInt8) :
    (writeAll e.record).Runs seq (e.locked file) (e.LoopEnds file 0) := by
  have hos : ∀ m rest, (e.locked file).os (e.interruptions + 1 + m) (.write rest) =
      some (e.results m) := by
    intro m rest
    change some (e.results (e.interruptions + 1 + m - (e.interruptions + 1))) = _
    rw [Nat.add_sub_cancel_left]
  refine Runs.mono (runs_writeAllLoop_outcomes e.record (n := 0) hos
    (fun m hm => absurd hm (by omega)) rfl (List.append_nil file).symm (by omega)) ?_
  rintro ok v ⟨hv, n, hbefore, hafter⟩
  rw [length_record] at hafter
  have hkept : ∀ m, 0 ≤ m → m < n → ¬ GivesUp e.results m := fun m _ hm => (hbefore m hm).kept
  rcases hafter with ⟨hok, hall, -, hsaved⟩ | ⟨hok, hpart, hlast, -, hsaved⟩
  · exact ⟨hv, n, hsaved, hkept, Or.inl ⟨hok, hall⟩⟩
  · -- `write` never counts too much, so it has given up, and nothing has been added
    have hgive : GivesUp e.results n := by
      by_contra hgo
      refine hlast ⟨hpart, hgo, fun k hk => ?_⟩
      have hcount := e.counts n k hk
      omega
    rw [written_succ_of_givesUp hgive] at hsaved
    exact ⟨hv, n, hsaved, hkept, Or.inr ⟨hok, hpart, hgive⟩⟩

/-! ### What a call adds to the file -/

/-- **What follows the lock** starts when it is taken after the interruptions, or not at all. -/
theorem last_lockForSave (e : Save) (file : List UInt8) (f : Unit → Sys Unit) {n : ℕ}
    (hn : n ≤ e.interruptions) :
    (lockForSave (e.interruptions - n + 1) >>= f).last seq { e.world file with now := n } =
      if e.granted then (f ()).last seq (e.locked file)
      else { e.world file with now := e.interruptions + 1 } := by
  have hask : ∀ {m : ℕ} {r : LockResult}, (e.world file).os m .ftSemLock = some r →
      (ftSemLock : Sys LockResult).run seq { e.world file with now := m } =
        .ok (r, { e.world file with now := m + 1, semHeld := r == .acquired }) := by
    intro m r hr
    rw [ftSemLock, run_perform, seq_ftSemLock, if_neg (by simp [world]), World.ask_of_some hr]
    rfl
  induction hk : e.interruptions - n generalizing n with
  | zero =>
    obtain rfl : n = e.interruptions := by omega
    have hlast : (e.world file).os e.interruptions .ftSemLock =
        some (if e.granted then .acquired else .failed) := by
      change some (if e.interruptions < e.interruptions then _ else _) = _
      rw [if_neg (Nat.lt_irrefl _)]
    rw [lockForSave, Prog.bind_assoc, last_bind (hask hlast)]
    cases e.granted <;> rfl
  | succ k ih =>
    have hagain : (e.world file).os n .ftSemLock = some .interrupted := by
      change some (if n < e.interruptions then _ else _) = _
      rw [if_pos (by omega)]
    rw [lockForSave, Prog.bind_assoc, last_bind (hask hagain)]
    exact ih (n := n + 1) (by omega) (by omega)

/-- **The file after a call**: what `write_all` makes of it, if the call comes that far. -/
theorem after_eq (e : Save) (file : List UInt8) : e.after file =
    if e.proc.sharedSemInitialized && e.proc.outfileOpen && e.granted then
      ((writeAll e.record).last seq (e.locked file)).saved
    else file := by
  have hload : e.after file = (Prog.last seq (if e.proc.sharedSemInitialized && e.proc.outfileOpen
      then lockForSave (e.interruptions + 1) >>= fun _ => do
        unless ← writeAll e.record do
          perror "libfaketime: In save_time(), saving timestamp to file failed"
        unless ← ftSemUnlock do
          exit 1 "libfaketime: In save_time(), ft_sem_unlock failed"
      else pure ()) (e.world file)).saved := rfl
  rw [hload]
  cases hopen : e.proc.sharedSemInitialized && e.proc.outfileOpen with
  | false => rfl
  | true =>
    rw [if_pos rfl, Bool.true_and]
    have hlock := last_lockForSave e file (fun _ => do
        unless ← writeAll e.record do
          perror "libfaketime: In save_time(), saving timestamp to file failed"
        unless ← ftSemUnlock do
          exit 1 "libfaketime: In save_time(), ft_sem_unlock failed") (Nat.zero_le _)
    rw [Nat.sub_zero] at hlock
    rw [show e.world file = { e.world file with now := 0 } from rfl, hlock]
    cases e.granted with
    | false => rfl
    | true =>
      obtain ⟨ok, v, hr, hos, -⟩ := runs_writeAll_results e file
      rw [if_pos rfl, if_pos rfl, last_bind hr, last_of_run hr]
      have hunlock : seq v .ftSemUnlock =
          .ok (e.released, { v.tick with semHeld := v.semHeld && !e.released }) := by
        refine seq_ftSemUnlock.trans (World.ask_of_some ?_)
        rw [hos]
        rfl
      -- the file is not touched any more, whether or not the lock is given back
      have hrest : (Prog.last seq (do
          unless ← ftSemUnlock do
            exit 1 "libfaketime: In save_time(), ft_sem_unlock failed") v).saved = v.saved := by
        rw [ftSemUnlock, last_bind ((run_perform _).trans hunlock)]
        cases e.released <;> rfl
      cases ok with
      | true => exact hrest
      | false => exact hrest

/-- The call comes to `write_all`. -/
def Writes (e : Save) : Bool := e.proc.sharedSemInitialized && e.proc.outfileOpen && e.granted

theorem tears_iff : e.Tears ↔ e.Writes = true ∧ Torn e.results := by
  simp only [Tears, Writes, Bool.and_eq_true, and_assoc]

theorem after_of_not_writes (h : e.Writes = false) : e.after file = file := by
  rw [after_eq]
  exact if_neg (by rw [← Writes, h]; simp)

/-- The file after a call that comes to `write_all`, and what is known of the answers then. -/
theorem after_of_writes (h : e.Writes = true) (file : List UInt8) : ∃ N,
    e.after file = file ++ e.record.take (written e.results N) ∧
      (∀ m < N, ¬ GivesUp e.results m) ∧
      ((¬ e.Fails file ∧ written e.results N = savedTimestampSize) ∨
        (e.Fails file ∧ written e.results N < savedTimestampSize ∧ GivesUp e.results N)) := by
  obtain ⟨ok, v, hr, -, N, hsaved, hbefore, hend⟩ := runs_writeAll_results e file
  have hfails : e.Fails file ↔ ok = false := runs_iff_of_run hr
  refine ⟨N, ?_, fun m hm => hbefore m (Nat.zero_le m) hm, ?_⟩
  · rw [after_eq, ← Writes, h, if_pos rfl, last_of_run hr, hsaved]
  · rw [hfails]
    rcases hend with ⟨rfl, hall⟩ | ⟨rfl, hpart, hgive⟩
    · exact Or.inl ⟨by simp, hall⟩
    · exact Or.inr ⟨rfl, hpart, hgive⟩

/-- **A call that does not tear its record adds all of it or nothing**, and nothing if it
failed. -/
theorem after_of_not_tears (h : ¬ e.Tears) (file : List UInt8) :
    (e.after file = file ++ e.record ∧ ¬ e.Fails file) ∨ e.after file = file := by
  cases hw : e.Writes with
  | false => exact Or.inr (after_of_not_writes hw)
  | true =>
    obtain ⟨N, hafter, hbefore, ⟨hok, hall⟩ | ⟨-, hpart, hgive⟩⟩ := after_of_writes hw file
    · refine Or.inl ⟨?_, hok⟩
      rw [hafter, hall, ← length_record e, List.take_length]
    · have hzero : written e.results N = 0 := by
        by_contra hne
        exact h (tears_iff.mpr ⟨hw, N, hgive, hbefore, Nat.pos_of_ne_zero hne, hpart⟩)
      rw [hafter, hzero]
      exact Or.inr (List.append_nil file)

/-- **A call that tears its record adds a part of it.** -/
theorem length_after_of_tears (h : e.Tears) (file : List UInt8) : ∃ k, 0 < k ∧
    k < savedTimestampSize ∧ (e.after file).length = file.length + k := by
  obtain ⟨hw, n, hgive, hfirst, hpos, hpart⟩ := tears_iff.mp h
  obtain ⟨N, hafter, hbefore, hend⟩ := after_of_writes hw file
  -- both the loop and the tear stop at the first answer that makes `write_all` give up
  have hN : N = n := by
    rcases hend with ⟨-, hall⟩ | ⟨-, -, hgiveN⟩
    · have hle : N ≤ n := by
        by_contra hlt
        exact hbefore n (by omega) hgive
      have hmono : written e.results N ≤ written e.results n := written_mono hle
      omega
    · rcases Nat.lt_trichotomy N n with hlt | heq | hgt
      · exact absurd hgiveN (hfirst N hlt)
      · exact heq
      · exact absurd hgive (hbefore n hgt)
  subst hN
  refine ⟨written e.results N, hpos, hpart, ?_⟩
  rw [hafter, List.length_append, List.length_take, length_record]
  omega

end Save

/-! ### Sequences of calls -/

theorem fileAfter_concat (l : List Save) (e : Save) :
    fileAfter (l ++ [e]) = e.after (fileAfter l) := by
  rw [fileAfter, List.foldl_append]
  rfl

theorem intact_nil : Intact [] := by
  refine ⟨?_, ⟨[], List.Sublist.refl _, rfl⟩, fun l e h => ?_⟩
  · exact Dvd.intro_left 0 (Nat.zero_mul _)
  · exact absurd h.symm (by simp)

/-- **One more call** keeps the file whole, unless it tears its record. -/
theorem Intact.concat {l : List Save} {e : Save} (h : Intact l) (he : ¬ e.Tears) :
    Intact (l ++ [e]) := by
  obtain ⟨hlength, kept, hkept, hrecords⟩ := h.length, h.records
  have hfailed : ∀ l' e', l ++ [e] = l' ++ [e'] → e'.Fails (fileAfter l') →
      fileAfter (l ++ [e]) = fileAfter l' := by
    intro l' e' heq hfails
    obtain ⟨rfl, hlast⟩ := List.append_inj' heq rfl
    obtain rfl := List.singleton_inj.mp hlast
    rw [fileAfter_concat]
    rcases Save.after_of_not_tears he (fileAfter l) with ⟨-, hok⟩ | hnothing
    · exact absurd hfails hok
    · exact hnothing
  have htp : (l ++ [e]).map Save.tp = l.map Save.tp ++ [e.tp] := List.map_append
  rcases Save.after_of_not_tears he (fileAfter l) with ⟨hall, -⟩ | hnothing
  · have hfile : fileAfter (l ++ [e]) = fileAfter l ++ e.record := by rw [fileAfter_concat, hall]
    refine ⟨?_, ⟨kept ++ [e.tp], ?_, ?_⟩, hfailed⟩
    · rw [hfile, List.length_append, Save.length_record]
      exact (Nat.dvd_add_self_right).mpr hlength
    · rw [htp]
      exact hkept.append (List.Sublist.refl _)
    · rw [hfile, hrecords, List.flatMap_append, List.flatMap_singleton]
      rfl
  · have hfile : fileAfter (l ++ [e]) = fileAfter l := by rw [fileAfter_concat, hnothing]
    refine ⟨?_, ⟨kept, ?_, ?_⟩, hfailed⟩
    · rw [hfile]
      exact hlength
    · rw [htp]
      exact hkept.trans (List.sublist_append_left _ _)
    · rw [hfile, hrecords]

theorem intact_of_forall {l : List Save} (h : ∀ e ∈ l, ¬ e.Tears) : Intact l := by
  induction l using List.reverseRecOn with
  | nil => exact intact_nil
  | append_singleton l e ih =>
    have hl : Intact l := ih fun x hx => h x (List.mem_append_left _ hx)
    exact hl.concat (h e (List.mem_append_right _ (List.mem_singleton_self e)))

/-- **The save file consists of whole records after every call exactly if no call tears its
record.** -/
theorem save_file_is_whole_iff (saves : List Save) :
    (∀ l, l <+: saves → Intact l) ↔ ∀ e ∈ saves, ¬ e.Tears := by
  constructor
  · intro h e he htears
    obtain ⟨l, r, rfl⟩ := List.append_of_mem he
    have hbefore : Intact l := h l (List.prefix_append l _)
    have hafter : Intact (l ++ [e]) := h (l ++ [e]) ⟨r, by simp⟩
    obtain ⟨k, hpos, hlt, hk⟩ := Save.length_after_of_tears htears (fileAfter l)
    have hdvd := hafter.length
    rw [fileAfter_concat, hk, Nat.dvd_add_right hbefore.length] at hdvd
    exact absurd (Nat.le_of_dvd hpos hdvd) (by omega)
  · intro h l hl
    exact intact_of_forall fun e he => h e (hl.subset he)

/-- A process whose file system is full after five bytes of its first record. -/
def fullDisk : Save where
  proc := { Proc.initial with sharedSemInitialized := true, outfileOpen := true }
  tp := ⟨100, 5⟩
  interruptions := 0
  granted := true
  results
    | 0 => .wrote 5
    | _ => .failed
  released := true
  counts := by
    rintro (_ | n) k h
    · cases h
      decide
    · cases h

/-- The five bytes stay in the file. -/
theorem full_disk_leaves_a_part :
    (fileAfter [fullDisk]).length = 5 ∧ fullDisk.Fails [] ∧ ¬ Intact [fullDisk] := by
  have hlength : (fileAfter [fullDisk]).length = 5 := rfl
  refine ⟨hlength, ⟨_, _, rfl, rfl⟩, fun h => ?_⟩
  have hdvd := h.length
  rw [hlength] at hdvd
  exact absurd hdvd (by decide)

end LibFaketime
