import LibFaketime.Clock

/-!
# Threads that read file timestamps

A function of the `stat` family switches the tick modifier off while it converts the times of
a file, and switches it on again afterwards. What the modifier was is kept in one variable of
the process, so it matters whether two threads can be at it at the same time.

The lock around it is one between processes. It is a lock on an open file that all threads of
a process share (`LibFaketime.flock`): the first one to ask gets it, and with it the process
has it, so that the next thread is let in at once. And without shared memory nobody asks. The
second thread then finds the modifier switched off by the first one, keeps *that*, and the
modifier never comes back (`LibFaketime.tick_flag_survives_iff`).
-/

namespace LibFaketime

open Effects Effects.Prog

/-- **The lock between processes, seen from the threads of one of them**: it is granted at once
when the process has it. -/
def flock : Handler sys World Stop
  | w, .ftSemLock =>
    if w.semHeld then .ok (.acquired, w)
    else w.ask .ftSemLock fun (r : LockResult) w => { w with semHeld := r == .acquired }
  | w, o => seq w o

/-! ### Schedules -/

/-- A step of the threads of a process. -/
inductive StatStep (T : Type) where
  /-- The thread runs `lock_for_stat`. -/
  | lock (t : T)
  /-- The thread runs `unlock_for_stat`. -/
  | unlock (t : T)
  /-- Something else happens. -/
  | other
deriving DecidableEq, Repr

/-- The threads of a process, those that are in a call of the `stat` family among them. -/
structure Stats (T : Type) where
  world : World
  /-- The thread is between `lock_for_stat` and `unlock_for_stat`. -/
  busy : T → Bool

namespace Stats

variable {T : Type} [DecidableEq T] {retries : ℕ} {s s' : Stats T} {l : List (StatStep T)}

/-- No call is in progress. -/
def Quiet (s : Stats T) : Prop := ∀ t, s.busy t = false

/-- `user_per_tick_inc_set`. -/
def flag (s : Stats T) : Bool := s.world.proc.userPerTickIncSet

/-- `user_per_tick_inc_set_backup`. -/
def backup (s : Stats T) : Bool := s.world.proc.userPerTickIncSetBackup

/-- **One step**, each half of a call at once. What happens besides is arbitrary, except that
it leaves the flag and its backup alone. -/
inductive Step (retries : ℕ) : Stats T → StatStep T → Stats T → Prop
  | lock {s : Stats T} {t : T} {w : World} (h : s.busy t = false)
      (hr : (lockForStat retries).run flock s.world = .ok ((), w)) :
      Step retries s (.lock t) ⟨w, Function.update s.busy t true⟩
  | unlock {s : Stats T} {t : T} {w : World} (h : s.busy t = true)
      (hr : unlockForStat.run flock s.world = .ok ((), w)) :
      Step retries s (.unlock t) ⟨w, Function.update s.busy t false⟩
  | other {s : Stats T} {w : World}
      (hflag : w.proc.userPerTickIncSet = s.world.proc.userPerTickIncSet)
      (hbackup : w.proc.userPerTickIncSetBackup = s.world.proc.userPerTickIncSetBackup) :
      Step retries s .other ⟨w, s.busy⟩

/-- A schedule, and where it leads. -/
inductive Run (retries : ℕ) : Stats T → List (StatStep T) → Stats T → Prop
  | nil {s : Stats T} : Run retries s [] s
  | cons {s s₁ s' : Stats T} {e : StatStep T} {l : List (StatStep T)} (h : Step retries s e s₁)
      (hl : Run retries s₁ l s') : Run retries s (e :: l) s'

/-- **Two calls overlap**: a thread starts one while another is in progress. -/
def Overlaps (busy : T → Bool) : List (StatStep T) → Prop
  | [] => False
  | .lock t :: l => (∃ u, busy u = true) ∨ Overlaps (Function.update busy t true) l
  | .unlock t :: l => Overlaps (Function.update busy t false) l
  | .other :: l => Overlaps busy l

/-! ### What the two halves of a call do -/

theorem ends_lockForStat_flock (retries : ℕ) (w : World) :
    (lockForStat retries).Ends flock w fun _ w' =>
      w'.proc.userPerTickIncSet = false ∧
        w'.proc.userPerTickIncSetBackup = w.proc.userPerTickIncSet := by
  induction retries generalizing w with
  | zero => exact Halts.ends (show (stalled : Sys Unit).Halts flock w .stalled from rfl)
  | succ retries ih =>
    have hoff : ∀ {w' : World}, w'.proc = w.proc → Ends flock (do
        store fun s => { s with userPerTickIncSetBackup := s.userPerTickIncSet }
        store fun s => { s with userPerTickIncSet := false } : Sys Unit) w' fun _ w' =>
          w'.proc.userPerTickIncSet = false ∧
            w'.proc.userPerTickIncSetBackup = w.proc.userPerTickIncSet := by
      rintro w' hw _ _ ⟨⟩
      exact ⟨rfl, congrArg Proc.userPerTickIncSet hw⟩
    refine ends_perform_bind (I := sys) ?_
    rintro _ _ ⟨⟩
    split
    · refine ends_perform_bind (I := sys) fun r w₁ hr => ?_
      have hproc : w₁.proc = w.proc := by
        change (if w.semHeld then _ else _) = _ at hr
        split at hr
        · cases hr
          rfl
        · obtain ⟨-, rfl⟩ := World.ask_eq_ok hr
          rfl
      cases r with
      | acquired => exact hoff hproc
      | interrupted =>
        refine (ih w₁).mono fun _ w' h => ?_
        rw [← hproc]
        exact h
      | failed => exact Halts.ends (show (exit 1 _ : Sys Unit).Halts flock w₁ _ from rfl)
    · exact hoff rfl

theorem ends_unlockForStat_flock (w : World) : unlockForStat.Ends flock w fun _ w' =>
    w'.proc.userPerTickIncSet = w.proc.userPerTickIncSetBackup ∧
      w'.proc.userPerTickIncSetBackup = w.proc.userPerTickIncSetBackup := by
  refine ends_perform_bind (I := sys) ?_
  rintro _ _ ⟨⟩
  refine ends_perform_bind (I := sys) ?_
  rintro _ _ ⟨⟩
  split
  · refine ends_perform_bind (I := sys) fun r w₁ hr => ?_
    obtain ⟨-, rfl⟩ := World.ask_eq_ok (seq_ftSemUnlock.symm.trans hr)
    cases r with
    | true => exact ends_pure ⟨rfl, rfl⟩
    | false => exact Halts.ends (show (exit 1 _ : Sys Unit).Halts flock _ _ from rfl)
  · exact ends_pure ⟨rfl, rfl⟩

/-! ### The modifier on its way through a schedule -/

/-- The modifier is off, and stays off: whoever is in a call will put back that it is off. -/
def Off (s : Stats T) : Prop := s.flag = false ∧ ∀ t, s.busy t = true → s.backup = false

/-- The modifier is on, or the one thread that has switched it off will switch it on. -/
def On (s : Stats T) : Prop :=
  (s.Quiet ∧ s.flag = true) ∨
    ∃ t, s.busy = Function.update (fun _ => false) t true ∧ s.flag = false ∧ s.backup = true

omit [DecidableEq T] in
theorem not_quiet {t : T} (h : s.busy t = true) : ¬ s.Quiet := by
  intro hq
  rw [hq t] at h
  cases h

theorem Off.step {e : StatStep T} (h : s.Off) (hs : Step retries s e s') : s'.Off := by
  cases hs with
  | lock _ hr =>
    obtain ⟨hflag, hbackup⟩ := ends_lockForStat_flock retries s.world _ _ hr
    exact ⟨hflag, fun _ _ => hbackup.trans h.1⟩
  | unlock hbusy hr =>
    obtain ⟨hflag, hbackup⟩ := ends_unlockForStat_flock s.world _ _ hr
    exact ⟨hflag.trans (h.2 _ hbusy), fun _ _ => hbackup.trans (h.2 _ hbusy)⟩
  | other hflag hbackup => exact ⟨hflag.trans h.1, fun t ht => hbackup.trans (h.2 t ht)⟩

/-- **Once it is off, it is off for good.** -/
theorem Off.run (h : s.Off) (hr : Run retries s l s') : s'.Off := by
  induction hr with
  | nil => exact h
  | cons hs _ ih => exact ih (h.step hs)

/-- **A schedule loses the modifier where two calls overlap**, and only there. -/
theorem On.run (h : s.On) (hr : Run retries s l s') :
    (Overlaps s.busy l ∧ s'.Off) ∨ (¬ Overlaps s.busy l ∧ s'.On) := by
  induction hr with
  | nil => exact Or.inr ⟨id, h⟩
  | @cons s s₁ s' e l hs hl ih =>
    cases hs with
    | @lock t w hbusy hw =>
      obtain ⟨hflag, hbackup⟩ := ends_lockForStat_flock retries s.world _ _ hw
      rcases h with ⟨hq, hon⟩ | ⟨u, hu, hoff, -⟩
      · -- the first one in: it alone knows what the modifier was
        have hidle : s.busy = fun _ => false := funext hq
        have hnone : ¬ ∃ u, s.busy u = true := fun ⟨u, hu⟩ => not_quiet hu hq
        rcases ih (Or.inr ⟨t, by rw [hidle], hflag, hbackup.trans hon⟩) with h | h
        · exact Or.inl ⟨Or.inr h.1, h.2⟩
        · exact Or.inr ⟨fun ho => ho.elim hnone h.1, h.2⟩
      · -- the second one in: what it keeps is that the modifier is off
        have hlost : Off (⟨w, Function.update s.busy t true⟩ : Stats T) :=
          ⟨hflag, fun _ _ => hbackup.trans hoff⟩
        have hin : s.busy u = true := by rw [hu, Function.update_self]
        exact Or.inl ⟨Or.inl ⟨u, hin⟩, hlost.run hl⟩
    | @unlock t w hbusy hw =>
      obtain ⟨hflag, hbackup⟩ := ends_unlockForStat_flock s.world _ _ hw
      rcases h with ⟨hq, -⟩ | ⟨u, hu, -, hkept⟩
      · exact absurd hq (not_quiet hbusy)
      · -- the only one in a call is the one that leaves
        have htu : t = u := by
          by_contra hne
          rw [hu, Function.update_of_ne hne] at hbusy
          cases hbusy
        refine ih (Or.inl ⟨fun v => ?_, hflag.trans hkept⟩)
        change Function.update s.busy t false v = false
        rw [hu, htu, Function.update_idem, Function.update_eq_self]
    | other hflag hbackup =>
      refine ih ?_
      rcases h with ⟨hq, hon⟩ | ⟨u, hu, hoff, hkept⟩
      · exact Or.inl ⟨hq, hflag.trans hon⟩
      · exact Or.inr ⟨u, hu, hflag.trans hoff, hbackup.trans hkept⟩

omit [DecidableEq T] in
theorem Off.of_quiet (hq : s.Quiet) (h : s.flag = false) : s.Off :=
  ⟨h, fun _ ht => absurd hq (not_quiet ht)⟩

theorem On.flag_of_quiet (h : s.On) (hq : s.Quiet) : s.flag = true := by
  rcases h with ⟨-, hon⟩ | ⟨t, ht, -⟩
  · exact hon
  · exact absurd hq (not_quiet (t := t) (by rw [ht, Function.update_self]))

end Stats

/-- **The tick modifier survives the calls of the `stat` family exactly if it was off all along,
or no two of them overlap.** -/
theorem tick_flag_survives_iff {T : Type} [DecidableEq T] {retries : ℕ} {s s' : Stats T}
    {l : List (StatStep T)} (hs : s.Quiet) (hr : Stats.Run retries s l s') (hs' : s'.Quiet) :
    s'.flag = s.flag ↔ s.flag = false ∨ ¬ Stats.Overlaps s.busy l := by
  cases hflag : s.flag with
  | false => exact iff_of_true ((Stats.Off.of_quiet hs hflag).run hr).1 (Or.inl rfl)
  | true =>
    have hon : s.On := Or.inl ⟨hs, hflag⟩
    rcases hon.run hr with ⟨ho, h⟩ | ⟨ho, h⟩
    · rw [h.1]
      simp [ho]
    · rw [h.flag_of_quiet hs']
      simp [ho]

/-- A process with the tick modifier, attached to shared memory, and no thread in a call. -/
def ticking : Stats ℕ where
  world := calmWorld (fun _ => none) (fun _ _ => ⟨0, 0⟩) ⟨0, 0⟩
    { Proc.initial with userPerTickIncSet := true, sharedSemInitialized := true }
  busy _ := false

/-- Two threads, one after the other. -/
theorem tick_flag_survives_in_turn : ∃ s' : Stats ℕ,
    ticking.Quiet ∧ Stats.Run 1 ticking [.lock 0, .unlock 0, .lock 1, .unlock 1] s' ∧ s'.Quiet ∧
      s'.flag = true := by
  obtain ⟨s', hr, hs'⟩ : ∃ s' : Stats ℕ,
      Stats.Run 1 ticking [.lock 0, .unlock 0, .lock 1, .unlock 1] s' ∧ s'.Quiet := by
    refine ⟨_, .cons (.lock rfl rfl) (.cons (.unlock rfl rfl) (.cons (.lock rfl rfl)
      (.cons (.unlock rfl rfl) .nil))), fun t => ?_⟩
    rcases t with _ | _ | t <;> rfl
  have hs : ticking.Quiet := fun _ => rfl
  have hturns : ¬ Stats.Overlaps ticking.busy [.lock 0, .unlock 0, .lock 1, .unlock 1] := by
    simp [Stats.Overlaps, ticking]
  exact ⟨s', hs, hr, hs', (tick_flag_survives_iff hs hr hs').mpr (Or.inr hturns)⟩

/-- Two threads at once: the second one is let in while the first one is still at it, and the
modifier is off when both have left. -/
theorem tick_flag_is_lost : ∃ s' : Stats ℕ,
    ticking.Quiet ∧ Stats.Run 1 ticking [.lock 0, .lock 1, .unlock 0, .unlock 1] s' ∧ s'.Quiet ∧
      ticking.flag = true ∧ s'.flag = false := by
  refine ⟨_, fun _ => rfl, .cons (.lock rfl rfl) (.cons (.lock rfl rfl) (.cons (.unlock rfl rfl)
    (.cons (.unlock rfl rfl) .nil))), fun t => ?_, rfl, rfl⟩
  rcases t with _ | _ | t <;> rfl

end LibFaketime
