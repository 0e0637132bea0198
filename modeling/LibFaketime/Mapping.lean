import LibFaketime.ExcludedWaits
import LibFaketime.OldValue
import LibFaketime.Precedence

/-!
# The mapping of the load file

The load file is mapped into memory when a process is initialized, and given back by
`munmap` in two places: by `load_time`, when the file is used up, and by the clean-up at the
end of the process. The two go by different variables. `load_time` says with `infile_set` that
the replay is over and leaves the pointer `stss` as it is; `ft_cleanup` looks at the pointer.
So a process that has used up its file gives the mapping back twice
(`LibFaketime.mapping_released_once_iff`).

How often a program calls `munmap` on the mapping is counted
(`LibFaketime.releases`), and followed through whole runs: the initialization, any calls of
intercepted functions with anything happening in between, and the clean-up.
-/

namespace LibFaketime

open Effects Effects.Prog

/-! ### The clean-up -/

/-- The end of `ft_cleanup`: detach from the lock, and close the save file. -/
def closeFiles : Sys Unit := do
  if (← load).sharedSemInitialized then store fun s => { s with sharedSemInitialized := false }
  if (← load).outfileOpen then store fun s => { s with outfileOpen := false }

/-- `ft_cleanup`, as far as it is about the variables of the process. A null pointer `stss` is
the empty list: a file that has been mapped has a record. -/
def ftCleanup : Sys Unit := do
  if (← load).stss ≠ [] then
    munmapStss
    store fun s => { s with stss := [], infileSet := false }
  closeFiles

/-! ### How often the mapping is given back -/

/-- `munmap(stss, infile_size)`. -/
def Op.givesBack : Op → Bool
  | .munmapStss => true
  | _ => false

/-- How often a program gives the mapping back. -/
def releases {β : Type} (p : Sys β) (w : World) : ℕ := p.count seq Op.givesBack w

/-- **What becomes of the mapping** while it is given back `n` times: it stays what it was, or
the replay has ended. -/
def Handled (w w' : World) (n : ℕ) : Prop :=
  w'.proc.stss = w.proc.stss ∧ ((w'.proc.infileSet = w.proc.infileSet ∧ n = 0) ∨
    (w.proc.infileSet = true ∧ w'.proc.infileSet = false ∧ n = 1))

/-- From the world `w` the program gives the mapping back if it ends the replay, and only
then. -/
def Handles {β : Type} (p : Sys β) (w : World) : Prop :=
  p.Ends seq w fun _ w' => Handled w w' (releases p w)

/-- A program that does so from every world. -/
def Careful {β : Type} (p : Sys β) : Prop := ∀ w, Handles p w

section Careful

variable {B : Build} {w w' : World} {β γ : Type}

theorem Handled.refl (w : World) : Handled w w 0 := ⟨rfl, Or.inl ⟨rfl, rfl⟩⟩

theorem Handled.trans {w₁ : World} {m n : ℕ} (h : Handled w w₁ m) (h' : Handled w₁ w' n) :
    Handled w w' (m + n) := by
  refine ⟨h'.1.trans h.1, ?_⟩
  rcases h.2 with ⟨hin, rfl⟩ | ⟨hin, hout, rfl⟩
  · rw [Nat.zero_add, ← hin]
    exact h'.2
  · rcases h'.2 with ⟨hsame, rfl⟩ | ⟨hset, -, -⟩
    · exact Or.inr ⟨hin, hsame.trans hout, rfl⟩
    · rw [hout] at hset
      cases hset

theorem careful_pure (a : β) : Careful (pure a : Sys β) := fun w => ends_pure (.refl w)

/-- The rule of sequence. -/
theorem Handles.bind {p : Sys β} {f : β → Sys γ} (hp : Handles p w)
    (hf : ∀ a w₁, p.run seq w = .ok (a, w₁) → Handles (f a) w₁) : Handles (p >>= f) w := by
  intro b w' hr
  obtain ⟨a, w₁, h₁, h₂, hcount⟩ := exists_of_run_bind_count (c := Op.givesBack) hr
  rw [releases, hcount]
  exact (hp a w₁ h₁).trans (hf a w₁ h₁ b w' h₂)

theorem Careful.bind {p : Sys β} {f : β → Sys γ} (hp : Careful p) (hf : ∀ a, Careful (f a)) :
    Careful (p >>= f) := fun w => (hp w).bind fun a w₁ _ => hf a w₁

/-- Routine calls that are not about the replay leave it as it is. -/
theorem ends_of_keepsReplay {p : Sys β} (hp : p.Uses fun o : Op => Routine True o ∧ o.KeepsReplay)
    (w : World) : p.Ends seq w fun _ w' => w'.proc.stss = w.proc.stss ∧
      w'.proc.infileSet = w.proc.infileSet ∧ releases p w = 0 := by
  intro a w' hr
  have hkeep := proc_of_run (J := fun s => s.infileSet = w.proc.infileSet) hp (fun _ ho => ho.1)
    (fun _ hf s hs => (hf.2 s).trans hs) rfl a w' hr
  have hfixed := fixed_of_run (hp.mono fun _ => And.left) a w' hr
  have hnone : releases p w = 0 := hp.count_eq_zero fun o ho => by
    cases o
    case munmapStss => exact ho.2.elim
    all_goals rfl
  exact ⟨congrArg Prod.fst hfixed, hkeep, hnone⟩

theorem ends_of_plain {p : Sys β} (hp : p.Uses (Plain True)) (w : World) :
    p.Ends seq w fun _ w' => w'.proc.stss = w.proc.stss ∧
      w'.proc.infileSet = w.proc.infileSet ∧ releases p w = 0 :=
  ends_of_keepsReplay (hp.mono fun _ ho => ⟨ho.1.1.1.1.1, ho.2⟩) w

theorem careful_of_keepsReplay {p : Sys β}
    (hp : p.Uses fun o : Op => Routine True o ∧ o.KeepsReplay) : Careful p := by
  intro w a w' hr
  obtain ⟨hfile, hsame, hnone⟩ := ends_of_keepsReplay hp w a w' hr
  exact ⟨hfile, Or.inl ⟨hsame, hnone⟩⟩

theorem careful_of_plain {p : Sys β} (hp : p.Uses (Plain True)) : Careful p :=
  careful_of_keepsReplay (hp.mono fun _ ho => ⟨ho.1.1.1.1.1, ho.2⟩)

theorem careful_of_refreshing {p : Sys β} (hp : p.Uses (Refreshing True)) : Careful p :=
  careful_of_keepsReplay (hp.mono fun _ ho => ⟨ho.1.1.1, ho.2.2⟩)

theorem careful_load : Careful load :=
  careful_of_plain (uses_perform (I := sys) (o := .load) (plain_of_idle rfl))

/-- **The end of the replay** gives the mapping back, and says that the replay is over. -/
theorem ends_leaveReplay (hin : w.proc.infileSet = true) : leaveReplay.Ends seq w fun _ w' =>
    Handled w w' (releases leaveReplay w) := by
  have hbase : (store fun s => { s with
      userFakedTimeTimespec := timespecFromSaved (s.stss.getLastD ⟨[], []⟩) }).Uses (Plain True) :=
    plain_set fun _ => rfl
  intro a w' hr
  obtain ⟨_, w₁, h₁, hr, hcount₁⟩ := exists_of_run_bind_count (c := Op.givesBack) hr
  obtain ⟨_, w₂, h₂, hr, hcount₂⟩ := exists_of_run_bind_count (c := Op.givesBack) hr
  obtain ⟨hfile₁, -, hnone₁⟩ := ends_of_plain hbase w _ w₁ h₁
  obtain ⟨hfile₂, -, hnone₂⟩ := ends_of_plain (plain_handOver (trivial : True)) w₁ _ w₂ h₂
  have hone : releases leaveReplay w = 1 := by
    rw [releases, leaveReplay, hcount₁, hcount₂, ← releases, ← releases, hnone₁, hnone₂]
    rfl
  cases hr
  exact ⟨hfile₂.trans hfile₁, Or.inr ⟨hin, rfl, hone⟩⟩

/-- One record, or the end of the replay. -/
theorem careful_loadTime (retries : ℕ) (tp : Timespec) : Careful (loadTime retries tp) := by
  have hunlock : ∀ r : Bool × Timespec, Careful (ftSemUnlock >>= fun b =>
      if b = true then pure r else (exit 1 "libfaketime: In load_time(), ft_sem_unlock failed" >>=
        fun _ : Unit => pure r)) := by
    intro r
    refine careful_of_plain (plain_shared trivial trivial fun b => ?_)
    split
    · exact uses_pure _
    · exact plain_exit.bind fun _ => uses_pure _
  induction retries with
  | zero => exact fun w => ends_stalled
  | succ retries ih =>
    have hlock : ftSemLock.Uses (Plain True) := uses_perform (plain_of_shared trivial trivial)
    have hread : Careful readShared :=
      careful_of_plain (uses_perform (plain_of_idle rfl))
    have hwrite : ∀ f, Plain True (.writeShared f) := fun _ => plain_of_shared trivial trivial
    intro w
    refine (careful_load w).bind ?_
    rintro _ _ ⟨⟩
    dsimp only
    split
    next hcond =>
      rw [Bool.and_eq_true] at hcond
      refine (careful_of_plain hlock w).bind fun r w₁ h₁ => ?_
      obtain ⟨-, hsame, -⟩ := ends_of_plain hlock w r w₁ h₁
      cases r with
      | interrupted => exact ih w₁
      | failed => exact careful_of_plain plain_exit w₁
      | acquired =>
        refine (hread w₁).bind ?_
        rintro _ _ ⟨⟩
        split
        · exact Handles.bind (ends_leaveReplay (hsame.trans hcond.2)) fun _ w₂ _ => hunlock _ w₂
        · refine Careful.bind careful_load (fun s => ?_) w₁
          exact (careful_of_plain (uses_perform (hwrite _))).bind fun _ =>
            hunlock _
    · exact careful_pure _ w

/-- Counting a call, and the external command. -/
theorem careful_limitsAndSpawn (c : ClockId) (tp : Timespec) : Careful (limitsAndSpawn c tp) :=
  careful_of_keepsReplay ((counting_limitsAndSpawn c tp).mono fun _ ho =>
    ⟨ho.1.1.1.1, ho.2⟩)

theorem careful_fakeLocked (c : ClockId) (tp : Timespec) : Careful (fakeLocked B c tp) := by
  refine (careful_limitsAndSpawn c tp).bind fun b => ?_
  split
  · exact careful_pure _
  · refine (careful_of_refreshing (refreshing_refreshConfig trivial)).bind fun _ =>
      careful_load.bind fun s => ?_
    have hmode : ∀ tp, Careful (fakeByMode B c tp) := fun tp =>
      careful_of_plain (plain_fakeByMode (trivial : True) c tp)
    split
    · refine (careful_loadTime _ _).bind fun r => ?_
      dsimp only
      split
      · exact careful_pure _
      · exact hmode _
    · exact hmode _

theorem careful_fakeClockGettime (c : ClockId) (tp : Timespec) :
    Careful (fakeClockGettime B c tp) := by
  have hlast : ∀ out, Careful (finishQuery B c tp out) := by
    intro out
    cases out with
    | abort code tp' => exact careful_pure _
    | faked tp' =>
      refine (careful_of_plain (plain_saveTime (trivial : True) _ _)).bind fun _ =>
        Careful.bind (careful_of_keepsReplay (uses_perform (I := sys)
          ⟨routine_cacheTimes _ _ _, fun s => ?_⟩)) fun _ => careful_pure _
      obtain ⟨reals, fakes, hs⟩ := Proc.exists_cacheTimes c tp (normalizeTimespecValue tp') s
      rw [hs]
  have hmutex : ∀ {o : Op}, o.Shared → Careful (perform (I := sys) o) := fun ho =>
    careful_of_plain (uses_perform (plain_of_shared trivial ho))
  refine Careful.bind (careful_of_plain (uses_perform (plain_of_idle rfl))) fun b => ?_
  split
  · exact careful_pure _
  · split
    · exact careful_load.bind fun s => careful_pure _
    · cases B.pthreadSinglethreadedTime with
      | true =>
        exact (hmutex (o := .timeMutexLock) trivial).bind fun _ =>
          (careful_fakeLocked c tp).bind fun out =>
            (hmutex (o := .timeMutexUnlock) trivial).bind fun _ => hlast out
      | false => exact (careful_fakeLocked c tp).bind fun out => hlast out

theorem covers_careful : Covers B Careful where
  ret := careful_pure
  seq := Careful.bind
  call o ho := by
    intro w r w' hr
    have haside : (perform (I := sys) o).Uses Op.Aside := uses_perform ho
    have hnone : releases (perform (I := sys) o) w = 0 := haside.count_eq_zero fun o ho => by
      cases o
      case munmapStss => exact ho.elim
      all_goals rfl
    rw [run_perform] at hr
    obtain ⟨hproc, -, -⟩ := proc_of_seq (by rintro f rfl; exact ho) (by rintro b rfl; exact ho)
      (by rintro v value rfl; exact ho) hr
    rw [hnone, Handled, hproc]
    exact ⟨rfl, Or.inl ⟨rfl, rfl⟩⟩
  query := careful_fakeClockGettime
  monotonic := careful_of_refreshing refreshing_getFakeMonotonicSetting
  normalize := careful_of_plain (plain_set fun _ => rfl)

theorem careful_entry (e : Entry) : Careful (e.prog B) :=
  covers_careful.entry (careful_of_plain (plain_lockForStat (trivial : True) B.retries))
    (careful_of_plain (plain_unlockForStat (trivial : True))) e

end Careful

/-! ### Whole runs -/

/-- **A run of an initialized process**, and how often it gives the mapping back: calls of
intercepted functions, and whatever else happens that is not about the replay, such as what
other processes do to the shared block. -/
inductive Session (B : Build) : World → ℕ → World → Prop
  | nil {w : World} : Session B w 0 w
  | call {w w₁ w' : World} {n : ℕ} {e : Entry} {r : Reply}
      (h : (e.prog B).run seq w = .ok (r, w₁)) (hs : Session B w₁ n w') :
      Session B w (releases (e.prog B) w + n) w'
  | other {w w₁ w' : World} {n : ℕ} (hfile : w₁.proc.stss = w.proc.stss)
      (hset : w₁.proc.infileSet = w.proc.infileSet) (hs : Session B w₁ n w') : Session B w n w'

variable {B : Build} {w₀ w₁ w w' : World} {n : ℕ} {env : EnvVar → Option CStr}

theorem Session.handled (hs : Session B w n w') : Handled w w' n := by
  induction hs with
  | nil => exact .refl _
  | call h _ ih => exact (careful_entry _ _ _ _ h).trans ih
  | other hfile hset _ ih =>
    have hother : Handled _ _ 0 := ⟨hfile, Or.inl ⟨hset, rfl⟩⟩
    have h := hother.trans ih
    rwa [Nat.zero_add] at h

/-- The checks on a load file let no file without records through. -/
theorem ne_nil_of_loadChecks {bytes : List UInt8} {stss : List SavedTimestamp}
    (h : loadChecks bytes = .ok stss) : stss ≠ [] := by
  unfold loadChecks at h
  split at h
  · cases h
  next hlen =>
    split at h
    · cases h
    · dsimp only at h
      split at h
      · cases h
        obtain ⟨k, hk⟩ : ∃ k, bytes.length / savedTimestampSize = k + 1 :=
          Nat.exists_eq_succ_of_ne_zero (by
            have := Nat.div_pos (Nat.not_lt.mp hlen) (by decide)
            omega)
        rw [hk, records]
        exact List.cons_ne_nil _ _
      · cases h

/-- The file is mapped and the replay has not ended. -/
def Proc.Mapped (s : Proc) : Prop := s.stss ≠ [] ∧ s.infileSet = true

theorem Proc.Mapped.of_eq {s s' : Proc} (h : s.Mapped) (hfile : s'.stss = s.stss)
    (hset : s'.infileSet = s.infileSet) : s'.Mapped := ⟨by rw [hfile]; exact h.1, hset.trans h.2⟩

theorem mapped_of_loadFile (henv : w.HasEnv env) (hfile : env .faketimeLoadFile ≠ none)
    (h : loadFile.run seq w = .ok ((), w')) : w'.proc.Mapped := by
  obtain ⟨path, hpath⟩ := Option.ne_none_iff_exists'.mp hfile
  have hanswer : w.os w.now (.getenv .faketimeLoadFile) = some (some path) := by
    rw [henv, hpath]
  rw [loadFile, getenv, run_ask rfl hanswer] at h
  obtain ⟨bytes, w₁, -, h⟩ := exists_of_run_bind h
  cases bytes with
  | none => cases h
  | some bytes =>
    dsimp only at h
    cases hchecks : loadChecks bytes with
    | error msg =>
      rw [hchecks] at h
      cases h
    | ok stss =>
      rw [hchecks] at h
      cases h
      exact ⟨ne_nil_of_loadChecks hchecks, rfl⟩

theorem mapped_of_readLimitsAndFiles (henv : w.HasEnv env) (hfile : env .faketimeLoadFile ≠ none)
    (h : readLimitsAndFiles.run seq w = .ok ((), w')) : w'.proc.Mapped := by
  have hun := unaffected_true
  obtain ⟨_, w₁, h₁, h⟩ := exists_of_run_bind h
  obtain ⟨-, hos₁⟩ := sets_of_run (uses_limitSettings hun) trivial h₁
  obtain ⟨_, w₂, h₂, h⟩ := exists_of_run_bind h
  obtain ⟨-, hos₂⟩ := sets_of_run (uses_spawnSettings hun) trivial h₂
  obtain ⟨_, w₃, h₃, h⟩ := exists_of_run_bind h
  obtain ⟨-, hos₃⟩ := sets_of_run (uses_saveFile hun.outfile) trivial h₃
  obtain ⟨_, w₄, h₄, h⟩ := exists_of_run_bind h
  have henv₃ : w₃.HasEnv env := by
    intro n v
    rw [hos₃, hos₂, hos₁]
    exact henv n v
  have hmapped := mapped_of_loadFile henv₃ hfile h₄
  exact (sets_of_run (K := Proc.Mapped) (uses_formatSetting fun _ _ hs => hs) hmapped h).1

/-- The setting of the user has nothing to do with the replay. -/
theorem ends_firstSetting_mapping : (firstSetting B).Ends seq w fun _ w' =>
    w'.proc.stss = w.proc.stss ∧ w'.proc.infileSet = w.proc.infileSet := by
  have hparse : ∀ {β : Type} {p : Sys β} (v : World), p.Uses (Refreshing True) →
      p.Ends seq v fun _ w' => w'.proc.stss = v.proc.stss ∧ w'.proc.infileSet = v.proc.infileSet :=
    fun v hp => (ends_of_keepsReplay (hp.mono fun _ ho => ⟨ho.1.1.1, ho.2.2⟩) v).mono
      fun _ _ h => ⟨h.1, h.2.1⟩
  refine ends_ask rfl fun r _ => ?_
  cases r with
  | some setting => exact ends_store (hparse _ (refreshing_parseFtString trivial setting))
  | none => exact hparse _ ((refreshing_readConfigFile trivial).bind fun _ => uses_pure _)

/-- **The initialization with a load file** leaves it mapped. -/
theorem mapped_of_init (henv : w₀.HasEnv env) (hfile : env .faketimeLoadFile ≠ none)
    (h : (ftplReallyInit B).run seq w₀ = .ok ((), w₁)) : w₁.proc.Mapped := by
  obtain ⟨v₁, v₂, v₃, v₄, ⟨-, hos⟩, hfiles, hstart, hfirst, hlast⟩ := exists_stages
    (K := fun _ => True) unaffected_true (fun _ _ _ => trivial) (fun _ _ _ => trivial)
    (fun _ _ => trivial) trivial h
  have henv₁ : v₁.HasEnv env := by
    intro n v
    rw [hos]
    exact henv n v
  have hmapped := mapped_of_readLimitsAndFiles henv₁ hfile hfiles
  -- what follows is about the clock
  obtain ⟨hfile₃, hset₃, -⟩ := ends_of_plain (plain_agreeOnStarttime trivial) v₂ _ v₃ hstart
  obtain ⟨hfile₄, hset₄⟩ := ends_firstSetting_mapping _ _ hfirst
  rw [hlast]
  exact (hmapped.of_eq hfile₃ hset₃).of_eq hfile₄ hset₄

/-- What is closed besides has nothing to do with the mapping. -/
theorem ends_closeFiles : closeFiles.Ends seq w fun _ w' =>
    w'.proc.stss = w.proc.stss ∧ releases closeFiles w = 0 := by
  have huses : closeFiles.Uses fun o : Op =>
      o = .load ∨ ∃ f, o = .store f ∧ ∀ s, (f s).stss = s.stss := by
    have hlast : (load >>= fun s => if s.outfileOpen = true then
        store fun s => { s with outfileOpen := false } else pure ()).Uses fun o : Op =>
          o = .load ∨ ∃ f, o = .store f ∧ ∀ s, (f s).stss = s.stss := by
      refine uses_perform_bind (Or.inl rfl) fun s => ?_
      split
      · exact uses_perform (Or.inr ⟨_, rfl, fun _ => rfl⟩)
      · exact uses_pure _
    refine uses_perform_bind (Or.inl rfl) fun s => ?_
    split
    · exact uses_perform_bind (Or.inr ⟨_, rfl, fun _ => rfl⟩) fun _ => hlast
    · exact hlast
  intro a w' hr
  refine ⟨huses.invariant_run (J := fun v => v.proc.stss = w.proc.stss) ?_ rfl hr,
    huses.count_eq_zero ?_⟩
  · rintro v o r v' (rfl | ⟨f, rfl, hf⟩) hv hv'
    · cases hv'
      exact hv
    · cases hv'
      exact (hf v.proc).trans hv
  · rintro o (rfl | ⟨f, rfl, -⟩) <;> rfl

/-- The clean-up gives back what the pointer points to, and sets it to null. -/
theorem ends_ftCleanup (h : w.proc.stss ≠ []) : ftCleanup.Ends seq w fun _ w' =>
    w'.proc.stss = [] ∧ releases ftCleanup w = 1 := by
  intro a w' hr
  obtain ⟨_, _, hload, hr, hcount₁⟩ := exists_of_run_bind_count (c := Op.givesBack) hr
  cases hload
  rw [if_pos h] at hr hcount₁
  obtain ⟨_, _, hunmap, hr, hcount₂⟩ := exists_of_run_bind_count (c := Op.givesBack) hr
  cases hunmap
  obtain ⟨_, w₁, hstore, hr, hcount₃⟩ := exists_of_run_bind_count (c := Op.givesBack) hr
  obtain ⟨hnull, hnone⟩ := ends_closeFiles _ _ hr
  rw [releases] at hnone
  rw [releases, ftCleanup, hcount₁, hcount₂, hcount₃, hnone]
  cases hstore
  exact ⟨hnull, rfl⟩

/-- The clean-up comes to an end. -/
theorem exists_run_ftCleanup (w : World) : ∃ w', ftCleanup.run seq w = .ok ((), w') := by
  have hclose : ∀ w : World, ∃ w', closeFiles.run seq w = .ok ((), w') := by
    intro w
    change ∃ w', Prog.run seq (if w.proc.sharedSemInitialized then _ else _) w = .ok ((), w')
    split
    · change ∃ w', Prog.run seq (if w.proc.outfileOpen then _ else _) _ = .ok ((), w')
      split <;> exact ⟨_, rfl⟩
    · change ∃ w', Prog.run seq (if w.proc.outfileOpen then _ else _) _ = .ok ((), w')
      split <;> exact ⟨_, rfl⟩
  change ∃ w', Prog.run seq (if w.proc.stss ≠ [] then _ else _) w = .ok ((), w')
  split
  · exact hclose _
  · exact hclose _

/-- **The mapping is given back exactly once**, and the pointer to it is null exactly if it has
been given back, **exactly if the file has not been used up** when the process is cleaned up. -/
theorem mapping_released_once_iff (henv : w₀.HasEnv env) (hfile : env .faketimeLoadFile ≠ none)
    (hinit : (ftplReallyInit B).run seq w₀ = .ok ((), w₁)) (hs : Session B w₁ n w)
    (hend : ftCleanup.run seq w = .ok ((), w')) :
    ((w.proc.stss ≠ [] ↔ n = 0) ∧ (w'.proc.stss ≠ [] ↔ n + releases ftCleanup w = 0) ∧
      n + releases ftCleanup w = 1) ↔ w.proc.infileSet = true := by
  obtain ⟨hmapped, hset₁⟩ := mapped_of_init henv hfile hinit
  obtain ⟨hkept, hcase⟩ := hs.handled
  have hfull : w.proc.stss ≠ [] := by rwa [hkept]
  obtain ⟨hnull, hone⟩ := ends_ftCleanup hfull _ _ hend
  rw [hone, hnull]
  rcases hcase with ⟨hset, rfl⟩ | ⟨-, hout, rfl⟩
  · rw [hset, hset₁]
    simp [hfull]
  · rw [hout]
    simp [hfull]

/-! ### A file of one record -/

/-- The environment of a process that replays a file. -/
def replayEnv : EnvVar → Option CStr
  | .faketimeLoadFile => some "/tmp/times".toList
  | v => startAtEnv v

/-- A time a hundred seconds after the epoch. -/
def hundred : SavedTimestamp := ⟨[0, 0, 0, 0, 0, 0, 0, 100], [0, 0, 0, 0, 0, 0, 0, 0]⟩

/-- The file holds one record. -/
def replayOs : ℕ → (o : Op) → Option o.Ans
  | _, .mapLoad _ => some (some hundred.bytes)
  | n, o => calmOs replayEnv (fun _ _ => ⟨1000, 0⟩) ⟨0, 0⟩ n o

/-- The process in such a system, when `idx` records have been handed out and as many ticks. -/
def replayWorld (idx : ℕ) (p : Proc) : World :=
  { calmWorld replayEnv (fun _ _ => ⟨1000, 0⟩) ⟨0, 0⟩ p with
    os := replayOs
    shm := { FtShared.created with fileIdx := idx, ticks := idx } }

/-- The variables of the process, as far as they matter here, when it has been initialized. -/
def replayProc : Proc :=
  { Proc.initial with
    stss := [hundred], infileSet := true, sharedSemInitialized := true, lastDataFetch := 1000 }

theorem run_init_replay : ∃ w, (ftplReallyInit epochBuild).run seq (replayWorld 0 .initial) =
    .ok ((), w) ∧ w.proc.stss = replayProc.stss ∧ w.proc.infileSet = true :=
  ⟨_, rfl, rfl, rfl⟩

theorem hasEnv_replayWorld : (replayWorld 0 .initial).HasEnv replayEnv := fun _ _ => rfl

/-- The first time that is asked for is that of the record. -/
theorem run_time_replay : ∃ w, (Entry.time.prog epochBuild).run seq (replayWorld 0 replayProc) =
    .ok (.seconds 100, w) ∧ w.proc.stss = replayProc.stss ∧ w.proc.infileSet = true ∧
      releases (Entry.time.prog epochBuild) (replayWorld 0 replayProc) = 0 :=
  ⟨_, rfl, rfl, rfl, rfl⟩

/-- With the second one the file is used up. -/
theorem run_time_replayed : ∃ r w,
    (Entry.time.prog epochBuild).run seq (replayWorld 1 replayProc) = .ok (r, w) ∧
      w.proc.stss = replayProc.stss ∧
        releases (Entry.time.prog epochBuild) (replayWorld 1 replayProc) = 1 := by
  have hrun : (match (Entry.time.prog epochBuild).run seq (replayWorld 1 replayProc) with
      | .ok (_, w) => decide (w.proc.stss = replayProc.stss)
      | .error _ => false) = true := by decide +kernel
  have hone : releases (Entry.time.prog epochBuild) (replayWorld 1 replayProc) = 1 := by
    decide +kernel
  cases hr : (Entry.time.prog epochBuild).run seq (replayWorld 1 replayProc) with
  | error x =>
    rw [hr] at hrun
    cases hrun
  | ok r =>
    rw [hr] at hrun
    exact ⟨r.1, r.2, rfl, of_decide_eq_true hrun, hone⟩

/-- A process that asks for as many times as there are records. -/
theorem mapping_released_once : ∃ w₁ n w w',
    (ftplReallyInit epochBuild).run seq (replayWorld 0 .initial) = .ok ((), w₁) ∧
      Session epochBuild w₁ n w ∧ ftCleanup.run seq w = .ok ((), w') ∧
        n + releases ftCleanup w = 1 := by
  obtain ⟨w₁, hinit, hfile, hset⟩ := run_init_replay
  obtain ⟨w, hrun, -, hstill, hnone⟩ := run_time_replay
  have hs := Session.other (B := epochBuild) hfile.symm hset.symm (.call hrun .nil)
  obtain ⟨w', hend⟩ := exists_run_ftCleanup w
  exact ⟨w₁, _, w, w', hinit, hs, hend,
    ((mapping_released_once_iff hasEnv_replayWorld (by decide) hinit hs hend).mpr hstill).2.2⟩

/-- One time more, and the mapping is given back twice. -/
theorem mapping_released_twice : ∃ w₁ n w w',
    (ftplReallyInit epochBuild).run seq (replayWorld 0 .initial) = .ok ((), w₁) ∧
      Session epochBuild w₁ n w ∧ ftCleanup.run seq w = .ok ((), w') ∧
        n + releases ftCleanup w = 2 := by
  obtain ⟨w₁, hinit, hfile, hset⟩ := run_init_replay
  obtain ⟨w₂, hrun, hfile₂, hset₂, hnone⟩ := run_time_replay
  obtain ⟨r, w, hrun', hfull, hone⟩ := run_time_replayed
  obtain ⟨w', hend⟩ := exists_run_ftCleanup w
  have hs := Session.other (B := epochBuild) hfile.symm hset.symm (.call hrun
    (.other hfile₂.symm hset₂.symm (.call hrun' .nil)))
  rw [hnone, hone] at hs
  have hstill : w.proc.stss ≠ [] := by
    rw [hfull]
    exact List.cons_ne_nil _ _
  obtain ⟨-, hlast⟩ := ends_ftCleanup hstill _ _ hend
  refine ⟨w₁, _, w, w', hinit, hs, hend, ?_⟩
  rw [hlast]

end LibFaketime
