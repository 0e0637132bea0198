import LibFaketime.Entry

/-!
# Every reported time is normalized

Whatever has happened to a process – settings that were read again, records that were
replayed, limits, a clock that could not be read – a query that reports a time reports a
normalized one. Most ways through `fake_clock_gettime` end with a normalization; the
others report the time they were given, or a record of the load file, or a scaled clock.
So the only thing that has to be carried through a run is that the records are valid
(`LibFaketime.RecordsValid`), and they are because the initialization has checked them.
-/

namespace LibFaketime

open Effects Effects.Prog

variable {P T : Type} [DecidableEq P] [DecidableEq T]

/-! ### Records -/

section Records

/-- The records of the load file are valid. -/
def RecordsValid (s : Proc) : Prop := ∀ r ∈ s.stss, savedTimestampValid r = true

theorem RecordsValid.of_fixed {s s' : Proc} (h : RecordsValid s) (he : s'.fixed = s.fixed) :
    RecordsValid s' := by
  have hstss : s'.stss = s.stss := congrArg Prod.fst he
  rw [RecordsValid, hstss]
  exact h

/-- A valid record is a normalized time. -/
theorem normal_timespecFromSaved {r : SavedTimestamp} (h : savedTimestampValid r = true) :
    (timespecFromSaved r).Normal := by
  have hlt : be64toh r.nsec < 1000000000 := of_decide_eq_true h
  have hint : toInt64 (be64toh r.nsec) = be64toh r.nsec := if_pos (by omega)
  refine ⟨?_, ?_⟩
  · change 0 ≤ toInt64 (be64toh r.nsec)
    omega
  · change toInt64 (be64toh r.nsec) < 1000000000
    omega

/-- A record at any position, also beyond the last one. -/
theorem RecordsValid.normal_getD {s : Proc} (h : RecordsValid s) (i : ℕ) :
    (timespecFromSaved (s.stss.getD i ⟨[], []⟩)).Normal := by
  rw [List.getD_eq_getElem?_getD]
  cases hr : s.stss[i]? with
  | none => decide
  | some r => exact normal_timespecFromSaved (h r (List.mem_of_getElem? hr))

/-- What the load-time checks accept is valid. -/
theorem valid_of_loadChecks {bytes : List UInt8} {stss : List SavedTimestamp}
    (h : loadChecks bytes = .ok stss) : ∀ r ∈ stss, savedTimestampValid r = true := by
  simp only [loadChecks] at h
  split_ifs at h with h₁ h₂ h₃
  cases h
  exact List.all_eq_true.mp h₃

end Records

/-! ### The invariant -/

section Invariant

variable {α β : Type} {E : Surroundings} {pid : T → P} {t : T}

/-- The records of every process are valid. -/
def AllRecordsValid (m : Mem P T α) : Prop := ∀ p, RecordsValid (m.proc p)

/-- The judgement of this file: a program of thread `t` keeps the records valid and
returns values of `Q`. -/
abbrev KeepsRecords (E : Surroundings) (pid : T → P) (t : T) (α : Type) (Q : β → Prop)
    (p : Sys β) : Prop :=
  p.Keeps (Mem.Answers E pid t) (AllRecordsValid : Mem P T α → Prop) Q

theorem keeps_of_ordinary {p : Sys β} (h : p.Uses (Ordinary True)) :
    KeepsRecords E pid t α (fun _ => True) p :=
  h.keeps fun _ _ _ _ ho hm ha q => (hm q).of_fixed (fixed_of_ordinary ho ha q).1

theorem keeps_of_routine {p : Sys β} (h : p.Uses (Routine True)) :
    KeepsRecords E pid t α (fun _ => True) p :=
  keeps_of_ordinary (h.mono fun _ => Routine.ordinary)

theorem keeps_of_inner {p : Sys β} (h : p.Uses (Inner True)) :
    KeepsRecords E pid t α (fun _ => True) p :=
  keeps_of_routine (routine_of_inner h)

/-- Assignments that keep the records of a process valid. -/
theorem keeps_of_sets {p : Sys β} (h : p.Uses (Sets RecordsValid)) :
    KeepsRecords E pid t α (fun _ => True) p := by
  refine h.keeps fun m o r m' ho hm ha q => ?_
  by_cases hs : ∃ f, o = .store f
  · obtain ⟨f, rfl⟩ := hs
    obtain rfl : m' = m.assign (pid t) f := ha
    by_cases hq : q = pid t
    · rw [hq, Mem.assign_proc_self]
      exact ho _ (hm _)
    · rw [Mem.assign_proc_of_ne hq]
      exact hm q
  · rw [ha.proc_eq fun f hf => hs ⟨f, hf⟩]
    exact hm q

theorem keeps_pure {Q : β → Prop} {a : β} (h : Q a) : KeepsRecords E pid t α Q (pure a : Sys β) := h

theorem keeps_load {Q : β → Prop} {f : Proc → Sys β}
    (h : ∀ s, RecordsValid s → KeepsRecords E pid t α Q (f s)) :
    KeepsRecords E pid t α Q (load >>= f) := by
  rintro m s m' hm ⟨rfl, rfl⟩
  exact ⟨hm, h _ (hm _)⟩

/-- A call that is not an assignment. -/
theorem keeps_call {Q : β → Prop} {o : Op} {f : o.Ans → Sys β} (ho : ∀ g, o ≠ .store g)
    (h : ∀ r, KeepsRecords E pid t α Q (f r)) :
    KeepsRecords E pid t α Q (perform (I := sys) o >>= f) := by
  intro m r m' hm ha
  refine ⟨fun q => ?_, h r⟩
  rw [ha.proc_eq ho]
  exact hm q

/-- A reading of a clock. -/
theorem keeps_realClockGettime {Q : β → Prop} {c : ClockId} {f : Option Timespec → Sys β}
    (h : ∀ r : Option Timespec, E.admits (.realClockGettime c) r → KeepsRecords E pid t α Q (f r)) :
    KeepsRecords E pid t α Q (realClockGettime c >>= f) := by
  rintro m r m' hm ⟨hr, rfl⟩
  exact ⟨hm, h r hr⟩

end Invariant

/-! ### The query -/

section Query

variable {α : Type} {B : Build} {E : Surroundings} {pid : T → P} {t : T} {clkId : ClockId}
  {tp : Timespec}

/-- A record that is handed out is normalized; without one the time is left alone. -/
theorem keeps_loadTime (retries : ℕ) : KeepsRecords E pid t α
    (fun r => r.2.Normal ∨ r = (false, tp)) (loadTime retries tp) := by
  have hunlock : ∀ r : Bool × Timespec, r.2.Normal ∨ r = (false, tp) →
      KeepsRecords E pid t α (fun r => r.2.Normal ∨ r = (false, tp))
        (ftSemUnlock >>= fun b => if b = true then pure r
          else (exit 1 "libfaketime: In load_time(), ft_sem_unlock failed" >>= fun _ : Unit =>
            pure r)) := by
    intro r hr
    refine keeps_call (fun _ => Op.noConfusion) fun b => ?_
    split
    · exact keeps_pure hr
    · exact fun _ e => Empty.elim e
  induction retries with
  | zero => exact fun _ e => Empty.elim e
  | succ retries ih =>
    refine keeps_load fun s hs => ?_
    dsimp only
    split
    · refine keeps_call (fun _ => Op.noConfusion) fun r => ?_
      cases r with
      | interrupted => exact ih
      | failed => exact fun _ e => Empty.elim e
      | acquired =>
        refine keeps_call (fun _ => Op.noConfusion) fun d => ?_
        split
        · exact (keeps_of_inner
            (inner_of_aloof (aloof_of_detached (detached_leaveReplay trivial)))).bind fun _ _ =>
            hunlock _ (Or.inr rfl)
        · refine keeps_load fun s₁ hs₁ => keeps_call (fun _ => Op.noConfusion) fun _ => ?_
          exact hunlock _ (Or.inl (hs₁.normal_getD _))
    · exact keeps_pure (Or.inr rfl)

/-- A query that is cut short reports a normalized time or the one it was given. -/
theorem keeps_fakeByMode : KeepsRecords E pid t α
    (fun o => ∀ code tp', o = .abort code tp' → tp' = tp) (fakeByMode B clkId tp) := by
  refine keeps_load fun s _ => ?_
  split
  · exact keeps_pure (by rintro code tp' h; cases h)
  · split
    · refine (keeps_of_inner (inner_of_plain (plain_nextTime trivial _ _ _))).bind fun _ _ =>
        keeps_pure ?_
      rintro code tp' h
      cases h
    · exact keeps_pure (by rintro code tp' h; cases h)
  · exact keeps_pure (by rintro code tp' h; cases h; rfl)

theorem keeps_fakeLocked : KeepsRecords E pid t α
    (fun o => ∀ code tp', o = .abort code tp' → tp'.Normal ∨ tp' = tp) (fakeLocked B clkId tp) := by
  have hmode : KeepsRecords E pid t α
      (fun o => ∀ code tp', o = .abort code tp' → tp'.Normal ∨ tp' = tp) (fakeByMode B clkId tp) :=
    keeps_fakeByMode.mono fun o ho code tp' h => Or.inr (ho code tp' h)
  refine (keeps_of_inner (inner_of_aloof (aloof_limitsAndSpawn _ _))).bind fun b _ => ?_
  split
  · exact keeps_pure (by rintro code tp' h; cases h; exact Or.inr rfl)
  · refine (keeps_of_inner (inner_of_refreshing (refreshing_refreshConfig trivial))).bind fun _ _ =>
      keeps_load fun s _ => ?_
    split
    · refine (keeps_loadTime B.retries).bind fun r hr => ?_
      dsimp only
      split
      next hloaded =>
        refine keeps_pure ?_
        rintro code tp' h
        cases h
        rcases hr with hr | rfl
        · exact Or.inl hr
        · cases hloaded
      next hloaded =>
        rcases hr with hr | rfl
        · -- a normalized time that is not a record is passed on
          refine keeps_fakeByMode.mono fun o ho code tp' h => Or.inl ?_
          rw [ho code tp' h]
          exact hr
        · exact hmode
    · exact hmode

/-- **What `fake_clock_gettime` leaves is normalized, or what it was given.** -/
theorem keeps_fakeClockGettime : KeepsRecords E pid t α
    (fun r => r.2.Normal ∨ r.2 = tp) (fakeClockGettime B clkId tp) := by
  have hlast : ∀ out : Outcome, (∀ code tp', out = .abort code tp' → tp'.Normal ∨ tp' = tp) →
      KeepsRecords E pid t α (fun r => r.2.Normal ∨ r.2 = tp) (finishQuery B clkId tp out) := by
    intro out hout
    cases out with
    | abort code tp' => exact keeps_pure (hout code tp' rfl)
    | faked tp' =>
      refine (keeps_of_inner (inner_of_plain (plain_saveTime trivial _ _))).bind fun _ _ => ?_
      refine (keeps_of_routine (uses_perform (I := sys) (o := .store _)
        (routine_cacheTimes _ _ _))).bind fun _ _ => ?_
      exact keeps_pure (Or.inl (normal_normalizeTimespecValue _))
  refine keeps_call (fun _ => Op.noConfusion) fun b => ?_
  split
  · exact keeps_pure (Or.inr rfl)
  · split
    · refine keeps_load fun s _ => keeps_pure ?_
      dsimp only
      split
      · exact Or.inl (normal_timespecmul _ _)
      · exact Or.inr rfl
    · cases B.pthreadSinglethreadedTime with
      | true =>
        refine keeps_call (fun _ => Op.noConfusion) fun _ =>
          keeps_fakeLocked.bind fun out hout => ?_
        exact keeps_call (fun _ => Op.noConfusion) fun _ => hlast out hout
      | false => exact keeps_fakeLocked.bind fun out hout => hlast out hout

end Query

/-! ### The functions -/

section Functions

variable {B : Build} {E : Surroundings} {pid : T → P} {t : T}

/-- The system reports normalized times. -/
structure SystemNormal (E : Surroundings) : Prop where
  clock : ∀ c v, E.admits (.realClockGettime c) (some v) → v.Normal
  timeofday : ∀ v, E.admits .realGettimeofday (some v) → 0 ≤ v.tvUsec ∧ v.tvUsec < 1000000

/-- The arguments of a call are normalized. -/
def Entry.Normal : Entry → Prop
  | .fakeClockGettime _ tp => tp.Normal
  | .stat buf => buf.stCtim.Normal ∧ buf.stAtim.Normal ∧ buf.stMtim.Normal
  | _ => True

/-- **The times in a reply are normalized.** -/
def Reply.Normal : Reply → Prop
  | .gettime _ _ (some tp) => tp.Normal
  | .timeofday _ (some tv) => 0 ≤ tv.tvUsec ∧ tv.tvUsec < 1000000
  | .timeb _ (some (_, millitm)) => 0 ≤ millitm ∧ millitm < 1000
  | _ => True

/-- A quotient that is truncated towards zero, of a number that may be just below it. -/
theorem tdiv_mem {x n k : ℤ} (hk : 0 < k) (hlow : -k < x) (hhigh : x < n * k) (hn : 0 < n) :
    0 ≤ x.tdiv k ∧ x.tdiv k < n := by
  by_cases h : 0 ≤ x
  · rw [Int.tdiv_eq_ediv_of_nonneg h]
    exact ⟨Int.ediv_nonneg h hk.le, Int.ediv_lt_of_lt_mul hk hhigh⟩
  · have hzero : x.tdiv k = 0 := by
      rw [← neg_neg x, Int.neg_tdiv, Int.tdiv_eq_ediv_of_nonneg (by omega),
        Int.ediv_eq_zero_of_lt (by omega) (by omega), neg_zero]
    rw [hzero]
    exact ⟨le_rfl, hn⟩

/-- `fake_gettimeofday` adds the fraction of a microsecond of the start time to the
reading; a reading that comes back unchanged loses it again. -/
theorem keeps_fakeGettimeofday {tv : Timeval} (htv : 0 ≤ tv.tvUsec ∧ tv.tvUsec < 1000000) :
    KeepsRecords E pid t Reply (fun r => 0 ≤ r.2.tvUsec ∧ r.2.tvUsec < 1000000)
      (fakeGettimeofday B tv) := by
  refine keeps_load fun s _ => keeps_fakeClockGettime.bind fun r hr => keeps_pure ?_
  -- the start time may be unset, and the fraction negative then
  have hlt : s.ftplStarttime.real.tvNsec.tmod 1000 < 1000 := Int.tmod_lt_of_pos _ (by decide)
  have hgt : -1000 < s.ftplStarttime.real.tvNsec.tmod 1000 := Int.lt_tmod_of_pos _ (by decide)
  rcases hr with ⟨h0, h1⟩ | hr
  · exact tdiv_mem (by decide) (by omega) (by omega) (by decide)
  · dsimp only
    rw [hr]
    exact tdiv_mem (by decide) (by dsimp only; omega) (by dsimp only; omega) (by decide)

theorem keeps_gettimeofday (hE : SystemNormal E) : KeepsRecords E pid t Reply
    (fun r => ∀ tv, r.2 = some tv → 0 ≤ tv.tvUsec ∧ tv.tvUsec < 1000000) (gettimeofday B) := by
  rintro m r m' hm ⟨hr, rfl⟩
  refine ⟨hm, ?_⟩
  cases r with
  | none => exact keeps_pure (by rintro tv h; cases h)
  | some tv =>
    refine (keeps_fakeGettimeofday (hE.timeofday tv hr)).bind fun r hr => keeps_pure ?_
    rintro tv h
    cases h
    exact hr

/-- Every intercepted function reports normalized times. -/
theorem keeps_entry (hE : SystemNormal E) {e : Entry} (he : e.Normal) :
    KeepsRecords E pid t Reply Reply.Normal (e.prog B) := by
  have hdone : ∀ {β : Type} {p : Sys β}, p.Uses (Routine True) →
      KeepsRecords E pid t Reply Reply.Normal (p >>= fun _ => pure .done) := by
    intro β p hp
    exact (keeps_of_routine hp).bind fun _ _ => keeps_pure trivial
  have hord := covers_routine (B := B) trivial
  have hlock := routine_of_plain (plain_lockForStat (trivial : True) B.retries)
  have hunlock := routine_of_plain (plain_unlockForStat (trivial : True))
  cases e with
  | clockGettime clkId =>
    refine Keeps.bind (Q := fun r => ∀ tp, r.2 = some tp → tp.Normal) ?_ fun r hr => ?_
    · refine keeps_realClockGettime fun r hr => ?_
      cases r with
      | none => exact keeps_pure (by rintro tp h; cases h)
      | some tp =>
        have htp := hE.clock clkId tp hr
        refine keeps_load fun s _ => ?_
        split
        · refine keeps_fakeClockGettime.bind fun r hr => keeps_pure ?_
          rintro tp' h
          cases h
          -- a time that is left alone is the reading of the real clock
          rcases hr with hr | hr
          · exact hr
          · rw [hr]
            exact htp
        · exact keeps_pure (by rintro tp' h; cases h; exact htp)
    · obtain ⟨code, tp⟩ := r
      cases tp with
      | none => exact keeps_pure trivial
      | some tp => exact keeps_pure (hr tp rfl)
  | gettimeofday =>
    refine (keeps_gettimeofday hE).bind fun r hr => ?_
    obtain ⟨code, tv⟩ := r
    cases tv with
    | none => exact keeps_pure trivial
    | some tv => exact keeps_pure (hr tv rfl)
  | time =>
    refine Keeps.bind (Q := fun _ => True) ?_ fun r _ => keeps_pure trivial
    refine keeps_realClockGettime fun r _ => ?_
    cases r with
    | none => exact keeps_pure trivial
    | some tp => exact keeps_fakeClockGettime.bind fun r _ => keeps_pure trivial
  | ftime =>
    refine Keeps.bind (Q := fun r => ∀ s ms, r.2 = some (s, ms) → 0 ≤ ms ∧ ms < 1000) ?_
      fun r hr => ?_
    · refine keeps_call (fun _ => Op.noConfusion) fun b => ?_
      split
      · exact keeps_pure (by rintro s ms h; cases h)
      · refine keeps_realClockGettime fun r hr => ?_
        cases r with
        | none => exact keeps_pure (by rintro s ms h; cases h)
        | some tp =>
          refine keeps_fakeClockGettime.bind fun r hr' => keeps_pure ?_
          have hn : r.2.Normal := by
            rcases hr' with hr' | hr'
            · exact hr'
            · rw [hr']
              exact hE.clock _ tp hr
          obtain ⟨h0, h1⟩ := hn
          rintro s ms h
          cases h
          -- the milliseconds are the nanoseconds of a normalized time, divided
          exact tdiv_mem (by decide) (by omega) (by omega) (by decide)
    · obtain ⟨code, tb⟩ := r
      cases tb with
      | none => exact keeps_pure trivial
      | some tb => exact keeps_pure (hr tb.1 tb.2 rfl)
  | fakeClockGettime clkId tp =>
    refine keeps_fakeClockGettime.bind fun r hr => keeps_pure ?_
    rcases hr with hr | hr
    · exact hr
    · change r.2.Normal
      rw [hr]
      exact he
  -- the other functions report no time of the clock
  | stat buf => exact hdone (hord.statHandlerCommon
      (hord.fakeStatbuf hlock hunlock) _)
  | statx buf => exact hdone (hord.statHandlerCommon
      (hord.fakeStatxbuf hlock hunlock) _)
  | clockNanosleep clkId abstime req => exact hdone (hord.clockNanosleep _ _ _)
  | timerSettime abstime new => exact hdone (hord.timerSettimeCommon _ _ _)
  | timerfdSettime abstime clkId new => exact hdone (hord.timerSettimeCommon _ _ _)
  | pthreadCondTimedwait clkId abstime => exact hdone (hord.pthreadCondTimedwaitCommon _ _)

end Functions

/-! ### The initialization -/

section Init

variable {B : Build} {E : Surroundings} {pid : T → P} {t : T}

theorem unaffected_recordsValid : Unaffected RecordsValid := by
  constructor
  all_goals intros
  all_goals assumption

/-- Only records that have been checked are installed. -/
theorem keeps_readLimitsAndFiles :
    KeepsRecords E pid t Reply (fun _ => True) readLimitsAndFiles :=
  keeps_of_sets (uses_readLimitsAndFiles unaffected_recordsValid
    (fun _ _ hok _ _ => valid_of_loadChecks hok) fun _ _ h => h)

theorem keeps_readSettings : KeepsRecords E pid t Reply (fun _ => True) readSettings :=
  keeps_of_sets (uses_readSettings unaffected_recordsValid (fun _ _ h => h) fun _ _ h => h)

/-- The first setting is made of ordinary calls: it makes the choice between the environment
and the configuration file. -/
theorem ordinary_firstSetting : (firstSetting B).Uses (Ordinary True) := by
  refine uses_perform_bind trivial fun r => ?_
  cases r with
  | some setting =>
    refine (uses_perform (I := sys) ?_).bind fun _ =>
      (routine_of_refreshing (refreshing_parseFtString trivial _)).mono fun _ => Routine.ordinary
    exact fun s => ⟨rfl, id⟩
  | none =>
    exact ((routine_of_refreshing (refreshing_readConfigFile trivial)).mono fun _ =>
      Routine.ordinary).bind
      fun _ => uses_pure _

/-- The initialization leaves valid records. -/
theorem keeps_initProg : KeepsRecords E pid t Reply Reply.Normal (initProg B) := by
  refine Keeps.bind (Q := fun _ => True) ?_ fun _ _ => keeps_pure trivial
  refine keeps_call (fun _ => Op.noConfusion) fun _ => ?_
  refine keeps_readSettings.bind fun _ _ => ?_
  refine (keeps_of_sets (uses_skipCmds fun _ h => h)).bind fun _ _ => ?_
  refine (keeps_of_sets (uses_onlyCmds fun _ h => h)).bind fun _ _ => ?_
  refine keeps_readLimitsAndFiles.bind fun _ _ => ?_
  refine (keeps_of_inner (inner_of_plain (plain_agreeOnStarttime trivial))).bind fun _ _ => ?_
  refine (keeps_of_ordinary ordinary_firstSetting).bind fun _ _ => ?_
  exact keeps_perform fun m r m' hm ha =>
    ⟨fun q => by rw [ha.proc_eq fun _ => Op.noConfusion]; exact hm q, trivial⟩

end Init

/-! ### Any run -/

section Runs

variable {B : Build} {E : Surroundings} {pid : T → P} {first : P → T} {m₀ : Mem P T Reply}
  {s : Pool sys T (Mem P T Reply) Reply}

/-- **Every reported time is normalized.** Processes start with their initial variables
and use the library in any way: whatever the environment and the files hold, whatever
other processes make of the shared block, whichever calls fail, and in whatever order the
threads take their steps, a function that returns a time returns a normalized one. -/
theorem replies_normal (hE : SystemNormal E) (hinit : ∀ p, m₀.proc p = Proc.initial)
    (hr : (library B E pid first fun _ _ e => e.Normal).Reach (Pool.init sys T Reply m₀) s)
    {t : T} {a : Reply} (ha : s.code t = some (.ret a)) : a.Normal := by
  have hinv : AllRecordsValid m₀ := by
    intro p
    rw [hinit p]
    exact fun r hr => absurd hr List.not_mem_nil
  refine (Machine.reach_keeps (Q := fun _ a => a.Normal) ?_ ?_ hinv hr).2 t _ ha
  · rintro t m p - (⟨-, -, rfl⟩ | ⟨-, e, he, rfl⟩)
    · exact keeps_initProg
    · exact keeps_entry hE he
  · rintro t a m m' hm - rfl
    exact hm

end Runs

/-- The process of `FAKETIME='@1970-01-01 00:01:40'` is initialized, and another of its
threads asks for the time of day. -/
theorem replies_normal_timeofday :
    ∃ s : Pool sys (Fin 2) (Mem Unit (Fin 2) Reply) Reply,
      (library epochBuild (calmSurroundings startAtEnv (fun _ _ => ⟨50, 999⟩) ⟨0, 0⟩)
        (fun _ => ()) (fun _ => 0) fun _ _ e => e.Normal).Reach
          (Pool.init sys (Fin 2) Reply (Mem.fresh Proc.initial)) s ∧
      s.code 1 = some (.ret (.timeofday 0 (some ⟨100, 0⟩))) ∧
      (Reply.timeofday 0 (some ⟨100, 0⟩)).Normal := by
  have hsys : SystemNormal (calmSurroundings startAtEnv (fun _ _ => ⟨50, 999⟩) ⟨0, 0⟩) := by
    constructor
    · rintro c v ⟨n, h⟩
      cases h
      exact (by decide : (⟨50, 999⟩ : Timespec).Normal)
    · rintro v ⟨n, h⟩
      cases h
      exact (by decide : (0 : ℤ) ≤ 999 / 1000 ∧ (999 / 1000 : ℤ) < 1000000)
  have hallow := calmSurroundings_allows startAtEnv (fun _ _ => ⟨50, 999⟩) ⟨0, 0⟩ Proc.initial
  obtain ⟨m, hr, hready, -, hdont, hs⟩ := exists_reach_ready epochBuild
    (fun _ : Unit => (0 : Fin 2)) (fun _ _ e => e.Normal) (p := ()) hallow
    (Mem.fresh_stands (fun _ : Fin 2 => ()) 0 Proc.initial startAtEnv _ _) rfl rfl
    run_initProg_started rfl rfl
  have hs' : Stands (fun _ => ()) 1 { startedWorld with rest := m.rest 1 } m := by
    have hs₁ := hs 1 rfl
    rw [hdont 1 (by decide)] at hs₁
    exact hs₁
  obtain ⟨m', c, hr', hc, -⟩ := exists_reach_reply epochBuild (fun _ => 0) (fun _ _ e => e.Normal)
    (e := .gettimeofday) (a := .timeofday 0 (some ⟨100, 0⟩))
    (w := { startedWorld with rest := m.rest 1 }) (hallow.of_eq rfl rfl) hs' hready trivial rfl
  exact ⟨_, hr.trans hr', hc, replies_normal hsys (fun _ => rfl) (hr.trans hr') hc⟩

end LibFaketime
