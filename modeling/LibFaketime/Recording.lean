import LibFaketime.Grammar
import LibFaketime.Onward
import LibFaketime.Query

/-!
# Recording and replaying

A process that records appends a record for every time it reports, and a process that replays hands
out the records one after the other. So the second one reports what the first one has reported, if
it is asked in the same order (`LibFaketime.replay_is_faithful`): the functions that report a time
ask the clock once each, what they are told is what has been saved, and the record of a normalized
time gives that time back.

Nothing is assumed about what the clocks show or what the setting says, in either run, and neither
about how often the configuration is read again. What is needed of it is only that it is accepted
(`LibFaketime.ConfigAccepted`).
-/

namespace LibFaketime

open Effects Effects.Prog

/-! ### The format -/

section Format

variable {t : Timespec}

/-- A word that is written big-endian is read back. -/
theorem be64toh_htobe64 (x : ℤ) : be64toh (htobe64 x) = (x % 2 ^ 64).toNat := by
  have hlt : (x % 2 ^ 64).toNat < 2 ^ 64 := by omega
  generalize hn : (x % 2 ^ 64).toNat = n at hlt
  have hbytes : htobe64 x = [UInt8.ofNat (n / 256 ^ 7), UInt8.ofNat (n / 256 ^ 6),
      UInt8.ofNat (n / 256 ^ 5), UInt8.ofNat (n / 256 ^ 4), UInt8.ofNat (n / 256 ^ 3),
      UInt8.ofNat (n / 256 ^ 2), UInt8.ofNat (n / 256 ^ 1), UInt8.ofNat (n / 256 ^ 0)] := by
    rw [htobe64, hn]
    rfl
  rw [hbytes]
  simp only [be64toh, List.foldl_cons, List.foldl_nil, UInt8.toNat_ofNat']
  omega

theorem toInt64_emod {x : ℤ} (hlow : ftTimeMin ≤ x) (hhigh : x ≤ ftTimeMax) :
    toInt64 (x % 2 ^ 64).toNat = x := by
  have hmin : ftTimeMin = -(2 ^ 63) := rfl
  have hmax : ftTimeMax = 2 ^ 63 - 1 := rfl
  unfold toInt64
  split <;> omega

/-- **The record of a normalized time gives it back.** -/
theorem timespecFromSaved_savedTimestamp (hn : t.Normal) (hr : t.InRange) :
    timespecFromSaved (savedTimestamp t) = t := by
  obtain ⟨h0, h1⟩ := hn
  have hmin : ftTimeMin = -(2 ^ 63) := rfl
  have hmax : ftTimeMax = 2 ^ 63 - 1 := rfl
  have hsec : toInt64 (be64toh (htobe64 t.tvSec)) = t.tvSec := by
    rw [be64toh_htobe64]
    exact toInt64_emod hr.1 hr.2
  have hnsec : toInt64 (be64toh (htobe64 t.tvNsec)) = t.tvNsec := by
    rw [be64toh_htobe64]
    exact toInt64_emod (by omega) (by omega)
  exact congrArg₂ Timespec.mk hsec hnsec

theorem valid_savedTimestamp (hn : t.Normal) : savedTimestampValid (savedTimestamp t) = true := by
  obtain ⟨h0, h1⟩ := hn
  refine decide_eq_true ?_
  change be64toh (htobe64 t.tvNsec) < 1000000000
  rw [be64toh_htobe64]
  omega

/-- The bytes of the records of some times. -/
def recordBytes (ts : List Timespec) : List UInt8 := ts.flatMap fun t => (savedTimestamp t).bytes

theorem length_bytes (t : Timespec) : (savedTimestamp t).bytes.length = savedTimestampSize := by
  simp [savedTimestamp, SavedTimestamp.bytes, htobe64, savedTimestampSize]

theorem recordBytes_cons (t : Timespec) (ts : List Timespec) :
    recordBytes (t :: ts) = (savedTimestamp t).bytes ++ recordBytes ts := List.flatMap_cons

theorem length_recordBytes (ts : List Timespec) :
    (recordBytes ts).length = ts.length * savedTimestampSize := by
  induction ts with
  | nil => rfl
  | cons t ts ih =>
    rw [recordBytes_cons, List.length_append, ih, length_bytes, List.length_cons, Nat.succ_mul,
      Nat.add_comm]

theorem records_recordBytes (ts : List Timespec) :
    records ts.length (recordBytes ts) = ts.map savedTimestamp := by
  induction ts with
  | nil => rfl
  | cons t ts ih =>
    have hsec : (htobe64 t.tvSec).length = 8 := rfl
    have hnsec : (htobe64 t.tvNsec).length = 8 := rfl
    rw [recordBytes_cons, SavedTimestamp.bytes, savedTimestamp, List.append_assoc]
    change SavedTimestamp.mk _ _ :: records ts.length _ = _
    rw [List.take_left' hsec, List.drop_left' hsec, List.take_left' hnsec,
      show (16 : ℕ) = 8 + 8 from rfl, ← List.drop_drop, List.drop_left' hsec,
      List.drop_left' hnsec, ih]
    rfl

/-- **A file of records of normalized times passes the checks.** -/
theorem loadChecks_recordBytes {ts : List Timespec} (hne : ts ≠ []) (hn : ∀ t ∈ ts, t.Normal) :
    loadChecks (recordBytes ts) = .ok (ts.map savedTimestamp) := by
  have hpos : 0 < ts.length := List.length_pos_iff.mpr hne
  have hsize : 0 < savedTimestampSize := by decide
  have hlength := length_recordBytes ts
  have hall : (ts.map savedTimestamp).all savedTimestampValid = true := by
    rw [List.all_eq_true]
    intro r hr
    obtain ⟨t, ht, rfl⟩ := List.mem_map.mp hr
    exact valid_savedTimestamp (hn t ht)
  unfold loadChecks
  rw [hlength, if_neg (Nat.not_lt.mpr (Nat.le_mul_of_pos_left _ hpos)),
    if_neg (by rw [Nat.mul_mod_left]; simp), Nat.mul_div_cancel _ hsize]
  dsimp only
  rw [records_recordBytes, if_pos hall]

end Format

/-! ### The queries -/

/-- The functions that report a faked time. `mono` says whether the monotonic clocks are faked. -/
def Entry.AsksTime (mono : Bool) : Entry → Prop
  | .clockGettime clkId => clkId.IsCpu = false ∧ (clkId.IsMonotonic = true → mono = true)
  | .gettimeofday | .time => True
  | _ => False

/-- What such a function makes of the result of the clock. -/
def Entry.reply (r : ℤ × Timespec) : Entry → Reply
  | .gettimeofday => .timeofday r.1 (some ⟨r.2.tvSec, r.2.tvNsec.tdiv 1000⟩)
  | .time => .seconds r.2.tvSec
  | .clockGettime clkId => .gettime clkId r.1 (some r.2)
  | _ => .done

/-- What it reports if it is told the time `t`. -/
def Entry.told (t : Timespec) (e : Entry) : Reply := e.reply (0, t)

/-- The seconds in a reply are a word of 64 bits, as a `time_t` is. -/
def Reply.Word : Reply → Prop
  | .gettime _ _ (some tp) => tp.InRange
  | .timeofday _ (some tv) => ftTimeMin ≤ tv.tvSec ∧ tv.tvSec ≤ ftTimeMax
  | .seconds s => ftTimeMin ≤ s ∧ s ≤ ftTimeMax
  | _ => True

/-- The real clocks can be read. They show what they like. -/
structure World.Readable (w : World) : Prop where
  clock : ∀ n c, ∃ t, w.os n (.realClockGettime c) = some (some t)
  timeofday : ∀ n, ∃ tv, w.os n .realGettimeofday = some (some tv)

section Queries

variable {B : Build} {mono : Bool} {w : World} {e : Entry} {t : Timespec}

theorem Entry.told_word (he : e.AsksTime mono) (h : (e.told t).Word) : t.InRange := by
  cases e with
  | clockGettime | gettimeofday | time => exact h
  | _ => exact he.elim

/-- **A function that reports a time** reads a real clock, and asks once. -/
theorem exists_run_prog (he : e.AsksTime mono) (hw : w.Readable)
    (hmono : mono = true → w.proc.fakeMonotonicClock = true) : ∃ c tp, c.IsCpu = false ∧
      (e.prog B).run seq w =
        (fakeClockGettime B c tp >>= fun r => pure (e.reply r)).run seq w.tick := by
  cases e with
  | clockGettime clkId =>
    obtain ⟨tp, htp⟩ := hw.clock w.now clkId
    have hfake : (w.tick.proc.fakeMonotonicClock || !clkId.IsMonotonic) = true := by
      cases hclk : clkId.IsMonotonic with
      | false => exact Bool.or_true _
      | true => exact congrArg (· || false) (hmono (he.2 hclk))
    refine ⟨clkId, tp, he.1, ?_⟩
    rw [Entry.prog, run_bind, clockGettime, realClockGettime, run_ask rfl htp]
    dsimp only
    rw [run_load, if_pos hfake, run_bind, run_bind]
    cases (fakeClockGettime B clkId tp).run seq w.tick <;> rfl
  | gettimeofday =>
    obtain ⟨tv, htv⟩ := hw.timeofday w.now
    refine ⟨.realtime,
      ⟨tv.tvSec, tv.tvUsec * 1000 + w.tick.proc.ftplStarttime.real.tvNsec.tmod 1000⟩, rfl, ?_⟩
    rw [Entry.prog, run_bind, gettimeofday, realGettimeofday, run_ask rfl htv]
    dsimp only
    rw [run_bind, fakeGettimeofday, run_load, run_bind, run_bind]
    dsimp only
    cases (fakeClockGettime B .realtime _).run seq w.tick <;> rfl
  | time =>
    obtain ⟨tp, htp⟩ := hw.clock w.now .realtime
    refine ⟨.realtime, tp, rfl, ?_⟩
    rw [Entry.prog, run_bind, time, realClockGettime, run_ask rfl htp]
    dsimp only
    rw [run_bind, run_bind]
    cases (fakeClockGettime B .realtime tp).run seq w.tick <;> rfl
  | _ => exact he.elim

end Queries

/-! ### Recording -/

/-- Every `write` succeeds, which means that it takes a part of what it is given at least. -/
def World.Takes (w : World) : Prop :=
  ∀ n bytes, ∃ k, w.os n (.write bytes) = some (.wrote k) ∧ k ≤ bytes.length ∧ (bytes ≠ [] → 0 < k)

/-- **A process that records**, without limits. It is not excluded from faking. -/
structure Recording (mono : Bool) (w : World) : Prop where
  faking : w.dontFake = false
  mode : w.proc.ftMode ≠ .noop
  noLimits : w.proc.limitedFaking = false
  noReplay : w.proc.infileSet = false
  saves : (w.proc.sharedSemInitialized && w.proc.outfileOpen) = true
  semFree : w.semHeld = false
  clocks : w.Readable
  monotonic : mono = true → w.FakesMonotonic
  writes : w.Takes

section Recording

variable {B : Build} {mono : Bool} {w w₁ : World} {c : ClockId} {t tp : Timespec}

theorem World.Readable.of_os (h : w.Readable) (hos : w₁.os = w.os) : w₁.Readable :=
  ⟨by rw [hos]; exact h.clock, by rw [hos]; exact h.timeofday⟩

theorem Recording.onward (h : Recording mono w) (ho : Onward w w₁) : Recording mono w₁ where
  faking := ho.dontFake.trans h.faking
  mode := h.mode ∘ ho.noop
  noLimits := (ho.field Proc.limitedFaking).trans h.noLimits
  noReplay := (ho.field Proc.infileSet).trans h.noReplay
  saves := by
    rw [ho.field Proc.sharedSemInitialized, ho.field Proc.outfileOpen]
    exact h.saves
  semFree := ho.semHeld.trans h.semFree
  clocks := h.clocks.of_os ho.os
  monotonic := ho.monotonic ∘ h.monotonic
  writes := by
    rw [World.Takes, ho.os]
    exact h.writes

/-- A world that differs in the locks, the save file and the last times only. -/
theorem Recording.later (h : Recording mono w) (hos : w₁.os = w.os)
    (hdont : w₁.dontFake = w.dontFake)
    (hsem : w₁.semHeld = w.semHeld) (hproc : (w₁.proc.lasting, w₁.proc.ftMode,
      w₁.proc.fakeMonotonicClock) = (w.proc.lasting, w.proc.ftMode, w.proc.fakeMonotonicClock)) :
    Recording mono w₁ := by
  have hlasting : w₁.proc.lasting = w.proc.lasting := congrArg (fun k => k.1) hproc
  have hmode : w₁.proc.ftMode = w.proc.ftMode := congrArg (fun k => k.2.1) hproc
  have hmono : w₁.proc.fakeMonotonicClock = w.proc.fakeMonotonicClock :=
    congrArg (fun k => k.2.2) hproc
  have ho : Onward w { w₁ with
      file := w.file, mutexHeld := w.mutexHeld, shm := w.shm, saved := w.saved } :=
    ⟨hos, rfl, hdont, hsem, rfl, rfl, rfl, hlasting, fun hn => hmode.symm.trans hn,
      fun hm => ⟨hmono.trans hm.faked, by change ∀ n v, _ → w₁.os n _ ≠ _; rw [hos]; exact hm.env⟩⟩
  have hr := h.onward ho
  exact ⟨hr.faking, hr.mode, hr.noLimits, hr.noReplay, hr.saves, hr.semFree,
    ⟨hr.clocks.clock, hr.clocks.timeofday⟩,
    fun hm => ⟨(hr.monotonic hm).faked, (hr.monotonic hm).env⟩, hr.writes⟩

/-- Everything is written that `write_all` is given. -/
theorem ends_writeAllLoop (hw : w.Takes) (fuel : ℕ) (rest : List UInt8) (interrupted : ℕ) :
    (writeAllLoop fuel rest interrupted).Ends seq w fun ok w' =>
      ok = true ∧ ∃ n, w' = { w with now := n, saved := w.saved ++ rest } := by
  induction fuel generalizing w rest interrupted with
  | zero => exact ends_stalled
  | succ fuel ih =>
    unfold writeAllLoop
    split
    next h =>
      subst h
      exact ends_pure ⟨rfl, w.now, by rw [List.append_nil]⟩
    next hne =>
      obtain ⟨k, hk, hle, hpos⟩ := hw w.now rest
      refine ends_perform_bind (I := sys) fun r w₁ ho => ?_
      rw [seq_write, World.ask_of_some hk] at ho
      obtain ⟨rfl, rfl⟩ := Prod.ext_iff.mp (Except.ok.inj ho)
      dsimp only
      rw [if_neg (Nat.pos_iff_ne_zero.mp (hpos hne)), if_neg (Nat.not_lt.mpr hle)]
      refine (ih (w := { w.tick with saved := w.saved ++ rest.take k }) hw (rest.drop k) 0).mono ?_
      rintro ok _ ⟨hok, n, rfl⟩
      refine ⟨hok, n, ?_⟩
      rw [List.append_assoc, List.take_append_drop]
      rfl

theorem ends_lockForSave (retries : ℕ) : (lockForSave retries).Ends seq w fun _ w' =>
    ∃ n, w' = { w with now := n, semHeld := true } := by
  induction retries generalizing w with
  | zero => exact ends_stalled
  | succ retries ih =>
    refine ends_ftSemLock fun r => ?_
    cases r with
    | acquired => exact ends_pure ⟨_, rfl⟩
    | interrupted => exact ih
    | failed => exact ends_exit

/-- **The record of the time is appended.** -/
theorem ends_saveTime_recording (hw : Recording mono w) (retries : ℕ) :
    (saveTime retries t).Ends seq w
    fun _ w' => ∃ n, w' = { w with now := n, saved := w.saved ++ (savedTimestamp t).bytes } := by
  refine ends_load ?_
  dsimp only
  rw [if_pos hw.saves]
  refine (ends_lockForSave retries).bind ?_
  rintro _ _ ⟨m, rfl⟩
  refine (ends_writeAllLoop (w := { w with now := m, semHeld := true }) hw.writes _ _ 0).bind ?_
  rintro _ _ ⟨rfl, n, rfl⟩
  refine ends_ftSemUnlock fun b => ?_
  cases b with
  | false => exact ends_exit
  | true =>
    refine ends_pure ⟨n + 1, ?_⟩
    change ({ w with now := n + 1, semHeld := false, saved := _ } : World) = _
    rw [← hw.semFree]
    rfl

/-- Outside the limits and the replay, the switch on the mode tells the time. -/
theorem ends_fakeByMode_recording (hw : Recording mono w) : (fakeByMode B c tp).Ends seq w
    fun out w' => Onward w w' ∧ ∃ t, out = .faked t := by
  have honward : (fakeByMode B c tp).Ends seq w fun _ w' => Onward w w' :=
    advances_fakeByMode c tp w hw.semFree
  have htold : (fakeByMode B c tp).Ends seq w fun out _ => ∃ t, out = .faked t := by
    refine ends_load ?_
    cases hmode : w.proc.ftMode with
    | freeze => exact ends_pure ⟨_, rfl⟩
    | startAt =>
      dsimp only
      split
      · exact Ends.bind (Q := fun _ _ => True) (fun _ _ _ => trivial) fun _ _ _ =>
          ends_pure ⟨_, rfl⟩
      · exact ends_pure ⟨_, rfl⟩
    | noop => exact absurd hmode hw.mode
  exact fun out w' hr => ⟨honward out w' hr, htold out w' hr⟩

theorem ends_fakeLocked_recording (hw : Recording mono w) : (fakeLocked B c tp).Ends seq w
    fun out w' => Onward w w' ∧ ∃ t, out = .faked t := by
  have hlimits : (limitsAndSpawn c tp).Ends seq w fun r w' => r = false ∧ Onward w w' := by
    intro r w' hr
    exact ⟨((runs_limitsAndSpawn hw.noLimits).ends r w' hr).1,
      advances_limitsAndSpawn c tp w hw.semFree r w' hr⟩
  refine hlimits.bind ?_
  rintro _ w₁ ⟨rfl, h₁⟩
  rw [if_neg (by simp)]
  refine (advances_refreshConfig w₁ (hw.onward h₁).semFree).bind fun _ w₂ h₂ => ?_
  have hw₂ : Recording mono w₂ := (hw.onward h₁).onward h₂
  refine ends_load ?_
  rw [hw₂.noReplay, if_neg (by simp)]
  exact (ends_fakeByMode_recording hw₂).mono fun _ _ h => ⟨(h₁.trans h₂).trans h.1, h.2⟩

/-- **A query of a recording process** saves the time it tells, and goes on recording. -/
theorem ends_query (hw : Recording mono w) (hc : c.IsCpu = false) :
    (fakeClockGettime B c tp).Ends seq w
    fun r w' => ∃ t, r = (0, t) ∧ t.Normal ∧ Recording mono w' ∧
      w'.saved = w.saved ++ (savedTimestamp t).bytes := by
  have hend : ∀ out w₁, Recording mono w₁ → w₁.saved = w.saved → (∃ t, out = .faked t) →
      (finishQuery B c tp out).Ends seq w₁ fun r w' => ∃ t, r = (0, t) ∧ t.Normal ∧
        Recording mono w' ∧ w'.saved = w.saved ++ (savedTimestamp t).bytes := by
    rintro _ w₁ hw₁ hsaved ⟨t, rfl⟩
    refine (ends_saveTime_recording hw₁ _).bind ?_
    rintro _ _ ⟨n, rfl⟩
    refine ends_store (ends_pure ⟨_, rfl, normal_normalizeTimespecValue t, ?_, ?_⟩)
    · obtain ⟨reals, fakes, hs⟩ := Proc.exists_cacheTimes c tp (normalizeTimespecValue t) w₁.proc
      rw [hs]
      exact hw₁.later rfl rfl rfl rfl
    · change w₁.saved ++ _ = _
      rw [hsaved]
  refine ends_dontFake ?_
  rw [hw.faking, if_neg (by simp), if_neg (by rw [hc]; simp)]
  have hlocked : Recording mono { w with mutexHeld := true } := hw.later rfl rfl rfl rfl
  split
  · refine ends_perform_bind (I := sys) fun _ w₀ ho => ?_
    rw [seq_timeMutexLock] at ho
    split at ho
    · cases ho
    · cases ho
      refine (ends_fakeLocked_recording hlocked).bind fun out w₁ h₁ => ?_
      refine ends_perform_bind (I := sys) fun _ w₂ ho => ?_
      cases ho
      have hw₁ : Recording mono w₁ := hlocked.onward h₁.1
      exact hend out _ (hw₁.later rfl rfl rfl rfl) h₁.1.saved h₁.2
  · refine (ends_fakeLocked_recording hw).bind fun out w₁ h₁ => ?_
    exact hend out w₁ (hw.onward h₁.1) h₁.1.saved h₁.2

/-- A function that reports a time reports what has been saved. -/
theorem ends_prog {e : Entry} (he : e.AsksTime mono) (hw : Recording mono w) : (e.prog B).Ends seq w
    fun r w' => ∃ t, r = e.told t ∧ t.Normal ∧ Recording mono w' ∧
      w'.saved = w.saved ++ (savedTimestamp t).bytes := by
  obtain ⟨c, tp, hc, hrun⟩ := exists_run_prog (B := B) he hw.clocks fun hm =>
    (hw.monotonic hm).faked
  unfold Ends
  rw [hrun]
  refine (ends_query (w := w.tick) (hw.later rfl rfl rfl rfl) hc).bind ?_
  rintro _ w' ⟨t, rfl, h⟩
  exact ends_pure ⟨t, rfl, h⟩

/-- **A recording run** leaves the records of what it has reported. -/
theorem ends_recording {es : List Entry} (hes : ∀ e ∈ es, e.AsksTime mono) (hw : Recording mono w) :
    (es.mapM (Entry.prog B)).Ends seq w fun rs w' => ∃ ts : List Timespec, ts.length = es.length ∧
      rs = List.zipWith Entry.told ts es ∧ (∀ t ∈ ts, t.Normal) ∧
      w'.saved = w.saved ++ recordBytes ts := by
  induction es generalizing w with
  | nil => exact ends_pure ⟨[], rfl, rfl, nofun, (List.append_nil _).symm⟩
  | cons e es ih =>
    rw [List.mapM_cons]
    refine (ends_prog (hes e List.mem_cons_self) hw).bind ?_
    rintro _ w₁ ⟨t, rfl, ht, hw₁, hsaved₁⟩
    refine (ih (fun e he => hes e (List.mem_cons_of_mem _ he)) hw₁).bind ?_
    rintro _ w₂ ⟨ts, hlength, rfl, hts, hsaved₂⟩
    refine ends_pure ⟨t :: ts, congrArg (· + 1) hlength, rfl, ?_, ?_⟩
    · exact List.forall_mem_cons.mpr ⟨ht, hts⟩
    · rw [hsaved₂, hsaved₁, recordBytes_cons, List.append_assoc]

end Recording

/-! ### Replaying -/

/-- **The configuration is accepted**: whenever a process with the same environment, files and
lasting variables refreshes it, and the semaphore is free, the refresh comes to its end. -/
def ConfigAccepted (B : Build) (w : World) : Prop :=
  ∀ w₁ : World, w₁.os = w.os → w₁.file = w.file → w₁.semHeld = false →
    w₁.proc.lasting = w.proc.lasting → ∃ w₂, (refreshConfig B).run seq w₁ = .ok ((), w₂)

/-- **A process that replays** the records of a file and has handed out `k` of them, without limits.
It is not excluded from faking, and its locks do not fail. -/
structure Replays (B : Build) (mono : Bool) (recs : List SavedTimestamp) (k : ℕ) (w : World) :
    Prop where
  faking : w.dontFake = false
  noLimits : w.proc.limitedFaking = false
  shared : w.proc.sharedSemInitialized = true
  replay : w.proc.infileSet = true
  file : w.proc.stss = recs
  position : w.shm.fileIdx = k
  semFree : w.semHeld = false
  lock : ∀ n, w.os n .ftSemLock = some .acquired
  unlock : ∀ n, w.os n .ftSemUnlock = some true
  tries : 0 < B.retries
  clocks : w.Readable
  monotonic : mono = true → w.FakesMonotonic
  accepted : ConfigAccepted B w

section Replaying

variable {B : Build} {mono : Bool} {recs : List SavedTimestamp} {k : ℕ} {w w₁ : World} {c : ClockId}
  {tp : Timespec}

theorem Replays.onward (h : Replays B mono recs k w) (ho : Onward w w₁) :
    Replays B mono recs k w₁ where
  faking := ho.dontFake.trans h.faking
  noLimits := (ho.field Proc.limitedFaking).trans h.noLimits
  shared := (ho.field Proc.sharedSemInitialized).trans h.shared
  replay := (ho.field Proc.infileSet).trans h.replay
  file := (ho.field Proc.stss).trans h.file
  position := ho.fileIdx.trans h.position
  semFree := ho.semHeld.trans h.semFree
  lock := by
    rw [ho.os]
    exact h.lock
  unlock := by
    rw [ho.os]
    exact h.unlock
  tries := h.tries
  clocks := h.clocks.of_os ho.os
  monotonic := ho.monotonic ∘ h.monotonic
  accepted w₂ hos hfile hsem hlasting :=
    h.accepted w₂ (hos.trans ho.os) (hfile.trans ho.file) hsem (hlasting.trans ho.lasting)

/-- A world that differs in the mutex, and in the position. -/
theorem Replays.later {l : ℕ} (h : Replays B mono recs k w) (hos : w₁.os = w.os)
    (hfile : w₁.file = w.file) (hproc : w₁.proc = w.proc) (hdont : w₁.dontFake = w.dontFake)
    (hsem : w₁.semHeld = w.semHeld) (hposition : w₁.shm.fileIdx = l) :
    Replays B mono recs l w₁ := by
  have ho : Onward w { w₁ with mutexHeld := w.mutexHeld, shm := w.shm, saved := w.saved } :=
    ⟨hos, hfile, hdont, hsem, rfl, rfl, rfl, congrArg Proc.lasting hproc,
      fun hn => by rw [← hproc]; exact hn,
      fun hm => ⟨by rw [hproc]; exact hm.faked, by rw [hos]; exact hm.env⟩⟩
  have hr := h.onward ho
  exact ⟨hr.faking, hr.noLimits, hr.shared, hr.replay, hr.file, hposition, hr.semFree, hr.lock,
    hr.unlock, hr.tries, ⟨hr.clocks.clock, hr.clocks.timeofday⟩,
    fun hm => ⟨(hr.monotonic hm).faked, (hr.monotonic hm).env⟩, hr.accepted⟩

/-- **A record is handed out.** -/
theorem runs_loadTime (h : Replays B mono recs k w) (hk : k < recs.length) :
    (loadTime B.retries tp).Runs seq w fun r w' =>
      r = (true, timespecFromSaved (recs.getD k ⟨[], []⟩)) ∧
        w' = { w with now := w'.now, shm := { w.shm with fileIdx := (k + 1) % 2 ^ 64 } } := by
  obtain ⟨retries, hretries⟩ : ∃ n, B.retries = n + 1 := ⟨B.retries - 1, by have := h.tries; omega⟩
  rw [hretries, loadTime]
  refine runs_load ?_
  rw [h.shared, h.replay, Bool.and_self, if_pos rfl]
  refine runs_ftSemLock h.semFree (h.lock _) (runs_readShared ?_)
  dsimp only [World.tick]
  rw [h.position, h.file, if_neg (Nat.not_le.mpr hk)]
  refine runs_load (runs_writeShared ?_)
  refine runs_ftSemUnlock (h.unlock _) (runs_pure ⟨?_, ?_⟩)
  · rw [h.file]
  · rw [h.position, ← h.semFree]
    rfl

/-- The locked part of a query hands out the next record. -/
theorem runs_fakeLocked_replay (h : Replays B mono recs k w) (hk : k < recs.length)
    (hsmall : recs.length < 2 ^ 64) :
    (fakeLocked B c tp).Runs seq w fun out w' =>
      out = .abort 0 (timespecFromSaved (recs.getD k ⟨[], []⟩)) ∧ Replays B mono recs (k + 1) w' ∧
        w'.mutexHeld = w.mutexHeld := by
  have hlimits : (limitsAndSpawn c tp).Runs seq w fun r w' => r = false ∧ Onward w w' := by
    obtain ⟨r, w₁, hr, hfalse, -⟩ : (limitsAndSpawn c tp).Runs seq w fun r w' =>
        r = false ∧ Counted w w' := runs_limitsAndSpawn h.noLimits
    exact ⟨r, w₁, hr, hfalse, advances_limitsAndSpawn c tp w h.semFree r w₁ hr⟩
  refine hlimits.bind ?_
  rintro _ w₁ ⟨rfl, h₁⟩
  rw [if_neg (by simp)]
  have hw₁ := h.onward h₁
  obtain ⟨w₂, hr⟩ := hw₁.accepted w₁ rfl rfl hw₁.semFree rfl
  have h₂ : Onward w₁ w₂ := advances_refreshConfig w₁ hw₁.semFree _ _ hr
  refine Runs.bind (Q := fun _ w' => w' = w₂) ⟨(), w₂, hr, rfl⟩ ?_
  rintro - _ rfl
  have hw₂ := hw₁.onward h₂
  refine runs_load ?_
  rw [hw₂.replay, if_pos rfl]
  refine (runs_loadTime hw₂ hk).bind ?_
  rintro _ w₃ ⟨rfl, hw₃⟩
  refine runs_pure ⟨rfl, ?_⟩
  rw [hw₃]
  exact ⟨hw₂.later rfl rfl rfl rfl rfl (Nat.mod_eq_of_lt (by omega)),
    h₂.mutexHeld.trans h₁.mutexHeld⟩

/-- **A query of a replaying process** tells what the next record says. -/
theorem runs_query_replay (h : Replays B mono recs k w) (hmutex : w.mutexHeld = false)
    (hc : c.IsCpu = false) (hk : k < recs.length) (hsmall : recs.length < 2 ^ 64) (tp : Timespec) :
    (fakeClockGettime B c tp).Runs seq w fun r w' =>
      r = (0, timespecFromSaved (recs.getD k ⟨[], []⟩)) ∧ Replays B mono recs (k + 1) w' ∧
        w'.mutexHeld = false := by
  refine runs_dontFake ?_
  rw [h.faking, if_neg (by simp), if_neg (by rw [hc]; simp)]
  split
  · refine runs_timeMutexLock hmutex ?_
    have hlocked : Replays B mono recs k { w with mutexHeld := true } :=
      h.later rfl rfl rfl rfl rfl h.position
    refine (runs_fakeLocked_replay hlocked hk hsmall).bind ?_
    rintro _ w₁ ⟨rfl, h₁, -⟩
    exact runs_timeMutexUnlock (runs_pure ⟨rfl, h₁.later rfl rfl rfl rfl rfl h₁.position, rfl⟩)
  · refine (runs_fakeLocked_replay h hk hsmall).bind ?_
    rintro _ w₁ ⟨rfl, h₁, hmutex₁⟩
    exact runs_pure ⟨rfl, h₁, hmutex₁.trans hmutex⟩

/-- A function that reports a time reports it. -/
theorem runs_prog_replay {e : Entry} (he : e.AsksTime mono) (h : Replays B mono recs k w)
    (hmutex : w.mutexHeld = false) (hk : k < recs.length) (hsmall : recs.length < 2 ^ 64) :
    (e.prog B).Runs seq w fun r w' => r = e.told (timespecFromSaved (recs.getD k ⟨[], []⟩)) ∧
      Replays B mono recs (k + 1) w' ∧ w'.mutexHeld = false := by
  obtain ⟨c, tp, hc, hrun⟩ := exists_run_prog (B := B) he h.clocks fun hm => (h.monotonic hm).faked
  unfold Runs
  rw [hrun]
  refine (runs_query_replay (w := w.tick) (h.onward (.tick w)) hmutex hc hk hsmall _).bind ?_
  rintro _ w' ⟨rfl, hw'⟩
  exact runs_pure ⟨rfl, hw'⟩

/-- **A replaying run** reports the records in their order. -/
theorem runs_replay {es : List Entry} (hes : ∀ e ∈ es, e.AsksTime mono)
    (h : Replays B mono recs k w) (hmutex : w.mutexHeld = false) (hk : k + es.length ≤ recs.length)
    (hsmall : recs.length < 2 ^ 64) : (es.mapM (Entry.prog B)).Runs seq w fun rs _ =>
      rs = List.zipWith Entry.told ((recs.drop k).map timespecFromSaved) es := by
  induction es generalizing k w with
  | nil =>
    refine runs_pure ?_
    rw [List.zipWith_nil_right]
    rfl
  | cons e es ih =>
    rw [List.length_cons] at hk
    have hlt : k < recs.length := by omega
    rw [List.mapM_cons]
    refine (runs_prog_replay (hes e List.mem_cons_self) h hmutex hlt hsmall).bind ?_
    rintro _ w₁ ⟨rfl, h₁, hmutex₁⟩
    refine (ih (fun e he => hes e (List.mem_cons_of_mem _ he)) h₁ hmutex₁ (by omega)).bind ?_
    rintro _ w₂ rfl
    refine runs_pure ?_
    rw [List.drop_eq_getElem_cons hlt, List.map_cons, List.zipWith_cons_cons,
      List.getD_eq_getElem?_getD, List.getElem?_eq_getElem hlt, Option.getD_some]

end Replaying

/-! ### The two runs -/

section Faithful

variable {B B' : Build} {mono : Bool} {w w' : World} {es : List Entry} {rs : List Reply}

/-- A file that passes the checks is mapped. -/
theorem runs_loadFile {v : World} {path : CStr} {bytes : List UInt8} {recs : List SavedTimestamp}
    (henv : v.os v.now (.getenv .faketimeLoadFile) = some (some path))
    (hmap : v.os (v.now + 1) (.mapLoad path) = some (some bytes))
    (hchecks : loadChecks bytes = .ok recs) : loadFile.Runs seq v fun _ v' =>
      v' = { v with
        now := v.now + 2, proc := { v.proc with stss := recs, infileSet := true } } := by
  refine runs_getenv henv (runs_ask rfl hmap ?_)
  dsimp only
  rw [hchecks]
  exact ⟨(), _, rfl, rfl⟩

/-- The times in replies are words if the replies are. -/
theorem inRange_of_word {ts : List Timespec} (hes : ∀ e ∈ es, e.AsksTime mono)
    (hlength : ts.length = es.length) (h : ∀ r ∈ List.zipWith Entry.told ts es, r.Word) :
    ∀ t ∈ ts, t.InRange := by
  induction ts generalizing es with
  | nil => nofun
  | cons t ts ih =>
    cases es with
    | nil => cases hlength
    | cons e es =>
      obtain ⟨he, hes⟩ := List.forall_mem_cons.mp hes
      obtain ⟨ht, hts⟩ := List.forall_mem_cons.mp h
      exact List.forall_mem_cons.mpr ⟨Entry.told_word he ht, ih hes (Nat.succ.inj hlength) hts⟩

/-- **Replay is faithful.** A process records what it reports to any calls that ask for the time,
into an empty file. The file passes the checks of the initialization, so it is mapped, and a process
that replays it from the start reports the same to the same calls, whatever its clocks show. -/
theorem replay_is_faithful (hne : es ≠ []) (hes : ∀ e ∈ es, e.AsksTime mono) (hw : Recording mono w)
    (hempty : w.saved = []) (hrun : (es.mapM (Entry.prog B)).run seq w = .ok (rs, w'))
    (hword : ∀ r ∈ rs, r.Word) (hsize : w'.saved.length < 2 ^ 63) :
    ∃ recs, loadChecks w'.saved = .ok recs ∧
      (∀ (v : World) path, v.os v.now (.getenv .faketimeLoadFile) = some (some path) →
        v.os (v.now + 1) (.mapLoad path) = some (some w'.saved) → loadFile.Runs seq v fun _ v' =>
          v'.proc = { v.proc with stss := recs, infileSet := true } ∧ v'.shm = v.shm) ∧
      ∀ v, Replays B' mono recs 0 v → v.mutexHeld = false →
        (es.mapM (Entry.prog B')).Runs seq v fun rs' _ => rs' = rs := by
  obtain ⟨ts, hlength, rfl, hnormal, hsaved⟩ := ends_recording hes hw rs w' hrun
  rw [hempty, List.nil_append] at hsaved
  have hts : ts ≠ [] := by
    rintro rfl
    exact hne (List.length_eq_zero_iff.mp hlength.symm)
  have hchecks : loadChecks w'.saved = .ok (ts.map savedTimestamp) := by
    rw [hsaved]
    exact loadChecks_recordBytes hts hnormal
  have hback : (ts.map savedTimestamp).map timespecFromSaved = ts := by
    have hrange := inRange_of_word hes hlength hword
    rw [List.map_map]
    refine (List.map_congr_left fun t ht => ?_).trans (List.map_id ts)
    exact timespecFromSaved_savedTimestamp (hnormal t ht) (hrange t ht)
  refine ⟨_, hchecks, fun v path henv hmap => ?_, fun v hv hmutex => ?_⟩
  · refine (runs_loadFile henv hmap hchecks).mono ?_
    rintro _ _ rfl
    exact ⟨rfl, rfl⟩
  · rw [hsaved, length_recordBytes] at hsize
    have hsmall : (ts.map savedTimestamp).length < 2 ^ 64 := by
      rw [List.length_map]
      unfold savedTimestampSize at hsize
      omega
    have hreplay := runs_replay hes hv hmutex (by rw [List.length_map]; omega) hsmall
    rw [List.drop_zero, hback] at hreplay
    exact hreplay

/-- The environment of `FAKETIME=x2`. -/
def twiceEnv : EnvVar → Option CStr
  | .faketime => some "x2".toList
  | _ => none

/-- This setting is accepted, whatever the clocks show. -/
theorem configAccepted_twice {v : World} (henv : ∀ n x, v.os n (.getenv x) = some (twiceEnv x))
    (hclock : ∀ n, ∃ t, v.os n (.realClockGettime .realtime) = some (some t))
    (hfile : v.proc.parseConfigFile = false) : ConfigAccepted plainBuild v := by
  intro v₁ hos _ _ hlasting
  have hscanned : scanned "x2".toList = some (.rate 2) :=
    (scanned_of_x rfl).mpr ⟨2, rfl, parseFiniteDouble_iff.mp (by decide +kernel), by norm_num⟩
  have henv₁ : ∀ {v' : World}, v'.os = v₁.os →
      ∀ x, v'.os v'.now (.getenv x) = some (twiceEnv x) := by
    intro v' hv' x
    rw [hv', hos]
    exact henv _ x
  have hparse : ∀ v' : World, v'.os = v₁.os →
      (parseFtString plainBuild "x2".toList).Runs seq v' fun _ v'' => v''.os = v₁.os := by
    intro v' hv'
    refine runs_load ?_
    split
    · exact runs_pure hv'
    · refine (runs_assign (henv₁ hv' .faketimeXreset) hscanned).bind fun _ v'' h => ?_
      exact ⟨(), _, rfl, h.1.os.trans hv'⟩
  have hmono : ∀ v' : World, v'.os = v₁.os →
      getFakeMonotonicSetting.Runs seq v' fun _ _ => True := by
    intro v' hv'
    have htick : v'.tick.os = v₁.os := hv'
    exact runs_getenv (henv₁ hv' _) (runs_getenv (henv₁ htick _) (runs_pure trivial))
  have hnofile : ∀ now, (Proc.expireCache now v₁.proc).parseConfigFile = false := by
    intro now
    have hkept := (setsSetting_expireCache now).field_eq Proc.parseConfigFile v₁.proc
    have hlast : v₁.proc.lasting.parseConfigFile = v.proc.lasting.parseConfigFile := by
      rw [hlasting]
    exact hkept.trans (hlast.trans hfile)
  have hrefresh : (refreshConfig plainBuild).Runs seq v₁ fun _ _ => True := by
    obtain ⟨t, ht⟩ := hclock v₁.now
    refine runs_realClockGettime (by rw [hos]; exact ht) (runs_store (runs_load ?_))
    split
    · refine runs_getenv (henv₁ (by rfl) .faketime) (runs_store (runs_load ?_))
      refine Eq.mpr (congrArg (Runs seq · _ _) (if_neg (Bool.eq_false_iff.mp (hnofile _)))) ?_
      refine Runs.bind (Q := fun _ v' => v'.os = v₁.os) ?_ fun _ v' hv' => hmono v' hv'
      exact hparse _ rfl
    · exact runs_pure trivial
  obtain ⟨_, v₂, hr, -⟩ := hrefresh
  exact ⟨v₂, hr⟩

/-- Two processes of that setting, one with a save file and one with a load file. -/
def recorder : World :=
  calmWorld twiceEnv (fun n _ => ⟨60 + n, 0⟩) ⟨0, 0⟩
    { doubleSpeed with userFakedTimeSaved := "x2".toList, outfileOpen := true }

def replayer (recs : List SavedTimestamp) : World :=
  calmWorld twiceEnv (fun _ _ => ⟨5, 7⟩) ⟨0, 0⟩
    { doubleSpeed with userFakedTimeSaved := "x2".toList, stss := recs, infileSet := true }

/-- Three calls are recorded, at any time, and replayed at another one. -/
theorem replay_is_faithful_twice : ∃ rs w' recs,
    ([.clockGettime .monotonic, .gettimeofday, .time].mapM (Entry.prog plainBuild)).run seq
      recorder = .ok (rs, w') ∧ rs.length = 3 ∧ loadChecks w'.saved = .ok recs ∧
      ([.clockGettime .monotonic, .gettimeofday, .time].mapM (Entry.prog plainBuild)).Runs seq
        (replayer recs) fun rs' _ => rs' = rs := by
  have hmonotonic : ∀ {v : World}, v.proc.fakeMonotonicClock = true →
      (∀ n x, v.os n (.getenv x) = some (twiceEnv x)) → v.FakesMonotonic := by
    intro v hfaked henv
    refine ⟨hfaked, ?_⟩
    rintro n x (rfl | rfl) <;> rw [henv] <;> exact nofun
  have hrecorder : Recording true recorder :=
    { faking := rfl
      mode := nofun
      noLimits := rfl
      noReplay := rfl
      saves := rfl
      semFree := rfl
      clocks := ⟨fun _ _ => ⟨_, rfl⟩, fun _ => ⟨_, rfl⟩⟩
      monotonic := fun _ => hmonotonic rfl fun _ _ => rfl
      writes := fun _ _ => ⟨_, rfl, le_rfl, List.length_pos_iff.mpr⟩ }
  -- the clocks of the recorder go on while it is asked, and each reply is another one
  have hvalues : (([.clockGettime .monotonic, .gettimeofday, .time].mapM
    (Entry.prog plainBuild)).run seq
      recorder).toOption.map (fun r => (r.1, r.2.saved.length)) =
        some ([.gettime .monotonic 0 (some ⟨120, 0⟩), .timeofday 0 (some ⟨136, 0⟩), .seconds 146],
          48) := by
    decide +kernel
  cases hrun : ([.clockGettime .monotonic, .gettimeofday, .time].mapM
      (Entry.prog plainBuild)).run seq
      recorder with
  | error e =>
    rw [hrun] at hvalues
    cases hvalues
  | ok r =>
  obtain ⟨rs, w'⟩ := r
  rw [hrun] at hvalues
  obtain ⟨hrs, hsaved⟩ := Prod.mk.inj (Option.some.inj hvalues)
  dsimp only at hrs hsaved
  have hword : ∀ r ∈ rs, r.Word := by
    rw [hrs]
    simp [Reply.Word, Timespec.InRange, ftTimeMin, ftTimeMax]
  obtain ⟨recs, hchecks, -, hreplay⟩ := replay_is_faithful (by simp)
    (by simp [Entry.AsksTime, ClockId.IsCpu]) hrecorder rfl hrun hword (by rw [hsaved]; decide)
  refine ⟨rs, w', recs, rfl, by rw [hrs]; rfl, hchecks, hreplay _ ?_ rfl⟩
  exact
    { faking := rfl
      noLimits := rfl
      shared := rfl
      replay := rfl
      file := rfl
      position := rfl
      semFree := rfl
      lock := fun _ => rfl
      unlock := fun _ => rfl
      tries := Nat.one_pos
      clocks := ⟨fun _ _ => ⟨_, rfl⟩, fun _ => ⟨_, rfl⟩⟩
      monotonic := fun _ => hmonotonic rfl fun _ _ => rfl
      accepted := configAccepted_twice (fun _ _ => rfl) (fun _ => ⟨_, rfl⟩) rfl }

end Faithful

end LibFaketime
