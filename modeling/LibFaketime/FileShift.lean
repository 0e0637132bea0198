import LibFaketime.Dates
import LibFaketime.FileTimes
import LibFaketime.RefreshCalls

/-!
# File times under a start time

Setting the times of a file takes `user_offset` off, and asking for them adds the base and takes
the start time off. Under an offset text the two are the same. A text that begins with `@` or `%`
sets the base, and mostly the start time, but not `user_offset` (`LibFaketime.userOffset_of_parse`):
it has the value it had before, from an offset that was in force once, or the one it was initialized
with, which is no time at all.

So the times come back only if that happens to be the right value, at each of the conversions
(`LibFaketime.start_at_file_times_iff`). The base and the start time are those in force when a time
is converted. A followed file is looked at again whenever the configuration is refreshed, and then
both may be others for the next conversion (`LibFaketime.Moved`).
-/

namespace LibFaketime

open Effects Effects.Prog Saturate

/-! ### The parser -/

/-- The assignments that leave `user_offset` alone, and every other call. -/
def Op.KeepsOffset : Op → Prop
  | .store f => ∀ s, (f s).userOffset = s.userOffset
  | _ => True

section Parse

variable {B : Build} {β : Type} {s : CStr}

theorem keepsOffset_store {f : Proc → Proc} (h : ∀ s, (f s).userOffset = s.userOffset) :
    (store f).Uses Op.KeepsOffset := uses_perform h

theorem keepsOffset_exit {code : ℤ} {msg : String} :
    (exit code msg : Sys β).Uses Op.KeepsOffset := ⟨trivial, nofun⟩

theorem keepsOffset_readClock (c : ClockId) (set : Timespec → SystemTime → SystemTime) :
    (readClock c set).Uses Op.KeepsOffset := by
  refine uses_perform_bind trivial fun r => ?_
  cases r with
  | none => exact uses_pure _
  | some t => exact keepsOffset_store fun _ => rfl

theorem keepsOffset_publishStarttime : publishStarttime.Uses Op.KeepsOffset :=
  uses_perform_bind trivial fun _ =>
    ⟨trivial, fun _ => ⟨trivial, fun _ => ⟨trivial, fun _ => ⟨trivial, fun _ => ⟨trivial, fun _ =>
      ⟨trivial, fun _ => ⟨trivial, fun _ => ⟨trivial, fun _ => trivial⟩⟩⟩⟩⟩⟩⟩⟩

theorem keepsOffset_resetTime : resetTime.Uses Op.KeepsOffset := by
  refine Uses.bind ?_ fun _ => uses_perform_bind trivial fun s => ?_
  · exact (keepsOffset_readClock _ _).bind fun _ => (keepsOffset_readClock _ _).bind fun _ =>
      (keepsOffset_readClock _ _).bind fun _ => keepsOffset_readClock _ _
  · split
    · refine uses_perform_bind trivial fun r => ?_
      cases r with
      | acquired =>
        refine keepsOffset_publishStarttime.bind fun _ => uses_perform_bind trivial fun b => ?_
        split
        · exact uses_pure _
        · exact keepsOffset_exit
      | interrupted => exact keepsOffset_exit
      | failed => exact keepsOffset_exit
    · exact uses_pure _

theorem keepsOffset_xreset : xreset.Uses Op.KeepsOffset := by
  refine uses_perform_bind trivial fun e => ?_
  split
  · refine uses_perform_bind trivial fun s => ?_
    split
    · exact keepsOffset_store fun _ => rfl
    · exact uses_pure _
  · exact uses_pure _

/-- All pieces of a refresh, apart from the one that is for offsets. -/
theorem covers_keepsOffset : RefreshCovers fun p => p.Uses Op.KeepsOffset where
  ret _ := uses_pure _
  seq := Uses.bind
  call o ho := uses_perform (by cases o <;> first | exact ho.elim | trivial)
  set _ hf := keepsOffset_store fun p => hf.field_eq Proc.userOffset p
  reset := keepsOffset_resetTime
  xreset := keepsOffset_xreset

/-- **The two texts leave `user_offset` as it is.** -/
theorem keepsOffset_parseFtString (hhead : s.head? = some '@' ∨ s.head? = some '%') :
    (parseFtString B s).Uses Op.KeepsOffset := by
  refine covers_keepsOffset.parseFtString ?_
  rcases hhead with h | h
  · rw [parseByPrefix, h]
    exact (covers_keepsOffset.parseStartAt _).bind fun _ => covers_keepsOffset.parseModifiers _
  · rw [parseByPrefix, h]
    exact covers_keepsOffset.parseFollow _

theorem userOffset_of_parse {w : World} (hhead : s.head? = some '@' ∨ s.head? = some '%') :
    (parseFtString B s).Ends seq w fun _ w' => w'.proc.userOffset = w.proc.userOffset := by
  have huses := (refreshing_parseFtString (B := B) (trivial : True) s).and
    (keepsOffset_parseFtString hhead)
  exact proc_of_run (J := fun p => p.userOffset = w.proc.userOffset) huses
    (fun _ ho => ho.1.1.1.1) (fun _ hf p hp => (hf.2 p).trans hp) rfl

end Parse

/-! ### Conversions -/

/-- The settings without the base and the start times. -/
def Proc.unanchored (s : Proc) : Proc :=
  { s.settings with userFakedTimeTimespec := ⟨0, 0⟩, ftplStarttime := .unset }

/-- Two worlds of one process on one system with the same settings and locks, but for the base and
the start times. -/
structure Moved (w w' : World) : Prop where
  os : w'.os = w.os
  file : w'.file = w.file
  dontFake : w'.dontFake = w.dontFake
  semHeld : w'.semHeld = w.semHeld
  mutexHeld : w'.mutexHeld = w.mutexHeld
  rest : w'.proc.unanchored = w.proc.unanchored

section Moved

variable {w w₁ w₂ : World}

theorem Like.moved (h : Like w w₁) : Moved w w₁ where
  os := h.os
  file := h.file
  dontFake := h.dontFake
  semHeld := h.semHeld
  mutexHeld := h.mutexHeld
  rest := by rw [Proc.unanchored, Proc.unanchored, h.settings]

theorem Moved.trans (h : Moved w w₁) (h' : Moved w₁ w₂) : Moved w w₂ :=
  ⟨h'.os.trans h.os, h'.file.trans h.file, h'.dontFake.trans h.dontFake,
    h'.semHeld.trans h.semHeld, h'.mutexHeld.trans h.mutexHeld, h'.rest.trans h.rest⟩

theorem Moved.field {β : Type} (h : Moved w w₁) (f : Proc → β)
    (hf : ∀ s, f s.unanchored = f s := by intro _; rfl) : f w₁.proc = f w.proc := by
  rw [← hf, h.rest, hf]

/-- What is missing are the base and the start times. -/
theorem Proc.core_of_unanchored {s s' : Proc} (h : s'.unanchored = s.unanchored) :
    s'.core = ({ s with
      userFakedTimeTimespec := s'.userFakedTimeTimespec
      ftplStarttime := s'.ftplStarttime } : Proc).core :=
  congrArg (fun p : Proc => { p with
    userFakedTimeTimespec := s'.userFakedTimeTimespec
    ftplStarttime := s'.ftplStarttime
    userPerTickIncSetBackup := false }) h

end Moved

/-- **A refresh moves the base and the start times at most**, whenever it takes place. -/
def AnchorFree (B : Build) (w : World) : Prop :=
  ∀ w₁, w₁.os = w.os → w₁.file = w.file → w₁.semHeld = w.semHeld →
    w₁.proc.unanchored = w.proc.unanchored → w₁.proc.TimesStored →
      ∃ w₂, (refreshConfig B).run seq w₁ = .ok ((), w₂) ∧ Moved w₁ w₂ ∧ w₂.proc.TimesStored

/-- **A process that converts times** by a start-at clock without modifiers, limits and replay, and
is able to save what it reports. A refresh may set the clock. -/
structure Converts (B : Build) (w : World) : Prop where
  faking : w.dontFake = false
  calm : Calm w
  tries : 0 < B.retries
  startAt : w.proc.ftMode = .startAt
  noTick : w.proc.userPerTickIncSet = false
  noRate : w.proc.userRateSet = false
  noLimits : w.proc.limitedFaking = false
  noReplay : w.proc.infileSet = false
  mutexFree : w.mutexHeld = false
  saves : w.semHeld = true → (w.proc.sharedSemInitialized && w.proc.outfileOpen) = false
  times : w.proc.TimesStored
  free : AnchorFree B w

section Conversions

variable {B : Build} {w w₁ : World} {t : Timespec}

theorem Converts.moved (hs : Converts B w) (h : Moved w w₁) (ht : w₁.proc.TimesStored) :
    Converts B w₁ where
  faking := h.dontFake.trans hs.faking
  calm := ⟨by rw [h.os]; exact hs.calm.clock, by rw [h.os]; exact hs.calm.lock,
    by rw [h.os]; exact hs.calm.unlock, by rw [h.os]; exact hs.calm.write⟩
  tries := hs.tries
  startAt := (h.field Proc.ftMode).trans hs.startAt
  noTick := (h.field Proc.userPerTickIncSet).trans hs.noTick
  noRate := (h.field Proc.userRateSet).trans hs.noRate
  noLimits := (h.field Proc.limitedFaking).trans hs.noLimits
  noReplay := (h.field Proc.infileSet).trans hs.noReplay
  mutexFree := h.mutexHeld.trans hs.mutexFree
  saves := by
    rw [h.semHeld, h.field Proc.sharedSemInitialized, h.field Proc.outfileOpen]
    exact hs.saves
  times := ht
  free := fun v hos hfile hsem hrest => hs.free v (hos.trans h.os) (hfile.trans h.file)
    (hsem.trans h.semHeld) (hrest.trans h.rest)

/-- The locked part of a query: the clock is the one after the refresh. -/
theorem Converts.runs_fakeLocked (hs : Converts B w) (b : Bool) :
    (fakeLocked B .realtime t).Runs seq { w with mutexHeld := b } fun o w' =>
      o = .faked (w'.proc.startAt .realtime t) ∧ Moved { w with mutexHeld := b } w' ∧
        w'.proc.TimesStored := by
  refine (runs_limitsAndSpawn (w := { w with mutexHeld := b }) hs.noLimits).bind ?_
  rintro _ w₁ ⟨rfl, hcounted⟩
  obtain ⟨h₁, -⟩ := hcounted.like
  obtain ⟨w₂, hr, h₂, ht⟩ := hs.free w₁ h₁.os h₁.file h₁.semHeld h₁.moved.rest
    (hs.times.of_core h₁.core)
  have h := h₁.moved.trans h₂
  refine Runs.bind (Q := fun _ w' => w' = w₂) ⟨(), w₂, hr, rfl⟩ ?_
  rintro - w₂ rfl
  refine runs_load ?_
  rw [h.field Proc.infileSet, show w.proc.infileSet = false from hs.noReplay, if_neg (by simp)]
  refine runs_load ?_
  rw [h.field Proc.ftMode, show w.proc.ftMode = .startAt from hs.startAt]
  dsimp only
  rw [h.field Proc.userPerTickIncSet, show w.proc.userPerTickIncSet = false from hs.noTick,
    if_neg (by simp)]
  exact runs_pure ⟨rfl, h, ht⟩

/-- **A conversion** shows what the clock shows when it is over. -/
theorem Converts.runs_fakeTimestamp (hs : Converts B w) (hn : t.Normal) :
    (fakeTimestamp B t).Runs seq w fun r w' =>
      r = w'.proc.fakeTime .realtime t ∧ Moved w w' ∧ w'.proc.TimesStored := by
  obtain ⟨_, w₁, hlocked, rfl, h₁, ht₁⟩ := hs.runs_fakeLocked (t := t) B.pthreadSinglethreadedTime
  have hmoved : Moved w { w₁ with mutexHeld := false } :=
    ⟨h₁.os, h₁.file, h₁.dontFake, h₁.semHeld, hs.mutexFree.symm, h₁.rest⟩
  have hs₁ := hs.moved hmoved ht₁
  have hquery : (fakeClockGettime B .realtime t).Runs seq w fun r w' =>
      r = (Outcome.faked (w₁.proc.startAt .realtime t)).result ∧
        ∃ v, v = { w₁ with mutexHeld := false } ∧ Like v w' :=
    runs_fakeClockGettime_of_locked hs.faking (by decide) hs.mutexFree hs.tries
      (by rintro _ rfl; exact ⟨hs₁.calm, rfl, hs₁.saves⟩)
      ⟨_, _, hlocked, rfl, _, rfl, rfl, rfl, rfl, rfl, h₁.mutexHeld, rfl⟩
  refine hquery.bind ?_
  rintro _ w₂ ⟨rfl, _, rfl, h₂⟩
  refine runs_pure ⟨?_, hmoved.trans h₂.moved, ht₁.of_core h₂.core⟩
  rw [h₂.field fun s => s.fakeTime .realtime t]
  exact normalizeTimespecValue_of_normal (ht₁.normal_startAt hn)

/-- The worlds in which `stat` has converted the change time, the access time and the modification
time of a file. -/
def World.conversions (B : Build) (w : World) (buf : Stat) : World × World × World :=
  let c := (fakeTimestamp B buf.stCtim).last seq ((lockForStat B.retries).last seq w)
  let a := (fakeTimestamp B buf.stAtim).last seq c
  (c, a, (fakeTimestamp B buf.stMtim).last seq a)

/-- The lock of `stat` can be released. -/
theorem runs_unlockForStat_calm (hw : Calm w) :
    unlockForStat.Runs seq w fun _ _ => True := by
  refine runs_store (runs_load ?_)
  split
  · exact runs_ftSemUnlock (hw.unlock _) (runs_pure trivial)
  · exact runs_pure trivial

/-- **`stat` converts the three times** one after the other, each by the clock it finds. -/
theorem Converts.runs_fakeStatbuf {buf : Stat} (hs : Converts B w.forStat)
    (hfree : w.semHeld = false) (hbuf : buf.Normal) :
    ∃ vc va vm, w.conversions B buf = (vc, va, vm) ∧
      (∀ u ∈ [vc, va, vm], Moved w.forStat u ∧ u.proc.TimesStored) ∧
      (fakeStatbuf B buf).Runs seq w fun r _ => r = ⟨vc.proc.fakeTime .realtime buf.stCtim,
        va.proc.fakeTime .realtime buf.stAtim, vm.proc.fakeTime .realtime buf.stMtim⟩ := by
  have hcalm : Calm w := ⟨hs.calm.clock, hs.calm.lock, hs.calm.unlock, hs.calm.write⟩
  obtain ⟨_, v₀, hlock, h₀⟩ := runs_lockForStat hs.tries hcalm hfree
  have hs₀ := hs.moved h₀.moved (hs.times.of_core h₀.core)
  obtain ⟨_, v₁, hrun₁, rfl, h₁, ht₁⟩ := hs₀.runs_fakeTimestamp hbuf.ctim
  have hs₁ := hs₀.moved h₁ ht₁
  obtain ⟨_, v₂, hrun₂, rfl, h₂, ht₂⟩ := hs₁.runs_fakeTimestamp hbuf.atim
  have hs₂ := hs₁.moved h₂ ht₂
  obtain ⟨_, v₃, hrun₃, rfl, h₃, ht₃⟩ := hs₂.runs_fakeTimestamp hbuf.mtim
  have hconversions : w.conversions B buf = (v₁, v₂, v₃) := by
    rw [World.conversions, last_of_run hlock, last_of_run hrun₁, last_of_run hrun₂,
      last_of_run hrun₃]
  have hm₁ := h₀.moved.trans h₁
  have hm₂ := hm₁.trans h₂
  refine ⟨v₁, v₂, v₃, hconversions, fun u hu => ?_, ?_⟩
  · simp only [List.mem_cons, List.not_mem_nil, or_false] at hu
    rcases hu with rfl | rfl | rfl
    · exact ⟨hm₁, ht₁⟩
    · exact ⟨hm₂, ht₂⟩
    · exact ⟨hm₂.trans h₃, ht₃⟩
  · refine Runs.bind (Q := fun _ v => v = v₀) ⟨_, _, hlock, rfl⟩ ?_
    rintro _ _ rfl
    refine Runs.bind (Q := fun r v => r = _ ∧ v = v₁) ⟨_, _, hrun₁, rfl, rfl⟩ ?_
    rintro _ _ ⟨rfl, rfl⟩
    refine Runs.bind (Q := fun r v => r = _ ∧ v = v₂) ⟨_, _, hrun₂, rfl, rfl⟩ ?_
    rintro _ _ ⟨rfl, rfl⟩
    refine Runs.bind (Q := fun r v => r = _ ∧ v = v₃) ⟨_, _, hrun₃, rfl, rfl⟩ ?_
    rintro _ _ ⟨rfl, rfl⟩
    exact (runs_unlockForStat_calm (hs₂.moved h₃ ht₃).calm).bind fun _ _ _ => runs_pure rfl

end Conversions

/-! ### The shift -/

/-- **Nothing overflows** on the way of the real time of `x` nanoseconds through the clock. -/
structure Proc.CarriesTime (s : Proc) (x : ℤ) : Prop where
  time : Fits x
  elapsed : Fits (x - s.ftplStarttime.real.ns)
  sum : Fits (s.userFakedTimeTimespec.ns + (x - s.ftplStarttime.real.ns))

section Shift

variable {s : Proc} {T d : Timespec}

/-- **A time that was shifted by `d` is shown as it was** if and only if the clock is ahead by the
same. -/
theorem Proc.TimesStored.fakeTime_timespecsub_iff (hs : s.TimesStored)
    (hrate : s.userRateSet = false) (hT : T.Normal) (hd : d.Stored)
    (hc : s.CarriesTime (T.ns - d.ns)) :
    s.fakeTime .realtime (timespecsub T d) = T ↔
      d.ns = s.userFakedTimeTimespec.ns - s.ftplStarttime.real.ns := by
  have hx : (timespecsub T d).Normal := normal_timespecsub hT.stored hd
  have hns : (timespecsub T d).ns = T.ns - d.ns := by
    rw [ns_timespecsub hT.stored hd, hc.time.satNs]
  have hshown : (s.fakeTime .realtime (timespecsub T d)).ns =
      s.userFakedTimeTimespec.ns + (T.ns - d.ns - s.ftplStarttime.real.ns) := by
    rw [hs.ns_fakeTime hx, if_neg (by decide), hns,
      show s.ftplStarttime.of .realtime = s.ftplStarttime.real from rfl, hc.elapsed.satNs]
    unfold Proc.scaled
    rw [hrate, if_neg (by simp), hc.sum.satNs]
  constructor
  · intro h
    rw [h] at hshown
    omega
  · intro h
    refine Timespec.ext_ns (hs.normal_fakeTime hx) hT ?_
    rw [hshown]
    omega

end Shift

/-! ### The round trip -/

/-- **A process that fakes the times of files by the text `s`**, which begins with `@` or `%` and
has no modifiers. It was applied in the state `w₀`, and nothing has set `user_offset` since. -/
structure StartAtServed (B : Build) (s : CStr) (w₀ w : World) : Prop where
  head : s.head? = some '@' ∨ s.head? = some '%'
  noRate : strchr s 'x' = none
  noTick : strchr s 'i' = none
  applied : ∃ w₁, (parseFtString B s).run seq w₀ = .ok ((), w₁) ∧
    w.proc.userOffset = w₁.proc.userOffset
  converts : Converts B w.forStat
  statFaking : w.proc.fakeStatDisabled = false
  semFree : w.semHeld = false

section RoundTrip

variable {B : Build} {w₀ w v : World} {s : CStr} {buf : Stat} {now a m : Timespec}

/-- What is taken off is what `user_offset` was before. -/
theorem StartAtServed.userOffset (h : StartAtServed B s w₀ w) :
    w.proc.userOffset = w₀.proc.userOffset := by
  obtain ⟨w₁, hrun, hoffset⟩ := h.applied
  exact hoffset.trans (userOffset_of_parse h.head _ _ hrun)

theorem StartAtServed.reports {r : Stat} (h : StartAtServed B s w₀ w)
    (hr : (fakeStatbuf B buf).Runs seq w fun r' _ => r' = r) : StatReports B w buf r := by
  refine runs_load ?_
  rw [h.statFaking, if_neg (by simp)]
  refine runs_dontFake ?_
  rw [show w.dontFake = false from h.converts.faking, if_neg (by simp)]
  exact hr

/-- **The times of files under a start time.** `utimensat` or `futimens` is called in the state `w`,
and `stat` in the state `v`. They report the times that were requested, and have not taken off the
initial value of `user_offset`, if and only if `user_offset` had a value before the text was
applied, and this is what the clock is ahead by whenever `stat` converts one of the two times. -/
theorem start_at_file_times_iff (hw : StartAtServed B s w₀ w) (hv : StartAtServed B s w₀ v)
    (hstored : w₀.proc.userOffset.Stored) (buf : Stat) (hnow : now.Normal) (ha : a.Normal)
    (hm : m.Normal) :
    ∀ set ∈ [utimensat, futimens], ∃ tn buf',
      (set B false (some (a, m))).Runs seq w (fun req _ => req = some tn) ∧
      buf.realUtimensat now tn = some buf' ∧
      ((v.conversions B buf').2.1.proc.CarriesTime (a.ns - w₀.proc.userOffset.ns) →
        (v.conversions B buf').2.2.proc.CarriesTime (m.ns - w₀.proc.userOffset.ns) →
        ∃ after, StatReports B v buf' after ∧
          ((after.stAtim = a ∧ after.stMtim = m ∧ w.proc.userOffset ≠ .unset) ↔
            w₀.proc.userOffset ≠ .unset ∧
            ∀ u ∈ [(v.conversions B buf').2.1, (v.conversions B buf').2.2],
              w₀.proc.userOffset.ns =
                u.proc.userFakedTimeTimespec.ns - u.proc.ftplStarttime.real.ns)) := by
  intro set hset
  have hset : set = fakeTwoTimespec := by
    rcases List.mem_pair.mp hset with rfl | rfl <;> rfl
  subst hset
  have hhanded : ∀ {T : Timespec}, T.Normal →
      w.proc.handed T = timespecsub T w₀.proc.userOffset := by
    intro T hT
    obtain ⟨hnotNow, hnotOmit⟩ := not_special_of_normal hT
    rw [Proc.handed, if_neg (not_or.mpr ⟨hnotOmit, hnotNow⟩), hw.userOffset]
  have hna := normal_timespecsub ha.stored hstored
  have hnm := normal_timespecsub hm.stored hstored
  refine ⟨(timespecsub a w₀.proc.userOffset, timespecsub m w₀.proc.userOffset),
    ⟨now, timespecsub a w₀.proc.userOffset, timespecsub m w₀.proc.userOffset⟩, ?_, ?_, ?_⟩
  · refine (runs_fakeTwoTimespec (some (a, m))).mono ?_
    rintro _ _ ⟨rfl, -⟩
    rw [← hhanded ha, ← hhanded hm]
    rfl
  · have hnot := (not_special_of_normal hna).2
    rw [Stat.realUtimensat, if_pos ⟨Or.inr (Or.inr hna), Or.inr (Or.inr hnm)⟩,
      requested_of_normal hna, requested_of_normal hnm, if_neg fun h => hnot h.1]
  · have hbuf : (⟨now, timespecsub a w₀.proc.userOffset, timespecsub m w₀.proc.userOffset⟩ :
        Stat).Normal := ⟨hnow, hna, hnm⟩
    obtain ⟨vc, va, vm, hconversions, hstates, hruns⟩ :=
      hv.converts.runs_fakeStatbuf hv.semFree hbuf
    rw [hconversions]
    intro hca hcm
    refine ⟨_, hv.reports hruns, ?_⟩
    -- each of the two times comes back under its own clock
    have hback : ∀ {u T}, u ∈ [vc, va, vm] → T.Normal →
        u.proc.CarriesTime (T.ns - w₀.proc.userOffset.ns) →
        (u.proc.fakeTime .realtime (timespecsub T w₀.proc.userOffset) = T ↔
          w₀.proc.userOffset.ns =
            u.proc.userFakedTimeTimespec.ns - u.proc.ftplStarttime.real.ns) := by
      intro u T hu hT hc
      obtain ⟨hmoved, htimes⟩ := hstates u hu
      exact htimes.fakeTime_timespecsub_iff
        ((hmoved.field Proc.userRateSet).trans hv.converts.noRate) hT hstored hc
    rw [hw.userOffset, hback (by simp) ha hca, hback (by simp) hm hcm]
    simp only [List.forall_mem_cons, List.not_mem_nil, false_implies, implies_true, and_true]
    exact ⟨fun h => ⟨h.2.2, h.1, h.2.1⟩, fun h => ⟨h.2.1, h.2.2, h.1⟩⟩

end RoundTrip

/-! ### Two processes -/

/-- The text of a date on which the clock starts. -/
def dateText : CStr := "@1970-01-01 00:01:40".toList

/-- A process that was started at `⟨1000, 0⟩`, and has not applied a text, or one with an offset. -/
def beforeDate (offset : Timespec) (saved : CStr) : World :=
  calmWorld startAtEnv (fun _ _ => ⟨1000, 0⟩) ⟨0, 0⟩
    { Proc.initial with
      ftplStarttime := ⟨⟨1000, 0⟩, ⟨1000, 0⟩, ⟨1000, 0⟩, ⟨1000, 0⟩⟩
      userOffset := offset
      userFakedTimeFmt := "%Y-%m-%d %T".toList
      userFakedTimeSaved := saved
      parseConfigFile := false }

/-- The process when it has applied the date. -/
def afterDate (offset : Timespec) : World :=
  calmWorld startAtEnv (fun _ _ => ⟨1000, 0⟩) ⟨0, 0⟩
    { Proc.initial with
      ftMode := .startAt
      ftplStarttime := ⟨⟨1000, 0⟩, ⟨1000, 0⟩, ⟨1000, 0⟩, ⟨1000, 0⟩⟩
      userOffset := offset
      userFakedTimeFmt := "%Y-%m-%d %T".toList
      userFakedTimeTimespec := ⟨100, 0⟩
      userFakedTimeSaved := dateText
      lastDataFetch := 1000
      parseConfigFile := false }

theorem unchanged_dateText : unchangedSetting (dateText.take (bufferlen - 1)) dateText = true := by
  decide +kernel

/-- The date is accepted. -/
theorem runs_parse_dateText (offset : Timespec) {saved : CStr}
    (hnew : unchangedSetting dateText saved = false) :
    (parseFtString epochBuild dateText).Runs seq (beforeDate offset saved) fun _ _ => True := by
  have hdate : parsedDate epochBuild "%Y-%m-%d %T".toList ['@'] dateText.tail =
      some ⟨100, 0⟩ := rfl
  have hmodifiers : parseModifiers dateText = pure () := rfl
  refine runs_load ?_
  rw [show unchangedSetting dateText (beforeDate offset saved).proc.userFakedTimeSaved = false from
    hnew, if_neg (by simp), parseByPrefix, show dateText.head? = some '@' from rfl]
  have hstart := runs_parseStartAt (w := beforeDate offset saved) (obliging_calmWorld _ _ _ _) hdate
  have hprefix : (parseStartAt epochBuild dateText >>= fun _ => parseModifiers dateText).Runs seq
      (beforeDate offset saved) fun _ _ => True := by
    rw [hmodifiers]
    exact hstart.bind fun _ _ _ => runs_pure trivial
  exact hprefix.bind fun _ _ _ => ⟨_, _, rfl, trivial⟩

theorem startAtServed_afterDate {offset : Timespec} {saved : CStr}
    (hnew : unchangedSetting dateText saved = false) :
    StartAtServed epochBuild dateText (beforeDate offset saved) (afterDate offset) where
  head := Or.inl rfl
  noRate := by decide
  noTick := by decide
  applied := by
    obtain ⟨_, w₁, hrun, -⟩ := runs_parse_dateText offset hnew
    exact ⟨w₁, hrun, (userOffset_of_parse (Or.inl rfl) _ _ hrun).symm⟩
  converts :=
    { faking := rfl
      calm := ⟨fun _ => ⟨_, rfl⟩, fun _ => rfl, fun _ => rfl, fun _ _ => ⟨_, rfl⟩⟩
      tries := Nat.one_pos
      startAt := rfl
      noTick := rfl
      noRate := rfl
      noLimits := rfl
      noReplay := rfl
      mutexFree := rfl
      saves := nofun
      times := by
        have hstart : (⟨1000, 0⟩ : Timespec).Stored := by decide
        have hbase : (⟨100, 0⟩ : Timespec).Stored := by decide
        refine ⟨hbase, fun c => ?_⟩
        cases c <;> exact hstart
      free := fun w₁ hos _ _ hrest htimes => by
        -- the text is the one that was applied, whatever the clock is
        have hmono : MonotonicFixed { (afterDate offset).forStat with
            proc := { (afterDate offset).forStat.proc with
              userFakedTimeTimespec := w₁.proc.userFakedTimeTimespec
              ftplStarttime := w₁.proc.ftplStarttime } } none none :=
          ⟨fun _ => rfl, fun _ => rfl, nofun⟩
        obtain ⟨w₂, hrun, hlike, -⟩ := refresh_of_unchanged (B := epochBuild) (fun _ => ⟨_, rfl⟩)
          (fun _ => rfl) rfl unchanged_dateText hmono w₁ hos (Proc.core_of_unanchored hrest)
        exact ⟨w₂, hrun, hlike.moved, htimes.of_core hlike.core⟩ }
  statFaking := rfl
  semFree := rfl

/-- The clock is behind by the offset that was in force before. -/
theorem start_at_file_times_iff_behind : ∃ tn buf' after,
    (utimensat epochBuild false (some (⟨2000, 1⟩, ⟨2000, 2⟩))).Runs seq (afterDate ⟨-900, 0⟩)
      (fun req _ => req = some tn) ∧
    (⟨⟨10, 0⟩, ⟨10, 0⟩, ⟨10, 0⟩⟩ : Stat).realUtimensat ⟨1020, 0⟩ tn = some buf' ∧
    StatReports epochBuild (afterDate ⟨-900, 0⟩) buf' after ∧
      after.stAtim = ⟨2000, 1⟩ ∧ after.stMtim = ⟨2000, 2⟩ := by
  have hserved : StartAtServed epochBuild dateText (beforeDate ⟨-900, 0⟩ "-900".toList)
      (afterDate ⟨-900, 0⟩) := startAtServed_afterDate (by decide +kernel)
  have hnow : (⟨1020, 0⟩ : Timespec).Normal := by decide
  have ha : (⟨2000, 1⟩ : Timespec).Normal := by decide
  have hm : (⟨2000, 2⟩ : Timespec).Normal := by decide
  obtain ⟨tn, buf', hset, hbuf', hiff⟩ := start_at_file_times_iff hserved hserved (by decide)
    ⟨⟨10, 0⟩, ⟨10, 0⟩, ⟨10, 0⟩⟩ hnow ha hm utimensat (by simp)
  have hhanded : (utimensat epochBuild false (some (⟨2000, 1⟩, ⟨2000, 2⟩))).run seq
      (afterDate ⟨-900, 0⟩) = .ok (some (⟨2900, 1⟩, ⟨2900, 2⟩), afterDate ⟨-900, 0⟩) := rfl
  have htn := Option.some.inj ((runs_iff_of_run hhanded).mp hset)
  subst htn
  have hbuf : buf' = ⟨⟨1020, 0⟩, ⟨2900, 1⟩, ⟨2900, 2⟩⟩ := (Option.some.inj hbuf').symm
  subst hbuf
  -- nothing is refreshed in between
  have hclock : ∀ u ∈ [((afterDate ⟨-900, 0⟩).conversions epochBuild
        (⟨⟨1020, 0⟩, ⟨2900, 1⟩, ⟨2900, 2⟩⟩ : Stat)).2.1,
      ((afterDate ⟨-900, 0⟩).conversions epochBuild
        (⟨⟨1020, 0⟩, ⟨2900, 1⟩, ⟨2900, 2⟩⟩ : Stat)).2.2],
      u.proc.userFakedTimeTimespec = ⟨100, 0⟩ ∧ u.proc.ftplStarttime.real = ⟨1000, 0⟩ := by
    rw [List.forall_mem_cons, List.forall_mem_singleton]
    exact ⟨⟨rfl, rfl⟩, rfl, rfl⟩
  have hcarries : ∀ {u : World} {x : ℤ}, u.proc.userFakedTimeTimespec = ⟨100, 0⟩ ∧
      u.proc.ftplStarttime.real = ⟨1000, 0⟩ → 0 ≤ x → x ≤ 2900000000002 →
        u.proc.CarriesTime x := by
    rintro u x ⟨hbase, hstart⟩ hlow hhigh
    have hmin : nsMin ≤ -10000000000000 := by decide
    have hmax : 10000000000000 ≤ nsMax := by decide
    have hb : (⟨100, 0⟩ : Timespec).ns = 100000000000 := by decide
    have hs : (⟨1000, 0⟩ : Timespec).ns = 1000000000000 := by decide
    refine ⟨⟨by omega, by omega⟩, ?_, ?_⟩
    · rw [hstart, hs]
      exact ⟨by omega, by omega⟩
    · rw [hbase, hstart, hb, hs]
      exact ⟨by omega, by omega⟩
  obtain ⟨after, hreports, h⟩ := hiff (hcarries (hclock _ (by simp)) (by decide) (by decide))
    (hcarries (hclock _ (by simp)) (by decide) (by decide))
  obtain ⟨hatim, hmtim, -⟩ := h.mpr ⟨by decide, fun u hu => by
    obtain ⟨hbase, hstart⟩ := hclock u hu
    rw [hbase, hstart]
    decide⟩
  exact ⟨_, _, after, hset, hbuf', hreports, hatim, hmtim⟩

/-- Without such an offset the initial value of `user_offset` is taken off, and a time in the year
of the start comes back as one before it. -/
theorem start_at_file_times_lost :
    StartAtServed epochBuild dateText (beforeDate .unset []) (afterDate .unset) ∧
    (utimensat epochBuild false (some (⟨2000, 0⟩, ⟨2000, 0⟩))).Runs seq (afterDate .unset)
      fun req w' => req = some (⟨2000, 1⟩, ⟨2000, 1⟩) ∧
        (⟨⟨10, 0⟩, ⟨10, 0⟩, ⟨10, 0⟩⟩ : Stat).realUtimensat ⟨1020, 0⟩
          (⟨2000, 1⟩, ⟨2000, 1⟩) = some ⟨⟨1020, 0⟩, ⟨2000, 1⟩, ⟨2000, 1⟩⟩ ∧
        StatReports epochBuild w' ⟨⟨1020, 0⟩, ⟨2000, 1⟩, ⟨2000, 1⟩⟩
          ⟨⟨120, 0⟩, ⟨1100, 1⟩, ⟨1100, 1⟩⟩ :=
  ⟨startAtServed_afterDate (by decide +kernel), _, _, rfl, rfl, rfl, _, _, rfl, rfl⟩

end LibFaketime
