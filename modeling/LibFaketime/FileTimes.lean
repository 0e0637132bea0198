import LibFaketime.Consistent
import LibFaketime.Grammar
import LibFaketime.Utime

/-!
# File times under an offset

A program that sets the times of a file and asks for them again gets what it has set. Setting takes
the offset off, and asking puts it on again, in one of three granularities. What is lost to a
coarse one is the part of the offset below it, once when it is taken off and, the other way round,
once when the time is cut to the granularity again: the two cancel (`LibFaketime.floor_shift`).

So the faked files behave as files do whose times are faked (`LibFaketime.file_times_round_trip`).
-/

namespace LibFaketime

open Effects Effects.Prog Saturate

/-! ### Granularities -/

/-- **The truncations cancel.** The offset `d` is taken off the time `t` in whole granules, and put
on again as it is; what is left over is less than a granule. -/
theorem floor_shift {g : ℤ} (hg : 0 < g) (t d : ℤ) : (g * (t - d / g) + d) / g = t := by
  have hsplit : g * (t - d / g) + d = d % g + g * t := by
    have hd := Int.emod_add_mul_ediv d g
    linarith [mul_sub g t (d / g)]
  rw [hsplit, Int.add_mul_ediv_left _ _ hg.ne', Int.ediv_eq_zero_of_lt
    (Int.emod_nonneg d hg.ne') (Int.emod_lt_of_pos d hg), zero_add]

/-! ### The state -/

theorem normal_floorTimespec (q : ℚ) : (floorTimespec q).Normal := by
  obtain ⟨x, -, h⟩ := isFloorOf_floorTimespec q .exact
  rw [h]
  exact Timespec.normal_ofNs _

/-- **An offset without modifiers, applied**: the base is as far from the start time as the offset
says. -/
structure Proc.AddsOffset (s : Proc) : Prop where
  offset : s.userOffset.Normal
  base : s.userFakedTimeTimespec = timespecadd s.ftplStarttime.real s.userOffset
  noRate : s.userRateSet = false

section Parse

variable {B : Build} {w w₁ : World} {s : CStr}

/-- **What the parser makes of a new offset** in whose text no modifier is found. -/
theorem runs_parseFtString_offsetPart {q unit : ℚ} {M : CStr}
    (hsign : s.head? = some '+' ∨ s.head? = some '-') (hx : strchr s 'x' = none)
    (hi : strchr s 'i' = none) (hnew : unchangedSetting s w.proc.userFakedTimeSaved = false)
    (hpart : OffsetPart s q unit M) : (parseFtString B s).Runs seq w fun _ w' => w'.proc =
      { w.proc with
        ftMode := w.proc.ftMode.started
        userOffset := floorTimespec (q * unit)
        userFakedTimeTimespec :=
          timespecadd w.proc.ftplStarttime.real (floorTimespec (q * unit))
        userFakedTimeSaved := s.take (bufferlen - 1) } := by
  have hmodifiers : parseModifiers s = pure () := by
    unfold parseModifiers
    rw [hx]
    dsimp only
    rw [hi]
  refine runs_load ?_
  rw [hnew, if_neg (by simp), parseByPrefix_of_sign hsign, hmodifiers]
  have hoffset : (parseOffset s >>= fun _ => pure ()).Runs seq w fun _ w' => w'.proc =
      { w.proc with
        ftMode := w.proc.ftMode.started
        userOffset := floorTimespec (q * unit)
        userFakedTimeTimespec :=
          timespecadd w.proc.ftplStarttime.real (floorTimespec (q * unit)) } :=
    (runs_parseOffset hpart).bind fun _ _ h => runs_pure h.2
  refine hoffset.bind fun _ w' h => ⟨_, _, rfl, ?_⟩
  rw [h]

theorem addsOffset_of_parse (hsign : s.head? = some '+' ∨ s.head? = some '-')
    (hx : strchr s 'x' = none) (hi : strchr s 'i' = none)
    (hnew : unchangedSetting s w.proc.userFakedTimeSaved = false)
    (hrate : w.proc.userRateSet = false) (h : (parseFtString B s).run seq w = .ok ((), w₁)) :
    w₁.proc.AddsOffset := by
  have hpart : ∃ q unit M, OffsetPart s q unit M := by
    by_contra hpart
    obtain ⟨msg, hmsg⟩ := halts_parseFtString (B := B) hsign hnew (Or.inl hpart)
    exact hmsg.not_runs (Q := fun _ _ => True) ⟨_, _, h, trivial⟩
  obtain ⟨q, unit, M, hpart⟩ := hpart
  have hproc := (runs_parseFtString_offsetPart hsign hx hi hnew hpart).ends _ _ h
  rw [hproc]
  exact ⟨normal_floorTimespec _, rfl, hrate⟩

end Parse

/-! ### The shift -/

/-- **Nothing overflows** on the way of the real time of `x` nanoseconds through the clock of an
offset. -/
structure Proc.Carries (s : Proc) (x : ℤ) : Prop where
  base : Fits (s.ftplStarttime.real.ns + s.userOffset.ns)
  time : Fits x
  elapsed : Fits (x - s.ftplStarttime.real.ns)
  sum : Fits (x + s.userOffset.ns)

section Shift

variable {s : Proc} {x T : Timespec} {a : Timeval}

theorem Proc.AddsOffset.ns_fakeTime (h : s.AddsOffset) (hs : s.TimesStored) (hx : x.Normal)
    (hc : s.Carries x.ns) : (s.fakeTime .realtime x).ns = x.ns + s.userOffset.ns := by
  have hbase : s.userFakedTimeTimespec.ns = s.ftplStarttime.real.ns + s.userOffset.ns := by
    have hstart : s.ftplStarttime.real.Stored := hs.start .realtime
    rw [h.base, ns_timespecadd hstart h.offset.stored, hc.base.satNs]
  have hsum : s.ftplStarttime.real.ns + s.userOffset.ns + (x.ns - s.ftplStarttime.real.ns) =
      x.ns + s.userOffset.ns := by ring
  rw [hs.ns_fakeTime hx, if_neg (by decide), hbase]
  unfold Proc.scaled
  rw [h.noRate, if_neg (by simp), show s.ftplStarttime.of .realtime = s.ftplStarttime.real from rfl,
    hc.elapsed.satNs, hsum, hc.sum.satNs]

/-- What `utimensat` hands over for `T` is shown as `T`. -/
theorem Proc.AddsOffset.fakeTime_sub (h : s.AddsOffset) (hs : s.TimesStored) (hT : T.Normal)
    (hc : s.Carries (T.ns - s.userOffset.ns)) :
    s.fakeTime .realtime (timespecsub T s.userOffset) = T := by
  have hx : (timespecsub T s.userOffset).Normal := normal_timespecsub hT.stored h.offset.stored
  have hns : (timespecsub T s.userOffset).ns = T.ns - s.userOffset.ns := by
    rw [ns_timespecsub hT.stored h.offset.stored, hc.time.satNs]
  rw [← hns] at hc
  refine Timespec.ext_ns (hs.normal_fakeTime hx) hT ?_
  rw [h.ns_fakeTime hs hx hc, hns, Int.sub_add_cancel]

/-- `utimes` takes the offset off in whole microseconds. -/
theorem us_timersub (hd : s.userOffset.Normal) (ha : 0 ≤ a.tvUsec ∧ a.tvUsec < 1000000)
    (hfits : Fits (1000 * (a.us - s.userOffset.ns / 1000))) {b : Timeval}
    (hb : b = timersub a ⟨s.userOffset.tvSec, s.userOffset.tvNsec.tdiv 1000⟩) :
    (0 ≤ b.tvUsec ∧ b.tvUsec < 1000000) ∧ b.us = a.us - s.userOffset.ns / 1000 := by
  obtain ⟨hd₀, hd₁⟩ := hd
  -- the offset is cut to microseconds before it is taken away
  have hwhole : s.userOffset.ns / 1000 =
      s.userOffset.tvSec * 1000000 + s.userOffset.tvNsec.tdiv 1000 := by
    rw [Timespec.ns_eq, Int.tdiv_eq_ediv_of_nonneg hd₀]
    omega
  have hcut : 0 ≤ s.userOffset.tvNsec.tdiv 1000 ∧ s.userOffset.tvNsec.tdiv 1000 < 1000000 := by
    rw [Int.tdiv_eq_ediv_of_nonneg hd₀]
    omega
  have hlow : -secToUSec ≤ a.tvUsec - s.userOffset.tvNsec.tdiv 1000 := by
    unfold secToUSec
    omega
  have hhigh : a.tvUsec - s.userOffset.tvNsec.tdiv 1000 < 2 * secToUSec := by
    unfold secToUSec
    omega
  have hnormal := normal_timersub2 (a := (a.tvSec, a.tvUsec))
    (b := (s.userOffset.tvSec, s.userOffset.tvNsec.tdiv 1000)) (by decide) hlow hhigh
  have hvalue := value_timersub2 (a := (a.tvSec, a.tvUsec))
    (b := (s.userOffset.tvSec, s.userOffset.tvNsec.tdiv 1000)) (by decide) hlow hhigh
  have hdiff : value secToUSec (a.tvSec, a.tvUsec) -
      value secToUSec (s.userOffset.tvSec, s.userOffset.tvNsec.tdiv 1000) =
        a.us - s.userOffset.ns / 1000 := by
    rw [hwhole]
    rfl
  obtain ⟨hmin, hmax⟩ := hfits
  unfold nsMin at hmin
  unfold nsMax at hmax
  rw [hdiff, clamp_eq_self (by unfold secToUSec; omega) (by unfold secToUSec; omega)] at hvalue
  subst hb
  exact ⟨hnormal, hvalue⟩

/-- What `utimes` hands over for `a` is shown as `a` to the microsecond. -/
theorem Proc.AddsOffset.fakeTime_timersub (h : s.AddsOffset) (hs : s.TimesStored)
    (ha : 0 ≤ a.tvUsec ∧ a.tvUsec < 1000000)
    (hc : s.Carries (1000 * (a.us - s.userOffset.ns / 1000))) {b : Timeval}
    (hb : b = timersub a ⟨s.userOffset.tvSec, s.userOffset.tvNsec.tdiv 1000⟩) :
    (0 ≤ b.tvUsec ∧ b.tvUsec < 1000000) ∧
      (s.fakeTime .realtime ⟨b.tvSec, b.tvUsec * 1000⟩).tvSec = a.tvSec ∧
      (s.fakeTime .realtime ⟨b.tvSec, b.tvUsec * 1000⟩).tvNsec / 1000 = a.tvUsec := by
  obtain ⟨hb', hus⟩ := us_timersub h.offset ha hc.time hb
  have hx : (⟨b.tvSec, b.tvUsec * 1000⟩ : Timespec).Normal := by
    constructor
    · exact mul_nonneg hb'.1 (by decide)
    · change b.tvUsec * 1000 < 1000000000
      omega
  have hns : (⟨b.tvSec, b.tvUsec * 1000⟩ : Timespec).ns =
      1000 * (a.us - s.userOffset.ns / 1000) := by
    rw [← hus, Timespec.ns_eq, Timeval.us]
    ring
  rw [← hns] at hc
  have hshift := floor_shift (by decide : (0 : ℤ) < 1000) a.us s.userOffset.ns
  rw [← hns, ← h.ns_fakeTime hs hx hc, Timespec.ns_eq, Timeval.us] at hshift
  obtain ⟨hr₀, hr₁⟩ : (s.fakeTime .realtime ⟨b.tvSec, b.tvUsec * 1000⟩).Normal :=
    hs.normal_fakeTime hx
  exact ⟨hb', by omega, by omega⟩

/-- What `utime` hands over for the second `a` is shown as a time in this second. -/
theorem Proc.AddsOffset.fakeTime_second (h : s.AddsOffset) (hs : s.TimesStored) {a : ℤ}
    (hc : s.Carries (1000000000 * (a - s.userOffset.ns / 1000000000))) :
    (s.fakeTime .realtime ⟨a - s.userOffset.tvSec, 0⟩).tvSec = a := by
  obtain ⟨hd₀, hd₁⟩ := h.offset
  have hx : (⟨a - s.userOffset.tvSec, 0⟩ : Timespec).Normal :=
    ⟨le_rfl, show (0 : ℤ) < 1000000000 by decide⟩
  have hns : (⟨a - s.userOffset.tvSec, 0⟩ : Timespec).ns =
      1000000000 * (a - s.userOffset.ns / 1000000000) := by
    have hwhole : s.userOffset.ns / 1000000000 = s.userOffset.tvSec := by
      rw [Timespec.ns_eq]
      omega
    rw [hwhole, Timespec.ns_eq]
    ring
  rw [← hns] at hc
  have hshift := floor_shift (by decide : (0 : ℤ) < 1000000000) a s.userOffset.ns
  rw [← hns, ← h.ns_fakeTime hs hx hc, Timespec.ns_eq] at hshift
  obtain ⟨hr₀, hr₁⟩ : (s.fakeTime .realtime ⟨a - s.userOffset.tvSec, 0⟩).Normal :=
    hs.normal_fakeTime hx
  omega

end Shift

/-! ### Asking for the times of a file -/

/-- **`stat` reports** the times `r` of a file with the times `buf`. -/
def StatReports (B : Build) (w : World) (buf r : Stat) : Prop :=
  (statHandlerCommon (fakeStatbuf B) buf).Runs seq w fun r' _ => r' = r

/-- The times of a file as a process shows them. -/
def Stat.shown (buf : Stat) (s : Proc) : Stat :=
  ⟨s.fakeTime .realtime buf.stCtim, s.fakeTime .realtime buf.stAtim,
    s.fakeTime .realtime buf.stMtim⟩

/-- The times of a file are normalized, as those the system keeps are. -/
structure Stat.Normal (buf : Stat) : Prop where
  ctim : buf.stCtim.Normal
  atim : buf.stAtim.Normal
  mtim : buf.stMtim.Normal

/-- **A process that fakes the times of files** by a start-at clock. -/
structure ServesFiles (B : Build) (w : World) : Prop where
  serves : Serves B w
  started : ∀ c, (w.proc.ftplStarttime.of c).Stored
  based : w.proc.userFakedTimeTimespec.Stored
  statFaking : w.proc.fakeStatDisabled = false
  semFree : w.semHeld = false
  saves : (w.proc.sharedSemInitialized && w.proc.outfileOpen) = false

section Served

variable {B : Build} {w : World} {buf : Stat}

theorem ServesFiles.times (h : ServesFiles B w) : w.proc.TimesStored := ⟨h.based, h.started⟩

theorem ServesFiles.reports (h : ServesFiles B w) (hbuf : buf.Normal) :
    StatReports B w buf (buf.shown w.proc) := by
  refine runs_load ?_
  rw [h.statFaking, if_neg (by simp)]
  refine runs_dontFake ?_
  rw [h.serves.faking, if_neg (by simp)]
  exact (runs_fakeStatbuf h.serves h.times h.semFree h.saves hbuf.ctim hbuf.atim hbuf.mtim).mono
    fun _ _ hr => hr.1

end Served

/-! ### Setting them -/

section Setters

variable {B : Build} {w : World} {T : Timespec}

/-- A requested time as it is handed over: only one that is a time is shifted. -/
def Proc.handed (s : Proc) (T : Timespec) : Timespec :=
  if T.tvNsec = utimeOmit ∨ T.tvNsec = utimeNow then T else timespecsub T s.userOffset

theorem runs_fakeTimespec (now : Option Timespec) :
    (fakeTimespec B false now T).Runs seq w fun r w' =>
      r = some (w.proc.handed T, now) ∧ w' = w := by
  unfold fakeTimespec Proc.handed
  rw [Bool.false_or]
  by_cases hspecial : T.tvNsec = utimeOmit ∨ T.tvNsec = utimeNow
  · rw [if_pos (by simpa using hspecial), if_pos hspecial, Bool.false_and, if_neg (by simp)]
    exact runs_pure ⟨rfl, rfl⟩
  · rw [if_neg (by simpa using hspecial), if_neg hspecial]
    exact runs_load (runs_pure ⟨rfl, rfl⟩)

/-- Both entries, a null pointer included. -/
theorem runs_fakeTwoTimespec (times : Option (Timespec × Timespec)) :
    (fakeTwoTimespec B false times).Runs seq w fun r w' =>
      r = some (w.proc.handed (requestedTimes times).1, w.proc.handed (requestedTimes times).2) ∧
        w' = w := by
  refine (runs_fakeTimespec none).bind ?_
  rintro _ _ ⟨rfl, rfl⟩
  refine (runs_fakeTimespec none).bind ?_
  rintro _ _ ⟨rfl, rfl⟩
  exact runs_pure ⟨rfl, rfl⟩

/-- A request that the process can carry. -/
def Proc.CarriesRequest (s : Proc) (T : Timespec) : Prop :=
  T.tvNsec = utimeNow ∨ T.tvNsec = utimeOmit ∨ (T.Normal ∧ s.Carries (T.ns - s.userOffset.ns))

theorem not_special_of_normal (h : T.Normal) : T.tvNsec ≠ utimeNow ∧ T.tvNsec ≠ utimeOmit := by
  obtain ⟨h₀, h₁⟩ := h
  unfold utimeNow utimeOmit
  omega

theorem requested_of_now (h : T.tvNsec = utimeNow) (now old : Timespec) :
    T.requested now old = now := if_pos h

theorem requested_of_omit (h : T.tvNsec = utimeOmit) (now old : Timespec) :
    T.requested now old = old := by
  rw [Timespec.requested, if_neg (by rw [h]; decide), if_pos h]

theorem requested_of_normal (h : T.Normal) (now old : Timespec) : T.requested now old = T := by
  obtain ⟨hnow, homit⟩ := not_special_of_normal h
  rw [Timespec.requested, if_neg hnow, if_neg homit]

/-- The three kinds of requests. -/
theorem Proc.CarriesRequest.handed_cases {s : Proc} (h : s.CarriesRequest T)
    (hoffset : s.userOffset.Normal) :
    (T.tvNsec = utimeNow ∧ s.handed T = T) ∨ (T.tvNsec = utimeOmit ∧ s.handed T = T) ∨
      (T.Normal ∧ s.Carries (T.ns - s.userOffset.ns) ∧ s.handed T = timespecsub T s.userOffset ∧
        (timespecsub T s.userOffset).Normal) := by
  rcases h with hnow | homit | ⟨hnormal, hcarries⟩
  · exact Or.inl ⟨hnow, if_pos (Or.inr hnow)⟩
  · exact Or.inr (Or.inl ⟨homit, if_pos (Or.inl homit)⟩)
  · obtain ⟨hnow, homit⟩ := not_special_of_normal hnormal
    exact Or.inr (Or.inr ⟨hnormal, hcarries, if_neg (not_or.mpr ⟨homit, hnow⟩),
      normal_timespecsub hnormal.stored hoffset.stored⟩)

/-- **The shift commutes with setting a time.** -/
theorem Proc.AddsOffset.requested {s : Proc} (h : s.AddsOffset) (hs : s.TimesStored)
    (hT : s.CarriesRequest T) {now old : Timespec} (hnow : now.Normal) (hold : old.Normal) :
    (T.Accepted ∧ (s.handed T).Accepted) ∧
      ((s.handed T).tvNsec = utimeOmit ↔ T.tvNsec = utimeOmit) ∧
      ((s.handed T).requested now old).Normal ∧
      s.fakeTime .realtime ((s.handed T).requested now old) =
        T.requested (s.fakeTime .realtime now) (s.fakeTime .realtime old) := by
  rcases hT.handed_cases h.offset with ⟨hspecial, hhanded⟩ | ⟨hspecial, hhanded⟩ |
    ⟨hnormal, hcarries, hhanded, hx⟩
  · rw [hhanded, requested_of_now hspecial, requested_of_now hspecial]
    exact ⟨⟨Or.inl hspecial, Or.inl hspecial⟩, Iff.rfl, hnow, rfl⟩
  · rw [hhanded, requested_of_omit hspecial, requested_of_omit hspecial]
    exact ⟨⟨Or.inr (Or.inl hspecial), Or.inr (Or.inl hspecial)⟩, Iff.rfl, hold, rfl⟩
  · rw [hhanded, requested_of_normal hx, requested_of_normal hnormal]
    exact ⟨⟨Or.inr (Or.inr hnormal), Or.inr (Or.inr hx)⟩,
      iff_of_false (not_special_of_normal hx).2 (not_special_of_normal hnormal).2, hx,
      h.fakeTime_sub hs hnormal hcarries⟩

end Setters

/-! ### The round trip -/

/-- The two processes have the same clock and the same offset. -/
def Proc.SameOffset (s s' : Proc) : Prop :=
  s'.userOffset = s.userOffset ∧ s'.userFakedTimeTimespec = s.userFakedTimeTimespec ∧
    s'.ftplStarttime.real = s.ftplStarttime.real ∧ s'.userRateSet = s.userRateSet

/-- **A process that fakes the times of files by the offset in the text `s`**, which is one without
modifiers, was new when it was applied, and has been in force since. -/
structure OffsetServed (B : Build) (s : CStr) (w : World) : Prop extends ServesFiles B w where
  sign : s.head? = some '+' ∨ s.head? = some '-'
  noRate : strchr s 'x' = none
  noTick : strchr s 'i' = none
  applied : ∃ w₀ w₁, unchangedSetting s w₀.proc.userFakedTimeSaved = false ∧
    w₀.proc.userRateSet = false ∧ (parseFtString B s).run seq w₀ = .ok ((), w₁) ∧
    w₁.proc.SameOffset w.proc

/-- A time in microseconds that the process can carry. -/
def Proc.CarriesTimeval (s : Proc) (a : Timeval) : Prop :=
  (0 ≤ a.tvUsec ∧ a.tvUsec < 1000000) ∧ s.Carries (1000 * (a.us - s.userOffset.ns / 1000))

/-- A time in seconds that the process can carry. -/
def Proc.CarriesSecond (s : Proc) (a : ℤ) : Prop :=
  s.Carries (1000000000 * (a - s.userOffset.ns / 1000000000))

/-- A time to the microsecond. -/
def Timespec.toTimeval (t : Timespec) : Timeval := ⟨t.tvSec, t.tvNsec / 1000⟩

section RoundTrip

variable {B : Build} {w : World} {s : CStr} {buf : Stat} {now : Timespec}

theorem OffsetServed.follows (h : OffsetServed B s w) : w.proc.AddsOffset := by
  obtain ⟨w₀, w₁, hnew, hrate, hrun, hoffset, hbase, hstart, hrate'⟩ := h.applied
  obtain ⟨ho, hb, hr⟩ := addsOffset_of_parse h.sign h.noRate h.noTick hnew hrate hrun
  refine ⟨hoffset ▸ ho, ?_, hrate'.trans hr⟩
  rw [hbase, hstart, hoffset]
  exact hb

/-- `utimensat` and `futimens`: what is shown of the file that has been set is what is shown of the
file, set. -/
theorem OffsetServed.runs_fakeTwoTimespec (h : OffsetServed B s w) (hbuf : buf.Normal)
    (hnow : now.Normal) {times : Option (Timespec × Timespec)}
    (ha : w.proc.CarriesRequest (requestedTimes times).1)
    (hm : w.proc.CarriesRequest (requestedTimes times).2) :
    (fakeTwoTimespec B false times).Runs seq w fun req w' => ∃ tn buf' after, req = some tn ∧
      buf.realUtimensat now tn = some buf' ∧ StatReports B w' buf' after ∧
      (buf.shown w.proc).realUtimensat (w.proc.fakeTime .realtime now) (requestedTimes times) =
        some after := by
  obtain ⟨⟨hok, hok'⟩, homit, hnormal, hshift⟩ :=
    h.follows.requested h.times ha hnow hbuf.atim
  obtain ⟨⟨hokm, hokm'⟩, homitm, hnormalm, hshiftm⟩ :=
    h.follows.requested h.times hm hnow hbuf.mtim
  refine (LibFaketime.runs_fakeTwoTimespec times).mono ?_
  rintro _ _ ⟨rfl, rfl⟩
  refine ⟨_, _, _, rfl, if_pos ⟨hok', hokm'⟩, h.reports ⟨?_, hnormal, hnormalm⟩, ?_⟩
  · dsimp only
    split
    · exact hbuf.ctim
    · exact hnow
  · rw [Stat.realUtimensat, if_pos ⟨hok, hokm⟩]
    simp only [Stat.shown, hshift, hshiftm, homit, homitm, apply_ite]

/-- **The times of files round-trip under an offset.** Say that `stat` reports the times `before` of
a file, and that at the time `now` the clock shows `current`. After `utimensat` or `futimens` it
reports what the real function makes of a file with these times at this time: a requested time as
it is, the old one where it is to be left alone, and the current one where that is asked for. After
`utimes` and `utime` it reports the requested times to the microsecond and to the second, and for a
null pointer the current one. -/
theorem file_times_round_trip (h : OffsetServed B s w) (hbuf : buf.Normal) (hnow : now.Normal) :
    ∃ before current, StatReports B w buf before ∧
      (fakeClockGettime B .realtime now).Runs seq w (fun r _ => r = (0, current)) ∧
      (∀ set ∈ [utimensat, futimens], ∀ times : Option (Timespec × Timespec),
        w.proc.CarriesRequest (requestedTimes times).1 →
        w.proc.CarriesRequest (requestedTimes times).2 →
        (set B false times).Runs seq w fun req w' => ∃ tn buf' after, req = some tn ∧
          buf.realUtimensat now tn = some buf' ∧ StatReports B w' buf' after ∧
          before.realUtimensat current (requestedTimes times) = some after) ∧
      (∀ times : Option (Timeval × Timeval), (∀ a m, times = some (a, m) →
          w.proc.CarriesTimeval a ∧ w.proc.CarriesTimeval m) →
        (utimes B false times).Runs seq w fun req w' => ∃ tn buf' after, req = some tn ∧
          buf.realUtimes now tn = some buf' ∧ StatReports B w' buf' after ∧ match times with
            | some (a, m) => after.stAtim.toTimeval = a ∧ after.stMtim.toTimeval = m
            | none => after.stAtim = current ∧ after.stMtim = current) ∧
      (∀ times : Option Utimbuf, (∀ t, times = some t →
          w.proc.CarriesSecond t.actime ∧ w.proc.CarriesSecond t.modtime) →
        (utime B false times).Runs seq w fun req w' => ∃ tn buf' after, req = some tn ∧
          buf.realUtime now tn = some buf' ∧ StatReports B w' buf' after ∧ match times with
            | some t => after.stAtim.tvSec = t.actime ∧ after.stMtim.tvSec = t.modtime
            | none => after.stAtim = current ∧ after.stMtim = current) := by
  have hclock : (fakeClockGettime B .realtime now).Runs seq w fun r _ =>
      r = (0, w.proc.fakeTime .realtime now) :=
    (runs_fakeClockGettime h.serves h.times hnow).mono fun _ _ hr => hr.1
  refine ⟨_, _, h.reports hbuf, hclock, ?_, ?_, ?_⟩
  · intro set hset times ha hm
    -- the two functions are one
    have hset : set = fakeTwoTimespec := by
      rcases List.mem_pair.mp hset with rfl | rfl <;> rfl
    rw [hset]
    exact h.runs_fakeTwoTimespec hbuf hnow ha hm
  · intro times hcarries
    cases times with
    | none => exact runs_pure ⟨_, _, _, rfl, rfl, h.reports ⟨hnow, hnow, hnow⟩, rfl, rfl⟩
    | some times =>
      obtain ⟨⟨ha, hca⟩, hm, hcm⟩ := hcarries times.1 times.2 rfl
      obtain ⟨hva, hsa, hua⟩ := h.follows.fakeTime_timersub h.times ha hca rfl
      obtain ⟨hvm, hsm, hum⟩ := h.follows.fakeTime_timersub h.times hm hcm rfl
      have hfile : ∀ {b : Timeval}, 0 ≤ b.tvUsec ∧ b.tvUsec < 1000000 →
          (⟨b.tvSec, b.tvUsec * 1000⟩ : Timespec).Normal := fun {b} hb =>
        ⟨mul_nonneg hb.1 (by decide), show b.tvUsec * 1000 < 1000000000 by omega⟩
      refine runs_load (runs_pure ⟨_, _, _, rfl, if_pos ⟨hva, hvm⟩,
        h.reports ⟨hnow, hfile hva, hfile hvm⟩, ?_, ?_⟩)
      · exact congrArg₂ Timeval.mk hsa hua
      · exact congrArg₂ Timeval.mk hsm hum
  · intro times hcarries
    cases times with
    | none => exact runs_pure ⟨_, _, _, rfl, rfl, h.reports ⟨hnow, hnow, hnow⟩, rfl, rfl⟩
    | some times =>
      obtain ⟨ha, hm⟩ := hcarries times rfl
      have hfile : ∀ a : ℤ, (⟨a, 0⟩ : Timespec).Normal := fun a =>
        ⟨le_rfl, show (0 : ℤ) < 1000000000 by decide⟩
      exact runs_load (runs_pure ⟨_, _, _, rfl, rfl, h.reports ⟨hnow, hfile _, hfile _⟩,
        h.follows.fakeTime_second h.times ha, h.follows.fakeTime_second h.times hm⟩)

end RoundTrip

/-! ### A program a second and a half behind -/

/-- A negative offset with a fraction. -/
def behindText : CStr := "-1.5".toList

/-- The environment of a process with this setting. -/
def behindEnv : EnvVar → Option CStr
  | .faketime => some behindText
  | _ => none

/-- The process has applied it; it was started at `⟨1000, 0⟩`. -/
def behindWorld : World :=
  calmWorld behindEnv (fun _ _ => ⟨1020, 0⟩) ⟨0, 0⟩
    { Proc.initial with
      ftMode := .startAt
      ftplStarttime := ⟨⟨1000, 0⟩, ⟨1000, 0⟩, ⟨1000, 0⟩, ⟨1000, 0⟩⟩
      userOffset := floorTimespec (-3 / 2 * 1)
      userFakedTimeTimespec := timespecadd ⟨1000, 0⟩ (floorTimespec (-3 / 2 * 1))
      userFakedTimeSaved := behindText, parseConfigFile := false }

theorem unchanged_behindText :
    unchangedSetting (behindText.take (bufferlen - 1)) behindText = true := by
  decide +kernel

theorem offsetServed_behindWorld : OffsetServed epochBuild behindText behindWorld where
  serves :=
    { faking := rfl
      calm := ⟨fun _ => ⟨_, rfl⟩, fun _ => rfl, fun _ => rfl, fun _ _ => ⟨_, rfl⟩⟩
      tries := Nat.one_pos
      startAt := rfl
      noTick := rfl
      noLimits := rfl
      noReplay := rfl
      mutexFree := rfl
      saves := nofun
      fixed := fun w₁ hos _ hcore => by
        obtain ⟨w₂, hrun, hlike, -⟩ := refresh_of_unchanged (fun _ => ⟨_, rfl⟩) (fun _ => rfl) rfl
          unchanged_behindText ⟨fun _ => rfl, fun _ => rfl, by rintro v ⟨⟩⟩ w₁ hos hcore
        exact ⟨w₂, hrun, hlike⟩ }
  started c := by
    have hstart : (⟨1000, 0⟩ : Timespec).Stored := by decide
    cases c <;> exact hstart
  based := by
    change (timespecadd ⟨1000, 0⟩ (floorTimespec (-3 / 2 * 1))).Stored
    exact (normal_timespecadd (by decide) (normal_floorTimespec _).stored).stored
  statFaking := rfl
  semFree := rfl
  saves := rfl
  sign := Or.inr rfl
  noRate := by decide
  noTick := by decide
  applied := by
    have hpart : OffsetPart behindText (-3 / 2) 1 [] :=
      ⟨by decide +kernel, Or.inl rfl, by decide +kernel⟩
    obtain ⟨_, w₁, hrun, hproc⟩ := runs_parseFtString_offsetPart (B := epochBuild)
      (w := { behindWorld with proc := { behindWorld.proc with userFakedTimeSaved := [] } })
      (Or.inr rfl) (by decide) (by decide) (by decide +kernel) hpart
    refine ⟨_, w₁, ?_, ?_, hrun, ?_⟩
    · decide +kernel
    · rfl
    · rw [hproc]
      exact ⟨rfl, rfl, rfl, rfl⟩

/-- The times of a file are set to a nanosecond after `⟨2000, 0⟩`, and left alone. -/
theorem file_times_round_trip_behindWorld :
    (utimensat epochBuild false (some (⟨2000, 1⟩, ⟨0, utimeOmit⟩))).Runs seq behindWorld
      fun req w' => ∃ tn buf' after, req = some tn ∧
        (⟨⟨10, 0⟩, ⟨10, 0⟩, ⟨10, 0⟩⟩ : Stat).realUtimensat ⟨1020, 0⟩ tn = some buf' ∧
        StatReports epochBuild w' buf' after ∧ after.stAtim = ⟨2000, 1⟩ := by
  have hten : (⟨10, 0⟩ : Timespec).Normal := by decide
  have hbuf : (⟨⟨10, 0⟩, ⟨10, 0⟩, ⟨10, 0⟩⟩ : Stat).Normal := ⟨hten, hten, hten⟩
  have hnow : (⟨1020, 0⟩ : Timespec).Normal := by decide
  obtain ⟨before, current, -, -, hset, -⟩ :=
    file_times_round_trip offsetServed_behindWorld hbuf hnow
  have hcarries : behindWorld.proc.CarriesRequest ⟨2000, 1⟩ :=
    Or.inr (Or.inr ⟨by decide, by decide +kernel, by decide +kernel, by decide +kernel,
      by decide +kernel⟩)
  refine (hset utimensat (by simp) (some (⟨2000, 1⟩, ⟨0, utimeOmit⟩)) hcarries
    (Or.inr (Or.inl rfl))).mono ?_
  rintro _ w' ⟨tn, buf', after, rfl, hbuf', hreports, hafter⟩
  refine ⟨tn, buf', after, rfl, hbuf', hreports, ?_⟩
  cases hafter
  rfl

end LibFaketime
