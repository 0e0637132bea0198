import LibFaketime.Limits
import LibFaketime.Settime

/-!
# Ticks and the system clock

With the modifier `i` the reported time is said to be completely independent of the system
clock. Two runs of the same queries are compared here, on systems that differ in what their clocks
show. The counter from which a tick is taken is in the shared block, and `next_time` has nothing to
say to a process that has none: it leaves the reading where it is. A reading is left where it is by
the limits as well. Apart from these two the answers are the same
(`LibFaketime.independent_iff`).
-/

namespace LibFaketime

open Effects Effects.Prog Saturate

/-! ### Two clocks -/

/-- The queries of the clocks `cs`, the readings being `R n`, `R (n + 1)` and so on, and their
answers. -/
def asks (B : Build) (R : ℕ → Timespec) : ℕ → List ClockId → Sys (List Timespec)
  | _, [] => pure []
  | n, c :: cs => do
    let r ← fakeClockGettime B c (R n)
    let rest ← asks B R (n + 1) cs
    pure (r.2 :: rest)

/-- The answers, or the reason why there are none. -/
def World.answers (B : Build) (w : World) (T : ℕ → ClockId → Timespec) (R : ℕ → Timespec)
    (cs : List ClockId) : Except Stop (List Timespec) :=
  (asks B R 0 cs).answer seq (w.onClock T)

/-- **Reported time is independent of the system clock**: whatever the clocks show, the queries
have the same answers, the first of all that are counted being the base. -/
def World.Independent (B : Build) (w : World) (cs : List ClockId) : Prop :=
  ∀ T T' : ℕ → ClockId → Timespec, ∀ R R' : ℕ → Timespec,
    (∀ n, (R n).Normal) → (∀ n, (R' n).Normal) →
      w.answers B T R cs = w.answers B T' R' cs ∧ (w.shm.ticks = 0 →
        ∃ rest, w.answers B T R cs = .ok (w.proc.userFakedTimeTimespec :: rest))

/-- The limits let every reading through, at each of the queries. -/
def Proc.LetsThrough (s : Proc) (cs : List ClockId) : Prop :=
  ∀ i c, cs[i]? = some c → ∀ tp : Timespec, tp.Normal →
    (Proc.counted^[i] s).shutsOut c tp = false

/-- **A process with ticks** whose setting is in force, whatever its clocks show. -/
structure Paced (B : Build) (w : World) : Prop where
  standing : ∀ T, Standing B (w.onClock T)
  faking : w.dontFake = false
  startAt : w.proc.ftMode = .startAt
  ticks : w.proc.userPerTickIncSet = true
  base : w.proc.userFakedTimeTimespec.Normal ∧ w.proc.userFakedTimeTimespec.InRange
  started : ∀ c, (w.proc.ftplStarttime.of c).Stored

/-! ### Readings within a second -/

theorem tvSec_eq {t : Timespec} (h : t.Normal) : t.tvSec = t.ns / 1000000000 := by
  obtain ⟨h0, h1⟩ := h
  rw [Timespec.ns_eq]
  omega

/-- There is more than one reading in the second after the start that a reading is in. -/
theorem exists_same_second {tp start : Timespec} (htp : tp.Normal) (hstart : start.Stored) :
    ∃ tp' : Timespec, tp'.Normal ∧ tp' ≠ tp ∧
      (timespecsub tp' start).tvSec = (timespecsub tp start).tvSec := by
  have hsec : ∀ t : Timespec, t.Normal →
      (timespecsub t start).tvSec = satNs (t.ns - start.ns) / 1000000000 := fun t ht => by
    rw [tvSec_eq (normal_timespecsub ht.stored hstart), ns_timespecsub ht.stored hstart]
  -- one of the two neighbours is in the same second
  have hnear : ∀ x : ℤ, satNs (x + 1) / 1000000000 = satNs x / 1000000000 ∨
      satNs (x - 1) / 1000000000 = satNs x / 1000000000 := by
    intro x
    unfold satNs clamp nsMin nsMax ftTimeMin ftTimeMax
    omega
  have hother : ∀ y, y ≠ tp.ns → Timespec.ofNs y ≠ tp := by
    rintro y hy rfl
    exact hy (Timespec.ns_ofNs y).symm
  rcases hnear (tp.ns - start.ns) with h | h
  · refine ⟨.ofNs (tp.ns + 1), Timespec.normal_ofNs _, hother _ (by omega), ?_⟩
    rw [hsec _ (Timespec.normal_ofNs _), hsec tp htp, Timespec.ns_ofNs, ← h]
    congr 2
    omega
  · refine ⟨.ofNs (tp.ns - 1), Timespec.normal_ofNs _, hother _ (by omega), ?_⟩
    rw [hsec _ (Timespec.normal_ofNs _), hsec tp htp, Timespec.ns_ofNs, ← h]
    congr 2
    omega

/-! ### The queries one after another -/

section Asks

variable {B : Build} {w v : World} {T T' : ℕ → ClockId → Timespec} {R : ℕ → Timespec} {n : ℕ}
  {c : ClockId} {cs : List ClockId}

/-- The world after `n` queries. -/
structure Along (w : World) (T : ℕ → ClockId → Timespec) (n : ℕ) (v : World) : Prop where
  like : Like (w.onClock T) v
  calls : v.proc.callcounter = (Proc.counted^[n] w.proc).callcounter

theorem along_zero : Along w T 0 (w.onClock T) := ⟨.refl _, rfl⟩

theorem Along.core (h : Along w T n v) : v.proc.core = (Proc.counted^[n] w.proc).core :=
  h.like.core.trans (core_iterate_counted n w.proc).symm

theorem Along.shutsOut (h : Along w T n v) (c : ClockId) (tp : Timespec) :
    v.proc.shutsOut c tp = (Proc.counted^[n] w.proc).shutsOut c tp := shutsOut_eq h.core h.calls

/-- One query. -/
theorem Paced.runs_ask (h : Paced B w) (hv : Along w T n v) (hcpu : c.IsCpu = false)
    (tp : Timespec) : (fakeClockGettime B c tp).Runs seq v fun x v' =>
      x = (v.limited c tp).result ∧ Along w T (n + 1) v' ∧ v'.shm = v.limitedShm c tp := by
  have hfaking : v.dontFake = false := hv.like.dontFake.trans h.faking
  refine (((h.standing T).like hv.like).runs_query hfaking hcpu _).mono ?_
  rintro x v' ⟨rfl, hlike, hshm, hcalls⟩
  refine ⟨rfl, ⟨hv.like.trans hlike, ?_⟩, hshm⟩
  rw [hcalls, Function.iterate_succ_apply']
  exact callcounter_counted_eq hv.core hv.calls

/-- What the switch on the mode makes of a reading. -/
theorem Paced.outcome_eq (h : Paced B w) (hv : Along w T n v) (c : ClockId) (tp : Timespec) :
    v.outcome c tp = .faked (if w.proc.sharedSemInitialized then
      timespecadd w.proc.userFakedTimeTimespec (timespecmul w.proc.userPerTickInc v.shm.ticks)
      else tp) := by
  have hmode : v.proc.ftMode = .startAt := (hv.like.field Proc.ftMode).trans h.startAt
  have htick : v.proc.userPerTickIncSet = true :=
    (hv.like.field Proc.userPerTickIncSet).trans h.ticks
  unfold World.outcome
  rw [hmode]
  dsimp only
  rw [htick, if_pos rfl, hv.like.field Proc.sharedSemInitialized,
    hv.like.field Proc.userFakedTimeTimespec, hv.like.field Proc.userPerTickInc]
  rfl

/-- **A reading is handed on** at each query that the limits shut out, and at every query without a
shared block. -/
theorem Paced.runs_asks_reading (h : Paced B w) (hcpu : ∀ c ∈ cs, c.IsCpu = false)
    (hR : ∀ n, (R n).Normal) (hv : Along w T n v) :
    (asks B R n cs).Runs seq v fun as _ => ∀ i c, cs[i]? = some c →
      ((Proc.counted^[n + i] w.proc).shutsOut c (R (n + i)) = true ∨
        w.proc.sharedSemInitialized = false) → as[i]? = some (R (n + i)) := by
  induction cs generalizing n v with
  | nil => exact runs_pure fun i c hi => nomatch hi
  | cons c cs ih =>
    refine (h.runs_ask hv (hcpu c List.mem_cons_self) (R n)).bind ?_
    rintro x v' ⟨rfl, hv', -⟩
    refine (ih (fun c hc => hcpu c (List.mem_cons_of_mem _ hc)) hv').bind fun as v'' has => ?_
    refine runs_pure fun i c' hi hcase => ?_
    cases i with
    | succ i =>
      have hnext : n + (i + 1) = n + 1 + i := by omega
      rw [hnext] at hcase ⊢
      exact has i c' hi hcase
    | zero =>
      cases hi
      rw [Nat.add_zero] at hcase ⊢
      refine congrArg some ?_
      unfold World.limited
      rw [hv.shutsOut]
      split
      · rfl
      next hlet =>
        have hshared : w.proc.sharedSemInitialized = false := hcase.resolve_left hlet
        rw [h.outcome_eq hv, hshared, if_neg (by simp)]
        exact normalizeTimespecValue_of_normal (hR n)

/-- The answers of `m` queries, counted from the tick `k` on. -/
def World.tickAnswers (w : World) : ℕ → ℕ → List Timespec
  | _, 0 => []
  | k, m + 1 => normalizeTimespecValue
      (timespecadd w.proc.userFakedTimeTimespec (timespecmul w.proc.userPerTickInc k)) ::
        w.tickAnswers ((k + 1) % 2 ^ 64) m

/-- **With a shared block the answers are the ticks**, if the limits let every reading through. -/
theorem Paced.runs_asks_ticks (h : Paced B w) (hcpu : ∀ c ∈ cs, c.IsCpu = false)
    (hR : ∀ n, (R n).Normal) (hshared : w.proc.sharedSemInitialized = true)
    (hv : Along w T n v) (hlet : ∀ i c, cs[i]? = some c → ∀ tp : Timespec, tp.Normal →
      (Proc.counted^[n + i] w.proc).shutsOut c tp = false) :
    (asks B R n cs).Runs seq v fun as _ => as = w.tickAnswers v.shm.ticks cs.length := by
  induction cs generalizing n v with
  | nil => exact runs_pure rfl
  | cons c cs ih =>
    have hnow : v.proc.shutsOut c (R n) = false := by
      rw [hv.shutsOut]
      exact hlet 0 c rfl (R n) (hR n)
    refine (h.runs_ask hv (hcpu c List.mem_cons_self) (R n)).bind ?_
    rintro x v' ⟨rfl, hv', hshm⟩
    have hticks : v'.shm.ticks = (v.shm.ticks + 1) % 2 ^ 64 := by
      rw [hshm, World.limitedShm, hnow, if_neg (by simp), World.ticked, if_pos]
      exact ⟨(hv.like.field Proc.ftMode).trans h.startAt,
        (hv.like.field Proc.userPerTickIncSet).trans h.ticks,
        (hv.like.field Proc.sharedSemInitialized).trans hshared⟩
    refine (ih (fun c hc => hcpu c (List.mem_cons_of_mem _ hc)) hv' fun i c' hi => ?_).bind ?_
    · rw [Nat.add_assoc, Nat.add_comm 1 i]
      exact hlet (i + 1) c' hi
    · rintro _ v'' rfl
      refine runs_pure ?_
      rw [hticks, World.limited, hnow, if_neg (by simp), h.outcome_eq hv, hshared, if_pos rfl]
      rfl

theorem answer_of_runs {p : Sys (List Timespec)} {as : List Timespec}
    (h : p.Runs seq v fun as' _ => as' = as) : p.answer seq v = .ok as := by
  obtain ⟨_, w', hr, rfl⟩ := h
  rw [answer, hr]
  rfl

/-- The first tick is the base. -/
theorem Paced.first_tick (h : Paced B w) : normalizeTimespecValue
    (timespecadd w.proc.userFakedTimeTimespec (timespecmul w.proc.userPerTickInc (0 : ℕ))) =
      w.proc.userFakedTimeTimespec := by
  obtain ⟨hbase, hmin, hmax⟩ := h.base
  have hfits : Fits w.proc.userFakedTimeTimespec.ns := by
    have := hbase.1
    have := hbase.2
    rw [Timespec.ns_eq]
    unfold Fits nsMin nsMax
    omega
  have hzero : (timespecmul w.proc.userPerTickInc (0 : ℕ)).ns = 0 := by
    rw [ns_timespecmul, Nat.cast_zero, mul_zero, ← Int.cast_zero, trunc_intCast]
    exact satNs_eq_self (by decide) (by decide)
  have hadd := normal_timespecadd hbase.stored
    (normal_timespecmul w.proc.userPerTickInc ((0 : ℕ) : ℚ)).stored
  rw [normalizeTimespecValue_of_normal hadd]
  refine Timespec.ext_ns hadd hbase ?_
  rw [ns_timespecadd hbase.stored (normal_timespecmul _ _).stored, hzero, Int.add_zero, hfits.satNs]

/-- **With the modifier `i` reported time is independent of the system clock**, and begins with the
base, **exactly if there is a shared block** and the limits let every reading through. -/
theorem independent_iff (h : Paced B w) (hne : cs ≠ []) (hcpu : ∀ c ∈ cs, c.IsCpu = false) :
    w.Independent B cs ↔ w.proc.sharedSemInitialized = true ∧ w.proc.LetsThrough cs := by
  have hreading : ∀ (T : ℕ → ClockId → Timespec) (R : ℕ → Timespec), (∀ n, (R n).Normal) →
      ∃ as, w.answers B T R cs = .ok as ∧ ∀ i c, cs[i]? = some c →
        ((Proc.counted^[i] w.proc).shutsOut c (R i) = true ∨
          w.proc.sharedSemInitialized = false) → as[i]? = some (R i) := by
    intro T R hR
    obtain ⟨as, v, hr, has⟩ := h.runs_asks_reading hcpu hR (along_zero (T := T))
    refine ⟨as, ?_, by simpa only [Nat.zero_add] using has⟩
    rw [World.answers, answer, hr]
    rfl
  -- a reading that is handed on differs between two runs
  have hdiffer : ∀ (i : ℕ) (c : ClockId) (tp tp' : Timespec), cs[i]? = some c → tp.Normal →
      tp'.Normal → tp' ≠ tp → (w.proc.sharedSemInitialized = false ∨
        ((Proc.counted^[i] w.proc).shutsOut c tp = true ∧
          (Proc.counted^[i] w.proc).shutsOut c tp' = true)) → ¬ w.Independent B cs := by
    intro i c tp tp' hi htp htp' hne hcase hind
    obtain ⟨as, has, hspec⟩ := hreading (fun _ _ => tp) (fun _ => tp) fun _ => htp
    obtain ⟨as', has', hspec'⟩ := hreading (fun _ _ => tp) (fun _ => tp') fun _ => htp'
    have hsame := (hind (fun _ _ => tp) (fun _ _ => tp) _ _ (fun _ => htp) fun _ => htp').1
    rw [has, has', Except.ok.injEq] at hsame
    have h₁ := hspec i c hi (hcase.symm.imp_left And.left)
    have h₂ := hspec' i c hi (hcase.symm.imp_left And.right)
    rw [hsame, h₂] at h₁
    exact hne (Option.some.inj h₁)
  constructor
  · intro hind
    refine ⟨?_, fun i c hi tp htp => ?_⟩
    · by_contra hshared
      obtain ⟨c, cs', rfl⟩ := List.exists_cons_of_ne_nil hne
      exact hdiffer 0 c ⟨1, 0⟩ ⟨2, 0⟩ rfl (by decide) (by decide) (by decide)
        (Or.inl (Bool.not_eq_true _ ▸ hshared)) hind
    · by_contra hout
      rw [Bool.not_eq_false] at hout
      have hstart : ((Proc.counted^[i] w.proc).ftplStarttime.of c).Stored := by
        rw [Proc.field_eq (core_iterate_counted i w.proc) Proc.ftplStarttime]
        exact h.started c
      obtain ⟨tp', htp', hother, hsec⟩ := exists_same_second htp hstart
      exact hdiffer i c tp tp' hi htp htp' hother
        (Or.inr ⟨hout, (shutsOut_of_second hsec).trans hout⟩) hind
  · rintro ⟨hshared, hlet⟩ T T' R R' hR hR'
    have hticks : ∀ (T : ℕ → ClockId → Timespec) (R : ℕ → Timespec), (∀ n, (R n).Normal) →
        w.answers B T R cs = .ok (w.tickAnswers w.shm.ticks cs.length) := fun T R hR =>
      answer_of_runs (h.runs_asks_ticks hcpu hR hshared (along_zero (T := T))
        fun i c hi tp htp => by rw [Nat.zero_add]; exact hlet i c hi tp htp)
    refine ⟨(hticks T R hR).trans (hticks T' R' hR').symm, fun hzero => ?_⟩
    obtain ⟨c, cs', rfl⟩ := List.exists_cons_of_ne_nil hne
    rw [hticks T R hR, hzero, List.length_cons, World.tickAnswers, h.first_tick]
    exact ⟨_, rfl⟩

end Asks

/-! ### A process with ticks of two seconds -/

/-- A setting with a tick. -/
def steppedText : CStr := "@1970-01-01 00:01:40 i2".toList

/-- The environment of a process with this setting. -/
def tickEnv : EnvVar → Option CStr
  | .faketime => some steppedText
  | _ => none

/-- The process that has applied it, with a shared block or without. -/
def tickWorld (shared : Bool) : World :=
  calmWorld tickEnv (fun _ _ => ⟨1000, 0⟩) ⟨0, 0⟩
    { Proc.initial with
      ftMode := .startAt, userFakedTimeTimespec := ⟨100, 0⟩, userFakedTimeSet := true
      userFakedTimeSaved := steppedText, parseConfigFile := false
      userPerTickInc := ⟨2, 0⟩, userPerTickIncSet := true, sharedSemInitialized := shared }

theorem unchanged_steppedText :
    unchangedSetting (steppedText.take (bufferlen - 1)) steppedText = true := by
  decide +kernel

theorem paced_tickWorld (shared : Bool) : Paced epochBuild (tickWorld shared) where
  standing T :=
    { calm := ⟨fun _ => ⟨_, rfl⟩, fun _ => rfl, fun _ => rfl, fun _ _ => ⟨_, rfl⟩⟩
      tries := Nat.one_pos
      noReplay := rfl
      mutexFree := rfl
      semFree := fun _ => rfl
      saves := nofun
      fixed := fun w₁ hos _ hcore => refresh_of_unchanged (fun _ => ⟨_, rfl⟩) (fun _ => rfl) rfl
        unchanged_steppedText ⟨fun _ => rfl, fun _ => rfl, by rintro v ⟨⟩⟩ w₁ hos hcore }
  faking := rfl
  startAt := rfl
  ticks := rfl
  base := show Timespec.Normal ⟨100, 0⟩ ∧ Timespec.InRange ⟨100, 0⟩ by decide
  started c := by
    have hunset : Timespec.unset.Stored := by decide
    cases c <;> exact hunset

/-- With a shared block. -/
theorem independent_tickWorld :
    (tickWorld true).Independent epochBuild [.realtime, .monotonic] := by
  refine (independent_iff (paced_tickWorld true) (List.cons_ne_nil _ _) (by decide)).mpr
    ⟨rfl, fun i c _ tp _ => ?_⟩
  rw [Proc.shutsOut, Proc.field_eq (core_iterate_counted i _) Proc.limitedFaking]
  rfl

/-- Without one it shows the system clock. -/
theorem not_independent_tickWorld : Paced epochBuild (tickWorld false) ∧
    ¬ (tickWorld false).Independent epochBuild [.realtime] := by
  refine ⟨paced_tickWorld false, fun h => ?_⟩
  have hsame := (h (fun _ _ => ⟨1000, 0⟩) (fun _ _ => ⟨1000, 0⟩) (fun _ => ⟨1000, 0⟩)
    (fun _ => ⟨2000, 0⟩) (fun _ => by decide) fun _ => by decide).1
  have h₁ : (tickWorld false).answers epochBuild (fun _ _ => ⟨1000, 0⟩) (fun _ => ⟨1000, 0⟩)
      [.realtime] = .ok [⟨1000, 0⟩] := rfl
  have h₂ : (tickWorld false).answers epochBuild (fun _ _ => ⟨1000, 0⟩) (fun _ => ⟨2000, 0⟩)
      [.realtime] = .ok [⟨2000, 0⟩] := rfl
  rw [h₁, h₂, Except.ok.injEq] at hsame
  exact absurd hsame (by decide)

end LibFaketime
