import LibFaketime.Solo
import LibFaketime.Fake

/-!
# Ticks: one clock for all processes

With the modifier `i` the clock does not follow the real one. It moves by a fixed
step at every query, and the number of the query comes from the counter in the shared
block, so that all processes read one clock.

The processes here share their setting (`LibFaketime.Ticking`) and make queries in any
order (`LibFaketime.tickMachine`), each call of each query at any time. What a query
holds the semaphore for is `LibFaketime.nextTime`, and the protocol it follows is
`LibFaketime.tickProtocol`: between two queries the counter is the number of turns
taken at the semaphore, and whoever holds the semaphore is alone with the counter.
-/

namespace LibFaketime

open Effects Saturate

variable {P T : Type}

/-- The time at tick `k`: the base moved by `k` increments, the counter being a
64-bit word. -/
def tickTime (base d : Timespec) (k : ℕ) : Timespec :=
  timespecadd base (timespecmul d ((k % 2 ^ 64 : ℕ) : ℚ))

/-- A process with the tick modifier. -/
structure Ticking (base d : Timespec) (s : Proc) : Prop where
  shared : s.sharedSemInitialized = true
  startAt : s.ftMode = .startAt
  tickSet : s.userPerTickIncSet = true
  base_eq : s.userFakedTimeTimespec = base
  inc_eq : s.userPerTickInc = d

/-! ### The value of a tick -/

section Value

variable {base d : Timespec} {k : ℕ}

/-- **A tick is a whole number of increments after the base**, saturated. -/
theorem ns_tickTime (hb : base.Stored) (hk : k < 2 ^ 64) :
    (tickTime base d k).ns = satNs (base.ns + satNs (k * d.ns)) := by
  have hprod : ((d.ns : ℚ) * ((k : ℕ) : ℚ)) = ((k * d.ns : ℤ) : ℚ) := by
    push_cast
    ring
  rw [tickTime, Nat.mod_eq_of_lt hk, ns_timespecadd hb (normal_timespecmul _ _).stored,
    ns_timespecmul, hprod, trunc_intCast]

theorem normal_tickTime (hb : base.Stored) : (tickTime base d k).Normal :=
  normal_timespecadd hb (normal_timespecmul _ _).stored

end Value

/-! ### The protocol -/

section Protocol

variable [DecidableEq P] [DecidableEq T] (base d : Timespec)

/-- What holds between any two calls: turns are fair, every process has the common
setting, a free semaphore means that the counter is the number of turns taken, and
every query that has been answered was answered by its tick. -/
structure TickInv (m : Mem P T Outcome) : Prop where
  fair : m.turns.Fair
  ticking : ∀ p, Ticking base d (m.proc p)
  free : m.sem = none → m.shm.ticks = m.turns.next % 2 ^ 64
  served : ∀ e ∈ m.turns.served, e.2 = .faked (tickTime base d e.1)
  passed : m.turns.passed = []

/-- What a thread can rely on: it keeps its turn, and the semaphore once it has it,
and while it has the semaphore nobody touches the counter or takes a turn. -/
structure TickRely (t : T) (m m' : Mem P T Outcome) : Prop where
  turn : m'.turns.held t = m.turns.held t
  holder : m'.sem = some t ↔ m.sem = some t
  alone : m.sem = some t → m'.shm = m.shm ∧ m'.turns.order = m.turns.order

/-- The protocol of the queries. -/
def tickProtocol : Protocol T (Mem P T Outcome) where
  inv := TickInv base d
  rely := TickRely
  rely_refl _ _ := ⟨rfl, Iff.rfl, fun _ => ⟨rfl, rfl⟩⟩
  rely_trans _ _ _ _ h h' :=
    ⟨h'.turn.trans h.turn, h'.holder.trans h.holder, fun hs =>
      ⟨(h'.alone (h.holder.mpr hs)).1.trans (h.alone hs).1,
        (h'.alone (h.holder.mpr hs)).2.trans (h.alone hs).2⟩⟩

/-- The machine of the queries. -/
def tickMachine (B : Build) (E : Surroundings) (pid : T → P) :
    Machine sys T (Mem P T Outcome) Outcome :=
  system E pid (fun _ => false) fun _ _ p => ∃ clkId tp, p = fakeByMode B clkId tp

end Protocol

/-! ### One query -/

section Query

variable [DecidableEq P] [DecidableEq T] {base d : Timespec} {B : Build} {E : Surroundings}
  {pid : T → P} {t : T} {m : Mem P T Outcome}

/-- Before it takes the semaphore a query has neither it nor a turn. -/
def Waiting (t : T) (m : Mem P T Outcome) : Prop := m.turns.held t = none ∧ m.sem ≠ some t

/-- Afterwards it has been answered by the tick of its turn. -/
def Answered (base d : Timespec) (t : T) (tp : Timespec) (m : Mem P T Outcome) : Prop :=
  m.sem ≠ some t ∧ ∃ k, m.turns.held t = some k ∧ tp = tickTime base d k

omit [DecidableEq P] [DecidableEq T] in
theorem Waiting.stable {m' : Mem P T Outcome} (h : Waiting t m) (hr : TickRely t m m') :
    Waiting t m' := ⟨hr.turn.trans h.1, fun hs => h.2 (hr.holder.mp hs)⟩

omit [DecidableEq P] in
/-- Nobody minds that a free semaphore is taken. -/
theorem guar_acquire (h : m.sem = none) :
    (tickProtocol base d).Guar t m (m.acquire t) := by
  intro u hu
  refine ⟨Turns.take_held_of_ne hu, ?_, fun hs => ?_⟩
  · rw [h]
    exact iff_of_false (fun hs => hu (Option.some.inj hs).symm) (by simp)
  · rw [h] at hs
    cases hs

omit [DecidableEq P] [DecidableEq T] in
/-- Whoever has the semaphore may do anything to the shared block, and release
it. -/
theorem guar_of_holder {m' : Mem P T Outcome} (h : m.sem = some t)
    (hturns : m'.turns = m.turns) (hsem : m'.sem = m.sem ∨ m'.sem = none) :
    (tickProtocol base d).Guar t m m' := by
  intro u hu
  have hne : m.sem ≠ some u := fun hs => hu (Option.some.inj (hs.symm.trans h))
  refine ⟨by rw [hturns], ?_, fun hs => absurd hs hne⟩
  rcases hsem with hs | hs
  · rw [hs]
  · rw [hs]
    exact iff_of_false (by simp) hne

omit [DecidableEq P] in
theorem TickInv.acquire (h : TickInv base d m) (ht : m.turns.held t = none) :
    TickInv base d (m.acquire t) where
  fair := h.fair.take ht
  ticking := h.ticking
  free := fun hs => nomatch hs
  served := h.served
  passed := h.passed

omit [DecidableEq P] [DecidableEq T] in
/-- Under the semaphore the counter may be anything. -/
theorem TickInv.write (h : TickInv base d m) (hs : m.sem = some t) (b : FtShared) :
    TickInv base d { m with shm := b } where
  fair := h.fair
  ticking := h.ticking
  free := fun hn => by
    rw [hs] at hn
    cases hn
  served := h.served
  passed := h.passed

omit [DecidableEq P] [DecidableEq T] in
/-- The semaphore is released with the counter moved on. -/
theorem TickInv.release (h : TickInv base d m) (ht : m.shm.ticks = m.turns.next % 2 ^ 64) :
    TickInv base d m.release where
  fair := h.fair
  ticking := h.ticking
  free := fun _ => ht
  served := h.served
  passed := h.passed

/-- **A query is answered by the tick of its turn.** The induction is on the
attempts at the semaphore: one that is interrupted leaves everything as it was. -/
theorem safe_nextTime (hE : ∀ d d', E.others d d' → d' = d) (n : ℕ) (tp : Timespec)
    (hw : Waiting t m) :
    (tickProtocol base d).Safe (tickMachine B E pid) t (fun tp' m => Answered base d t tp' m)
      (nextTime n tp (·.userPerTickInc)) m := by
  induction n generalizing m with
  | zero => exact safe_stalled
  | succ n ih =>
    refine safe_load fun m₁ h₁ hi₁ => ?_
    rw [if_pos (hi₁.ticking (pid t)).shared]
    refine safe_ftSemLock (fun m₂ h₂ hi₂ hs₂ => ?_) fun m₂ r h₂ hi₂ hr => ?_
    · have hw₂ := (hw.stable h₁).stable h₂
      refine ⟨hi₂.acquire hw₂.1, guar_acquire hs₂, ?_⟩
      have hfree := hi₂.free hs₂
      -- the number of the turn is the counter, and stays so until it is moved on
      generalize hk : m₂.turns.next = k at hfree
      have hk₂ : (m₂.acquire t).turns.held t = some k := by rw [← hk]; exact Turns.take_held_self
      have hn₂ : (m₂.acquire t).turns.next = k + 1 := by rw [← hk]; exact Turns.take_next
      refine safe_load fun m₃ h₃ hi₃ => safe_readShared hE fun m₄ h₄ hi₄ =>
        safe_load fun m₅ h₅ hi₅ => safe_writeShared fun m₆ h₆ hi₆ => ?_
      have h₄' := (tickProtocol base d).rely_trans t h₃ h₄
      have h₆' := (tickProtocol base d).rely_trans t ((tickProtocol base d).rely_trans t h₄' h₅) h₆
      have hs₆ : m₆.sem = some t := h₆'.holder.mpr rfl
      have ht₄ : m₄.shm.ticks = k % 2 ^ 64 := by rw [(h₄'.alone rfl).1]; exact hfree
      have ht₆ : m₆.shm.ticks = k % 2 ^ 64 := by rw [(h₆'.alone rfl).1]; exact hfree
      refine ⟨hi₆.write hs₆ _, guar_of_holder hs₆ rfl (Or.inl rfl),
        safe_ftSemUnlock (fun m₇ h₇ hi₇ => ?_) fun _ => safe_exit_bind⟩
      have hs₇ : m₇.sem = some t := h₇.holder.mpr hs₆
      have hk₇ : m₇.turns.held t = some k := h₇.turn.trans (h₆'.turn.trans hk₂)
      have ht₇ : m₇.shm.ticks = m₇.turns.next % 2 ^ 64 := by
        have hn₇ : m₇.turns.next = k + 1 := by
          rw [Turns.next, (h₇.alone hs₆).2]
          exact (congrArg List.length (h₆'.alone rfl).2).trans hn₂
        rw [(h₇.alone hs₆).1, hn₇]
        change (m₆.shm.ticks + 1) % 2 ^ 64 = (k + 1) % 2 ^ 64
        rw [ht₆, Nat.mod_add_mod]
      refine ⟨hi₇.release ht₇, guar_of_holder hs₇ rfl (Or.inr rfl), safe_pure fun m₈ h₈ hi₈ => ?_⟩
      refine ⟨fun hs => ?_, k, h₈.turn.trans hk₇, ?_⟩
      · cases h₈.holder.mp hs
      · dsimp only
        rw [(hi₅.ticking (pid t)).base_eq, (hi₃.ticking (pid t)).inc_eq, ht₄, tickTime]
    · have hw₂ := (hw.stable h₁).stable h₂
      cases r with
      | acquired => exact absurd rfl hr
      | interrupted => exact ih hw₂
      | failed => exact safe_exit

/-- The switch on the mode takes the branch of the ticks. -/
theorem safe_fakeByMode (hE : ∀ d d', E.others d d' → d' = d) (clkId : ClockId) (tp : Timespec)
    (hw : Waiting t m) :
    (tickProtocol base d).Safe (tickMachine B E pid) t
      (fun o m => ∃ tp', o = .faked tp' ∧ Answered base d t tp' m) (fakeByMode B clkId tp) m := by
  refine safe_load fun m₁ h₁ hi₁ => ?_
  rw [(hi₁.ticking (pid t)).startAt]
  dsimp only
  rw [if_pos (hi₁.ticking (pid t)).tickSet]
  refine (safe_nextTime hE B.retries tp (hw.stable h₁)).bind fun tp' m₂ hi₂ hq => ?_
  refine safe_pure fun m₃ h₃ hi₃ => ⟨tp', rfl, fun hs => hq.1 (h₃.holder.mp hs), ?_⟩
  obtain ⟨k, hk, htp⟩ := hq.2
  exact ⟨k, h₃.turn.trans hk, htp⟩

/-- A query that returns gives its turn back with the answer. -/
theorem TickInv.returned (h : TickInv base d m) {o : Outcome} {tp : Timespec}
    (ho : o = .faked tp) (ha : Answered base d t tp m) :
    TickInv base d (m.returned (fun _ => false) (pid t) t o) := by
  obtain ⟨k, hk, rfl⟩ := ha.2
  refine ⟨h.fair.give, h.ticking, fun hs => ?_, fun e he => ?_, ?_⟩
  · exact (h.free hs).trans (by rw [← Turns.give_next (q := m.turns) (t := t) (a := o)]; rfl)
  · change e ∈ (m.turns.give t o).served at he
    rw [Turns.give_served_of_some hk, List.mem_append, List.mem_singleton] at he
    rcases he with he | rfl
    · exact h.served e he
    · exact ho
  · exact (Turns.give_passed_of_some hk).trans h.passed

/-- **Everything a run of queries reaches.** -/
theorem reach_tickInv (hE : ∀ d d', E.others d d' → d' = d) {m₀ : Mem P T Outcome}
    (h₀ : TickInv base d m₀) (hheld : ∀ t, m₀.turns.held t = none) (hsem : m₀.sem = none)
    {s : Pool sys T (Mem P T Outcome) Outcome}
    (hr : (tickMachine B E pid).Reach (Pool.init sys T Outcome m₀) s) : TickInv base d s.mem := by
  refine (Protocol.reach_safe (P := tickProtocol base d) (D := Waiting)
    (Q := fun t o m => ∃ tp, o = .faked tp ∧ Answered base d t tp m)
    (fun t m m' hw hr => hw.stable hr) ?_ ?_ hr h₀ ?_).1
  · rintro t m p hi hw ⟨clkId, tp, rfl⟩
    exact safe_fakeByMode hE clkId tp hw
  · rintro t o m m' hi ⟨tp, ho, ha⟩ rfl
    refine ⟨hi.returned ho ha, fun u hu => ⟨Turns.give_held_of_ne hu, Iff.rfl, fun _ => ⟨rfl, ?_⟩⟩,
      Turns.give_held_self, ha.1⟩
    exact Turns.give_order
  · exact fun t => ⟨hheld t, by change m₀.sem ≠ _; rw [hsem]; simp⟩

end Query

/-! ### The clock of all processes -/

section Main

variable [DecidableEq P] [DecidableEq T]

/-- As long as the distance from the base is below `2 ^ 63` nanoseconds, the tick is
exact up to the saturation of the sum. -/
theorem ns_tickTime_of_lt {base d : Timespec} {k : ℕ} (hb : base.Stored)
    (hk : |(k : ℤ) * d.ns| < 2 ^ 63) : (tickTime base d k).ns = satNs (base.ns + k * d.ns) := by
  have hfit : Fits (k * d.ns) := by
    obtain ⟨h1, h2⟩ := abs_lt.mp hk
    have hlo : nsMin ≤ -2 ^ 63 := by decide
    have hhi : 2 ^ 63 ≤ nsMax := by decide
    exact ⟨hlo.trans h1.le, h2.le.trans hhi⟩
  rcases eq_or_ne d.ns 0 with h0 | h0
  · -- without an increment the counter may even wrap around
    rw [tickTime, ns_timespecadd hb (normal_timespecmul _ _).stored, ns_timespecmul, h0]
    have hz : satNs (trunc (((0 : ℤ) : ℚ) * ((k % 2 ^ 64 : ℕ) : ℚ))) = 0 := by
      rw [Int.cast_zero, zero_mul]
      decide +kernel
    rw [hz, mul_zero]
  · have hlt : (k : ℤ) < 2 ^ 63 := by
      refine lt_of_le_of_lt ?_ hk
      rw [abs_mul]
      have h1 : 1 ≤ |d.ns| := Int.one_le_abs h0
      have h2 : (k : ℤ) ≤ |(k : ℤ)| := le_abs_self _
      nlinarith [abs_nonneg (k : ℤ)]
    rw [ns_tickTime hb (by omega), hfit.satNs]

/-- **The tick modifier is one clock for all processes.** The processes have one
setting and the counter starts at zero. Then, in whatever order their queries are
interleaved, turns at the semaphore are given out fairly, every query has taken one,
and the query with turn `k` reports the base moved by exactly `k` increments; for an
increment that is not negative, a later turn never reports an earlier time. -/
theorem ticks_in_lock_order {base d : Timespec} {B : Build} {E : Surroundings} {pid : T → P}
    (hE : ∀ b b', E.others b b' → b' = b) (hb : base.Stored) {m₀ : Mem P T Outcome}
    (hset : ∀ p, Ticking base d (m₀.proc p)) (hticks : m₀.shm.ticks = 0) (hsem : m₀.sem = none)
    (hturns : m₀.turns = Turns.start T Outcome) {s : Pool sys T (Mem P T Outcome) Outcome}
    (hr : (tickMachine B E pid).Reach (Pool.init sys T Outcome m₀) s) :
    s.mem.turns.Fair ∧ s.mem.turns.passed = [] ∧
      (∀ k o, (k, o) ∈ s.mem.turns.served → |(k : ℤ) * d.ns| < 2 ^ 63 →
        ∃ v, o = .faked v ∧ v.Normal ∧ v.ns = satNs (base.ns + k * d.ns) ∧
          (Fits (base.ns + k * d.ns) → v.ns = base.ns + k * d.ns)) ∧
      (0 ≤ d.ns → ∀ k o k' o', (k, o) ∈ s.mem.turns.served → (k', o') ∈ s.mem.turns.served →
        k ≤ k' → |(k' : ℤ) * d.ns| < 2 ^ 63 → o.tp ≤ o'.tp) := by
  have h₀ : TickInv base d m₀ := by
    refine ⟨by rw [hturns]; exact Turns.fair_start, hset, fun _ => ?_, ?_, by rw [hturns]; rfl⟩
    · rw [hticks, hturns]
      rfl
    · rw [hturns]
      exact fun e he => nomatch he
  have hinv := reach_tickInv hE h₀ (fun t => by rw [hturns]; rfl) hsem hr
  refine ⟨hinv.fair, hinv.passed, fun k o ho hk => ?_, fun hd k o k' o' ho ho' hle hk' => ?_⟩
  · refine ⟨_, hinv.served _ ho, normal_tickTime hb, ns_tickTime_of_lt hb hk, fun hfit => ?_⟩
    rw [ns_tickTime_of_lt hb hk, hfit.satNs]
  · -- an earlier turn is within the same bound
    have hk : |(k : ℤ) * d.ns| < 2 ^ 63 := by
      refine lt_of_le_of_lt ?_ hk'
      rw [abs_mul, abs_mul, Nat.abs_cast, Nat.abs_cast]
      exact Int.mul_le_mul_of_nonneg_right (by exact_mod_cast hle) (abs_nonneg _)
    obtain rfl : o = .faked (tickTime base d k) := hinv.served _ ho
    obtain rfl : o' = .faked (tickTime base d k') := hinv.served _ ho'
    rw [Outcome.tp, Outcome.tp, Timespec.le_iff_ns (normal_tickTime hb) (normal_tickTime hb),
      ns_tickTime_of_lt hb hk, ns_tickTime_of_lt hb hk']
    refine satNs_mono (Int.add_le_add_left ?_ _)
    exact Int.mul_le_mul_of_nonneg_right (by exact_mod_cast hle) hd

end Main

/-! ### Two processes -/

/-- A process of `FAKETIME='@1970-01-01 00:01:40 i0.5'`. -/
def halfSecondTicks : Proc :=
  { Proc.initial with
    sharedSemInitialized := true
    ftMode := .startAt
    userPerTickIncSet := true
    userFakedTimeTimespec := ⟨100, 0⟩
    userPerTickInc := ⟨0, 500000000⟩ }

/-- The second of two processes makes a query, and then the first one. -/
theorem ticks_in_lock_order_second_process :
    ∃ s : Pool sys (Fin 2) (Mem (Fin 2) (Fin 2) Outcome) Outcome,
      (tickMachine plainBuild anySurroundings id).Reach
        (Pool.init sys (Fin 2) Outcome (Mem.fresh halfSecondTicks)) s ∧
      s.mem.turns.Fair ∧ s.mem.turns.served.length = 2 ∧
      (0, .faked ⟨100, 0⟩) ∈ s.mem.turns.served ∧
      (1, .faked ⟨100, 500000000⟩) ∈ s.mem.turns.served := by
  have hquery : ∀ shm, ∃ o w', (fakeByMode plainBuild .realtime ⟨0, 0⟩).run seq
      { calmWorld (fun _ => none) (fun _ _ => ⟨0, 0⟩) ⟨0, 0⟩ halfSecondTicks with shm := shm } =
        .ok (o, w') ∧ w'.semHeld = false := fun _ => ⟨_, _, rfl, rfl⟩
  have hworld := fun t : Fin 2 => Mem.fresh_stands (α := Outcome) id t halfSecondTicks
    (fun _ => none) (fun _ _ => ⟨0, 0⟩) ⟨0, 0⟩
  obtain ⟨o₁, w₁, hrun₁, hfree⟩ := hquery .created
  obtain ⟨m₁, hr₁, hs₁, hap₁⟩ := reach_of_call (id : Fin 2 → Fin 2) (fun _ => false)
    (fun _ _ p => ∃ clkId tp, p = fakeByMode plainBuild clkId tp)
    (s := Pool.init sys (Fin 2) Outcome (Mem.fresh halfSecondTicks)) (t := 1)
    (anySurroundings_allows _) (hworld 1) rfl ⟨.realtime, ⟨0, 0⟩, rfl⟩ hrun₁
  obtain ⟨o₂, w₂, hrun₂, -⟩ := hquery w₁.shm
  obtain ⟨m₂, hr₂, -, hap₂⟩ := reach_of_call (id : Fin 2 → Fin 2) (fun _ => false)
    (fun _ _ p => ∃ clkId tp, p = fakeByMode plainBuild clkId tp)
    (s := ⟨m₁.returned (fun _ => false) 1 1 o₁, fun _ => none⟩) (t := 0)
    (anySurroundings_allows _)
    (((hworld 0).apart hs₁ hap₁ (by decide) hfree rfl).returned fun _ => false) rfl
    ⟨.realtime, ⟨0, 0⟩, rfl⟩ hrun₂
  have hpool := fun {s} (hr : (tickMachine plainBuild anySurroundings id).Reach
      (Pool.init sys (Fin 2) Outcome (Mem.fresh halfSecondTicks)) s) =>
    ticks_in_lock_order (d := ⟨0, 500000000⟩) (B := plainBuild) (E := anySurroundings)
      (fun _ _ h => h) (by decide) (fun _ => ⟨rfl, rfl, rfl, rfl, rfl⟩) rfl rfl rfl hr
  obtain ⟨-, hpassed₁, -⟩ := hpool hr₁
  obtain ⟨hfair, hpassed, hserved, -⟩ := hpool (hr₁.trans hr₂)
  -- each of the two has come back with a turn
  have hturn : ∀ {q : Turns (Fin 2) Outcome} {t : Fin 2} {o : Outcome}, (q.give t o).passed = [] →
      (q.give t o).served.length = q.served.length + 1 := by
    intro q t o hnone
    cases hheld : q.held t with
    | none =>
      rw [Turns.give_passed_of_none hheld] at hnone
      exact absurd hnone (by simp)
    | some k => rw [Turns.give_served_of_some hheld, List.length_append, List.length_singleton]
  have hnobody : ∀ t, (m₂.turns.give 0 o₂).held t = none := by
    intro t
    obtain rfl | rfl : t = 0 ∨ t = 1 := by omega
    · exact Turns.give_held_self
    · exact (Turns.give_held_of_ne (by decide)).trans
        ((hap₂.turn 1 (by decide)).trans Turns.give_held_self)
  have hlength : (m₂.turns.give 0 o₂).served.length = 2 := by
    have h₁ : (m₁.turns.give 1 o₁).served.length = m₁.turns.served.length + 1 := hturn hpassed₁
    have h₂ : m₂.turns.served = (m₁.turns.give 1 o₁).served := hap₂.served
    rw [hturn hpassed, h₂, h₁, hap₁.served]
    rfl
  have hnext : (m₂.turns.give 0 o₂).next = 2 := (hfair.next_eq_length hnobody).trans hlength
  have hmem : ∀ (k : ℕ) (v : Timespec), k < 2 → v.Normal → v.ns = 100000000000 + k * 500000000 →
      (k, Outcome.faked v) ∈ (m₂.turns.give 0 o₂).served := by
    intro k v hk hv hns
    obtain ⟨⟨_, o⟩, ho, rfl⟩ :=
      List.mem_map.mp ((hfair.mem_numbers_iff hnobody).mpr (hk.trans_eq hnext.symm))
    dsimp only at hk hns ho ⊢
    have hinc : (⟨0, 500000000⟩ : Timespec).ns = 500000000 := by decide
    have hbase : (⟨100, 0⟩ : Timespec).ns = 100000000000 := by decide
    obtain ⟨v', rfl, hv', -, hns'⟩ := hserved _ _ ho (by rw [hinc, abs_lt]; omega)
    rw [hinc, hbase] at hns'
    have hfit : Fits v.ns := by
      rw [hns, Fits, nsMin, nsMax, ftTimeMin, ftTimeMax]
      omega
    obtain rfl := Timespec.ext_ns hv' hv ((hns' (hns ▸ hfit)).trans hns.symm)
    exact ho
  exact ⟨_, hr₁.trans hr₂, hfair, hlength, hmem 0 _ (by decide) (by decide) (by decide),
    hmem 1 _ (by decide) (by decide) (by decide)⟩

end LibFaketime
