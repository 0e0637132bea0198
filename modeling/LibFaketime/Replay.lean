import LibFaketime.Save
import LibFaketime.StartTime
import LibFaketime.Solo

/-!
# Replay: one file for all processes

Processes that replay a file of recorded times share the position in it: the record
a query gets depends on the number of queries all of them have made. When the file
is used up they go on by rules, from the last record and from one start time, which
the first of them to notice publishes; it tells the others by moving the tick
counter from zero to one.

The processes (`T`, each with one thread) call `load_time` in any order
(`LibFaketime.replayMachine`). The turn at the semaphore decides what a call gets:
turn `k` gets record `k`, and turn `n`, the first one after the records, publishes.
-/

namespace LibFaketime

open Effects Effects.Prog

variable {T : Type}

/-! ### The protocol -/

section Protocol

/-- The last record of the file. -/
def lastRecord (recs : List SavedTimestamp) : Timespec :=
  timespecFromSaved (recs.getLastD ⟨[], []⟩)

/-- What the call with turn `k` has to return. -/
def Delivered (recs : List SavedTimestamp) (k : ℕ) (r : Bool × Timespec) : Prop :=
  if k < recs.length then r = (true, timespecFromSaved (recs.getD k ⟨[], []⟩)) else r.1 = false

/-- A process that has left replay goes on from the last record and from the start
time in the shared block, which is the one the process with turn `n` has read. -/
structure Settled (recs : List SavedTimestamp) (m : Mem T T (Bool × Timespec)) (p : T) :
    Prop where
  ticks : m.shm.ticks ≠ 0
  base : (m.proc p).userFakedTimeTimespec = lastRecord recs
  start : (m.proc p).ftplStarttime = m.shm.startTime
  first : ∃ t₁, m.turns.order[recs.length]? = some t₁ ∧ (m.proc t₁).infileSet = false ∧
    AsSeen (m.seen t₁) m.shm.startTime

/-- What holds between any two calls. -/
structure ReplayInv (recs : List SavedTimestamp) (m : Mem T T (Bool × Timespec)) : Prop where
  fair : m.turns.Fair
  shared : ∀ p, (m.proc p).sharedSemInitialized = true
  file : ∀ p, (m.proc p).stss = recs
  position : m.sem = none → m.shm.fileIdx = min m.turns.next recs.length
  counter : m.sem = none → (m.shm.ticks = 0 ↔ m.turns.next ≤ recs.length)
  gone : m.sem = none → recs.length < m.turns.next →
    ∃ t₁, m.turns.order[recs.length]? = some t₁ ∧ (m.proc t₁).infileSet = false
  settled : ∀ p, (m.proc p).infileSet = false → Settled recs m p
  served : ∀ e ∈ m.turns.served, Delivered recs e.1 e.2
  passed : ∀ r ∈ m.turns.passed, r.1 = false
  late : m.turns.passed ≠ [] → recs.length < m.turns.next

/-- What a process can rely on: its turn, its variables and what it has seen are its
own, and while it has the semaphore it is alone with the rest. -/
structure ReplayRely (t : T) (m m' : Mem T T (Bool × Timespec)) : Prop where
  turn : m'.turns.held t = m.turns.held t
  holder : m'.sem = some t ↔ m.sem = some t
  own : m'.proc t = m.proc t
  alone : m.sem = some t → m'.shm = m.shm ∧ m'.turns.order = m.turns.order ∧
    m'.proc = m.proc ∧ m'.seen = m.seen

/-- The protocol of `load_time`. -/
def replayProtocol (recs : List SavedTimestamp) : Protocol T (Mem T T (Bool × Timespec)) where
  inv := ReplayInv recs
  rely := ReplayRely
  rely_refl _ _ := ⟨rfl, Iff.rfl, rfl, fun _ => ⟨rfl, rfl, rfl, rfl⟩⟩
  rely_trans _ _ _ _ h h' := by
    refine ⟨h'.turn.trans h.turn, h'.holder.trans h.holder, h'.own.trans h.own, fun hs => ?_⟩
    obtain ⟨h1, h2, h3, h4⟩ := h.alone hs
    obtain ⟨h1', h2', h3', h4'⟩ := h'.alone (h.holder.mpr hs)
    exact ⟨h1'.trans h1, h2'.trans h2, h3'.trans h3, h4'.trans h4⟩

variable [DecidableEq T]

/-- The machine of `load_time`. -/
def replayMachine (E : Surroundings) : Machine sys T (Mem T T (Bool × Timespec))
    (Bool × Timespec) :=
  system E id (fun _ => false) fun _ _ p => ∃ retries tp, p = loadTime retries tp

end Protocol

/-! ### Leaving replay -/

section Leave

variable {recs : List SavedTimestamp} {E : Surroundings} {v : View}

/-- The calls of a process that leaves replay. Only the first one, as long as it has
not left, assigns to the block; and a process leaves when everything is in place. -/
def MayLeave (recs : List SavedTimestamp) (isFirst : Prop) (v : View) : Op → Prop
  | .load | .readShared | .munmapStss => True
  | .store f => (f v.proc).sharedSemInitialized = true ∧ (f v.proc).stss = recs ∧
      ((f v.proc).infileSet = false → v.shm.ticks ≠ 0 ∧
        (f v.proc).userFakedTimeTimespec = lastRecord recs ∧
        (f v.proc).ftplStarttime = v.shm.startTime ∧
        (isFirst → AsSeen v.seen v.shm.startTime))
  | .writeShared _ | .realClockGettime _ => isFirst ∧ v.proc.infileSet = true
  | _ => False

/-- A process that is about to leave. -/
structure Replaying (recs : List SavedTimestamp) (v : View) : Prop where
  shared : v.proc.sharedSemInitialized = true
  file : v.proc.stss = recs
  infile : v.proc.infileSet = true

/-- An assignment that concerns neither the file nor the block is always allowed. -/
theorem Replaying.mayStore {isFirst : Prop} (hv : Replaying recs v) {f : Proc → Proc}
    (hshared : (f v.proc).sharedSemInitialized = v.proc.sharedSemInitialized)
    (hfile : (f v.proc).stss = v.proc.stss) (hin : (f v.proc).infileSet = v.proc.infileSet) :
    MayLeave recs isFirst v (.store f) := by
  refine ⟨hshared.trans hv.shared, hfile.trans hv.file, fun h => ?_⟩
  rw [hin, hv.infile] at h
  cases h

theorem mayRead_replaying {isFirst : Prop} (hf : isFirst) :
    MayRead (MayLeave recs isFirst) (Replaying recs) where
  read _ _ h := ⟨hf, h.infile⟩
  store _ _ h := h.mayStore rfl rfl rfl
  seen _ _ h := ⟨h.shared, h.file, h.infile⟩
  start _ _ h := ⟨h.shared, h.file, h.infile⟩

/-- **The hand-over leaves the process and the block with one start time**, which the
first process has read itself. -/
theorem wp_handOver {isFirst : Prop} (hv : Replaying recs v) (hfirst : v.shm.ticks = 0 ↔ isFirst) :
    handOver.Wp (MayLeave recs isFirst) (View.Answers E)
      (fun _ v' => v'.shm.fileIdx = v.shm.fileIdx ∧ v'.shm.ticks ≠ 0 ∧
        v'.proc.ftplStarttime = v'.shm.startTime ∧ (isFirst → AsSeen v'.seen v'.shm.startTime) ∧
        v'.proc = { v.proc with ftplStarttime := v'.proc.ftplStarttime }) v := by
  refine wp_readShared trivial ?_
  split
  next h0 =>
    have hf : isFirst := hfirst.mp h0
    refine wp_writeShared ⟨hf, hv.infile⟩ ?_
    refine (wp_systemTimeFromSystem (mayRead_replaying hf) ?_).bind ?_
    · exact ⟨hv.shared, hv.file, hv.infile⟩
    rintro - v₁ ⟨hshm, hseen, -, hproc⟩
    have hin : v₁.proc.infileSet = true := by rw [hproc]; exact hv.infile
    refine (wp_publishStarttime (J := fun _ => True) trivial trivial
      fun _ _ _ _ => ⟨trivial, hf, hin⟩).mono ?_
    rintro - v₂ rfl
    refine ⟨?_, ?_, rfl, fun _ => hseen, hproc⟩
    · change v₁.shm.fileIdx = _
      rw [hshm]
    · change v₁.shm.ticks ≠ 0
      rw [hshm]
      exact one_ne_zero
  next h0 =>
    refine wp_readShared trivial ⟨hv.mayStore rfl rfl rfl, ?_⟩
    rintro - v₁ rfl
    exact ⟨rfl, h0, rfl, fun hf => absurd (hfirst.mpr hf) h0, rfl⟩

/-- **`load_time` leaves replay with everything in place.** -/
theorem wp_leaveReplay {isFirst : Prop} (hv : Replaying recs v)
    (hfirst : v.shm.ticks = 0 ↔ isFirst) :
    leaveReplay.Wp (MayLeave recs isFirst) (View.Answers E)
      (fun _ v' => v'.shm.fileIdx = v.shm.fileIdx ∧ v'.shm.ticks ≠ 0 ∧
        v'.proc.infileSet = false) v := by
  refine wp_store (hv.mayStore rfl rfl rfl) ?_
  refine (wp_handOver ?_ ?_).bind ?_
  · exact ⟨hv.shared, hv.file, hv.infile⟩
  · exact hfirst
  rintro - v₁ ⟨hidx, hticks, hstart, hseen, hproc⟩
  refine wp_munmapStss trivial ⟨⟨?_, ?_, fun _ => ⟨hticks, ?_, hstart, hseen⟩⟩, ?_⟩
  · rw [hproc]
    exact hv.shared
  · rw [hproc]
    exact hv.file
  · rw [hproc]
    exact congrArg (fun l => timespecFromSaved (List.getLastD l ⟨[], []⟩)) hv.file
  · rintro - v₂ rfl
    exact ⟨hidx, hticks, rfl⟩

end Leave

/-! ### Inside the critical section -/

section Critical

variable [DecidableEq T] {recs : List SavedTimestamp} {E : Surroundings} {t : T} {k : ℕ}
  {m m' : Mem T T (Bool × Timespec)}

/-- Thread `t` holds the semaphore with turn `k`, and nobody has taken one since. -/
structure InTurn (t : T) (k : ℕ) (m : Mem T T (Bool × Timespec)) : Prop where
  holder : m.sem = some t
  turn : m.turns.held t = some k
  next : m.turns.next = k + 1

omit [DecidableEq T] in
theorem InTurn.stable (h : InTurn t k m) (hr : ReplayRely t m m') : InTurn t k m' :=
  ⟨hr.holder.mpr h.holder, hr.turn.trans h.turn,
    (congrArg List.length (hr.alone h.holder).2.1).trans h.next⟩

omit [DecidableEq T] in
/-- Nobody minds what the holder of the semaphore does, as long as it takes no other
turn and leaves the variables of the others alone. -/
theorem guar_of_inTurn (h : InTurn t k m) (hturns : m'.turns = m.turns)
    (hsem : m'.sem = m.sem ∨ m'.sem = none) (hproc : ∀ u, u ≠ t → m'.proc u = m.proc u) :
    (replayProtocol recs).Guar t m m' := by
  intro u hu
  have hne : m.sem ≠ some u := fun hs => hu (Option.some.inj (hs.symm.trans h.holder))
  refine ⟨by rw [hturns], ?_, hproc u hu, fun hs => absurd hs hne⟩
  rcases hsem with hs | hs
  · rw [hs]
  · rw [hs]
    exact iff_of_false (by simp) hne

/-- What the holder of the semaphore knows about the others when it leaves: it is the
first one and nobody else has left, or the first one was somebody else. -/
def Others (recs : List SavedTimestamp) (t : T) (k : ℕ) (m : Mem T T (Bool × Timespec)) : Prop :=
  (k = recs.length ∧ ∀ p, p ≠ t → (m.proc p).infileSet = true) ∨
    (k ≠ recs.length ∧ ∃ t₁, t₁ ≠ t ∧ m.turns.order[recs.length]? = some t₁ ∧
      (m.proc t₁).infileSet = false)

omit [DecidableEq T] in
/-- Under the semaphore only the processes matter. -/
theorem ReplayInv.of_held (hi : ReplayInv recs m) (hsem : m'.sem = some t)
    (hturns : m'.turns = m.turns) (hshared : ∀ p, (m'.proc p).sharedSemInitialized = true)
    (hfile : ∀ p, (m'.proc p).stss = recs)
    (hsettled : ∀ p, (m'.proc p).infileSet = false → Settled recs m' p) : ReplayInv recs m' where
  fair := hturns ▸ hi.fair
  shared := hshared
  file := hfile
  position := fun h => by rw [hsem] at h; cases h
  counter := fun h => by rw [hsem] at h; cases h
  gone := fun h => by rw [hsem] at h; cases h
  settled := hsettled
  served := hturns ▸ hi.served
  passed := hturns ▸ hi.passed
  late := hturns ▸ hi.late

/-- A process assigns its variables. -/
theorem leave_store {f : Proc → Proc} (hi : ReplayInv recs m) (ht : InTurn t k m)
    (ho : Others recs t k m) (hA : MayLeave recs (k = recs.length) (m.view t t) (.store f)) :
    ReplayInv recs (m.assign t f) ∧ Others recs t k (m.assign t f) := by
  obtain ⟨hshared, hfile, hleave⟩ := hA
  have hself : (m.assign t f).proc t = f (m.proc t) := Function.update_self ..
  have hne : ∀ p, p ≠ t → (m.assign t f).proc p = m.proc p := fun p hp =>
    Function.update_of_ne hp ..
  have hothers : Others recs t k (m.assign t f) := by
    rcases ho with ⟨hk, hall⟩ | ⟨hk, t₁, h₁, horder, hleft⟩
    · exact Or.inl ⟨hk, fun p hp => by rw [hne p hp]; exact hall p hp⟩
    · exact Or.inr ⟨hk, t₁, h₁, horder, by rw [hne t₁ h₁]; exact hleft⟩
  refine ⟨hi.of_held ht.holder rfl (fun p => ?_) (fun p => ?_) fun p hp => ?_, hothers⟩
  · rcases eq_or_ne p t with rfl | hpt
    · rw [hself]
      exact hshared
    · rw [hne p hpt]
      exact hi.shared p
  · rcases eq_or_ne p t with rfl | hpt
    · rw [hself]
      exact hfile
    · rw [hne p hpt]
      exact hi.file p
  · rcases eq_or_ne p t with rfl | hpt
    · have hp' := hp
      rw [hself] at hp'
      obtain ⟨hticks, hbase, hstart, hseen⟩ := hleave hp'
      refine ⟨hticks, by rw [hself]; exact hbase, by rw [hself]; exact hstart, ?_⟩
      -- it is the first one to leave, or has taken over what the first one has published
      rcases hothers with ⟨hk, -⟩ | ⟨hk, t₁, h₁, horder, hleft⟩
      · exact ⟨p, hk ▸ hi.fair.taker p k ht.turn, hp, hseen hk⟩
      · obtain ⟨-, -, -, t₂, horder₂, -, hseen₂⟩ :=
          hi.settled t₁ (by rw [hne t₁ h₁] at hleft; exact hleft)
        obtain rfl : t₂ = t₁ := Option.some.inj (horder₂.symm.trans horder)
        exact ⟨t₂, horder, hleft, hseen₂⟩
    · rcases ho with ⟨-, hall⟩ | ⟨hk, t₁, h₁, horder, hleft⟩
      · rw [hne p hpt, hall p hpt] at hp
        cases hp
      · have hp' := hp
        rw [hne p hpt] at hp'
        obtain ⟨hticks, hbase, hstart, t₂, horder₂, hleft₂, hseen₂⟩ := hi.settled p hp'
        obtain rfl : t₂ = t₁ := Option.some.inj (horder₂.symm.trans horder)
        exact ⟨hticks, by rw [hne p hpt]; exact hbase, by rw [hne p hpt]; exact hstart, t₂,
          horder, by rw [hne t₂ h₁]; exact hleft₂, hseen₂⟩

omit [DecidableEq T] in
/-- The first process to leave may do anything to the block, and look at any clock,
before it has left. -/
theorem leave_write (hi : ReplayInv recs m) (ht : InTurn t k m) (ho : Others recs t k m)
    (hA : k = recs.length ∧ (m.proc t).infileSet = true) (d : FtShared)
    (seen : T → ClockId → Option Timespec) (heard : T → Option Reading) :
    ReplayInv recs { m with shm := d, seen := seen, heard := heard } := by
  refine hi.of_held ht.holder rfl hi.shared hi.file fun p hp => ?_
  rcases ho with ⟨-, hall⟩ | ⟨hk, -⟩
  · rcases eq_or_ne p t with rfl | hpt
    · exact absurd (hA.2.symm.trans hp) (by simp)
    · exact absurd ((hall p hpt).symm.trans hp) (by simp)
  · exact absurd hA.1 hk

/-- **A step of a process that leaves replay** keeps the invariant and disturbs
nobody. -/
theorem leave_step {o : Op} {r : o.Ans} (hE : ∀ d d', E.others d d' → d' = d)
    (hA : MayLeave recs (k = recs.length) (m.view t t) o) (hi : ReplayInv recs m)
    (hL : InTurn t k m ∧ Others recs t k m) (h : m.Answers E id t o r m') :
    ReplayInv recs m' ∧ (replayProtocol recs).Guar t m m' ∧
      (InTurn t k m' ∧ Others recs t k m') ∧
      (m.view t t).Answers E o r (m'.view t t) := by
  have hplain : o.Plain := by cases o <;> trivial
  have hview := h.view hE hplain
  obtain ⟨ht, ho⟩ := hL
  cases o with
  | load =>
    obtain ⟨-, rfl⟩ := h
    exact ⟨hi, guar_refl _, ⟨ht, ho⟩, hview⟩
  | readShared =>
    obtain ⟨hd, rfl⟩ := h
    cases hE _ _ hd
    exact ⟨hi, guar_refl _, ⟨ht, ho⟩, hview⟩
  | munmapStss =>
    obtain ⟨-, rfl⟩ := h
    exact ⟨hi, guar_refl _, ⟨ht, ho⟩, hview⟩
  | store f =>
    obtain rfl : m' = m.assign t f := h
    -- the process leaves replay with the last record and the start time of the block
    obtain ⟨hi', ho'⟩ := leave_store hi ht ho hA
    exact ⟨hi', guar_of_inTurn ht rfl (Or.inl rfl) fun u hu => Function.update_of_ne hu ..,
      ⟨⟨ht.holder, ht.turn, ht.next⟩, ho'⟩, hview⟩
  | writeShared g =>
    obtain rfl : m' = { m with shm := g m.shm } := h
    exact ⟨leave_write hi ht ho hA _ _ _, guar_of_inTurn ht rfl (Or.inl rfl) fun _ _ => rfl,
      ⟨⟨ht.holder, ht.turn, ht.next⟩, ho⟩, hview⟩
  | realClockGettime c =>
    obtain ⟨-, rfl⟩ := h
    exact ⟨leave_write hi ht ho hA _ _ _, guar_of_inTurn ht rfl (Or.inl rfl) fun _ _ => rfl,
      ⟨⟨ht.holder, ht.turn, ht.next⟩, ho⟩, hview⟩
  | _ => exact hA.elim

end Critical

/-! ### One call -/

section Call

variable [DecidableEq T] {recs : List SavedTimestamp} {E : Surroundings} {t : T} {k : ℕ}
  {m m' : Mem T T (Bool × Timespec)}

/-- Between two calls a process has neither the semaphore nor a turn. -/
def Outside (t : T) (m : Mem T T (Bool × Timespec)) : Prop :=
  m.turns.held t = none ∧ m.sem ≠ some t

/-- What a call returns: with a turn what the turn is due, and without one nothing, which
happens only in a process that has left replay. -/
def Returned (recs : List SavedTimestamp) (t : T) (r : Bool × Timespec)
    (m : Mem T T (Bool × Timespec)) : Prop :=
  m.sem ≠ some t ∧
    ((m.turns.held t = none ∧ r.1 = false ∧ (m.proc t).infileSet = false) ∨
      ∃ k, m.turns.held t = some k ∧ Delivered recs k r)

omit [DecidableEq T] in
theorem Outside.stable (h : Outside t m) (hr : ReplayRely t m m') : Outside t m' :=
  ⟨hr.turn.trans h.1, fun hs => h.2 (hr.holder.mp hs)⟩

theorem ReplayInv.acquire (hi : ReplayInv recs m) (ht : m.turns.held t = none) :
    ReplayInv recs (m.acquire t) where
  fair := hi.fair.take ht
  shared := hi.shared
  file := hi.file
  position := fun h => nomatch h
  counter := fun h => nomatch h
  gone := fun h => nomatch h
  settled := fun p hp => by
    obtain ⟨hticks, hbase, hstart, t₁, horder, hleft, hseen⟩ := hi.settled p hp
    exact ⟨hticks, hbase, hstart, t₁,
      (List.getElem?_append_left (List.getElem?_eq_some_iff.mp horder).1).trans horder, hleft,
        hseen⟩
  served := hi.served
  passed := hi.passed
  late := fun h =>
    (hi.late h).trans (by rw [Mem.acquire, Turns.take_next]; exact Nat.lt_succ_self _)

theorem guar_acquire_replay (h : m.sem = none) :
    (replayProtocol recs).Guar t m (m.acquire t) := by
  intro u hu
  refine ⟨Turns.take_held_of_ne hu, ?_, rfl, fun hs => ?_⟩
  · rw [h]
    exact iff_of_false (fun hs => hu (Option.some.inj hs).symm) (by simp)
  · rw [h] at hs
    cases hs

theorem inTurn_acquire : InTurn t m.turns.next (m.acquire t) :=
  ⟨rfl, Turns.take_held_self, Turns.take_next⟩

omit [DecidableEq T] in
/-- What has to be in place when the semaphore is released. -/
theorem ReplayInv.release (hi : ReplayInv recs m)
    (hposition : m.shm.fileIdx = min m.turns.next recs.length)
    (hcounter : m.shm.ticks = 0 ↔ m.turns.next ≤ recs.length)
    (hgone : recs.length < m.turns.next →
      ∃ t₁, m.turns.order[recs.length]? = some t₁ ∧ (m.proc t₁).infileSet = false) :
    ReplayInv recs m.release where
  fair := hi.fair
  shared := hi.shared
  file := hi.file
  position := fun _ => hposition
  counter := fun _ => hcounter
  gone := fun _ => hgone
  settled := fun p hp => ⟨(hi.settled p hp).ticks, (hi.settled p hp).base, (hi.settled p hp).start,
    (hi.settled p hp).first⟩
  served := hi.served
  passed := hi.passed
  late := hi.late

/-- The semaphore is released and the call returns. -/
theorem safe_unlock_replay {r : Bool × Timespec} {msg : String} (ht : InTurn t k m)
    (hr : Delivered recs k r)
    (hi : ∀ m₁, ReplayRely t m m₁ → ReplayInv recs m₁ → ReplayInv recs m₁.release) :
    (replayProtocol recs).Safe (replayMachine E) t (fun r m => Returned recs t r m)
      (ftSemUnlock >>= fun b => if b = true then pure r
        else (exit 1 msg >>= fun _ : Unit => pure r)) m := by
  refine safe_ftSemUnlock (fun m₁ h₁ hi₁ => ?_) fun _ => safe_exit_bind
  have ht₁ := ht.stable h₁
  refine ⟨hi m₁ h₁ hi₁, guar_of_inTurn ht₁ rfl (Or.inr rfl) fun _ _ => rfl,
    safe_pure fun m₂ h₂ hi₂ => ⟨fun hs => ?_, Or.inr ⟨k, h₂.turn.trans ht₁.turn, hr⟩⟩⟩
  cases h₂.holder.mp hs

/-- The state of the block when turn `k` begins. -/
theorem ReplayInv.at_turn (hi : ReplayInv recs m) (hs : m.sem = none) :
    m.shm.fileIdx = min m.turns.next recs.length ∧
      (m.shm.ticks = 0 ↔ m.turns.next ≤ recs.length) ∧
      (recs.length ≤ m.turns.next → (m.proc t).infileSet = true →
        Others recs t m.turns.next (m.acquire t)) := by
  refine ⟨hi.position hs, hi.counter hs, fun hle hin => ?_⟩
  rcases hle.eq_or_lt with hk | hlt
  · refine Or.inl ⟨hk.symm, fun p _ => ?_⟩
    by_contra hp
    exact (hi.settled p (eq_false_of_ne_true hp)).ticks ((hi.counter hs).mpr hk.symm.le)
  · obtain ⟨t₁, horder, hleft⟩ := hi.gone hs hlt
    refine Or.inr ⟨hlt.ne', t₁, ?_, (List.getElem?_append_left hlt).trans horder, hleft⟩
    rintro rfl
    exact absurd (hin.symm.trans hleft) (by simp)

/-- A turn beyond the records: the process leaves replay. -/
theorem safe_leave {tp : Timespec} {msg : String} (hE : ∀ d d', E.others d d' → d' = d)
    (ht : InTurn t k m) (ho : Others recs t k m) (hk : recs.length ≤ k)
    (hv : Replaying recs (m.view t t)) (hfirst : m.shm.ticks = 0 ↔ k = recs.length)
    (hidx : m.shm.fileIdx = recs.length) :
    (replayProtocol recs).Safe (replayMachine E) t (fun r m => Returned recs t r m)
      (leaveReplay >>= fun _ => ftSemUnlock >>= fun b => if b = true then pure (false, tp)
        else (exit 1 msg >>= fun _ : Unit => pure (false, tp))) m := by
  have hsafe := Protocol.safe_of_wp (P := replayProtocol recs) (M := replayMachine E) (t := t)
    (V := fun m => m.view t t) (L := fun m => InTurn t k m ∧ Others recs t k m)
    (O := View.Answers E) (m := m) (A := MayLeave recs (k = recs.length)) ?_
    (fun m o r m' hA hi hL h => leave_step hE hA hi hL h)
    (wp_leaveReplay (E := E) hv hfirst) ⟨ht, ho⟩
  · refine hsafe.bind fun _ m₁ hi₁ h₁ => ?_
    obtain ⟨⟨ht₁, -⟩, hidx₁, hticks₁, hleft₁⟩ := h₁
    refine safe_unlock_replay ht₁ (by rw [Delivered, if_neg hk.not_gt]) fun m₂ h₂ hi₂ => ?_
    obtain ⟨hshm, horder, hproc, -⟩ := h₂.alone ht₁.holder
    have hnext : m₂.turns.next = k + 1 := (congrArg List.length horder).trans ht₁.next
    refine hi₂.release ?_ ?_ fun _ => ?_
    · rw [hshm, hnext, Nat.min_eq_right (by omega)]
      exact hidx₁.trans hidx
    · rw [hshm, hnext]
      exact iff_of_false hticks₁ (by omega)
    · obtain ⟨-, -, -, t₁, horder₁, hleft, -⟩ := hi₂.settled t (by rw [hproc]; exact hleft₁)
      exact ⟨t₁, horder₁, hleft⟩
  · rintro m₁ m₂ h₁ hi₂ ⟨ht₁, ho₁⟩
    obtain ⟨hshm, horder, hproc, hseen⟩ := h₁.alone ht₁.holder
    refine ⟨⟨ht₁.stable h₁, ?_⟩, ?_⟩
    · rw [Others, hproc, horder]
      exact ho₁
    · simp only [Mem.view, hshm, hproc, hseen]

/-- A turn within the records: the process gets its record. -/
theorem safe_record {msg : String} (hlen : recs.length < 2 ^ 64) (ht : InTurn t k m)
    (hk : k < recs.length) (hidx : m.shm.fileIdx = k) (hticks : m.shm.ticks = 0) :
    (replayProtocol recs).Safe (replayMachine E) t (fun r m => Returned recs t r m)
      (load >>= fun s => writeShared (fun d => { d with fileIdx := (d.fileIdx + 1) % 2 ^ 64 }) >>=
        fun _ => ftSemUnlock >>= fun b =>
        if b = true then pure (true, timespecFromSaved (s.stss.getD k ⟨[], []⟩))
        else (exit 1 msg >>= fun _ : Unit =>
          pure (true, timespecFromSaved (s.stss.getD k ⟨[], []⟩)))) m := by
  refine safe_load fun m₁ h₁ hi₁ => safe_writeShared fun m₂ h₂ hi₂ => ?_
  have h₂' := (replayProtocol recs).rely_trans t h₁ h₂
  have ht₂ := ht.stable h₂'
  have hshm₂ := (h₂'.alone ht.holder).1
  refine ⟨?_, guar_of_inTurn ht₂ rfl (Or.inl rfl) fun _ _ => rfl, safe_unlock_replay
    ⟨ht₂.holder, ht₂.turn, ht₂.next⟩ ?_ fun m₃ h₃ hi₃ => ?_⟩
  · exact hi₂.of_held ht₂.holder rfl hi₂.shared hi₂.file fun p hp =>
      ⟨(hi₂.settled p hp).ticks, (hi₂.settled p hp).base, (hi₂.settled p hp).start,
        (hi₂.settled p hp).first⟩
  · rw [Delivered, if_pos hk, hi₁.file (id t)]
  · obtain ⟨hshm, horder, hproc, -⟩ := h₃.alone ht₂.holder
    have hnext : m₃.turns.next = k + 1 := (congrArg List.length horder).trans ht₂.next
    refine hi₃.release ?_ ?_ fun hlt => ?_
    · rw [hshm, hnext, Nat.min_eq_left (by omega)]
      change (m₂.shm.fileIdx + 1) % 2 ^ 64 = k + 1
      rw [hshm₂, hidx, Nat.mod_eq_of_lt (by omega)]
    · rw [hshm, hnext]
      exact iff_of_true (by change m₂.shm.ticks = 0; rw [hshm₂, hticks]) (by omega)
    · omega

/-- **A call of `load_time` returns what its turn is due.** The induction is on the
attempts at the semaphore. -/
theorem safe_loadTime (hE : ∀ d d', E.others d d' → d' = d) (hlen : recs.length < 2 ^ 64)
    (n : ℕ) (tp : Timespec) (hw : Outside t m) :
    (replayProtocol recs).Safe (replayMachine E) t (fun r m => Returned recs t r m)
      (loadTime n tp) m := by
  induction n generalizing m with
  | zero => exact safe_stalled
  | succ n ih =>
    refine safe_load fun m₁ h₁ hi₁ => ?_
    have hw₁ := hw.stable h₁
    -- a process that has left replay takes no turn
    cases hin : (m₁.proc t).infileSet with
    | false =>
      rw [if_neg (by simp [hin])]
      exact safe_pure fun m₂ h₂ hi₂ => ⟨fun hs => hw₁.2 (h₂.holder.mp hs),
        Or.inl ⟨h₂.turn.trans hw₁.1, rfl, by rw [h₂.own]; exact hin⟩⟩
    | true =>
      rw [if_pos (by simp [hin, hi₁.shared t])]
      refine safe_ftSemLock (fun m₂ h₂ hi₂ hs₂ => ?_) fun m₂ r h₂ hi₂ hr => ?_
      · have hw₂ := hw₁.stable h₂
        have hin₂ : (m₂.proc t).infileSet = true := by rw [h₂.own]; exact hin
        obtain ⟨hidx, hticks, hothers⟩ := hi₂.at_turn (t := t) hs₂
        refine ⟨hi₂.acquire hw₂.1, guar_acquire_replay hs₂, ?_⟩
        refine safe_readShared hE fun m₃ h₃ hi₃ => ?_
        have ht₃ := inTurn_acquire.stable h₃
        obtain ⟨hshm, horder, hproc, -⟩ := h₃.alone rfl
        generalize hk : m₂.turns.next = k at *
        have hlen₁ : (m₁.proc t).stss.length = recs.length := by rw [hi₁.file t]
        dsimp only [id_eq]
        have hidx₃ : m₃.shm.fileIdx = min k recs.length := by rw [hshm]; exact hidx
        -- the number of the turn is the record, as long as there is one
        rcases Nat.lt_or_ge k recs.length with hlt | hge
        · rw [Nat.min_eq_left hlt.le] at hidx₃
          rw [if_neg (show ¬(m₁.proc t).stss.length ≤ m₃.shm.fileIdx by omega), hidx₃]
          exact safe_record hlen ht₃ hlt hidx₃ (by rw [hshm]; exact hticks.mpr hlt.le)
        · rw [Nat.min_eq_right hge] at hidx₃
          rw [if_pos (show (m₁.proc t).stss.length ≤ m₃.shm.fileIdx by omega)]
          refine safe_leave hE ht₃ ?_ hge ⟨hi₃.shared t, hi₃.file t, ?_⟩ ?_ hidx₃
          · rw [Others, hproc, horder]
            exact hothers hge hin₂
          · change (m₃.proc t).infileSet = true
            rw [hproc]
            exact hin₂
          · rw [hshm]
            exact hticks.trans ⟨fun h => by omega, fun h => by omega⟩
      · cases r with
        | acquired => exact absurd rfl hr
        -- an interrupted call tries again, and has not touched anything
        | interrupted => exact ih (hw₁.stable h₂)
        | failed => exact safe_exit

/-- A call that returns gives its turn back with what it was due. -/
theorem ReplayInv.returned {r : Bool × Timespec} (hi : ReplayInv recs m)
    (hr : Returned recs t r m) : ReplayInv recs (m.returned (fun _ => false) (id t) t r) where
  fair := hi.fair.give
  shared := hi.shared
  file := hi.file
  position := fun h => (hi.position h).trans (by
    change min m.turns.next recs.length = min (m.turns.give t r).next recs.length
    rw [Turns.give_next])
  counter := fun h => (hi.counter h).trans (by
    change m.turns.next ≤ recs.length ↔ (m.turns.give t r).next ≤ recs.length
    rw [Turns.give_next])
  gone := fun h hlt => by
    change recs.length < (m.turns.give t r).next at hlt
    change ∃ t₁, (m.turns.give t r).order[recs.length]? = some t₁ ∧ _
    rw [Turns.give_next] at hlt
    rw [Turns.give_order]
    exact hi.gone h hlt
  settled := fun p hp => by
    obtain ⟨hticks, hbase, hstart, t₁, horder, hleft, hseen⟩ := hi.settled p hp
    refine ⟨hticks, hbase, hstart, t₁, ?_, hleft, hseen⟩
    change (m.turns.give t r).order[recs.length]? = some t₁
    rw [Turns.give_order]
    exact horder
  served := fun e he => by
    change e ∈ (m.turns.give t r).served at he
    rcases hr.2 with ⟨hn, -⟩ | ⟨k, hk, hd⟩
    · rw [Turns.give_served_of_none hn] at he
      exact hi.served e he
    · rw [Turns.give_served_of_some hk, List.mem_append, List.mem_singleton] at he
      rcases he with he | rfl
      · exact hi.served e he
      · exact hd
  passed := fun r' hr' => by
    change r' ∈ (m.turns.give t r).passed at hr'
    rcases hr.2 with ⟨hn, hf, -⟩ | ⟨k, hk, -⟩
    · rw [Turns.give_passed_of_none hn, List.mem_append, List.mem_singleton] at hr'
      rcases hr' with hr' | rfl
      · exact hi.passed r' hr'
      · exact hf
    · rw [Turns.give_passed_of_some hk] at hr'
      exact hi.passed r' hr'
  late := fun h => by
    change (m.turns.give t r).passed ≠ [] at h
    change recs.length < (m.turns.give t r).next
    rw [Turns.give_next]
    rcases hr.2 with ⟨-, -, hleft⟩ | ⟨k, hk, -⟩
    · -- the process has left, so turn `n` is taken
      obtain ⟨t₁, horder, -⟩ := (hi.settled t hleft).first
      exact (List.getElem?_eq_some_iff.mp horder).1
    · rw [Turns.give_passed_of_some hk] at h
      exact hi.late h

/-- **Everything the calls of `load_time` reach**: the invariant, and what a call that is
about to return has in its hands. -/
theorem reach_replayInv (hE : ∀ d d', E.others d d' → d' = d) (hlen : recs.length < 2 ^ 64)
    {m₀ : Mem T T (Bool × Timespec)} (h₀ : ReplayInv recs m₀)
    (hheld : ∀ t, m₀.turns.held t = none) (hsem : m₀.sem = none)
    {s : Pool sys T (Mem T T (Bool × Timespec)) (Bool × Timespec)}
    (hr : (replayMachine E).Reach (Pool.init sys T (Bool × Timespec) m₀) s) :
    ReplayInv recs s.mem ∧
      ∀ t r, s.code t = some (.ret r) → Returned recs t r s.mem := by
  have hrun := Protocol.reach_safe (P := replayProtocol recs) (D := Outside)
    (Q := fun t r m => Returned recs t r m) (fun t m m' hw hr => hw.stable hr)
    (fun t m p hi hw hp => ?_) (fun t r m m' hi hret hm => ?_) hr h₀ fun t => ?_
  · refine ⟨hrun.1, fun t r ht => ?_⟩
    have hsafe := hrun.2 t
    rw [Protocol.Left, ht] at hsafe
    exact hsafe _ ((replayProtocol recs).rely_refl t _) hrun.1
  · obtain ⟨retries, tp, rfl⟩ := hp
    exact safe_loadTime hE hlen retries tp hw
  · obtain rfl : m' = m.returned (fun _ => false) (id t) t r := hm
    refine ⟨hi.returned hret, fun u hu => ⟨Turns.give_held_of_ne hu, Iff.rfl, rfl, fun _ =>
      ⟨rfl, Turns.give_order, rfl, rfl⟩⟩, Turns.give_held_self, hret.1⟩
  · exact ⟨hheld t, by change m₀.sem ≠ _; rw [hsem]; simp⟩

end Call

/-! ### The file of all processes -/

section Main

theorem lastRecord_eq (recs : List SavedTimestamp) :
    lastRecord recs = timespecFromSaved (recs.getD (recs.length - 1) ⟨[], []⟩) := by
  rw [lastRecord, List.getLastD_eq_getLast?, List.getLast?_eq_getElem?, List.getD_eq_getElem?_getD]

variable [DecidableEq T]

/-- **Every record is delivered once, in lock order, and then all go on from one
point.** The processes have opened one file and share a fresh block. Then, in whatever
order their calls of `load_time` are interleaved, turns at the semaphore are given out
fairly; the call with turn `k` returns record `k` if there is one, and `false`
otherwise. A call returns without a turn only in a process that has left replay, so not
before the records are used up and turn `n` is taken, and it returns `false`. Every process
that has left replay holds the last record and the start time of the shared block, which is
what the process with turn `n`, the first one to find the file used up, has read from the
clocks. -/
theorem replay_in_lock_order {E : Surroundings} (hE : ∀ d d', E.others d d' → d' = d)
    {recs : List SavedTimestamp} (hlen : recs.length < 2 ^ 64)
    {m₀ : Mem T T (Bool × Timespec)}
    (hproc : ∀ p, (m₀.proc p).sharedSemInitialized = true ∧ (m₀.proc p).stss = recs ∧
      (m₀.proc p).infileSet = true)
    (hidx : m₀.shm.fileIdx = 0) (hticks : m₀.shm.ticks = 0) (hsem : m₀.sem = none)
    (hturns : m₀.turns = Turns.start T (Bool × Timespec))
    {s : Pool sys T (Mem T T (Bool × Timespec)) (Bool × Timespec)}
    (hr : (replayMachine E).Reach (Pool.init sys T (Bool × Timespec) m₀) s) :
    s.mem.turns.Fair ∧
      (∀ k r, (k, r) ∈ s.mem.turns.served →
        if k < recs.length then r = (true, timespecFromSaved (recs.getD k ⟨[], []⟩))
        else r.1 = false) ∧
      (∀ t r, s.code t = some (.ret r) → s.mem.turns.held t = none →
        r.1 = false ∧ (s.mem.proc t).infileSet = false) ∧
      (∀ r ∈ s.mem.turns.passed, r.1 = false) ∧
      (s.mem.turns.passed ≠ [] → recs.length < s.mem.turns.next) ∧
      ∀ p, (s.mem.proc p).infileSet = false →
        (s.mem.proc p).userFakedTimeTimespec =
            timespecFromSaved (recs.getD (recs.length - 1) ⟨[], []⟩) ∧
          (s.mem.proc p).ftplStarttime = s.mem.shm.startTime ∧
          ∃ t₁, s.mem.turns.order[recs.length]? = some t₁ ∧
            (s.mem.proc t₁).ftplStarttime = s.mem.shm.startTime ∧
            AsSeen (s.mem.seen t₁) s.mem.shm.startTime := by
  have h₀ : ReplayInv recs m₀ := by
    refine ⟨by rw [hturns]; exact Turns.fair_start, fun p => (hproc p).1, fun p => (hproc p).2.1,
      fun _ => ?_, fun _ => ?_, fun _ hlt => ?_, fun p hp => ?_, ?_, ?_, fun h => ?_⟩
    · rw [hidx, hturns]
      exact (Nat.zero_min _).symm
    · rw [hturns]
      exact iff_of_true hticks (Nat.zero_le _)
    · rw [hturns] at hlt
      exact absurd hlt (Nat.not_lt_zero _)
    · exact absurd ((hproc p).2.2.symm.trans hp) (by simp)
    · rw [hturns]
      exact fun e he => nomatch he
    · rw [hturns]
      exact fun r hr => nomatch hr
    · rw [hturns] at h
      exact absurd rfl h
  obtain ⟨hinv, hreturn⟩ := reach_replayInv hE hlen h₀ (fun t => by rw [hturns]; rfl) hsem hr
  refine ⟨hinv.fair, fun k r hkr => hinv.served _ hkr, fun t r ht hheld => ?_, hinv.passed,
    hinv.late, fun p hp => ?_⟩
  · rcases (hreturn t r ht).2 with ⟨-, hreply⟩ | ⟨k, hk, -⟩
    · exact hreply
    · cases hheld.symm.trans hk
  obtain ⟨-, hbase, hstart, t₁, horder, hleft, hseen⟩ := hinv.settled p hp
  exact ⟨hbase.trans (lastRecord_eq recs), hstart, t₁, horder, (hinv.settled t₁ hleft).start, hseen⟩

end Main

/-! ### A file with one record -/

/-- A process that has opened a file with one record, of the hundredth second. -/
def oneRecord : Proc :=
  { Proc.initial with
    sharedSemInitialized := true
    stss := [savedTimestamp ⟨100, 0⟩]
    infileSet := true }

/-- The second of two processes makes two calls: it gets the record, and then it
leaves replay. -/
theorem replay_in_lock_order_two_calls :
    ∃ s : Pool sys (Fin 2) (Mem (Fin 2) (Fin 2) (Bool × Timespec)) (Bool × Timespec),
      (replayMachine anySurroundings).Reach
        (Pool.init sys (Fin 2) (Bool × Timespec) (Mem.fresh oneRecord)) s ∧
      (s.mem.proc 1).infileSet = false ∧
      (s.mem.proc 1).userFakedTimeTimespec = timespecFromSaved (savedTimestamp ⟨100, 0⟩) ∧
      (s.mem.proc 1).ftplStarttime = s.mem.shm.startTime := by
  obtain ⟨m₁, hr₁, hs₁, -⟩ := reach_of_call (id : Fin 2 → Fin 2) (fun _ => false)
    (fun _ _ p => ∃ retries tp, p = loadTime retries tp)
    (s := Pool.init sys (Fin 2) (Bool × Timespec) (Mem.fresh oneRecord)) (t := 1)
    (w := calmWorld (fun _ => none) (fun n _ => ⟨n, 0⟩) ⟨0, 0⟩ oneRecord)
    (anySurroundings_allows _) (Mem.fresh_stands _ _ _ _ _ _) rfl ⟨1, ⟨0, 0⟩, rfl⟩ rfl
  have hs₁' := fun a => hs₁.returned (u := 1) (a := a) fun _ => false
  obtain ⟨m₂, hr₂, hs₂, -⟩ := reach_of_call (id : Fin 2 → Fin 2) (fun _ => false)
    (fun _ _ p => ∃ retries tp, p = loadTime retries tp)
    (s := ⟨_, fun _ => none⟩) (t := 1) (anySurroundings_allows _) (hs₁' _) rfl
    ⟨1, ⟨0, 0⟩, rfl⟩ rfl
  have hleft : (m₂.proc 1).infileSet = false := congrArg Proc.infileSet hs₂.proc
  obtain ⟨-, -, -, -, -, hall⟩ := replay_in_lock_order (E := anySurroundings) (fun _ _ h => h)
    (by simp) (fun _ => ⟨rfl, rfl, rfl⟩) rfl rfl rfl
    rfl (hr₁.trans hr₂)
  obtain ⟨hbase, hstart, -⟩ := hall 1 hleft
  exact ⟨_, hr₁.trans hr₂, hleft, hbase, hstart⟩

end LibFaketime
