import LibFaketime.Query
import LibFaketime.Setting
import LibFaketime.Solo
import LibFaketime.StartTime

/-!
# Agreement on a start time

Processes that start with one setting agree on the time it starts at: the first of
them to enter the critical section of the initialization reads the clocks and
publishes what it has read, and the others, finding that the start time in the shared
block is set, take it over. The setting is then applied to the common start time, so
all of them compute the same clock.

The programs here are those of `ftpl_really_init`, in processes that have done nothing
yet. What they do outside the critical section concerns nobody else and is the subject
of `LibFaketime.Setting`.
-/

namespace LibFaketime

open Effects Effects.Prog

variable {T : Type}

/-! ### The protocol -/

section Protocol

/-- The first critical section is over: somebody has had the semaphore, and whoever
has it now is not the first. -/
def Over (m : Mem T T Unit) : Prop :=
  1 ≤ m.turns.next ∧ ∀ t, m.sem = some t → m.turns.held t ≠ some 0

/-- The start time is what thread `t` has read from its clocks. -/
def ReadBy (m : Mem T T Unit) (t : T) : Prop :=
  ∀ c, c = .realtime ∨ c = .monotonic ∨ c = .monotonicRaw ∨ c = .boottime →
    m.seen t c = some (m.shm.startTime.of c)

/-- What holds between any two calls. -/
structure JoinInv (B : Build) (fmt setting : CStr) (m : Mem T T Unit) : Prop where
  fair : m.turns.Fair
  header : ftSharedHeaderValid m.shm = true
  unset : m.turns.next = 0 → m.shm.startTimeReal.tvNsec = -1
  first : Over m → m.shm.startTimeReal.tvNsec ≠ -1 ∧
    ∃ t₁, m.turns.order[0]? = some t₁ ∧ ReadBy m t₁
  done : ∀ p, m.ready p = true → Over m ∧ Applied setting (m.proc p) ∧
    ClockIs m.shm.startTime (startBase B fmt setting m.shm.startTime) (rateOf setting) (m.proc p)

/-- What a process can rely on: what is its own stays as it is, it is alone with the
block while it has the semaphore, and once the first section is over the block does not
change. -/
structure JoinRely (t : T) (m m' : Mem T T Unit) : Prop where
  turn : m'.turns.held t = m.turns.held t
  holder : m'.sem = some t ↔ m.sem = some t
  own : m'.proc t = m.proc t ∧ m'.seen t = m.seen t ∧ m'.ready t = m.ready t
  alone : m.sem = some t → m'.shm = m.shm ∧ m'.turns.order = m.turns.order
  past : Over m → Over m' ∧ m'.shm = m.shm

/-- The protocol of the initialization. -/
def joinProtocol (B : Build) (fmt setting : CStr) : Protocol T (Mem T T Unit) where
  inv := JoinInv B fmt setting
  rely := JoinRely
  rely_refl _ _ := ⟨rfl, Iff.rfl, ⟨rfl, rfl, rfl⟩, fun _ => ⟨rfl, rfl⟩, fun h => ⟨h, rfl⟩⟩
  rely_trans _ _ _ _ h h' :=
    ⟨h'.turn.trans h.turn, h'.holder.trans h.holder,
      ⟨h'.own.1.trans h.own.1, h'.own.2.1.trans h.own.2.1, h'.own.2.2.trans h.own.2.2⟩,
      fun hs => ⟨(h'.alone (h.holder.mpr hs)).1.trans (h.alone hs).1,
        (h'.alone (h.holder.mpr hs)).2.trans (h.alone hs).2⟩,
      fun ho => ⟨(h'.past (h.past ho).1).1, (h'.past (h.past ho).1).2.trans (h.past ho).2⟩⟩

variable [DecidableEq T]

/-- The machine of the initialization: each process goes through it once. -/
def joinMachine (B : Build) (E : Surroundings) : Machine sys T (Mem T T Unit) Unit :=
  system E (fun t => t) (fun _ => true) fun t m p => m.ready t = false ∧ p = ftplReallyInit B

end Protocol

/-! ### The first critical section -/

section First

variable {E : Surroundings} {v : View}

/-- What the first process may do: nothing that makes the header invalid. -/
def MayJoin (v : View) : Op → Prop
  | .load | .readShared | .store _ | .realClockGettime _ => True
  | .writeShared g => ftSharedHeaderValid (g v.shm) = true
  | _ => False

/-- The clocks can be read, and their readings are normalized. -/
def ClocksWork (E : Surroundings) : Prop :=
  ∀ c (r : Option Timespec), E.admits (.realClockGettime c) r → ∃ t, r = some t ∧ t.Normal

/-- Every single assignment of a normalized start time leaves a valid header. -/
theorem publishSteps_valid {src : SystemTime} (hreal : src.real.Normal) (hmon : src.mon.Normal)
    (hmonRaw : src.monRaw.Normal) (hboot : src.boot.Normal) :
    ∀ g ∈ publishSteps src, ∀ d, ftSharedHeaderValid d = true →
      ftSharedHeaderValid (g d) = true := by
  intro g hg d hd
  rw [ftSharedHeaderValid_iff] at hd ⊢
  obtain ⟨hm, h1, h2, h3, h4⟩ := hd
  simp only [publishSteps, List.mem_cons, List.not_mem_nil, or_false] at hg
  rcases hg with rfl | rfl | rfl | rfl | rfl | rfl | rfl | rfl
  · exact ⟨hm, h1, h2, h3, h4⟩
  · exact ⟨hm, hreal.stored, h2, h3, h4⟩
  · exact ⟨hm, h1, h2, h3, h4⟩
  · exact ⟨hm, h1, hmon.stored, h3, h4⟩
  · exact ⟨hm, h1, h2, h3, h4⟩
  · exact ⟨hm, h1, h2, hmonRaw.stored, h4⟩
  · exact ⟨hm, h1, h2, h3, h4⟩
  · exact ⟨hm, h1, h2, h3, hboot.stored⟩

/-- **The first process reads the clocks and publishes what it has read**, with a
valid header all the time. -/
theorem wp_publishFirst (hE : ClocksWork E) (hv : ftSharedHeaderValid v.shm = true) :
    setGlobalStarttime.Wp MayJoin (View.Answers E)
      (fun _ v' => v'.shm.startTimeReal.tvNsec ≠ -1 ∧
        (∀ c, c = .realtime ∨ c = .monotonic ∨ c = .monotonicRaw ∨ c = .boottime →
          v'.seen c = some (v'.shm.startTime.of c)) ∧
        v'.proc = { v.proc with ftplStarttime := v'.shm.startTime }) v := by
  refine (wp_systemTimeFromSystem (K := fun _ => True) ⟨fun _ _ _ => trivial,
    fun _ _ _ => trivial, fun _ _ _ => trivial, fun _ _ _ => trivial⟩ trivial).bind ?_
  rintro - v₁ ⟨hshm, hseen, hread, hproc⟩
  obtain ⟨t₁, h₁, hn₁⟩ := hE _ _ (hread .realtime (by simp))
  obtain ⟨t₂, h₂, hn₂⟩ := hE _ _ (hread .monotonic (by simp))
  obtain ⟨t₃, h₃, hn₃⟩ := hE _ _ (hread .monotonicRaw (by simp))
  obtain ⟨t₄, h₄, hn₄⟩ := hE _ _ (hread .boottime (by simp))
  have hs₁ := hseen.real t₁ h₁
  have hs₂ := hseen.mon t₂ h₂
  have hs₃ := hseen.monRaw t₃ h₃
  have hs₄ := hseen.boot t₄ h₄
  have hvalid : ∀ g ∈ publishSteps v₁.proc.ftplStarttime, ∀ d, ftSharedHeaderValid d = true →
      ftSharedHeaderValid (g d) = true :=
    publishSteps_valid (hs₁ ▸ hn₁) (hs₂ ▸ hn₂) (hs₃ ▸ hn₃) (hs₄ ▸ hn₄)
  refine (wp_publishStarttime (J := fun d => ftSharedHeaderValid d = true) trivial
    (by rw [hshm]; exact hv) fun g hg d hd => ⟨hvalid g hg d hd, hvalid g hg d hd⟩).mono ?_
  rintro - v₂ rfl
  refine ⟨?_, ?_, hproc⟩
  · change v₁.proc.ftplStarttime.real.tvNsec ≠ -1
    rw [hs₁]
    have := hn₁.1
    omega
  · rintro c (rfl | rfl | rfl | rfl)
    · exact h₁.trans (congrArg some hs₁.symm)
    · exact h₂.trans (congrArg some hs₂.symm)
    · exact h₃.trans (congrArg some hs₃.symm)
    · exact h₄.trans (congrArg some hs₄.symm)

end First

/-! ### One process -/

section Process

variable [DecidableEq T] {B : Build} {fmt setting : CStr} {E : Surroundings} {t : T} {k : ℕ}
  {m m' : Mem T T Unit}

/-- Thread `t` is in the critical section with turn `k`. -/
structure InSection (t : T) (k : ℕ) (m : Mem T T Unit) : Prop where
  holder : m.sem = some t
  turn : m.turns.held t = some k
  next : m.turns.next = k + 1
  notReady : m.ready t = false

omit [DecidableEq T] in
theorem InSection.stable (h : InSection t k m) (hr : JoinRely t m m') : InSection t k m' :=
  ⟨hr.holder.mpr h.holder, hr.turn.trans h.turn,
    (congrArg List.length (hr.alone h.holder).2).trans h.next, hr.own.2.2.trans h.notReady⟩

omit [DecidableEq T] in
/-- Only the first section is not over while it lasts. -/
theorem InSection.over_iff (h : InSection t k m) : Over m ↔ k ≠ 0 := by
  constructor
  · rintro ⟨-, hne⟩ rfl
    exact hne t h.holder h.turn
  · intro hk
    refine ⟨by have := h.next; omega, fun u hu hheld => hk ?_⟩
    obtain rfl : t = u := Option.some.inj (h.holder.symm.trans hu)
    exact Option.some.inj (h.turn.symm.trans hheld)

omit [DecidableEq T] in
/-- The others do not mind what the holder of the semaphore does to itself, nor what
the first one does to the block. -/
theorem guar_of_inSection (h : InSection t k m) (hturns : m'.turns = m.turns)
    (hsem : m'.sem = m.sem ∨ m'.sem = none)
    (hown : ∀ u, u ≠ t → m'.proc u = m.proc u ∧ m'.seen u = m.seen u)
    (hready : m'.ready = m.ready) (hshm : k = 0 ∨ m'.shm = m.shm) :
    (joinProtocol B fmt setting).Guar t m m' := by
  intro u hu
  have hne : m.sem ≠ some u := fun hs => hu (Option.some.inj (hs.symm.trans h.holder))
  refine ⟨by rw [hturns], ?_, ⟨(hown u hu).1, (hown u hu).2, by rw [hready]⟩,
    fun hs => absurd hs hne, fun ho => ?_⟩
  · rcases hsem with hs | hs
    · rw [hs]
    · rw [hs]
      exact iff_of_false (by simp) hne
  · refine ⟨⟨by rw [hturns]; exact ho.1, fun w hw => ?_⟩, ?_⟩
    · rcases hsem with hs | hs
      · rw [hturns]
        exact ho.2 w (hs ▸ hw)
      · rw [hs] at hw
        cases hw
    · exact hshm.resolve_left (h.over_iff.mp ho)

omit [DecidableEq T] in
/-- In the first section nobody is ready and nothing is known about the block but that
its header is valid. -/
theorem JoinInv.of_first (hi : JoinInv B fmt setting m) (h : InSection t 0 m)
    (hturns : m'.turns = m.turns) (hsem : m'.sem = m.sem) (hready : m'.ready = m.ready)
    (hvalid : ftSharedHeaderValid m'.shm = true) : JoinInv B fmt setting m' := by
  have hnot : ¬Over m := fun ho => h.over_iff.mp ho rfl
  have hnot' : ¬Over m' := by
    rw [Over, hturns, hsem]
    exact hnot
  refine ⟨hturns ▸ hi.fair, hvalid, fun hn => ?_, fun ho => absurd ho hnot', fun p hp => ?_⟩
  · rw [hturns, h.next] at hn
    cases hn
  · exact absurd (hi.done p (hready ▸ hp)).1 hnot

/-- **A step of the first process in its section.** -/
theorem first_step {o : Op} {r : o.Ans} (hE : ∀ d d', E.others d d' → d' = d)
    (hA : MayJoin (m.view t t) o) (hi : JoinInv B fmt setting m) (hL : InSection t 0 m)
    (h : m.Answers E (fun t => t) t o r m') :
    JoinInv B fmt setting m' ∧ (joinProtocol B fmt setting).Guar t m m' ∧ InSection t 0 m' ∧
      (m.view t t).Answers E o r (m'.view t t) := by
  have hview := h.view hE (by cases o <;> trivial)
  cases o with
  | load =>
    obtain ⟨-, rfl⟩ := h
    exact ⟨hi, guar_refl _, hL, hview⟩
  | readShared =>
    obtain ⟨hd, rfl⟩ := h
    cases hE _ _ hd
    exact ⟨hi, guar_refl _, hL, hview⟩
  | store f =>
    obtain rfl : m' = m.assign t f := h
    exact ⟨hi.of_first hL rfl rfl rfl hi.header, guar_of_inSection hL rfl (Or.inl rfl)
      (fun u hu => ⟨Function.update_of_ne hu .., rfl⟩) rfl (Or.inl rfl),
      ⟨hL.holder, hL.turn, hL.next, hL.notReady⟩, hview⟩
  | writeShared g =>
    obtain rfl : m' = { m with shm := g m.shm } := h
    exact ⟨hi.of_first hL rfl rfl rfl hA, guar_of_inSection hL rfl (Or.inl rfl)
      (fun _ _ => ⟨rfl, rfl⟩) rfl (Or.inl rfl), ⟨hL.holder, hL.turn, hL.next, hL.notReady⟩, hview⟩
  | realClockGettime c =>
    obtain ⟨-, rfl⟩ := h
    exact ⟨hi.of_first hL rfl rfl rfl hi.header, guar_of_inSection hL rfl (Or.inl rfl)
      (fun u hu => ⟨rfl, Function.update_of_ne hu ..⟩) rfl (Or.inl rfl),
      ⟨hL.holder, hL.turn, hL.next, hL.notReady⟩, hview⟩
  | _ => exact hA.elim

/-- Between the critical section and the end: the start time of the process is that of
the block. -/
structure Joining (fmt : CStr) (t : T) (m : Mem T T Unit) : Prop where
  outside : m.sem ≠ some t
  past : Over m
  notReady : m.ready t = false
  fresh : Fresh fmt (m.proc t)
  start : (m.proc t).ftplStarttime = m.shm.startTime

theorem JoinInv.acquire (hi : JoinInv B fmt setting m) (hs : m.sem = none)
    (ht : m.turns.held t = none) : JoinInv B fmt setting (m.acquire t) := by
  have hnext : (m.acquire t).turns.next = m.turns.next + 1 := Turns.take_next
  have hover : Over (m.acquire t) → Over m := by
    rintro ⟨-, h⟩
    refine ⟨Nat.one_le_iff_ne_zero.mpr fun h0 => h t rfl ?_, fun u hu => ?_⟩
    · exact Turns.take_held_self.trans (congrArg some h0)
    · rw [hs] at hu
      cases hu
  have hover' : Over m → Over (m.acquire t) := by
    rintro ⟨h1, -⟩
    refine ⟨by omega, ?_⟩
    rintro u hu hheld
    obtain rfl : t = u := Option.some.inj hu
    have := Option.some.inj (Turns.take_held_self.symm.trans hheld)
    omega
  refine ⟨hi.fair.take ht, hi.header, fun h0 => by omega, fun ho => ?_, fun p hp => ?_⟩
  · obtain ⟨hne, t₁, horder, hread⟩ := hi.first (hover ho)
    exact ⟨hne, t₁,
      (List.getElem?_append_left (List.getElem?_eq_some_iff.mp horder).1).trans horder, hread⟩
  · exact ⟨hover' (hi.done p hp).1, (hi.done p hp).2⟩

theorem guar_acquire_join (h : m.sem = none) :
    (joinProtocol B fmt setting).Guar t m (m.acquire t) := by
  intro u hu
  refine ⟨Turns.take_held_of_ne hu, ?_, ⟨rfl, rfl, rfl⟩, fun hs => ?_, fun ho => ⟨⟨?_, ?_⟩, rfl⟩⟩
  · rw [h]
    exact iff_of_false (fun hs => hu (Option.some.inj hs).symm) (by simp)
  · rw [h] at hs
    cases hs
  · have := ho.1
    rw [Mem.acquire, Turns.take_next]
    omega
  · rintro w hw hheld
    obtain rfl : t = w := Option.some.inj hw
    have h0 := Option.some.inj (Turns.take_held_self.symm.trans hheld)
    have := ho.1
    omega

omit [DecidableEq T] in
/-- The semaphore is released with the first section over. -/
theorem JoinInv.release (hi : JoinInv B fmt setting m) (h : InSection t k m)
    (hfirst : m.shm.startTimeReal.tvNsec ≠ -1 ∧
      ∃ t₁, m.turns.order[0]? = some t₁ ∧ ReadBy m t₁) :
    JoinInv B fmt setting m.release ∧ Over m.release := by
  have hover : Over m.release := ⟨by have := h.next; change 1 ≤ m.turns.next; omega, nofun⟩
  refine ⟨⟨hi.fair, hi.header, fun h0 => ?_, fun _ => hfirst, fun p hp =>
    ⟨hover, (hi.done p hp).2⟩⟩, hover⟩
  change m.turns.next = 0 at h0
  have := h.next
  omega

omit [DecidableEq T] in
theorem Joining.stable (h : Joining fmt t m) (hr : JoinRely t m m') : Joining fmt t m' := by
  obtain ⟨hover, hshm⟩ := hr.past h.past
  exact ⟨fun hs => h.outside (hr.holder.mp hs), hover, hr.own.2.2.trans h.notReady,
    hr.own.1 ▸ h.fresh, by rw [hr.own.1, hshm]; exact h.start⟩

omit [DecidableEq T] in
theorem Fresh.withStart {s : Proc} (h : Fresh fmt s) (start : SystemTime) :
    Fresh fmt { s with ftplStarttime := start } :=
  ⟨h.shared, h.faking, h.noRate, h.noTick, h.saved, h.noCache, h.format⟩

/-- The end of the critical section. -/
theorem safe_leaveSection {msg : String} (h : InSection t k m) (hf : Fresh fmt (m.proc t))
    (hstart : (m.proc t).ftplStarttime = m.shm.startTime)
    (hfirst : ∀ m₁, JoinRely t m m₁ → JoinInv B fmt setting m₁ →
      m₁.shm.startTimeReal.tvNsec ≠ -1 ∧ ∃ t₁, m₁.turns.order[0]? = some t₁ ∧ ReadBy m₁ t₁) :
    (joinProtocol B fmt setting).Safe (joinMachine B E) t (fun _ m => Joining fmt t m)
      (ftSemUnlock >>= fun b => if b = true then pure () else exit 1 msg) m := by
  refine safe_ftSemUnlock (fun m₁ h₁ hi₁ => ?_) fun _ => safe_exit
  have hs₁ := h.stable h₁
  obtain ⟨hi, hover⟩ := hi₁.release hs₁ (hfirst m₁ h₁ hi₁)
  refine ⟨hi, guar_of_inSection hs₁ rfl (Or.inr rfl) (fun _ _ => ⟨rfl, rfl⟩) rfl (Or.inr rfl),
    safe_pure fun m₂ h₂ hi₂ => Joining.stable ?_ h₂⟩
  refine ⟨nofun, hover, hs₁.notReady, h₁.own.1 ▸ hf, ?_⟩
  change (m₁.proc t).ftplStarttime = m₁.shm.startTime
  rw [h₁.own.1, (h₁.alone h.holder).1]
  exact hstart

/-- **The processes agree on a start time.** The first one publishes what it has read,
and every other one finds the start time set. -/
theorem safe_agreeOnStarttime (hE : ∀ d d', E.others d d' → d' = d) (hclocks : ClocksWork E)
    (hheld : m.turns.held t = none) (hready : m.ready t = false) (hf : Fresh fmt (m.proc t)) :
    (joinProtocol B fmt setting).Safe (joinMachine B E) t (fun _ m => Joining fmt t m)
      agreeOnStarttime m := by
  refine safe_load fun m₁ h₁ hi₁ => ?_
  have hshared : (m₁.proc t).sharedSemInitialized = true := by rw [h₁.own.1]; exact hf.shared
  rw [if_pos hshared]
  refine safe_ftSemLock (fun m₂ h₂ hi₂ hs₂ => ?_) fun m₂ r h₂ hi₂ hr => ?_
  · have h₂' := (joinProtocol B fmt setting).rely_trans t h₁ h₂
    have hheld₂ : m₂.turns.held t = none := h₂'.turn.trans hheld
    refine ⟨hi₂.acquire hs₂ hheld₂, guar_acquire_join hs₂, ?_⟩
    have hsec : InSection t m₂.turns.next (m₂.acquire t) :=
      ⟨rfl, Turns.take_held_self, Turns.take_next, h₂'.own.2.2.trans hready⟩
    have hf₂ : Fresh fmt (m₂.proc t) := h₂'.own.1 ▸ hf
    refine safe_readShared hE fun m₃ h₃ hi₃ => ?_
    have hsec₃ := hsec.stable h₃
    have hf₃ : Fresh fmt (m₃.proc t) := h₃.own.1 ▸ hf₂
    have hshm₃ : m₃.shm = m₂.shm := (h₃.alone rfl).1
    -- under the lock the number of the turn says whether somebody has been here before
    rcases Nat.eq_zero_or_pos m₂.turns.next with hk | hk
    · -- the first one: nothing has been published
      rw [hk] at hsec₃
      rw [if_pos (by rw [hshm₃]; exact hi₂.unset hk)]
      have hsafe := Protocol.safe_of_wp (P := joinProtocol B fmt setting) (M := joinMachine B E)
        (t := t) (V := fun m => m.view t t) (L := InSection t 0) (O := View.Answers E)
        (m := m₃) (A := MayJoin) ?_ (fun m o r m' hA hi hL h => first_step hE hA hi hL h)
        (wp_publishFirst hclocks hi₃.header) hsec₃
      · refine hsafe.bind fun _ m₄ hi₄ h₄ => ?_
        obtain ⟨hsec₄, hne, hread, hproc⟩ := h₄
        refine safe_leaveSection hsec₄ ?_ ?_ fun m₅ h₅ hi₅ => ?_
        · change Fresh fmt (m₄.view t t).proc
          rw [hproc]
          exact hf₃.withStart _
        · exact congrArg Proc.ftplStarttime hproc
        · obtain ⟨hshm, horder⟩ := h₅.alone hsec₄.holder
          refine ⟨by rw [hshm]; exact hne, t,
            by rw [horder]; exact hi₄.fair.taker t 0 hsec₄.turn, ?_⟩
          intro c hc
          rw [h₅.own.2.1, hshm]
          exact hread c hc
      · intro m₄ m₅ h₅ hi₅ hL
        refine ⟨hL.stable h₅, ?_⟩
        simp only [Mem.view, (h₅.alone hL.holder).1, h₅.own.1, h₅.own.2.1]
    · -- the start time is set already
      have hover : Over m₃ := hsec₃.over_iff.mpr (by omega)
      obtain ⟨hne, t₁, horder, hread⟩ := hi₃.first hover
      rw [if_neg hne]
      refine safe_readShared hE fun m₄ h₄ hi₄ => safe_store fun m₅ h₅ hi₅ => ?_
      have h₅' := (joinProtocol B fmt setting).rely_trans t h₄ h₅
      have hsec₅ := hsec₃.stable h₅'
      have hover₅ : Over m₅ := (h₅'.past hover).1
      have hready₅ := hsec₅.notReady
      have hsec₅' : InSection t m₂.turns.next (m₅.assign t
          fun s => { s with ftplStarttime := m₄.shm.startTime }) :=
        ⟨hsec₅.holder, hsec₅.turn, hsec₅.next, hsec₅.notReady⟩
      refine ⟨⟨hi₅.fair, hi₅.header, hi₅.unset, hi₅.first, fun p hp => ?_⟩,
        guar_of_inSection hsec₅ rfl (Or.inl rfl)
          (fun u hu => ⟨Function.update_of_ne hu .., rfl⟩) rfl (Or.inr rfl),
        safe_leaveSection hsec₅' ?_ ?_ fun m₆ h₆ hi₆ => ?_⟩
      · refine ⟨hover₅, ?_⟩
        have hpt : p ≠ t := by
          rintro rfl
          exact absurd (hready₅.symm.trans hp) (by simp)
        rw [Mem.assign_proc_of_ne hpt]
        exact (hi₅.done p hp).2
      · rw [Mem.assign_proc_self]
        exact (h₅'.own.1 ▸ hf₃).withStart _
      · rw [Mem.assign_proc_self]
        exact congrArg FtShared.startTime (h₅.past (h₄.past hover).1).2.symm
      · exact hi₆.first ((hsec₅'.stable h₆).over_iff.mpr (by omega))
  · cases r with
    | acquired => exact absurd rfl hr
    | interrupted => exact safe_exit
    | failed => exact safe_exit

/-! ### Outside the critical section -/

/-- What a process does on its own, before the section or after it, is seen by nobody:
it is described on a view without the shared block. -/
theorem private_step {o : Op} {r : o.Ans} (hA : Private (m.view t t) o)
    (hi : JoinInv B fmt setting m) (hs : m.sem ≠ some t) (hready : m.ready t = false)
    (h : m.Answers E (fun t => t) t o r m') (d : FtShared) :
    (JoinInv B fmt setting m' ∧ (joinProtocol B fmt setting).Guar t m m') ∧
      (m'.turns = m.turns ∧ m'.sem = m.sem ∧ m'.ready = m.ready ∧ m'.shm = m.shm) ∧
      View.Answers E ⟨d, m.proc t, m.seen t⟩ o r ⟨d, m'.proc t, m'.seen t⟩ := by
  have hsame : ∀ {m' : Mem T T Unit}, m' = m →
      (JoinInv B fmt setting m' ∧ (joinProtocol B fmt setting).Guar t m m') ∧
        (m'.turns = m.turns ∧ m'.sem = m.sem ∧ m'.ready = m.ready ∧ m'.shm = m.shm) := by
    rintro m' rfl
    exact ⟨⟨hi, guar_refl _⟩, rfl, rfl, rfl, rfl⟩
  cases o with
  | load =>
    obtain ⟨rfl, rfl⟩ := h
    exact ⟨(hsame rfl).1, (hsame rfl).2, rfl, rfl⟩
  | store f =>
    obtain rfl : m' = m.assign t f := h
    refine ⟨⟨⟨hi.fair, hi.header, hi.unset, hi.first, fun p hp => ?_⟩, fun u hu => ?_⟩,
      ⟨rfl, rfl, rfl, rfl⟩, ?_⟩
    · have hpt : p ≠ t := by
        rintro rfl
        exact absurd (hready.symm.trans hp) (by simp)
      rw [Mem.assign_proc_of_ne hpt]
      exact hi.done p hp
    · exact ⟨rfl, Iff.rfl, ⟨Function.update_of_ne hu .., rfl, rfl⟩, fun _ => ⟨rfl, rfl⟩,
        fun ho => ⟨ho, rfl⟩⟩
    · simp [View.Answers, Mem.assign]
  | setDontFake b =>
    obtain rfl : m' = _ := h
    refine ⟨⟨⟨hi.fair, hi.header, hi.unset, hi.first, hi.done⟩, fun u hu => ?_⟩,
      ⟨rfl, rfl, rfl, rfl⟩, rfl⟩
    exact ⟨rfl, Iff.rfl, ⟨rfl, rfl, rfl⟩, fun _ => ⟨rfl, rfl⟩, fun ho => ⟨ho, rfl⟩⟩
  | getenv x => exact ⟨(hsame h.2).1, (hsame h.2).2, h.1, by rw [h.2]⟩
  | openSave path => exact ⟨(hsame h.2).1, (hsame h.2).2, h.1, by rw [h.2]⟩
  | mapLoad path => exact ⟨(hsame h.2).1, (hsame h.2).2, h.1, by rw [h.2]⟩
  | ftShmInit => exact ⟨(hsame h.2).1, (hsame h.2).2, h.1, by rw [h.2]⟩
  | exit code msg => exact Empty.elim r
  | _ => exact hA.elim

/-- A local fact that only the critical section affects. -/
structure Lasting (t : T) (K : Mem T T Unit → Prop) : Prop where
  stable : ∀ m m', JoinRely t m m' → K m → K m'
  frame : ∀ m m', m'.turns = m.turns → m'.sem = m.sem → m'.shm = m.shm → K m → K m'

/-- The rule of private programs. -/
theorem safe_private {β : Type} {p : Sys β} {Q : β → View → Prop} {K : Mem T T Unit → Prop}
    (hK : Lasting t K) (d : FtShared) (hs : m.sem ≠ some t) (hready : m.ready t = false) (hm : K m)
    (hp : p.Wp Private (View.Answers E) Q ⟨d, m.proc t, m.seen t⟩) :
    (joinProtocol B fmt setting).Safe (joinMachine B E) t
      (fun a m => (m.sem ≠ some t ∧ m.ready t = false ∧ K m) ∧ Q a ⟨d, m.proc t, m.seen t⟩)
      p m := by
  refine Protocol.safe_of_wp (P := joinProtocol B fmt setting) (M := joinMachine B E) (t := t)
    (V := fun m => (⟨d, m.proc t, m.seen t⟩ : View)) (O := View.Answers E) (m := m) (A := Private)
    (L := fun m => m.sem ≠ some t ∧ m.ready t = false ∧ K m) ?_ ?_ hp ⟨hs, hready, hm⟩
  · rintro m₁ m₂ h hi ⟨hs, hr, hm⟩
    refine ⟨⟨fun h' => hs (h.holder.mp h'), h.own.2.2.trans hr, hK.stable _ _ h hm⟩, ?_⟩
    rw [h.own.1, h.own.2.1]
  · rintro m₁ o r m₂ hA hi ⟨hs, hr, hm⟩ h
    obtain ⟨⟨hi', hg⟩, ⟨hturns, hsem, hready, hshm⟩, hv⟩ := private_step hA hi hs hr h d
    exact ⟨hi', hg, ⟨by rw [hsem]; exact hs, by rw [hready]; exact hr,
      hK.frame _ _ hturns hsem hshm hm⟩, hv⟩

omit [DecidableEq T] in
theorem lasting_noTurn : Lasting t fun m => m.turns.held t = none where
  stable _ _ h hm := h.turn.trans hm
  frame _ _ hturns _ _ hm := by rw [hturns]; exact hm

omit [DecidableEq T] in
theorem lasting_over (d : FtShared) : Lasting t fun m => Over m ∧ m.shm = d where
  stable _ _ h hm := ⟨(h.past hm.1).1, (h.past hm.1).2.trans hm.2⟩
  frame _ _ hturns hsem hshm hm := by
    refine ⟨?_, hshm.trans hm.2⟩
    rw [Over, hturns, hsem]
    exact hm.1

/-- A process at the end of its initialization. -/
structure Joined (B : Build) (fmt setting : CStr) (t : T) (m : Mem T T Unit) : Prop where
  outside : m.sem ≠ some t
  past : Over m
  applied : Applied setting (m.proc t)
  clock : ClockIs m.shm.startTime (startBase B fmt setting m.shm.startTime) (rateOf setting)
    (m.proc t)

/-- **The initialization of a process**, among others. -/
theorem safe_ftplReallyInit (hE : ∀ d d', E.others d d' → d' = d) (hclocks : ClocksWork E)
    (hpermit : Admitted E B fmt) (hset : Common E setting) (hs : m.sem ≠ some t)
    (hheld : m.turns.held t = none) (hready : m.ready t = false) (hproc : m.proc t = Proc.initial) :
    (joinProtocol B fmt setting).Safe (joinMachine B E) t (fun _ m => Joined B fmt setting t m)
      (ftplReallyInit B) m := by
  have hinit : (setDontFake true).Wp Private (View.Answers E)
      (fun _ v' => v'.proc = Proc.initial) ⟨.created, m.proc t, m.seen t⟩ := by
    refine ⟨trivial, ?_⟩
    rintro - v' rfl
    exact hproc
  refine (safe_private lasting_noTurn .created hs hready hheld hinit).bind ?_
  rintro - m₁ - ⟨⟨hs₁, hr₁, hh₁⟩, h₁⟩
  refine (safe_private lasting_noTurn .created hs₁ hr₁ hh₁ (wp_readSettings hpermit h₁)).bind ?_
  rintro - m₂ - ⟨⟨hs₂, hr₂, hh₂⟩, h₂⟩
  refine (safe_private lasting_noTurn .created hs₂ hr₂ hh₂ (wp_skipCmds hpermit)).bind ?_
  rintro skipped m₃ - ⟨⟨hs₃, hr₃, hh₃⟩, rfl, h₃⟩
  refine (safe_private lasting_noTurn .created hs₃ hr₃ hh₃ (wp_onlyCmds hpermit)).bind ?_
  rintro excluded m₄ - ⟨⟨hs₄, hr₄, hh₄⟩, rfl, h₄⟩
  have hf₄ : Fresh (m₄.proc t).userFakedTimeFmt (m₄.proc t) := by
    have hproc₄ : m₄.proc t = m₂.proc t := congrArg View.proc (h₄.trans h₃)
    rw [hproc₄]
    exact h₂
  refine (safe_private lasting_noTurn .created hs₄ hr₄ hh₄
    (wp_readLimitsAndFiles hpermit hf₄)).bind ?_
  rintro - m₅ - ⟨⟨hs₅, hr₅, hh₅⟩, hf₅⟩
  refine (safe_agreeOnStarttime hE hclocks hh₅ hr₅ hf₅).bind ?_
  rintro - m₆ - h₆
  refine (safe_private (lasting_over m₆.shm) .created h₆.outside h₆.notReady ⟨h₆.past, rfl⟩
    (wp_firstSetting h₆.fresh hset)).bind ?_
  rintro - m₇ - ⟨⟨hs₇, hr₇, hover₇, hshm₇⟩, happ₇, hclock₇⟩
  have hlast : (setDontFake (false || false)).Wp Private (View.Answers E)
      (fun _ v' => v'.proc = m₇.proc t) ⟨.created, m₇.proc t, m₇.seen t⟩ := by
    refine ⟨trivial, ?_⟩
    rintro - v' rfl
    rfl
  refine (safe_private (lasting_over m₆.shm) .created hs₇ hr₇ ⟨hover₇, hshm₇⟩ hlast).mono ?_
  rintro - m₈ - ⟨⟨hs₈, -, hover₈, hshm₈⟩, hlast₈⟩
  have hproc₈ : m₈.proc t = m₇.proc t := hlast₈
  rw [h₆.start, ← hshm₈] at hclock₇
  exact ⟨hs₈, hover₈, hproc₈ ▸ happ₇, hproc₈ ▸ hclock₇⟩

end Process

/-! ### All processes -/

section Main

variable [DecidableEq T] {B : Build} {fmt setting : CStr} {E : Surroundings}

omit [DecidableEq T] in
/-- A process that is ready once more processes are. -/
theorem Over.returned {m : Mem T T Unit} [DecidableEq T] {t : T} (h : Over m)
    (hs : m.sem ≠ some t) : Over (m.returned (fun _ => true) t t ()) := by
  refine ⟨?_, fun u hu => ?_⟩
  · change 1 ≤ (m.turns.give t ()).next
    rw [Turns.give_next]
    exact h.1
  · have hut : u ≠ t := by
      rintro rfl
      exact hs hu
    change (m.turns.give t ()).held u ≠ some 0
    rw [Turns.give_held_of_ne hut]
    exact h.2 u hu

/-- A process becomes ready. -/
theorem JoinInv.returned {m : Mem T T Unit} {t : T} (hi : JoinInv B fmt setting m)
    (h : Joined B fmt setting t m) :
    JoinInv B fmt setting (m.returned (fun _ => true) t t ()) where
  fair := hi.fair.give
  header := hi.header
  unset := fun h0 => by
    change (m.turns.give t ()).next = 0 at h0
    rw [Turns.give_next] at h0
    exact hi.unset h0
  first := fun _ => by
    obtain ⟨hne, t₁, horder, hread⟩ := hi.first h.past
    refine ⟨hne, t₁, ?_, hread⟩
    change (m.turns.give t ()).order[0]? = some t₁
    rw [Turns.give_order]
    exact horder
  done := fun p hp => by
    refine ⟨h.past.returned h.outside, ?_⟩
    rcases eq_or_ne p t with rfl | hpt
    · exact ⟨h.applied, h.clock⟩
    · have hready : m.ready p = true := by
        change Function.update m.ready t true p = true at hp
        rwa [Function.update_of_ne hpt] at hp
      exact (hi.done p hready).2

/-- What a process is when no initialization of it is running. -/
structure Idle (t : T) (m : Mem T T Unit) : Prop where
  outside : m.sem ≠ some t
  noTurn : m.turns.held t = none
  initial : m.ready t = false → m.proc t = Proc.initial

/-- **Everything the initializations reach.** -/
theorem reach_joinInv (hE : ∀ d d', E.others d d' → d' = d) (hclocks : ClocksWork E)
    (hpermit : Admitted E B fmt) (hset : Common E setting) {m₀ : Mem T T Unit}
    (h₀ : JoinInv B fmt setting m₀) (hidle : ∀ t, Idle t m₀)
    {s : Pool sys T (Mem T T Unit) Unit}
    (hr : (joinMachine B E).Reach (Pool.init sys T Unit m₀) s) : JoinInv B fmt setting s.mem := by
  refine (Protocol.reach_safe (P := joinProtocol B fmt setting) (D := Idle)
    (Q := fun t _ m => Joined B fmt setting t m) ?_ ?_ ?_ hr h₀ hidle).1
  · intro t m m' hm h
    refine ⟨fun hs => hm.outside (h.holder.mp hs), h.turn.trans hm.noTurn, fun hready => ?_⟩
    rw [h.own.2.2] at hready
    exact h.own.1.trans (hm.initial hready)
  · rintro t m p hi hm ⟨hready, rfl⟩
    exact safe_ftplReallyInit hE hclocks hpermit hset hm.outside hm.noTurn hready
      (hm.initial hready)
  · rintro t - m m' hi hj rfl
    refine ⟨hi.returned hj, fun u hu => ?_, hj.outside, Turns.give_held_self, fun hready => ?_⟩
    · exact ⟨Turns.give_held_of_ne hu, Iff.rfl, ⟨rfl, rfl, Function.update_of_ne hu ..⟩,
        fun _ => ⟨rfl, Turns.give_order⟩, fun ho => ⟨ho.returned hj.outside, rfl⟩⟩
    · change Function.update m.ready t true t = false at hready
      rw [Function.update_self] at hready
      cases hready

/-- The clock that a start time, a base and a rate make. -/
def commonTime (start : SystemTime) (base : Timespec) (rate : Option ℚ) (clkId : ClockId)
    (tp : Timespec) : Timespec :=
  let scale := fun t => match rate with
    | some r => timespecmul t r
    | none => t
  if clkId.IsCpu then scale tp
  else timespecadd base (scale (timespecsub tp (start.of clkId)))

theorem ClockIs.fakeTime_eq {start : SystemTime} {base : Timespec} {rate : Option ℚ} {s : Proc}
    (h : ClockIs start base rate s) (clkId : ClockId) (tp : Timespec) :
    s.fakeTime clkId tp = commonTime start base rate clkId tp := by
  rw [← h.rate_eq, ← h.start_eq, ← h.base_eq]
  unfold Proc.fakeTime commonTime Proc.startAt
  cases s.userRateSet <;> rfl

/-- **Processes that start together agree on the start time.** They share a fresh block
and have one setting that starts a clock without resetting it. Then, in whatever order
their initializations are interleaved, the header of the block is valid in every state;
every process that is ready has the start time of the block, which is what the first
process in the critical section has read from the four clocks; and there is one clock
that all of them report, as long as the setting stays in the environment. -/
theorem processes_agree_on_start (hE : ∀ d d', E.others d d' → d' = d) (hclocks : ClocksWork E)
    (hpermit : Admitted E B fmt) (hset : Common E setting) {m₀ : Mem T T Unit}
    (hproc : ∀ p, m₀.proc p = Proc.initial) (hshm : m₀.shm = .created) (hsem : m₀.sem = none)
    (hready : ∀ p, m₀.ready p = false) (hturns : m₀.turns = Turns.start T Unit)
    {s : Pool sys T (Mem T T Unit) Unit}
    (hr : (joinMachine B E).Reach (Pool.init sys T Unit m₀) s) :
    ftSharedHeaderValid s.mem.shm = true ∧
      (∀ p, s.mem.ready p = true → (s.mem.proc p).ftplStarttime = s.mem.shm.startTime ∧
        ∃ t₁, s.mem.turns.order[0]? = some t₁ ∧
          ∀ c, c = .realtime ∨ c = .monotonic ∨ c = .monotonicRaw ∨ c = .boottime →
            s.mem.seen t₁ c = some (s.mem.shm.startTime.of c)) ∧
      ∃ clock : ClockId → Timespec → Timespec, ∀ p, s.mem.ready p = true →
        ∀ w : World, w.proc = s.mem.proc p → Steady B setting w → ∀ clkId tp, tp.Normal →
          (fakeClockGettime B clkId tp).Runs seq w fun r w' =>
            r = (0, clock clkId tp) ∧ Like w w' := by
  have h₀ : JoinInv B fmt setting m₀ := by
    refine ⟨by rw [hturns]; exact Turns.fair_start, by rw [hshm]; decide,
      fun _ => by rw [hshm]; rfl, fun ho => ?_, fun p hp => ?_⟩
    · have := ho.1
      rw [hturns] at this
      exact absurd this (Nat.not_succ_le_zero 0)
    · exact absurd ((hready p).symm.trans hp) (by simp)
  have hidle : ∀ t, Idle t m₀ := fun t =>
    ⟨by rw [hsem]; simp, by rw [hturns]; rfl, fun _ => hproc t⟩
  have hinv := reach_joinInv hE hclocks hpermit hset h₀ hidle hr
  refine ⟨hinv.header, fun p hp => ?_, ?_⟩
  · obtain ⟨hover, -, hclock⟩ := hinv.done p hp
    exact ⟨hclock.start_eq, (hinv.first hover).2⟩
  · refine ⟨commonTime s.mem.shm.startTime (startBase B fmt setting s.mem.shm.startTime)
      (rateOf setting), fun p hp w hw hsteady clkId tp htp => ?_⟩
    -- the clock is a function of the start time, the base and the rate, which all of them share
    obtain ⟨-, happ, hclock⟩ := hinv.done p hp
    obtain ⟨-, h1, h2, h3, h4⟩ := ftSharedHeaderValid_iff.mp hinv.header
    rw [← hw] at happ hclock
    have hhead : setting.head? ≠ some '%' := by
      rcases hset.keepsStart with h | h | ⟨h, -⟩ <;> rw [h] <;> decide
    have hserves := hsteady.serves hclock.startAt hclock.noTick happ.fromEnv hhead happ.saved
    have hstored : w.proc.TimesStored := by
      refine ⟨by rw [hclock.base_eq]; exact stored_startBase h1, fun c => ?_⟩
      rw [hclock.start_eq]
      cases c <;> assumption
    rw [← hclock.fakeTime_eq]
    exact runs_fakeClockGettime hserves hstored htp

end Main

/-! ### A start at a date -/

/-- The surroundings of a process that starts at a date. -/
theorem startAtSurroundings_admitted :
    ClocksWork (calmSurroundings startAtEnv (fun n _ => ⟨n, 0⟩) ⟨0, 0⟩) ∧
    Admitted (calmSurroundings startAtEnv (fun n _ => ⟨n, 0⟩) ⟨0, 0⟩) epochBuild
      "%Y-%m-%d %T".toList ∧
    Common (calmSurroundings startAtEnv (fun n _ => ⟨n, 0⟩) ⟨0, 0⟩)
      "@1970-01-01 00:01:40".toList := by
  refine ⟨?_, ⟨?_, ?_, ?_, ?_, ?_⟩, ?_, Or.inr (Or.inr ⟨rfl, ?_⟩), fun _ => by decide⟩
  · rintro c r ⟨n, h⟩
    cases h
    exact ⟨_, rfl, show (0 : ℤ) ≤ 0 by decide, show (0 : ℤ) < 1000000000 by decide⟩
  · rintro r ⟨n, h⟩
    cases h
    exact Or.inl rfl
  · rintro b ⟨n, h⟩
    cases h
    rfl
  · rintro cmds ⟨n, h⟩
    cases h
  · rintro cmds ⟨n, h⟩
    cases h
  · rintro r ⟨n, h⟩
    cases h
    rfl
  · rintro r ⟨n, h⟩
    cases h
    rfl
  · rintro r ⟨n, h⟩
    cases h
    rfl

/-- One process starts on a fresh block and another one on the block it leaves. Both are then able
to answer. -/
theorem runs_ftplReallyInit_twice : ∃ w₁ w₂ : World,
    (ftplReallyInit epochBuild).run seq
      (calmWorld startAtEnv (fun n _ => ⟨n, 0⟩) ⟨0, 0⟩ Proc.initial) = .ok ((), w₁) ∧
    (ftplReallyInit epochBuild).run seq
      { calmWorld startAtEnv (fun n _ => ⟨n, 0⟩) ⟨0, 0⟩ Proc.initial with shm := w₁.shm } =
        .ok ((), w₂) ∧
    w₁.semHeld = false ∧ Steady epochBuild "@1970-01-01 00:01:40".toList w₁ ∧
      Steady epochBuild "@1970-01-01 00:01:40".toList w₂ := by
  refine ⟨_, _, rfl, rfl, rfl, ?_, ?_⟩
  all_goals
    refine ⟨rfl, ⟨fun n => ⟨_, rfl⟩, fun _ => rfl, fun _ => rfl, fun _ _ => ⟨_, rfl⟩⟩,
      by decide, rfl, rfl, rfl, fun h => ?_, fun _ => rfl, none, none, fun _ => rfl, fun _ => rfl,
      fun v h => by cases h⟩
    cases h

/-- The second of two processes starts first, and the first one takes its start time over. They
answer a query alike. -/
theorem processes_agree_on_start_second_first :
    ∃ s : Pool sys (Fin 2) (Mem (Fin 2) (Fin 2) Unit) Unit,
      (joinMachine epochBuild (calmSurroundings startAtEnv (fun n _ => ⟨n, 0⟩) ⟨0, 0⟩)).Reach
        (Pool.init sys (Fin 2) Unit (Mem.fresh Proc.initial)) s ∧
      ftSharedHeaderValid s.mem.shm = true ∧
      (∀ p, s.mem.ready p = true ∧ (s.mem.proc p).ftplStarttime = s.mem.shm.startTime) ∧
      ∃ tp, ∀ p, ∃ w : World, w.proc = s.mem.proc p ∧
        (fakeClockGettime epochBuild .realtime ⟨50, 0⟩).Runs seq w fun r _ => r = (0, tp) := by
  have hworld := fun t : Fin 2 => Mem.fresh_stands (α := Unit) (fun t : Fin 2 => t) t Proc.initial
    startAtEnv (fun n _ => ⟨n, 0⟩) ⟨0, 0⟩
  have hallows := calmSurroundings_allows startAtEnv (fun n _ => ⟨n, 0⟩) ⟨0, 0⟩ Proc.initial
  obtain ⟨w₁, w₂, hrun₁, hrun₂, hfree, hsteady₁, hsteady₂⟩ := runs_ftplReallyInit_twice
  obtain ⟨m₁, hr₁, hs₁, hap₁⟩ := reach_of_call (fun t : Fin 2 => t) (fun _ => true)
    (fun t m p => m.ready t = false ∧ p = ftplReallyInit epochBuild)
    (s := Pool.init sys (Fin 2) Unit (Mem.fresh Proc.initial)) (t := 1) hallows (hworld 1) rfl
    ⟨rfl, rfl⟩ hrun₁
  have hready₁ : (m₁.returned (fun _ => true) 1 1 ()).ready 0 = false :=
    (Mem.returned_ready_of_ne (by decide)).trans (congrFun hap₁.ready 0)
  obtain ⟨m₂, hr₂, hs₂, hap₂⟩ := reach_of_call (fun t : Fin 2 => t) (fun _ => true)
    (fun t m p => m.ready t = false ∧ p = ftplReallyInit epochBuild)
    (s := ⟨m₁.returned (fun _ => true) 1 1 (), fun _ => none⟩) (t := 0)
    (w := { calmWorld startAtEnv (fun n _ => ⟨n, 0⟩) ⟨0, 0⟩ Proc.initial with shm := w₁.shm })
    (hallows.of_eq rfl rfl)
    (((hworld 0).apart hs₁ hap₁ (by decide) hfree rfl).returned fun _ => true) rfl
    ⟨hready₁, rfl⟩ hrun₂
  obtain ⟨hclocks, hpermit, hset⟩ := startAtSurroundings_admitted
  obtain ⟨hvalid, hstart, clock, hclock⟩ := processes_agree_on_start (fun _ _ h => h) hclocks
    hpermit hset (fun _ => rfl) rfl rfl (fun _ => rfl) rfl (hr₁.trans hr₂)
  have hready : ∀ p, (m₂.returned (fun _ => true) 0 0 ()).ready p = true := by
    intro p
    obtain rfl | rfl : p = 0 ∨ p = 1 := by omega
    · exact Mem.returned_ready_self rfl
    · have hready₁ : (m₁.returned (fun _ => true) 1 1 ()).ready 1 = true :=
        Mem.returned_ready_self rfl
      exact (Mem.returned_ready_of_ne (by decide)).trans ((congrFun hap₂.ready 1).trans hready₁)
  refine ⟨_, hr₁.trans hr₂, hvalid, fun p => ⟨hready p, (hstart p (hready p)).1⟩,
    clock .realtime ⟨50, 0⟩, fun p => ?_⟩
  obtain ⟨w, hw, hsteady⟩ : ∃ w : World,
      w.proc = m₂.proc p ∧ Steady epochBuild "@1970-01-01 00:01:40".toList w := by
    obtain rfl | rfl : p = 0 ∨ p = 1 := by omega
    · exact ⟨w₂, hs₂.proc.symm, hsteady₂⟩
    · exact ⟨w₁, hs₁.proc.symm.trans (hap₂.proc 1 (by decide)).symm, hsteady₁⟩
  exact ⟨w, hw, (hclock p (hready p) w hw hsteady .realtime ⟨50, 0⟩ (by decide)).mono
    fun _ _ h => h.1⟩

end LibFaketime
