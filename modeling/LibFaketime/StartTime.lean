import LibFaketime.IntTime
import LibFaketime.System

/-!
# Reading and publishing a start time

What `system_time_from_system` and `system_time_to_shared` do in a critical section,
on the view of the thread that runs them (`LibFaketime.View`): the first one leaves in
the process the readings the thread has just made (`LibFaketime.AsSeen`), the second one
copies them to the shared block, in eight assignments (`LibFaketime.publishSteps`).
-/

namespace LibFaketime

open Effects Effects.Prog

/-! ### Reading the clocks -/

/-- **The start time is what was read from the clocks**, those that could be read. -/
structure AsSeen (seen : ClockId → Option Timespec) (s : SystemTime) : Prop where
  real : ∀ v, seen .realtime = some v → s.real = v
  mon : ∀ v, seen .monotonic = some v → s.mon = v
  monRaw : ∀ v, seen .monotonicRaw = some v → s.monRaw = v
  boot : ∀ v, seen .boottime = some v → s.boot = v

section Read

variable {E : Surroundings} {A : View → Op → Prop} {K : View → Prop} {v : View}

/-- The assignment `readClock` makes after a reading. -/
def setStart (set : Timespec → SystemTime → SystemTime) (r : Option Timespec) (s : SystemTime) :
    SystemTime :=
  match r with
  | some t => set t s
  | none => s

/-- A fact about the view that allows the start time to be read, and does not depend
on it. -/
structure MayRead (A : View → Op → Prop) (K : View → Prop) : Prop where
  read : ∀ v c, K v → A v (.realClockGettime c)
  store : ∀ v (f : SystemTime → SystemTime), K v →
    A v (.store fun s => { s with ftplStarttime := f s.ftplStarttime })
  seen : ∀ v seen, K v → K { v with seen := seen }
  start : ∀ v start, K v → K { v with proc := { v.proc with ftplStarttime := start } }

theorem wp_readClock {c : ClockId} {set : Timespec → SystemTime → SystemTime}
    (hA : MayRead A K) (hK : K v) :
    (readClock c set).Wp A (View.Answers E) (fun _ v' => K v' ∧ ∃ r : Option Timespec,
      E.admits (.realClockGettime c) r ∧ v' = { v with
        seen := Function.update v.seen c r
        proc := { v.proc with ftplStarttime := setStart set r v.proc.ftplStarttime } }) v := by
  refine ⟨hA.read v c hK, ?_⟩
  rintro r v₁ ⟨hr, rfl⟩
  have hK₁ := hA.seen v (Function.update v.seen c r) hK
  cases r with
  | none => exact ⟨hK₁, none, hr, rfl⟩
  | some t =>
    refine ⟨hA.store _ _ hK₁, ?_⟩
    rintro - v₂ rfl
    exact ⟨hA.start _ _ hK₁, some t, hr, rfl⟩

/-- **`system_time_from_system` leaves what it has read**, and changes nothing but
the start time. -/
theorem wp_systemTimeFromSystem (hA : MayRead A K) (hK : K v) :
    systemTimeFromSystem.Wp A (View.Answers E) (fun _ v' => v'.shm = v.shm ∧
      AsSeen v'.seen v'.proc.ftplStarttime ∧
      (∀ c, c = .realtime ∨ c = .monotonic ∨ c = .monotonicRaw ∨ c = .boottime →
        E.admits (.realClockGettime c) (v'.seen c)) ∧
      v'.proc = { v.proc with ftplStarttime := v'.proc.ftplStarttime }) v := by
  refine (wp_readClock hA hK).bind ?_
  rintro - v₁ ⟨hK₁, r₁, h₁, rfl⟩
  refine (wp_readClock hA hK₁).bind ?_
  rintro - v₂ ⟨hK₂, r₂, h₂, rfl⟩
  refine (wp_readClock hA hK₂).bind ?_
  rintro - v₃ ⟨hK₃, r₃, h₃, rfl⟩
  refine (wp_readClock hA hK₃).mono ?_
  rintro - v₄ ⟨-, r₄, h₄, rfl⟩
  refine ⟨rfl, ⟨?_, ?_, ?_, ?_⟩, ?_, rfl⟩
  · rintro v hv
    obtain rfl : r₁ = some v := hv
    cases r₂ <;> cases r₃ <;> cases r₄ <;> rfl
  · rintro v hv
    obtain rfl : r₂ = some v := hv
    cases r₃ <;> cases r₄ <;> rfl
  · rintro v hv
    obtain rfl : r₃ = some v := hv
    cases r₄ <;> rfl
  · rintro v hv
    obtain rfl : r₄ = some v := hv
    rfl
  · rintro c (rfl | rfl | rfl | rfl)
    exacts [h₁, h₂, h₃, h₄]

end Read

/-! ### Publishing -/

/-- The assignments of `system_time_to_shared`, in their order. -/
def publishSteps (src : SystemTime) : List (FtShared → FtShared) :=
  [fun d => { d with startTimeReal.tvSec := src.real.tvSec },
    fun d => { d with startTimeReal.tvNsec := src.real.tvNsec },
    fun d => { d with startTimeMon.tvSec := src.mon.tvSec },
    fun d => { d with startTimeMon.tvNsec := src.mon.tvNsec },
    fun d => { d with startTimeMonRaw.tvSec := src.monRaw.tvSec },
    fun d => { d with startTimeMonRaw.tvNsec := src.monRaw.tvNsec },
    fun d => { d with startTimeBoot.tvSec := src.boot.tvSec },
    fun d => { d with startTimeBoot.tvNsec := src.boot.tvNsec }]

/-- The block with a start time in it. -/
def FtShared.withStart (d : FtShared) (s : SystemTime) : FtShared :=
  { d with
    startTimeReal := s.real
    startTimeMon := s.mon
    startTimeMonRaw := s.monRaw
    startTimeBoot := s.boot }

@[simp] theorem FtShared.startTime_withStart (d : FtShared) (s : SystemTime) :
    (d.withStart s).startTime = s := rfl

section Publish

variable {E : Surroundings} {A : View → Op → Prop} {v : View}

/-- Some assignments to the block, one after the other. -/
def writeSteps : List (FtShared → FtShared) → Sys Unit
  | [] => pure ()
  | g :: gs => do
    writeShared g
    writeSteps gs

theorem systemTimeToShared_eq (src : SystemTime) :
    systemTimeToShared src = writeSteps (publishSteps src) := rfl

/-- A sequence of assignments each of which is allowed wherever the ones before it
lead. -/
theorem wp_writeSteps {J : FtShared → Prop} (gs : List (FtShared → FtShared))
    (hJ : J v.shm) (h : ∀ g ∈ gs, ∀ d, J d → J (g d) ∧ A { v with shm := d } (.writeShared g)) :
    (writeSteps gs).Wp A (View.Answers E)
      (fun _ v' => v' = { v with shm := gs.foldl (fun d g => g d) v.shm }) v := by
  induction gs generalizing v with
  | nil => rfl
  | cons g gs ih =>
    obtain ⟨hJ', hA⟩ := h g (List.mem_cons_self ..) v.shm hJ
    refine ⟨hA, ?_⟩
    rintro - v₁ rfl
    exact ih (v := { v with shm := g v.shm }) hJ' fun g' hg' d hd =>
      h g' (List.mem_cons_of_mem _ hg') d hd

/-- **`system_time_to_shared` copies the start time of the process.** -/
theorem wp_publishStarttime {J : FtShared → Prop} (hload : A v .load) (hJ : J v.shm)
    (h : ∀ g ∈ publishSteps v.proc.ftplStarttime, ∀ d, J d →
      J (g d) ∧ A { v with shm := d } (.writeShared g)) :
    publishStarttime.Wp A (View.Answers E)
      (fun _ v' => v' = { v with shm := v.shm.withStart v.proc.ftplStarttime }) v := by
  refine ⟨hload, ?_⟩
  rintro s v₁ ⟨rfl, rfl⟩
  exact wp_writeSteps (publishSteps v₁.proc.ftplStarttime) hJ h

end Publish

end LibFaketime
