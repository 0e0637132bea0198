import Mathlib.Algebra.BigOperators.Group.List.Basic
import Mathlib.Algebra.Order.Ring.Nat

/-!
# A trigger that goes off once

A trigger is shown events one after another. It counts them, up to a cap, and goes off at an
event it is allowed to look at, if that event is due by itself or is the one with a given number,
unless it has gone off before.

That it goes off at most once is plain (`OneShot.sum_trace_of_fired`). Whether it has gone off by
the time the given number is reached is another matter, as the event with that number may be one
it is not allowed to look at (`OneShot.once_iff`).
-/

namespace OneShot

/-- What a trigger is shown. -/
structure Event where
  /-- The trigger is allowed to look at the event. -/
  looks : Bool
  /-- The event is due, whatever its number. -/
  due : Bool

/-- What a trigger remembers. -/
structure Trigger where
  count : ℕ
  fired : Bool
deriving DecidableEq

/-- A trigger that has seen nothing. -/
def Trigger.fresh : Trigger := ⟨0, false⟩

section Trigger

variable (cap target : ℕ)

/-- The number of the next event. -/
def Trigger.upcoming (t : Trigger) : ℕ := min (t.count + 1) cap

/-- The trigger goes off at the next event. -/
def Trigger.fires (t : Trigger) (e : Event) : Bool :=
  e.looks && (!t.fired && (e.due || t.upcoming cap == target))

/-- The trigger after the next event. -/
def Trigger.next (t : Trigger) (e : Event) : Trigger :=
  ⟨t.upcoming cap, t.fired || t.fires cap target e⟩

/-- How often the trigger goes off at each event. -/
def Trigger.trace : Trigger → List Event → List ℕ
  | _, [] => []
  | t, e :: es => (t.fires cap target e).toNat :: (t.next cap target e).trace es

/-- The event with the number `i`, counted from zero, sets off a trigger that has not gone off
before. -/
def Event.SetsOff (i : ℕ) (e : Event) : Prop := e.looks = true ∧ (e.due = true ∨ i + 1 = target)

variable {cap target} {t : Trigger} {e : Event} {es : List Event}

/-- **It does not go off again.** -/
theorem sum_trace_of_fired (h : t.fired = true) (n : ℕ) :
    ((t.trace cap target es).drop n).sum = 0 := by
  have hzero : ∀ k ∈ t.trace cap target es, k = 0 := by
    induction es generalizing t with
    | nil => exact fun k hk => nomatch hk
    | cons e es ih =>
      intro k hk
      have hnext : (t.next cap target e).fired = true := by
        rw [Trigger.next, h, Bool.true_or]
      rcases List.mem_cons.mp hk with rfl | hk
      · rw [Trigger.fires, h, Bool.not_true, Bool.false_and, Bool.and_false, Bool.toNat_false]
      · exact ih hnext k hk
  exact List.sum_eq_zero fun k hk => hzero k (List.mem_of_mem_drop hk)

theorem upcoming_eq (hcount : t.count < cap) : t.upcoming cap = t.count + 1 :=
  Nat.min_eq_left hcount

theorem fires_iff (hfired : t.fired = false) (hcount : t.count < cap) :
    t.fires cap target e = true ↔ e.SetsOff target t.count := by
  rw [Trigger.fires, hfired, upcoming_eq hcount, Event.SetsOff, Bool.and_eq_true, Bool.not_false,
    Bool.true_and, Bool.or_eq_true, beq_iff_eq]

/-- **A trigger goes off once among the first events and not later**, exactly if one of these
sets it off. -/
theorem once_iff_of_count (hfired : t.fired = false) {k : ℕ} (hk : t.count + k = target)
    (hcap : target ≤ cap) (es : List Event) :
    (((t.trace cap target es).take k).sum = 1 ∧ ((t.trace cap target es).drop k).sum = 0) ↔
      ∃ i e, es[i]? = some e ∧ i < k ∧ e.SetsOff target (t.count + i) := by
  induction es generalizing t k with
  | nil => simp [Trigger.trace]
  | cons e es ih =>
    -- with no event left until the target, neither side holds
    rcases k with _ | k
    · simp
    · have hfires : t.fires cap target e = true ↔ e.SetsOff target t.count :=
        fires_iff hfired (by omega)
      rw [Trigger.trace, List.take_succ_cons, List.drop_succ_cons, List.sum_cons]
      cases hf : t.fires cap target e with
      | true =>
        -- it fires now, and so never again
        have hnext : (t.next cap target e).fired = true := by
          rw [Trigger.next, hf, Bool.or_true]
        have hlater : ∀ n, (((t.next cap target e).trace cap target es).drop n).sum = 0 :=
          sum_trace_of_fired hnext
        have hsum := List.sum_take_add_sum_drop ((t.next cap target e).trace cap target es) k
        have hall : ((t.next cap target e).trace cap target es).sum = 0 := hlater 0
        refine iff_of_true ⟨?_, hlater k⟩ ⟨0, e, rfl, Nat.succ_pos k, hfires.mp hf⟩
        rw [Bool.toNat_true]
        omega
      | false =>
        -- it does not, and the events that are left are one step nearer to the target
        have hnext : (t.next cap target e).fired = false := by
          rw [Trigger.next, hfired, hf, Bool.or_false]
        have hcount : (t.next cap target e).count = t.count + 1 := upcoming_eq (by omega)
        rw [Bool.toNat_false, Nat.zero_add, ih hnext (by omega), hcount]
        constructor
        · rintro ⟨i, e', hi, hlt, hset⟩
          exact ⟨i + 1, e', hi, by omega, by rwa [← Nat.add_assoc, Nat.add_right_comm]⟩
        · rintro ⟨i, e', hi, hlt, hset⟩
          rcases i with _ | i
          · cases hi
            rw [hfires.mpr hset] at hf
            cases hf
          · exact ⟨i, e', hi, by omega, by rwa [← Nat.add_assoc, Nat.add_right_comm] at hset⟩

/-- The same of a trigger that has seen nothing. -/
theorem once_iff (hcap : target ≤ cap) (es : List Event) :
    (((Trigger.fresh.trace cap target es).take target).sum = 1 ∧
      ((Trigger.fresh.trace cap target es).drop target).sum = 0) ↔
      ∃ i e, es[i]? = some e ∧ i < target ∧ e.SetsOff target i := by
  have h := once_iff_of_count (t := Trigger.fresh) rfl (Nat.zero_add target) hcap es
  simpa only [Trigger.fresh, Nat.zero_add] using h

end Trigger

end OneShot
