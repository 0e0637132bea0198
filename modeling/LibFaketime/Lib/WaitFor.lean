import Mathlib.Logic.Relation
import Mathlib.Order.WellFounded

/-!
# Who waits for whom

Threads hold locks and wait for locks. If the locks have ranks, and nobody waits for a lock unless
its rank is above that of every lock they hold, then waiting goes upwards, and as there is no way up
that does not end, there is no circle of threads each waiting for the next
(`WaitFor.State.Ordered.acyclic`), and above any thread that has to wait there is one that holds a
lock and does not have to (`WaitFor.State.Ordered.exists_free`).

How the locks are taken and released does not matter here: this is about a single state.
-/

namespace WaitFor

variable {T L R : Type}

/-- The locks and the threads in a single state. -/
structure State (T L : Type) where
  /-- Who holds a lock. -/
  holder : L → Option T
  /-- The lock a thread asks for. -/
  wants : T → Option L

namespace State

variable {s : State T L} {t u : T}

/-- `t` asks for a lock that `u` holds. -/
def WaitsFor (s : State T L) (t u : T) : Prop := ∃ l, s.wants t = some l ∧ s.holder l = some u

/-- `t` asks for a lock that somebody holds. -/
def Blocked (s : State T L) (t : T) : Prop := ∃ u, s.WaitsFor t u

/-- **The order of the locks is kept**: nobody asks for a lock that is not above all they hold. -/
def Ordered [LT R] (s : State T L) (rank : L → R) : Prop :=
  ∀ t l l', s.wants t = some l → s.holder l' = some t → rank l' < rank l

section Ordered

variable [Preorder R] {rank : L → R}

/-- A chain of waiting threads goes up. -/
theorem Ordered.rank_lt_of_transGen (h : s.Ordered rank) (hw : Relation.TransGen s.WaitsFor t u) :
    ∃ l l', s.wants t = some l ∧ s.holder l' = some u ∧ (rank l = rank l' ∨ rank l < rank l') := by
  induction hw with
  | single hw =>
    obtain ⟨l, ht, hu⟩ := hw
    exact ⟨l, l, ht, hu, Or.inl rfl⟩
  | tail _ hw ih =>
    obtain ⟨l, l', ht, hu, hle⟩ := ih
    obtain ⟨l₂, hu₂, hv⟩ := hw
    have hlt : rank l' < rank l₂ := h _ l₂ l' hu₂ hu
    refine ⟨l, l₂, ht, hv, Or.inr ?_⟩
    rcases hle with heq | hl
    · exact heq ▸ hlt
    · exact hl.trans hlt

/-- **Nobody waits for themselves**, not even through others. -/
theorem Ordered.acyclic (h : s.Ordered rank) : ¬ Relation.TransGen s.WaitsFor t t := by
  intro hw
  obtain ⟨l, l', ht, ht', hle⟩ := h.rank_lt_of_transGen hw
  have hlt : rank l' < rank l := h t l l' ht ht'
  rcases hle with heq | hl
  · exact absurd hlt (heq ▸ lt_irrefl _)
  · exact lt_asymm hl hlt

/-- **Where somebody has to wait, somebody who holds a lock does not have to.** The induction goes
up the ranks. -/
theorem Ordered.exists_free [WellFoundedGT R] (h : s.Ordered rank) (hb : s.Blocked t) :
    ∃ u, (∃ l, s.holder l = some u) ∧ ¬ s.Blocked u := by
  obtain ⟨u, l, -, hu⟩ := hb
  generalize hr : rank l = r
  induction r using WellFoundedGT.induction generalizing u l with
  | ind r ih =>
    by_cases hub : s.Blocked u
    · obtain ⟨v, l', hul, hv⟩ := hub
      exact ih (rank l') (hr ▸ h u l' l hul hu) v l' hv rfl
    · exact ⟨u, ⟨l, hu⟩, hub⟩

end Ordered

end State

end WaitFor
