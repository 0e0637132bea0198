import Mathlib.Data.List.Nodup
import Mathlib.Logic.Function.Basic

/-!
# Turns

The book kept over a lock: turns are numbered in the order in which they are taken,
each is held by the one who took it, and it is given back with a result. Nothing
here says who may take a turn when; `Turns.Fair` is what the numbering guarantees
whatever happens – no number is given out twice, and none is lost.

The book is auxiliary: a program whose state is extended by it does what it did
before, but *the `k`-th one to enter* becomes something that can be spoken of.
-/

/-- Turns taken by members of `T`, and the results they were given back with. -/
structure Turns (T α : Type) where
  /-- Who took a turn, in the order of the turns. -/
  order : List T
  /-- The turn somebody holds. -/
  held : T → Option ℕ
  /-- The turns that were given back, and their results. -/
  served : List (ℕ × α)
  /-- The results of those who came back without having taken a turn. -/
  passed : List α

namespace Turns

variable {T α : Type} [DecidableEq T] {q : Turns T α} {t : T} {a : α}

/-- The empty book. -/
def start (T α : Type) : Turns T α := ⟨[], fun _ => none, [], []⟩

/-- The number of the next turn. -/
def next (q : Turns T α) : ℕ := q.order.length

/-- `t` takes the next turn. -/
def take (q : Turns T α) (t : T) : Turns T α :=
  { q with order := q.order ++ [t], held := Function.update q.held t (some q.next) }

/-- `t` comes back with a result. -/
def give (q : Turns T α) (t : T) (a : α) : Turns T α :=
  match q.held t with
  | some k => { q with held := Function.update q.held t none, served := q.served ++ [(k, a)] }
  | none => { q with passed := q.passed ++ [a] }

/-- The numbers of the turns given back. -/
def numbers (q : Turns T α) : List ℕ := q.served.map Prod.fst

/-- **No turn is given out twice and none is lost.** -/
structure Fair (q : Turns T α) : Prop where
  taker : ∀ t k, q.held t = some k → q.order[k]? = some t
  served_lt : ∀ k ∈ q.numbers, k < q.next
  nodup : q.numbers.Nodup
  disjoint : ∀ t k, q.held t = some k → k ∉ q.numbers
  total : ∀ k < q.next, (∃ t, q.held t = some k) ∨ k ∈ q.numbers

omit [DecidableEq T] in
theorem Fair.held_lt (hq : q.Fair) {k : ℕ} (h : q.held t = some k) : k < q.next :=
  (List.getElem?_eq_some_iff.mp (hq.taker t k h)).1

omit [DecidableEq T] in
theorem Fair.held_inj (hq : q.Fair) {u : T} {k : ℕ} (h : q.held t = some k)
    (h' : q.held u = some k) : t = u :=
  Option.some.inj ((hq.taker t k h).symm.trans (hq.taker u k h'))

omit [DecidableEq T] in
theorem fair_start : (start T α).Fair where
  taker := by intro t k h; cases h
  served_lt := by intro k h; cases h
  nodup := List.nodup_nil
  disjoint := by intro t k h; cases h
  total := by intro k h; exact absurd h (Nat.not_lt_zero k)

@[simp] theorem take_order : (q.take t).order = q.order ++ [t] := rfl

@[simp] theorem take_next : (q.take t).next = q.next + 1 := List.length_append

@[simp] theorem take_held_self : (q.take t).held t = some q.next := Function.update_self ..

theorem take_held_of_ne {u : T} (h : u ≠ t) : (q.take t).held u = q.held u :=
  Function.update_of_ne h ..

@[simp] theorem take_served : (q.take t).served = q.served := rfl

@[simp] theorem take_numbers : (q.take t).numbers = q.numbers := rfl

@[simp] theorem take_passed : (q.take t).passed = q.passed := rfl

@[simp] theorem give_order : (q.give t a).order = q.order := by
  unfold give
  cases q.held t <;> rfl

@[simp] theorem give_next : (q.give t a).next = q.next := by rw [next, give_order, next]

theorem give_held_of_ne {u : T} (h : u ≠ t) : (q.give t a).held u = q.held u := by
  unfold give
  cases q.held t with
  | none => rfl
  | some k => exact Function.update_of_ne h ..

@[simp] theorem give_held_self : (q.give t a).held t = none := by
  unfold give
  cases h : q.held t with
  | none => exact h
  | some k => exact Function.update_self ..

theorem give_served_of_some {k : ℕ} (h : q.held t = some k) :
    (q.give t a).served = q.served ++ [(k, a)] := by
  unfold give
  rw [h]

theorem give_served_of_none (h : q.held t = none) : (q.give t a).served = q.served := by
  unfold give
  rw [h]

theorem give_passed_of_some {k : ℕ} (h : q.held t = some k) :
    (q.give t a).passed = q.passed := by
  unfold give
  rw [h]

theorem give_passed_of_none (h : q.held t = none) :
    (q.give t a).passed = q.passed ++ [a] := by
  unfold give
  rw [h]

/-- Taking a turn is fair, for one who holds none. -/
theorem Fair.take (hq : q.Fair) (h : q.held t = none) : (q.take t).Fair where
  taker := by
    intro u k hu
    rcases eq_or_ne u t with rfl | hne
    · rw [take_held_self, Option.some.injEq] at hu
      rw [take_order, ← hu, next, List.getElem?_concat_length]
    · rw [take_held_of_ne hne] at hu
      rw [take_order, List.getElem?_append_left (hq.held_lt hu)]
      exact hq.taker u k hu
  served_lt := by
    intro k hk
    rw [take_next]
    exact Nat.lt_succ_of_lt (hq.served_lt k hk)
  nodup := hq.nodup
  disjoint := by
    intro u k hu hk
    rcases eq_or_ne u t with rfl | hne
    · rw [take_held_self, Option.some.injEq] at hu
      have := hq.served_lt k hk
      omega
    · rw [take_held_of_ne hne] at hu
      exact hq.disjoint u k hu hk
  total := by
    intro k hk
    rw [take_next] at hk
    rcases Nat.lt_succ_iff_lt_or_eq.mp hk with hlt | rfl
    · rcases hq.total k hlt with ⟨u, hu⟩ | hs
      · refine Or.inl ⟨u, ?_⟩
        rwa [take_held_of_ne]
        rintro rfl
        rw [h] at hu
        cases hu
      · exact Or.inr hs
    · exact Or.inl ⟨t, take_held_self⟩

/-- Coming back is fair, with or without a turn. -/
theorem Fair.give (hq : q.Fair) : (q.give t a).Fair := by
  cases h : q.held t with
  | none =>
    have hg : q.give t a = { q with passed := q.passed ++ [a] } := by
      unfold Turns.give
      rw [h]
    rw [hg]
    exact ⟨hq.taker, hq.served_lt, hq.nodup, hq.disjoint, hq.total⟩
  | some k =>
    have hn : (q.give t a).numbers = q.numbers ++ [k] := by
      rw [numbers, give_served_of_some h, List.map_append]
      rfl
    -- the number that is given back was held by nobody else
    have hheld : ∀ {u j}, (q.give t a).held u = some j → u ≠ t ∧ q.held u = some j := by
      intro u j hu
      rcases eq_or_ne u t with rfl | hne
      · rw [give_held_self] at hu
        cases hu
      · rw [give_held_of_ne hne] at hu
        exact ⟨hne, hu⟩
    refine ⟨fun u j hu => ?_, fun j hj => ?_, ?_, fun u j hu hj => ?_, fun j hj => ?_⟩
    · rw [give_order]
      exact hq.taker u j (hheld hu).2
    · rw [hn, List.mem_append, List.mem_singleton] at hj
      rw [give_next]
      rcases hj with hj | rfl
      · exact hq.served_lt j hj
      · exact hq.held_lt h
    · rw [hn, ← List.concat_eq_append]
      exact hq.nodup.concat (hq.disjoint t k h)
    · rw [hn, List.mem_append, List.mem_singleton] at hj
      obtain ⟨hne, hu⟩ := hheld hu
      rcases hj with hj | rfl
      · exact hq.disjoint u j hu hj
      · exact hne (hq.held_inj hu h)
    · rw [give_next] at hj
      rw [hn, List.mem_append, List.mem_singleton]
      rcases hq.total j hj with ⟨u, hu⟩ | hs
      · rcases eq_or_ne u t with rfl | hne
        · rw [h, Option.some.injEq] at hu
          exact Or.inr (Or.inr hu.symm)
        · exact Or.inl ⟨u, by rw [give_held_of_ne hne, hu]⟩
      · exact Or.inr (Or.inl hs)

omit [DecidableEq T] in
/-- When nobody holds a turn, the numbers below the next one have all been given back. -/
theorem Fair.mem_numbers_iff (hq : q.Fair) (h : ∀ t, q.held t = none) {k : ℕ} :
    k ∈ q.numbers ↔ k < q.next := by
  refine ⟨hq.served_lt k, fun hk => (hq.total k hk).resolve_left ?_⟩
  rintro ⟨t, ht⟩
  rw [h t] at ht
  cases ht

omit [DecidableEq T] in
theorem Fair.next_eq_length (hq : q.Fair) (h : ∀ t, q.held t = none) :
    q.next = q.served.length := by
  have hperm : q.numbers.Perm (List.range q.next) :=
    (List.perm_ext_iff_of_nodup hq.nodup List.nodup_range).mpr fun k => by
      rw [hq.mem_numbers_iff h, List.mem_range]
  rw [← List.length_range (n := q.next), ← hperm.length_eq, numbers, List.length_map]

end Turns
