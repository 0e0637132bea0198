import Mathlib.Data.List.Nodup
import Mathlib.Logic.Function.Basic

/-!
# Doubly linked lists

Nodes of any type `P`, with a link to the next node and one to the node before, each of which may be
null. `Linked.Links` says that a list of nodes is linked up from one pointer to another; it takes
the list apart as the list is taken apart (`Linked.links_append`).

Three changes are all that a program makes to such a list: it puts a node in front
(`Linked.Links.cons`), it puts one at the end (`Linked.Links.concat`), and it takes one out
(`Linked.Links.remove`). What is assigned is in each case what a program in C assigns, pointer by
pointer, so that nothing is said here about the memory the nodes lie in.
-/

namespace Linked

variable {P : Type} {next prev next' prev' : P → Option P}
  {before before' head after after' : Option P} {x : P} {xs ys : List P}

/-- **The nodes `xs` are linked**: `head` points to the first of them, the last points to `after`,
and each points back to the one before, the first to `before`. -/
def Links (next prev : P → Option P) : Option P → Option P → List P → Option P → Prop
  | _, head, [], after => head = after
  | before, head, x :: xs, after =>
    head = some x ∧ prev x = before ∧ Links next prev (some x) (next x) xs after

/-- Only the links of the nodes themselves matter. -/
theorem Links.congr (h : Links next prev before head xs after)
    (hnext : ∀ x ∈ xs, next' x = next x) (hprev : ∀ x ∈ xs, prev' x = prev x) :
    Links next' prev' before head xs after := by
  induction xs generalizing before head with
  | nil => exact h
  | cons x xs ih =>
    obtain ⟨hhead, hback, hrest⟩ := h
    refine ⟨hhead, (hprev x (List.mem_cons_self ..)).trans hback, ?_⟩
    rw [hnext x (List.mem_cons_self ..)]
    exact ih hrest (fun y hy => hnext y (List.mem_cons_of_mem _ hy))
      fun y hy => hprev y (List.mem_cons_of_mem _ hy)

/-- The links of two lists, one after the other. -/
theorem links_append : Links next prev before head (xs ++ ys) after ↔ ∃ mid,
    Links next prev before head xs mid ∧ Links next prev (xs.getLast?.or before) mid ys after := by
  induction xs generalizing before head with
  | nil =>
    constructor
    · exact fun h => ⟨head, rfl, h⟩
    · rintro ⟨mid, rfl, h⟩
      exact h
  | cons x xs ih =>
    have hlast : (x :: xs).getLast?.or before = xs.getLast?.or (some x) := by
      rw [List.getLast?_cons]
      cases xs.getLast? <;> rfl
    simp only [List.cons_append, Links, ih, hlast]
    constructor
    · rintro ⟨hhead, hback, mid, hxs, hys⟩
      exact ⟨mid, ⟨hhead, hback, hxs⟩, hys⟩
    · rintro ⟨mid, ⟨hhead, hback, hxs⟩, hys⟩
      exact ⟨hhead, hback, mid, hxs, hys⟩

/-- The pointer to a list tells its first node. -/
theorem Links.head_eq (h : Links next prev before head xs none) : head = xs.head? := by
  cases xs with
  | nil => exact h
  | cons x xs => exact h.1

/-! ### Assigning through a pointer -/

variable [DecidableEq P]

/-- An assignment to a link of the node pointed to, if there is one. -/
def assign (link : P → Option P) (p v : Option P) : P → Option P :=
  match p with
  | some x => Function.update link x v
  | none => link

theorem assign_of_ne {link : P → Option P} {p v : Option P} (h : p ≠ some x) :
    assign link p v x = link x := by
  cases p with
  | none => rfl
  | some y => exact Function.update_of_ne (fun heq => h (congrArg some heq.symm)) ..

/-- An assignment to another node leaves a list alone. -/
theorem update_of_notMem {link : P → Option P} {v : Option P} (hx : x ∉ xs) :
    ∀ y ∈ xs, Function.update link x v y = link y := by
  intro y hy
  refine Function.update_of_ne ?_ ..
  rintro rfl
  exact hx hy

/-- Where the last node of a list points to. -/
theorem Links.assign_last (h : Links next prev before head xs after) (hxs : xs.Nodup) :
    Links (assign next xs.getLast? after') prev before (if xs = [] then after' else head) xs
      after' := by
  induction xs generalizing before head with
  | nil => exact if_pos rfl
  | cons x xs ih =>
    obtain ⟨hx, hxs⟩ := List.nodup_cons.mp hxs
    obtain ⟨hhead, hback, hrest⟩ := h
    refine ⟨(if_neg (List.cons_ne_nil x xs)).trans hhead, hback, ?_⟩
    cases xs with
    | nil => exact Function.update_self ..
    | cons y ys =>
      rw [List.getLast?_cons_cons]
      have hlast : (y :: ys).getLast? ≠ some x := fun h => hx (List.mem_of_getLast? h)
      rw [assign_of_ne hlast]
      have := ih hrest hxs
      rwa [if_neg (List.cons_ne_nil y ys)] at this

/-- Where the first node of a list points back to. -/
theorem Links.assign_first (h : Links next prev before head xs none) (hxs : xs.Nodup) :
    Links next (assign prev head before') before' head xs none := by
  cases xs with
  | nil => exact h
  | cons x xs =>
    obtain ⟨rfl, hback, hrest⟩ := h
    obtain ⟨hx, -⟩ := List.nodup_cons.mp hxs
    exact ⟨rfl, Function.update_self .., hrest.congr (fun _ _ => rfl) (update_of_notMem hx)⟩

/-! ### Putting in and taking out -/

/-- **A node in front of a list.** -/
theorem Links.cons (h : Links next prev none head xs none) (hxs : xs.Nodup) (hx : x ∉ xs) :
    Links (Function.update next x head) (assign (Function.update prev x none) head (some x)) none
      (some x) (x :: xs) none := by
  have hhead : head ≠ some x := by
    rw [h.head_eq]
    exact fun heq => hx (List.mem_of_head? heq)
  refine ⟨rfl, ?_, ?_⟩
  · rw [assign_of_ne hhead, Function.update_self]
  · rw [Function.update_self]
    exact (h.congr (update_of_notMem hx) (update_of_notMem hx)).assign_first hxs

/-- **A node at the end of a list** that has one. -/
theorem Links.concat {tail : P} (h : Links next prev none head xs none) (hxs : xs.Nodup)
    (hx : x ∉ xs) (htail : xs.getLast? = some tail) :
    Links (Function.update (Function.update next x none) tail (some x))
      (Function.update prev x (some tail)) none head (xs ++ [x]) none := by
  have hne : xs ≠ [] := by
    rintro rfl
    cases htail
  have htail_ne : tail ≠ x := by
    rintro rfl
    exact hx (List.mem_of_getLast? htail)
  have hlast : Links (assign (Function.update next x none) xs.getLast? (some x))
      (Function.update prev x (some tail)) none (if xs = [] then some x else head) xs (some x) :=
    (h.congr (update_of_notMem hx) (update_of_notMem hx)).assign_last hxs
  rw [htail, if_neg hne] at hlast
  refine links_append.mpr ⟨some x, hlast, rfl, ?_, ?_⟩
  · rw [htail, Function.update_self]
    rfl
  · exact (Function.update_of_ne htail_ne.symm ..).trans (Function.update_self ..)

/-- **A node taken out of a list.** The node before it, if there is one, and the one after it are
linked up; without one before it, the list begins with the next. -/
theorem Links.remove (h : Links next prev none head (xs ++ x :: ys) none)
    (hnodup : (xs ++ x :: ys).Nodup) :
    prev x = xs.getLast? ∧
      Links (assign next (prev x) (next x)) (assign prev (next x) (prev x)) none
        (if xs = [] then next x else head) (xs ++ ys) none := by
  obtain ⟨mid, hxs, rfl, hback, hys⟩ := links_append.mp h
  rw [Option.or_none] at hback
  obtain ⟨hxs_nodup, hxys, hdisjoint⟩ := List.nodup_append.mp hnodup
  obtain ⟨hx, hys_nodup⟩ := List.nodup_cons.mp hxys
  refine ⟨hback, links_append.mpr ⟨next x, ?_, ?_⟩⟩
  · rw [hback]
    refine (hxs.assign_last hxs_nodup).congr (fun _ _ => rfl) fun y hy => assign_of_ne ?_
    rw [hys.head_eq]
    exact fun heq => hdisjoint y hy y (List.mem_cons_of_mem _ (List.mem_of_head? heq)) rfl
  · rw [Option.or_none, ← hback]
    refine (hys.assign_first hys_nodup).congr (fun y hy => assign_of_ne ?_) fun _ _ => rfl
    rw [hback]
    exact fun heq => hdisjoint y (List.mem_of_getLast? heq) y (List.mem_cons_of_mem _ hy) rfl

end Linked
