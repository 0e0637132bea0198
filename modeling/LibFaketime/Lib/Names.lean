import Mathlib.Data.Set.Insert
import Mathlib.Logic.Function.Basic

/-!
# Names and what stands under them

A table of names, as a directory is one: under a name there is a value or nothing. A program that
makes entries and takes them out again has to account for the difference to the table it found.
`Names.Added t₀ t made` is that account: the entries `made`, and no others, have come in, none of
them in the place of an old one. Each operation changes it in one way, and when nothing is left of
it, the table is the old one (`Names.Added.eq`).
-/

namespace Names

variable {N V : Type} {t₀ t : N → Option V} {made : Set N} {n : N} {v : V}

/-- **What has been added** to the table `t₀` to give `t`. -/
structure Added (t₀ t : N → Option V) (made : Set N) : Prop where
  /-- There was nothing under these names before. -/
  fresh : ∀ n ∈ made, t₀ n = none
  /-- Now there is. -/
  present : ∀ n ∈ made, ∃ v, t n = some v
  /-- The other names are as before. -/
  kept : ∀ n, n ∉ made → t n = t₀ n

theorem Added.refl (t : N → Option V) : Added t t ∅ := ⟨nofun, nofun, fun _ _ => rfl⟩

/-- Nothing has been added. -/
theorem Added.eq (h : Added t₀ t ∅) : t = t₀ := funext fun n => h.kept n (Set.notMem_empty n)

/-- A name that is free now was free before. -/
theorem Added.eq_none (h : Added t₀ t made) (hn : t n = none) : t₀ n = none := by
  by_cases hmem : n ∈ made
  · exact h.fresh n hmem
  · exact (h.kept n hmem).symm.trans hn

variable [DecidableEq N]

/-- A new entry. -/
theorem Added.create (h : Added t₀ t made) (hn : t n = none) (v : V) :
    Added t₀ (Function.update t n (some v)) (insert n made) where
  fresh m hm := by
    rcases hm with rfl | hm
    · exact h.eq_none hn
    · exact h.fresh m hm
  present m hm := by
    by_cases hmn : m = n
    · rw [hmn, Function.update_self]
      exact ⟨v, rfl⟩
    · rw [Function.update_of_ne hmn]
      exact h.present m (hm.resolve_left hmn)
  kept m hm := by
    rw [Function.update_of_ne fun hmn => hm (Set.mem_insert_iff.mpr (Or.inl hmn))]
    exact h.kept m fun hmem => hm (Set.mem_insert_of_mem n hmem)

/-- Another value under a name that has been added. -/
theorem Added.assign (h : Added t₀ t made) (hn : n ∈ made) (v : V) :
    Added t₀ (Function.update t n (some v)) made where
  fresh := h.fresh
  present m hm := by
    by_cases hmn : m = n
    · rw [hmn, Function.update_self]
      exact ⟨v, rfl⟩
    · rw [Function.update_of_ne hmn]
      exact h.present m hm
  kept m hm := by
    have hmn : m ≠ n := by
      rintro rfl
      exact hm hn
    rw [Function.update_of_ne hmn]
    exact h.kept m hm

/-- An added entry taken out again. -/
theorem Added.remove (h : Added t₀ t made) (hn : n ∈ made) :
    Added t₀ (Function.update t n none) (made \ {n}) where
  fresh m hm := h.fresh m hm.1
  present m hm := by
    rw [Function.update_of_ne hm.2]
    exact h.present m hm.1
  kept m hm := by
    by_cases hmn : m = n
    · rw [hmn, Function.update_self, h.fresh n hn]
    · rw [Function.update_of_ne hmn]
      exact h.kept m fun hmem => hm ⟨hmem, hmn⟩

end Names
