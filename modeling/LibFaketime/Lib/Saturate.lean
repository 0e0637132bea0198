import Mathlib.Algebra.Order.Floor.Ring
import Mathlib.Algebra.Order.Field.Basic
import Mathlib.Data.Int.ConditionallyCompleteOrder
import Mathlib.Data.Rat.Floor
import Mathlib.Tactic.Linarith
import Mathlib.Tactic.Ring
import Mathlib.Tactic.Positivity

/-!
# Saturation, truncation and two-limb numbers

The arithmetic a fixed-width time library does, with nothing of such a library in
it. Four operations lose information, and each of them is settled here once, at
the generality of its own algebra:

* `Saturate.clamp` – **saturation** in a linear order, the composition of a `max`
  and a `min`; it is monotone, and the identity inside its bounds;
* `Saturate.trunc` – **truncation towards zero** in an ordered field with a floor,
  which is what a C conversion from a floating-point number does; it is monotone,
  off by less than one, and sends to the nonnegative integers exactly the numbers
  above `-1`;
* `Saturate.roundEven` – **rounding** to the nearest integer, halves to the even one, as a
  number is printed; it moves a number by half at most;
* `Saturate.saturate` – saturation of a number held in **two limbs**, a big one
  that is bounded and a small one that counts units of it.

The two-limb reading is `Saturate.value`. On *normal* pairs, whose small limb is
below the unit, it is injective and the lexicographic comparison of the limbs is
the comparison of the values (`Saturate.value_le_value_iff`), so that an argument
about limbs is an argument about integers. `Saturate.carry` moves at most one unit
between the limbs, which is all that a sum or a difference of normal pairs needs.
-/

namespace Saturate

/-! ### Saturation -/

section Clamp

variable {α : Type*} [LinearOrder α] {lo hi x : α}

/-- The point of the interval from `lo` to `hi` nearest to `x`. -/
def clamp (lo hi x : α) : α := max lo (min hi x)

theorem clamp_mono : Monotone (clamp lo hi) := fun _ _ h =>
  max_le_max le_rfl (min_le_min le_rfl h)

theorem clamp_eq_self (h : lo ≤ x) (h' : x ≤ hi) : clamp lo hi x = x := by
  rw [clamp, min_eq_right h', max_eq_right h]

theorem le_clamp : lo ≤ clamp lo hi x := le_max_left _ _

theorem clamp_le (h : lo ≤ hi) : clamp lo hi x ≤ hi := max_le h (min_le_left _ _)

theorem clamp_of_lt (h : x < lo) : clamp lo hi x = lo :=
  max_eq_left ((min_le_right _ _).trans h.le)

theorem clamp_of_gt (hb : lo ≤ hi) (h : hi < x) : clamp lo hi x = hi := by
  rw [clamp, min_eq_left h.le, max_eq_right hb]

end Clamp

/-! ### Truncation towards zero -/

section Trunc

variable {K : Type*} [Field K] [LinearOrder K] [FloorRing K]

/-- The integer nearest to `x` on the side of zero. -/
def trunc (x : K) : ℤ := if 0 ≤ x then ⌊x⌋ else ⌈x⌉

theorem trunc_of_nonneg {x : K} (h : 0 ≤ x) : trunc x = ⌊x⌋ := if_pos h

theorem trunc_of_neg {x : K} (h : x < 0) : trunc x = ⌈x⌉ := if_neg (not_le.mpr h)

variable [IsStrictOrderedRing K]

theorem trunc_intCast (n : ℤ) : trunc (n : K) = n := by
  rcases le_or_gt 0 (n : K) with h | h
  · rw [trunc_of_nonneg h, Int.floor_intCast]
  · rw [trunc_of_neg h, Int.ceil_intCast]

omit [IsStrictOrderedRing K] in
theorem trunc_mono : Monotone (trunc : K → ℤ) := by
  intro x y h
  rcases le_or_gt 0 x with hx | hx
  · rw [trunc_of_nonneg hx, trunc_of_nonneg (hx.trans h)]
    exact Int.floor_mono h
  · rw [trunc_of_neg hx]
    rcases le_or_gt 0 y with hy | hy
    · rw [trunc_of_nonneg hy]
      exact (Int.ceil_nonpos.mpr hx.le).trans (Int.floor_nonneg.mpr hy)
    · rw [trunc_of_neg hy]
      exact Int.ceil_mono h

/-- **Truncation moves a number by less than one.** -/
theorem abs_trunc_sub_lt_one (x : K) : |(trunc x : K) - x| < 1 := by
  rw [abs_lt]
  rcases le_or_gt 0 x with h | h
  · rw [trunc_of_nonneg h]
    have h1 := Int.lt_floor_add_one x
    have h2 := Int.floor_le x
    constructor <;> linarith
  · rw [trunc_of_neg h]
    have h1 := Int.ceil_lt_add_one x
    have h2 := Int.le_ceil x
    constructor <;> linarith

/-- What truncates to `k` or more, on the side of zero that `k` is on. -/
theorem le_trunc_iff_of_nonpos {x : K} {k : ℤ} (hk : k ≤ 0) : k ≤ trunc x ↔ (k : K) - 1 < x := by
  have hk' : (k : K) ≤ 0 := by exact_mod_cast hk
  rcases le_or_gt 0 x with h | h
  · rw [trunc_of_nonneg h]
    exact iff_of_true (hk.trans (Int.floor_nonneg.mpr h)) (by linarith)
  · have hc : ⌈x⌉ ≤ k - 1 ↔ x ≤ (k : K) - 1 := by
      rw [Int.ceil_le]
      push_cast
      exact Iff.rfl
    rw [trunc_of_neg h, ← not_le, ← hc]
    omega

theorem trunc_lt_iff_of_pos {x : K} {k : ℤ} (hk : 0 < k) : trunc x < k ↔ x < k := by
  have hk' : (0 : K) < k := by exact_mod_cast hk
  rcases le_or_gt 0 x with h | h
  · rw [trunc_of_nonneg h, Int.floor_lt]
  · rw [trunc_of_neg h]
    exact iff_of_true (lt_of_le_of_lt (Int.ceil_nonpos.mpr h.le) hk) (h.trans hk')

omit [IsStrictOrderedRing K] in
theorem le_trunc_iff_of_nonneg {x : K} {k : ℤ} (hx : 0 ≤ x) : k ≤ trunc x ↔ (k : K) ≤ x := by
  rw [trunc_of_nonneg hx, Int.le_floor]

@[simp] theorem trunc_neg (x : K) : trunc (-x) = -trunc x := by
  rcases lt_trichotomy x 0 with h | rfl | h
  · rw [trunc_of_nonneg (neg_nonneg.mpr h.le), trunc_of_neg h, Int.floor_neg]
  · rw [neg_zero, trunc_of_nonneg le_rfl, Int.floor_zero, neg_zero]
  · rw [trunc_of_neg (neg_neg_of_pos h), trunc_of_nonneg h.le, Int.ceil_neg]

/-- Everything above `-1` truncates to a nonnegative integer, and nothing else
does: the whole interval around zero collapses. -/
theorem trunc_nonneg_iff {x : K} : 0 ≤ trunc x ↔ -1 < x := by
  rw [le_trunc_iff_of_nonpos le_rfl, Int.cast_zero, zero_sub]

/-- A quotient that is truncated and multiplied back is off by less than the divisor. -/
theorem abs_trunc_div_mul_sub_lt {r : K} (hr : 0 < r) (y : K) :
    |(trunc (y * (1 / r)) : K) * r - y| < r := by
  have hy : y = y * (1 / r) * r := by field_simp
  have hfac : (trunc (y * (1 / r)) : K) * r - y =
      ((trunc (y * (1 / r)) : K) - y * (1 / r)) * r := by
    rw [sub_mul, ← hy]
  rw [hfac, abs_mul, abs_of_pos hr]
  exact mul_lt_of_lt_one_left hr (abs_trunc_sub_lt_one _)

/-- **Scaling down and up again, from any point.** At the rate `r` the distance `x` has
become `p`, and the rest of `y` is scaled down; then both distances together become `y`
again, up to one for each truncation and `r` for the one that is scaled up. -/
theorem abs_trunc_mul_sub_lt {r : K} (hr : 0 < r) (x : ℤ) (y : K) {p e : K}
    (hp : |p - x * r| ≤ e) :
    |(trunc ((((x + trunc ((y - p) * (1 / r)) : ℤ)) : K) * r) : K) - y| < r + 1 + e := by
  set q : ℤ := trunc ((y - p) * (1 / r)) with hq
  have h1 := abs_trunc_sub_lt_one ((((x + q : ℤ)) : K) * r)
  have h2 := abs_trunc_div_mul_sub_lt hr (y - p)
  rw [← hq] at h2
  have hsum : (((x + q : ℤ)) : K) * r - y = (q * r - (y - p)) - (p - x * r) := by
    push_cast
    ring
  rw [abs_lt] at h1 h2 ⊢
  rw [abs_le] at hp
  constructor <;> linarith [h1.1, h1.2, h2.1, h2.2, hp.1, hp.2]

end Trunc

/-! ### Rounding to the nearest integer -/

section Round

variable {K : Type*} [Field K] [LinearOrder K] [FloorRing K]

/-- The integer nearest to `x`, and the even one of two that are equally near. -/
def roundEven (x : K) : ℤ :=
  let f := ⌊x⌋
  if x - f < 1 / 2 then f else if 1 / 2 < x - f then f + 1 else if f % 2 = 0 then f else f + 1

theorem roundEven_eq_or (x : K) : roundEven x = ⌊x⌋ ∨ roundEven x = ⌊x⌋ + 1 := by
  unfold roundEven
  dsimp only
  split
  · exact Or.inl rfl
  · split
    · exact Or.inr rfl
    · split
      · exact Or.inl rfl
      · exact Or.inr rfl

theorem roundEven_nonneg {x : K} (hx : 0 ≤ x) : 0 ≤ roundEven x := by
  have hf := Int.floor_nonneg.mpr hx
  rcases roundEven_eq_or x with h | h <;> omega

theorem roundEven_nonpos {x : K} (hx : x < 0) : roundEven x ≤ 0 := by
  have hf : ⌊x⌋ < 0 := Int.floor_lt.mpr (by exact_mod_cast hx)
  rcases roundEven_eq_or x with h | h <;> omega

variable [IsStrictOrderedRing K]

/-- **Rounding moves a number by half at most.** -/
theorem abs_roundEven_sub_le (x : K) : |(roundEven x : K) - x| ≤ 1 / 2 := by
  have h0 := Int.floor_le x
  have h1 := Int.lt_floor_add_one x
  rw [abs_le]
  unfold roundEven
  dsimp only
  split
  next hlow => constructor <;> linarith
  next hlow =>
    split
    next hhigh => constructor <;> push_cast <;> linarith
    next hhigh =>
      split
      · constructor <;> linarith
      · constructor <;> push_cast <;> linarith

end Round

/-! ### Numbers in two limbs -/

section Limbs

variable {unit lo hi : ℤ} {p q : ℤ × ℤ}

/-- The number a pair of limbs stands for, the small limb counting units of
`1 / unit`. -/
def value (unit : ℤ) (p : ℤ × ℤ) : ℤ := p.1 * unit + p.2

/-- The small limb of a **normal** pair is below the unit. -/
def Normal (unit : ℤ) (p : ℤ × ℤ) : Prop := 0 ≤ p.2 ∧ p.2 < unit

instance : Decidable (Normal unit p) := inferInstanceAs (Decidable (_ ∧ _))

/-- **The limbs of a normal pair are read off its value.** -/
theorem Normal.ediv_emod (h : Normal unit p) : value unit p / unit = p.1 ∧
    value unit p % unit = p.2 := by
  obtain ⟨h0, h1⟩ := h
  have hu : unit ≠ 0 := by omega
  rw [value, add_comm]
  exact ⟨by rw [Int.add_mul_ediv_right _ _ hu, Int.ediv_eq_zero_of_lt h0 h1, zero_add],
    by rw [Int.add_mul_emod_self_right, Int.emod_eq_of_lt h0 h1]⟩

theorem value_injective (hp : Normal unit p) (hq : Normal unit q)
    (h : value unit p = value unit q) : p = q :=
  Prod.ext (by rw [← hp.ediv_emod.1, ← hq.ediv_emod.1, h])
    (by rw [← hp.ediv_emod.2, ← hq.ediv_emod.2, h])

/-- **Comparing the limbs of normal pairs is comparing their values.** -/
theorem value_le_value_iff (hp : Normal unit p) (hq : Normal unit q) :
    value unit p ≤ value unit q ↔ p.1 < q.1 ∨ p.1 = q.1 ∧ p.2 ≤ q.2 := by
  obtain ⟨hp0, hp1⟩ := hp
  obtain ⟨hq0, hq1⟩ := hq
  have key : ∀ {x y : ℤ}, x < y → x * unit + unit ≤ y * unit := fun {x y} hxy => by
    have := Int.mul_le_mul_of_nonneg_right (show x + 1 ≤ y by omega) (show 0 ≤ unit by omega)
    rwa [add_mul, one_mul] at this
  rw [value, value]
  rcases lt_trichotomy p.1 q.1 with h | h | h
  · have := key h
    exact iff_of_true (by omega) (Or.inl h)
  · rw [h]
    constructor
    · exact fun hle => Or.inr ⟨rfl, by omega⟩
    · rintro (hlt | ⟨-, hle⟩)
      · omega
      · omega
  · have := key h
    exact iff_of_false (by omega) (by omega)

/-- Move one unit between the limbs, when the small one is out of bounds. -/
def carry (unit : ℤ) (p : ℤ × ℤ) : ℤ × ℤ :=
  if unit ≤ p.2 then (p.1 + 1, p.2 - unit)
  else if p.2 < 0 then (p.1 - 1, p.2 + unit)
  else p

@[simp] theorem value_carry : value unit (carry unit p) = value unit p := by
  unfold carry value
  split
  · ring
  · split
    · ring
    · rfl

/-- One carry is enough when the small limb is off by at most one unit. -/
theorem normal_carry (h : -unit ≤ p.2) (h' : p.2 < 2 * unit) : Normal unit (carry unit p) := by
  unfold carry Normal
  split
  · constructor <;> dsimp only <;> omega
  · split
    · constructor <;> dsimp only <;> omega
    · omega

/-- Bound the big limb, sending what is above to the greatest pair and what is
below to the least one. -/
def saturate (unit lo hi : ℤ) (p : ℤ × ℤ) : ℤ × ℤ :=
  if hi < p.1 then (hi, unit - 1) else if p.1 < lo then (lo, 0) else p

theorem normal_saturate (hu : 0 < unit) (h : Normal unit p) :
    Normal unit (saturate unit lo hi p) := by
  unfold saturate
  split
  · exact ⟨by dsimp only; omega, by dsimp only; omega⟩
  · split
    · exact ⟨le_rfl, hu⟩
    · exact h

/-- The values of the pairs whose big limb is within bounds form an interval. -/
theorem value_mem_iff (lo hi : ℤ) (h : Normal unit p) :
    (lo ≤ p.1 ∧ p.1 ≤ hi) ↔ (lo * unit ≤ value unit p ∧ value unit p ≤ hi * unit + (unit - 1)) := by
  have hu : 0 < unit := lt_of_le_of_lt h.1 h.2
  have hlo := value_le_value_iff (show Normal unit (lo, 0) from ⟨le_rfl, hu⟩) h
  have hhi := value_le_value_iff h
    (show Normal unit (hi, unit - 1) from ⟨by dsimp only; omega, by dsimp only; omega⟩)
  obtain ⟨h0, h1⟩ := h
  simp only [value, add_zero] at hlo hhi ⊢
  rw [hlo, hhi]
  omega

/-- **Saturating the limbs is saturating the value.** -/
theorem value_saturate (hb : lo ≤ hi) (h : Normal unit p) :
    value unit (saturate unit lo hi p) =
      clamp (lo * unit) (hi * unit + (unit - 1)) (value unit p) := by
  have hu : 0 < unit := lt_of_le_of_lt h.1 h.2
  have hm := value_mem_iff lo hi h
  have hlow := value_mem_iff lo p.1 h
  have hle : lo * unit ≤ hi * unit := Int.mul_le_mul_of_nonneg_right hb hu.le
  unfold saturate
  split
  next hhi =>
    have hlt : hi * unit + (unit - 1) < value unit p := by
      by_contra hc
      exact absurd (hm.mpr ⟨(hlow.mp ⟨by omega, le_rfl⟩).1, by omega⟩) (by omega)
    rw [clamp_of_gt (by omega) hlt, value]
  next hhi =>
    split
    next hlo =>
      have hlt : value unit p < lo * unit := by
        by_contra hc
        exact absurd (hlow.mpr ⟨by omega, by rw [value]; have := h.2; omega⟩) (by omega)
      rw [clamp_of_lt hlt, value, add_zero]
    next hlo =>
      obtain ⟨h1, h2⟩ := hm.mp ⟨by omega, by omega⟩
      rw [clamp_eq_self h1 h2]

end Limbs

end Saturate
