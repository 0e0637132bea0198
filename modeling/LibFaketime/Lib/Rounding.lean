import LibFaketime.Lib.Saturate
import Mathlib.Data.Int.Log

/-!
# Rounding to floating-point formats

The numbers of a binary floating-point format are the integers of so many bits, times powers of
two. A computation rounds to the nearest of them, halves to the even one, and so it is enough to
know the unit of the last bit of a number:

* `Rounding.toMultiple` – the nearest multiple of a unit;
* `Rounding.exponent` – the exponent of the unit of a number;
* `Rounding.nearest` – the nearest number of so many bits. It moves a number by `2 ^ -bits` of
  itself at most (`Rounding.abs_nearest_sub_le`);
* `Rounding.gradual` – the same in a format whose units are bounded below, so that small numbers
  lose bits (`Rounding.abs_gradual_sub_le`). A number of the format is its own nearest one
  (`Rounding.gradual_gradual`).

The exponents have no upper bound here: whether a number overflows is asked before it is rounded.
-/

namespace Rounding

open Saturate

variable {K : Type*} [Field K] [LinearOrder K] [FloorRing K] [IsStrictOrderedRing K]
  {u x : K} {bits : ℕ} {least : ℤ}

/-! ### Multiples of a unit -/

/-- The multiple of `u` nearest to `x`, and the even one of two that are equally near. -/
def toMultiple (u x : K) : K := u * roundEven (x / u)

theorem roundEven_intCast (n : ℤ) : roundEven (n : K) = n := by
  unfold roundEven
  dsimp only
  rw [Int.floor_intCast, if_pos (by rw [sub_self]; norm_num)]

theorem toMultiple_mul_intCast (hu : u ≠ 0) (n : ℤ) : toMultiple u (u * n) = u * n := by
  rw [toMultiple, mul_div_cancel_left₀ _ hu, roundEven_intCast]

/-- **Rounding to a multiple of a unit moves a number by half the unit at most.** -/
theorem abs_toMultiple_sub_le (hu : 0 < u) (x : K) : |toMultiple u x - x| ≤ u / 2 := by
  have hsub : toMultiple u x - x = u * (roundEven (x / u) - x / u) := by
    rw [mul_sub, mul_div_cancel₀ _ hu.ne']
    rfl
  rw [hsub, abs_mul, abs_of_pos hu, div_eq_mul_one_div u 2]
  exact mul_le_mul_of_nonneg_left (abs_roundEven_sub_le _) hu.le

/-- A number rounds to nothing beyond an integer that it does not reach. -/
theorem abs_roundEven_le {n : ℤ} (h : |x| ≤ n) : |roundEven x| ≤ n := by
  obtain ⟨hlow, hhigh⟩ := abs_le.mp h
  have hf : ⌊x⌋ ≤ n := by
    exact_mod_cast (Int.floor_le x).trans hhigh
  have hg : -n ≤ ⌊x⌋ := Int.le_floor.mpr (by push_cast; exact hlow)
  rw [abs_le]
  refine ⟨?_, ?_⟩
  · rcases roundEven_eq_or x with h | h <;> omega
  · rcases hf.eq_or_lt with hn | hn
    · -- the integer itself is its own nearest one
      have hx : x = n := le_antisymm hhigh (hn ▸ Int.floor_le x)
      rw [hx, roundEven_intCast]
    · rcases roundEven_eq_or x with h | h <;> omega

/-! ### Formats -/

/-- The exponent of the last bit of a number of so many bits. -/
def exponent (bits : ℕ) (x : K) : ℤ := Int.log 2 |x| + 1 - bits

/-- The unit with an exponent. -/
def unit (e : ℤ) : K := ((2 : ℤ) : K) ^ e

/-- **The nearest number of so many bits.** -/
def nearest (bits : ℕ) (x : K) : K := toMultiple (unit (exponent bits x)) x

/-- The nearest number of so many bits whose last one has the exponent `least` at least. -/
def gradual (bits : ℕ) (least : ℤ) (x : K) : K := toMultiple (unit (max (exponent bits x) least)) x

omit [IsStrictOrderedRing K] in
theorem nearest_eq (bits : ℕ) (x : K) : nearest bits x = toMultiple (2 ^ exponent bits x) x := by
  rw [nearest, unit, Int.cast_ofNat]

omit [IsStrictOrderedRing K] in
theorem gradual_eq (bits : ℕ) (least : ℤ) (x : K) :
    gradual bits least x = toMultiple (2 ^ max (exponent bits x) least) x := by
  rw [gradual, unit, Int.cast_ofNat]

/-- A number is at least as large as its first bit. -/
theorem two_zpow_exponent_le (hx : x ≠ 0) : (2 : K) ^ exponent bits x ≤ 2 * |x| / 2 ^ bits := by
  have hlog : (2 : K) ^ Int.log 2 |x| ≤ |x| := by
    exact_mod_cast Int.zpow_log_le_self (b := 2) one_lt_two (abs_pos.mpr hx)
  rw [exponent, zpow_sub₀ two_ne_zero, zpow_add_one₀ two_ne_zero, zpow_natCast, mul_comm _ (2 : K)]
  gcongr

/-- **Rounding to so many bits moves a number by `2 ^ -bits` of itself at most.** -/
theorem abs_nearest_sub_le (bits : ℕ) (x : K) : |nearest bits x - x| ≤ |x| / 2 ^ bits := by
  rcases eq_or_ne x 0 with rfl | hx
  · have h0 : nearest bits (0 : K) = 0 := by
      have h := toMultiple_mul_intCast (u := (2 : K) ^ exponent bits (0 : K))
        (zpow_ne_zero _ two_ne_zero) 0
      rwa [Int.cast_zero, mul_zero, ← nearest_eq] at h
    rw [h0, sub_self, abs_zero, zero_div]
  · rw [nearest_eq]
    calc |toMultiple (2 ^ exponent bits x) x - x| ≤ 2 ^ exponent bits x / 2 :=
          abs_toMultiple_sub_le (zpow_pos two_pos _) x
      _ ≤ 2 * |x| / 2 ^ bits / 2 := by gcongr; exact two_zpow_exponent_le hx
      _ = |x| / 2 ^ bits := by ring

/-- In a format whose units are bounded below, half of the smallest unit is lost at least. -/
theorem abs_gradual_sub_le (bits : ℕ) (least : ℤ) (x : K) :
    |gradual bits least x - x| ≤ max (|x| / 2 ^ bits) (2 ^ least / 2) := by
  have hhalf : |gradual bits least x - x| ≤ 2 ^ max (exponent bits x) least / 2 := by
    rw [gradual_eq]
    exact abs_toMultiple_sub_le (zpow_pos two_pos _) x
  rcases le_total (exponent bits x) least with h | h
  · rw [max_eq_right h] at hhalf
    exact hhalf.trans (le_max_right _ _)
  · rw [max_eq_left h] at hhalf
    rcases eq_or_ne x 0 with rfl | hx
    · rw [gradual_eq, max_eq_left h, ← nearest_eq]
      exact (abs_nearest_sub_le bits (0 : K)).trans (le_max_left _ _)
    · refine hhalf.trans (le_trans ?_ (le_max_left _ _))
      calc (2 : K) ^ exponent bits x / 2 ≤ 2 * |x| / 2 ^ bits / 2 := by
            gcongr
            exact two_zpow_exponent_le hx
        _ = |x| / 2 ^ bits := by ring

/-- A power of two is a multiple of each smaller one. -/
theorem exists_two_zpow_eq_mul {d e : ℤ} (h : d ≤ e) : ∃ n : ℤ, (2 : K) ^ e = 2 ^ d * n := by
  refine ⟨2 ^ (e - d).toNat, ?_⟩
  rw [Int.cast_pow, Int.cast_ofNat, ← zpow_natCast, Int.toNat_of_nonneg (by omega),
    ← zpow_add₀ (two_pos : (0 : K) < 2).ne']
  congr 1
  omega

/-- Rounding goes up to the next power of two at most. -/
theorem abs_toMultiple_le {e l : ℤ} (he : e ≤ l) (hx : |x| ≤ 2 ^ l) :
    |toMultiple (2 ^ e) x| ≤ 2 ^ l := by
  have hpos : (0 : K) < 2 ^ e := zpow_pos two_pos _
  obtain ⟨n, hn⟩ := exists_two_zpow_eq_mul (K := K) he
  have hdiv : |x / 2 ^ e| ≤ n := by
    rw [abs_div, abs_of_pos hpos, div_le_iff₀ hpos, mul_comm, ← hn]
    exact hx
  have hround : |((roundEven (x / 2 ^ e) : ℤ) : K)| ≤ n := by
    exact_mod_cast abs_roundEven_le hdiv
  rw [toMultiple, abs_mul, abs_of_pos hpos, hn]
  exact mul_le_mul_of_nonneg_left hround hpos.le

/-- **A number of a format is its own nearest one.** Rounding keeps the unit, or reaches the
power of two at which the next unit begins, which is a multiple of that one, too. -/
theorem gradual_gradual (hbits : 0 < bits) (least : ℤ) (x : K) :
    gradual bits least (gradual bits least x) = gradual bits least x := by
  generalize hy : gradual bits least x = y
  suffices hmult : ∃ n : ℤ, y = (2 : K) ^ max (exponent bits y) least * n by
    obtain ⟨n, hn⟩ := hmult
    have hunit : (2 : K) ^ max (exponent bits y) least ≠ 0 := zpow_ne_zero _ two_ne_zero
    rw [gradual_eq]
    generalize (2 : K) ^ max (exponent bits y) least = u at hn hunit ⊢
    rw [hn, toMultiple_mul_intCast hunit]
  have hown : y = (2 : K) ^ max (exponent bits x) least *
      (roundEven (x / 2 ^ max (exponent bits x) least) : ℤ) := by
    rw [← hy, gradual_eq]
    rfl
  rcases eq_or_ne y 0 with rfl | hy0
  · exact ⟨0, by rw [Int.cast_zero, mul_zero]⟩
  rcases le_or_gt (max (exponent bits y) least) (max (exponent bits x) least) with hle | hlt
  · obtain ⟨n, hn⟩ := exists_two_zpow_eq_mul (K := K) hle
    refine ⟨n * roundEven (x / 2 ^ max (exponent bits x) least), ?_⟩
    rw [Int.cast_mul, ← mul_assoc, ← hn]
    exact hown
  · -- the number has been rounded up to the next power of two
    have habove : (2 : K) ^ Int.log 2 |y| ≤ |y| := by
      exact_mod_cast Int.zpow_log_le_self (b := 2) one_lt_two (abs_pos.mpr hy0)
    have hbelow : ∀ l, max (exponent bits x) least ≤ l → Int.log 2 |x| + 1 ≤ l →
        |y| ≤ (2 : K) ^ l := by
      intro l hunit hl
      have hx : |x| < (2 : K) ^ (Int.log 2 |x| + 1) := by
        exact_mod_cast Int.lt_zpow_succ_log_self (b := 2) one_lt_two |x|
      rw [← hy, gradual_eq]
      exact abs_toMultiple_le hunit (hx.le.trans (zpow_le_zpow_right₀ one_le_two hl))
    have hlog : ∀ l, max (exponent bits x) least ≤ l → Int.log 2 |x| + 1 ≤ l →
        Int.log 2 |y| ≤ l := fun l hunit hl =>
      (zpow_le_zpow_iff_right₀ (one_lt_two : (1 : K) < 2)).mp (habove.trans (hbelow l hunit hl))
    have hnext := hlog (max (Int.log 2 |x| + 1) least)
    unfold exponent at hlt hnext hbelow
    have habs : |y| = (2 : K) ^ Int.log 2 |y| := by
      refine le_antisymm (hbelow _ ?_ ?_) habove <;> omega
    obtain ⟨n, hn⟩ := exists_two_zpow_eq_mul (K := K) (d := max (exponent bits y) least)
      (e := Int.log 2 |y|) (by unfold exponent; omega)
    rcases abs_choice y with hc | hc
    · exact ⟨n, by rw [← hn, ← habs, hc]⟩
    · exact ⟨-n, by rw [Int.cast_neg, mul_neg, ← hn, ← habs, hc, neg_neg]⟩

end Rounding
