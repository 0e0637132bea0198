import LibFaketime.Lib.Saturate

/-!
# The time operation macros

`time_ops.h`: addition, subtraction and scaling of times held as seconds and
subseconds. The macros are generic in the subsecond unit; here the unit is an
argument of `LibFaketime.timeradd2`, `LibFaketime.timersub2` and
`LibFaketime.timermul2`, and the nanosecond operations `timespecadd`,
`timespecsub` and `timespecmul` are their instances at `LibFaketime.secToNSec`.

The model is the configuration with a 64-bit `time_t` and `__int128` as the wide
integer, in which no intermediate of the macros overflows: the wide variables are
integers. The `long double` of the scaling macro is a rational number, so that the
product it forms is exact and the only losses are the two the macro itself makes,
the clamping and the conversion back to an integer.

What the three operations compute is said once, on the nanosecond count
`LibFaketime.Timespec.ns`: the exact result saturated by `LibFaketime.satNs`. No
later file unfolds a macro.
-/

namespace LibFaketime

open Saturate

/-! ### The constants -/

/-- `SEC_TO_uSEC`. -/
def secToUSec : ℤ := 1000000

/-- `SEC_TO_nSEC`. -/
def secToNSec : ℤ := 1000000000

/-- `FT_TIME_MAX` of a 64-bit `tv_sec`. -/
def ftTimeMax : ℤ := 2 ^ 63 - 1

/-- `FT_TIME_MIN` of a 64-bit `tv_sec`. -/
def ftTimeMin : ℤ := -ftTimeMax - 1

/-! ### The macros -/

/-- `timeradd2`: the sum of two times, saturated; the flag is `errno = EOVERFLOW`. -/
def timeradd2 (unit : ℤ) (a b : ℤ × ℤ) : (ℤ × ℤ) × Bool :=
  let sec := a.1 + b.1
  let sub := a.2 + b.2
  let p := if unit ≤ sub then (sec + 1, sub - unit)
    else if sub < 0 then (sec - 1, sub + unit)
    else (sec, sub)
  if ftTimeMax < p.1 then ((ftTimeMax, unit - 1), true)
  else if p.1 < ftTimeMin then ((ftTimeMin, 0), true)
  else (p, false)

/-- `timersub2`: the difference of two times, saturated. The borrow is tested
before the carry, and one branch saturates on both sides, by the sign. -/
def timersub2 (unit : ℤ) (a b : ℤ × ℤ) : (ℤ × ℤ) × Bool :=
  let sec := a.1 - b.1
  let sub := a.2 - b.2
  let p := if sub < 0 then (sec - 1, sub + unit)
    else if unit ≤ sub then (sec + 1, sub - unit)
    else (sec, sub)
  if ftTimeMax < p.1 ∨ p.1 < ftTimeMin then
    ((if 0 < p.1 then ftTimeMax else ftTimeMin, if 0 < p.1 then unit - 1 else 0), true)
  else (p, false)

/-- `timermul2`: a time scaled by `c`, truncated towards zero and saturated. The
remainder of a negative total is negative, and the last test repairs it. -/
def timermul2 (unit : ℤ) (a : ℤ × ℤ) (c : ℚ) : (ℤ × ℤ) × Bool :=
  let total : ℚ := ((a.1 : ℚ) * unit + a.2) * c
  let maxTotal : ℚ := (ftTimeMax : ℚ) * unit + (unit - 1)
  let minTotal : ℚ := (ftTimeMin : ℚ) * unit
  let overflow : Bool := decide (maxTotal < total ∨ total < minTotal)
  let total := if overflow then (if total < 0 then minTotal else maxTotal) else total
  let time := trunc total
  let sub := time.tmod unit
  let sec := (time - sub).tdiv unit
  (if sub < 0 then (sec - 1, sub + unit) else (sec, sub), overflow)

/-! ### The macros on values -/

section Values

variable {unit : ℤ} {a b : ℤ × ℤ} {c : ℚ}

theorem ftTimeMin_le_ftTimeMax : ftTimeMin ≤ ftTimeMax := by decide

/-- The carry of an addition and the saturation after it, as the two operations on
limbs they are. -/
theorem timeradd2_fst : (timeradd2 unit a b).1 =
    saturate unit ftTimeMin ftTimeMax (carry unit (a.1 + b.1, a.2 + b.2)) := by
  simp only [timeradd2, saturate, carry]
  repeat' split
  all_goals rfl

/-- It makes no difference which of the two tests comes first. -/
theorem borrow_eq_carry (hu : 0 < unit) (sec sub : ℤ) :
    (if sub < 0 then (sec - 1, sub + unit) else if unit ≤ sub then (sec + 1, sub - unit)
      else (sec, sub)) = carry unit (sec, sub) := by
  simp only [carry]
  rcases lt_or_ge sub 0 with hneg | hge
  · rw [if_pos hneg, if_neg (by omega), if_pos hneg]
  · rw [if_neg (by omega)]
    simp only [if_neg (show ¬ sub < 0 by omega)]

/-- A subtraction tests its borrow first and saturates by sign, which makes no
difference: at most one of the two tests succeeds, and the bounds have opposite
signs. -/
theorem timersub2_fst (hu : 0 < unit) : (timersub2 unit a b).1 =
    saturate unit ftTimeMin ftTimeMax (carry unit (a.1 - b.1, a.2 - b.2)) := by
  have hmin : ftTimeMin < 0 := by decide
  have hmax : 0 < ftTimeMax := by decide
  simp only [timersub2, borrow_eq_carry hu]
  generalize carry unit (a.1 - b.1, a.2 - b.2) = p
  simp only [saturate]
  repeat' split
  all_goals first | rfl | omega

/-- **The sum saturates the exact sum.** -/
theorem value_timeradd2 (h : -unit ≤ a.2 + b.2) (h' : a.2 + b.2 < 2 * unit) :
    value unit (timeradd2 unit a b).1 =
      clamp (ftTimeMin * unit) (ftTimeMax * unit + (unit - 1)) (value unit a + value unit b) := by
  rw [timeradd2_fst, value_saturate ftTimeMin_le_ftTimeMax (normal_carry h h'), value_carry]
  simp only [value]
  ring_nf

theorem normal_timeradd2 (h : -unit ≤ a.2 + b.2) (h' : a.2 + b.2 < 2 * unit) :
    Normal unit (timeradd2 unit a b).1 := by
  rw [timeradd2_fst]
  exact normal_saturate (by omega) (normal_carry h h')

/-- **The difference saturates the exact difference.** -/
theorem value_timersub2 (hu : 0 < unit) (h : -unit ≤ a.2 - b.2) (h' : a.2 - b.2 < 2 * unit) :
    value unit (timersub2 unit a b).1 =
      clamp (ftTimeMin * unit) (ftTimeMax * unit + (unit - 1)) (value unit a - value unit b) := by
  rw [timersub2_fst hu, value_saturate ftTimeMin_le_ftTimeMax (normal_carry h h'), value_carry]
  simp only [value]
  ring_nf

theorem normal_timersub2 (hu : 0 < unit) (h : -unit ≤ a.2 - b.2) (h' : a.2 - b.2 < 2 * unit) :
    Normal unit (timersub2 unit a b).1 := by
  rw [timersub2_fst hu]
  exact normal_saturate hu (normal_carry h h')

/-- The quotient and remainder of the scaling macro, with the repair of a negative
remainder, are the limbs of the integer it splits. -/
theorem value_split (hu : 0 < unit) (t : ℤ) :
    let p := if t.tmod unit < 0 then ((t - t.tmod unit).tdiv unit - 1, t.tmod unit + unit)
      else ((t - t.tmod unit).tdiv unit, t.tmod unit)
    value unit p = t ∧ Normal unit p := by
  have hd : (t - t.tmod unit).tdiv unit * unit = t - t.tmod unit := by
    refine Int.tdiv_mul_cancel ?_
    rw [← Int.tdiv_mul_self]
    exact Dvd.intro_left _ rfl
  have hlt : t.tmod unit < unit := Int.tmod_lt_of_pos t hu
  have hgt : -unit < t.tmod unit := Int.lt_tmod_of_pos t hu
  dsimp only
  split
  next hneg =>
    exact ⟨by rw [value]; linarith, by constructor <;> dsimp only <;> omega⟩
  next hneg =>
    exact ⟨by rw [value]; linarith, by constructor <;> dsimp only <;> omega⟩

/-- Clamping to integer bounds and truncating commute. -/
theorem trunc_clampTotal {lo hi : ℤ} (hlo : lo < 0) (hhi : 0 ≤ hi) (x : ℚ) :
    trunc (if (hi : ℚ) < x ∨ x < lo then (if x < 0 then (lo : ℚ) else hi) else x) =
      clamp lo hi (trunc x) := by
  have hlo' : (lo : ℚ) < 0 := by exact_mod_cast hlo
  have hhi' : (0 : ℚ) ≤ hi := by exact_mod_cast hhi
  split
  next h =>
    rcases h with h | h
    · rw [if_neg (by linarith), trunc_intCast]
      have : hi ≤ trunc x := by simpa only [trunc_intCast] using trunc_mono h.le
      rw [clamp, min_eq_left this, max_eq_right (by omega)]
    · rw [if_pos (by linarith), trunc_intCast]
      have : trunc x ≤ lo := by simpa only [trunc_intCast] using trunc_mono h.le
      rw [clamp, max_eq_left ((min_le_right _ _).trans this)]
  next h =>
    push Not at h
    have h1 : lo ≤ trunc x := by simpa only [trunc_intCast] using trunc_mono h.2
    have h2 : trunc x ≤ hi := by simpa only [trunc_intCast] using trunc_mono h.1
    rw [clamp_eq_self h1 h2]

/-- **The product truncates and saturates the exact product**, and is normal
whatever it was given. -/
theorem value_timermul2 (hu : 0 < unit) :
    value unit (timermul2 unit a c).1 =
        clamp (ftTimeMin * unit) (ftTimeMax * unit + (unit - 1))
          (trunc ((value unit a : ℚ) * c)) ∧
      Normal unit (timermul2 unit a c).1 := by
  have hmin : ftTimeMin * unit < 0 := mul_neg_of_neg_of_pos (by decide) hu
  have hmax : 0 ≤ ftTimeMax * unit + (unit - 1) := by
    have := mul_pos (show 0 < ftTimeMax by decide) hu
    omega
  have key := trunc_clampTotal hmin hmax ((value unit a : ℚ) * c)
  obtain ⟨hv, hn⟩ := value_split hu
    (clamp (ftTimeMin * unit) (ftTimeMax * unit + (unit - 1)) (trunc ((value unit a : ℚ) * c)))
  have hval : ((value unit a : ℤ) : ℚ) = (a.1 : ℚ) * unit + a.2 := by
    rw [value]; push_cast; ring
  rw [hval] at key hv hn ⊢
  push_cast at key
  simp only [timermul2, decide_eq_true_eq]
  rw [key]
  exact ⟨hv, hn⟩

end Values

/-! ### Times to the nanosecond -/

/-- `struct timespec`. -/
structure Timespec where
  /-- `tv_sec`. -/
  tvSec : ℤ
  /-- `tv_nsec`. -/
  tvNsec : ℤ
deriving DecidableEq, Repr

/-- `struct timeval`. -/
structure Timeval where
  /-- `tv_sec`. -/
  tvSec : ℤ
  /-- `tv_usec`. -/
  tvUsec : ℤ
deriving DecidableEq, Repr

namespace Timespec

/-- The two fields of a time, as the macros take them. -/
def pair (t : Timespec) : ℤ × ℤ := (t.tvSec, t.tvNsec)

/-- The nanoseconds a time stands for. -/
def ns (t : Timespec) : ℤ := value secToNSec t.pair

/-- **A normalized time**: the nanosecond field is that of a clock reading. -/
def Normal (t : Timespec) : Prop := 0 ≤ t.tvNsec ∧ t.tvNsec < 1000000000

/-- **A stored time**: normalized, or carrying the value `-1` in its nanosecond
field that marks a variable nobody has assigned yet. -/
def Stored (t : Timespec) : Prop := -1 ≤ t.tvNsec ∧ t.tvNsec < 1000000000

/-- The seconds of a time fit in a 64-bit `time_t`. -/
def InRange (t : Timespec) : Prop := ftTimeMin ≤ t.tvSec ∧ t.tvSec ≤ ftTimeMax

instance (t : Timespec) : Decidable t.Normal := inferInstanceAs (Decidable (_ ∧ _))

instance (t : Timespec) : Decidable t.Stored := inferInstanceAs (Decidable (_ ∧ _))

instance (t : Timespec) : Decidable t.InRange := inferInstanceAs (Decidable (_ ∧ _))

variable {a b : Timespec}

theorem Normal.stored (h : a.Normal) : a.Stored := ⟨by have := h.1; omega, h.2⟩

theorem normal_iff : a.Normal ↔ Saturate.Normal secToNSec a.pair := Iff.rfl

theorem ext_ns (ha : a.Normal) (hb : b.Normal) (h : a.ns = b.ns) : a = b := by
  have hp : a.pair = b.pair := value_injective (normal_iff.mp ha) (normal_iff.mp hb) h
  cases a
  cases b
  simpa [pair] using hp

theorem ns_eq (t : Timespec) : t.ns = t.tvSec * 1000000000 + t.tvNsec := rfl

/-- The normalized time of a number of nanoseconds. -/
def ofNs (x : ℤ) : Timespec := ⟨x / 1000000000, x % 1000000000⟩

theorem normal_ofNs (x : ℤ) : (ofNs x).Normal :=
  ⟨Int.emod_nonneg x (by decide), Int.emod_lt_of_pos x (by decide)⟩

@[simp] theorem ns_ofNs (x : ℤ) : (ofNs x).ns = x := Int.ediv_mul_add_emod x 1000000000

end Timespec

/-- The nanoseconds of the least `struct timespec`. -/
def nsMin : ℤ := ftTimeMin * 1000000000

/-- The nanoseconds of the greatest normalized `struct timespec`. -/
def nsMax : ℤ := ftTimeMax * 1000000000 + 999999999

/-- Saturation of a nanosecond count to what a `struct timespec` can hold. -/
def satNs (x : ℤ) : ℤ := clamp nsMin nsMax x

theorem nsMin_le_nsMax : nsMin ≤ nsMax := by decide

theorem satNs_mono : Monotone satNs := clamp_mono

theorem satNs_eq_self {x : ℤ} (h : nsMin ≤ x) (h' : x ≤ nsMax) : satNs x = x := clamp_eq_self h h'

theorem satNs_mem (x : ℤ) : nsMin ≤ satNs x ∧ satNs x ≤ nsMax :=
  ⟨le_clamp, clamp_le nsMin_le_nsMax⟩

/-- Nothing saturates when the exact result can be held. -/
def Fits (x : ℤ) : Prop := nsMin ≤ x ∧ x ≤ nsMax

instance (x : ℤ) : Decidable (Fits x) := inferInstanceAs (Decidable (_ ∧ _))

theorem Fits.satNs {x : ℤ} (h : Fits x) : satNs x = x := satNs_eq_self h.1 h.2

/-- A time from the two fields the macros give back. -/
def Timespec.ofPair (p : ℤ × ℤ) : Timespec := ⟨p.1, p.2⟩

/-- `timespecadd`. -/
def timespecadd (a b : Timespec) : Timespec := .ofPair (timeradd2 secToNSec a.pair b.pair).1

/-- `timespecsub`. -/
def timespecsub (a b : Timespec) : Timespec := .ofPair (timersub2 secToNSec a.pair b.pair).1

/-- `timespecmul`. -/
def timespecmul (a : Timespec) (c : ℚ) : Timespec := .ofPair (timermul2 secToNSec a.pair c).1

section Specs

variable {a b : Timespec}

theorem ns_timespecadd (ha : a.Stored) (hb : b.Stored) :
    (timespecadd a b).ns = satNs (a.ns + b.ns) := by
  obtain ⟨ha0, ha1⟩ := ha
  obtain ⟨hb0, hb1⟩ := hb
  exact value_timeradd2 (by simp only [Timespec.pair, secToNSec]; omega)
    (by simp only [Timespec.pair, secToNSec]; omega)

theorem normal_timespecadd (ha : a.Stored) (hb : b.Stored) : (timespecadd a b).Normal := by
  obtain ⟨ha0, ha1⟩ := ha
  obtain ⟨hb0, hb1⟩ := hb
  exact normal_timeradd2 (by simp only [Timespec.pair, secToNSec]; omega)
    (by simp only [Timespec.pair, secToNSec]; omega)

theorem ns_timespecsub (ha : a.Stored) (hb : b.Stored) :
    (timespecsub a b).ns = satNs (a.ns - b.ns) := by
  obtain ⟨ha0, ha1⟩ := ha
  obtain ⟨hb0, hb1⟩ := hb
  exact value_timersub2 (by decide) (by simp only [Timespec.pair, secToNSec]; omega)
    (by simp only [Timespec.pair, secToNSec]; omega)

theorem normal_timespecsub (ha : a.Stored) (hb : b.Stored) : (timespecsub a b).Normal := by
  obtain ⟨ha0, ha1⟩ := ha
  obtain ⟨hb0, hb1⟩ := hb
  exact normal_timersub2 (by decide) (by simp only [Timespec.pair, secToNSec]; omega)
    (by simp only [Timespec.pair, secToNSec]; omega)

theorem ns_timespecmul (a : Timespec) (c : ℚ) :
    (timespecmul a c).ns = satNs (trunc ((a.ns : ℚ) * c)) :=
  (value_timermul2 (by decide)).1

theorem normal_timespecmul (a : Timespec) (c : ℚ) : (timespecmul a c).Normal :=
  (value_timermul2 (a := a.pair) (c := c) (show 0 < secToNSec by decide)).2

end Specs

/-! ### Normalization and comparison -/

/-- `normalize_timespec_value`. The wide `long long` of the source is an integer. -/
def normalizeTimespecValue (tp : Timespec) : Timespec :=
  if 0 ≤ tp.tvNsec ∧ tp.tvNsec < secToNSec then tp
  else
    let seconds := tp.tvNsec.tdiv secToNSec
    let nanoseconds := tp.tvNsec.tmod secToNSec
    if nanoseconds < 0 then ⟨tp.tvSec + (seconds - 1), nanoseconds + secToNSec⟩
    else ⟨tp.tvSec + seconds, nanoseconds⟩

theorem normalizeTimespecValue_of_normal {tp : Timespec} (h : tp.Normal) :
    normalizeTimespecValue tp = tp := if_pos h

/-- Whatever it is given, normalization leaves a normalized time. -/
theorem normal_normalizeTimespecValue (tp : Timespec) : (normalizeTimespecValue tp).Normal := by
  have hlt : tp.tvNsec.tmod secToNSec < secToNSec := Int.tmod_lt_of_pos _ (by decide)
  have hgt : -secToNSec < tp.tvNsec.tmod secToNSec := Int.lt_tmod_of_pos _ (by decide)
  have hu : secToNSec = 1000000000 := rfl
  simp only [normalizeTimespecValue]
  split_ifs with h hneg
  · exact h
  · exact ⟨by dsimp only; omega, by dsimp only; omega⟩
  · exact ⟨by dsimp only; omega, by dsimp only; omega⟩

/-- Normalization changes no number of nanoseconds. -/
theorem ns_normalizeTimespecValue (tp : Timespec) : (normalizeTimespecValue tp).ns = tp.ns := by
  have hdiv := Int.mul_tdiv_add_tmod tp.tvNsec secToNSec
  have hu : secToNSec = 1000000000 := rfl
  simp only [normalizeTimespecValue, Timespec.ns_eq]
  split_ifs with h hneg
  · rfl
  · dsimp only
    rw [hu] at hdiv ⊢
    omega
  · dsimp only
    rw [hu] at hdiv ⊢
    omega

/-- `timespeccmp` at `<=`. -/
def Timespec.le (a b : Timespec) : Prop :=
  if a.tvSec = b.tvSec then a.tvNsec ≤ b.tvNsec else a.tvSec ≤ b.tvSec

instance : LE Timespec := ⟨Timespec.le⟩

instance (a b : Timespec) : Decidable (a ≤ b) :=
  inferInstanceAs (Decidable (if a.tvSec = b.tvSec then _ else _))

/-- On normalized times the comparison macro compares nanoseconds. -/
theorem Timespec.le_iff_ns {a b : Timespec} (ha : a.Normal) (hb : b.Normal) :
    a ≤ b ↔ a.ns ≤ b.ns := by
  refine Iff.trans ?_ (value_le_value_iff (normal_iff.mp ha) (normal_iff.mp hb)).symm
  change (if a.tvSec = b.tvSec then a.tvNsec ≤ b.tvNsec else a.tvSec ≤ b.tvSec) ↔
    (a.tvSec < b.tvSec ∨ a.tvSec = b.tvSec ∧ a.tvNsec ≤ b.tvNsec)
  split
  next h => omega
  next h => omega

end LibFaketime
