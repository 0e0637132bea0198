import LibFaketime.TimeOps
import LibFaketime.Lib.Checked

/-!
# The width of the wide integer

`LibFaketime.timeradd2` and its siblings say what the macros of `time_ops.h` compute. Here they
are once more, as the sequences of statements they are: operands and result are places in memory,
which may be the same one (`LibFaketime.Memory`), and every operation is one on signed integers of
a width, undefined if it overflows (`Checked.checked`). `FT_WIDE_INT` has 128 bits where the
compiler knows such a type, and 64 otherwise; `tv_sec` has 64.

A macro whose operations all stay within their widths leaves in the place of its result what the
functions say, and touches nothing else (`LibFaketime.timeradd2At_eq` and its siblings). With 128
bits they always do, so that the macros are exact saturating arithmetic
(`LibFaketime.macros_saturate`). With 64 bits the tests for saturation come too late: the macros
are defined just where nothing has to be saturated, and not even there when they scale
(`LibFaketime.narrow_macros_saturate_iff`).
-/

namespace LibFaketime

open Saturate Checked

/-! ### Memory -/

/-- `EOVERFLOW`. -/
def eoverflow : ℤ := 75

/-- The times a function works on, by the places they are in, and `errno`. -/
structure Memory (L : Type) where
  /-- The two fields of the time in a place. -/
  cell : L → ℤ × ℤ
  errno : ℤ

namespace Memory

variable {L : Type} [DecidableEq L]

/-- Assign to both fields. -/
def setCell (m : Memory L) (l : L) (v : ℤ × ℤ) : Memory L :=
  { m with cell := Function.update m.cell l v }

/-- Assign to `tv_sec`. -/
def setSec (m : Memory L) (l : L) (x : ℤ) : Memory L := m.setCell l (x, (m.cell l).2)

/-- Assign to the field of the subseconds. -/
def setSub (m : Memory L) (l : L) (x : ℤ) : Memory L := m.setCell l ((m.cell l).1, x)

/-- `errno = EOVERFLOW`. -/
def setOverflow (m : Memory L) : Memory L := { m with errno := eoverflow }

/-- What a macro makes of the memory: its result, and whether it set `errno`. -/
def write (m : Memory L) (l : L) (r : (ℤ × ℤ) × Bool) : Memory L :=
  (if r.2 then m.setOverflow else m).setCell l r.1

variable {m : Memory L} {l : L} {v : ℤ × ℤ} {x y : ℤ}

@[simp] theorem cell_setCell : (m.setCell l v).cell l = v := Function.update_self ..

@[simp] theorem setCell_setCell {v' : ℤ × ℤ} : (m.setCell l v).setCell l v' = m.setCell l v' := by
  simp [setCell]

@[simp] theorem setSub_setSec : (m.setSec l x).setSub l y = m.setCell l (x, y) := by
  simp [setSub, setSec]

@[simp] theorem setSec_setSub : (m.setSub l y).setSec l x = m.setCell l (x, y) := by
  simp [setSub, setSec]

@[simp] theorem setSub_setCell : (m.setCell l v).setSub l y = m.setCell l (v.1, y) := by
  simp [setSub]

@[simp] theorem setSec_setCell : (m.setCell l v).setSec l x = m.setCell l (x, v.2) := by
  simp [setSec]

@[simp] theorem cell_setSub : ((m.setSub l y).cell l).2 = y := by simp [setSub]

end Memory

/-! ### The macros -/

/-- The bits of `tv_sec`. -/
def timeBits : ℕ := 64

section Macros

variable {L : Type} [DecidableEq L]

/-- `timeradd2(a, b, result, prefix)` with a wide integer of `w` bits. -/
def timeradd2At (w : ℕ) (unit : ℤ) (a b result : L) (m : Memory L) : Option (Memory L) := do
  let sec ← checked w ((m.cell a).1 + (m.cell b).1)
  let sub ← checked w ((m.cell a).2 + (m.cell b).2)
  let (sec, sub) ←
    if unit ≤ sub then do
      let sec ← checked w (sec + 1)
      let sub ← checked w (sub - unit)
      pure (sec, sub)
    else if sub < 0 then do
      let sec ← checked w (sec - 1)
      let sub ← checked w (sub + unit)
      pure (sec, sub)
    else pure (sec, sub)
  if ftTimeMax < sec then pure ((m.setOverflow.setSec result ftTimeMax).setSub result (unit - 1))
  else if sec < ftTimeMin then pure ((m.setOverflow.setSec result ftTimeMin).setSub result 0)
  else pure ((m.setSec result sec).setSub result sub)

/-- `timersub2(a, b, result, prefix)` with a wide integer of `w` bits. -/
def timersub2At (w : ℕ) (unit : ℤ) (a b result : L) (m : Memory L) : Option (Memory L) := do
  let sec ← checked w ((m.cell a).1 - (m.cell b).1)
  let sub ← checked w ((m.cell a).2 - (m.cell b).2)
  let (sec, sub) ←
    if sub < 0 then do
      let sec ← checked w (sec - 1)
      let sub ← checked w (sub + unit)
      pure (sec, sub)
    else if unit ≤ sub then do
      let sec ← checked w (sec + 1)
      let sub ← checked w (sub - unit)
      pure (sec, sub)
    else pure (sec, sub)
  if ftTimeMax < sec ∨ sec < ftTimeMin then
    pure ((m.setOverflow.setSec result (if 0 < sec then ftTimeMax else ftTimeMin)).setSub result
      (if 0 < sec then unit - 1 else 0))
  else pure ((m.setSec result sec).setSub result sub)

/-- `timermul2(tvp, c, result, prefix)` with a wide integer of `w` bits. The subseconds of the
result are assigned first, and read again for its seconds. -/
def timermul2At (w : ℕ) (unit : ℤ) (tvp : L) (c : ℚ) (result : L) (m : Memory L) :
    Option (Memory L) := do
  let total : ℚ := (((m.cell tvp).1 : ℚ) * unit + (m.cell tvp).2) * c
  let maxTotal : ℚ := (ftTimeMax : ℚ) * unit + (unit - 1)
  let minTotal : ℚ := (ftTimeMin : ℚ) * unit
  let overflow : Bool := decide (maxTotal < total ∨ total < minTotal)
  let m := if overflow then m.setOverflow else m
  let total := if overflow then (if total < 0 then minTotal else maxTotal) else total
  let time ← checked w (trunc total)
  let m := m.setSub result (time.tmod unit)
  let rest ← checked w (time - (m.cell result).2)
  let sec ← checked timeBits (rest.tdiv unit)
  let m := m.setSec result sec
  if (m.cell result).2 < 0 then do
    let m := m.setSub result ((m.cell result).2 + unit)
    let sec ← checked timeBits ((m.cell result).1 - 1)
    pure (m.setSec result sec)
  else pure m

end Macros

/-! ### What the macros leave in memory -/

section Memory

variable {L : Type} [DecidableEq L] {w : ℕ} {unit : ℤ} {a b result : L} {c : ℚ} {m : Memory L}

/-- A time an operand may be: normal, and within the width of its seconds. -/
structure Operand (unit : ℤ) (p : ℤ × ℤ) : Prop where
  normal : Normal unit p
  low : ftTimeMin ≤ p.1
  high : p.1 ≤ ftTimeMax

/-- The units of the two prefixes. -/
def PrefixUnit (unit : ℤ) : Prop := unit = secToUSec ∨ unit = secToNSec

/-- The bounds on what the macros are given, as numbers. -/
structure Sized (w : ℕ) (unit : ℤ) : Prop where
  wide : 64 ≤ w
  pos : 0 < unit
  small : unit ≤ 1000000000

theorem PrefixUnit.sized (hu : PrefixUnit unit) (hw : 64 ≤ w) : Sized w unit := by
  rcases hu with rfl | rfl
  · exact ⟨hw, by decide, by decide⟩
  · exact ⟨hw, by decide, by decide⟩

/-- Sums and differences of subseconds are far from any limit. -/
theorem Sized.holds (h : Sized w unit) {x : ℤ} (hx : -2 * unit ≤ x) (hx' : x ≤ 2 * unit) :
    Holds w x := by
  have h64 : Holds 64 x := by
    have := h.small
    constructor <;> norm_num <;> omega
  exact h64.mono h.wide

/-- The last statements of a sum. -/
theorem write_added (sec sub : ℤ) :
    (if ftTimeMax < sec then
        some ((m.setOverflow.setSec result ftTimeMax).setSub result (unit - 1))
      else if sec < ftTimeMin then some ((m.setOverflow.setSec result ftTimeMin).setSub result 0)
      else some ((m.setSec result sec).setSub result sub)) =
    some (m.write result (if ftTimeMax < sec then ((ftTimeMax, unit - 1), true)
      else if sec < ftTimeMin then ((ftTimeMin, 0), true) else ((sec, sub), false))) := by
  split
  · simp [Memory.write]
  · split <;> simp [Memory.write]

/-- The last statements of a difference. -/
theorem write_subtracted (sec sub : ℤ) :
    (if ftTimeMax < sec ∨ sec < ftTimeMin then
        some ((m.setOverflow.setSec result (if 0 < sec then ftTimeMax else ftTimeMin)).setSub result
          (if 0 < sec then unit - 1 else 0))
      else some ((m.setSec result sec).setSub result sub)) =
    some (m.write result (if ftTimeMax < sec ∨ sec < ftTimeMin then
        ((if 0 < sec then ftTimeMax else ftTimeMin, if 0 < sec then unit - 1 else 0), true)
      else ((sec, sub), false))) := by
  split <;> simp [Memory.write]

/-- **The sum, as long as its seconds stay within the width.** -/
theorem timeradd2At_eq (hs : Sized w unit) (ha : Normal unit (m.cell a))
    (hb : Normal unit (m.cell b)) :
    timeradd2At w unit a b result m =
      if Holds w ((m.cell a).1 + (m.cell b).1) ∧
          (unit ≤ (m.cell a).2 + (m.cell b).2 → Holds w ((m.cell a).1 + (m.cell b).1 + 1)) then
        some (m.write result (timeradd2 unit (m.cell a) (m.cell b)))
      else none := by
  obtain ⟨ha0, ha1⟩ := ha
  obtain ⟨hb0, hb1⟩ := hb
  have hneg : ¬ (m.cell a).2 + (m.cell b).2 < 0 := by omega
  have hsum : Holds w ((m.cell a).2 + (m.cell b).2) := hs.holds (by omega) (by omega)
  have hrest : Holds w ((m.cell a).2 + (m.cell b).2 - unit) := hs.holds (by omega) (by omega)
  unfold timeradd2At timeradd2
  simp only [Option.bind_eq_bind, bind_checked, if_pos hsum, if_pos hrest, if_neg hneg]
  by_cases hsec : Holds w ((m.cell a).1 + (m.cell b).1)
  · by_cases hcarry : unit ≤ (m.cell a).2 + (m.cell b).2
    · by_cases hsec' : Holds w ((m.cell a).1 + (m.cell b).1 + 1)
      · simp only [hsec, hcarry, hsec', and_self, implies_true, if_true]
        exact write_added _ _
      · simp [hsec, hcarry, hsec']
    · simp only [hsec, hcarry, IsEmpty.forall_iff, and_self, if_true, if_false]
      exact write_added _ _
  · simp [hsec]

/-- **The difference, as long as its seconds stay within the width.** -/
theorem timersub2At_eq (hs : Sized w unit) (ha : Normal unit (m.cell a))
    (hb : Normal unit (m.cell b)) :
    timersub2At w unit a b result m =
      if Holds w ((m.cell a).1 - (m.cell b).1) ∧
          ((m.cell a).2 < (m.cell b).2 → Holds w ((m.cell a).1 - (m.cell b).1 - 1)) then
        some (m.write result (timersub2 unit (m.cell a) (m.cell b)))
      else none := by
  obtain ⟨ha0, ha1⟩ := ha
  obtain ⟨hb0, hb1⟩ := hb
  have hborrow : (m.cell a).2 - (m.cell b).2 < 0 ↔ (m.cell a).2 < (m.cell b).2 := by omega
  have hcarry : ¬ unit ≤ (m.cell a).2 - (m.cell b).2 := by omega
  have hdiff : Holds w ((m.cell a).2 - (m.cell b).2) := hs.holds (by omega) (by omega)
  have hrest : Holds w ((m.cell a).2 - (m.cell b).2 + unit) := hs.holds (by omega) (by omega)
  unfold timersub2At timersub2
  simp only [Option.bind_eq_bind, bind_checked, if_pos hdiff, if_pos hrest, if_neg hcarry, hborrow]
  by_cases hsec : Holds w ((m.cell a).1 - (m.cell b).1)
  · by_cases hlt : (m.cell a).2 < (m.cell b).2
    · by_cases hsec' : Holds w ((m.cell a).1 - (m.cell b).1 - 1)
      · simp only [hsec, hlt, hsec', and_self, implies_true, if_true]
        exact write_subtracted _ _
      · simp [hsec, hlt, hsec']
    · simp only [hsec, hlt, IsEmpty.forall_iff, and_self, if_true, if_false]
      exact write_subtracted _ _
  · simp [hsec]

/-- The bounds of a time, in units of its subseconds. -/
def lowest (unit : ℤ) : ℤ := ftTimeMin * unit

/-- The upper one. -/
def highest (unit : ℤ) : ℤ := ftTimeMax * unit + (unit - 1)

theorem Sized.bounds (hs : Sized w unit) : lowest unit < 0 ∧ 0 ≤ highest unit := by
  have := hs.pos
  have hmin : ftTimeMin = -9223372036854775808 := by decide
  have hmax : ftTimeMax = 9223372036854775807 := by decide
  rw [lowest, highest, hmin, hmax]
  omega

/-- A remainder is taken off towards zero. -/
theorem sub_tmod_between {t : ℤ} (hu : 0 < unit) :
    (0 ≤ t → 0 ≤ t - t.tmod unit ∧ t - t.tmod unit ≤ t) ∧
      (t ≤ 0 → t ≤ t - t.tmod unit ∧ t - t.tmod unit ≤ 0) := by
  have key : ∀ {s : ℤ}, 0 ≤ s → 0 ≤ s.tmod unit ∧ s.tmod unit ≤ s := by
    intro s hs
    have hquot := mul_nonneg hu.le (Int.ediv_nonneg hs hu.le)
    have hsplit := Int.mul_ediv_add_emod s unit
    rw [Int.tmod_eq_emod_of_nonneg hs]
    exact ⟨Int.emod_nonneg s hu.ne', by omega⟩
  constructor
  · intro ht
    have := key ht
    omega
  · intro ht
    have := key (s := -t) (by omega)
    rw [Int.neg_tmod] at this
    omega

/-- The seconds that are split off a clamped number fit, before and after the repair of a
negative remainder. -/
theorem holds_seconds (hu : 0 < unit) {t : ℤ} (hlo : lowest unit ≤ t) (hhi : t ≤ highest unit) :
    Holds timeBits ((t - t.tmod unit).tdiv unit) ∧
      (t.tmod unit < 0 → Holds timeBits ((t - t.tmod unit).tdiv unit - 1)) := by
  have hmin : ftTimeMin = -2 ^ (timeBits - 1) := by decide
  have hmax : ftTimeMax = 2 ^ (timeBits - 1) - 1 := by decide
  obtain ⟨hvalue, hnormal⟩ := value_split hu t
  have hmem := (value_mem_iff ftTimeMin ftTimeMax hnormal).mpr ⟨by rw [hvalue]; exact hlo,
    by rw [hvalue]; exact hhi⟩
  unfold Holds
  split at hmem
  next hneg =>
    -- a negative remainder belongs to a number of seconds that is not positive
    have ht : t ≤ 0 := by
      by_contra hpos
      exact absurd (Int.tmod_nonneg unit (not_le.mp hpos).le) (not_le.mpr hneg)
    have hsec : (t - t.tmod unit).tdiv unit ≤ 0 := by
      have h := Int.tdiv_nonneg (a := -(t - t.tmod unit)) (b := unit)
        (by have := (sub_tmod_between hu).2 ht; omega) hu.le
      rw [Int.neg_tdiv] at h
      omega
    have hzero : (0 : ℤ) < 2 ^ (timeBits - 1) := by decide
    dsimp only at hmem
    exact ⟨⟨by omega, by omega⟩, fun _ => ⟨by omega, by omega⟩⟩
  next hneg =>
    dsimp only at hmem
    exact ⟨⟨by omega, by omega⟩, fun h => absurd h hneg⟩

/-- The last statements of a product. -/
theorem write_scaled (m : Memory L) {t sec : ℤ}
    (h : t.tmod unit < 0 → Holds timeBits (sec - 1)) :
    (let m := (m.setSub result (t.tmod unit)).setSec result sec
      if (m.cell result).2 < 0 then
        let m := m.setSub result ((m.cell result).2 + unit)
        if Holds timeBits ((m.cell result).1 - 1) then
          some (m.setSec result ((m.cell result).1 - 1))
        else none
      else some m) =
    some (m.setCell result
      (if t.tmod unit < 0 then (sec - 1, t.tmod unit + unit) else (sec, t.tmod unit))) := by
  simp only [Memory.setSec_setSub, Memory.cell_setCell, Memory.setSub_setCell,
    Memory.setSec_setCell]
  split
  next hneg => rw [if_pos (h hneg)]
  next => rfl

/-- **The product, as long as the clamped number of units stays within the width.** -/
theorem timermul2At_eq (hs : Sized w unit) :
    timermul2At w unit a c result m =
      if Holds w (clamp (lowest unit) (highest unit) (trunc ((value unit (m.cell a) : ℚ) * c))) then
        some (m.write result (timermul2 unit (m.cell a) c))
      else none := by
  obtain ⟨hneg, hnonneg⟩ := hs.bounds
  have htotal : ((value unit (m.cell a) : ℤ) : ℚ) = ((m.cell a).1 : ℚ) * unit + (m.cell a).2 := by
    rw [value]
    push_cast
    ring
  have hclamp := trunc_clampTotal hneg hnonneg ((value unit (m.cell a) : ℚ) * c)
  rw [htotal] at hclamp ⊢
  unfold timermul2At timermul2
  unfold lowest highest at *
  push_cast at hclamp
  simp only [decide_eq_true_eq, Option.bind_eq_bind, bind_checked, hclamp, Memory.cell_setSub]
  set t := clamp (ftTimeMin * unit) (ftTimeMax * unit + (unit - 1))
    (trunc ((((m.cell a).1 : ℚ) * unit + (m.cell a).2) * c)) with ht
  by_cases hw : Holds w t
  · -- the product fits, and so does each number on the way to the two fields
    have hbounds : ftTimeMin * unit ≤ t ∧ t ≤ ftTimeMax * unit + (unit - 1) :=
      ⟨le_clamp, clamp_le (by omega)⟩
    obtain ⟨hsec, hsec'⟩ := holds_seconds hs.pos hbounds.1 hbounds.2
    have hzero : Holds w 0 := hs.holds (by have := hs.pos; omega) (by have := hs.pos; omega)
    have hrest : Holds w (t - t.tmod unit) := by
      rcases le_total 0 t with h | h
      · exact hzero.between hw ((sub_tmod_between hs.pos).1 h).1 ((sub_tmod_between hs.pos).1 h).2
      · exact hw.between hzero ((sub_tmod_between hs.pos).2 h).1 ((sub_tmod_between hs.pos).2 h).2
    rw [if_pos hw, if_pos hw, if_pos hrest, if_pos hsec]
    unfold Memory.write
    simp only [decide_eq_true_eq]
    exact write_scaled _ hsec'
  · rw [if_neg hw, if_neg hw]

end Memory

/-! ### Saturation -/

section Saturation

variable {L : Type} [DecidableEq L] {w : ℕ} {unit : ℤ} {a b result : L} {c : ℚ} {m : Memory L}

/-- A time can stand for `x` units of its subseconds. -/
def InBounds (unit : ℤ) (x : ℤ) : Prop := lowest unit ≤ x ∧ x ≤ highest unit

/-- **A macro saturates**: it is defined, and of all places only the one of its result is
assigned, which holds the normal time that stands for the number `exact`, clamped; `errno` is set
if and only if `clamped` holds. -/
def Saturates (unit exact : ℤ) (clamped : Prop) (result : L) (m : Memory L)
    (r : Option (Memory L)) : Prop :=
  ∃ v m', r = some m' ∧ Normal unit v ∧
    value unit v = clamp (lowest unit) (highest unit) exact ∧
    m'.cell = Function.update m.cell result v ∧
    (clamped → m'.errno = eoverflow) ∧ (¬ clamped → m'.errno = m.errno)

theorem saturates_write {exact : ℤ} {clamped : Prop} {r : (ℤ × ℤ) × Bool}
    (hn : Normal unit r.1) (hv : value unit r.1 = clamp (lowest unit) (highest unit) exact)
    (hflag : r.2 = true ↔ clamped) :
    Saturates unit exact clamped result m (some (m.write result r)) := by
  refine ⟨r.1, _, rfl, hn, hv, ?_, fun hc => ?_, fun hc => ?_⟩
  · unfold Memory.write
    split <;> rfl
  · rw [Memory.write, if_pos (hflag.mpr hc)]
    rfl
  · rw [Memory.write, if_neg (hflag.not.mpr hc)]
    rfl

theorem not_saturates_none {exact : ℤ} {clamped : Prop} :
    ¬ Saturates unit exact clamped result m none := by
  rintro ⟨_, _, h, -⟩
  cases h

/-- A pair of limbs is out of bounds if its seconds are. -/
theorem not_inBounds_iff {p : ℤ × ℤ} (h : Normal unit p) :
    ¬ InBounds unit (value unit p) ↔ ftTimeMax < p.1 ∨ p.1 < ftTimeMin := by
  rw [InBounds, lowest, highest, ← value_mem_iff ftTimeMin ftTimeMax h]
  omega

theorem timeradd2_snd {p q : ℤ × ℤ} (h : -unit ≤ p.2 + q.2) (h' : p.2 + q.2 < 2 * unit) :
    (timeradd2 unit p q).2 = true ↔ ¬ InBounds unit (value unit p + value unit q) := by
  have hn := normal_carry (p := (p.1 + q.1, p.2 + q.2)) h h'
  have hvalue : value unit p + value unit q = value unit (carry unit (p.1 + q.1, p.2 + q.2)) := by
    rw [value_carry]
    simp only [value]
    ring
  rw [hvalue, not_inBounds_iff hn]
  have hflag : (timeradd2 unit p q).2 = decide (ftTimeMax < (carry unit (p.1 + q.1, p.2 + q.2)).1 ∨
      (carry unit (p.1 + q.1, p.2 + q.2)).1 < ftTimeMin) := by
    simp only [timeradd2, carry]
    repeat' split
    all_goals simp_all
  rw [hflag, decide_eq_true_iff]

theorem timersub2_snd (hu : 0 < unit) {p q : ℤ × ℤ} (h : -unit ≤ p.2 - q.2)
    (h' : p.2 - q.2 < 2 * unit) :
    (timersub2 unit p q).2 = true ↔ ¬ InBounds unit (value unit p - value unit q) := by
  have hn := normal_carry (p := (p.1 - q.1, p.2 - q.2)) h h'
  have hvalue : value unit p - value unit q = value unit (carry unit (p.1 - q.1, p.2 - q.2)) := by
    rw [value_carry]
    simp only [value]
    ring
  rw [hvalue, not_inBounds_iff hn]
  simp only [timersub2, borrow_eq_carry hu]
  split
  next hc => exact iff_of_true rfl hc
  next hc => exact iff_of_false (by simp) hc

theorem timermul2_snd {p : ℤ × ℤ} : (timermul2 unit p c).2 = true ↔
    (highest unit : ℚ) < value unit p * c ∨ (value unit p : ℚ) * c < lowest unit := by
  have hvalue : ((value unit p : ℤ) : ℚ) = (p.1 : ℚ) * unit + p.2 := by
    rw [value]
    push_cast
    ring
  rw [hvalue, highest, lowest, timermul2]
  push_cast
  simp only [decide_eq_true_eq]

/-- **When a sum saturates**: its seconds, before and after the carry, stay within the width of
the wide integer. -/
theorem saturates_timeradd2At_iff (hs : Sized w unit) (ha : Normal unit (m.cell a))
    (hb : Normal unit (m.cell b)) :
    Saturates unit (value unit (m.cell a) + value unit (m.cell b))
        (¬ InBounds unit (value unit (m.cell a) + value unit (m.cell b))) result m
        (timeradd2At w unit a b result m) ↔
      Holds w ((m.cell a).1 + (m.cell b).1) ∧
        (unit ≤ (m.cell a).2 + (m.cell b).2 → Holds w ((m.cell a).1 + (m.cell b).1 + 1)) := by
  have hlo : -unit ≤ (m.cell a).2 + (m.cell b).2 := by
    have := ha.1
    have := hb.1
    have := hs.pos
    omega
  have hhi : (m.cell a).2 + (m.cell b).2 < 2 * unit := by
    have := ha.2
    have := hb.2
    omega
  rw [timeradd2At_eq hs ha hb]
  split
  next h =>
    exact iff_of_true (saturates_write (normal_timeradd2 hlo hhi) (value_timeradd2 hlo hhi)
      (timeradd2_snd hlo hhi)) h
  next h => exact iff_of_false not_saturates_none h

/-- **When a difference saturates.** -/
theorem saturates_timersub2At_iff (hs : Sized w unit) (ha : Normal unit (m.cell a))
    (hb : Normal unit (m.cell b)) :
    Saturates unit (value unit (m.cell a) - value unit (m.cell b))
        (¬ InBounds unit (value unit (m.cell a) - value unit (m.cell b))) result m
        (timersub2At w unit a b result m) ↔
      Holds w ((m.cell a).1 - (m.cell b).1) ∧
        ((m.cell a).2 < (m.cell b).2 → Holds w ((m.cell a).1 - (m.cell b).1 - 1)) := by
  have hlo : -unit ≤ (m.cell a).2 - (m.cell b).2 := by
    have := ha.1
    have := hb.2
    omega
  have hhi : (m.cell a).2 - (m.cell b).2 < 2 * unit := by
    have := ha.2
    have := hb.1
    have := hs.pos
    omega
  rw [timersub2At_eq hs ha hb]
  split
  next h =>
    exact iff_of_true (saturates_write (normal_timersub2 hs.pos hlo hhi)
      (value_timersub2 hs.pos hlo hhi) (timersub2_snd hs.pos hlo hhi)) h
  next h => exact iff_of_false not_saturates_none h

/-- **When a product saturates**: the clamped number of units can be converted to the wide
integer. -/
theorem saturates_timermul2At_iff (hs : Sized w unit) :
    Saturates unit (trunc ((value unit (m.cell a) : ℚ) * c))
        ((highest unit : ℚ) < value unit (m.cell a) * c ∨
          (value unit (m.cell a) : ℚ) * c < lowest unit) result m
        (timermul2At w unit a c result m) ↔
      Holds w (clamp (lowest unit) (highest unit)
        (trunc ((value unit (m.cell a) : ℚ) * c))) := by
  rw [timermul2At_eq hs]
  split
  next h =>
    obtain ⟨hv, hn⟩ := value_timermul2 (a := m.cell a) (c := c) hs.pos
    exact iff_of_true (saturates_write hn hv timermul2_snd) h
  next h => exact iff_of_false not_saturates_none h

end Saturation

/-! ### The two widths -/

section Widths

variable {L : Type} [DecidableEq L] {unit : ℤ} {a b result : L} {m : Memory L}

/-- The seconds of operands, and what is carried to or borrowed from them, fit 128 bits. -/
theorem Operand.holds {p q : ℤ × ℤ} (hp : Operand unit p) (hq : Operand unit q) {x : ℤ}
    (hx : x = p.1 + q.1 ∨ x = p.1 + q.1 + 1 ∨ x = p.1 - q.1 ∨ x = p.1 - q.1 - 1) : Holds 128 x := by
  have hmin : ftTimeMin = -9223372036854775808 := by decide
  have hmax : ftTimeMax = 9223372036854775807 := by decide
  obtain ⟨-, hp0, hp1⟩ := hp
  obtain ⟨-, hq0, hq1⟩ := hq
  constructor
  · norm_num
    omega
  · norm_num
    omega

/-- **The macros are exact saturating arithmetic** where the wide integer has 128 bits. For
microseconds and for nanoseconds, whatever the operands, the factor and the places, equal or not:
no operation overflows, and the place of the result holds the normal time that stands for the
exact sum, the exact difference or the truncated product, clamped to what a time can stand for.
`errno` is set if and only if the exact number is out of these bounds. -/
theorem macros_saturate (hu : PrefixUnit unit) (ha : Operand unit (m.cell a))
    (hb : Operand unit (m.cell b)) (c : ℚ) :
    Saturates unit (value unit (m.cell a) + value unit (m.cell b))
        (¬ InBounds unit (value unit (m.cell a) + value unit (m.cell b))) result m
        (timeradd2At 128 unit a b result m) ∧
      Saturates unit (value unit (m.cell a) - value unit (m.cell b))
        (¬ InBounds unit (value unit (m.cell a) - value unit (m.cell b))) result m
        (timersub2At 128 unit a b result m) ∧
      Saturates unit (trunc ((value unit (m.cell a) : ℚ) * c))
        ((highest unit : ℚ) < value unit (m.cell a) * c ∨
          (value unit (m.cell a) : ℚ) * c < lowest unit) result m
        (timermul2At 128 unit a c result m) := by
  have hs := hu.sized (w := 128) (by decide)
  refine ⟨?_, ?_, ?_⟩
  · refine (saturates_timeradd2At_iff hs ha.normal hb.normal).mpr ⟨?_, fun _ => ?_⟩
    · exact ha.holds hb (Or.inl rfl)
    · exact ha.holds hb (Or.inr (Or.inl rfl))
  · refine (saturates_timersub2At_iff hs ha.normal hb.normal).mpr ⟨?_, fun _ => ?_⟩
    · exact ha.holds hb (Or.inr (Or.inr (Or.inl rfl)))
    · exact ha.holds hb (Or.inr (Or.inr (Or.inr rfl)))
  · -- a clamped number is between bounds that fit
    refine (saturates_timermul2At_iff hs).mpr ?_
    have hends : Holds 128 (lowest unit) ∧ Holds 128 (highest unit) := by
      rcases hu with rfl | rfl
      · exact ⟨by decide, by decide⟩
      · exact ⟨by decide, by decide⟩
    obtain ⟨hneg, hnonneg⟩ := hs.bounds
    exact hends.1.between hends.2 le_clamp (clamp_le (by omega))

/-- A time in two places, and the sum of both in the first of them. -/
theorem macros_saturate_in_place :
    Saturates secToNSec 9223372036854775807999999999
    (¬ InBounds secToNSec 9223372036854775807999999999)
      true ⟨fun l => if l then (9223372036854775807, 0) else (0, 999999999), 0⟩
      (timeradd2At 128 secToNSec true false true
        ⟨fun l => if l then (9223372036854775807, 0) else (0, 999999999), 0⟩) :=
  And.left (macros_saturate (Or.inr rfl) ⟨by decide, by decide, by decide⟩
    ⟨by decide, by decide, by decide⟩ 1)

/-- A number that is clamped to the bounds of a time fits 64 bits if the number does. -/
theorem holds_clamp_iff (hu : PrefixUnit unit) {x : ℤ} :
    Holds 64 (clamp (lowest unit) (highest unit) x) ↔ Holds 64 x := by
  have hends : lowest unit ≤ -2 ^ 63 - 1 ∧ 2 ^ 63 ≤ highest unit := by
    rcases hu with rfl | rfl
    · exact ⟨by decide, by decide⟩
    · exact ⟨by decide, by decide⟩
  norm_num at hends
  unfold Holds clamp
  norm_num
  omega

/-- **Where the macros saturate if the wide integer has 64 bits**, as many as `tv_sec`: a sum or
a difference does if and only if its seconds fit, before and after the carry, so that there is
nothing to saturate; a product does if and only if its subseconds fit, which is far from where a
time ends. -/
theorem narrow_macros_saturate_iff (hu : PrefixUnit unit) (ha : Operand unit (m.cell a))
    (hb : Operand unit (m.cell b)) (c : ℚ) :
    (Saturates unit (value unit (m.cell a) + value unit (m.cell b))
        (¬ InBounds unit (value unit (m.cell a) + value unit (m.cell b))) result m
        (timeradd2At 64 unit a b result m) ↔
      Holds 64 ((m.cell a).1 + (m.cell b).1) ∧
        (unit ≤ (m.cell a).2 + (m.cell b).2 → Holds 64 ((m.cell a).1 + (m.cell b).1 + 1))) ∧
    (Saturates unit (value unit (m.cell a) - value unit (m.cell b))
        (¬ InBounds unit (value unit (m.cell a) - value unit (m.cell b))) result m
        (timersub2At 64 unit a b result m) ↔
      Holds 64 ((m.cell a).1 - (m.cell b).1) ∧
        ((m.cell a).2 < (m.cell b).2 → Holds 64 ((m.cell a).1 - (m.cell b).1 - 1))) ∧
    (Saturates unit (trunc ((value unit (m.cell a) : ℚ) * c))
        ((highest unit : ℚ) < value unit (m.cell a) * c ∨
          (value unit (m.cell a) : ℚ) * c < lowest unit) result m
        (timermul2At 64 unit a c result m) ↔
      -2 ^ 63 - 1 < (value unit (m.cell a) : ℚ) * c ∧
        (value unit (m.cell a) : ℚ) * c < 2 ^ 63) := by
  have hs := hu.sized (w := 64) (by decide)
  refine ⟨saturates_timeradd2At_iff hs ha.normal hb.normal,
    saturates_timersub2At_iff hs ha.normal hb.normal, ?_⟩
  rw [saturates_timermul2At_iff hs, holds_clamp_iff hu, Holds,
    le_trunc_iff_of_nonpos (by decide), trunc_lt_iff_of_pos (by decide)]
  push_cast
  norm_num

/-- Ten seconds and ten seconds. -/
theorem narrow_sum_within_width :
    Saturates secToNSec 20000000000 (¬ InBounds secToNSec 20000000000) true
      ⟨fun _ => (10, 0), 0⟩ (timeradd2At 64 secToNSec true false true ⟨fun _ => (10, 0), 0⟩) :=
  Iff.mpr (And.left (narrow_macros_saturate_iff (Or.inr rfl) ⟨by decide, by decide, by decide⟩
    ⟨by decide, by decide, by decide⟩ 1)) ⟨by decide, by decide⟩

/-- A sum that has to be saturated is undefined, and so is the product of ten thousand million
seconds and one. -/
theorem narrow_macros_overflow :
    ¬ Saturates secToNSec (2 ^ 63 * 1000000000) (¬ InBounds secToNSec (2 ^ 63 * 1000000000)) true
        ⟨fun _ => (2 ^ 62, 0), 0⟩
        (timeradd2At 64 secToNSec true false true ⟨fun _ => (2 ^ 62, 0), 0⟩) ∧
      ¬ Saturates secToNSec 10000000000000000000 False true ⟨fun _ => (10000000000, 0), 0⟩
        (timermul2At 64 secToNSec true 1 true ⟨fun _ => (10000000000, 0), 0⟩) := by
  have hs : Sized 64 secToNSec := PrefixUnit.sized (Or.inr rfl) (by decide)
  constructor
  · exact (saturates_timeradd2At_iff (L := Bool) (a := true) (b := false)
      (m := ⟨fun _ => (2 ^ 62, 0), 0⟩) hs (by decide) (by decide)).not.mpr (by decide)
  · rw [timermul2At_eq hs, mul_one, trunc_intCast, if_neg (by decide)]
    exact not_saturates_none

end Widths

end LibFaketime
