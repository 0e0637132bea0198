import LibFaketime.State
import LibFaketime.Lib.Rounding
import Mathlib.Data.List.TakeWhile

/-!
# Reading numbers from settings

The numeric helpers at the head of `libfaketime.c`, over the two conversions of the
C library they are built on. A `double` is a rational number here, and what a result is
rounded to is a parameter (`LibFaketime.Floats`): nothing is rounded in exact arithmetic,
which is meant where no other is named, and `LibFaketime.Floats.ieee` is the arithmetic of
the machine. The range of the floating-point format decides in both of them when a conversion
reports `ERANGE` and when a product is not finite (`LibFaketime.isfinite`).
-/

namespace LibFaketime

open Saturate

/-! ### Characters -/

/-- `isspace` in the C locale. -/
def isspace (c : Char) : Bool :=
  c == ' ' || c == '\t' || c == '\n' || c == '\r' || c == Char.ofNat 11 || c == Char.ofNat 12

/-- The value of a digit in some base up to sixteen. -/
def digitVal (c : Char) : Option ℕ :=
  if '0' ≤ c ∧ c ≤ '9' then some (c.toNat - 48)
  else if 'a' ≤ c ∧ c ≤ 'f' then some (c.toNat - 87)
  else if 'A' ≤ c ∧ c ≤ 'F' then some (c.toNat - 55)
  else none

/-- A digit of the given base. -/
def isDigit (base : ℕ) (c : Char) : Bool := (digitVal c).any (· < base)

/-- The number a list of digits denotes. -/
def digitsVal (base : ℕ) (l : CStr) : ℕ := l.foldl (fun n c => n * base + (digitVal c).getD 0) 0

/-- `strchr`: the rest of the string from the first occurrence of `c` on. -/
def strchr (s : CStr) (c : Char) : Option CStr :=
  match s.dropWhile (· ≠ c) with
  | [] => none
  | rest => some rest

/-- What `strchr` finds is there. -/
theorem mem_of_strchr {s rest : CStr} {c : Char} (h : strchr s c = some rest) : c ∈ s := by
  by_contra hc
  have hnil : s.dropWhile (· ≠ c) = [] := by
    refine List.dropWhile_eq_nil_iff.mpr fun x hx => ?_
    exact decide_eq_true fun hxc => hc (hxc ▸ hx)
  rw [strchr, hnil] at h
  cases h

/-! ### The arithmetic -/

/-- **What the results of floating-point operations are rounded to**: in a `double`, and in a
`long double`, which has at least sixty-four bits. -/
structure Floats where
  double : ℚ → ℚ
  long : ℚ → ℚ
  double_double : ∀ q, double (double q) = double q
  abs_double_sub_le : ∀ q, |double q - q| ≤ max (|q| / 2 ^ 53) (2 ^ (-1074 : ℤ) / 2)
  abs_long_sub_le : ∀ q, |long q - q| ≤ |q| / 2 ^ 64

/-- Exact arithmetic. -/
@[reducible] def Floats.exact : Floats where
  double q := q
  long q := q
  double_double _ := rfl
  abs_double_sub_le q := by
    rw [sub_self, abs_zero]
    positivity
  abs_long_sub_le q := by
    rw [sub_self, abs_zero]
    positivity

theorem double_double_ieee (q : ℚ) : Rounding.gradual 53 (-1074) (Rounding.gradual 53 (-1074) q) =
    Rounding.gradual 53 (-1074) q := Rounding.gradual_gradual (by decide) (-1074) q

theorem abs_double_sub_le_ieee (q : ℚ) : |Rounding.gradual 53 (-1074) q - q| ≤
    max (|q| / 2 ^ 53) (2 ^ (-1074 : ℤ) / 2) := Rounding.abs_gradual_sub_le 53 (-1074) q

theorem abs_long_sub_le_ieee (q : ℚ) : |Rounding.nearest 64 q - q| ≤ |q| / 2 ^ 64 :=
  Rounding.abs_nearest_sub_le 64 q

/-- The arithmetic of the machine: the nearest `double` of fifty-three bits, and the nearest
`long double` of sixty-four. -/
def Floats.ieee : Floats where
  double := Rounding.gradual 53 (-1074)
  long := Rounding.nearest 64
  double_double := double_double_ieee
  abs_double_sub_le := abs_double_sub_le_ieee
  abs_long_sub_le := abs_long_sub_le_ieee

/-- Half of a number remains when it is rounded, if it is not small. -/
theorem Floats.abs_le_abs_double (fl : Floats) {q : ℚ} (hq : 1 ≤ |q|) :
    |q| / 2 ≤ |fl.double q| := by
  have hsmall : max (|q| / 2 ^ 53) ((2 : ℚ) ^ (-1074 : ℤ) / 2) ≤ |q| / 2 := by
    refine max_le (by gcongr; norm_num) ?_
    have hone : (2 : ℚ) ^ (-1074 : ℤ) ≤ 1 := zpow_le_one_of_nonpos₀ one_le_two (by norm_num)
    linarith
  have hnear := (fl.abs_double_sub_le q).trans hsmall
  have htriangle := abs_sub_abs_le_abs_sub q (fl.double q)
  rw [abs_sub_comm] at htriangle
  linarith

theorem Floats.long_nonneg (fl : Floats) {q : ℚ} (hq : 0 ≤ q) : 0 ≤ fl.long q := by
  have hnear := (abs_le.mp (fl.abs_long_sub_le q)).1
  have hle : |q| / 2 ^ 64 ≤ q := by
    rw [abs_of_nonneg hq]
    exact div_le_self hq (by norm_num)
  linarith

/-! ### `strtol` and `strtod` -/

/-- `strtol(value, &end, 10)`: the number and the rest of the string, or nothing if
no digit was found. -/
def strtol (value : CStr) : Option (ℤ × CStr) :=
  let s := value.dropWhile isspace
  let (neg, s) := match s with
    | '-' :: s => (true, s)
    | '+' :: s => (false, s)
    | s => (false, s)
  let digits := s.takeWhile (isDigit 10)
  if digits = [] then none
  else
    let n : ℤ := digitsVal 10 digits
    some (if neg then -n else n, s.dropWhile (isDigit 10))

/-- The digits of a number whose prefix decides its base: its value and the rest of the
string. The prefix `0x` belongs to the number only if a hexadecimal digit follows it. -/
def prefixedDigits (s : CStr) : Option (ℕ × CStr) :=
  let hex := (s.drop 2).takeWhile (isDigit 16)
  if "0x".toList <+: s.map Char.toLower ∧ hex ≠ [] then
    some (digitsVal 16 hex, (s.drop 2).dropWhile (isDigit 16))
  else
    let base := if s.head? = some '0' then 8 else 10
    let digits := s.takeWhile (isDigit base)
    if digits = [] then none else some (digitsVal base digits, s.dropWhile (isDigit base))

/-- What `strtol` and `strtoull` read with base `0`: whether there is a minus sign, the
number after it, and the rest of the string. -/
def strtoPrefixed (value : CStr) : Option (Bool × ℕ × CStr) :=
  match value.dropWhile isspace with
  | '-' :: s => (prefixedDigits s).map fun r => (true, r)
  | '+' :: s => (prefixedDigits s).map fun r => (false, r)
  | s => (prefixedDigits s).map fun r => (false, r)

/-- What `strtod` makes of a text it accepts. -/
inductive StrtodValue where
  | finite (q : ℚ)
  /-- An infinity or a NaN. -/
  | nonfinite

/-- The exponent part of a floating-point text: `e` (or `p`), a sign and digits. If
any of it is missing, nothing is consumed. -/
def strtodExponent (marks : List Char) (s : CStr) : ℤ × CStr :=
  match s with
  | c :: rest =>
    if c ∈ marks then
      let (neg, digits) := match rest with
        | '-' :: r => (true, r)
        | '+' :: r => (false, r)
        | r => (false, r)
      let ds := digits.takeWhile (isDigit 10)
      if ds = [] then (0, s)
      else
        let n : ℤ := digitsVal 10 ds
        (if neg then -n else n, digits.dropWhile (isDigit 10))
    else (0, s)
  | [] => (0, s)

/-- Digits with an optional point among them: their value, and the rest. -/
def strtodMantissa (base : ℕ) (s : CStr) : Option (ℚ × CStr) :=
  let whole := s.takeWhile (isDigit base)
  let rest := s.dropWhile (isDigit base)
  match rest with
  | '.' :: tail =>
    let frac := tail.takeWhile (isDigit base)
    if whole = [] ∧ frac = [] then none
    else some ((digitsVal base (whole ++ frac) : ℚ) / (base : ℚ) ^ frac.length,
      tail.dropWhile (isDigit base))
  | _ => if whole = [] then none else some ((digitsVal base whole : ℚ), rest)

/-- The text after the sign. The prefix `0x` belongs to the number only if a
hexadecimal digit follows it. -/
def strtodUnsigned (s : CStr) : Option (StrtodValue × CStr) :=
  let lower := s.map Char.toLower
  if "infinity".toList <+: lower then some (.nonfinite, s.drop 8)
  else if "inf".toList <+: lower then some (.nonfinite, s.drop 3)
  else if "nan".toList <+: lower then some (.nonfinite, s.drop 3)
  else
    let decimal : Option (StrtodValue × CStr) := do
      let (m, rest) ← strtodMantissa 10 s
      let (e, rest) := strtodExponent ['e', 'E'] rest
      return (.finite (m * (10 : ℚ) ^ e), rest)
    if "0x".toList <+: lower then
      match strtodMantissa 16 (s.drop 2) with
      | some (m, rest) =>
        let (e, rest) := strtodExponent ['p', 'P'] rest
        some (.finite (m * (2 : ℚ) ^ e), rest)
      | none => decimal
    else decimal

/-- What a text denotes that `strtod` is given, and the rest of the string, or nothing if no
conversion can be made. -/
def strtodExact (value : CStr) : Option (StrtodValue × CStr) :=
  match value.dropWhile isspace with
  | '-' :: s => (strtodUnsigned s).map fun (v, rest) =>
      (match v with
        | .finite q => .finite (-q)
        | .nonfinite => .nonfinite, rest)
  | '+' :: s => strtodUnsigned s
  | s => strtodUnsigned s

/-- The nearest `double`. -/
def StrtodValue.round (fl : Floats) : StrtodValue → StrtodValue
  | .finite q => .finite (fl.double q)
  | .nonfinite => .nonfinite

/-- `strtod(value, &end)`: what was read and the rest of the string, or nothing if
no conversion could be made. -/
def strtod (value : CStr) (fl : Floats := .exact) : Option (StrtodValue × CStr) :=
  (strtodExact value).map fun (v, rest) => (v.round fl, rest)

/-- `isfinite` of a computed `double`: halfway beyond the greatest finite value the
result rounds to infinity. -/
def isfinite (q : ℚ) : Bool := decide (|q| < 2 ^ 1024 - 2 ^ 970)

/-- A result is out of the range of `double`: it overflows, or it is too small for a normal
number and bits are lost. -/
def outOfRange (q : ℚ) (fl : Floats := .exact) : Bool :=
  !isfinite q || (decide (fl.double q ≠ q) && decide (|Rounding.nearest 53 q| < 1 / 2 ^ 1022))

/-- Where nothing is rounded, no bits are lost. -/
theorem outOfRange_exact (q : ℚ) : outOfRange q = !isfinite q := by
  have h : decide (q ≠ q) = false := by simp
  change (!isfinite q || (decide (q ≠ q) && _)) = _
  rw [h, Bool.false_and, Bool.or_false]

/-- `errno = ERANGE` after `strtod`. -/
def strtodErange (value : CStr) (fl : Floats := .exact) : Bool :=
  match strtodExact value with
  | some (.finite q, _) => outOfRange q fl
  | _ => false

/-! ### Decimal texts -/

theorem isDigit_of_mem_toDigits {n : ℕ} {c : Char} (h : c ∈ Nat.toDigits 10 n) :
    isDigit 10 c = true ∧ (digitVal c).getD 0 = c.toNat - 48 := by
  have hc := Nat.isDigit_of_mem_toDigits (by decide) (by decide) h
  simp only [Char.isDigit, Bool.and_eq_true, decide_eq_true_eq, ge_iff_le] at hc
  have h0 : '0' ≤ c ∧ c ≤ '9' := hc
  have hv : digitVal c = some (c.toNat - 48) := by rw [digitVal, if_pos h0]
  have hle : c.toNat ≤ 57 := hc.2
  rw [isDigit, hv]
  refine ⟨?_, rfl⟩
  simp only [Option.any_some, decide_eq_true_eq]
  omega

/-- The digits of a number denote it. -/
theorem digitsVal_toDigits (n : ℕ) : digitsVal 10 (Nat.toDigits 10 n) = n := by
  have h := Nat.ofDigitChars_ten_toDigits (n := n)
  rw [Nat.ofDigitChars_eq_foldl] at h
  rw [digitsVal]
  refine Eq.trans ?_ h
  refine List.foldl_ext _ _ 0 fun m c hc => ?_
  rw [(isDigit_of_mem_toDigits hc).2, Nat.mul_comm]
  rfl

/-- The first digit of a number is not a zero. -/
theorem head?_toDigits_ne {n : ℕ} (h : 0 < n) : (Nat.toDigits 10 n).head? ≠ some '0' := by
  induction n using Nat.strongRecOn with
  | _ n ih =>
    rcases lt_or_ge n 10 with hlt | hge
    · rw [Nat.toDigits_of_lt_base hlt]
      have hdigit : ∀ m : Fin 10, 0 < m.val → [m.val.digitChar].head? ≠ some '0' := by decide
      exact hdigit ⟨n, hlt⟩ h
    · rw [Nat.toDigits_of_base_le (by decide) hge,
        List.head?_append_of_ne_nil _ Nat.toDigits_ne_nil]
      exact ih (n / 10) (by omega) (by omega)

theorem ne_of_isDigit {c d : Char} (h : isDigit 10 c = true) (hd : isDigit 10 d = false) :
    c ≠ d := by
  rintro rfl
  rw [h] at hd
  cases hd

theorem isspace_of_isDigit {c : Char} (h : isDigit 10 c = true) : isspace c = false := by
  simp only [isspace, Bool.or_eq_false_iff, beq_eq_false_iff_ne]
  exact ⟨⟨⟨⟨⟨ne_of_isDigit h (by decide), ne_of_isDigit h (by decide)⟩,
    ne_of_isDigit h (by decide)⟩, ne_of_isDigit h (by decide)⟩, ne_of_isDigit h (by decide)⟩,
    ne_of_isDigit h (by decide)⟩

theorem toLower_of_isDigit {c : Char} (h : isDigit 10 c = true) : c.toLower = c := by
  have h9 : ¬ 65 ≤ c.toNat := by
    intro hc
    have hdigit : ¬ ('0' ≤ c ∧ c ≤ '9') := fun h09 => by
      have : c.toNat ≤ 57 := h09.2
      omega
    rw [isDigit, digitVal, if_neg hdigit] at h
    split_ifs at h with ha hA
    · have hlow : 97 ≤ c.toNat := ha.1
      simp only [Option.any_some, decide_eq_true_eq] at h
      omega
    · simp only [Option.any_some, decide_eq_true_eq] at h
      omega
    · cases h
  exact dif_neg fun hA => h9 hA.1

theorem takeWhile_toDigits (n : ℕ) (rest : CStr)
    (h : ∀ c, rest.head? = some c → isDigit 10 c = false) :
    (Nat.toDigits 10 n ++ rest).takeWhile (isDigit 10) = Nat.toDigits 10 n ∧
      (Nat.toDigits 10 n ++ rest).dropWhile (isDigit 10) = rest := by
  have hall : ∀ c ∈ Nat.toDigits 10 n, isDigit 10 c = true := fun c hc =>
    (isDigit_of_mem_toDigits hc).1
  rw [List.takeWhile_append_of_pos hall, List.dropWhile_append_of_pos hall]
  cases rest with
  | nil => simp
  | cons c rest => simp [h c rfl]

/-- A number that is printed is read again, in whatever base its digits suggest. -/
theorem strtoPrefixed_toDigits {n : ℕ} (h : 0 < n) :
    strtoPrefixed (Nat.toDigits 10 n) = some (false, n, []) := by
  obtain ⟨htake, hdrop⟩ := takeWhile_toDigits n [] (by simp)
  have hval := digitsVal_toDigits n
  have hhead := head?_toDigits_ne h
  have hmem : ∀ c ∈ Nat.toDigits 10 n, isDigit 10 c = true := fun c hc =>
    (isDigit_of_mem_toDigits hc).1
  rw [List.append_nil] at htake hdrop
  cases hs : Nat.toDigits 10 n with
  | nil => exact absurd hs Nat.toDigits_ne_nil
  | cons c s =>
    rw [hs] at htake hdrop hhead hval hmem
    have hc := hmem c (List.mem_cons_self ..)
    have h0 : c ≠ '0' := fun h0 => hhead (by rw [h0]; rfl)
    have hdigits : prefixedDigits (c :: s) = some (n, []) := by
      have hlower : ¬ "0x".toList <+: (c :: s).map Char.toLower := by
        intro hp
        exact h0 ((toLower_of_isDigit hc).symm.trans (List.cons_prefix_cons.mp hp).1.symm)
      rw [prefixedDigits, if_neg fun hp => hlower hp.1]
      simp only [List.head?_cons, Option.some.injEq, h0, if_false, htake, hdrop, hval]
      simp
    have hspace : (c :: s).dropWhile isspace = c :: s := by
      rw [List.dropWhile_cons, isspace_of_isDigit hc]
      rfl
    rw [strtoPrefixed, hspace]
    split
    · rename_i heq
      cases heq
      exact absurd rfl (ne_of_isDigit hc (by decide))
    · rename_i heq
      cases heq
      exact absurd rfl (ne_of_isDigit hc (by decide))
    · rw [hdigits]
      rfl

/-! ### The helpers -/

/-- `parse_long_setting`: the value, or nothing where the source prints
`invalid numeric value` and exits. -/
def parseLongSetting (value : CStr) : Option ℤ :=
  match strtol value with
  | some (n, []) => if ftTimeMin ≤ n ∧ n ≤ ftTimeMax then some n else none
  | _ => none

/-- `parse_finite_double_prefix`: the number and the rest, when it returns true. -/
def parseFiniteDoublePrefix (value : CStr) (fl : Floats := .exact) : Option (ℚ × CStr) :=
  match strtod value fl with
  | some (.finite q, rest) => if strtodErange value fl then none else some (q, rest)
  | _ => none

/-- A number in the range is read and rounded. -/
theorem parseFiniteDoublePrefix_of_exact {value rest : CStr} {q : ℚ} {fl : Floats}
    (h : strtodExact value = some (.finite q, rest)) (hrange : outOfRange q fl = false) :
    parseFiniteDoublePrefix value fl = some (fl.double q, rest) := by
  have hread : strtod value fl = some (.finite (fl.double q), rest) := by
    rw [strtod, h]
    rfl
  have herange : strtodErange value fl = false := by
    rw [strtodErange, h]
    exact hrange
  rw [parseFiniteDoublePrefix, hread, herange]
  rfl

/-- `parse_finite_double`. -/
def parseFiniteDouble (value : CStr) (fl : Floats := .exact) : Option ℚ :=
  match parseFiniteDoublePrefix value fl with
  | some (q, []) => some q
  | _ => none

/-- `scale_finite_double`. -/
def scaleFiniteDouble (value factor : ℚ) (fl : Floats := .exact) : Option ℚ :=
  if isfinite (value * factor) then some (fl.double (value * factor)) else none

/-- The nanoseconds of a fractional number of seconds, as a `long double`. -/
def longNsec (value : ℚ) (fl : Floats) : ℚ := fl.long (fl.long (value - ⌊value⌋) * secToNSec)

/-- `double_to_timespec`: floor and fraction, with strict bounds on the floor. -/
def doubleToTimespec (value : ℚ) (fl : Floats := .exact) : Option Timespec :=
  let whole : ℤ := ⌊value⌋
  if (0 ≤ whole ∧ ftTimeMax ≤ whole) ∨ (whole < 0 ∧ whole ≤ ftTimeMin) then none
  else
    let nsec : ℤ := trunc (longNsec value fl)
    if secToNSec ≤ nsec then some ⟨whole + 1, 0⟩ else some ⟨whole, nsec⟩

theorem longNsec_exact (q : ℚ) : longNsec q .exact = (q - ⌊q⌋) * secToNSec := rfl

theorem longNsec_nonneg (q : ℚ) (fl : Floats) : 0 ≤ longNsec q fl := by
  have hfloor : 0 ≤ q - ⌊q⌋ := sub_nonneg.mpr (Int.floor_le q)
  exact fl.long_nonneg (mul_nonneg (fl.long_nonneg hfloor) (by norm_num [secToNSec]))

/-- What `double_to_timespec` gives is normalized. -/
theorem normal_of_doubleToTimespec {q : ℚ} {fl : Floats} {t : Timespec}
    (h : doubleToTimespec q fl = some t) : t.Normal := by
  have hnonneg : 0 ≤ trunc (longNsec q fl) :=
    trunc_nonneg_iff.mpr (by linarith [longNsec_nonneg q fl])
  simp only [doubleToTimespec] at h
  split_ifs at h with hrange hlt
  · cases h
    exact ⟨le_refl 0, show (0 : ℤ) < 1000000000 by decide⟩
  · cases h
    exact ⟨hnonneg, not_le.mp hlt⟩

/-- The nanoseconds of a fractional number of seconds, as the timestamp parser
truncates them. -/
def fractionNsec (q : ℚ) (fl : Floats := .exact) : ℤ :=
  trunc (fl.double (fl.double (q - ⌊q⌋) * secToNSec))

/-- The fraction of a second, in nanoseconds. -/
theorem fraction_mem (q : ℚ) :
    0 ≤ (q - ⌊q⌋) * (secToNSec : ℚ) ∧ (q - ⌊q⌋) * (secToNSec : ℚ) < 1000000000 := by
  have h0 := Int.floor_le q
  have h1 := Int.lt_floor_add_one q
  have hsec : (secToNSec : ℚ) = 1000000000 := by norm_num [secToNSec]
  rw [hsec]
  exact ⟨mul_nonneg (by linarith) (by norm_num), by linarith⟩

/-- The fraction of a number of seconds is less than a second. -/
theorem fractionNsec_mem (q : ℚ) : 0 ≤ fractionNsec q ∧ fractionNsec q < 1000000000 := by
  obtain ⟨hx, hlt⟩ := fraction_mem q
  constructor
  · exact trunc_nonneg_iff.mpr (by linarith)
  · rw [fractionNsec, trunc_of_nonneg hx, Int.floor_lt]
    push_cast
    exact hlt

end LibFaketime
