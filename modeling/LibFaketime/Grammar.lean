import LibFaketime.Calls
import LibFaketime.Lib.Scan

/-!
# The grammar of offsets

A text that begins with a sign is an offset: a number, a unit, blanks, and a modifier. The number
is read from the left by `strtod`, but the modifier is looked for from the left again: the first
`x` of the text begins a rate. A hexadecimal number has an `x` of its own.

The grammar is stated by itself (`LibFaketime.OffsetGrammar`), and `parse_ft_string` keeps to it
if and only if no `x` comes before the modifier, or one that does makes no difference
(`LibFaketime.offset_grammar_iff`). An `i` never comes before it, since `strtod` reads none in
a finite number.

All this is so in any arithmetic. The number, its product with the unit and the nanoseconds of the
fraction are rounded, and what becomes of them is the floor of the number of seconds, up to that
rounding (`LibFaketime.isFloorOf_floorTimespec`).
-/

namespace LibFaketime

open Effects Effects.Prog Saturate Scan

/-! ### What `strtod` reads -/

section Strtod

variable {s rest : CStr} {base : ℕ} {m q : ℚ} {e : ℤ} {fl : Floats}

/-- What is read in a finite number. -/
def NotI (c : Char) : Prop := c ≠ 'i'

instance (c : Char) : Decidable (NotI c) := inferInstanceAs (Decidable (c ≠ 'i'))

theorem notI_of_isDigit {c : Char} (h : isDigit base c = true) : NotI c := by
  rintro rfl
  cases h

theorem notI_of_isspace {c : Char} (h : isspace c = true) : NotI c := by
  rintro rfl
  revert h
  decide

theorem consumes_digits (base : ℕ) (s : CStr) : Consumes NotI s (s.dropWhile (isDigit base)) :=
  consumes_dropWhile (fun _ => notI_of_isDigit) s

theorem consumes_blanks (s : CStr) : Consumes NotI s (s.dropWhile isspace) :=
  consumes_dropWhile (fun _ => notI_of_isspace) s

theorem consumes_strtodExponent {marks : List Char} (hmarks : 'i' ∉ marks)
    (h : strtodExponent marks s = (e, rest)) : Consumes NotI s rest := by
  cases s with
  | nil =>
    cases h
    exact .refl _ _
  | cons c tail =>
    have hdigits : ∀ (neg : Bool) (t : CStr), Consumes NotI (c :: tail) t →
        (if t.takeWhile (isDigit 10) = [] then ((0 : ℤ), c :: tail) else
          (if neg = true then -(digitsVal 10 (t.takeWhile (isDigit 10)) : ℤ)
            else digitsVal 10 (t.takeWhile (isDigit 10)), t.dropWhile (isDigit 10))) = (e, rest) →
          Consumes NotI (c :: tail) rest := by
      intro neg t ht h
      split at h
      · cases h
        exact .refl _ _
      · obtain ⟨-, rfl⟩ := Prod.mk.inj h
        exact ht.trans (consumes_digits 10 t)
    unfold strtodExponent at h
    dsimp only at h
    split at h
    next hc =>
      have hc : NotI c := fun heq => hmarks (heq ▸ hc)
      split at h
      · exact hdigits true _ (.cons hc (.cons (by decide) (.refl _ _))) h
      · exact hdigits false _ (.cons hc (.cons (by decide) (.refl _ _))) h
      · exact hdigits false _ (.cons hc (.refl _ _)) h
    next =>
      cases h
      exact .refl _ _

theorem consumes_strtodMantissa (h : strtodMantissa base s = some (m, rest)) :
    Consumes NotI s rest := by
  unfold strtodMantissa at h
  dsimp only at h
  split at h
  next tail heq =>
    split at h
    · cases h
    · cases h
      have hpoint := consumes_digits base s
      rw [heq] at hpoint
      exact hpoint.trans (.cons (by decide) (consumes_digits base tail))
  next =>
    split at h
    · cases h
    · cases h
      exact consumes_digits base s

theorem consumes_strtodUnsigned (h : strtodUnsigned s = some (.finite q, rest)) :
    Consumes NotI s rest := by
  have hparts : ∀ {base marks t}, 'i' ∉ marks → ∀ {m r}, strtodMantissa base t = some (m, r) →
      Consumes NotI t (strtodExponent marks r).2 := fun hmarks _ _ hm =>
    (consumes_strtodMantissa hm).trans (consumes_strtodExponent hmarks rfl)
  have hdecimal : (strtodMantissa 10 s).bind (fun x => some (StrtodValue.finite
      (x.1 * (10 : ℚ) ^ (strtodExponent ['e', 'E'] x.2).1), (strtodExponent ['e', 'E'] x.2).2)) =
        some (.finite q, rest) → Consumes NotI s rest := by
    intro h
    obtain ⟨x, hm, hx⟩ := Option.bind_eq_some_iff.mp h
    cases hx
    exact hparts (by decide) hm
  unfold strtodUnsigned at h
  dsimp only at h
  split at h
  · cases h
  split at h
  · cases h
  split at h
  · cases h
  split at h
  next hfirst =>
    split at h
    next m r hm =>
      cases h
      -- the two characters of the prefix
      have hread : Consumes NotI s (s.drop 2) := by
        have hlower : ∀ c d : Char, c = d.toLower → c ≠ 'i' → NotI d := by
          rintro c d rfl hne rfl
          exact hne (by decide)
        obtain ⟨tail, htail⟩ := hfirst
        change '0' :: 'x' :: tail = s.map Char.toLower at htail
        match s, htail with
        | [], htail => exact nomatch htail
        | [_], htail => exact nomatch (List.cons.inj htail).2
        | c :: d :: _, htail =>
          obtain ⟨hc, htail⟩ := List.cons.inj htail
          obtain ⟨hd, -⟩ := List.cons.inj htail
          exact .cons (hlower _ c hc (by decide)) (.cons (hlower _ d hd (by decide)) (.refl _ _))
      exact hread.trans (hparts (by decide) hm)
    next => exact hdecimal h
  next => exact hdecimal h

theorem consumes_strtodExact (h : strtodExact s = some (.finite q, rest)) :
    Consumes NotI s rest := by
  have hblanks := consumes_blanks s
  unfold strtodExact at h
  split at h
  next t heq =>
    rw [heq] at hblanks
    obtain ⟨⟨v, r⟩, hr, hv⟩ := Option.map_eq_some_iff.mp h
    cases v with
    | finite x =>
      cases hv
      exact hblanks.trans (.cons (by decide) (consumes_strtodUnsigned hr))
    | nonfinite => cases hv
  next t heq =>
    rw [heq] at hblanks
    exact hblanks.trans (.cons (by decide) (consumes_strtodUnsigned h))
  next => exact hblanks.trans (consumes_strtodUnsigned h)

/-- `strtod` rounds what the text denotes. -/
theorem strtod_iff : strtod s fl = some (.finite q, rest) ↔
    ∃ x, strtodExact s = some (.finite x, rest) ∧ fl.double x = q := by
  unfold strtod
  constructor
  · intro h
    obtain ⟨⟨v, r⟩, hr, hv⟩ := Option.map_eq_some_iff.mp h
    cases v with
    | finite x =>
      cases hv
      exact ⟨x, hr, rfl⟩
    | nonfinite => cases hv
  · rintro ⟨x, hx, rfl⟩
    rw [hx]
    rfl

theorem consumes_strtod (h : strtod s fl = some (.finite q, rest)) : Consumes NotI s rest := by
  obtain ⟨x, hx, -⟩ := strtod_iff.mp h
  exact consumes_strtodExact hx

/-- What is read is a `double`. -/
theorem double_of_strtod (h : strtod s fl = some (.finite q, rest)) : fl.double q = q := by
  obtain ⟨x, -, rfl⟩ := strtod_iff.mp h
  exact fl.double_double x

theorem consumes_parseFiniteDoublePrefix (h : parseFiniteDoublePrefix s fl = some (q, rest)) :
    Consumes NotI s rest := by
  unfold parseFiniteDoublePrefix at h
  split at h
  next x r hr =>
    split at h
    · cases h
    · cases h
      exact consumes_strtod hr
  next => cases h

end Strtod

/-! ### The grammar -/

/-- The numbers of seconds that can be converted: those within the limits of `time_t`, which are
left out themselves. -/
def InTimeRange (q : ℚ) : Prop := ftTimeMin < ⌊q⌋ ∧ ⌊q⌋ < ftTimeMax

instance (q : ℚ) : Decidable (InTimeRange q) := inferInstanceAs (Decidable (_ ∧ _))

/-- A number of seconds, with the fraction counted upwards from the seconds. The fraction may be
rounded up to a whole second. -/
def floorTimespec (q : ℚ) (fl : Floats := .exact) : Timespec :=
  if secToNSec ≤ ⌊longNsec q fl⌋ then ⟨⌊q⌋ + 1, 0⟩ else ⟨⌊q⌋, ⌊longNsec q fl⌋⟩

/-- **The time `t` is a number of seconds, rounded downwards to nanoseconds and normalized.** The
nanoseconds are those of a `long double`, which may be off by `2 ^ -33` of one. -/
def Timespec.IsFloorOf (t : Timespec) (q : ℚ) : Prop :=
  ∃ x : ℚ, |x - q * secToNSec| ≤ 1 / 2 ^ 33 ∧ t = .ofNs ⌊x⌋

/-- The text is a finite number, and nothing else. -/
def IsNumber (t : CStr) (q : ℚ) (fl : Floats := .exact) : Prop :=
  strtod t fl = some (.finite q, []) ∧ strtodErange t fl = false

/-- The units and their seconds. -/
inductive UnitText : CStr → ℚ → Prop
  | seconds : UnitText [] 1
  | minutes : UnitText ['m'] 60
  | hours : UnitText ['h'] 3600
  | days : UnitText ['d'] 86400
  | years : UnitText ['y'] 31536000

/-- What may follow an offset. -/
inductive Modifier where
  | plain
  | rate (r : ℚ)
  | tick (q : ℚ)

/-- The texts of modifiers. -/
inductive ModifierText (fl : Floats) : CStr → Modifier → Prop
  | plain : ModifierText fl [] .plain
  | rate {t : CStr} {r : ℚ} (h : IsNumber t r fl) (hr : 0 < r) :
    ModifierText fl ('x' :: t) (.rate r)
  | tick {t : CStr} {q : ℚ} (h : IsNumber t q fl) (hq : InTimeRange q) :
    ModifierText fl ('i' :: t) (.tick q)

/-- **The grammar of offsets**: the number that `strtod` reads, a unit, blanks, and a
modifier. -/
def OffsetGrammar (fl : Floats) (s : CStr) (q unit : ℚ) (m : Modifier) : Prop :=
  ∃ N U W M : CStr, s = N ++ (U ++ (W ++ M)) ∧ strtod s fl = some (.finite q, U ++ (W ++ M)) ∧
    strtodErange s fl = false ∧ UnitText U unit ∧ (∀ c ∈ W, isspace c = true) ∧
      ModifierText fl M m ∧ InTimeRange (fl.double (q * unit))

/-- The rate and the tick of a process. -/
def Proc.pace (s : Proc) : (ℚ × Bool) × Timespec × Bool :=
  ((s.userRate, s.userRateSet), s.userPerTickInc, s.userPerTickIncSet)

/-- What a modifier makes of the rate and the tick. -/
def Modifier.apply (m : Modifier) (p : (ℚ × Bool) × Timespec × Bool) (fl : Floats := .exact) :
    (ℚ × Bool) × Timespec × Bool :=
  match m with
  | .plain => p
  | .rate r => ((r, true), p.2)
  | .tick q => (p.1, floorTimespec q fl, true)

/-- **A modifier leads from the rate and the tick `p` to `p'`**: the one that it does not name is
unchanged, and both are if there is none. -/
def Modifier.Sets (m : Modifier) (p p' : (ℚ × Bool) × Timespec × Bool) : Prop :=
  match m with
  | .plain => p' = p
  | .rate r => p' = ((r, true), p.2)
  | .tick q => p'.1 = p.1 ∧ p'.2.1.IsFloorOf q ∧ p'.2.2 = true

/-- **The setting `s` is accepted by the grammar**, and what it sets comes from there: the offset
from the number and the unit, the rate or the tick from the modifier, and what is not
in the text is unchanged. -/
structure ParsesByGrammar (fl : Floats) (B : Build) (w : World) (s : CStr) : Prop where
  accepts : (parseFtString B s fl).Runs seq w (fun _ _ => True) ↔
    ∃ q unit m, OffsetGrammar fl s q unit m
  sets : ∀ q unit m, OffsetGrammar fl s q unit m → (parseFtString B s fl).Ends seq w fun _ w' =>
    w'.proc.userOffset.IsFloorOf (fl.double (q * unit)) ∧ m.Sets w.proc.pace w'.proc.pace

/-! ### Numbers -/

section Numbers

variable {s t rest M : CStr} {q r unit : ℚ} {m m' : Modifier} {fl : Floats}

theorem parseFiniteDoublePrefix_iff : parseFiniteDoublePrefix s fl = some (q, rest) ↔
    strtod s fl = some (.finite q, rest) ∧ strtodErange s fl = false := by
  unfold parseFiniteDoublePrefix
  constructor
  · intro h
    split at h
    next x r hr =>
      split at h
      · cases h
      next hrange =>
        cases h
        exact ⟨hr, Bool.not_eq_true _ ▸ hrange⟩
    next => cases h
  · rintro ⟨h, hrange⟩
    rw [h, hrange]
    rfl

theorem parseFiniteDouble_iff : parseFiniteDouble t fl = some q ↔ IsNumber t q fl := by
  unfold IsNumber
  rw [← parseFiniteDoublePrefix_iff]
  unfold parseFiniteDouble
  constructor
  · intro h
    split at h
    next x hx =>
      cases h
      exact hx
    next => cases h
  · intro h
    rw [h]

/-- **The nanoseconds in a `long double`** are off by what is lost in two operations. -/
theorem abs_longNsec_sub_le (q : ℚ) (fl : Floats) :
    |longNsec q fl - (q - ⌊q⌋) * secToNSec| ≤ 1 / 2 ^ 33 := by
  obtain ⟨hx0, hx1⟩ := fraction_mem q
  have hsec : (secToNSec : ℚ) = 1000000000 := by norm_num [secToNSec]
  rw [hsec] at hx0 hx1
  have hfirst := fl.abs_long_sub_le (q - ⌊q⌋)
  have hsecond := fl.abs_long_sub_le (fl.long (q - ⌊q⌋) * 1000000000)
  have hd0 : 0 ≤ q - ⌊q⌋ := sub_nonneg.mpr (Int.floor_le q)
  have hy0 := fl.long_nonneg hd0
  unfold longNsec
  rw [hsec]
  generalize q - ⌊q⌋ = d at *
  generalize fl.long d = y at *
  rw [abs_of_nonneg hd0] at hfirst
  rw [abs_of_nonneg (mul_nonneg hy0 (by norm_num))] at hsecond
  generalize fl.long (y * 1000000000) = z at *
  rw [abs_le] at hfirst hsecond ⊢
  norm_num at hfirst hsecond ⊢
  constructor <;> linarith

/-- Rounding adds a whole second at most. -/
theorem longNsec_lt (q : ℚ) (fl : Floats) : longNsec q fl < 1000000001 := by
  have hnear := (abs_le.mp (abs_longNsec_sub_le q fl)).2
  have hlt := (fraction_mem q).2
  have hsmall : (1 : ℚ) / 2 ^ 33 ≤ 1 := by norm_num
  linarith

theorem floorTimespec_exact (q : ℚ) :
    floorTimespec q = ⟨⌊q⌋, ⌊(q - ⌊q⌋) * (secToNSec : ℚ)⌋⟩ := by
  have hlt : ⌊(q - ⌊q⌋) * (secToNSec : ℚ)⌋ < secToNSec := by
    rw [Int.floor_lt]
    refine (fraction_mem q).2.trans_eq ?_
    norm_num [secToNSec]
  rw [floorTimespec, longNsec_exact, if_neg (not_le.mpr hlt)]

/-- **It is the floor**, up to the rounding of a `long double`. -/
theorem isFloorOf_floorTimespec (q : ℚ) (fl : Floats) : (floorTimespec q fl).IsFloorOf q := by
  have hnonneg : 0 ≤ ⌊longNsec q fl⌋ := Int.floor_nonneg.mpr (longNsec_nonneg q fl)
  have hle : ⌊longNsec q fl⌋ ≤ 1000000000 := by
    rw [← Int.lt_add_one_iff, Int.floor_lt]
    exact_mod_cast longNsec_lt q fl
  refine ⟨(⌊q⌋ * secToNSec : ℤ) + longNsec q fl, ?_, ?_⟩
  · have hnear := abs_longNsec_sub_le q fl
    refine le_of_eq_of_le (congrArg abs ?_) hnear
    push_cast
    ring
  · rw [Int.floor_intCast_add]
    unfold floorTimespec Timespec.ofNs
    unfold secToNSec at *
    generalize ⌊longNsec q fl⌋ = n at *
    split <;> congr 1 <;> omega

/-- `double_to_timespec` rounds downwards. -/
theorem doubleToTimespec_eq (q : ℚ) (fl : Floats) :
    doubleToTimespec q fl = if InTimeRange q then some (floorTimespec q fl) else none := by
  have hmax : 0 < ftTimeMax := by decide
  have hmin : ftTimeMin < 0 := by decide
  have hnsec : trunc (longNsec q fl) = ⌊longNsec q fl⌋ := trunc_of_nonneg (longNsec_nonneg q fl)
  unfold doubleToTimespec floorTimespec
  dsimp only
  rw [hnsec]
  by_cases hrange : InTimeRange q
  · obtain ⟨hlow, hhigh⟩ := hrange
    have hin : ¬ (0 ≤ ⌊q⌋ ∧ ftTimeMax ≤ ⌊q⌋ ∨ ⌊q⌋ < 0 ∧ ⌊q⌋ ≤ ftTimeMin) := by omega
    rw [if_pos (show InTimeRange q from ⟨hlow, hhigh⟩), if_neg hin]
    split <;> rfl
  · have hout : ¬ (ftTimeMin < ⌊q⌋ ∧ ⌊q⌋ < ftTimeMax) := hrange
    rw [if_neg hrange, if_pos (by omega)]

/-- The numbers in the range of times are small. -/
theorem abs_lt_of_inTimeRange (h : InTimeRange q) : |q| < 2 ^ 64 := by
  have hmin : ftTimeMin = -9223372036854775808 := by decide
  have hmax : ftTimeMax = 9223372036854775807 := by decide
  have hlow : ((-9223372036854775808 : ℤ) : ℚ) ≤ ⌊q⌋ := Int.cast_le.mpr (hmin ▸ h.1.le)
  have hhigh : (⌊q⌋ : ℚ) ≤ ((9223372036854775807 : ℤ) : ℚ) := Int.cast_le.mpr (hmax ▸ h.2.le)
  push_cast at hlow hhigh
  have h1 : (⌊q⌋ : ℚ) ≤ q := Int.floor_le q
  have h2 : q < ⌊q⌋ + 1 := Int.lt_floor_add_one q
  have h64 : (2 : ℚ) ^ 64 = 18446744073709551616 := by norm_num
  rw [h64]
  exact abs_lt.mpr ⟨by linarith, by linarith⟩

/-- The limits of `double` lie far beyond them. -/
theorem two_pow_le_limit : (2 : ℚ) ^ 1023 ≤ 2 ^ 1024 - 2 ^ 970 := by
  have h1 : (2 : ℚ) ^ 970 ≤ 2 ^ 1023 := pow_le_pow_right₀ (by norm_num) (by norm_num)
  have h2 : (2 : ℚ) ^ 1024 = 2 ^ 1023 * 2 := pow_succ 2 1023
  rw [h2]
  generalize (2 : ℚ) ^ 970 = x at h1 ⊢
  generalize (2 : ℚ) ^ 1023 = y at h1 ⊢
  linarith

/-- A product that is in the range of times when it is rounded is finite. -/
theorem isfinite_of_double (h : InTimeRange (fl.double q)) : isfinite q = true := by
  by_contra hinf
  have hbig : (2 : ℚ) ^ 1023 ≤ |q| :=
    two_pow_le_limit.trans (not_lt.mp fun hlt => hinf (decide_eq_true hlt))
  have hhalf := fl.abs_le_abs_double ((one_le_pow₀ (by norm_num)).trans hbig)
  have hsmall := abs_lt_of_inTimeRange h
  have hpow : (2 : ℚ) ^ 64 * 2 ≤ 2 ^ 1023 := by
    rw [← pow_succ]
    exact pow_le_pow_right₀ (by norm_num) (by norm_num)
  generalize (2 : ℚ) ^ 1023 = y at hbig hpow
  linarith

/-- A number in the range of times is finite. -/
theorem isfinite_of_inTimeRange (h : InTimeRange q) : isfinite q = true := by
  have hdouble : InTimeRange (Floats.exact.double q) := h
  exact isfinite_of_double hdouble

theorem offsetTimespec_eq (hq : fl.double q = q) (unit : ℚ) : offsetTimespec q unit fl =
    if InTimeRange (fl.double (q * unit)) then some (floorTimespec (fl.double (q * unit)) fl)
    else none := by
  unfold offsetTimespec
  split
  next hunit => rw [hunit, mul_one, hq, Option.bind_some, doubleToTimespec_eq]
  next =>
    unfold scaleFiniteDouble
    split
    next => rw [Option.bind_some, doubleToTimespec_eq]
    next hfinite =>
      rw [Option.bind_none, if_neg fun h => hfinite (isfinite_of_double h)]

end Numbers

/-! ### The offset -/

section Offset

variable {s M : CStr} {q unit : ℚ} {m m' : Modifier} {fl : Floats}

/-- What may come after the blanks. -/
def StartsModifier (M : CStr) : Prop := M = [] ∨ M.head? = some 'x' ∨ M.head? = some 'i'

theorem ModifierText.starts (h : ModifierText fl M m) : StartsModifier M := by
  cases h with
  | plain => exact Or.inl rfl
  | rate h hr => exact Or.inr (Or.inl rfl)
  | tick h hq => exact Or.inr (Or.inr rfl)

/-- A text is at most one modifier. -/
theorem ModifierText.unique (h : ModifierText fl M m) (h' : ModifierText fl M m') : m = m' := by
  cases h with
  | plain => cases h' with
    | plain => rfl
  | rate h hr => cases h' with
    | rate h' hr' =>
      have heq := h.1.symm.trans h'.1
      cases heq
      rfl
  | tick h hq => cases h' with
    | tick h' hq' =>
      have heq := h.1.symm.trans h'.1
      cases heq
      rfl

theorem dropWhile_blanks {W : CStr} (hW : ∀ c ∈ W, isspace c = true) (hM : StartsModifier M) :
    (W ++ M).dropWhile isspace = M := by
  rw [List.dropWhile_append_of_pos hW]
  rcases hM with rfl | hM | hM
  · rfl
  all_goals
    cases M with
    | nil => cases hM
    | cons c tail =>
      obtain rfl := Option.some.inj hM
      rfl

theorem unitSeconds_eq_none {W : CStr} {c : Char} {tail : CStr} (hW : ∀ c ∈ W, isspace c = true)
    (hM : StartsModifier M) (h : W ++ M = c :: tail) : unitSeconds c = none := by
  have hhead : isspace c = true ∨ c = 'x' ∨ c = 'i' := by
    cases W with
    | nil =>
      rw [List.nil_append] at h
      rw [h] at hM
      rcases hM with hM | hM | hM
      · cases hM
      · exact Or.inr (Or.inl (Option.some.inj hM))
      · exact Or.inr (Or.inr (Option.some.inj hM))
    | cons d W =>
      obtain ⟨rfl, -⟩ := List.cons.inj h
      exact Or.inl (hW d (List.mem_cons_self ..))
  unfold unitSeconds
  split <;> first | rfl | exact absurd hhead (by decide)

/-- **The first part of the text**: the number, the unit, and where the modifier starts. -/
theorem splitOffset_iff (hM : StartsModifier M) : splitOffset s fl = some (q, unit, M) ↔
    ∃ U W : CStr, parseFiniteDoublePrefix s fl = some (q, U ++ (W ++ M)) ∧ UnitText U unit ∧
      ∀ c ∈ W, isspace c = true := by
  constructor
  · intro h
    unfold splitOffset at h
    split at h
    · cases h
    next frac rest hfirst =>
      have hblanks : ∀ t : CStr, t.takeWhile isspace ++ t.dropWhile isspace = t := fun t =>
        List.takeWhile_append_dropWhile
      have hall : ∀ t : CStr, ∀ c ∈ t.takeWhile isspace, isspace c = true := fun t c hc =>
        List.mem_takeWhile_imp hc
      split at h
      -- the letter after the number is its unit, or there is none
      next c rest' =>
        split at h
        next factor hunit =>
          cases h
          refine ⟨[c], rest'.takeWhile isspace, ?_, ?_, hall rest'⟩
          · rw [hblanks, hfirst]
            rfl
          · unfold unitSeconds at hunit
            split at hunit <;> cases hunit <;> constructor
        next =>
          cases h
          refine ⟨[], (c :: rest').takeWhile isspace, ?_, .seconds, hall (c :: rest')⟩
          rw [hblanks, hfirst]
          rfl
      next =>
        cases h
        exact ⟨[], [], hfirst, .seconds, by simp⟩
  · rintro ⟨U, W, hfirst, hU, hW⟩
    have hdrop := dropWhile_blanks hW hM
    unfold splitOffset
    rw [hfirst]
    dsimp only
    cases hU with
    | seconds =>
      rw [List.nil_append]
      cases hrest : W ++ M with
      | nil =>
        obtain ⟨-, rfl⟩ := List.append_eq_nil_iff.mp hrest
        rfl
      | cons c tail =>
        dsimp only
        -- neither a blank nor the first letter of a modifier is a unit
        rw [unitSeconds_eq_none hW hM hrest]
        dsimp only
        rw [← hrest, hdrop]
    | minutes | hours | days | years => exact congrArg (fun t => some (q, _, t)) hdrop

/-- The grammar, in the parts that are read from the left. -/
theorem offsetGrammar_iff : OffsetGrammar fl s q unit m ↔
    ∃ M, splitOffset s fl = some (q, unit, M) ∧ ModifierText fl M m ∧
      InTimeRange (fl.double (q * unit)) := by
  constructor
  · rintro ⟨N, U, W, M, -, hnumber, hrange, hU, hW, hM, htime⟩
    exact ⟨M, (splitOffset_iff hM.starts).mpr
      ⟨U, W, parseFiniteDoublePrefix_iff.mpr ⟨hnumber, hrange⟩, hU, hW⟩, hM, htime⟩
  · rintro ⟨M, hsplit, hM, htime⟩
    obtain ⟨U, W, hfirst, hU, hW⟩ := (splitOffset_iff hM.starts).mp hsplit
    obtain ⟨hnumber, hrange⟩ := parseFiniteDoublePrefix_iff.mp hfirst
    obtain ⟨N, hs, -⟩ := consumes_strtod hnumber
    exact ⟨N, U, W, M, hs, hnumber, hrange, hU, hW, hM, htime⟩

/-- The number is a `double`. -/
theorem double_of_splitOffset (h : splitOffset s fl = some (q, unit, M)) : fl.double q = q := by
  unfold splitOffset at h
  split at h
  · cases h
  next frac rest hfirst =>
    have hdouble := double_of_strtod (parseFiniteDoublePrefix_iff.mp hfirst).1
    split at h
    next => split at h <;> cases h <;> exact hdouble
    next =>
      cases h
      exact hdouble

/-- No `i` comes before the modifier. -/
theorem consumes_splitOffset (h : splitOffset s fl = some (q, unit, M)) : Consumes NotI s M := by
  unfold splitOffset at h
  split at h
  · cases h
  next frac rest hfirst =>
    have hread := consumes_parseFiniteDoublePrefix hfirst
    split at h
    next c rest' =>
      split at h
      next factor hunit =>
        cases h
        have hc : NotI c := by
          rintro rfl
          cases hunit
        exact hread.trans (.cons hc (consumes_blanks rest'))
      next =>
        cases h
        exact hread.trans (consumes_blanks (c :: rest'))
    next =>
      cases h
      exact hread

end Offset

/-! ### The modifier that is found -/

section Scanned

variable {s M rest : CStr} {q unit r : ℚ} {m : Modifier} {fl : Floats}

/-- The modifier that is found from the left. -/
def scanned (s : CStr) (fl : Floats := .exact) : Option Modifier :=
  match strchr s 'x' with
  | some rest =>
    (parseFiniteDouble rest.tail fl).bind fun r => if 0 < r then some (.rate r) else none
  | none =>
    match strchr s 'i' with
    | none => some .plain
    | some rest =>
      (parseFiniteDouble rest.tail fl).bind fun q =>
        if InTimeRange q then some (.tick q) else none

theorem scanned_of_x (h : strchr s 'x' = some rest) :
    scanned s fl = some m ↔ ∃ r, m = .rate r ∧ IsNumber rest.tail r fl ∧ 0 < r := by
  rw [scanned, h]
  dsimp only
  rw [Option.bind_eq_some_iff]
  constructor
  · rintro ⟨r, hr, hm⟩
    split at hm
    next hpos =>
      cases hm
      exact ⟨r, rfl, parseFiniteDouble_iff.mp hr, hpos⟩
    next => cases hm
  · rintro ⟨r, rfl, hr, hpos⟩
    exact ⟨r, parseFiniteDouble_iff.mpr hr, if_pos hpos⟩

theorem strchr_cons_self (c : Char) (t : CStr) : strchr (c :: t) c = some (c :: t) := by
  simp [strchr]

theorem mem_of_strchr_eq_none {c : Char} (h : strchr s c = none) : c ∉ s := by
  intro hc
  unfold strchr at h
  split at h
  next hnil => exact of_decide_eq_true (List.dropWhile_eq_nil_iff.mp hnil c hc) rfl
  next => cases h

/-- Where there is no `x`, the modifier that is found is the one of the grammar. -/
theorem scanned_of_no_x (hsplit : splitOffset s fl = some (q, unit, M)) (hM : StartsModifier M)
    (h : strchr s 'x' = none) : scanned s fl = some m ↔ ModifierText fl M m := by
  have hread := consumes_splitOffset hsplit
  have hi : strchr s 'i' = strchr M 'i' := by
    have hdrop : s.dropWhile (· ≠ 'i') = M.dropWhile (· ≠ 'i') :=
      hread.dropWhile_eq fun c hc => decide_eq_true hc
    rw [strchr, strchr, hdrop]
  have hx : 'x' ∉ M := fun hx => mem_of_strchr_eq_none h (hread.suffix.subset hx)
  rw [scanned, h]
  dsimp only
  rw [hi]
  rcases hM with rfl | hM | hM
  · change some Modifier.plain = some m ↔ _
    constructor
    · rintro ⟨⟩
      exact .plain
    · rintro ⟨⟩
      rfl
  · exact absurd (List.mem_of_head? hM) hx
  · cases M with
    | nil => cases hM
    | cons c t =>
      obtain rfl := Option.some.inj hM
      rw [strchr_cons_self]
      dsimp only [List.tail_cons]
      rw [Option.bind_eq_some_iff]
      constructor
      · rintro ⟨q, hq, hm⟩
        split at hm
        next htime =>
          cases hm
          exact .tick (parseFiniteDouble_iff.mp hq) htime
        next => cases hm
      · intro hm
        cases hm with
        | tick hq htime => exact ⟨_, parseFiniteDouble_iff.mpr hq, if_pos htime⟩

theorem exists_cons_of_strchr {c : Char} (h : strchr s c = some rest) : ∃ t, rest = c :: t := by
  have hhead := List.head?_dropWhile_not (fun x => decide (x ≠ c)) s
  unfold strchr at h
  split at h
  · cases h
  next hne =>
    cases h
    cases hrest : s.dropWhile fun x => decide (x ≠ c) with
    | nil => exact absurd hrest hne
    | cons d t =>
      rw [hrest] at hhead
      obtain rfl : d = c := not_not.mp (of_decide_eq_false hhead)
      exact ⟨t, rfl⟩

/-- So is it where the first `x` begins it. -/
theorem scanned_of_own_x (h : strchr s 'x' = some M) :
    scanned s fl = some m ↔ ModifierText fl M m := by
  obtain ⟨t, rfl⟩ := exists_cons_of_strchr h
  rw [scanned_of_x h]
  constructor
  · rintro ⟨r, rfl, hr, hpos⟩
    exact .rate hr hpos
  · intro hm
    cases hm with
    | rate hr hpos => exact ⟨_, rfl, hr, hpos⟩

end Scanned

/-! ### The run -/

section Run

variable {B : Build} {w : World} {s M : CStr} {q unit : ℚ} {m : Modifier} {fl : Floats}

/-- The environment can be read. -/
def World.ReadsEnv (w : World) : Prop := ∀ n v, ∃ r, w.os n (.getenv v) = some r

/-- The same thread on the same system, whatever its variables are. -/
structure Around (w w' : World) : Prop where
  os : w'.os = w.os
  file : w'.file = w.file
  dontFake : w'.dontFake = w.dontFake
  semHeld : w'.semHeld = w.semHeld
  mutexHeld : w'.mutexHeld = w.mutexHeld

theorem Around.refl (w : World) : Around w w := ⟨rfl, rfl, rfl, rfl, rfl⟩

theorem Around.trans {w₁ w₂ : World} (h : Around w w₁) (h' : Around w₁ w₂) : Around w w₂ :=
  ⟨h'.os.trans h.os, h'.file.trans h.file, h'.dontFake.trans h.dontFake,
    h'.semHeld.trans h.semHeld, h'.mutexHeld.trans h.mutexHeld⟩

/-- What `FAKETIME_XRESET` makes of a process, if it is set. -/
def Proc.rebase (isSet : Bool) (p : Proc) : Proc :=
  if isSet = true ∧ 0 ≤ p.ftplTimecache.real.tvNsec then
    { p with userFakedTimeTimespec := p.ftplFaketimecache.real, ftplStarttime := p.ftplTimecache }
  else p

/-- What a modifier makes of a process. -/
def Modifier.assign (m : Modifier) (isSet : Bool) (p : Proc) (fl : Floats := .exact) : Proc :=
  match m with
  | .plain => p
  | .rate r => Proc.rebase isSet { p with userRate := r, userRateSet := true }
  | .tick q => { p with userPerTickInc := floorTimespec q fl, userPerTickIncSet := true }

theorem Proc.exists_rebase (isSet : Bool) (p : Proc) : ∃ base start, p.rebase isSet =
    { p with userFakedTimeTimespec := base, ftplStarttime := start } := by
  unfold Proc.rebase
  split
  · exact ⟨_, _, rfl⟩
  · exact ⟨p.userFakedTimeTimespec, p.ftplStarttime, rfl⟩

/-- A modifier sets the rate or the tick, and perhaps the base and the start time. -/
theorem Modifier.exists_assign (m : Modifier) (isSet : Bool) (p : Proc) (fl : Floats := .exact) :
    ∃ base start, m.assign isSet p fl = { p with
      userRate := (m.apply p.pace fl).1.1
      userRateSet := (m.apply p.pace fl).1.2
      userPerTickInc := (m.apply p.pace fl).2.1
      userPerTickIncSet := (m.apply p.pace fl).2.2
      userFakedTimeTimespec := base
      ftplStarttime := start } := by
  cases m with
  | plain => exact ⟨p.userFakedTimeTimespec, p.ftplStarttime, rfl⟩
  | rate r => exact Proc.exists_rebase isSet { p with userRate := r, userRateSet := true }
  | tick q => exact ⟨p.userFakedTimeTimespec, p.ftplStarttime, rfl⟩

theorem pace_assign (m : Modifier) (isSet : Bool) (p : Proc) (fl : Floats := .exact) :
    (m.assign isSet p fl).pace = m.apply p.pace fl := by
  obtain ⟨base, start, h⟩ := m.exists_assign isSet p fl
  rw [h]
  rfl

theorem runs_xreset {e : Option CStr} (he : w.os w.now (.getenv .faketimeXreset) = some e) :
    xreset.Runs seq w fun _ w' => Around w w' ∧ w'.proc = w.proc.rebase e.isSome := by
  have htick : Around w w.tick := ⟨rfl, rfl, rfl, rfl, rfl⟩
  refine runs_getenv he ?_
  unfold Proc.rebase
  split
  next hset =>
    refine runs_load ?_
    by_cases hcache : 0 ≤ w.proc.ftplTimecache.real.tvNsec
    · rw [show w.tick.proc = w.proc from rfl, if_pos hcache, if_pos ⟨hset, hcache⟩]
      exact ⟨_, _, rfl, ⟨rfl, rfl, rfl, rfl, rfl⟩, rfl⟩
    · rw [show w.tick.proc = w.proc from rfl, if_neg hcache, if_neg fun h => hcache h.2]
      exact runs_pure ⟨htick, rfl⟩
  next hset =>
    rw [if_neg fun h => hset h.1]
    exact runs_pure ⟨htick, rfl⟩

/-- **A modifier that is found is applied.** -/
theorem runs_assign {e : Option CStr} (he : w.os w.now (.getenv .faketimeXreset) = some e)
    (h : scanned s fl = some m) : (parseModifiers s fl).Runs seq w fun _ w' =>
      Around w w' ∧ w'.proc = m.assign e.isSome w.proc fl := by
  unfold parseModifiers
  cases hx : strchr s 'x' with
  | some rest =>
    obtain ⟨r, rfl, hr, hpos⟩ := (scanned_of_x hx).mp h
    dsimp only
    rw [parseFiniteDouble_iff.mpr hr]
    dsimp only
    rw [if_neg (not_le.mpr hpos)]
    refine runs_store (runs_store ((runs_xreset (e := e) ?_).mono ?_))
    · exact he
    · rintro _ w' ⟨haround, hproc⟩
      exact ⟨⟨haround.os, haround.file, haround.dontFake, haround.semHeld, haround.mutexHeld⟩,
        hproc⟩
  | none =>
    rw [scanned, hx] at h
    dsimp only at h ⊢
    cases hi : strchr s 'i' with
    | none =>
      rw [hi] at h
      cases h
      exact runs_pure ⟨.refl w, rfl⟩
    | some rest =>
      rw [hi] at h
      obtain ⟨q, hq, hm⟩ := Option.bind_eq_some_iff.mp h
      dsimp only
      rw [hq]
      dsimp only
      rw [doubleToTimespec_eq]
      split at hm
      next htime =>
        cases hm
        rw [if_pos htime]
        exact runs_store ⟨_, _, rfl, ⟨rfl, rfl, rfl, rfl, rfl⟩, rfl⟩
      next => cases hm

theorem runs_parseModifiers (henv : w.ReadsEnv) (h : scanned s fl = some m) :
    (parseModifiers s fl).Runs seq w fun _ w' => w'.proc.userOffset = w.proc.userOffset ∧
      w'.proc.pace = m.apply w.proc.pace fl ∧ w'.proc.ftMode = w.proc.ftMode := by
  obtain ⟨e, he⟩ := henv w.now .faketimeXreset
  refine (runs_assign he h).mono ?_
  rintro _ w' ⟨-, hproc⟩
  obtain ⟨base, start, hassign⟩ := m.exists_assign e.isSome w.proc fl
  rw [hproc, hassign]
  exact ⟨rfl, rfl, rfl⟩

theorem halts_parseModifiers (h : scanned s fl = none) :
    ∃ msg, (parseModifiers s fl).Halts seq w (.exited 1 msg) := by
  unfold parseModifiers
  unfold scanned at h
  cases hx : strchr s 'x' with
  | some rest =>
    rw [hx] at h
    dsimp only at h ⊢
    cases hr : parseFiniteDouble rest.tail fl with
    | none => exact ⟨_, rfl⟩
    | some r =>
      rw [hr] at h
      dsimp only
      split
      · exact ⟨_, rfl⟩
      next hpos =>
        rw [Option.bind_some, if_pos (not_le.mp hpos)] at h
        cases h
  | none =>
    rw [hx] at h
    dsimp only at h ⊢
    cases hi : strchr s 'i' with
    | none =>
      rw [hi] at h
      cases h
    | some rest =>
      rw [hi] at h
      dsimp only at h ⊢
      cases hq : parseFiniteDouble rest.tail fl with
      | none => exact ⟨_, rfl⟩
      | some q =>
        rw [hq, Option.bind_some] at h
        dsimp only
        rw [doubleToTimespec_eq]
        split at h
        · cases h
        next htime =>
          rw [if_neg htime]
          exact ⟨_, rfl⟩

/-- The first part of the text is right. -/
def OffsetPart (s : CStr) (q unit : ℚ) (M : CStr) (fl : Floats := .exact) : Prop :=
  splitOffset s fl = some (q, unit, M) ∧ StartsModifier M ∧ InTimeRange (fl.double (q * unit))

/-- The mode of an offset. An excluded process keeps its own. -/
def FtMode.started (mode : FtMode) : FtMode := if mode ≠ .noop then .startAt else mode

theorem runs_parseOffset (h : OffsetPart s q unit M fl) :
    (parseOffset s fl).Runs seq w fun _ w' => Around w w' ∧ w'.proc = { w.proc with
      ftMode := w.proc.ftMode.started
      userOffset := floorTimespec (fl.double (q * unit)) fl
      userFakedTimeTimespec :=
        timespecadd w.proc.ftplStarttime.real (floorTimespec (fl.double (q * unit)) fl) } := by
  obtain ⟨hsplit, hM, htime⟩ := h
  have hdouble := double_of_splitOffset hsplit
  have hstarts : ¬ (M ≠ [] ∧ M.head? ≠ some 'x' ∧ M.head? ≠ some 'i') := by
    rintro ⟨h0, hx, hi⟩
    rcases hM with h | h | h
    · exact h0 h
    · exact hx h
    · exact hi h
  refine runs_store ?_
  rw [hsplit]
  dsimp only
  rw [if_neg hstarts, offsetTimespec_eq hdouble, if_pos htime]
  exact runs_store ⟨_, _, rfl, ⟨rfl, rfl, rfl, rfl, rfl⟩, rfl⟩

theorem halts_parseOffset (h : ¬ ∃ q unit M, OffsetPart s q unit M fl) :
    ∃ msg, (parseOffset s fl).Halts seq w (.exited 1 msg) := by
  unfold parseOffset
  cases hsplit : splitOffset s fl with
  | none => exact ⟨_, halts_store rfl⟩
  | some x =>
    obtain ⟨q, unit, M⟩ := x
    dsimp only
    split
    · exact ⟨_, halts_store rfl⟩
    next hstarts =>
      have htime : ¬ InTimeRange (fl.double (q * unit)) := by
        intro htime
        refine h ⟨q, unit, M, hsplit, ?_, htime⟩
        unfold StartsModifier
        tauto
      rw [offsetTimespec_eq (double_of_splitOffset hsplit), if_neg htime]
      exact ⟨_, halts_store rfl⟩

theorem parseByPrefix_of_sign (hsign : s.head? = some '+' ∨ s.head? = some '-') :
    parseByPrefix B s fl = parseOffset s fl >>= fun _ => parseModifiers s fl := by
  unfold parseByPrefix
  rcases hsign with h | h
  · rw [h]
    rfl
  · rw [h]
    rfl

/-- **A new text that begins with a sign is parsed** if its first part is right and there is a
modifier to be found from the left. -/
theorem runs_parseFtString (henv : w.ReadsEnv) (hsign : s.head? = some '+' ∨ s.head? = some '-')
    (hnew : unchangedSetting s w.proc.userFakedTimeSaved = false) (h : OffsetPart s q unit M fl)
    (hm : scanned s fl = some m) : (parseFtString B s fl).Runs seq w fun _ w' =>
      w'.proc.userOffset = floorTimespec (fl.double (q * unit)) fl ∧
        w'.proc.pace = m.apply w.proc.pace fl ∧ w'.proc.ftMode = w.proc.ftMode.started := by
  have hparts : (parseOffset s fl >>= fun _ => parseModifiers s fl).Runs seq w fun _ w' =>
      w'.proc.userOffset = floorTimespec (fl.double (q * unit)) fl ∧
        w'.proc.pace = m.apply w.proc.pace fl ∧ w'.proc.ftMode = w.proc.ftMode.started := by
    refine (runs_parseOffset h).bind ?_
    rintro - w₁ ⟨ha, hproc⟩
    have henv₁ : w₁.ReadsEnv := by
      unfold World.ReadsEnv
      rw [ha.os]
      exact henv
    refine (runs_parseModifiers henv₁ hm).mono fun _ w' h => ?_
    rw [h.1, h.2.1, h.2.2, hproc]
    exact ⟨rfl, rfl, rfl⟩
  refine runs_load ?_
  rw [hnew, if_neg (by simp), parseByPrefix_of_sign hsign]
  refine hparts.bind fun _ w' h => ?_
  exact ⟨_, _, rfl, h⟩

/-- Otherwise the process exits. -/
theorem halts_parseFtString (hsign : s.head? = some '+' ∨ s.head? = some '-')
    (hnew : unchangedSetting s w.proc.userFakedTimeSaved = false)
    (h : (¬ ∃ q unit M, OffsetPart s q unit M fl) ∨ scanned s fl = none) :
    ∃ msg, (parseFtString B s fl).Halts seq w (.exited 1 msg) := by
  have hparts : ∃ msg,
      (parseOffset s fl >>= fun _ => parseModifiers s fl).Halts seq w (.exited 1 msg) := by
    by_cases hpart : ∃ q unit M, OffsetPart s q unit M fl
    · obtain ⟨q, unit, M, hpart⟩ := hpart
      obtain ⟨_, w₁, hr, -⟩ := runs_parseOffset (w := w) hpart
      have hnone := h.resolve_left (not_not_intro ⟨q, unit, M, hpart⟩)
      obtain ⟨msg, hmsg⟩ := halts_parseModifiers (w := w₁) hnone
      exact ⟨msg, Runs.halts_bind (Q := fun _ v => v = w₁) ⟨_, w₁, hr, rfl⟩
        (by rintro _ _ rfl; exact hmsg)⟩
    · obtain ⟨msg, hmsg⟩ := halts_parseOffset (w := w) hpart
      exact ⟨msg, hmsg.bind⟩
  obtain ⟨msg, hmsg⟩ := hparts
  refine ⟨msg, halts_load ?_⟩
  rw [hnew, if_neg (by simp), parseByPrefix_of_sign hsign]
  exact hmsg.bind

end Run

/-! ### The grammar is kept to -/

section Kept

variable {B : Build} {w : World} {s : CStr} {fl : Floats}

/-- An `x` that comes before the modifier `M` makes no difference: what follows it is no rate, and
`M` is not a modifier either, or it is one that leads to the same. -/
def StrayIsHarmless (fl : Floats) (p : (ℚ × Bool) × Timespec × Bool) (M rest : CStr) : Prop :=
  (∃ r m, IsNumber rest.tail r fl ∧ 0 < r ∧ ModifierText fl M m ∧ m.Sets p ((r, true), p.2)) ∨
    (¬ ∃ r, IsNumber rest.tail r fl ∧ 0 < r) ∧ ¬ ∃ m, ModifierText fl M m

/-- **No `x` comes before the modifier**, in a text whose first part is right, or it makes no
difference. -/
def NoStrayX (fl : Floats) (s : CStr) (p : (ℚ × Bool) × Timespec × Bool) : Prop :=
  ∀ q unit M, OffsetPart s q unit M fl → ∀ rest, strchr s 'x' = some rest → rest ≠ M →
    StrayIsHarmless fl p M rest

/-- The text has been applied already, and the process is as it makes it. -/
def InEffect (fl : Floats) (s : CStr) (p : Proc) : Prop :=
  (∃ q unit m, OffsetGrammar fl s q unit m) ∧ ∀ q unit m, OffsetGrammar fl s q unit m →
    p.userOffset.IsFloorOf (fl.double (q * unit)) ∧ m.Sets p.pace p.pace

theorem offsetGrammar_iff_part {q unit : ℚ} {m : Modifier} : OffsetGrammar fl s q unit m ↔
    ∃ M, OffsetPart s q unit M fl ∧ ModifierText fl M m := by
  rw [offsetGrammar_iff]
  exact ⟨fun ⟨M, hs, hm, ht⟩ => ⟨M, ⟨hs, hm.starts, ht⟩, hm⟩,
    fun ⟨M, ⟨hs, _, ht⟩, hm⟩ => ⟨M, hs, hm, ht⟩⟩

theorem OffsetPart.unique {q q' unit unit' : ℚ} {M M' : CStr} (h : OffsetPart s q unit M fl)
    (h' : OffsetPart s q' unit' M' fl) : q = q' ∧ unit = unit' ∧ M = M' := by
  have heq := h.1.symm.trans h'.1
  cases heq
  exact ⟨rfl, rfl, rfl⟩

/-- A modifier that is applied leads where it should. -/
theorem Modifier.sets_apply (m : Modifier) (p : (ℚ × Bool) × Timespec × Bool) :
    m.Sets p (m.apply p fl) := by
  cases m with
  | plain => rfl
  | rate r => rfl
  | tick q => exact ⟨rfl, isFloorOf_floorTimespec q fl, rfl⟩

/-- The modifier that is found leads where the one of the grammar should. -/
def FindsModifier (fl : Floats) (s : CStr) (p : (ℚ × Bool) × Timespec × Bool) (M : CStr) : Prop :=
  ((∃ m, scanned s fl = some m) ↔ ∃ m, ModifierText fl M m) ∧
    ∀ m m', scanned s fl = some m → ModifierText fl M m' → m'.Sets p (m.apply p fl)

/-- They do if no `x` comes before the modifier, or it makes no difference. -/
theorem findsModifier_iff {q unit : ℚ} {M : CStr} {p : (ℚ × Bool) × Timespec × Bool}
    (h : OffsetPart s q unit M fl) : FindsModifier fl s p M ↔
      ∀ rest, strchr s 'x' = some rest → rest ≠ M → StrayIsHarmless fl p M rest := by
  -- where the scan finds what the grammar does, both set the same
  have hsame : (∀ m, scanned s fl = some m ↔ ModifierText fl M m) → FindsModifier fl s p M := by
    intro hiff
    refine ⟨exists_congr hiff, fun m m' hm hm' => ?_⟩
    rw [((hiff m).mp hm).unique hm']
    exact m'.sets_apply p
  cases hx : strchr s 'x' with
  | none => exact iff_of_true (hsame fun m => scanned_of_no_x h.1 h.2.1 hx) nofun
  | some rest =>
    by_cases hM : rest = M
    · refine iff_of_true (hsame fun m => scanned_of_own_x (hM ▸ hx)) fun rest' hrest' hne => ?_
      exact absurd (Option.some.inj hrest' ▸ hM) hne
    -- the first x comes before the modifier, and the scan takes what follows it for a rate
    have hrate : (∃ m, scanned s fl = some m) ↔ ∃ r, IsNumber rest.tail r fl ∧ 0 < r := by
      constructor
      · rintro ⟨m, hm⟩
        obtain ⟨r, -, hr⟩ := (scanned_of_x hx).mp hm
        exact ⟨r, hr⟩
      · rintro ⟨r, hr⟩
        exact ⟨.rate r, (scanned_of_x hx).mpr ⟨r, rfl, hr⟩⟩
    have hrest : (∀ rest', some rest = some rest' → rest' ≠ M → StrayIsHarmless fl p M rest') ↔
        StrayIsHarmless fl p M rest :=
      ⟨fun h => h rest rfl hM, fun h _ heq _ => Option.some.inj heq ▸ h⟩
    rw [hrest]
    constructor
    · rintro ⟨hiff, happly⟩
      by_cases hm : ∃ m, ModifierText fl M m
      · obtain ⟨m, hm⟩ := hm
        obtain ⟨r, hr, hpos⟩ := hrate.mp (hiff.mpr ⟨m, hm⟩)
        have hfound := (scanned_of_x (m := .rate r) hx).mpr ⟨r, rfl, hr, hpos⟩
        exact Or.inl ⟨r, m, hr, hpos, hm, happly _ _ hfound hm⟩
      · exact Or.inr ⟨fun hr => hm (hiff.mp (hrate.mpr hr)), hm⟩
    · rintro (⟨r, m, hr, hpos, hm, hsets⟩ | ⟨hr, hm⟩)
      · refine ⟨iff_of_true (hrate.mpr ⟨r, hr, hpos⟩) ⟨m, hm⟩, fun m₁ m₂ h₁ h₂ => ?_⟩
        obtain ⟨r₁, rfl, hr₁, -⟩ := (scanned_of_x hx).mp h₁
        have heq := hr₁.1.symm.trans hr.1
        cases heq
        rw [h₂.unique hm]
        exact hsets
      · refine ⟨iff_of_false (fun h => hr (hrate.mp h)) hm, fun m₁ m₂ h₁ _ => ?_⟩
        exact absurd (hrate.mp ⟨m₁, h₁⟩) hr

theorem readsEnv_calmWorld (env : EnvVar → Option CStr) (clock : ℕ → ClockId → Timespec)
    (mtime : Timespec) (p : Proc) : (calmWorld env clock mtime p).ReadsEnv :=
  fun _ v => ⟨env v, rfl⟩

/-- A process that has read no setting yet. -/
def freshWorld : World := calmWorld (fun _ => none) (fun _ _ => ⟨60, 0⟩) ⟨0, 0⟩ Proc.initial

/-- The nearest `double` is a little less than three tenths. -/
example : (splitOffset "+0.3".toList .ieee).bind (fun x => offsetTimespec x.1 x.2.1 .ieee) =
    some ⟨0, 299999999⟩ := by decide +kernel

/-- The nearest `double` is `2 ^ 63`, which is out of range. -/
example : (splitOffset "+9223372036854775806".toList .ieee).bind
    (fun x => offsetTimespec x.1 x.2.1 .ieee) = none := by decide +kernel

end Kept

end LibFaketime
