import LibFaketime.Fake
import Mathlib.Data.Nat.Digits.Defs

/-!
# Setting the clock

`clock_settime`, `settimeofday` and `adjtime` of a build with `FAKE_SETTIME`. The new time is
turned into an offset from the real time, the offset is printed to six decimals, and the text
becomes the value of `FAKETIME`, from which the next query reads it
(`LibFaketime.clockSettime`). What the parser makes of such a text is the offset rounded to
microseconds, exactly (`LibFaketime.splitOffset_printfPlusF`).
-/

namespace LibFaketime

open Saturate

/-! ### Printing an offset -/

/-- The last six decimal digits of a number. -/
def sixDigits (n : ℕ) : CStr :=
  [n / 100000 % 10, n / 10000 % 10, n / 1000 % 10, n / 100 % 10, n / 10 % 10, n % 10].map
    Nat.digitChar

/-- What `"%+f"` prints. -/
def printfPlusF (q : ℚ) : CStr :=
  let n := (roundEven (q * 1000000)).natAbs
  (if q < 0 then '-' else '+') :: (Nat.toDigits 10 (n / 1000000) ++ '.' :: sixDigits (n % 1000000))

/-! ### The functions -/

/-- The distance of the new time from the current one, in seconds. -/
def settimeOffset (tp current : Timespec) : ℚ :=
  ((tp.tvSec - current.tvSec : ℤ) : ℚ) + ((tp.tvNsec - current.tvNsec : ℤ) : ℚ) / secToNSec

/-- The message about a timestamp file that could not be updated. -/
def timestampMessage (error : String) (path : CStr) : String :=
  "libfaketime: In clock_settime(), failed to " ++ error ++
    " while updating FAKETIME_TIMESTAMP_FILE (`" ++ String.ofList path ++ "'): "

/-- Write the offset to the file of `FAKETIME_TIMESTAMP_FILE`, if that is wanted. A failure is
reported and has no other consequence. -/
def updateTimestampFile (offset : ℚ) : Sys Unit := do
  match ← getenv .faketimeTimestampFile with
  | none => pure ()
  | some path =>
    if path = [] then pure ()
    else if (← getenv .faketimeUpdateTimestampFile) = some ['1'] then
      if bufsiz ≤ path.length then perror (timestampMessage "to resolve file path" path)
      else if ← fopenWrite path then
        let written ← fprintf (printfPlusF offset ++ ['\n'])
        let closed ← fclose
        if !closed then perror (timestampMessage "to close file" path)
        else if !written then perror (timestampMessage "to write to file" path)
      else perror (timestampMessage "to open file" path)

/-- `clock_settime`. -/
def clockSettime (B : Build) (clkId : ClockId) (tp : Timespec) : Sys ℤ := do
  if clkId ≠ .realtime then pure (-1)
  else
    let dontFakeOrig ← dontFake
    if !dontFakeOrig then setDontFake true
    let (_, current) ← clockGettime B clkId
    setDontFake dontFakeOrig
    -- a clock that cannot be read leaves the variable as it was
    let offset := settimeOffset tp (current.getD .unset)
    let newenv := printfPlusF offset
    if bufferlen ≤ newenv.length then pure (-1)
    else
      store fun s => { s with parseConfigFile := false }
      if !(← setenv .faketime newenv) then pure (-1)
      else
        store fun s => { s with forceCacheExpiration := true }
        updateTimestampFile offset
        pure 0

/-- `settimeofday`, which does not report whether the time could be set. -/
def settimeofday (B : Build) : Option Timeval → Sys ℤ
  | none => pure (-1)
  | some tv => do
    let _ ← clockSettime B .realtime ⟨tv.tvSec, tv.tvUsec * 1000⟩
    pure 0

/-- `adjtime`, which sets the clock to the new time at once: its result, and what it leaves in
`*olddelta`. -/
def adjtime (B : Build) (delta : Option Timeval) : Sys (ℤ × Timeval) := do
  match delta with
  | none => pure (0, ⟨0, 0⟩)
  | some delta =>
    let (_, tp) ← clockGettime B .realtime
    let tp := tp.getD .unset
    let _ ← clockSettime B .realtime ⟨tp.tvSec + delta.tvSec, tp.tvNsec + delta.tvUsec * 1000⟩
    pure (0, ⟨0, 0⟩)

/-! ### Reading the offset again -/

/-- The microseconds of an offset of some nanoseconds, as it is printed. -/
def printedMicros (d : ℤ) : ℤ := roundEven ((d : ℚ) / 1000)

section Reading

theorem digitVal_digitChar {d : ℕ} (h : d < 10) : digitVal d.digitChar = some d := by
  have hall : ∀ m : Fin 10, digitVal m.val.digitChar = some m.val := by decide
  exact hall ⟨d, h⟩

theorem isDigit_digitChar {d : ℕ} (h : d < 10) : isDigit 10 d.digitChar = true := by
  rw [isDigit, digitVal_digitChar h, Option.any_some, decide_eq_true h]

theorem isDigit_of_mem_sixDigits {n : ℕ} {c : Char} (h : c ∈ sixDigits n) :
    isDigit 10 c = true := by
  simp only [sixDigits, List.map_cons, List.map_nil, List.mem_cons, List.not_mem_nil, or_false] at h
  rcases h with rfl | rfl | rfl | rfl | rfl | rfl
  all_goals exact isDigit_digitChar (Nat.mod_lt _ (by decide))

/-- The digits before and after the point denote the number together. -/
theorem digitsVal_append_sixDigits (l : CStr) {n : ℕ} (h : n < 1000000) :
    digitsVal 10 (l ++ sixDigits n) = digitsVal 10 l * 1000000 + n := by
  have hd : ∀ m : ℕ, (digitVal (Nat.digitChar (m % 10))).getD 0 = m % 10 := fun m => by
    rw [digitVal_digitChar (Nat.mod_lt _ (by decide)), Option.getD_some]
  unfold digitsVal
  rw [List.foldl_append]
  simp only [sixDigits, List.map_cons, List.map_nil, List.foldl_cons, List.foldl_nil, hd]
  omega

/-- What is read of digits with a point among them. -/
theorem strtodMantissa_printed (n : ℕ) :
    strtodMantissa 10 (Nat.toDigits 10 (n / 1000000) ++ '.' :: sixDigits (n % 1000000)) =
      some ((n : ℚ) / 1000000, []) := by
  obtain ⟨htake, hdrop⟩ := takeWhile_toDigits (n / 1000000) ('.' :: sixDigits (n % 1000000))
    (by rintro c ⟨⟩; decide)
  have hsix : ∀ c ∈ sixDigits (n % 1000000), isDigit 10 c = true :=
    fun c => isDigit_of_mem_sixDigits
  have hne : Nat.toDigits 10 (n / 1000000) ≠ [] := Nat.toDigits_ne_nil
  unfold strtodMantissa
  rw [hdrop, htake]
  dsimp only
  split
  next tail heq =>
    cases heq
    rw [List.takeWhile_eq_self_iff.mpr hsix, List.dropWhile_eq_nil_iff.mpr hsix,
      if_neg (fun h => hne h.1), digitsVal_append_sixDigits _ (Nat.mod_lt _ (by decide)),
      digitsVal_toDigits, Nat.div_add_mod']
    norm_num [sixDigits]
  next heq => exact absurd rfl (heq _)

/-- A text of digits does not begin with a word. -/
theorem not_prefix_toLower {word cs rest : CStr} {c p : Char} (hc : isDigit 10 c = true)
    (hword : word.head? = some p) (hp : isDigit 10 p = false) :
    ¬ word <+: ((c :: cs) ++ rest).map Char.toLower := by
  intro h
  obtain ⟨ps, rfl⟩ : ∃ ps, word = p :: ps := List.head?_eq_some_iff.mp hword
  rw [List.cons_append, List.map_cons, toLower_of_isDigit hc, List.cons_prefix_cons] at h
  exact ne_of_isDigit hc hp h.1.symm

/-- Nor with the prefix of a hexadecimal number, as there is no `x` in it. -/
theorem not_hex_printed (n : ℕ) : ¬ "0x".toList <+:
    (Nat.toDigits 10 (n / 1000000) ++ '.' :: sixDigits (n % 1000000)).map Char.toLower := by
  intro h
  have hx : 'x' ∈ (Nat.toDigits 10 (n / 1000000) ++ '.' :: sixDigits (n % 1000000)).map
      Char.toLower := h.subset (by decide)
  have hdigit : ∀ c, isDigit 10 c = true → c.toLower ≠ 'x' := fun c hc => by
    rw [toLower_of_isDigit hc]
    exact ne_of_isDigit hc (by decide)
  obtain ⟨c, hc, hcx⟩ := List.mem_map.mp hx
  rcases List.mem_append.mp hc with hc | hc
  · exact hdigit c (isDigit_of_mem_toDigits hc).1 hcx
  · rcases List.mem_cons.mp hc with rfl | hc
    · exact absurd hcx (by decide)
    · exact hdigit c (isDigit_of_mem_sixDigits hc) hcx

/-- The text after the sign. -/
theorem strtodUnsigned_printed (n : ℕ) :
    strtodUnsigned (Nat.toDigits 10 (n / 1000000) ++ '.' :: sixDigits (n % 1000000)) =
      some (.finite ((n : ℚ) / 1000000), []) := by
  have hmant := strtodMantissa_printed n
  have hhex := not_hex_printed n
  obtain ⟨c, cs, hcs⟩ : ∃ c cs, Nat.toDigits 10 (n / 1000000) = c :: cs :=
    List.exists_cons_of_ne_nil Nat.toDigits_ne_nil
  have hc : isDigit 10 c = true :=
    (isDigit_of_mem_toDigits (by rw [hcs]; exact List.mem_cons_self ..)).1
  rw [hcs] at hmant hhex ⊢
  unfold strtodUnsigned
  dsimp only
  rw [if_neg (not_prefix_toLower (p := 'i') hc rfl (by decide)),
    if_neg (not_prefix_toLower (p := 'i') hc rfl (by decide)),
    if_neg (not_prefix_toLower (p := 'n') hc rfl (by decide)), if_neg hhex, hmant]
  simp [strtodExponent]

/-- The range of the offsets that a `struct timespec` is able to hold. -/
def OffsetFits (d : ℤ) : Prop :=
  ftTimeMin * 1000000 + 1000000 ≤ printedMicros d ∧ printedMicros d < ftTimeMax * 1000000

instance (d : ℤ) : Decidable (OffsetFits d) := inferInstanceAs (Decidable (_ ∧ _))

/-- The number that is printed, with its sign. -/
theorem printfPlusF_eq (d : ℤ) : printfPlusF ((d : ℚ) / 1000000000) =
    (if d < 0 then '-' else '+') :: (Nat.toDigits 10 ((printedMicros d).natAbs / 1000000) ++
      '.' :: sixDigits ((printedMicros d).natAbs % 1000000)) := by
  have hscale : (d : ℚ) / 1000000000 * 1000000 = (d : ℚ) / 1000 := by ring
  have hneg : (d : ℚ) / 1000000000 < 0 ↔ d < 0 := by
    rw [div_lt_iff₀ (by norm_num), zero_mul]
    exact_mod_cast Iff.rfl
  unfold printfPlusF printedMicros
  rw [hscale]
  simp only [hneg]

/-- Such an offset is in the range of the finite numbers. -/
theorem outOfRange_printedMicros {d : ℤ} (hd : OffsetFits d) :
    outOfRange ((printedMicros d : ℚ) / 1000000) = false := by
  obtain ⟨hlo, hhi⟩ := hd
  generalize printedMicros d = n at hlo hhi ⊢
  have hbound : |n| ≤ 2 ^ 64 * 1000000 := by
    rw [abs_le]
    unfold ftTimeMin ftTimeMax at hlo
    unfold ftTimeMax at hhi
    constructor <;> omega
  have habs : |(n : ℚ) / 1000000| = ((|n| : ℤ) : ℚ) / 1000000 := by
    rw [abs_div, Int.cast_abs]
    norm_num
  have hfinite : isfinite ((n : ℚ) / 1000000) = true := by
    have hle : ((|n| : ℤ) : ℚ) / 1000000 ≤ 2 ^ 64 := by
      rw [div_le_iff₀ (by norm_num)]
      exact_mod_cast hbound
    have hpow : (2 : ℚ) ^ 64 ≤ 2 ^ 970 := pow_le_pow_right₀ (by norm_num) (by norm_num)
    have hsplit : (2 : ℚ) ^ 1024 = 2 ^ 54 * 2 ^ 970 := by rw [← pow_add]
    refine decide_eq_true ?_
    rw [habs, hsplit]
    generalize (2 : ℚ) ^ 970 = x at hpow ⊢
    linarith
  rw [outOfRange_exact, hfinite]
  rfl

/-- **The parser reads the offset that was printed.** -/
theorem splitOffset_printfPlusF {d : ℤ} (hd : OffsetFits d) :
    splitOffset (printfPlusF ((d : ℚ) / 1000000000)) =
      some ((printedMicros d : ℚ) / 1000000, 1, []) := by
  have hread : strtodExact (printfPlusF ((d : ℚ) / 1000000000)) =
      some (.finite ((printedMicros d : ℚ) / 1000000), []) := by
    rw [printfPlusF_eq]
    have habs := strtodUnsigned_printed (printedMicros d).natAbs
    by_cases hneg : d < 0
    · have hle : printedMicros d ≤ 0 :=
        roundEven_nonpos (div_neg_of_neg_of_pos (by exact_mod_cast hneg) (by norm_num))
      have hcast : ((printedMicros d).natAbs : ℚ) = -printedMicros d := by
        rw [← Int.cast_natCast, Int.ofNat_natAbs_of_nonpos hle, Int.cast_neg]
      rw [if_pos hneg]
      change (strtodUnsigned _).map _ = _
      rw [habs, hcast]
      simp [neg_div]
    · have hle : 0 ≤ printedMicros d :=
        roundEven_nonneg (div_nonneg (by exact_mod_cast not_lt.mp hneg) (by norm_num))
      have hcast : ((printedMicros d).natAbs : ℚ) = printedMicros d := by
        rw [← Int.cast_natCast, Int.natAbs_of_nonneg hle]
      rw [if_neg hneg]
      change strtodUnsigned _ = _
      rw [habs, hcast]
  rw [splitOffset, parseFiniteDoublePrefix_of_exact hread (outOfRange_printedMicros hd)]

/-- And it is held exactly. -/
theorem offsetTimespec_printedMicros {d : ℤ} (hd : OffsetFits d) :
    offsetTimespec ((printedMicros d : ℚ) / 1000000) 1 = some (.ofNs (printedMicros d * 1000)) := by
  obtain ⟨hlo, hhi⟩ := hd
  generalize printedMicros d = n at hlo hhi ⊢
  have hfloor : ⌊(n : ℚ) / 1000000⌋ = n / 1000000 := by
    exact_mod_cast Rat.floor_intCast_div_natCast n 1000000
  have hrest : (((n : ℚ) / 1000000 - ((n / 1000000 : ℤ) : ℚ)) * (secToNSec : ℤ)) =
      ((n % 1000000 * 1000 : ℤ) : ℚ) := by
    have hdiv := Int.emod_add_mul_ediv n 1000000
    have hcast : (n : ℚ) = ((n % 1000000 : ℤ) : ℚ) + 1000000 * ((n / 1000000 : ℤ) : ℚ) := by
      exact_mod_cast hdiv.symm
    generalize n % 1000000 = a at hcast
    generalize n / 1000000 = b at hcast ⊢
    rw [hcast]
    push_cast [secToNSec]
    ring
  rw [offsetTimespec, if_pos rfl, Option.bind_some, doubleToTimespec]
  dsimp only
  rw [longNsec_exact, hfloor, if_neg (by omega), hrest, trunc_intCast,
    if_neg (by unfold secToNSec; omega)]
  rw [Timespec.ofNs]
  congr 2 <;> omega

/-- The characters of the text: a sign, a point, and digits. -/
theorem mem_printfPlusF {q : ℚ} {c : Char} (h : c ∈ printfPlusF q) :
    c = '-' ∨ c = '+' ∨ c = '.' ∨ isDigit 10 c = true := by
  unfold printfPlusF at h
  rcases List.mem_cons.mp h with rfl | h
  · split <;> simp
  · rcases List.mem_append.mp h with h | h
    · exact Or.inr (Or.inr (Or.inr (isDigit_of_mem_toDigits h).1))
    · rcases List.mem_cons.mp h with rfl | h
      · simp
      · exact Or.inr (Or.inr (Or.inr (isDigit_of_mem_sixDigits h)))

/-- There is no modifier in it. -/
theorem strchr_printfPlusF (q : ℚ) {c : Char} (hc : c ≠ '-' ∧ c ≠ '+' ∧ c ≠ '.')
    (hdigit : isDigit 10 c = false) : strchr (printfPlusF q) c = none := by
  cases h : strchr (printfPlusF q) c with
  | none => rfl
  | some rest =>
    rcases mem_printfPlusF (mem_of_strchr h) with h | h | h | h
    · exact absurd h hc.1
    · exact absurd h hc.2.1
    · exact absurd h hc.2.2
    · rw [h] at hdigit
      cases hdigit

theorem head?_printfPlusF (q : ℚ) :
    (printfPlusF q).head? = some '+' ∨ (printfPlusF q).head? = some '-' := by
  unfold printfPlusF
  rw [List.head?_cons]
  split
  · exact Or.inr rfl
  · exact Or.inl rfl

/-- It is short enough for every buffer it is copied to. -/
theorem length_printfPlusF {d : ℤ} (hd : OffsetFits d) :
    (printfPlusF ((d : ℚ) / 1000000000)).length < bufferlen - 1 := by
  have hbound : (printedMicros d).natAbs / 1000000 < 10 ^ 20 := by
    obtain ⟨hlo, hhi⟩ := hd
    unfold ftTimeMin ftTimeMax at hlo
    unfold ftTimeMax at hhi
    omega
  have hlen := Nat.toDigits_length 10 _ 20 (by decide) hbound
  rw [printfPlusF_eq, List.length_cons, List.length_append, List.length_cons]
  simp only [sixDigits, List.map_cons, List.map_nil, List.length_cons, List.length_nil]
  unfold bufferlen
  omega

end Reading

/-! ### What the parser makes of it -/

/-- The variables after the offset of a setting has been taken over. -/
def Proc.follows (s : Proc) (setting : CStr) (offset : Timespec) : Proc :=
  { s with
    ftMode := .startAt
    userOffset := offset
    userFakedTimeTimespec := timespecadd s.ftplStarttime.real offset
    userFakedTimeSaved := setting }

/-- The text that is printed of an offset of `d` nanoseconds. -/
def offsetText (d : ℤ) : CStr := printfPlusF ((d : ℚ) / 1000000000)

/-- What is read of it. -/
def printedOffset (d : ℤ) : Timespec := .ofNs (printedMicros d * 1000)

/-- **An offset that is in force has been applied to the start time.** -/
def Proc.OffsetApplied (s : Proc) : Prop :=
  ∀ d, OffsetFits d → s.userFakedTimeSaved = offsetText d →
    s.follows (offsetText d) (printedOffset d) = s

end LibFaketime
