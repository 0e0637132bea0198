import LibFaketime.Settime
import Mathlib.Data.List.DropRight

/-!
# The wrapper command

`faketime` runs a program with a setting for the library in its environment. The time that the
user asks for is handed to the date helper, and what the helper prints is turned into the
setting: a distance from the present time, or with `--freeze` the date as it has been printed
(`LibFaketime.faketimeValue`).

What is shown about the texts here is what the library needs in order to read them: a distance
is a sign and digits, and a text that looks like a date is a date
(`LibFaketime.looksLikeAbsoluteTimestamp_iff`).
-/

namespace LibFaketime

/-! ### The date helper -/

/-- `sizeof(buf)`. -/
def bufSize : ℕ := 256

/-- The loop over the output of the date helper: the buffer, and whether there was more than it
is able to hold. -/
def readOutput : CStr → CStr × Bool → CStr × Bool
  | [], r => r
  | byte :: rest, (buf, overflow) =>
    if buf.length < bufSize - 1 then readOutput rest (buf ++ [byte], overflow)
    else readOutput rest (buf, true)

/-- The date helper has run: what it has printed, and whether it has been waited for and has exited
with success. -/
structure DateRun where
  output : CStr
  succeeded : Bool

/-- The buffer, as a string. -/
def DateRun.buf (d : DateRun) : CStr :=
  (readOutput d.output ([], false)).1.takeWhile (· ≠ Char.ofNat 0)

/-- `parse_date_seconds`. -/
def parseDateSeconds (value : CStr) : Option ℤ :=
  match strtol value with
  | none => none
  | some (result, rest) =>
    if result < ftTimeMin ∨ ftTimeMax < result then none
    else if rest.dropWhile isspace = [] then some result else none

/-- The loop over the shape of a date. -/
def matchesShape : CStr → CStr → Bool
  | [], value => value.isEmpty
  | _ :: _, [] => false
  | n :: shape, c :: value => (if n = 'N' then isDigit 10 c else c == n) && matchesShape shape value

/-- `looks_like_absolute_timestamp`. -/
def looksLikeAbsoluteTimestamp (value : CStr) : Bool :=
  matchesShape "NNNN-NN-NN NN:NN:NN".toList value

/-! ### The setting -/

/-- The options that matter here. -/
structure Options where
  /-- `-f`: the argument is the setting. -/
  useDirect : Bool
  /-- `--freeze`. -/
  freezeClock : Bool
  /-- `--exclude-monotonic`. -/
  excludeMonotonic : Bool
  /-- `--disable-shm`. -/
  disableShm : Bool

/-- `printf("%ld", n)`. -/
def printfLd (n : ℤ) : CStr :=
  if n < 0 then '-' :: Nat.toDigits 10 n.natAbs else Nat.toDigits 10 n.natAbs

/-- `"%s%ld"` with a sign in any case. -/
def signedLd (offset : ℤ) : CStr := (if 0 ≤ offset then ['+'] else []) ++ printfLd offset

/-- What `main` assigns to `FAKETIME`, or the message with which it exits. -/
def faketimeValue (o : Options) (arg : CStr) (d : DateRun) (now : ℤ) : Except String CStr :=
  if o.useDirect = true ∧ o.freezeClock = true then
    .error ("faketime: --freeze cannot be combined with -f; pass an absolute timestamp " ++
      "(\"YYYY-MM-DD hh:mm:ss\") to -f instead, which stops the clock by itself\n")
  else if o.useDirect then .ok arg
  else if (readOutput d.output ([], false)).2 = true ∨ d.succeeded = false then
    .error ("Error: Timestamp to fake not recognized, please re-try with a " ++
      "different timestamp.\n")
  else if o.freezeClock then
    let buf := d.buf.rdropWhile isspace
    if looksLikeAbsoluteTimestamp buf then .ok buf
    else .error ("faketime: date program returned an unexpected timestamp ('" ++
      String.ofList buf ++ "')\n")
  else
    match parseDateSeconds d.buf with
    | none => .error "faketime: date program returned an invalid timestamp\n"
    | some dateSeconds =>
      let offset := dateSeconds - now
      if offset < ftTimeMin ∨ ftTimeMax < offset then
        .error "faketime: date timestamp is outside the supported range\n"
      else if bufSize ≤ (signedLd offset).length then
        .error "faketime: generated FAKETIME value is too long\n"
      else .ok (signedLd offset)

/-- The environment of the program, from the one of the wrapper. -/
def childEnv (o : Options) (env : EnvVar → Option CStr) (value : CStr) : EnvVar → Option CStr
  | .faketime => some value
  | .faketimeDontFakeMonotonic =>
    if o.excludeMonotonic then some ['1'] else env .faketimeDontFakeMonotonic
  | .faketimeDisableShm => if o.disableShm then some ['1'] else env .faketimeDisableShm
  | v => env v

/-! ### Distances -/

section Distances

variable {n : ℕ} {offset : ℤ}

theorem strtodMantissa_toDigits (n : ℕ) :
    strtodMantissa 10 (Nat.toDigits 10 n) = some ((n : ℚ), []) := by
  obtain ⟨htake, hdrop⟩ := takeWhile_toDigits n [] nofun
  rw [List.append_nil] at htake hdrop
  unfold strtodMantissa
  rw [hdrop, htake]
  dsimp only
  rw [if_neg Nat.toDigits_ne_nil, digitsVal_toDigits]

/-- There is no `x` in a text of digits. -/
theorem not_hex_toDigits (n : ℕ) : ¬ "0x".toList <+: (Nat.toDigits 10 n).map Char.toLower := by
  intro h
  obtain ⟨c, hc, hcx⟩ := List.mem_map.mp (h.subset (show 'x' ∈ "0x".toList by decide))
  have hdigit := (isDigit_of_mem_toDigits hc).1
  rw [toLower_of_isDigit hdigit] at hcx
  exact ne_of_isDigit hdigit (by decide) hcx

theorem strtodUnsigned_toDigits (n : ℕ) :
    strtodUnsigned (Nat.toDigits 10 n) = some (.finite n, []) := by
  have hmant := strtodMantissa_toDigits n
  have hhex := not_hex_toDigits n
  obtain ⟨c, cs, hcs⟩ : ∃ c cs, Nat.toDigits 10 n = c :: cs :=
    List.exists_cons_of_ne_nil Nat.toDigits_ne_nil
  have hc : isDigit 10 c = true :=
    (isDigit_of_mem_toDigits (by rw [hcs]; exact List.mem_cons_self ..)).1
  have hword : ∀ {word : CStr} {p : Char}, word.head? = some p → isDigit 10 p = false →
      ¬ word <+: (c :: cs).map Char.toLower := by
    intro word p h hp
    have hnot : ¬ word <+: ((c :: cs) ++ []).map Char.toLower := not_prefix_toLower hc h hp
    rwa [List.append_nil] at hnot
  rw [hcs] at hmant hhex ⊢
  unfold strtodUnsigned
  dsimp only
  rw [if_neg (hword (p := 'i') rfl (by decide)), if_neg (hword (p := 'i') rfl (by decide)),
    if_neg (hword (p := 'n') rfl (by decide)), if_neg hhex, hmant]
  simp [strtodExponent]

/-- **The number that is printed with its sign is read again.** -/
theorem strtodExact_signedLd (offset : ℤ) :
    strtodExact (signedLd offset) = some (.finite offset, []) := by
  have hread := strtodUnsigned_toDigits offset.natAbs
  unfold signedLd printfLd
  rcases lt_or_ge offset 0 with hneg | hpos
  · have habs : ((offset.natAbs : ℕ) : ℚ) = -offset := by
      rw [← Int.cast_natCast, Int.ofNat_natAbs_of_nonpos hneg.le, Int.cast_neg]
    rw [if_neg (not_le.mpr hneg), if_pos hneg, List.nil_append]
    change (strtodUnsigned _).map _ = _
    rw [hread, habs]
    simp
  · have habs : ((offset.natAbs : ℕ) : ℚ) = offset := by
      rw [← Int.cast_natCast, Int.natAbs_of_nonneg hpos]
    rw [if_pos hpos, if_neg (not_lt.mpr hpos), List.singleton_append]
    change strtodUnsigned _ = _
    rw [hread, habs]

theorem head?_signedLd (offset : ℤ) :
    (signedLd offset).head? = some '+' ∨ (signedLd offset).head? = some '-' := by
  unfold signedLd printfLd
  rcases lt_or_ge offset 0 with hneg | hpos
  · rw [if_neg (not_le.mpr hneg), if_pos hneg]
    exact Or.inr rfl
  · rw [if_pos hpos]
    exact Or.inl rfl

/-- The characters of the text: a sign and digits. -/
theorem mem_signedLd {c : Char} (h : c ∈ signedLd offset) :
    c = '+' ∨ c = '-' ∨ isDigit 10 c = true := by
  have hdigits : c ∈ Nat.toDigits 10 offset.natAbs → isDigit 10 c = true := fun h =>
    (isDigit_of_mem_toDigits h).1
  unfold signedLd printfLd at h
  rcases lt_or_ge offset 0 with hneg | hpos
  · rw [if_neg (not_le.mpr hneg), if_pos hneg] at h
    rcases List.mem_cons.mp h with h | h
    · exact Or.inr (Or.inl h)
    · exact Or.inr (Or.inr (hdigits h))
  · rw [if_pos hpos, if_neg (not_lt.mpr hpos)] at h
    rcases List.mem_cons.mp h with h | h
    · exact Or.inl h
    · exact Or.inr (Or.inr (hdigits h))

end Distances

/-! ### Dates -/

/-- A time of the calendar, as it is printed. -/
structure CalendarTime where
  year : ℕ
  month : ℕ
  day : ℕ
  hour : ℕ
  minute : ℕ
  second : ℕ
deriving DecidableEq, Repr

/-- `%02d` of a number below hundred. -/
def twoDigits (n : ℕ) : CStr := [Nat.digitChar (n / 10), Nat.digitChar (n % 10)]

/-- `%Y-%m-%d %H:%M:%S`. -/
def CalendarTime.text (t : CalendarTime) : CStr :=
  twoDigits (t.year / 100) ++ (twoDigits (t.year % 100) ++ '-' :: (twoDigits t.month ++
    '-' :: (twoDigits t.day ++ ' ' :: (twoDigits t.hour ++ ':' :: (twoDigits t.minute ++
      ':' :: twoDigits t.second)))))

/-- The fields can be printed. -/
structure CalendarTime.Prints (t : CalendarTime) : Prop where
  year : t.year < 10000
  month : t.month < 100
  day : t.day < 100
  hour : t.hour < 100
  minute : t.minute < 100
  second : t.second < 100

section Dates

variable {shape s tail : CStr} {n : ℕ}

/-- A digit is the character of its value. -/
theorem exists_digitChar {c : Char} (h : isDigit 10 c = true) : ∃ d < 10, c = Nat.digitChar d := by
  have h09 : '0' ≤ c ∧ c ≤ '9' := by
    by_contra hc
    rw [isDigit, digitVal, if_neg hc] at h
    split_ifs at h with ha hA
    · have hlow : 97 ≤ c.toNat := ha.1
      simp only [Option.any_some, decide_eq_true_eq] at h
      omega
    · have hlow : 65 ≤ c.toNat := hA.1
      simp only [Option.any_some, decide_eq_true_eq] at h
      omega
    · cases h
  have hlow : 48 ≤ c.toNat := h09.1
  have hhigh : c.toNat ≤ 57 := h09.2
  have hall : ∀ d : Fin 10, Char.ofNat (48 + d.val) = Nat.digitChar d.val := by decide
  refine ⟨c.toNat - 48, by omega, ?_⟩
  rw [← hall ⟨c.toNat - 48, by omega⟩, Nat.add_sub_cancel' hlow, Char.ofNat_toNat]

theorem matchesShape_twoDigits (hn : n < 100) :
    matchesShape ('N' :: 'N' :: shape) (twoDigits n ++ s) = matchesShape shape s := by
  have h1 : isDigit 10 (Nat.digitChar (n / 10)) = true := isDigit_digitChar (by omega)
  have h2 : isDigit 10 (Nat.digitChar (n % 10)) = true := isDigit_digitChar (by omega)
  simp [matchesShape, twoDigits, h1, h2]

theorem matchesShape_cons {c : Char} (hc : c ≠ 'N') :
    matchesShape (c :: shape) (c :: s) = matchesShape shape s := by
  rw [matchesShape, if_neg hc, beq_self_eq_true, Bool.true_and]

/-- What matches the shape of a number is one. -/
theorem exists_twoDigits (h : matchesShape ('N' :: 'N' :: shape) s = true) :
    ∃ n < 100, ∃ tail, s = twoDigits n ++ tail ∧ matchesShape shape tail = true := by
  match s, h with
  | [_], h => simp [matchesShape] at h
  | a :: b :: tail, h =>
    simp only [matchesShape, if_true, Bool.and_eq_true] at h
    obtain ⟨d, hd, rfl⟩ := exists_digitChar h.1
    obtain ⟨e, he, rfl⟩ := exists_digitChar h.2.1
    refine ⟨d * 10 + e, by omega, tail, ?_, h.2.2⟩
    rw [twoDigits, show (d * 10 + e) / 10 = d by omega, show (d * 10 + e) % 10 = e by omega]
    rfl

theorem exists_of_matchesShape_cons {c : Char} (hc : c ≠ 'N')
    (h : matchesShape (c :: shape) s = true) :
    ∃ tail, s = c :: tail ∧ matchesShape shape tail = true := by
  match s, h with
  | a :: tail, h =>
    rw [matchesShape, if_neg hc, Bool.and_eq_true, beq_iff_eq] at h
    exact ⟨tail, by rw [h.1], h.2⟩

/-- **A text that looks like a date is one.** -/
theorem looksLikeAbsoluteTimestamp_iff :
    looksLikeAbsoluteTimestamp s = true ↔ ∃ t : CalendarTime, t.Prints ∧ s = t.text := by
  have hshape : "NNNN-NN-NN NN:NN:NN".toList =
    'N' :: 'N' :: 'N' :: 'N' :: '-' :: 'N' :: 'N' :: '-' ::
      'N' :: 'N' :: ' ' :: 'N' :: 'N' :: ':' :: 'N' :: 'N' :: ':' :: 'N' :: 'N' :: [] := rfl
  unfold looksLikeAbsoluteTimestamp
  rw [hshape]
  constructor
  · intro h
    obtain ⟨c, hc, s₁, h₁, h⟩ := exists_twoDigits h
    obtain ⟨y, hy, s₂, h₂, h⟩ := exists_twoDigits h
    obtain ⟨s₃, h₃, h⟩ := exists_of_matchesShape_cons (by decide) h
    obtain ⟨month, hmonth, s₄, h₄, h⟩ := exists_twoDigits h
    obtain ⟨s₅, h₅, h⟩ := exists_of_matchesShape_cons (by decide) h
    obtain ⟨day, hday, s₆, h₆, h⟩ := exists_twoDigits h
    obtain ⟨s₇, h₇, h⟩ := exists_of_matchesShape_cons (by decide) h
    obtain ⟨hour, hhour, s₈, h₈, h⟩ := exists_twoDigits h
    obtain ⟨s₉, h₉, h⟩ := exists_of_matchesShape_cons (by decide) h
    obtain ⟨minute, hminute, s₁₀, h₁₀, h⟩ := exists_twoDigits h
    obtain ⟨s₁₁, h₁₁, h⟩ := exists_of_matchesShape_cons (by decide) h
    obtain ⟨second, hsecond, s₁₂, h₁₂, h⟩ := exists_twoDigits h
    refine ⟨⟨c * 100 + y, month, day, hour, minute, second⟩,
      ⟨by dsimp only; omega, hmonth, hday, hhour, hminute, hsecond⟩, ?_⟩
    rw [CalendarTime.text, h₁, h₂, h₃, h₄, h₅, h₆, h₇, h₈, h₉, h₁₀, h₁₁, h₁₂, List.isEmpty_iff.mp h,
      show (c * 100 + y) / 100 = c by omega, show (c * 100 + y) % 100 = y by omega, List.append_nil]
  · rintro ⟨t, ht, rfl⟩
    have hyear := ht.year
    have hsecond : matchesShape ['N', 'N'] (twoDigits t.second ++ []) = matchesShape [] [] :=
      matchesShape_twoDigits ht.second
    rw [List.append_nil] at hsecond
    rw [CalendarTime.text, matchesShape_twoDigits (by omega), matchesShape_twoDigits (by omega),
      matchesShape_cons (by decide), matchesShape_twoDigits ht.month, matchesShape_cons (by decide),
      matchesShape_twoDigits ht.day, matchesShape_cons (by decide), matchesShape_twoDigits ht.hour,
      matchesShape_cons (by decide), matchesShape_twoDigits ht.minute,
        matchesShape_cons (by decide),
      hsecond]
    rfl

/-- The characters of a date. -/
theorem CalendarTime.mem_text {t : CalendarTime} (ht : t.Prints) {c : Char} (h : c ∈ t.text) :
    c = '-' ∨ c = ' ' ∨ c = ':' ∨ isDigit 10 c = true := by
  have hdigits : ∀ {n : ℕ}, n < 100 → c ∈ twoDigits n → isDigit 10 c = true := by
    intro n hn hc
    simp only [twoDigits, List.mem_cons, List.not_mem_nil, or_false] at hc
    rcases hc with rfl | rfl
    · exact isDigit_digitChar (by omega)
    · exact isDigit_digitChar (by omega)
  have hyear := ht.year
  simp only [CalendarTime.text, List.mem_append, List.mem_cons] at h
  rcases h with h | h | h | h | h | h | h | h | h | h | h | h
  · exact Or.inr (Or.inr (Or.inr (hdigits (by omega) h)))
  · exact Or.inr (Or.inr (Or.inr (hdigits (by omega) h)))
  · exact Or.inl h
  · exact Or.inr (Or.inr (Or.inr (hdigits ht.month h)))
  · exact Or.inl h
  · exact Or.inr (Or.inr (Or.inr (hdigits ht.day h)))
  · exact Or.inr (Or.inl h)
  · exact Or.inr (Or.inr (Or.inr (hdigits ht.hour h)))
  · exact Or.inr (Or.inr (Or.inl h))
  · exact Or.inr (Or.inr (Or.inr (hdigits ht.minute h)))
  · exact Or.inr (Or.inr (Or.inl h))
  · exact Or.inr (Or.inr (Or.inr (hdigits ht.second h)))

/-- A date begins with a digit. -/
theorem CalendarTime.head?_text {t : CalendarTime} (ht : t.Prints) :
    ∃ c, t.text.head? = some c ∧ isDigit 10 c = true := by
  have hyear := ht.year
  exact ⟨_, rfl, isDigit_digitChar (by omega)⟩

theorem digitsVal_twoDigits (hn : n < 100) : digitsVal 10 (twoDigits n) = n := by
  have h1 := digitVal_digitChar (show n / 10 < 10 by omega)
  have h2 := digitVal_digitChar (show n % 10 < 10 by omega)
  simp only [digitsVal, twoDigits, List.foldl_cons, List.foldl_nil, h1, h2, Option.getD_some]
  omega

theorem digitsVal_fourDigits (hn : n < 10000) :
    digitsVal 10 (twoDigits (n / 100) ++ twoDigits (n % 100)) = n := by
  have hhigh := digitsVal_twoDigits (show n / 100 < 100 by omega)
  have h1 := digitVal_digitChar (show n % 100 / 10 < 10 by omega)
  have h2 := digitVal_digitChar (show n % 100 % 10 < 10 by omega)
  unfold digitsVal at hhigh ⊢
  rw [List.foldl_append, hhigh]
  simp only [twoDigits, List.foldl_cons, List.foldl_nil, h1, h2, Option.getD_some]
  omega

/-- The number that is printed at some place of a text. -/
def numberAt (s : CStr) (place length : ℕ) : ℕ := digitsVal 10 ((s.drop place).take length)

/-- The numbers at the places of a date. -/
def numbersIn (s : CStr) : CalendarTime :=
  ⟨numberAt s 0 4, numberAt s 5 2, numberAt s 8 2, numberAt s 11 2, numberAt s 14 2,
    numberAt s 17 2⟩

/-- A date says what has been printed. -/
theorem CalendarTime.Prints.numbersIn_text {t : CalendarTime} (ht : t.Prints) :
    numbersIn t.text = t := by
  have hyear : numberAt t.text 0 4 = t.year := digitsVal_fourDigits ht.year
  have hmonth : numberAt t.text 5 2 = t.month := digitsVal_twoDigits ht.month
  have hday : numberAt t.text 8 2 = t.day := digitsVal_twoDigits ht.day
  have hhour : numberAt t.text 11 2 = t.hour := digitsVal_twoDigits ht.hour
  have hminute : numberAt t.text 14 2 = t.minute := digitsVal_twoDigits ht.minute
  have hsecond : numberAt t.text 17 2 = t.second := digitsVal_twoDigits ht.second
  unfold numbersIn
  rw [hyear, hmonth, hday, hhour, hminute, hsecond]

end Dates

/-! ### What is assigned -/

section Value

variable {o : Options} {arg value : CStr} {d : DateRun} {now : ℤ}

/-- A distance. -/
theorem exists_of_faketimeValue (hdirect : o.useDirect = false) (hfreeze : o.freezeClock = false)
    (h : faketimeValue o arg d now = .ok value) :
    ∃ seconds, parseDateSeconds d.buf = some seconds ∧ value = signedLd (seconds - now) := by
  unfold faketimeValue at h
  rw [hdirect, hfreeze, if_neg (by simp), if_neg (by simp)] at h
  split at h
  · cases h
  rw [if_neg (by simp)] at h
  split at h
  · cases h
  next seconds hseconds =>
    dsimp only at h
    split at h
    · cases h
    split at h
    · cases h
    cases h
    exact ⟨seconds, hseconds, rfl⟩

/-- A date. -/
theorem exists_of_faketimeValue_freeze (hdirect : o.useDirect = false)
    (hfreeze : o.freezeClock = true) (h : faketimeValue o arg d now = .ok value) :
    value = d.buf.rdropWhile isspace ∧ ∃ t : CalendarTime, t.Prints ∧ value = t.text := by
  unfold faketimeValue at h
  rw [hdirect, hfreeze, if_neg (by simp), if_neg (by simp)] at h
  split at h
  · cases h
  rw [if_pos rfl] at h
  dsimp only at h
  split at h
  next hshape =>
    cases h
    exact ⟨rfl, looksLikeAbsoluteTimestamp_iff.mp hshape⟩
  · cases h

end Value

end LibFaketime
