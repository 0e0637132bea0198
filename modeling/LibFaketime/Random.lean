import LibFaketime.Numbers
import LibFaketime.World

/-!
# Random numbers

The optional `getrandom` and `getentropy`: with `FAKERANDOM_SEED` in the environment
they fill the buffer of the caller from a generator that is started from the seed at every
request (`LibFaketime.bypassRandomness`).

So what a program gets depends on how it asks. The main result says how much: two programs
that ask for the same number of bytes in all get the same bytes for every seed if they make
the same requests, leaving out those of length zero, and in general only then
(`LibFaketime.requests_agree_iff_same`).
-/

namespace LibFaketime

open Effects Effects.Prog

/-! ### The generator -/

/-- The two words of the generator. -/
structure Msws where
  x : UInt64
  w : UInt64
deriving DecidableEq, Repr

/-- The words a request starts from. -/
def Msws.start : Msws := ⟨0, 0⟩

/-- `fakerandom_msws`: the next byte, and the words after it. -/
def fakerandomMsws (g : Msws) (s : UInt64) : UInt8 × Msws :=
  let w := g.w + s
  let x := g.x * g.x + w
  let x := (x >>> 32) ||| (x <<< 32)
  ((x &&& 0xFF).toUInt8, ⟨x, w⟩)

/-- The loop of `bypass_randomness`. -/
def fillBuffer (s : UInt64) : ℕ → Msws → List UInt8
  | 0, _ => []
  | n + 1, g => (fakerandomMsws g s).1 :: fillBuffer s n (fakerandomMsws g s).2

/-- The seed in `FAKERANDOM_SEED`: the whole text, as `strtoull` reads it with base `0`. -/
def parseSeed (seedstring : CStr) : Option UInt64 :=
  match strtoPrefixed seedstring with
  | some (neg, n, []) =>
    if n < 2 ^ 64 then some (UInt64.ofNat (if neg then 2 ^ 64 - n else n)) else none
  | _ => none

/-- `bypass_randomness`: the bytes it leaves in the buffer, or nothing if it returns `0`;
`isNull` is `buf == NULL`. -/
def bypassRandomness (isNull : Bool) (buflen : ℕ) : Sys (Option (List UInt8)) := do
  match ← getenv .fakerandomSeed with
  | none => pure none
  | some seedstring =>
    if isNull && buflen != 0 then pure none
    else pure ((parseSeed seedstring).map fun seed => fillBuffer seed buflen .start)

/-- `getrandom`: its result, and the bytes in the buffer. -/
def getrandom (isNull : Bool) (buflen flags : ℕ) : Sys (ℤ × List UInt8) := do
  match ← bypassRandomness isNull buflen with
  | some bytes => pure (buflen, bytes)
  | none => realGetrandom buflen flags

/-- `getentropy`. -/
def getentropy (isNull : Bool) (length : ℕ) : Sys (ℤ × List UInt8) := do
  match ← bypassRandomness isNull length with
  | some bytes => pure (0, bytes)
  | none => realGetentropy length

/-- A call that asks for random bytes, with a buffer to fill. -/
inductive RandomRequest where
  | getrandom (buflen flags : ℕ)
  | getentropy (length : ℕ)

/-- The number of bytes asked for. -/
def RandomRequest.length : RandomRequest → ℕ
  | .getrandom buflen _ => buflen
  | .getentropy length => length

/-- The program of a request. -/
def RandomRequest.prog : RandomRequest → Sys (ℤ × List UInt8)
  | .getrandom buflen flags => LibFaketime.getrandom false buflen flags
  | .getentropy length => LibFaketime.getentropy false length

/-- One request after the other, and the buffers they fill one after the other. -/
def requests : List RandomRequest → Sys (List UInt8)
  | [] => pure []
  | r :: rs => do
    let filled ← r.prog
    let rest ← requests rs
    pure (filled.2 ++ rest)

/-! ### What a run of requests gives -/

/-- The environment has the seed `s`, whenever it is asked. -/
def World.Seeded (s : CStr) (w : World) : Prop :=
  ∀ n, w.os n (.getenv .fakerandomSeed) = some (some s)

theorem runs_bypassRandomness {s : CStr} {seed : UInt64} (hs : parseSeed s = some seed) {n : ℕ}
    {w : World} (hw : w.Seeded s) :
    (bypassRandomness false n).Runs seq w fun r w' =>
      r = some (fillBuffer seed n .start) ∧ w'.Seeded s := by
  refine runs_getenv (hw _) ?_
  simp only [Bool.false_and, Bool.false_eq_true, if_false, hs, Option.map_some]
  exact runs_pure ⟨rfl, hw⟩

theorem runs_request {s : CStr} {seed : UInt64} (hs : parseSeed s = some seed)
    (r : RandomRequest) {w : World} (hw : w.Seeded s) :
    r.prog.Runs seq w fun a w' => a.2 = fillBuffer seed r.length .start ∧ w'.Seeded s := by
  cases r with
  | getrandom n flags =>
    refine (runs_bypassRandomness hs hw).bind ?_
    rintro _ w' ⟨rfl, hw'⟩
    exact runs_pure ⟨rfl, hw'⟩
  | getentropy n =>
    refine (runs_bypassRandomness hs hw).bind ?_
    rintro _ w' ⟨rfl, hw'⟩
    exact runs_pure ⟨rfl, hw'⟩

/-- **Every request gets the beginning of the same stream.** -/
theorem runs_requests {s : CStr} {seed : UInt64} (hs : parseSeed s = some seed)
    (rs : List RandomRequest) {w : World} (hw : w.Seeded s) :
    (requests rs).Runs seq w fun bytes w' =>
      bytes = (rs.map RandomRequest.length).flatMap (fillBuffer seed · .start) ∧ w'.Seeded s := by
  induction rs generalizing w with
  | nil => exact runs_pure ⟨rfl, hw⟩
  | cons r rs ih =>
    refine (runs_request hs r hw).bind fun a w₁ ha => ?_
    refine (ih ha.2).bind fun rest w₂ hrest => ?_
    exact runs_pure ⟨by rw [ha.1, hrest.1, List.map_cons, List.flatMap_cons], hrest.2⟩

/-! ### Beginnings of a stream, one after the other -/

section Beginnings

variable {α : Type}

/-- The first `n` values of a stream. -/
def beginning (S : ℕ → α) (n : ℕ) : List α := (List.range n).map S

theorem flatMap_beginning_filter (S : ℕ → α) (l : List ℕ) :
    (l.filter (0 < ·)).flatMap (beginning S) = l.flatMap (beginning S) := by
  induction l with
  | nil => rfl
  | cons n l ih =>
    cases n with
    | zero => simpa [beginning] using ih
    | succ n => simp [ih]

/-- A shorter beginning that is followed by another one shows where it ended. -/
theorem value_eq_of_flatMap_eq {S : ℕ → α} {x y : ℕ} {A B : List ℕ} (hxy : x < y) (hA : A ≠ [])
    (hpos : ∀ n ∈ A, 0 < n)
    (h : (x :: A).flatMap (beginning S) = (y :: B).flatMap (beginning S)) : S x = S 0 := by
  obtain ⟨a, A, rfl⟩ := List.exists_cons_of_ne_nil hA
  obtain ⟨a, rfl⟩ := Nat.exists_eq_succ_of_ne_zero (hpos a (List.mem_cons_self ..)).ne'
  have hx := congrArg (fun l => l[x]?) h
  simp only [List.flatMap_cons] at hx
  rw [List.getElem?_append_right (by simp [beginning]),
    List.getElem?_append_left (by simp [beginning]),
    List.getElem?_append_left (by simpa [beginning] using hxy)] at hx
  simpa [beginning, hxy] using hx.symm

/-- **Two different ways to cut the same length differ on some stream.** The length at
which they differ depends on the cuts alone, and neither has only shorter pieces. -/
theorem exists_value_eq_of_ne {l l' : List ℕ} (hl : ∀ n ∈ l, 0 < n) (hl' : ∀ n ∈ l', 0 < n)
    (hsum : l.sum = l'.sum) (hne : l ≠ l') :
    ∃ x, 0 < x ∧ (∃ n ∈ l, x ≤ n) ∧ (∃ n ∈ l', x ≤ n) ∧
      ∀ S : ℕ → α, l.flatMap (beginning S) = l'.flatMap (beginning S) → S x = S 0 := by
  induction l generalizing l' with
  | nil =>
    cases l' with
    | nil => exact absurd rfl hne
    | cons y B =>
      have := hl' y (List.mem_cons_self ..)
      simp only [List.sum_nil, List.sum_cons] at hsum
      omega
  | cons x A ih =>
    have hx := hl x (List.mem_cons_self ..)
    cases l' with
    | nil =>
      simp only [List.sum_nil, List.sum_cons] at hsum
      omega
    | cons y B =>
      have hy := hl' y (List.mem_cons_self ..)
      have hA : ∀ n ∈ A, 0 < n := fun n hn => hl n (List.mem_cons_of_mem _ hn)
      have hB : ∀ n ∈ B, 0 < n := fun n hn => hl' n (List.mem_cons_of_mem _ hn)
      simp only [List.sum_cons] at hsum
      -- at the first difference the longer request goes on where the shorter one starts again
      rcases lt_trichotomy x y with hxy | rfl | hxy
      · refine ⟨x, hx, ⟨x, List.mem_cons_self .., le_rfl⟩, ⟨y, List.mem_cons_self .., hxy.le⟩,
          fun S => value_eq_of_flatMap_eq hxy ?_ hA⟩
        rintro rfl
        simp only [List.sum_nil] at hsum
        omega
      · obtain ⟨z, hz, ⟨n, hn, hzn⟩, ⟨n', hn', hzn'⟩, hS⟩ :=
          ih hA hB (by omega) fun h => hne (by rw [h])
        refine ⟨z, hz, ⟨n, List.mem_cons_of_mem _ hn, hzn⟩,
          ⟨n', List.mem_cons_of_mem _ hn', hzn'⟩, fun S h => hS S ?_⟩
        simpa only [List.flatMap_cons, List.append_cancel_left_eq] using h
      · refine ⟨y, hy, ⟨x, List.mem_cons_self .., hxy.le⟩, ⟨y, List.mem_cons_self .., le_rfl⟩,
          fun S h => value_eq_of_flatMap_eq hxy ?_ hB h.symm⟩
        rintro rfl
        simp only [List.sum_nil] at hsum
        omega

end Beginnings

/-! ### Seeds that tell requests apart -/

/-- The words of the generator after `n` bytes. -/
def mswsAfter (s : UInt64) : ℕ → Msws
  | 0 => .start
  | n + 1 => (fakerandomMsws (mswsAfter s n) s).2

/-- The byte at a place of the stream. -/
def byteAt (s : UInt64) (n : ℕ) : UInt8 := (fakerandomMsws (mswsAfter s n) s).1

theorem fillBuffer_mswsAfter (s : UInt64) (k n : ℕ) :
    fillBuffer s k (mswsAfter s n) = (List.range k).map fun i => byteAt s (n + i) := by
  induction k generalizing n with
  | zero => rfl
  | succ k ih =>
    rw [fillBuffer, List.range_succ_eq_map, List.map_cons, List.map_map]
    refine congrArg₂ _ rfl ((ih (n + 1)).trans ?_)
    refine List.map_congr_left fun i _ => ?_
    rw [Function.comp_apply, Nat.succ_eq_add_one, add_right_comm, add_assoc]

theorem fillBuffer_start (s : UInt64) (k : ℕ) :
    fillBuffer s k .start = beginning (byteAt s) k := by
  have h := fillBuffer_mswsAfter s k 0
  simp only [Nat.zero_add] at h
  exact h

theorem toNat_swap (v : UInt64) :
    ((v >>> 32) ||| (v <<< 32)).toNat = v.toNat / 2 ^ 32 + v.toNat % 2 ^ 32 * 2 ^ 32 := by
  have hv := v.toNat_lt
  have hlow : v.toNat / 2 ^ 32 < 2 ^ 32 := by omega
  rw [UInt64.toNat_or, UInt64.toNat_shiftRight, UInt64.toNat_shiftLeft]
  simp only [UInt64.reduceToNat, Nat.reduceMod, Nat.shiftRight_eq_div_pow, Nat.shiftLeft_eq]
  rw [show v.toNat * 2 ^ 32 % 2 ^ 64 = 2 ^ 32 * (v.toNat % 2 ^ 32) by omega, Nat.or_comm,
    ← Nat.two_pow_add_eq_or_of_lt hlow]
  omega

/-- The byte is the lowest one of the upper word before the swap. -/
theorem toNat_fakerandomMsws (g : Msws) (s : UInt64) :
    (fakerandomMsws g s).1.toNat = (g.x * g.x + (g.w + s)).toNat / 2 ^ 32 % 256 := by
  have h := toNat_swap (g.x * g.x + (g.w + s))
  simp only [fakerandomMsws, UInt64.toNat_toUInt8, UInt64.toNat_and, h]
  rw [show (255 : UInt64).toNat = 2 ^ 8 - 1 by rfl, Nat.and_two_pow_sub_one_eq_mod]
  omega

/-- As long as the multiples of a small seed fit into a word, the square vanishes and the
generator does nothing but count. -/
theorem mswsAfter_of_small {a n : ℕ} (h : n * a < 2 ^ 32) (ha : a < 2 ^ 32) :
    (mswsAfter (UInt64.ofNat a) n).x.toNat = n * a * 2 ^ 32 ∧
      (mswsAfter (UInt64.ofNat a) n).w.toNat = n * a := by
  induction n with
  | zero => simp [mswsAfter, Msws.start]
  | succ n ih =>
    have hn : n * a < 2 ^ 32 := lt_of_le_of_lt (Nat.mul_le_mul_right a (Nat.le_succ n)) h
    obtain ⟨hx, hw⟩ := ih hn
    have hsum : (n + 1) * a = n * a + a := Nat.succ_mul n a
    have hw' : ((mswsAfter (UInt64.ofNat a) n).w + UInt64.ofNat a).toNat = (n + 1) * a := by
      rw [UInt64.toNat_add, hw, UInt64.toNat_ofNat']
      omega
    refine ⟨?_, hw'⟩
    refine (toNat_swap _).trans ?_
    rw [UInt64.toNat_add, hw', UInt64.toNat_mul, hx,
      show n * a * 2 ^ 32 * (n * a * 2 ^ 32) = 2 ^ 64 * (n * a * (n * a)) by ring]
    omega

/-- **For every short length there is a seed whose byte there differs from the first.** -/
theorem exists_byteAt_ne {x : ℕ} (hx : 0 < x) (hlt : x < 2 ^ 16) :
    ∃ a, 0 < a ∧ a < 2 ^ 32 ∧ byteAt (UInt64.ofNat a) x ≠ byteAt (UInt64.ofNat a) 0 := by
  -- the first multiple that does not fit into a word is the one with number `x + 1`
  set a := (2 ^ 32 + x) / (x + 1) with ha
  have hmul : (x + 1) * a ≤ 2 ^ 32 + x := Nat.mul_div_le _ _
  have hge : 2 ^ 32 ≤ (x + 1) * a := by
    have := Nat.lt_mul_div_succ (2 ^ 32 + x) (Nat.succ_pos x)
    rw [Nat.succ_eq_add_one, ← ha] at this
    nlinarith
  have hfit : x * a < 2 ^ 32 := by
    by_contra hcon
    have hsq : x * x < 2 ^ 32 := by nlinarith
    nlinarith [Nat.le_of_not_lt hcon, Nat.mul_le_mul_left x hmul]
  have halt : a < 2 ^ 32 := lt_of_le_of_lt (Nat.le_mul_of_pos_left a hx) hfit
  have hpos : 0 < a := Nat.pos_of_ne_zero fun h0 => by rw [h0] at hge; omega
  refine ⟨a, hpos, halt, fun heq => ?_⟩
  have hnat := congrArg UInt8.toNat heq
  rw [byteAt, byteAt, toNat_fakerandomMsws, toNat_fakerandomMsws] at hnat
  obtain ⟨h1, h2⟩ := mswsAfter_of_small hfit halt
  obtain ⟨h3, h4⟩ := mswsAfter_of_small (n := 0) (by omega) halt
  rw [UInt64.toNat_add, UInt64.toNat_add, UInt64.toNat_mul, UInt64.toNat_add, UInt64.toNat_add,
    UInt64.toNat_mul, h1, h2, h3, h4, UInt64.toNat_ofNat',
    show x * a * 2 ^ 32 * (x * a * 2 ^ 32) = 2 ^ 64 * (x * a * (x * a)) by ring] at hnat
  have hsum : (x + 1) * a = x * a + a := Nat.succ_mul x a
  omega

/-- Every seed but zero can be written down. -/
theorem parseSeed_toDigits {a : ℕ} (hpos : 0 < a) (hlt : a < 2 ^ 64) :
    parseSeed (Nat.toDigits 10 a) = some (UInt64.ofNat a) := by
  rw [parseSeed, strtoPrefixed_toDigits hpos]
  simp only [if_pos hlt, Bool.false_eq_true, if_false]

/-! ### The main result -/

/-- The lengths of the requests that ask for anything. -/
def askedLengths (rs : List RandomRequest) : List ℕ :=
  (rs.map RandomRequest.length).filter (0 < ·)

/-- Whatever the seed is, two runs of requests fill the same bytes. -/
def SameBytes (rs rs' : List RandomRequest) : Prop :=
  ∀ s seed w w', parseSeed s = some seed → World.Seeded s w → World.Seeded s w' →
    ∃ bytes v v', (requests rs).run seq w = .ok (bytes, v) ∧
      (requests rs').run seq w' = .ok (bytes, v')

/-- The bytes of a run of requests, by the stream of the seed. -/
theorem exists_run_requests {s : CStr} {seed : UInt64} (hs : parseSeed s = some seed)
    (rs : List RandomRequest) {w : World} (hw : w.Seeded s) :
    ∃ v, (requests rs).run seq w =
      .ok ((askedLengths rs).flatMap (beginning (byteAt seed)), v) := by
  obtain ⟨bytes, v, hrun, hbytes, -⟩ := runs_requests hs rs hw
  refine ⟨v, ?_⟩
  rw [hrun, hbytes, askedLengths, flatMap_beginning_filter,
    show (fillBuffer seed · .start) = beginning (byteAt seed) from funext (fillBuffer_start seed)]

/-- A world in which the environment has a seed. -/
def seededWorld (s : CStr) : World :=
  calmWorld (fun v => if v = .fakerandomSeed then some s else none) (fun _ _ => ⟨0, 0⟩) ⟨0, 0⟩
    .initial

theorem seeded_seededWorld (s : CStr) : (seededWorld s).Seeded s := fun _ => rfl

/-- **Random output does depend on how it is requested.** Two runs that ask for the same
number of bytes get the same bytes for every seed if, leaving out the requests for nothing,
they make the same requests; and, as far as one of them makes only requests for less than
64 KiB, in no other case. -/
theorem requests_agree_iff_same (rs rs' : List RandomRequest)
    (hsum : (rs.map RandomRequest.length).sum = (rs'.map RandomRequest.length).sum) :
    (askedLengths rs = askedLengths rs' → SameBytes rs rs') ∧
      ((∀ r ∈ rs, r.length < 2 ^ 16) ∨ (∀ r ∈ rs', r.length < 2 ^ 16) →
        (SameBytes rs rs' ↔ askedLengths rs = askedLengths rs')) := by
  have hsame : askedLengths rs = askedLengths rs' → SameBytes rs rs' := by
    intro h s seed w w' hs hw hw'
    obtain ⟨v, hv⟩ := exists_run_requests hs rs hw
    obtain ⟨v', hv'⟩ := exists_run_requests hs rs' hw'
    exact ⟨_, v, v', hv, by rw [hv', h]⟩
  refine ⟨hsame, fun hshort => ⟨fun hbytes => ?_, hsame⟩⟩
  by_contra hne
  have hpos : ∀ l : List RandomRequest, ∀ n ∈ askedLengths l, 0 < n := fun l n hn => by
    simpa using (List.mem_filter.mp hn).2
  have hfilter : ∀ l : List ℕ, (l.filter (0 < ·)).sum = l.sum := fun l => by
    induction l with
    | nil => rfl
    | cons n l ih => cases n <;> simp [ih]
  obtain ⟨x, hx, ⟨n, hn, hxn⟩, ⟨n', hn', hxn'⟩, hS⟩ := exists_value_eq_of_ne (α := UInt8)
    (hpos rs) (hpos rs') (by rw [askedLengths, askedLengths, hfilter, hfilter, hsum]) hne
  have hlt : x < 2 ^ 16 := by
    rcases hshort with h | h
    · obtain ⟨r, hr, rfl⟩ := List.mem_map.mp (List.mem_filter.mp hn).1
      exact lt_of_le_of_lt hxn (h r hr)
    · obtain ⟨r, hr, rfl⟩ := List.mem_map.mp (List.mem_filter.mp hn').1
      exact lt_of_le_of_lt hxn' (h r hr)
  -- some seed tells the bytes at the two positions apart
  obtain ⟨a, ha, halt, hdiff⟩ := exists_byteAt_ne hx hlt
  have hs := parseSeed_toDigits ha (halt.trans (by decide))
  obtain ⟨bytes, v, v', hv, hv'⟩ := hbytes _ _ _ _ hs (seeded_seededWorld _) (seeded_seededWorld _)
  obtain ⟨u, hu⟩ := exists_run_requests hs rs (seeded_seededWorld _)
  obtain ⟨u', hu'⟩ := exists_run_requests hs rs' (seeded_seededWorld _)
  rw [hv] at hu
  rw [hv'] at hu'
  simp only [Except.ok.injEq, Prod.mk.injEq] at hu hu'
  exact hdiff (hS _ (hu.1.symm.trans hu'.1))

/-- A request for nothing changes nothing. -/
theorem requests_agree_request_for_nothing :
    SameBytes [.getrandom 3 0] [.getrandom 3 0, .getentropy 0] :=
  (requests_agree_iff_same [.getrandom 3 0] [.getrandom 3 0, .getentropy 0] (by decide)).1
    (by decide)

/-- Five requests for three bytes and three for five, with the seed of the test. -/
theorem five_by_three_not_three_by_five :
    ((List.replicate 5 (RandomRequest.getrandom 3 0)).map RandomRequest.length).sum =
        ((List.replicate 3 (RandomRequest.getrandom 5 0)).map RandomRequest.length).sum ∧
      parseSeed "0xDEADBEEFDEADBEEF".toList = some 0xDEADBEEFDEADBEEF ∧
      ¬ SameBytes (List.replicate 5 (.getrandom 3 0)) (List.replicate 3 (.getrandom 5 0)) := by
  have hs : parseSeed "0xDEADBEEFDEADBEEF".toList = some 0xDEADBEEFDEADBEEF := by decide
  refine ⟨by decide, hs, fun h => ?_⟩
  obtain ⟨bytes, v, v', hv, hv'⟩ := h _ _ _ _ hs (seeded_seededWorld _) (seeded_seededWorld _)
  obtain ⟨u, hu⟩ := exists_run_requests hs (List.replicate 5 (.getrandom 3 0))
    (seeded_seededWorld _)
  obtain ⟨u', hu'⟩ := exists_run_requests hs (List.replicate 3 (.getrandom 5 0))
    (seeded_seededWorld _)
  rw [hv] at hu
  rw [hv'] at hu'
  simp only [Except.ok.injEq, Prod.mk.injEq] at hu hu'
  exact absurd (hu.1.symm.trans hu'.1) (by decide)

end LibFaketime
