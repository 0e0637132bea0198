import LibFaketime.World
import LibFaketime.Save

/-!
# Writing all of it

`write` need not write what it is given. It may take a part, be interrupted before it has taken
anything, or fail, and `write_all` calls it again with what is left until nothing is. Two things
keep it from going on for ever: a part has at least one byte, and a thousand interruptions in a
row are too many. So a byte costs at most a thousand calls (`LibFaketime.le_of_goesOn`), and
whatever the answers are, the bytes that have been taken are the first ones of the buffer
(`LibFaketime.write_all_takes_prefix`).
-/

namespace LibFaketime

open Effects Effects.Prog

/-! ### The answers of `write` -/

section Results

variable (results : ℕ → WriteResult)

/-- The number of bytes that the first `n` calls have written. -/
def written : ℕ → ℕ
  | 0 => 0
  | n + 1 => written n + match results n with
    | .wrote k => k
    | _ => 0

/-- The number of interruptions in a row right before call `n`. -/
def inARow : ℕ → ℕ
  | 0 => 0
  | n + 1 => match results n with
    | .interrupted => inARow n + 1
    | _ => 0

/-- The answer to call `n` makes `write_all` give up: an error, no byte written, or the
thousandth interruption in a row. -/
def GivesUp (n : ℕ) : Prop :=
  match results n with
  | .failed => True
  | .wrote k => k = 0
  | .interrupted => 1000 ≤ inARow results n + 1

/-- **`write_all` goes on after call `n`**: something was left of the `count` bytes, and the answer
neither makes it give up nor counts more bytes than it was given. -/
structure GoesOn (count n : ℕ) : Prop where
  left : written results n < count
  kept : ¬ GivesUp results n
  asked : ∀ k, results n = .wrote k → written results n + k ≤ count

variable {results} {count n : ℕ}

theorem written_mono : Monotone (written results) :=
  monotone_nat_of_le_succ fun _ => Nat.le_add_right _ _

theorem written_succ_of_wrote {k : ℕ} (h : results n = .wrote k) :
    written results (n + 1) = written results n + k := by
  rw [written, h]

theorem written_succ_of_interrupted (h : results n = .interrupted) :
    written results (n + 1) = written results n := by
  rw [written, h]
  rfl

theorem inARow_succ_of_wrote {k : ℕ} (h : results n = .wrote k) :
    inARow results (n + 1) = 0 := by
  rw [inARow, h]

theorem inARow_succ_of_interrupted (h : results n = .interrupted) :
    inARow results (n + 1) = inARow results n + 1 := by
  rw [inARow, h]

/-- Nothing is written by the call that makes `write_all` give up. -/
theorem written_succ_of_givesUp (h : GivesUp results n) :
    written results (n + 1) = written results n := by
  rw [GivesUp] at h
  cases hr : results n with
  | failed =>
    rw [written, hr]
    rfl
  | interrupted => exact written_succ_of_interrupted hr
  | wrote k =>
    rw [hr] at h
    rw [written_succ_of_wrote hr, h, Nat.add_zero]

/-! ### What a byte costs -/

/-- The calls so far are paid for: a thousand for each byte, and the last interruptions on top
of that, which are fewer than a thousand. -/
structure Paid (results : ℕ → WriteResult) (count n : ℕ) : Prop where
  fits : written results n ≤ count
  row : inARow results n < 1000
  calls : n ≤ 1000 * written results n + inARow results n

theorem paid_zero : Paid results count 0 :=
  ⟨Nat.zero_le _, by rw [inARow]; omega, Nat.zero_le _⟩

/-- An answer after which `write_all` goes on is a byte at least, or one interruption more. -/
theorem Paid.succ (h : Paid results count n) (hn : GoesOn results count n) :
    Paid results count (n + 1) := by
  obtain ⟨hfits, hrow, hcalls⟩ := h
  have hkept := hn.kept
  rw [GivesUp] at hkept
  cases hr : results n with
  | failed => exact absurd trivial (by rwa [hr] at hkept)
  | interrupted =>
    rw [hr] at hkept
    have hwritten := written_succ_of_interrupted hr
    have hinARow := inARow_succ_of_interrupted hr
    exact ⟨by omega, by omega, by omega⟩
  | wrote k =>
    rw [hr] at hkept
    have hasked := hn.asked k hr
    have hwritten := written_succ_of_wrote hr
    have hinARow := inARow_succ_of_wrote hr
    have hpos : 0 < k := Nat.pos_of_ne_zero hkept
    exact ⟨by omega, by omega, by omega⟩

theorem paid_of_goesOn (h : ∀ m < n, GoesOn results count m) : Paid results count n := by
  induction n with
  | zero => exact paid_zero
  | succ n ih => exact (ih fun m hm => h m (by omega)).succ (h n (by omega))

/-- **A byte costs at most a thousand calls**, the last one included. -/
theorem lt_of_goesOn (h : ∀ m < n, GoesOn results count m) (hleft : written results n < count) :
    n < 1000 * count := by
  obtain ⟨-, hrow, hcalls⟩ := paid_of_goesOn h
  omega

theorem le_of_goesOn (h : ∀ m < n, GoesOn results count m) : n ≤ 1000 * count := by
  cases n with
  | zero => exact Nat.zero_le _
  | succ n => exact lt_of_goesOn (fun m hm => h m (by omega)) (h n (by omega)).left

end Results

/-! ### The loop -/

/-- The system whose answers to `write` are `results`, from now on. -/
def World.writing (w : World) (results : ℕ → WriteResult) : World :=
  { w with os := fun n o =>
      match o with
      | .write _ => some (results (n - w.now))
      | o => w.os n o }

variable {results : ℕ → WriteResult} {bytes file : List UInt8} {start : ℕ} {v : World}

/-- **What the loop of `write_all` leaves.** It has gone on `n` times, and then either nothing was
left to write, or one more call was the last. -/
structure LoopLeaves (results : ℕ → WriteResult) (bytes file : List UInt8) (start : ℕ) (ok : Bool)
    (n : ℕ) (v : World) : Prop where
  before : ∀ m < n, GoesOn results bytes.length m
  after : (ok = true ∧ written results n = bytes.length ∧ v.now = start + n ∧
      v.saved = file ++ bytes.take (written results n)) ∨
    (ok = false ∧ written results n < bytes.length ∧ ¬ GoesOn results bytes.length n ∧
      v.now = start + (n + 1) ∧ v.saved = file ++ bytes.take (written results (n + 1)))

theorem runs_writeAllLoop_outcomes (bytes : List UInt8) {fuel n : ℕ}
    (hos : ∀ m rest, v.os (start + m) (.write rest) = some (results m))
    (hbefore : ∀ m < n, GoesOn results bytes.length m) (hnow : v.now = start + n)
    (hsaved : v.saved = file ++ bytes.take (written results n))
    (hfuel : 1000 * bytes.length < n + fuel) :
    (writeAllLoop fuel (bytes.drop (written results n)) (inARow results n)).Runs seq v
      fun ok v' => v'.os = v.os ∧ ∃ n, LoopLeaves results bytes file start ok n v' := by
  -- the loop is at call `n`, with as much of the buffer left as the answers say
  induction fuel generalizing n v with
  | zero =>
    have hle := le_of_goesOn hbefore
    omega
  | succ fuel ih =>
    have hfits := (paid_of_goesOn hbefore).fits
    rw [writeAllLoop]
    split
    next hdone =>
      have hall : written results n = bytes.length :=
        Nat.le_antisymm hfits (List.drop_eq_nil_iff.mp hdone)
      exact runs_pure ⟨rfl, n, hbefore, Or.inl ⟨rfl, hall, hnow, hsaved⟩⟩
    next hmore =>
      have hlt : written results n < bytes.length :=
        Nat.lt_of_not_le fun hle => hmore (List.drop_eq_nil_iff.mpr hle)
      have hanswer : v.os v.now (.write (bytes.drop (written results n))) = some (results n) := by
        rw [hnow]
        exact hos n _
      refine runs_writeOut hanswer ?_
      have hnow' : v.tick.now = start + (n + 1) := congrArg (· + 1) hnow
      have hstop : ∀ v' : World, v'.os = v.os → v'.now = start + (n + 1) →
          v'.saved = file ++ bytes.take (written results (n + 1)) →
          ¬ GoesOn results bytes.length n → (pure false : Sys Bool).Runs seq v'
            fun ok v' => v'.os = v.os ∧ ∃ n, LoopLeaves results bytes file start ok n v' := by
        intro v' hos' hcalls hkept hlast
        exact runs_pure ⟨hos', n, hbefore, Or.inr ⟨rfl, hlt, hlast, hcalls, hkept⟩⟩
      have hmore' : GoesOn results bytes.length n →
          ∀ m < n + 1, GoesOn results bytes.length m := by
        intro hn m hm
        rcases Nat.eq_or_lt_of_le (Nat.lt_succ_iff.mp hm) with rfl | hlt'
        · exact hn
        · exact hbefore m hlt'
      cases hr : results n with
      | failed =>
        have hgive : GivesUp results n := by
          rw [GivesUp, hr]
          trivial
        refine hstop _ rfl hnow' ?_ fun hn => hn.kept hgive
        rw [written_succ_of_givesUp hgive]
        exact (List.append_nil _).trans hsaved
      | interrupted =>
        have hwritten := written_succ_of_interrupted hr
        have hkept : v.saved ++ WriteResult.interrupted.taken (bytes.drop (written results n)) =
            file ++ bytes.take (written results (n + 1)) := by
          rw [hwritten]
          exact (List.append_nil _).trans hsaved
        dsimp only
        split
        next hlong =>
          refine hstop _ rfl hnow' hkept fun hn => hn.kept ?_
          rw [GivesUp, hr]
          exact hlong
        next hshort =>
          have hgo : GoesOn results bytes.length n := by
            refine ⟨hlt, ?_, fun k hk => ?_⟩
            · rw [GivesUp, hr]
              exact hshort
            · cases hr.symm.trans hk
          rw [← inARow_succ_of_interrupted hr, ← hwritten]
          exact ih hos (hmore' hgo) hnow' hkept (by omega)
      | wrote k =>
        have hwritten := written_succ_of_wrote hr
        have hkept : v.saved ++ (WriteResult.wrote k).taken (bytes.drop (written results n)) =
            file ++ bytes.take (written results (n + 1)) := by
          change v.saved ++ (bytes.drop (written results n)).take k = _
          rw [hsaved, hwritten, List.append_assoc, List.take_add]
        dsimp only
        split
        next hzero =>
          refine hstop _ rfl hnow' hkept fun hn => hn.kept ?_
          rw [GivesUp, hr]
          exact hzero
        next hpos =>
          split
          next hexcess =>
            refine hstop _ rfl hnow' hkept fun hn => ?_
            have hasked := hn.asked k hr
            rw [List.length_drop] at hexcess
            omega
          next hfit =>
            have hgo : GoesOn results bytes.length n := by
              refine ⟨hlt, ?_, fun l hl => ?_⟩
              · rw [GivesUp, hr]
                exact hpos
              · cases hr.symm.trans hl
                rw [List.length_drop] at hfit
                omega
            rw [List.drop_drop, ← hwritten, ← inARow_succ_of_wrote hr]
            exact ih hos (hmore' hgo) hnow' hkept (by omega)

/-- **`write_all` writes a prefix and comes to an end**, whatever `write` answers: it makes at most
a thousand calls for each byte, what they have taken are the first bytes of the buffer, and it
returns `true` only if these are all of them. If no call has counted more bytes than it was given,
it returns `true` exactly then. No bound on the turns of the loop changes anything of that. -/
theorem write_all_takes_prefix (results : ℕ → WriteResult) (bytes : List UInt8) (w : World)
    (extra : ℕ) :
    (writeAllLoop (1000 * bytes.length + 1 + extra) bytes 0).Runs seq (w.writing results)
      fun ok v => ∃ calls ≤ 1000 * bytes.length, v.now = w.now + calls ∧
        ∃ k ≤ bytes.length, v.saved = w.saved ++ bytes.take k ∧ (ok = true → k = bytes.length) ∧
          ((∀ n < calls, ∀ m, results n = .wrote m → written results n + m ≤ bytes.length) →
            (ok = true ↔ k = bytes.length)) := by
  have hos : ∀ m rest, (w.writing results).os (w.now + m) (.write rest) = some (results m) := by
    intro m rest
    change some (results (w.now + m - w.now)) = _
    rw [Nat.add_sub_cancel_left]
  refine Runs.mono (runs_writeAllLoop_outcomes bytes (n := 0) hos
    (fun m hm => absurd hm (by omega)) rfl (List.append_nil w.saved).symm (by omega)) ?_
  rintro ok v ⟨-, n, hbefore, ⟨rfl, hall, hnow, hsaved⟩ | ⟨rfl, hpart, hlast, hnow, hsaved⟩⟩
  · refine ⟨n, le_of_goesOn hbefore, hnow, _, hall.le, hsaved, fun _ => hall, fun _ => ?_⟩
    exact iff_of_true rfl hall
  · refine ⟨n + 1, lt_of_goesOn hbefore hpart, hnow, min (written results (n + 1)) bytes.length,
      min_le_right _ _, ?_, nofun, fun hasked => iff_of_false nofun ?_⟩
    · rw [hsaved, ← List.take_eq_take_min]
    · -- the last call has given up, and so it has taken nothing
      have hgive : GivesUp results n := by
        by_contra hkept
        exact hlast ⟨hpart, hkept, hasked n (by omega)⟩
      rw [written_succ_of_givesUp hgive]
      omega

end LibFaketime
