import LibFaketime.Numbers
import LibFaketime.Lib.Scan

/-!
# Functions of the C library on strings

`strstr` and the conversion `%s` of `sscanf`, as far as the names of the shared objects and the
list of ignored symbols need them. A pointer into a string is the rest of the string, or a position
where the source looks at what is before it.
-/

namespace LibFaketime

variable {needle s rest : CStr} {i : ℕ}

/-! ### `strstr` -/

/-- `strstr`: the text from the first occurrence of `needle` on. -/
def strstr (needle : CStr) : CStr → Option CStr
  | [] => if needle.isPrefixOf [] then some [] else none
  | c :: s => if needle.isPrefixOf (c :: s) then some (c :: s) else strstr needle s

theorem strstr_append (needle rest : CStr) :
    strstr needle (needle ++ rest) = some (needle ++ rest) := by
  have hprefix : needle.isPrefixOf (needle ++ rest) = true := by simp
  cases htext : needle ++ rest with
  | nil =>
    rw [htext] at hprefix
    rw [strstr, if_pos hprefix]
  | cons c s =>
    rw [htext] at hprefix
    rw [strstr, if_pos hprefix]

/-- **The first occurrence**, by its position. -/
theorem exists_of_strstr_eq_some (h : strstr needle s = some rest) : ∃ i ≤ s.length,
    rest = s.drop i ∧ needle <+: s.drop i ∧ ∀ j < i, ¬ needle <+: s.drop j := by
  induction s with
  | nil =>
    rw [strstr] at h
    split at h
    next hprefix =>
      cases h
      exact ⟨0, le_rfl, rfl, List.isPrefixOf_iff_prefix.mp hprefix,
        fun j hj => absurd hj (by omega)⟩
    next => cases h
  | cons c s ih =>
    rw [strstr] at h
    split at h
    next hprefix =>
      cases h
      exact ⟨0, Nat.zero_le _, rfl, List.isPrefixOf_iff_prefix.mp hprefix,
        fun j hj => absurd hj (by omega)⟩
    next hno =>
      obtain ⟨i, hi, hrest, hprefix, hfirst⟩ := ih h
      refine ⟨i + 1, Nat.succ_le_succ hi, hrest, hprefix, fun j hj => ?_⟩
      rcases j with _ | j
      · exact fun h => hno (List.isPrefixOf_iff_prefix.mpr h)
      · exact hfirst j (by omega)

theorem not_prefix_of_strstr_eq_none (h : strstr needle s = none) (j : ℕ) :
    ¬ needle <+: s.drop j := by
  induction s generalizing j with
  | nil =>
    rw [strstr] at h
    split at h
    next => cases h
    next hno =>
      rw [List.drop_nil]
      exact fun h => hno (List.isPrefixOf_iff_prefix.mpr h)
  | cons c s ih =>
    rw [strstr] at h
    split at h
    next => cases h
    next hno =>
      rcases j with _ | j
      · exact fun h => hno (List.isPrefixOf_iff_prefix.mpr h)
      · exact ih h j

/-! ### `%s` -/

/-- The conversion `%s` of `sscanf` with a width: the word, and what is left of the input; nothing
if there is no word. -/
def scanWord (width : ℕ) (s : CStr) : Option (CStr × CStr) :=
  let input := s.dropWhile isspace
  let word := (input.takeWhile fun c => !isspace c).take width
  if word = [] then none else some (word, input.drop word.length)

/-- A word is read whole if the width allows it and a space follows. -/
theorem scanWord_append {word : CStr} {width : ℕ} (hne : word ≠ [])
    (hword : ∀ c ∈ word, isspace c = false) (hwidth : word.length ≤ width)
    (hrest : ∀ c ∈ rest.head?, isspace c = true) :
    scanWord width (word ++ rest) = some (word, rest) := by
  have hinput : (word ++ rest).dropWhile isspace = word ++ rest := by
    obtain ⟨c, l, rfl⟩ := List.exists_cons_of_ne_nil hne
    rw [List.cons_append, List.dropWhile_cons_of_neg (by simp [hword c List.mem_cons_self])]
  have htake : (word ++ rest).takeWhile (fun c => !isspace c) = word := by
    have hstop : rest.takeWhile (fun c => !isspace c) = [] := by
      rcases rest with _ | ⟨c, l⟩
      · rfl
      · rw [List.takeWhile_cons_of_neg (by simp [hrest c rfl])]
    rw [List.takeWhile_append_of_pos, hstop, List.append_nil]
    intro c hc
    rw [hword c hc, Bool.not_false]
  rw [scanWord, hinput, htake]
  rw [List.take_of_length_le hwidth, if_neg hne, List.drop_left]

end LibFaketime
