import LibFaketime.Strings

/-!
# The list of ignored symbols

`str_array_contains` looks for an element in a text of elements with commas between them. It goes
from one occurrence to the next, also where they overlap, and looks at the two characters around
each. Every occurrence is visited, since the next search starts right behind the beginning of the
last one, so none that makes an element is missed (`LibFaketime.str_array_contains_iff`); and as an
occurrence has a first character, the search never starts behind the end of the text.

Positions count from the beginning of the text, and every access is checked.
-/

namespace LibFaketime

/-! ### The function -/

/-- `strstr(haystack + from, needle)`, by positions; nothing where the search would start behind the
terminator. -/
def strstrFrom (haystack needle : CStr) (start : ℕ) : Option (Option ℕ) :=
  if start ≤ haystack.length then
    some ((strstr needle (haystack.drop start)).map fun rest => haystack.length - rest.length)
  else none

/-- The test of an occurrence: what stands before it and after it. -/
def elementTest (haystack needle : CStr) (pos : ℕ) : Option Bool :=
  let text := haystack ++ ['\x00']
  (if pos = 0 then some true else text[pos - 1]?.map (· == ',')).bind fun begins =>
    if begins then
      text[pos + needle.length]?.map fun nextc => nextc == '\x00' || nextc == ','
    else some false

/-- The loop of `str_array_contains`; nothing for an access behind the terminator. -/
def strArrayLoop (haystack needle : CStr) : ℕ → Option ℕ → Option Bool
  | 0, _ => none
  | _ + 1, none => some false
  | fuel + 1, some pos => do
    if ← elementTest haystack needle pos then
      -- found needle in comma-separated haystack
      pure true
    else
      let pos ← strstrFrom haystack needle (pos + 1)
      strArrayLoop haystack needle fuel pos

/-- `str_array_contains`. -/
def strArrayContains (haystack needle : CStr) : Option Bool := do
  let pos ← strstrFrom haystack needle 0
  strArrayLoop haystack needle (haystack.length + 2) pos

/-- The elements of a list with commas. -/
def elements (haystack : CStr) : List CStr := haystack.splitOnP (· == ',')

/-! ### Occurrences -/

section Occurrences

variable {haystack needle : CStr} {start pos i : ℕ}

/-- The occurrence at `i` is an element. -/
structure ElementAt (haystack needle : CStr) (i : ℕ) : Prop where
  occurs : needle <+: haystack.drop i
  begins : i = 0 ∨ haystack[i - 1]? = some ','
  ends : haystack[i + needle.length]? = none ∨ haystack[i + needle.length]? = some ','

/-- **What a search finds**: the next occurrence, or that there is none. -/
structure Found (haystack needle : CStr) (start : ℕ) (r : Option ℕ) : Prop where
  le : ∀ i ∈ r, start ≤ i
  occurs : ∀ i ∈ r, needle <+: haystack.drop i
  first : ∀ j, start ≤ j → (∀ i ∈ r, j < i) → ¬ needle <+: haystack.drop j

theorem exists_strstrFrom (h : start ≤ haystack.length) (needle : CStr) :
    ∃ r, strstrFrom haystack needle start = some r ∧ Found haystack needle start r := by
  refine ⟨_, if_pos h, ?_⟩
  cases hs : strstr needle (haystack.drop start) with
  | none =>
    refine ⟨nofun, nofun, fun j hj _ => ?_⟩
    have hno := not_prefix_of_strstr_eq_none hs (j - start)
    rwa [List.drop_drop, Nat.add_sub_cancel' hj] at hno
  | some rest =>
    obtain ⟨i, hi, rfl, hprefix, hfirst⟩ := exists_of_strstr_eq_some hs
    have hpos : haystack.length - ((haystack.drop start).drop i).length = start + i := by
      rw [List.length_drop] at hi
      rw [List.length_drop, List.length_drop]
      omega
    rw [Option.map_some, hpos]
    refine ⟨?_, ?_, fun j hj hlt => ?_⟩
    · rintro _ ⟨⟩
      exact Nat.le_add_right start i
    · rintro _ ⟨⟩
      rwa [← List.drop_drop]
    · have hno := hfirst (j - start) (by have := hlt _ rfl; omega)
      rwa [List.drop_drop, Nat.add_sub_cancel' hj] at hno

theorem length_le_of_occurs (hne : needle ≠ []) (h : needle <+: haystack.drop i) :
    i + needle.length ≤ haystack.length := by
  have hpos := List.length_pos_iff.mpr hne
  have hlen := h.length_le
  rw [List.length_drop] at hlen
  omega

/-- **The elements are the occurrences with a comma, or an end, on both sides.** -/
theorem mem_elements_iff (hcomma : ',' ∉ needle) :
    needle ∈ elements haystack ↔ ∃ i, ElementAt haystack needle i := by
  constructor
  · intro h
    obtain ⟨-, a, b, rfl, ha, hb⟩ := Scan.exists_of_mem_splitOnP h
    refine ⟨a.length, ?_, ?_, ?_⟩
    · rw [List.drop_left]
      exact List.prefix_append needle b
    · rcases List.eq_nil_or_concat a with rfl | ⟨a, c, rfl⟩
      · exact Or.inl rfl
      · right
        have hc : c = ',' := by simpa using ha c (by simp)
        rw [List.concat_eq_append, List.length_append, List.length_singleton, Nat.add_sub_cancel,
          List.append_assoc, List.getElem?_append_right le_rfl, Nat.sub_self, hc]
        rfl
    · rw [← List.append_assoc, ← List.length_append, List.getElem?_append_right le_rfl,
        Nat.sub_self]
      rcases b with _ | ⟨c, b⟩
      · exact Or.inl rfl
      · have hc : c = ',' := by simpa using hb c rfl
        exact Or.inr (congrArg some hc)
  · rintro ⟨i, ⟨b, hb⟩, hbegins, hends⟩
    have hplain : ∀ c ∈ needle, (c == ',') = false := by
      intro c hc
      rw [beq_eq_false_iff_ne]
      rintro rfl
      exact hcomma hc
    -- an occurrence between two commas is a piece of its own
    have hsplit : haystack.take i ++ (needle ++ b) = haystack := by
      rw [hb, List.take_append_drop]
    rw [elements, ← hsplit]
    refine Scan.mem_splitOnP_of_append hplain (fun c hc => ?_) fun c hc => ?_
    · rcases hbegins with rfl | hbegins
      · cases hc
      · have hlast : (haystack.take i).getLast? = haystack[i - 1]? := by
          have hlt := (List.getElem?_eq_some_iff.mp hbegins).1
          rcases i with _ | i
          · cases hc
          · rw [List.getLast?_eq_getElem?, List.length_take, List.getElem?_take, if_pos (by omega)]
            congr 1
            omega
        rw [hlast, hbegins] at hc
        cases hc
        rfl
    · have hnext : haystack[i + needle.length]? = b.head? := by
        rw [← List.getElem?_drop, ← hb, List.getElem?_append_right le_rfl, Nat.sub_self,
          List.head?_eq_getElem?]
      rw [← hnext] at hc
      rcases hends with hends | hends
      · rw [hends] at hc
        cases hc
      · rw [hends] at hc
        cases hc
        rfl

end Occurrences

/-! ### The loop -/

section Loop

variable {haystack needle : CStr} {fuel start pos : ℕ} {r : Option ℕ}

/-- **The test of an occurrence** is whether it is an element. -/
theorem exists_elementTest (hnul : '\x00' ∉ haystack) (hoccurs : needle <+: haystack.drop pos)
    (hlen : pos + needle.length ≤ haystack.length) :
    ∃ b, elementTest haystack needle pos = some b ∧
      (b = true ↔ ElementAt haystack needle pos) := by
  have hbegins : (if pos = 0 then some true
      else (haystack ++ ['\x00'])[pos - 1]?.map (· == ',') : Option Bool) =
        some (decide (pos = 0 ∨ haystack[pos - 1]? = some ',')) := by
    split
    next h => rw [decide_eq_true (Or.inl h)]
    next h =>
      rw [List.getElem?_append_left (by omega), List.getElem?_eq_getElem (by omega),
        Option.map_some]
      congr 1
      rw [Bool.eq_iff_iff, beq_iff_eq, decide_eq_true_eq, Option.some.injEq]
      exact (or_iff_right h).symm
  -- the terminator is the only NUL
  obtain ⟨c, hc, hends⟩ : ∃ c, (haystack ++ ['\x00'])[pos + needle.length]? = some c ∧
      ((c == '\x00' || c == ',') = true ↔ haystack[pos + needle.length]? = none ∨
        haystack[pos + needle.length]? = some ',') := by
    rcases Nat.eq_or_lt_of_le hlen with heq | hlt
    · refine ⟨'\x00', by rw [heq]; simp, ?_⟩
      exact iff_of_true rfl (Or.inl (List.getElem?_eq_none heq.ge))
    · refine ⟨haystack[pos + needle.length], ?_, ?_⟩
      · rw [List.getElem?_append_left hlt, List.getElem?_eq_getElem hlt]
      · have hne : haystack[pos + needle.length] ≠ '\x00' :=
          fun h => hnul (h ▸ List.getElem_mem hlt)
        rw [List.getElem?_eq_getElem hlt]
        simp [hne]
  rw [elementTest, hbegins, Option.bind_some]
  split
  next h =>
    rw [hc, Option.map_some]
    refine ⟨_, rfl, hends.trans ⟨fun he => ⟨hoccurs, of_decide_eq_true h, he⟩, fun he => he.ends⟩⟩
  next h => exact ⟨false, rfl, iff_of_false nofun fun he => h (decide_eq_true he.begins)⟩

/-- **The loop visits every occurrence** until it finds an element. -/
theorem strArrayLoop_eq (hne : needle ≠ []) (hnul : '\x00' ∉ haystack)
    (hr : Found haystack needle start r) (hbefore : ∀ j < start, ¬ ElementAt haystack needle j)
    (hstart : start ≤ haystack.length) (hfuel : haystack.length + 2 ≤ start + fuel) :
    ∃ b, strArrayLoop haystack needle fuel r = some b ∧
      (b = true ↔ ∃ i, ElementAt haystack needle i) := by
  induction fuel generalizing start r with
  | zero => omega
  | succ fuel ih =>
    rcases r with _ | pos
    · -- no occurrence is left
      refine ⟨false, rfl, iff_of_false nofun ?_⟩
      rintro ⟨i, hi⟩
      rcases Nat.lt_or_ge i start with hlt | hge
      · exact hbefore i hlt hi
      · exact hr.first i hge nofun hi.occurs
    · have hle := hr.le pos rfl
      have hoccurs := hr.occurs pos rfl
      have hlen := length_le_of_occurs hne hoccurs
      have hpos := List.length_pos_iff.mpr hne
      obtain ⟨b, hb, htest⟩ := exists_elementTest hnul hoccurs hlen
      have hearlier : ∀ j < pos, ¬ ElementAt haystack needle j := by
        intro j hj hj'
        rcases Nat.lt_or_ge j start with hlt | hge
        · exact hbefore j hlt hj'
        · refine hr.first j hge ?_ hj'.occurs
          rintro _ ⟨⟩
          exact hj
      rw [strArrayLoop, hb, Option.bind_eq_bind, Option.bind_some]
      split
      next hyes => exact ⟨true, rfl, iff_of_true rfl ⟨pos, htest.mp hyes⟩⟩
      next hno =>
        have hroom : pos + 1 ≤ haystack.length := by omega
        obtain ⟨r, hr, hfound⟩ := exists_strstrFrom hroom needle
        rw [hr, Option.bind_eq_bind, Option.bind_some]
        refine ih hfound (fun j hj => ?_) hroom (by omega)
        rcases Nat.eq_or_lt_of_le (Nat.lt_succ_iff.mp hj) with rfl | hlt
        · exact fun h => hno (htest.mpr h)
        · exact hearlier j hlt

end Loop

/-- **`str_array_contains` decides membership**, and comes to its end without an access behind the
terminator, also where occurrences overlap or stand inside longer elements. More turns of the loop
than there are characters change nothing. -/
theorem str_array_contains_iff (haystack needle : CStr) (hhaystack : '\x00' ∉ haystack)
    (hne : needle ≠ []) (hcomma : ',' ∉ needle) :
    strArrayContains haystack needle = some (decide (needle ∈ elements haystack)) ∧
      ∀ extra, (strstrFrom haystack needle 0).bind
        (strArrayLoop haystack needle (haystack.length + 2 + extra)) =
          strArrayContains haystack needle := by
  obtain ⟨r, hr, hfound⟩ := exists_strstrFrom (Nat.zero_le haystack.length) needle
  have hloop : ∀ fuel, haystack.length + 2 ≤ fuel →
      strArrayLoop haystack needle fuel r = some (decide (needle ∈ elements haystack)) := by
    intro fuel hfuel
    obtain ⟨b, hb, hiff⟩ := strArrayLoop_eq hne hhaystack hfound (fun j hj => absurd hj (by omega))
      (Nat.zero_le _) (hfuel.trans (Nat.zero_add fuel).ge)
    rw [hb, Option.some.injEq, Bool.eq_iff_iff, decide_eq_true_eq, mem_elements_iff hcomma]
    exact hiff
  have hcontains : strArrayContains haystack needle =
      some (decide (needle ∈ elements haystack)) := by
    rw [strArrayContains, hr, Option.bind_eq_bind, Option.bind_some, hloop _ le_rfl]
  refine ⟨hcontains, fun extra => ?_⟩
  rw [hcontains, hr, Option.bind_some, hloop _ (by omega)]

/-- The occurrences of `aa` in `aaa` overlap, and none of them is an element. -/
theorem str_array_contains_overlapping :
    strArrayContains "aaa,time,aa".toList "aa".toList = some true := by
  have hcontains := (str_array_contains_iff "aaa,time,aa".toList "aa".toList (by decide)
    (by decide) (by decide)).1
  exact hcontains.trans (congrArg some (decide_eq_true (by decide +kernel)))

end LibFaketime
