import Mathlib.Data.List.Basic

/-!
# First-fit tables with a free marker

A table of a fixed number of cells keeps one entry for each key. An entry goes into the first cell
that has its key or a certain key that marks the free cells. The marker is a key like any other to
whoever inserts entries, and so a table has two kinds of keys:

* a key other than the marker claims a cell for good, as long as there is one: the first keys that
  come have one cell each, and it holds the last entry (`FirstFit.lookup_of_ne_free`);
* an entry with the marker for its key is in the first free cell, until a new key claims that cell
  (`FirstFit.lookup_free_of_kept`, `FirstFit.lookup_free_of_claimed`).

Both are read off one description of the table after any number of entries (`FirstFit.fill`): who
claims the first cell, and what is left for the other cells.
-/

namespace FirstFit

variable {E K : Type} [DecidableEq K] (key : E → K) (free k : K)

/-- **Insertion**: into the first cell that has the key of the entry or is free. -/
def insert (e : E) : List E → List E
  | [] => []
  | x :: t => if key x = key e ∨ key x = free then e :: t else x :: insert e t

/-- The entries are inserted into a table, in their order. -/
def insertAll (t l : List E) : List E := l.foldl (fun t e => insert key free e t) t

/-- The first entry with the key. -/
def lookup (t : List E) : Option E := t.find? fun x => key x = k

/-- The last entry with the key. -/
def latest (l : List E) : Option E := (l.filter fun x => key x = k).getLast?

/-- The entries with other keys. -/
def others (l : List E) : List E := l.filter fun x => key x ≠ k

/-- The keys of the entries, but for the marker, by their first occurrences. -/
def known (l : List E) : List K := ((l.map key).filter fun c => c ≠ free).eraseDups

/-- **The table after some entries**, of which the first one with a key claims the first cell. -/
def fill : List E → List E → List E
  | [], _ => []
  | x :: t, [] => x :: t
  | _ :: t, e :: l =>
    if key e = free then fill (e :: t) l
    else (latest key (key e) l).getD e :: fill t (others key (key e) l)
termination_by _ l => l.length
decreasing_by
  · exact Nat.lt_succ_self _
  · exact Nat.lt_succ_of_le (List.length_filter_le ..)

/-- The cells of the table are free. -/
def Free (t : List E) : Prop := ∀ x ∈ t, key x = free

section Lists

variable {key free k} {x e y : E} {t l before after : List E}

omit [DecidableEq K] in
theorem Free.head (h : Free key free (x :: t)) : key x = free := h x List.mem_cons_self

omit [DecidableEq K] in
theorem Free.tail (h : Free key free (x :: t)) : Free key free t :=
  fun y hy => h y (List.mem_cons_of_mem _ hy)

omit [DecidableEq K] in
theorem Free.cons_of (h : Free key free t) (hx : key x = free) : Free key free (x :: t) := by
  intro y hy
  rcases List.mem_cons.mp hy with rfl | hy
  · exact hx
  · exact h y hy

theorem mem_others : y ∈ others key k l ↔ y ∈ l ∧ key y ≠ k := by
  simp [others]

theorem others_append_cons (before after : List E) (h : key e ≠ k) :
    others key k (before ++ e :: after) = others key k before ++ e :: others key k after := by
  rw [others, List.filter_append, List.filter_cons_of_pos (by simpa using h)]
  rfl

theorem latest_others {k' : K} (h : k ≠ k') :
    latest key k (others key k' l) = latest key k l := by
  rw [latest, latest, others, List.filter_filter]
  congr 2
  funext x
  by_cases hx : key x = k <;> simp [hx, h]

theorem latest_cons_of_eq (h : key e = k) :
    latest key k (e :: l) = some ((latest key k l).getD e) := by
  rw [latest, List.filter_cons_of_pos (by simpa using h), List.getLast?_cons]
  rfl

theorem latest_cons_of_ne (h : key e ≠ k) : latest key k (e :: l) = latest key k l := by
  rw [latest, List.filter_cons_of_neg (by simpa using h)]
  rfl

theorem known_cons_of_eq (h : key e = free) : known key free (e :: l) = known key free l := by
  simp [known, h]

theorem known_cons_of_ne (h : key e ≠ free) :
    known key free (e :: l) = key e :: known key free (others key (key e) l) := by
  rw [known, List.map_cons, List.filter_cons_of_pos (by simpa using h), List.eraseDups_cons, known,
    others, List.filter_map, List.filter_map, List.filter_map, List.filter_filter,
    List.filter_filter]
  congr 4
  funext x
  by_cases hx : key x = key e <;> simp [hx]

/-- A claimed cell has the last entry with its key, and the other entries pass it. -/
theorem insertAll_claimed (hx : key x ≠ free) :
    insertAll key free (x :: t) l =
      (latest key (key x) l).getD x :: insertAll key free t (others key (key x) l) := by
  induction l generalizing x t with
  | nil => rfl
  | cons e l ih =>
    rw [insertAll, List.foldl_cons, insert]
    by_cases hkey : key x = key e
    · have hstep := ih (x := e) (t := t) (hkey ▸ hx)
      rw [if_pos (Or.inl hkey), latest_cons_of_eq hkey.symm, Option.getD_some, hkey, others,
        List.filter_cons_of_neg (by simp)]
      exact hstep
    · have hstep := ih (t := insert key free e t) hx
      rw [if_neg (not_or.mpr ⟨hkey, hx⟩), latest_cons_of_ne fun h => hkey h.symm, others,
        List.filter_cons_of_pos (by simpa using fun h : key e = key x => hkey h.symm)]
      exact hstep

/-- **Insertion, cell by cell**: a table of free cells is filled as the description says. -/
theorem insertAll_eq_fill (ht : Free key free t) :
    insertAll key free t l = fill key free t l := by
  fun_induction fill key free t l with
  | case1 l =>
    induction l with
    | nil => rfl
    | cons e l ih => exact ih
  | case2 x t => rfl
  | case3 x t e l he ih =>
    rw [insertAll, List.foldl_cons, insert, if_pos (Or.inr ht.head)]
    exact ih (ht.tail.cons_of he)
  | case4 x t e l he ih =>
    rw [insertAll, List.foldl_cons, insert, if_pos (Or.inr ht.head)]
    refine (insertAll_claimed he).trans ?_
    rw [ih ht.tail]

theorem mem_insert (h : y ∈ insert key free e t) : y = e ∨ y ∈ t := by
  fun_induction insert key free e t with
  | case1 => cases h
  | case2 x t hx =>
    rcases List.mem_cons.mp h with rfl | h
    · exact Or.inl rfl
    · exact Or.inr (List.mem_cons_of_mem _ h)
  | case3 x t hx ih =>
    rcases List.mem_cons.mp h with rfl | h
    · exact Or.inr List.mem_cons_self
    · exact (ih h).imp_right (List.mem_cons_of_mem _)

/-- What is in the table has been there from the beginning or has been inserted. -/
theorem mem_insertAll (h : y ∈ insertAll key free t l) : y ∈ t ∨ y ∈ l := by
  induction l generalizing t with
  | nil => exact Or.inl h
  | cons e l ih =>
    rcases ih h with h | h
    · rcases mem_insert h with rfl | h
      · exact Or.inr List.mem_cons_self
      · exact Or.inl h
    · exact Or.inr (List.mem_cons_of_mem _ h)

/-! ### What a lookup finds -/

theorem lookup_cons_of_eq (h : key x = k) : lookup key k (x :: t) = some x := by
  rw [lookup, List.find?_cons_of_pos (by simpa using h)]

theorem lookup_cons_of_ne (h : key x ≠ k) : lookup key k (x :: t) = lookup key k t := by
  rw [lookup, List.find?_cons_of_neg (by simpa using h)]
  rfl

/-- Whoever claims a cell leaves it to entries with the same key. -/
theorem key_getD_latest (key : E → K) (e : E) (l : List E) :
    key ((latest key (key e) l).getD e) = key e := by
  cases h : latest key (key e) l with
  | none => rfl
  | some y =>
    have hmem := List.mem_of_getLast? h
    simpa using (List.mem_filter.mp hmem).2

/-- **A key other than the marker** is found if it is among the first ones, with its last entry. -/
theorem lookup_of_ne_free (ht : Free key free t) (hk : k ≠ free) :
    lookup key k (insertAll key free t l) =
      if k ∈ (known key free l).take t.length then latest key k l else none := by
  rw [insertAll_eq_fill ht]
  fun_induction fill key free t l with
  | case1 l => rfl
  | case2 x t =>
    have hnone : lookup key k (x :: t) = none := by
      refine List.find?_eq_none.mpr fun y hy => ?_
      simpa [ht y hy] using hk.symm
    simpa [known] using hnone
  | case3 x t e l he ih =>
    rw [ih (ht.tail.cons_of he), known_cons_of_eq he,
      latest_cons_of_ne fun h => hk (h.symm.trans he)]
    rfl
  | case4 x t e l he ih =>
    rw [known_cons_of_ne he, List.length_cons, List.take_succ_cons]
    by_cases hkey : key e = k
    · subst hkey
      rw [lookup_cons_of_eq (key_getD_latest ..), latest_cons_of_eq rfl,
        if_pos List.mem_cons_self]
    · have hmem : k ∈ key e :: (known key free (others key (key e) l)).take t.length ↔
          k ∈ (known key free (others key (key e) l)).take t.length := by
        rw [List.mem_cons, or_iff_right fun h => hkey h.symm]
      rw [lookup_cons_of_ne (by rwa [key_getD_latest key]), ih ht.tail,
        latest_others fun h => hkey h.symm, latest_cons_of_ne hkey, if_congr hmem rfl rfl]

/-- Without a free cell the marker is not found. -/
theorem lookup_free_of_full (ht : Free key free t)
    (h : t.length ≤ (known key free l).length) :
    lookup key free (insertAll key free t l) = none := by
  rw [insertAll_eq_fill ht]
  fun_induction fill key free t l with
  | case1 l => rfl
  | case2 x t => cases h
  | case3 x t e l he ih => exact ih (ht.tail.cons_of he) (by rwa [known_cons_of_eq he] at h)
  | case4 x t e l he ih =>
    rw [known_cons_of_ne he] at h
    rw [lookup_cons_of_ne (by rwa [key_getD_latest key])]
    exact ih ht.tail (Nat.le_of_succ_le_succ h)

/-- **An entry with the marker for its key** is found while no new key comes. -/
theorem lookup_free_of_kept (ht : Free key free t) (he : key e = free)
    (hafter : ∀ y ∈ after, key y ≠ free ∧ ∃ z ∈ before, key z = key y)
    (h : (known key free (before ++ e :: after)).length < t.length) :
    lookup key free (insertAll key free t (before ++ e :: after)) = some e := by
  rw [insertAll_eq_fill ht]
  generalize hl : before ++ e :: after = l at h
  -- the list is put into the places one after the other
  fun_induction fill key free t l generalizing before after with
  | case1 l => cases h
  | case2 x t => simp at hl
  | case3 x t b l hb ih =>
    cases before with
    | nil =>
      -- nothing can come after it, for that would have to be there before it, too
      have hnil : after = [] := List.eq_nil_iff_forall_not_mem.mpr fun y hy => by
        obtain ⟨-, z, hz, -⟩ := hafter y hy
        cases hz
      cases hl
      rw [hnil, fill]
      exact lookup_cons_of_eq he
    | cons _ before =>
      cases hl
      refine ih (ht.tail.cons_of hb) (fun y hy => ⟨(hafter y hy).1, ?_⟩) rfl
        (by rwa [known_cons_of_eq hb] at h)
      obtain ⟨hy, z, hz, hzy⟩ := hafter y hy
      rcases List.mem_cons.mp hz with rfl | hz
      · exact absurd (hzy.symm.trans hb) hy
      · exact ⟨z, hz, hzy⟩
  | case4 x t b l hb ih =>
    cases before with
    | nil =>
      cases hl
      exact absurd he hb
    | cons _ before =>
      cases hl
      rw [known_cons_of_ne hb] at h
      rw [lookup_cons_of_ne (by rwa [key_getD_latest key])]
      -- the place goes to another key, whose entries are passed over from now on
      have hsplit := others_append_cons before after fun h : key e = key b => hb (h.symm.trans he)
      refine ih ht.tail (fun y hy => ?_) hsplit.symm (Nat.lt_of_succ_lt_succ h)
      obtain ⟨hy, hyb⟩ := mem_others.mp hy
      obtain ⟨hyfree, z, hz, hzy⟩ := hafter y hy
      rcases List.mem_cons.mp hz with rfl | hz
      · exact absurd hzy.symm hyb
      · exact ⟨hyfree, z, mem_others.mpr ⟨hz, fun h => hyb (hzy.symm.trans h)⟩, hzy⟩

/-- If no entry has the marker for its key, what is found is a cell as it was at first. -/
theorem mem_of_lookup_free (hl : ∀ z ∈ l, key z ≠ free)
    (h : lookup key free (insertAll key free t l) = some y) : y ∈ t := by
  have hy : key y = free := by simpa using List.find?_some h
  rcases mem_insertAll (List.mem_of_find?_eq_some h) with hmem | hmem
  · exact hmem
  · exact absurd hy (hl y hmem)

/-- **An entry with the marker for its key** is gone when a new key has come: what is found, if
anything is, is a cell as it was at first. -/
theorem lookup_free_of_claimed (ht : Free key free t) (he : key e = free)
    (hafter : ∀ z ∈ after, key z ≠ free) (hx : x ∈ after)
    (hnew : ∀ z ∈ before, key z ≠ key x)
    (h : lookup key free (insertAll key free t (before ++ e :: after)) = some y) :
    y ∈ t.tail := by
  rw [insertAll_eq_fill ht] at h
  generalize hl : before ++ e :: after = l at h
  fun_induction fill key free t l generalizing before after with
  | case1 l => cases h
  | case2 x t => simp at hl
  | case3 c t b l hb ih =>
    cases before with
    | nil =>
      cases hl
      -- the new key claims the cell of the entry
      cases l with
      | nil => cases hx
      | cons a l =>
        have ha := hafter a List.mem_cons_self
        rw [fill, if_neg ha, lookup_cons_of_ne (by rwa [key_getD_latest key]),
          ← insertAll_eq_fill ht.tail] at h
        refine mem_of_lookup_free (fun z hz => ?_) h
        exact hafter z (List.mem_cons_of_mem _ (mem_others.mp hz).1)
    | cons _ before =>
      cases hl
      exact ih (ht.tail.cons_of hb) hafter hx (fun z hz => hnew z (List.mem_cons_of_mem _ hz))
        rfl h
  | case4 c t b l hb ih =>
    cases before with
    | nil =>
      cases hl
      exact absurd he hb
    | cons _ before =>
      cases hl
      rw [lookup_cons_of_ne (by rwa [key_getD_latest key])] at h
      have hsplit := others_append_cons before after fun h : key e = key b => hb (h.symm.trans he)
      have hxb : key x ≠ key b := (hnew b List.mem_cons_self).symm
      refine List.mem_of_mem_tail (ih ht.tail (fun z hz => hafter z (mem_others.mp hz).1)
        (mem_others.mpr ⟨hx, hxb⟩) (fun z hz => ?_) hsplit.symm h)
      exact hnew z (List.mem_cons_of_mem _ (mem_others.mp hz).1)

end Lists

end FirstFit
