import Mathlib.Data.List.TakeWhile

/-!
# Scanning a text from the left

A function that reads a text from the left returns what it has read and the rest of the text.
What other functions over the same text can rely on is which elements stand before that rest
(`Scan.Consumes`): a search from the beginning for an element that has not been read goes on
in the rest. A text that is split at separators has its parts between them
(`Scan.exists_of_mem_splitOnP`).
-/

namespace Scan

variable {α : Type} {P Q : α → Prop} {s t rest : List α} {c : α}

/-- **The rest of a text** after elements in `P` have been read. -/
def Consumes (P : α → Prop) (s rest : List α) : Prop := ∃ read, s = read ++ rest ∧ ∀ c ∈ read, P c

theorem Consumes.refl (P : α → Prop) (s : List α) : Consumes P s s := ⟨[], rfl, by simp⟩

theorem Consumes.cons (hc : P c) (h : Consumes P s rest) : Consumes P (c :: s) rest := by
  obtain ⟨read, rfl, hread⟩ := h
  refine ⟨c :: read, rfl, fun d hd => ?_⟩
  rcases List.mem_cons.mp hd with rfl | hd
  · exact hc
  · exact hread d hd

theorem Consumes.trans (h : Consumes P s t) (h' : Consumes P t rest) : Consumes P s rest := by
  obtain ⟨read, rfl, hread⟩ := h
  obtain ⟨more, rfl, hmore⟩ := h'
  refine ⟨read ++ more, (List.append_assoc ..).symm, fun d hd => ?_⟩
  rcases List.mem_append.mp hd with hd | hd
  · exact hread d hd
  · exact hmore d hd

theorem consumes_dropWhile {p : α → Bool} (h : ∀ c, p c = true → P c) (s : List α) :
    Consumes P s (s.dropWhile p) :=
  ⟨s.takeWhile p, List.takeWhile_append_dropWhile.symm, fun c hc => h c (List.mem_takeWhile_imp hc)⟩

theorem Consumes.suffix (h : Consumes P s rest) : rest <:+ s := by
  obtain ⟨read, rfl, -⟩ := h
  exact List.suffix_append read rest

/-- **A search that skips what has been read** goes on in the rest. -/
theorem Consumes.dropWhile_eq {p : α → Bool} (h : Consumes P s rest) (hp : ∀ c, P c → p c = true) :
    s.dropWhile p = rest.dropWhile p := by
  obtain ⟨read, rfl, hread⟩ := h
  exact List.dropWhile_append_of_pos fun c hc => hp c (hread c hc)

/-! ### The parts between separators -/

section Split

variable {p : α → Bool} {part a b : List α}

/-- **What stands around a part**: nothing, or a separator. -/
theorem exists_of_mem_splitOnP (h : part ∈ s.splitOnP p) : (∀ c ∈ part, p c = false) ∧
    ∃ a b, s = a ++ (part ++ b) ∧ (∀ c ∈ a.getLast?, p c = true) ∧ ∀ c ∈ b.head?, p c = true := by
  induction hn : s.length using Nat.strong_induction_on generalizing s with
  | _ n ih =>
    have hfirst : ∀ c ∈ s.takeWhile (fun c => !p c), p c = false := by
      intro c hc
      simpa using List.mem_takeWhile_imp hc
    have hsplit := (List.takeWhile_append_dropWhile (p := fun c => !p c) (l := s)).symm
    rcases hrest : s.dropWhile (fun c => !p c) with _ | ⟨sep, rest⟩
    · -- no separator, and one part
      rw [hrest, List.append_nil] at hsplit
      rw [hsplit, List.splitOnP_eq_singleton hfirst, List.mem_singleton, ← hsplit] at h
      rw [← hsplit] at hfirst
      subst h
      exact ⟨hfirst, [], [], (List.append_nil _).symm, nofun, nofun⟩
    · have hsep : p sep = true := by
        have hhead := List.head?_dropWhile_not (fun c => !p c) s
        rw [hrest] at hhead
        simpa using hhead
      rw [hrest] at hsplit
      rw [hsplit, List.splitOnP_append_cons_of_forall_mem hfirst sep hsep] at h
      rcases List.mem_cons.mp h with rfl | h
      · refine ⟨hfirst, [], sep :: rest, hsplit, nofun, ?_⟩
        rintro c ⟨⟩
        exact hsep
      · have hlt : rest.length < n := by
          rw [← hn, hsplit, List.length_append, List.length_cons]
          omega
        obtain ⟨hplain, a, b, hab, ha, hb⟩ := ih _ hlt h rfl
        refine ⟨hplain, s.takeWhile (fun c => !p c) ++ sep :: a, b, ?_, ?_, hb⟩
        · rw [List.append_assoc, List.cons_append, ← hab]
          exact hsplit
        · intro c hc
          rcases List.eq_nil_or_concat a with rfl | ⟨a, d, rfl⟩
          · obtain rfl : sep = c := by simpa using hc
            exact hsep
          · rw [List.concat_eq_append, List.getLast?_append, ← List.cons_append,
              List.getLast?_concat, Option.some_or] at hc
            exact ha c (by rwa [List.concat_eq_append, List.getLast?_concat])

theorem mem_splitOnP_of_append (hpart : ∀ c ∈ part, p c = false)
    (ha : ∀ c ∈ a.getLast?, p c = true) (hb : ∀ c ∈ b.head?, p c = true) :
    part ∈ (a ++ (part ++ b)).splitOnP p := by
  have htail : part ∈ (part ++ b).splitOnP p := by
    rcases b with _ | ⟨sep, b⟩
    · rw [List.append_nil, List.splitOnP_eq_singleton hpart]
      exact List.mem_singleton_self _
    · rw [List.splitOnP_append_cons_of_forall_mem hpart sep (hb sep rfl)]
      exact List.mem_cons_self
  rcases List.eq_nil_or_concat a with rfl | ⟨a, sep, rfl⟩
  · exact htail
  · have hsep : p sep = true := ha sep (by simp)
    rw [List.concat_eq_append, List.append_assoc, List.singleton_append,
      List.splitOnP_append_cons _ _ hsep]
    exact List.mem_append_right _ htail

end Split

end Scan
