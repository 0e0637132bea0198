import LibFaketime.Config
import LibFaketime.Lib.Scan
import Mathlib.Logic.Relation

/-!
# Leaving out the comments

What is left of a configuration file when its comments are gone: the lines, in their order and
without their line ends, whose first character that is no blank does not start a comment
(`LibFaketime.keptLines`). So comments and empty lines may come and go without changing it
(`LibFaketime.Inserted`), and there is nothing to leave out a second time: lines that are no
comments make none when they are joined.
-/

namespace LibFaketime

/-! ### Lines -/

/-- The lines of a file. -/
def linesOf (contents : CStr) : List CStr := contents.splitOnP isLineEnd

/-- The characters of a line that is blank. -/
def isBlank (c : Char) : Bool := c == ' ' || c == '\t'

section Lines

variable {contents : CStr}

/-- The lines that are no comments, one after the other. -/
def keptLines (contents : CStr) : CStr :=
  ((linesOf contents).filter fun line => !isComment line).flatten

/-- Line ends at the beginning make no difference. -/
theorem keptLines_dropWhile (contents : CStr) :
    keptLines (contents.dropWhile isLineEnd) = keptLines contents := by
  induction contents with
  | nil => rfl
  | cons c rest ih =>
    cases hc : isLineEnd c with
    | false => rw [List.dropWhile_cons_of_neg (by rw [hc]; simp)]
    | true =>
      rw [List.dropWhile_cons_of_pos hc, ih]
      unfold keptLines linesOf
      rw [List.splitOnP_cons_eq_if_modifyHead, if_pos hc]
      rfl

/-- The first line, and the others. -/
theorem keptLines_eq (contents : CStr) : keptLines contents =
    (if isComment (contents.takeWhile fun c => !isLineEnd c) then []
      else contents.takeWhile fun c => !isLineEnd c) ++
        keptLines (contents.dropWhile fun c => !isLineEnd c) := by
  have hline : ∀ c ∈ contents.takeWhile fun c => !isLineEnd c, isLineEnd c = false := by
    intro c hc
    have := List.mem_takeWhile_imp hc
    simpa using this
  have hone : ∀ line : CStr, ∀ rest : List CStr,
      ((line :: rest).filter fun line => !isComment line).flatten =
        (if isComment line then [] else line) ++
          (rest.filter fun line => !isComment line).flatten := by
    intro line rest
    cases hcomment : isComment line <;> simp [hcomment]
  -- the first line goes to its end, which is where the rest begins
  have hsplit : contents = (contents.takeWhile fun c => !isLineEnd c) ++
      contents.dropWhile fun c => !isLineEnd c := List.takeWhile_append_dropWhile.symm
  cases hrest : contents.dropWhile fun c => !isLineEnd c with
  | nil =>
    rw [hrest, List.append_nil] at hsplit
    conv_lhs => rw [hsplit]
    unfold keptLines linesOf
    rw [List.splitOnP_eq_singleton hline, hone]
    rfl
  | cons c rest =>
    have hc : isLineEnd c = true := by
      have hhead := List.head?_dropWhile_not (fun c => !isLineEnd c) contents
      rw [hrest] at hhead
      simpa using hhead
    rw [hrest] at hsplit
    conv_lhs => rw [hsplit]
    unfold keptLines linesOf
    rw [List.splitOnP_append_cons_of_forall_mem hline c hc, hone,
      List.splitOnP_cons_eq_if_modifyHead, if_pos hc]
    rfl

/-- A turn of the loop leaves less. -/
theorem length_rest_lt (hne : contents ≠ []) :
    ((contents.dropWhile fun c => !isLineEnd c).dropWhile isLineEnd).length < contents.length := by
  obtain ⟨c, rest, rfl⟩ := List.exists_cons_of_ne_nil hne
  have hdrop : ∀ (p : Char → Bool) (l : CStr), (l.dropWhile p).length ≤ l.length :=
    fun p l => (List.dropWhile_sublist p).length_le
  rw [List.length_cons, Nat.lt_succ_iff]
  cases hc : isLineEnd c with
  | true =>
    rw [List.dropWhile_cons_of_neg (by rw [hc]; simp), List.dropWhile_cons_of_pos hc]
    exact hdrop _ _
  | false =>
    rw [List.dropWhile_cons_of_pos (by rw [hc]; rfl)]
    exact (hdrop _ _).trans (hdrop _ _)

theorem prepareLoop_eq (fuel : ℕ) (contents : CStr) (h : contents.length ≤ fuel) :
    prepareLoop fuel contents = keptLines contents := by
  induction fuel generalizing contents with
  | zero =>
    rw [List.length_eq_zero_iff.mp (Nat.le_zero.mp h)]
    rfl
  | succ fuel ih =>
    unfold prepareLoop
    split
    next hnil =>
      rw [hnil]
      rfl
    next hne =>
      have hlt := length_rest_lt hne
      dsimp only
      rw [ih _ (by omega), keptLines_dropWhile, ← keptLines_eq]

/-- **Comments are left out, and line ends; everything else is kept.** -/
theorem prepareConfigContents_eq (contents : CStr) :
    prepareConfigContents contents = keptLines contents :=
  prepareLoop_eq _ _ le_rfl

/-- Only characters of the contents are left. -/
theorem length_prepareConfigContents_le (contents : CStr) :
    (prepareConfigContents contents).length ≤ contents.length := by
  have hloop : ∀ fuel (contents : CStr), (prepareLoop fuel contents).length ≤ contents.length := by
    intro fuel
    induction fuel with
    | zero => exact fun contents => Nat.zero_le _
    | succ fuel ih =>
      intro contents
      unfold prepareLoop
      split
      · exact Nat.zero_le _
      · have hrest := ih ((contents.dropWhile fun c => !isLineEnd c).dropWhile isLineEnd)
        have hdrop := (List.dropWhile_sublist (l := contents.dropWhile fun c => !isLineEnd c)
          isLineEnd).length_le
        have hsum := congrArg List.length
          (List.takeWhile_append_dropWhile (p := fun c => !isLineEnd c) (l := contents))
        rw [List.length_append] at hsum
        dsimp only
        rw [List.length_append]
        split
        · rw [List.length_nil]
          omega
        · omega
  exact hloop _ _

theorem mem_prepareConfigContents {c : Char} : c ∈ prepareConfigContents contents ↔
    ∃ line ∈ linesOf contents, isComment line = false ∧ c ∈ line := by
  rw [prepareConfigContents_eq, keptLines, List.mem_flatten]
  constructor
  · rintro ⟨line, hline, hc⟩
    obtain ⟨hmem, hcomment⟩ := List.mem_filter.mp hline
    exact ⟨line, hmem, by simpa using hcomment, hc⟩
  · rintro ⟨line, hmem, hcomment, hc⟩
    exact ⟨line, List.mem_filter.mpr ⟨hmem, by rw [hcomment]; rfl⟩, hc⟩

end Lines

/-! ### Comments come and go -/

section Inserting

variable {l m a b line breaks : CStr} {c : Char}

theorem keptLines_append_cons (a b : CStr) (hc : isLineEnd c = true) :
    keptLines (a ++ c :: b) = keptLines a ++ keptLines b := by
  rw [keptLines, linesOf, List.splitOnP_append_cons a b hc, List.filter_append,
    List.flatten_append]
  rfl

theorem keptLines_cons (b : CStr) (hc : isLineEnd c = true) :
    keptLines (c :: b) = keptLines b := keptLines_append_cons [] b hc

theorem keptLines_breaks_append (h : ∀ c ∈ breaks, isLineEnd c = true) (b : CStr) :
    keptLines (breaks ++ b) = keptLines b := by
  induction breaks with
  | nil => rfl
  | cons c breaks ih =>
    have hrest := ih fun d hd => h d (List.mem_cons_of_mem c hd)
    rw [List.cons_append, keptLines_cons _ (h c List.mem_cons_self), hrest]

/-- A line alone. -/
theorem keptLines_line (h : ∀ c ∈ line, isLineEnd c = false) :
    keptLines line = if isComment line then [] else line := by
  rw [keptLines, linesOf, List.splitOnP_eq_singleton h]
  cases hcomment : isComment line <;> simp [hcomment]

/-- A line that is left out: a comment, or nothing. -/
structure LeftOut (line : CStr) : Prop where
  whole : ∀ c ∈ line, isLineEnd c = false
  skipped : isComment line = true ∨ line = []

theorem LeftOut.keptLines_eq (h : LeftOut line) : keptLines line = [] := by
  rw [keptLines_line h.whole]
  rcases h.skipped with hcomment | rfl
  · exact if_pos hcomment
  · exact ite_self _

/-- **One line more, which is left out.** It stands before another line, or at the end of the text,
where the line before it has to be ended first. -/
inductive Inserted : CStr → CStr → Prop
  | before {a b line breaks : CStr} (ha : ∀ c ∈ a.getLast?, isLineEnd c = true)
      (hline : LeftOut line) (hne : breaks ≠ []) (hbreaks : ∀ c ∈ breaks, isLineEnd c = true) :
      Inserted (a ++ b) (a ++ (line ++ (breaks ++ b)))
  | after {a b line breaks : CStr} (hb : ∀ c ∈ b.head?, isLineEnd c = true)
      (hline : LeftOut line) (hne : breaks ≠ []) (hbreaks : ∀ c ∈ breaks, isLineEnd c = true) :
      Inserted (a ++ b) (a ++ (breaks ++ (line ++ b)))

/-- A line that is left out, before a line end. -/
theorem LeftOut.keptLines_append_breaks (h : LeftOut line) (hne : breaks ≠ [])
    (hbreaks : ∀ c ∈ breaks, isLineEnd c = true) (b : CStr) :
    keptLines (line ++ (breaks ++ b)) = keptLines b := by
  obtain ⟨c, rest, rfl⟩ := List.exists_cons_of_ne_nil hne
  have hrest : ∀ d ∈ rest, isLineEnd d = true := fun d hd => hbreaks d (List.mem_cons_of_mem c hd)
  rw [List.cons_append, keptLines_append_cons _ _ (hbreaks c List.mem_cons_self), h.keptLines_eq,
    List.nil_append, keptLines_breaks_append hrest]

theorem keptLines_of_inserted {s t : CStr} (h : Inserted s t) : keptLines s = keptLines t := by
  cases h with
  | @before a b line breaks ha hline hne hbreaks =>
    rcases List.eq_nil_or_concat a with rfl | ⟨a, c, rfl⟩
    · exact (hline.keptLines_append_breaks hne hbreaks b).symm
    · have hc : isLineEnd c = true := ha c (by simp)
      rw [List.concat_eq_append, List.append_assoc, List.append_assoc, List.singleton_append,
        List.singleton_append, keptLines_append_cons _ _ hc, keptLines_append_cons _ _ hc,
        hline.keptLines_append_breaks hne hbreaks]
  | @after a b line breaks hb hline hne hbreaks =>
    obtain ⟨c, rest, rfl⟩ := List.exists_cons_of_ne_nil hne
    have hc := hbreaks c List.mem_cons_self
    have hrest : ∀ d ∈ rest, isLineEnd d = true :=
      fun d hd => hbreaks d (List.mem_cons_of_mem c hd)
    rw [List.cons_append, keptLines_append_cons _ _ hc, keptLines_breaks_append hrest]
    rcases b with _ | ⟨d, b⟩
    · rw [List.append_nil, List.append_nil, hline.keptLines_eq, List.append_nil]
    · have hd : isLineEnd d = true := hb d rfl
      rw [keptLines_append_cons _ _ hd, keptLines_append_cons _ _ hd, hline.keptLines_eq,
        List.nil_append]

theorem keptLines_of_eqvGen {s t : CStr} (h : Relation.EqvGen Inserted s t) :
    keptLines s = keptLines t := by
  induction h with
  | rel s t h => exact keptLines_of_inserted h
  | refl s => rfl
  | symm s t _ ih => exact ih.symm
  | trans s t u _ _ ih ih' => exact ih.trans ih'

/-! ### A second time -/

/-- The blanks before the text make no comment. -/
theorem isComment_append (hl : isComment l = false) (hm : isComment m = false) :
    isComment (l ++ m) = false := by
  rw [isComment] at hl ⊢
  rw [List.dropWhile_append]
  cases hdrop : l.dropWhile fun c => c == ' ' || c == '\t' with
  | nil => exact hm
  | cons c rest =>
    rw [hdrop] at hl
    exact hl

theorem isComment_keptLines (contents : CStr) : isComment (keptLines contents) = false := by
  have hall : ∀ lines : List CStr, (∀ line ∈ lines, isComment line = false) →
      isComment lines.flatten = false := by
    intro lines h
    induction lines with
    | nil => rfl
    | cons line lines ih =>
      rw [List.flatten_cons]
      exact isComment_append (h line List.mem_cons_self)
        (ih fun line hline => h line (List.mem_cons_of_mem _ hline))
  refine hall _ fun line hline => ?_
  simpa using (List.mem_filter.mp hline).2

/-- The characters of the lines are those of the text that end no line. -/
theorem mem_of_mem_linesOf {contents line : CStr} (hline : line ∈ linesOf contents)
    (hc : c ∈ line) : c ∈ contents ∧ isLineEnd c = false := by
  obtain ⟨hplain, a, b, rfl, -, -⟩ := Scan.exists_of_mem_splitOnP hline
  exact ⟨List.mem_append_right a (List.mem_append_left b hc), hplain c hc⟩

/-- **Nothing is left out a second time.** -/
theorem keptLines_keptLines (contents : CStr) :
    keptLines (keptLines contents) = keptLines contents := by
  rw [keptLines_line fun c hc => ?_, isComment_keptLines]
  · rfl
  · obtain ⟨line, hline, hmem⟩ := List.mem_flatten.mp hc
    exact (mem_of_mem_linesOf (List.mem_filter.mp hline).1 hmem).2

end Inserting

end LibFaketime
