import LibFaketime.Comments
import LibFaketime.Lib.Cursor

/-!
# Leaving out the comments in place

`prepare_config_contents` copies the lines that are no comments to the beginning of the buffer they
stand in, without their line ends, and a second cursor remembers how far it has come. It is a
machine here, one step for each turn of a loop (`LibFaketime.Strip.step`), with every access
checked. The copy never catches up with the text that is still to be read
(`LibFaketime.Strip.Inv`), so each character is read as it was at the beginning, and what is left is
what a reader of lines would keep (`LibFaketime.prepare_config_contents_keeps_lines`).
-/

namespace LibFaketime

open StateTransition Cursor

/-! ### The machine -/

/-- Where `prepare_config_contents` is, with the local variables that are in use there. -/
inductive Strip.Place where
  /-- The loop over the lines. -/
  | line
  /-- The loop that moves `line_end`. -/
  | lineEnd (lineEnd : ℕ)
  /-- The loop that moves `first_content`. -/
  | indentation (lineEnd firstContent : ℕ)
  /-- The test of the first character that is no blank. -/
  | test (lineEnd firstContent : ℕ)
  /-- The loop that copies the line. -/
  | copy (lineEnd : ℕ)
  /-- The end of the line is to be the next position to read. -/
  | skip (lineEnd : ℕ)
  /-- The loop over the line ends. -/
  | breaks
  /-- It has returned. -/
  | done
  deriving DecidableEq

/-- `prepare_config_contents` at work: the buffer and the two cursors. -/
structure Strip where
  contents : CStr
  readPosition : ℕ
  writePosition : ℕ
  place : Strip.Place
  deriving DecidableEq

namespace Strip

/-- The beginning of a run. -/
def start (contents : CStr) : Strip := ⟨contents, 0, 0, .line⟩

/-- Write a character where the copy ends. -/
def put (s : Strip) (c : Char) : Option Strip :=
  if s.writePosition < s.contents.length then
    some { s with contents := s.contents.set s.writePosition c }
  else none

/-- **One turn of one of the loops**, or one test; nothing for an access outside the buffer. -/
def step (s : Strip) : Option Strip :=
  match s.place with
  | .line => do
    let c ← s.contents[s.readPosition]?
    if c = '\x00' then
      let s ← s.put '\x00'
      pure { s with place := .done }
    else pure { s with place := .lineEnd s.readPosition }
  | .lineEnd lineEnd => do
    let c ← s.contents[lineEnd]?
    if c ≠ '\x00' ∧ c ≠ '\r' ∧ c ≠ '\n' then pure { s with place := .lineEnd (lineEnd + 1) }
    else pure { s with place := .indentation lineEnd s.readPosition }
  | .indentation lineEnd firstContent =>
    if firstContent < lineEnd then do
      let c ← s.contents[firstContent]?
      if c = ' ' ∨ c = '\t' then
        pure { s with place := .indentation lineEnd (firstContent + 1) }
      else pure { s with place := .test lineEnd firstContent }
    else pure { s with place := .test lineEnd firstContent }
  | .test lineEnd firstContent =>
    if firstContent = lineEnd then pure { s with place := .copy lineEnd }
    else do
      let c ← s.contents[firstContent]?
      if c ≠ '#' ∧ c ≠ ';' then pure { s with place := .copy lineEnd }
      else pure { s with place := .skip lineEnd }
  | .copy lineEnd =>
    if s.readPosition < lineEnd then do
      let c ← s.contents[s.readPosition]?
      let s ← s.put c
      pure { s with
        readPosition := s.readPosition + 1
        writePosition := s.writePosition + 1 }
    else pure { s with place := .skip lineEnd }
  | .skip lineEnd => pure { s with readPosition := lineEnd, place := .breaks }
  | .breaks => do
    let c ← s.contents[s.readPosition]?
    if c = '\r' ∨ c = '\n' then pure { s with readPosition := s.readPosition + 1 }
    else pure { s with place := .line }
  | .done => none

/-! ### The cursors -/

/-- The end of the line that is being looked at. -/
def Place.end? : Place → Option ℕ
  | .lineEnd e | .indentation e _ | .test e _ | .copy e | .skip e => some e
  | .line | .breaks | .done => none

/-- **What holds at every step**: the copy has not passed the position to read, and the line that is
being looked at does not end before it. -/
structure Inv (s : Strip) : Prop where
  behind : s.writePosition ≤ s.readPosition
  ahead : ∀ e, s.place.end? = some e → s.readPosition ≤ e

theorem inv_start (contents : CStr) : (start contents).Inv := ⟨le_rfl, nofun⟩

theorem put_eq {s t : Strip} {c : Char} (h : s.put c = some t) :
    t = { s with contents := s.contents.set s.writePosition c } := by
  rw [put] at h
  split at h
  · exact (Option.some.inj h).symm
  · cases h

/-- A step that moves neither cursor, and looks at the same line. -/
theorem Inv.stay {s : Strip} {place : Place} (hs : s.Inv) (h : place.end? = s.place.end?) :
    Inv { s with place := place } :=
  ⟨hs.behind, fun e he => hs.ahead e (h.symm.trans he)⟩

/-- A step that moves neither cursor, and looks at a line that ends here or further on. -/
theorem Inv.look {s : Strip} {place : Place} {e : ℕ} (hs : s.Inv) (h : place.end? = some e)
    (he : s.readPosition ≤ e) : Inv { s with place := place } :=
  ⟨hs.behind, fun f hf => by rw [h] at hf; cases hf; exact he⟩

theorem Inv.step {s t : Strip} (hs : s.Inv) (h : s.step = some t) : t.Inv := by
  rw [Strip.step] at h
  -- one case for each place, in the order of their declaration
  split at h
  next hplace =>
    obtain ⟨c, -, h⟩ := Option.bind_eq_some_iff.mp h
    split at h
    · obtain ⟨u, hput, h⟩ := Option.bind_eq_some_iff.mp h
      obtain rfl := put_eq hput
      obtain rfl := Option.some.inj h
      exact ⟨hs.behind, nofun⟩
    · obtain rfl := Option.some.inj h
      exact hs.look rfl le_rfl
  next e hplace =>
    have he : s.readPosition ≤ e := hs.ahead e (by rw [hplace]; rfl)
    obtain ⟨c, -, h⟩ := Option.bind_eq_some_iff.mp h
    split at h <;> obtain rfl := Option.some.inj h
    · exact hs.look rfl (Nat.le_succ_of_le he)
    · exact hs.look rfl he
  next e f hplace =>
    split at h
    · obtain ⟨c, -, h⟩ := Option.bind_eq_some_iff.mp h
      split at h <;> obtain rfl := Option.some.inj h <;> exact hs.stay (by rw [hplace]; rfl)
    · obtain rfl := Option.some.inj h
      exact hs.stay (by rw [hplace]; rfl)
  next e f hplace =>
    split at h
    · obtain rfl := Option.some.inj h
      exact hs.stay (by rw [hplace]; rfl)
    · obtain ⟨c, -, h⟩ := Option.bind_eq_some_iff.mp h
      split at h <;> obtain rfl := Option.some.inj h <;> exact hs.stay (by rw [hplace]; rfl)
  next e hplace =>
    split at h
    next hlt =>
      obtain ⟨c, -, h⟩ := Option.bind_eq_some_iff.mp h
      obtain ⟨u, hput, h⟩ := Option.bind_eq_some_iff.mp h
      obtain rfl := put_eq hput
      obtain rfl := Option.some.inj h
      refine ⟨Nat.succ_le_succ hs.behind, fun f hf => ?_⟩
      change s.place.end? = some f at hf
      rw [hplace] at hf
      cases hf
      exact hlt
    next =>
      obtain rfl := Option.some.inj h
      exact hs.stay (by rw [hplace]; rfl)
  next e hplace =>
    have he : s.readPosition ≤ e := hs.ahead e (by rw [hplace]; rfl)
    obtain rfl := Option.some.inj h
    exact ⟨hs.behind.trans he, nofun⟩
  next hplace =>
    obtain ⟨c, -, h⟩ := Option.bind_eq_some_iff.mp h
    split at h <;> obtain rfl := Option.some.inj h
    · refine ⟨Nat.le_succ_of_le hs.behind, fun f hf => ?_⟩
      change s.place.end? = some f at hf
      rw [hplace] at hf
      cases hf
    · exact ⟨hs.behind, nofun⟩
  next => cases h

/-! ### One line -/

section Run

variable {orig out line breaks more : CStr} {read i : ℕ} {c : Char}

/-- The machine when it has copied `out`: all that follows in the buffer is as it was. -/
def working (orig out : CStr) (read : ℕ) (place : Place) : Strip :=
  ⟨overwrite out orig, read, out.length, place⟩

theorem getElem?_of_drop (h : orig.drop read = line ++ more) (hi : i < line.length) :
    orig[read + i]? = some (line.get ⟨i, hi⟩) := by
  rw [← List.getElem?_drop, h, List.getElem?_append_left hi, List.getElem?_eq_getElem hi,
    List.get_eq_getElem]

theorem getElem?_of_drop_eq_cons (h : orig.drop read = c :: more) : orig[read]? = some c := by
  have hget := congrArg (·[0]?) h
  rwa [List.getElem?_drop] at hget

theorem getElem?_of_drop_cons (h : orig.drop read = line ++ c :: more) :
    orig[read + line.length]? = some c := by
  rw [← List.getElem?_drop, h, List.getElem?_append_right le_rfl, Nat.sub_self]
  rfl

theorem working_getElem? (hout : out.length ≤ i) (place : Place) :
    (working orig out read place).contents[i]? = orig[i]? := getElem?_overwrite hout

/-- The end of the line is found. -/
theorem reaches_indentation (hout : out.length ≤ read)
    (hread : orig.drop read = line ++ c :: more)
    (hline : ∀ c ∈ line, c ≠ '\x00' ∧ c ≠ '\r' ∧ c ≠ '\n')
    (hc : ¬ (c ≠ '\x00' ∧ c ≠ '\r' ∧ c ≠ '\n')) :
    Reaches step (working orig out read (.lineEnd read))
      (working orig out read (.indentation (read + line.length) read)) := by
  refine Relation.ReflTransGen.tail (reaches_of_forall
    (fun i => working orig out read (.lineEnd (read + i))) line.length fun i hi => ?_) ?_
  · change ((working orig out read (.lineEnd (read + i))).contents[read + i]? >>= _) = _
    rw [working_getElem? (by omega), getElem?_of_drop hread hi]
    exact if_pos (hline _ (List.get_mem _ _))
  · change ((working orig out read (.lineEnd _)).contents[read + line.length]? >>= _) = _
    rw [working_getElem? (by omega), getElem?_of_drop_cons hread]
    exact if_neg hc

/-- The place after the first character that is no blank has been looked at. -/
def tested (line : CStr) (e : ℕ) : Place := if isComment line then .skip e else .copy e

/-- Its first character that is no blank says whether the line is copied. -/
theorem reaches_tested (hout : out.length ≤ read) (hread : orig.drop read = line ++ more) :
    Reaches step (working orig out read (.indentation (read + line.length) read))
      (working orig out read (tested line (read + line.length))) := by
  obtain ⟨blanks, text, hblanks, htext, hsplit⟩ : ∃ blanks text : CStr,
      (∀ c ∈ blanks, c = ' ' ∨ c = '\t') ∧ text = line.dropWhile (fun c => c == ' ' || c == '\t') ∧
        line = blanks ++ text := by
    refine ⟨line.takeWhile _, _, fun c hc => ?_, rfl, List.takeWhile_append_dropWhile.symm⟩
    simpa using List.mem_takeWhile_imp hc
  have hblack : ∀ c ∈ text.head?, ¬ (c = ' ' ∨ c = '\t') := by
    intro c hc
    have hnot := List.head?_dropWhile_not (fun c => c == ' ' || c == '\t') line
    rw [← htext, hc] at hnot
    simpa using hnot
  have hrest : orig.drop read = blanks ++ (text ++ more) := by
    rw [hread, hsplit, List.append_assoc]
  have hlen : line.length = blanks.length + text.length := by rw [hsplit, List.length_append]
  -- the blanks first
  have hloop := reaches_of_forall (f := step)
    (fun i => working orig out read (.indentation (read + line.length) (read + i)))
    blanks.length fun i hi => by
      change (if read + i < read + line.length then
        ((working orig out read (.indentation _ (read + i))).contents[read + i]? >>= _) else _) = _
      rw [if_pos (by omega), working_getElem? (by omega), getElem?_of_drop hrest hi]
      exact if_pos (hblanks _ (List.get_mem _ _))
  refine hloop.trans ?_
  rcases text with _ | ⟨c, text⟩
  · -- nothing but blanks
    have hend : blanks.length = line.length := hlen.symm
    have htested : tested line (read + line.length) = .copy (read + line.length) := by
      rw [tested, isComment, ← htext]
      rfl
    rw [htested, hend]
    refine Relation.ReflTransGen.head
      (b := working orig out read (.test (read + line.length) (read + line.length))) ?_
      (reaches_step ?_)
    · exact if_neg (Nat.lt_irrefl _)
    · exact if_pos rfl
  · have hlt : blanks.length < line.length := by rw [hlen, List.length_cons]; omega
    have hchar := getElem?_of_drop_cons hrest
    refine Relation.ReflTransGen.head
      (b := working orig out read (.test (read + line.length) (read + blanks.length))) ?_
      (reaches_step ?_)
    · change (if read + blanks.length < read + line.length then
        ((working orig out read (.indentation _ _)).contents[read + blanks.length]? >>= _)
          else _) = _
      rw [if_pos (by omega), working_getElem? (by omega), hchar]
      exact if_neg (hblack c rfl)
    · change (if read + blanks.length = read + line.length then _ else
        ((working orig out read (.test _ _)).contents[read + blanks.length]? >>= _)) = _
      rw [if_neg (by omega), working_getElem? (by omega), hchar]
      have hcomment : isComment line = (c == '#' || c == ';') := by
        rw [isComment, ← htext]
      rw [tested, hcomment]
      change (if c ≠ '#' ∧ c ≠ ';' then _ else _) = _
      split
      next hno =>
        rw [if_neg (by simpa using hno)]
        rfl
      next hyes =>
        rw [if_pos (by rw [Bool.or_eq_true, beq_iff_eq, beq_iff_eq]; tauto)]
        rfl

/-- The line is copied. -/
theorem reaches_copied (hout : out.length ≤ read) (hread : orig.drop read = line ++ more) :
    Reaches step (working orig out read (.copy (read + line.length)))
      (working orig (out ++ line) (read + line.length) (.skip (read + line.length))) := by
  have hroom : read + line.length ≤ orig.length ∨ line = [] := by
    rcases line with _ | ⟨c, line⟩
    · exact Or.inr rfl
    · have hlen := congrArg List.length hread
      rw [List.length_drop, List.length_append, List.length_cons] at hlen
      rw [List.length_cons]
      omega
  refine Relation.ReflTransGen.tail
    (b := working orig (out ++ line) (read + line.length) (.copy (read + line.length))) ?_ ?_
  · -- each step of the loop copies one character over what has been read already
    have hloop := reaches_of_forall (f := step)
      (fun i => working orig (out ++ line.take i) (read + i) (.copy (read + line.length)))
      line.length fun i hi => ?_
    · rwa [List.take_zero, List.append_nil, List.take_length] at hloop
    · have hwrite : (out ++ line.take i).length = out.length + i := by
        rw [List.length_append, List.length_take]
        omega
      have hlt : (out ++ line.take i).length < orig.length := by
        rcases hroom with hroom | rfl
        · omega
        · cases hi
      have htake : line.take i ++ [line.get ⟨i, hi⟩] = line.take (i + 1) :=
        List.take_append_getElem hi
      have hput : (working orig (out ++ line.take i) (read + i) (.copy (read + line.length))).put
          (line.get ⟨i, hi⟩) = some ⟨overwrite (out ++ line.take (i + 1)) orig, read + i,
            (out ++ line.take i).length, .copy (read + line.length)⟩ := by
        rw [put, if_pos (by rw [working, length_overwrite hlt.le]; exact hlt)]
        change some (Strip.mk ((overwrite (out ++ line.take i) orig).set _ _) _ _ _) = _
        rw [working, set_overwrite hlt, List.append_assoc, htake]
      change (if read + i < read + line.length then
        ((working orig (out ++ line.take i) (read + i) (.copy _)).contents[read + i]? >>= _)
          else _) = _
      rw [if_pos (by omega), working_getElem? (by omega), getElem?_of_drop hread hi]
      change ((working orig (out ++ line.take i) (read + i) (.copy (read + line.length))).put
        (line.get ⟨i, hi⟩) >>= _) = _
      rw [hput]
      have hnext : (out ++ line.take (i + 1)).length = (out ++ line.take i).length + 1 := by
        rw [List.length_append, List.length_take, hwrite]
        omega
      rw [working, hnext]
      rfl
  · exact if_neg (Nat.lt_irrefl _)

/-- The line ends are passed. -/
theorem reaches_passed (hout : out.length ≤ read) (hread : orig.drop read = breaks ++ c :: more)
    (hbreaks : ∀ c ∈ breaks, c = '\r' ∨ c = '\n') (hc : ¬ (c = '\r' ∨ c = '\n')) :
    Reaches step (working orig out read .breaks)
      (working orig out (read + breaks.length) .line) := by
  refine Relation.ReflTransGen.tail (reaches_of_forall
    (fun i => working orig out (read + i) .breaks) breaks.length fun i hi => ?_) ?_
  · change ((working orig out (read + i) .breaks).contents[read + i]? >>= _) = _
    rw [working_getElem? (by omega), getElem?_of_drop hread hi]
    exact if_pos (hbreaks _ (List.get_mem _ _))
  · change ((working orig out (read + breaks.length) .breaks).contents[read + breaks.length]? >>=
      _) = _
    rw [working_getElem? (by omega), getElem?_of_drop_cons hread]
    exact if_neg hc

/-- **One line**: it is copied or left out, and the line ends after it are passed. -/
theorem reaches_line (hout : out.length ≤ read)
    (hread : orig.drop read = line ++ (breaks ++ c :: more))
    (hline : ∀ c ∈ line, c ≠ '\x00' ∧ c ≠ '\r' ∧ c ≠ '\n')
    (hbreaks : ∀ c ∈ breaks, c = '\r' ∨ c = '\n') (hc : ¬ (c = '\r' ∨ c = '\n'))
    (hmore : breaks = [] → c = '\x00') (hne : line ++ breaks ≠ []) :
    Reaches step (working orig out read .line)
      (working orig (out ++ if isComment line then [] else line)
        (read + line.length + breaks.length) .line) := by
  obtain ⟨d, l, hd, hplain⟩ : ∃ d l, breaks ++ c :: more = d :: l ∧
      ¬ (d ≠ '\x00' ∧ d ≠ '\r' ∧ d ≠ '\n') := by
    rcases breaks with _ | ⟨d, breaks⟩
    · exact ⟨c, more, rfl, fun h => h.1 (hmore rfl)⟩
    · refine ⟨d, breaks ++ c :: more, rfl, fun h => ?_⟩
      rcases hbreaks d List.mem_cons_self with heq | heq
      · exact h.2.1 heq
      · exact h.2.2 heq
  -- the text goes on with a character of the line, or with a line end
  have hfirst : step (working orig out read .line) =
      some (working orig out read (.lineEnd read)) := by
    obtain ⟨e, hget, hnul⟩ : ∃ e, orig[read]? = some e ∧ e ≠ '\x00' := by
      rcases line with _ | ⟨e, line⟩
      · rcases breaks with _ | ⟨e, breaks⟩
        · exact absurd rfl hne
        · refine ⟨e, getElem?_of_drop_eq_cons hread, ?_⟩
          rintro rfl
          exact absurd (hbreaks _ List.mem_cons_self) (by decide)
      · exact ⟨e, getElem?_of_drop_eq_cons hread, (hline e List.mem_cons_self).1⟩
    change ((working orig out read .line).contents[read]? >>= _) = _
    rw [working_getElem? hout, hget]
    exact if_neg hnul
  refine Relation.ReflTransGen.head hfirst
    ((reaches_indentation hout (hread.trans (by rw [hd])) hline hplain).trans ?_)
  refine (reaches_tested hout hread).trans ?_
  have hdrop : orig.drop (read + line.length) = breaks ++ c :: more := by
    rw [← List.drop_drop, hread, List.drop_left]
  cases hcomment : isComment line with
  | true =>
    rw [tested, hcomment, if_pos rfl, if_pos rfl, List.append_nil]
    exact Relation.ReflTransGen.head (b := working orig out (read + line.length) .breaks) rfl
      (reaches_passed (by omega) hdrop hbreaks hc)
  | false =>
    rw [tested, hcomment, if_neg (by simp), if_neg (by simp)]
    refine (reaches_copied hout hread).trans
      (Relation.ReflTransGen.head (b := working orig (out ++ line) (read + line.length) .breaks) rfl
        (reaches_passed ?_ hdrop hbreaks hc))
    rw [List.length_append]
    omega

end Run

/-! ### All lines -/

/-- The machine when it has returned: the copy `out`, ended by a NUL, over the beginning of the
buffer. -/
def finished (orig out : CStr) (read : ℕ) : Strip :=
  ⟨overwrite (out ++ ['\x00']) orig, read, out.length, .done⟩

section Whole

variable {orig out rest tail : CStr} {read : ℕ}

/-- The end of the text. -/
theorem step_end (hout : out.length ≤ read) (hread : orig.drop read = '\x00' :: tail) :
    step (working orig out read .line) = some (finished orig out read) := by
  have hchar : orig[read]? = some '\x00' := getElem?_of_drop_eq_cons hread
  have hlt : out.length < orig.length :=
    hout.trans_lt (List.getElem?_eq_some_iff.mp hchar).1
  have hput : (working orig out read .line).put '\x00' =
      some ⟨overwrite (out ++ ['\x00']) orig, read, out.length, .line⟩ := by
    rw [put, if_pos (by rw [working, length_overwrite hlt.le]; exact hlt)]
    change some (Strip.mk ((overwrite out orig).set _ _) _ _ _) = _
    rw [working, set_overwrite hlt]
  change ((working orig out read .line).contents[read]? >>= _) = _
  rw [working_getElem? hout, hchar]
  change ((working orig out read .line).put '\x00' >>= _) = _
  rw [hput]
  rfl

theorem isLineEnd_iff {c : Char} : isLineEnd c = true ↔ c = '\r' ∨ c = '\n' := by
  rw [isLineEnd, Bool.or_eq_true, beq_iff_eq, beq_iff_eq]

/-- A text is a line, the line ends after it, and the others. -/
theorem exists_line (rest : CStr) : ∃ line breaks others : CStr,
    (line = rest.takeWhile fun c => !isLineEnd c) ∧
      others = (rest.dropWhile fun c => !isLineEnd c).dropWhile isLineEnd ∧
        rest = line ++ (breaks ++ others) ∧ (∀ c ∈ breaks, isLineEnd c = true) ∧
          (∀ c ∈ others.head?, isLineEnd c = false) ∧ (breaks = [] → others = []) := by
  obtain ⟨after, hafter⟩ : ∃ l, l = rest.dropWhile fun c => !isLineEnd c := ⟨_, rfl⟩
  rw [← hafter]
  have hothers : ∀ c ∈ (after.dropWhile isLineEnd).head?, isLineEnd c = false := by
    intro c hc
    have hhead := List.head?_dropWhile_not isLineEnd after
    rw [hc] at hhead
    simpa using hhead
  refine ⟨_, after.takeWhile isLineEnd, _, rfl, rfl, ?_, fun c hc => List.mem_takeWhile_imp hc,
    hothers, fun hnone => ?_⟩
  · rw [List.takeWhile_append_dropWhile, hafter, List.takeWhile_append_dropWhile]
  · -- what is left behind the line starts with a line end
    have hsame : after = after.dropWhile isLineEnd := by
      conv_lhs => rw [← List.takeWhile_append_dropWhile (p := isLineEnd) (l := after), hnone]
      rfl
    rw [← hsame] at hothers ⊢
    rcases hcase : after with _ | ⟨c, l⟩
    · rfl
    · have hhead := List.head?_dropWhile_not (fun c => !isLineEnd c) rest
      rw [← hafter, hcase] at hhead
      have hend : isLineEnd c = true := by simpa using hhead
      rw [hothers c (by rw [hcase]; rfl)] at hend
      cases hend

/-- **The loop over the lines** is that of `LibFaketime.prepareLoop`. -/
theorem reaches_finished (orig : CStr) (fuel : ℕ) (hfuel : rest.length ≤ fuel)
    (hout : out.length ≤ read) (hread : orig.drop read = rest ++ '\x00' :: tail)
    (hnul : '\x00' ∉ rest) :
    Reaches step (working orig out read .line)
      (finished orig (out ++ prepareLoop fuel rest) (read + rest.length)) := by
  induction fuel generalizing out rest read with
  | zero =>
    obtain rfl := List.length_eq_zero_iff.mp (Nat.le_zero.mp hfuel)
    rw [prepareLoop, List.append_nil]
    exact reaches_step (step_end hout hread)
  | succ fuel ih =>
    rw [prepareLoop]
    split
    next hnil =>
      subst hnil
      rw [List.append_nil]
      exact reaches_step (step_end hout hread)
    next hne =>
      have hlt := length_rest_lt hne
      obtain ⟨line, breaks, others, hline, hothers, hrest, hbreaks, hhead, hnone⟩ :=
        exists_line rest
      dsimp only
      rw [← hline, ← hothers]
      rw [← hothers] at hlt
      have hplain : ∀ c ∈ line, c ≠ '\x00' ∧ c ≠ '\r' ∧ c ≠ '\n' := by
        intro c hc
        have hno : ¬ isLineEnd c = true := by
          rw [hline] at hc
          simpa using List.mem_takeWhile_imp hc
        rw [isLineEnd_iff, not_or] at hno
        refine ⟨fun h => hnul ?_, hno⟩
        rw [← h, hrest]
        exact List.mem_append_left _ hc
      -- what comes next is the first character of another line, or the end of the text
      obtain ⟨c, more, hmore, hc, hnul'⟩ : ∃ c more, others ++ '\x00' :: tail = c :: more ∧
          ¬ (c = '\r' ∨ c = '\n') ∧ (breaks = [] → c = '\x00') := by
        rcases hcase : others with _ | ⟨c, l⟩
        · exact ⟨'\x00', tail, rfl, by decide, fun _ => rfl⟩
        · refine ⟨c, l ++ '\x00' :: tail, rfl, fun h => ?_, fun h => ?_⟩
          · rw [← isLineEnd_iff, hhead c (by rw [hcase]; rfl)] at h
            cases h
          · rw [hnone h] at hcase
            cases hcase
      have hread' : orig.drop read = line ++ (breaks ++ c :: more) := by
        rw [hread, hrest, ← hmore, List.append_assoc, List.append_assoc]
      have hsome : line ++ breaks ≠ [] := by
        intro h
        obtain ⟨rfl, rfl⟩ := List.append_eq_nil_iff.mp h
        exact hne (hrest.trans (hnone rfl))
      have hturn := reaches_line hout hread' hplain
        (fun c hc => isLineEnd_iff.mp (hbreaks c hc)) hc hnul' hsome
      have hdrop : orig.drop (read + line.length + breaks.length) = others ++ '\x00' :: tail := by
        rw [← List.drop_drop, ← List.drop_drop, hread', List.drop_left, List.drop_left, hmore]
      have hcopied : (out ++ if isComment line then [] else line).length ≤
          read + line.length + breaks.length := by
        rw [List.length_append]
        split
        · rw [List.length_nil]
          omega
        · omega
      have hnul'' : '\x00' ∉ others := fun h => hnul (by
        rw [hrest]
        exact List.mem_append_right _ (List.mem_append_right _ h))
      have hnext := ih (by omega) hcopied hdrop hnul''
      have hlen : read + line.length + breaks.length + others.length = read + rest.length := by
        rw [hrest, List.length_append, List.length_append]
        omega
      rw [hlen, List.append_assoc] at hnext
      exact hturn.trans hnext

end Whole

/-- **A run of `prepare_config_contents`** on a string in a buffer. -/
theorem reaches_prepared {s : CStr} (hs : '\x00' ∉ s) (tail : CStr) :
    Reaches step (start (s ++ '\x00' :: tail))
      (finished (s ++ '\x00' :: tail) (prepareConfigContents s) s.length) := by
  have hrun : Reaches step (working (s ++ '\x00' :: tail) [] 0 .line) _ :=
    reaches_finished (s ++ '\x00' :: tail) s.length le_rfl le_rfl rfl hs
  rwa [List.nil_append, Nat.zero_add] at hrun

theorem step_finished (orig out : CStr) (read : ℕ) : step (finished orig out read) = none := rfl

end Strip

open Strip in
/-- **`prepare_config_contents` keeps the lines that are no comments**, and works in place.

It comes to its end, and what it leaves in the buffer are these lines, in their order and without
their line ends, with the rest of the buffer as it was. On the way there the position to write
never passes the position to read, and no access is outside the buffer. The text is not longer than
it was, going over it again changes nothing in the buffer, and it is the same for a string with more
or fewer comments and empty lines. -/
theorem prepare_config_contents_keeps_lines (s tail : CStr) (hs : '\x00' ∉ s) :
    (∃ read, Reaches step (start (s ++ '\x00' :: tail))
        (finished (s ++ '\x00' :: tail) (keptLines s) read)) ∧
      (∀ t, Reaches step (start (s ++ '\x00' :: tail)) t →
        t.writePosition ≤ t.readPosition ∧ (t.place = .done ∨ (step t).isSome = true)) ∧
      (keptLines s).length ≤ s.length ∧
      (∃ t, Reaches step (start (overwrite (keptLines s ++ ['\x00']) (s ++ '\x00' :: tail))) t ∧
        t.place = .done ∧ t.contents = overwrite (keptLines s ++ ['\x00']) (s ++ '\x00' :: tail)) ∧
      (∀ s', Relation.EqvGen Inserted s s' → keptLines s' = keptLines s) := by
  have hrun := reaches_prepared hs tail
  rw [prepareConfigContents_eq] at hrun
  refine ⟨⟨_, hrun⟩, fun t ht => ⟨?_, ?_⟩, ?_, ?_, fun s' h => (keptLines_of_eqvGen h).symm⟩
  · exact (invariant_of_reaches (fun _ _ => Inv.step) (inv_start _) ht).behind
  · rcases eq_or_isSome_of_reaches hrun (step_finished _ _ _) ht with rfl | hnext
    · exact Or.inl rfl
    · exact Or.inr hnext
  · rw [← prepareConfigContents_eq]
    exact length_prepareConfigContents_le s
  · have hkept : '\x00' ∉ keptLines s := by
      rw [← prepareConfigContents_eq, mem_prepareConfigContents]
      rintro ⟨line, hline, -, hmem⟩
      exact hs (mem_of_mem_linesOf hline hmem).1
    obtain ⟨rest, hbuffer⟩ : ∃ rest, overwrite (keptLines s ++ ['\x00']) (s ++ '\x00' :: tail) =
        keptLines s ++ '\x00' :: rest := ⟨_, by rw [overwrite, List.append_assoc]; rfl⟩
    have hagain := reaches_prepared hkept rest
    rw [prepareConfigContents_eq, keptLines_keptLines] at hagain
    rw [hbuffer]
    refine ⟨_, hagain, rfl, ?_⟩
    have hover := overwrite_append (keptLines s ++ ['\x00']) rest
    rwa [List.append_assoc] at hover

/-- Two lines, and a comment between them. -/
theorem prepare_config_contents_keeps_lines_commented :
    (∃ read, Reaches Strip.step (Strip.start ("+5\n# x\r\n x1\n".toList ++ ['\x00']))
        (Strip.finished ("+5\n# x\r\n x1\n".toList ++ ['\x00']) "+5 x1".toList read)) := by
  obtain ⟨read, hrun⟩ := (prepare_config_contents_keeps_lines "+5\n# x\r\n x1\n".toList []
    (by decide)).1
  have hkept : keptLines "+5\n# x\r\n x1\n".toList = "+5 x1".toList := by
    rw [← prepareConfigContents_eq]
    decide +kernel
  rw [hkept] at hrun
  exact ⟨read, hrun⟩

end LibFaketime
