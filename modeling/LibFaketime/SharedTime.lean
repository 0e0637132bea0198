import LibFaketime.Calls
import LibFaketime.ConfigText
import LibFaketime.SetClock

/-!
# A clock that several processes share

One process sets the clock by writing an offset to the file of `FAKETIME_TIMESTAMP_FILE`, and any
number of others read the offset from it whenever they refresh their configuration. The file is
emptied when it is opened, and what is written to it arrives when it is closed
(`LibFaketime.FileMem`); a process that reads it does so piece by piece.

So there are two ways in which a refresh can go wrong: its first read finds the file empty, or a
later one finds what does not belong to the text it has begun to read. As long as neither happens
the processes follow offsets only that the file has held (`LibFaketime.readers_follow_file`). The
first is fatal (`LibFaketime.empty_file_is_fatal`).
-/

namespace LibFaketime

open Effects Effects.Prog

/-! ### Offsets as texts -/

/-- The offset a setting denotes that is nothing but an offset. -/
def textOffset (text : CStr) : Option Timespec :=
  if (text.head? = some '+' ∨ text.head? = some '-') ∧ strchr text 'x' = none ∧
      strchr text 'i' = none ∧ text.length < bufferlen then
    match splitOffset text with
    | some (frac, factor, []) => offsetTimespec frac factor
    | _ => none
  else none

/-- The offset a configuration file denotes. -/
def fileOffset (contents : CStr) : Option Timespec := textOffset (prepareConfigContents contents)

/-- **The process follows an offset**: it has applied a text that denotes it. -/
def Proc.FollowsOffset (s : Proc) (offset : Timespec) : Prop :=
  ∃ text, textOffset text = some offset ∧ s.follows text offset = s

section Texts

variable {text : CStr} {offset : Timespec}

/-- What makes a text an offset. -/
structure DenotesOffset (text : CStr) (offset : Timespec) : Prop where
  sign : text.head? = some '+' ∨ text.head? = some '-'
  noRate : strchr text 'x' = none
  noTick : strchr text 'i' = none
  short : text.length < bufferlen
  number : ∃ frac factor, splitOffset text = some (frac, factor, []) ∧
    offsetTimespec frac factor = some offset

theorem denotesOffset_iff : textOffset text = some offset ↔ DenotesOffset text offset := by
  unfold textOffset
  constructor
  · intro h
    split at h
    next hc =>
      split at h
      next frac factor hsplit => exact ⟨hc.1, hc.2.1, hc.2.2.1, hc.2.2.2, frac, factor, hsplit, h⟩
      next => cases h
    next => cases h
  · rintro ⟨hsign, hx, hi, hlen, frac, factor, hsplit, hoffset⟩
    rw [if_pos ⟨hsign, hx, hi, hlen⟩, hsplit]
    exact hoffset

/-- Such a text is compared with the one that has been saved as a whole. -/
theorem DenotesOffset.unchanged_iff {saved : CStr} {offset' : Timespec}
    (h : DenotesOffset text offset) (h' : DenotesOffset saved offset') :
    unchangedSetting text saved = true ↔ saved = text := by
  have hhead : (text.head? != some '%') = true := by
    rcases h.sign with hs | hs <;> rw [hs] <;> decide
  rw [unchangedSetting, hhead, Bool.and_true, List.take_of_length_le h.short.le,
    List.take_of_length_le h'.short.le, beq_iff_eq, eq_comm]

/-- The text that is printed of an offset denotes the offset that was printed. -/
theorem textOffset_offsetText {d : ℤ} (hd : OffsetFits d) :
    textOffset (offsetText d) = some (printedOffset d) := by
  have hlen : (offsetText d).length < bufferlen - 1 := length_printfPlusF hd
  exact denotesOffset_iff.mpr ⟨head?_printfPlusF _, strchr_printfPlusF _ (by decide) (by decide),
    strchr_printfPlusF _ (by decide) (by decide), by omega, _, _, splitOffset_printfPlusF hd,
    offsetTimespec_printedMicros hd⟩

/-- A file of a single line is the text of that line. -/
theorem prepareConfigContents_line {line : CStr} (hne : line ≠ [])
    (hline : ∀ c ∈ line, isLineEnd c = false) (hcomment : isComment line = false) :
    prepareConfigContents (line ++ ['\n']) = line := by
  have hall : ∀ c ∈ line, (fun c => !isLineEnd c) c = true := fun c hc =>
    congrArg Bool.not (hline c hc)
  obtain ⟨c, cs, rfl⟩ := List.exists_cons_of_ne_nil hne
  unfold prepareConfigContents prepareLoop
  rw [List.length_append, List.length_singleton]
  dsimp only
  rw [if_neg (by simp), List.takeWhile_append_of_pos hall, List.dropWhile_append_of_pos hall]
  rw [show List.takeWhile (fun c => !isLineEnd c) ['\n'] = [] by decide, List.append_nil, hcomment,
    show List.dropWhile isLineEnd (List.dropWhile (fun c => !isLineEnd c) ['\n']) = [] by decide]
  cases cs <;> simp [prepareLoop]

/-- **What `clock_settime` writes to the file denotes the offset it has printed.** -/
theorem fileOffset_offsetText {d : ℤ} (hd : OffsetFits d) :
    fileOffset (offsetText d ++ ['\n']) = some (printedOffset d) := by
  have hend : ∀ c ∈ offsetText d, isLineEnd c = false := by
    intro c hc
    rcases mem_printfPlusF hc with rfl | rfl | rfl | hdigit
    · decide
    · decide
    · decide
    · have hr : c ≠ '\r' := ne_of_isDigit hdigit (by decide)
      have hn : c ≠ '\n' := ne_of_isDigit hdigit (by decide)
      simp [isLineEnd, hr, hn]
  have hhead := head?_printfPlusF ((d : ℚ) / 1000000000)
  rw [fileOffset, prepareConfigContents_line ?_ hend ?_, textOffset_offsetText hd]
  · intro hnil
    rw [show printfPlusF ((d : ℚ) / 1000000000) = [] from hnil] at hhead
    simp at hhead
  · unfold isComment offsetText
    rcases hhead with h | h
    · obtain ⟨cs, hcs⟩ := List.head?_eq_some_iff.mp h
      rw [hcs]
      rfl
    · obtain ⟨cs, hcs⟩ := List.head?_eq_some_iff.mp h
      rw [hcs]
      rfl

end Texts

/-! ### The file and the processes -/

/-- A process that refreshes its configuration: its variables, and what is recorded about the
refresh. -/
structure Reader where
  proc : Proc
  /-- The text that was in the file when the refresh began to read it, and how much of it has
  been read. -/
  began : Option (CStr × ℕ)
  /-- The offset the process followed when the refresh opened the file. -/
  old : Option Timespec

/-- The timestamp file, and the processes that use it. -/
structure FileMem (R : Type) where
  /-- The contents of the file. -/
  contents : CStr
  /-- What has been printed to the file since it was opened for writing. -/
  buffer : CStr
  /-- The variables of the process that sets the clock. -/
  writer : Proc
  reader : R → Reader
  /-- The offset each process followed when it last opened the file, and those the file has held
  since then. -/
  held : R → Set Timespec

namespace FileMem

variable {R : Type} [DecidableEq R]

/-- The processes before any of them has done anything. -/
def start (contents : CStr) (writer : Proc) (proc : R → Proc) : FileMem R where
  contents := contents
  buffer := []
  writer := writer
  reader r := ⟨proc r, none, none⟩
  held _ := ∅

/-- Change what there is of one process. -/
def setReader (m : FileMem R) (r : R) (v : Reader) : FileMem R :=
  { m with reader := Function.update m.reader r v }

/-- A refresh opens the file. -/
def opened (m : FileMem R) (r : R) : FileMem R :=
  { m.setReader r { m.reader r with began := none, old := some (m.reader r).proc.userOffset } with
    held := Function.update m.held r
      (insert (m.reader r).proc.userOffset {offset | fileOffset m.contents = some offset}) }

/-- What has been printed is written to the file. -/
def flushed (m : FileMem R) : FileMem R :=
  { m with
    contents := m.buffer
    held := fun r => m.held r ∪ {offset | fileOffset m.buffer = some offset} }

/-- The text a refresh reads, and how much of it has been read: with the first `read` it is what
is in the file. -/
def reading (m : FileMem R) (r : R) : CStr × ℕ := (m.reader r).began.getD (m.contents, 0)

/-- **What a call may answer, and what it makes of the file and the processes.** The process that
sets the clock is `none`; its own query is left open, as it has nothing to do with the file it
writes. A file that cannot be closed may have been written or not. -/
def Answers (file : CStr) (m : FileMem R) : Option R → (o : Op) → o.Ans → FileMem R → Prop
  | _, .getenv .faketimeTimestampFile, r, m' => r = some file ∧ m' = m
  | some r, .load, s, m' => s = (m.reader r).proc ∧ m' = m
  | some r, .store f, _, m' =>
    m' = m.setReader r { m.reader r with proc := f (m.reader r).proc }
  | some r, .openRead path, fd, m' =>
    if path = file then fd.isSome = true ∧ m' = m.opened r else m' = m
  | some r, .read _ count, .bytes l, m' => l <+: m.contents.drop (m.reading r).2 ∧
    l.length ≤ count ∧ (l = [] → count = 0 ∨ m.contents.drop (m.reading r).2 = []) ∧
    m' = m.setReader r
      { m.reader r with began := some ((m.reading r).1, (m.reading r).2 + l.length) }
  | none, .load, s, m' => s = m.writer ∧ m' = m
  | none, .store f, _, m' => m' = { m with writer := f m.writer }
  | none, .fopenWrite _, true, m' => m' = { m with contents := [], buffer := [] }
  | none, .fprintf text, true, m' => m' = { m with buffer := m.buffer ++ text }
  | none, .fclose, true, m' => m' = m.flushed
  | none, .fclose, false, m' => m' = m ∨ m' = m.flushed
  | _, _, _, m' => m' = m

/-- **A read that is not torn**, of a refresh that has begun with some text: the first read does
not find the file empty, and later ones find what is left of the text. -/
def ReadsOn (contents : CStr) : Option (CStr × ℕ) → Prop
  | none => contents ≠ []
  | some (text, position) => contents.drop position = text.drop position

/-- **A call that is not torn**: a read that is not, or the print of an offset in the range of the
parser. -/
def Untorn (m : FileMem R) : Option R → Op → Prop
  | some r, .read _ _ => ReadsOn m.contents (m.reader r).began
  | none, .fprintf text => ∃ d, OffsetFits d ∧ text = offsetText d ++ ['\n']
  | _, _ => True

end FileMem

/-- One process sets the clock, any number of others refresh their configuration; the calls are
those of `guard`. -/
def sharing {R : Type} [DecidableEq R] (B : Build) (file : CStr)
    (guard : FileMem R → Option R → Op → Prop) : Machine sys (Option R) (FileMem R) ℤ where
  ops t m o r m' := guard m t o ∧ m.Answers file t o r m'
  start t _ p :=
    match t with
    | none => ∃ clkId tp, p = clockSettime B clkId tp
    | some _ => p = readConfigFile B
  finish _ _ m m' := m' = m

/-! ### What a refresh sees -/

/-- The calls a refresh makes. -/
def Reader.Allowed (file : CStr) (v : Reader) : Op → Prop
  | .load | .store _ | .getenv _ | .close _ | .perror _ => True
  | .openRead path => path = file
  | .read _ _ => v.old.isSome = true
  | _ => False

/-- What a refresh sees of its calls as long as none of them is torn. -/
def Reader.Answers (file : CStr) (v : Reader) : (o : Op) → o.Ans → Reader → Prop
  | .getenv .faketimeTimestampFile, r, v' => r = some file ∧ v' = v
  | .load, s, v' => s = v.proc ∧ v' = v
  | .store f, _, v' => v' = { v with proc := f v.proc }
  | .openRead _, fd, v' => fd.isSome = true ∧
    v' = { v with began := none, old := some v.proc.userOffset }
  | .read _ count, .bytes l, v' => ∃ text position,
    (v.began = some (text, position) ∨
      v.began = none ∧ position = 0 ∧ text ≠ [] ∧ (fileOffset text).isSome = true) ∧
    l <+: text.drop position ∧ l.length ≤ count ∧ (l = [] → count = 0 ∨ text.drop position = []) ∧
    v' = { v with began := some (text, position + l.length) }
  | _, _, v' => v' = v

/-- **A refresh is done**: the process follows the offset it followed before, or that of the text
it has read. -/
def Reader.Done (v : Reader) : Prop :=
  ∃ offset, v.proc.FollowsOffset offset ∧ v.old.isSome = true ∧
    (v.old = some offset ∨
      ∃ text position, v.began = some (text, position) ∧ fileOffset text = some offset)

section Refresh

variable {B : Build} {file : CStr} {v : Reader}

theorem Reader.wp_load {β : Type} {f : Proc → Sys β} {Q : β → Reader → Prop}
    (h : (f v.proc).Wp (Reader.Allowed file) (Reader.Answers file) Q v) :
    (load >>= f).Wp (Reader.Allowed file) (Reader.Answers file) Q v := by
  refine ⟨trivial, ?_⟩
  rintro s v' ⟨rfl, rfl⟩
  exact h

theorem Reader.wp_store {β : Type} {g : Proc → Proc} {f : Unit → Sys β} {Q : β → Reader → Prop}
    (h : (f ()).Wp (Reader.Allowed file) (Reader.Answers file) Q { v with proc := g v.proc }) :
    (store g >>= f).Wp (Reader.Allowed file) (Reader.Answers file) Q v := by
  refine ⟨trivial, ?_⟩
  rintro - v' rfl
  exact h

/-- An offset is taken over. -/
theorem wp_parseOffset_denotes {text : CStr} {offset : Timespec} (h : DenotesOffset text offset)
    (hmode : v.proc.ftMode ≠ .noop) :
    (parseOffset text).Wp (Reader.Allowed file) (Reader.Answers file) (fun _ v' => v' = { v with
      proc := { v.proc with
        ftMode := .startAt
        userOffset := offset
        userFakedTimeTimespec := timespecadd v.proc.ftplStarttime.real offset } }) v := by
  obtain ⟨frac, factor, hsplit, hoffset⟩ := h.number
  refine Reader.wp_store ?_
  rw [if_pos hmode, hsplit]
  dsimp only
  rw [if_neg (by simp), hoffset]
  refine Reader.wp_store ⟨trivial, ?_⟩
  rintro - v' rfl
  rfl

theorem wp_parseModifiers_denotes {text : CStr} {offset : Timespec}
    (h : DenotesOffset text offset) :
    (parseModifiers text).Wp (Reader.Allowed file) (Reader.Answers file)
      (fun _ v' => v' = v) v := by
  unfold parseModifiers
  rw [h.noRate]
  dsimp only
  rw [h.noTick]
  exact rfl

/-- **A text that denotes an offset is applied**, unless it is the one that is followed
already. -/
theorem wp_parseFtString_denotes {text : CStr} {offset offset' : Timespec}
    (h : DenotesOffset text offset) (hv : v.proc.FollowsOffset offset') :
    (parseFtString B text).Wp (Reader.Allowed file) (Reader.Answers file) (fun _ v' =>
      v'.proc.FollowsOffset offset ∧ v'.began = v.began ∧ v'.old = v.old) v := by
  obtain ⟨saved, hsaved, hfollows⟩ := hv
  have hsavedText : v.proc.userFakedTimeSaved = saved :=
    (congrArg Proc.userFakedTimeSaved hfollows).symm
  have hmode : v.proc.ftMode ≠ .noop := by
    rw [← hfollows]
    exact FtMode.noConfusion
  refine Reader.wp_load ?_
  rw [hsavedText]
  split
  next heq =>
    -- the same text denotes the same offset
    obtain rfl := (h.unchanged_iff (denotesOffset_iff.mp hsaved)).mp heq
    have hsame : offset = offset' :=
      Option.some.inj ((denotesOffset_iff.mpr h).symm.trans hsaved)
    exact ⟨⟨saved, hsame ▸ hsaved, hsame ▸ hfollows⟩, rfl, rfl⟩
  next =>
    have hprefix : (parseByPrefix B text).Wp (Reader.Allowed file) (Reader.Answers file)
        (fun _ v' => v' = { v with
          proc := { v.proc with
            ftMode := .startAt
            userOffset := offset
            userFakedTimeTimespec := timespecadd v.proc.ftplStarttime.real offset } }) v := by
      have hboth : (parseOffset text >>= fun _ => parseModifiers text).Wp (Reader.Allowed file)
          (Reader.Answers file) (fun _ v' => v' = { v with
            proc := { v.proc with
              ftMode := .startAt
              userOffset := offset
              userFakedTimeTimespec := timespecadd v.proc.ftplStarttime.real offset } }) v := by
        refine (wp_parseOffset_denotes h hmode).bind ?_
        rintro - _ rfl
        exact wp_parseModifiers_denotes h
      unfold parseByPrefix
      rcases h.sign with hs | hs
      · rw [hs]
        exact hboth
      · rw [hs]
        exact hboth
    refine hprefix.bind ?_
    rintro - _ rfl
    refine ⟨trivial, ?_⟩
    rintro - _ rfl
    refine ⟨⟨text, denotesOffset_iff.mpr h, ?_⟩, rfl, rfl⟩
    have htake : text.take (bufferlen - 1) = text :=
      List.take_of_length_le (Nat.le_pred_of_lt h.short)
    dsimp only
    rw [htake]
    rfl

/-- What a refresh keeps while it reads the text it has begun with. -/
structure Reader.Reading (s : Proc) (old : Timespec) (text : CStr) (v : Reader) : Prop where
  proc : v.proc = s
  old : v.old = some old
  began : ∃ position, v.began = some (text, position)

/-- What is left of the text. -/
def Reader.rest (v : Reader) : CStr :=
  match v.began with
  | some (text, position) => text.drop position
  | none => []

theorem readsOpen_reader {s : Proc} {old : Timespec} {text : CStr} :
    ReadsOpen (Reader.Allowed file) (Reader.Answers file) Reader.rest
      (Reader.Reading s old text) where
  allowed := by
    intro v o hv ho
    cases o <;> first | trivial | exact ho.elim | exact Option.isSome_iff_exists.mpr ⟨old, hv.old⟩
  keeps := by
    intro v o r v' hv ho hr
    cases o with
    | read fd count =>
      cases r with
      | failed =>
        obtain rfl : v' = v := hr
        exact hv
      | bytes l =>
        obtain ⟨text', position, hbegan, -, -, -, rfl⟩ := hr
        obtain ⟨position', hv'⟩ := hv.began
        refine ⟨hv.proc, hv.old, position + l.length, ?_⟩
        rcases hbegan with hbegan | ⟨hbegan, -⟩
        · rw [hv'] at hbegan
          cases hbegan
          rfl
        · rw [hv'] at hbegan
          cases hbegan
    | close fd =>
      obtain rfl : v' = v := hr
      exact hv
    | perror msg =>
      obtain rfl : v' = v := hr
      exact hv
    | _ => exact ho.elim
  read := by
    rintro v fd count l v' hv ⟨text', position, hbegan, hpre, hle, hnil, rfl⟩
    obtain ⟨position', hv'⟩ := hv.began
    rcases hbegan with hbegan | ⟨hbegan, -⟩
    · have hrest : v.rest = text'.drop position := by rw [Reader.rest, hbegan]
      rw [hrest]
      refine ⟨hpre, hle, hnil, ?_⟩
      rw [List.drop_drop]
      rfl
    · rw [hv'] at hbegan
      cases hbegan

/-- A file that cannot be read is closed and reported. -/
theorem wp_checkedContents_failed {s : Proc} {old : Timespec} {fd : ℕ} {buffer : CStr}
    (hs : v.proc = s) (hold : v.old = some old) :
    (checkedContents fd buffer (-1)).Wp (Reader.Allowed file) (Reader.Answers file) (fun r v' =>
      v'.proc = s ∧ v'.old = some old ∧ r = .error (-1)) v := by
  have herror : ∀ msg v₁, v₁ = v → (perror msg >>= fun _ => pure (.error (-1)) :
      Sys (Except ℤ CStr)).Wp (Reader.Allowed file) (Reader.Answers file) (fun r v' =>
        v'.proc = s ∧ v'.old = some old ∧ r = .error (-1)) v₁ := by
    rintro msg _ rfl
    refine ⟨trivial, ?_⟩
    rintro - _ rfl
    exact ⟨hs, hold, rfl⟩
  refine ⟨trivial, fun closed v₁ hclose => ?_⟩
  dsimp only [Prog.bind]
  split
  · exact herror _ _ hclose
  · rw [if_neg (by decide), if_pos (by decide)]
    exact herror _ _ hclose

/-- **A file is read as a whole**, if it is read at all. -/
theorem wp_configContents_reader {s : Proc} {old : Timespec} {fd : ℕ} (hs : v.proc = s)
    (hold : v.old = some old) (hbegan : v.began = none) :
    (configContents fd).Wp (Reader.Allowed file) (Reader.Answers file) (fun r v' =>
      v'.proc = s ∧ v'.old = some old ∧ ∀ contents, r = .ok contents →
        (fileOffset contents).isSome = true ∧
          ∃ position, v'.began = some (contents, position)) v := by
  unfold configContents
  -- the first turn of the loop, which decides about the text
  have hfirst : (readLoop bufferlen fd [] 0).Wp (Reader.Allowed file) (Reader.Answers file)
      (fun r v' => v'.proc = s ∧ v'.old = some old ∧ (r.2 = -1 ∧ r.1 = [] ∨
        ∃ text, (fileOffset text).isSome = true ∧ Reader.Reading s old text v' ∧
          (r.2 = 0 → r.1 = text))) v := by
    rw [show bufferlen = (bufferlen - 1) + 1 by decide, readLoop, if_pos (by decide)]
    refine ⟨Option.isSome_iff_exists.mpr ⟨old, hold⟩, ?_⟩
    intro r v₁ hread
    cases r with
    | failed =>
      obtain rfl : v₁ = v := hread
      exact ⟨hs, hold, Or.inl ⟨rfl, rfl⟩⟩
    | bytes l =>
      obtain ⟨text, position, hfrom, hpre, hle, hnil, rfl⟩ := hread
      obtain ⟨-, rfl, hne, hoffset⟩ := hfrom.resolve_left fun h => by
        rw [hbegan] at h
        cases h
      rw [List.drop_zero] at hpre hnil
      have hl : l ≠ [] := fun hl => (hnil hl).elim (fun h => absurd h (by decide)) hne
      have hpos : 0 < l.length := List.length_pos_iff.mpr hl
      have hroom : l.length ≤ bufferlen - 1 := hle
      have hv₁ : Reader.Reading s old text { v with began := some (text, 0 + l.length) } :=
        ⟨hs, hold, _, rfl⟩
      have hrest : [] ++ l ++ Reader.rest { v with began := some (text, 0 + l.length) } = text := by
        rw [Reader.rest, List.nil_append, Nat.zero_add]
        exact List.prefix_iff_eq_append.mp hpre
      dsimp only [Prog.bind]
      rw [if_neg hl]
      refine (wp_readLoop readsOpen_reader _ _ _ _ hv₁ hrest ?_ ?_ ?_).mono ?_
      · rw [List.nil_append]
        omega
      · omega
      · rw [List.nil_append]
        omega
      · rintro r v₂ ⟨hv₂, -, hall⟩
        exact ⟨hv₂.proc, hv₂.old, Or.inr ⟨text, hoffset, hv₂, hall⟩⟩
  refine hfirst.bind ?_
  rintro ⟨buffer, bytes⟩ v₁ ⟨hs₁, hold₁, ⟨rfl, rfl⟩ | ⟨text, hoffset, hv₁, hall⟩⟩
  · unfold probeEnd
    rw [if_neg (by decide)]
    refine (wp_checkedContents_failed hs₁ hold₁).mono ?_
    rintro _ v₂ ⟨hs₂, hold₂, rfl⟩
    exact ⟨hs₂, hold₂, fun contents h => by cases h⟩
  · refine (wp_probeEnd readsOpen_reader _ _ _ hv₁).bind ?_
    rintro bytes' v₂ ⟨hv₂, hzero⟩
    refine (wp_checkedContents readsOpen_reader _ _ _ hv₂).mono ?_
    rintro r v₃ ⟨hv₃, hok⟩
    refine ⟨hv₃.proc, hv₃.old, fun contents hr => ?_⟩
    obtain ⟨hb, rfl⟩ := hok contents hr
    rw [show contents = text from hall (hzero hb)]
    exact ⟨hoffset, hv₃.began⟩

/-- **A refresh follows the file.** -/
theorem wp_readConfigFile_reader {offset : Timespec} (hne : file ≠ [])
    (hshort : file.length < bufsiz) (hv : v.proc.FollowsOffset offset) :
    (readConfigFile B).Wp (Reader.Allowed file) (Reader.Answers file) (fun _ v' => v'.Done) v := by
  have hpath : boundedPath (some file) [] = file := by
    rw [boundedPath, List.append_nil, if_pos ⟨hne, hshort⟩]
  have hfind : findConfig.Wp (Reader.Allowed file) (Reader.Answers file) (fun r v' =>
      v'.proc = v.proc ∧ v'.old = some v.proc.userOffset ∧ ∀ contents, r = .ok contents →
        (fileOffset contents).isSome = true ∧
          ∃ position, v'.began = some (contents, position)) v := by
    refine ⟨trivial, ?_⟩
    rintro _ _ ⟨rfl, rfl⟩
    refine ⟨trivial, ?_⟩
    rintro home _ rfl
    dsimp only [Prog.bind]
    rw [hpath, openConfig, List.filter_cons_of_pos (by simpa using hne), List.cons_append,
      openFirst]
    refine ⟨rfl, ?_⟩
    rintro fd _ ⟨hfd, rfl⟩
    obtain ⟨fd, rfl⟩ := Option.isSome_iff_exists.mp hfd
    exact wp_configContents_reader rfl rfl rfl
  refine hfind.bind ?_
  rintro r v₁ ⟨hproc, hold, htext⟩
  have hsome : v₁.old.isSome = true := by rw [hold]; rfl
  have hv₁ : v₁.proc.FollowsOffset offset := hproc ▸ hv
  have hoffset : v.proc.userOffset = offset := by
    obtain ⟨text, -, hfollows⟩ := hv
    rw [← hfollows]
    rfl
  cases r with
  | error result => exact ⟨offset, hv₁, hsome, Or.inl (hoffset ▸ hold)⟩
  | ok contents =>
    obtain ⟨hdenotes, position, hbegan⟩ := htext contents rfl
    obtain ⟨new, hnew⟩ := Option.isSome_iff_exists.mp hdenotes
    refine (wp_parseFtString_denotes (denotesOffset_iff.mp hnew) hv₁).bind ?_
    rintro - v₂ ⟨hfollows, hbegan₂, hold₂⟩
    exact ⟨new, hfollows, hold₂ ▸ hsome,
      Or.inr ⟨contents, position, hbegan₂.trans hbegan, hnew⟩⟩

end Refresh

/-! ### What the process that sets the clock writes -/

/-- What is printed is printed to a file that has just been opened; `buffer` is what has been
printed to it. -/
def PrintsOnce (buffer : CStr) : Op → Prop
  | .fprintf _ => buffer = []
  | _ => True

/-- Any call but a print. -/
def Op.PrintsNothing : Op → Prop
  | .fprintf _ => False
  | _ => True

/-- What has been printed after a call. -/
def Printed (buffer : CStr) : (o : Op) → o.Ans → CStr → Prop
  | .fopenWrite _, true, buffer' => buffer' = []
  | .fprintf text, true, buffer' => buffer' = buffer ++ text
  | _, _, buffer' => buffer' = buffer

/-- The end of `clock_settime`, once the offset is known. -/
def applyOffset (offset : ℚ) : Sys ℤ := do
  if bufferlen ≤ (printfPlusF offset).length then pure (-1)
  else
    store fun s => { s with parseConfigFile := false }
    if !(← setenv .faketime (printfPlusF offset)) then pure (-1)
    else
      store fun s => { s with forceCacheExpiration := true }
      updateTimestampFile offset
      pure 0

section Writer

variable {B : Build} {buffer : CStr}

/-- A program that prints nothing may run at any time. -/
theorem wp_of_prints_nothing {β : Type} {p : Sys β} (hp : p.Uses Op.PrintsNothing) :
    p.Wp PrintsOnce Printed (fun _ _ => True) buffer := by
  induction p generalizing buffer with
  | ret a => trivial
  | op o k ih =>
    refine ⟨?_, fun r buffer' _ => ih r (hp.2 r)⟩
    cases o with
    | fprintf text => exact hp.1.elim
    | _ => trivial

theorem wp_updateTimestampFile (offset : ℚ) :
    (updateTimestampFile offset).Wp PrintsOnce Printed (fun _ _ => True) buffer := by
  have hreport : ∀ msg buffer', (perror msg : Sys Unit).Wp PrintsOnce Printed (fun _ _ => True)
      buffer' := fun _ _ => ⟨trivial, fun _ _ _ => trivial⟩
  refine ⟨trivial, fun path v₁ h₁ => ?_⟩
  cases path with
  | none => exact trivial
  | some path =>
    dsimp only [Prog.bind]
    split
    · exact trivial
    · refine ⟨trivial, fun update v₂ h₂ => ?_⟩
      dsimp only [Prog.bind]
      split
      · split
        · exact hreport _ _
        · refine ⟨trivial, fun opened v₃ h₃ => ?_⟩
          cases opened with
          | false => exact hreport _ _
          | true =>
            obtain rfl : v₃ = [] := h₃
            refine ⟨rfl, fun written v₄ h₄ => ⟨trivial, fun closed v₅ h₅ => ?_⟩⟩
            dsimp only [Prog.bind]
            split
            · exact hreport _ _
            · split
              · exact hreport _ _
              · exact trivial
      · exact trivial

theorem wp_applyOffset (offset : ℚ) :
    (applyOffset offset).Wp PrintsOnce Printed (fun _ _ => True) buffer := by
  unfold applyOffset
  split
  · exact trivial
  · refine ⟨trivial, fun _ v₁ _ => ⟨trivial, fun set v₂ _ => ?_⟩⟩
    dsimp only [Prog.bind]
    split
    · exact trivial
    · exact ⟨trivial, fun _ v₃ _ => (wp_updateTimestampFile offset).bind fun _ _ _ => trivial⟩

/-- **`clock_settime` prints one text to a file it has opened**, at most. -/
theorem wp_clockSettime (clkId : ClockId) (tp : Timespec) :
    (clockSettime B clkId tp).Wp PrintsOnce Printed (fun _ _ => True) buffer := by
  have hread : (clockGettime B clkId).Uses Op.PrintsNothing := by
    refine uses_perform_bind trivial fun r => ?_
    cases r with
    | none => exact uses_pure _
    | some t =>
      refine uses_perform_bind trivial fun s => ?_
      split
      · refine ((@prompt_fakeClockGettime True B trivial clkId t).mono ?_).bind
          fun _ => uses_pure _
        intro o ho
        cases o <;> first | trivial | exact ho.1
      · exact uses_pure _
  unfold clockSettime
  split
  · exact trivial
  · refine ⟨trivial, fun orig v₁ _ => ?_⟩
    have hrest : ∀ v, (clockGettime B clkId >>= fun r => setDontFake orig >>= fun _ =>
        applyOffset (settimeOffset tp (r.2.getD .unset))).Wp PrintsOnce Printed
          (fun _ _ => True) v := fun v =>
      (wp_of_prints_nothing hread).bind fun r v₂ _ => ⟨trivial, fun _ v₃ _ => wp_applyOffset _⟩
    cases orig with
    | true => exact hrest v₁
    | false => exact ⟨trivial, fun _ v₂ _ => hrest v₂⟩

end Writer

/-! ### All of them together -/

/-- **What is known of the file and of those who read it**: the file is empty or the text of an
offset, and so is what has been printed, and the offset a process comes from, that of the text it
has begun to read and that of the file are among those the file has held. -/
structure FileMem.Sound {R : Type} (m : FileMem R) : Prop where
  contents : m.contents = [] ∨ (fileOffset m.contents).isSome = true
  buffer : m.buffer = [] ∨ (fileOffset m.buffer).isSome = true
  old : ∀ r offset, (m.reader r).old = some offset → offset ∈ m.held r
  now : ∀ r offset, (m.reader r).old.isSome = true → fileOffset m.contents = some offset →
    offset ∈ m.held r
  began : ∀ r text position offset, (m.reader r).began = some (text, position) →
    fileOffset text = some offset → offset ∈ m.held r

section Sharing

variable {R : Type} [DecidableEq R] {B : Build} {file : CStr} {m m' : FileMem R}

/-- A process changes its variables. -/
theorem FileMem.Sound.setProc (h : m.Sound) (r : R) (s : Proc) :
    (m.setReader r { m.reader r with proc := s }).Sound := by
  have hold : ∀ u, ((m.setReader r { m.reader r with proc := s }).reader u).old =
      (m.reader u).old ∧ ((m.setReader r { m.reader r with proc := s }).reader u).began =
        (m.reader u).began := by
    intro u
    rcases eq_or_ne u r with rfl | hu
    · simp only [FileMem.setReader, Function.update_self, and_self]
    · simp only [FileMem.setReader, Function.update_of_ne hu, and_self]
  refine ⟨h.contents, h.buffer, fun u offset hu => ?_, fun u offset hu => ?_,
    fun u text position offset hu => ?_⟩
  · rw [(hold u).1] at hu
    exact h.old u offset hu
  · rw [(hold u).1] at hu
    exact h.now u offset hu
  · rw [(hold u).2] at hu
    exact h.began u text position offset hu

/-- A refresh opens the file. -/
theorem FileMem.Sound.opened (h : m.Sound) (r : R) : (m.opened r).Sound := by
  refine ⟨h.contents, h.buffer, fun u offset hu => ?_, fun u offset hu hoffset => ?_,
    fun u text position offset hu hoffset => ?_⟩
  all_goals rcases eq_or_ne u r with rfl | hne
  · simp only [FileMem.opened, FileMem.setReader, Function.update_self] at hu ⊢
    exact Or.inl (Option.some.inj hu).symm
  · simp only [FileMem.opened, FileMem.setReader, Function.update_of_ne hne] at hu ⊢
    exact h.old u offset hu
  · simp only [FileMem.opened, Function.update_self]
    exact Or.inr hoffset
  · simp only [FileMem.opened, FileMem.setReader, Function.update_of_ne hne] at hu ⊢
    exact h.now u offset hu hoffset
  · simp only [FileMem.opened, FileMem.setReader, Function.update_self] at hu
    cases hu
  · simp only [FileMem.opened, FileMem.setReader, Function.update_of_ne hne] at hu ⊢
    exact h.began u text position offset hu hoffset

/-- A refresh reads. -/
theorem FileMem.Sound.read (h : m.Sound) (r : R) (n : ℕ) (hold : (m.reader r).old.isSome = true) :
    (m.setReader r
      { m.reader r with began := some ((m.reading r).1, (m.reading r).2 + n) }).Sound := by
  refine ⟨h.contents, h.buffer, fun u offset hu => ?_, fun u offset hu hoffset => ?_,
    fun u text position offset hu hoffset => ?_⟩
  all_goals rcases eq_or_ne u r with rfl | hne
  · simp only [FileMem.setReader, Function.update_self] at hu
    exact h.old u offset hu
  · simp only [FileMem.setReader, Function.update_of_ne hne] at hu
    exact h.old u offset hu
  · exact h.now u offset hold hoffset
  · simp only [FileMem.setReader, Function.update_of_ne hne] at hu
    exact h.now u offset hu hoffset
  · simp only [FileMem.setReader, Function.update_self] at hu
    obtain ⟨rfl, -⟩ := Prod.mk.inj (Option.some.inj hu)
    unfold FileMem.reading at hoffset
    cases hbegan : (m.reader u).began with
    | none =>
      rw [hbegan] at hoffset
      exact h.now u offset hold hoffset
    | some began =>
      rw [hbegan] at hoffset
      exact h.began u began.1 began.2 offset hbegan hoffset
  · simp only [FileMem.setReader, Function.update_of_ne hne] at hu
    exact h.began u text position offset hu hoffset

omit [DecidableEq R] in
/-- What has been printed is in the file. -/
theorem FileMem.Sound.flushed (h : m.Sound) : m.flushed.Sound where
  contents := h.buffer
  buffer := h.buffer
  old r offset hold := Or.inl (h.old r offset hold)
  now _ _ _ hoffset := Or.inr hoffset
  began r text position offset hbegan hoffset :=
    Or.inl (h.began r text position offset hbegan hoffset)

theorem fileOffset_nil : fileOffset [] = none := by
  unfold fileOffset textOffset
  exact if_neg fun h => by simpa [prepareConfigContents, prepareLoop] using h.1

omit [DecidableEq R] in
/-- The file is emptied. -/
theorem FileMem.Sound.truncated (h : m.Sound) :
    FileMem.Sound { m with contents := [], buffer := [] } where
  contents := Or.inl rfl
  buffer := Or.inl rfl
  old := h.old
  now r offset _ hoffset := by
    rw [fileOffset_nil] at hoffset
    cases hoffset
  began := h.began

omit [DecidableEq R] in
/-- A text is printed. -/
theorem FileMem.Sound.printed (h : m.Sound) {text : CStr} (hempty : m.buffer = [])
    (htext : (fileOffset text).isSome = true) :
    FileMem.Sound { m with buffer := m.buffer ++ text } where
  contents := h.contents
  buffer := Or.inr (by rw [hempty]; exact htext)
  old := h.old
  now := h.now
  began := h.began

/-- The step of the process that sets the clock. -/
theorem writer_answers {o : Op} {r : o.Ans} (h : m.Sound) (hprints : PrintsOnce m.buffer o)
    (hguard : m.Untorn none o) (ho : m.Answers file none o r m') :
    m'.Sound ∧ Printed m.buffer o r m'.buffer ∧ m'.reader = m.reader := by
  cases o with
  | fopenWrite path =>
    cases r with
    | true =>
      obtain rfl : m' = { m with contents := [], buffer := [] } := ho
      -- from here on the file is empty, until the buffer is written
      exact ⟨h.truncated, rfl, rfl⟩
    | false =>
      obtain rfl : m' = m := ho
      exact ⟨h, rfl, rfl⟩
  | fprintf text =>
    cases r with
    | true =>
      obtain rfl : m' = { m with buffer := m.buffer ++ text } := ho
      obtain ⟨d, hd, rfl⟩ := hguard
      exact ⟨h.printed hprints (by rw [fileOffset_offsetText hd]; rfl), rfl, rfl⟩
    | false =>
      obtain rfl : m' = m := ho
      exact ⟨h, rfl, rfl⟩
  | fclose =>
    cases r with
    | true =>
      obtain rfl : m' = m.flushed := ho
      exact ⟨h.flushed, rfl, rfl⟩
    | false =>
      -- a close that fails may have written the buffer all the same
      obtain rfl | rfl : m' = m ∨ m' = m.flushed := ho
      · exact ⟨h, rfl, rfl⟩
      · exact ⟨h.flushed, rfl, rfl⟩
  | store f =>
    obtain rfl : m' = { m with writer := f m.writer } := ho
    exact ⟨⟨h.contents, h.buffer, h.old, h.now, h.began⟩, rfl, rfl⟩
  | load =>
    obtain ⟨-, rfl⟩ : r = m.writer ∧ m' = m := ho
    exact ⟨h, rfl, rfl⟩
  | getenv x =>
    have hm : m' = m := by
      cases x with
      | faketimeTimestampFile => exact ho.2
      | _ => exact ho
    subst hm
    exact ⟨h, rfl, rfl⟩
  | _ =>
    obtain rfl : m' = m := ho
    exact ⟨h, rfl, rfl⟩

/-- The step of a process that refreshes its configuration. -/
theorem reader_answers {u : R} {o : Op} {r : o.Ans} (h : m.Sound)
    (hallowed : Reader.Allowed file (m.reader u) o) (hguard : m.Untorn (some u) o)
    (ho : m.Answers file (some u) o r m') :
    m'.Sound ∧ Reader.Answers file (m.reader u) o r (m'.reader u) ∧ m'.buffer = m.buffer ∧
      ∀ u', u' ≠ u → m'.reader u' = m.reader u' := by
  have hsame : ∀ v, ∀ u', u' ≠ u → (m.setReader u v).reader u' = m.reader u' := fun v u' hu =>
    Function.update_of_ne hu ..
  have hself : ∀ v, (m.setReader u v).reader u = v := fun v => Function.update_self ..
  cases o with
  | load =>
    obtain ⟨rfl, rfl⟩ : r = (m.reader u).proc ∧ m' = m := ho
    exact ⟨h, ⟨rfl, rfl⟩, rfl, fun _ _ => rfl⟩
  | store f =>
    obtain rfl : m' = _ := ho
    exact ⟨h.setProc u _, hself _, rfl, hsame _⟩
  | getenv x =>
    cases x with
    | faketimeTimestampFile =>
      obtain ⟨rfl, rfl⟩ := ho
      exact ⟨h, ⟨rfl, rfl⟩, rfl, fun _ _ => rfl⟩
    | _ =>
      obtain rfl : m' = m := ho
      exact ⟨h, rfl, rfl, fun _ _ => rfl⟩
  | openRead path =>
    obtain rfl : path = file := hallowed
    obtain ⟨hfd, rfl⟩ : r.isSome = true ∧ m' = m.opened u := (if_pos rfl).mp ho
    exact ⟨h.opened u, ⟨hfd, hself _⟩, rfl, hsame _⟩
  | read fd count =>
    cases r with
    | failed =>
      obtain rfl : m' = m := ho
      exact ⟨h, rfl, rfl, fun _ _ => rfl⟩
    | bytes l =>
      obtain ⟨hpre, hle, hnil, rfl⟩ := ho
      -- a read that is not torn goes on in the text it has begun, or begins one that is whole
      have hrest : m.contents.drop (m.reading u).2 = (m.reading u).1.drop (m.reading u).2 ∧
          ((m.reader u).began = some (m.reading u) ∨ (m.reader u).began = none ∧
            (m.reading u).2 = 0 ∧ (m.reading u).1 ≠ [] ∧
              (fileOffset (m.reading u).1).isSome = true) := by
        have hreads : FileMem.ReadsOn m.contents (m.reader u).began := hguard
        unfold FileMem.reading
        cases hbegan : (m.reader u).began with
        | none =>
          rw [hbegan] at hreads
          exact ⟨rfl, Or.inr ⟨rfl, rfl, hreads, h.contents.resolve_left hreads⟩⟩
        | some began =>
          rw [hbegan] at hreads
          exact ⟨hreads, Or.inl rfl⟩
      rw [hrest.1] at hpre hnil
      exact ⟨h.read u _ hallowed, ⟨_, _, hrest.2, hpre, hle, hnil, hself _⟩, rfl, hsame _⟩
  | close fd =>
    obtain rfl : m' = m := ho
    exact ⟨h, rfl, rfl, fun _ _ => rfl⟩
  | perror msg =>
    obtain rfl : m' = m := ho
    exact ⟨h, rfl, rfl, fun _ _ => rfl⟩
  | _ => exact hallowed.elim

omit [DecidableEq R] in
theorem sound_start {contents : CStr} {writer : Proc} {proc : R → Proc}
    (hcontents : (fileOffset contents).isSome = true) :
    (FileMem.start contents writer proc).Sound where
  contents := Or.inr hcontents
  buffer := Or.inl rfl
  old _ _ h := by cases h
  now _ _ h := by cases h
  began _ _ _ _ h := by cases h

/-- What a process sees: of the file it writes what has been printed to it, or else itself. -/
def SharingView (R : Type) : Option R → Type
  | none => CStr
  | some _ => Reader

/-- **Every process for itself**: the one that sets the clock prints what denotes an offset, and a
refresh reads such a text as a whole. -/
def sharingViews (B : Build) {file : CStr} (hne : file ≠ []) (hshort : file.length < bufsiz) :
    (sharing B file (FileMem.Untorn (R := R))).Views where
  View := SharingView R
  view
    | none, m => m.buffer
    | some r, m => m.reader r
  allowed
    | none, buffer, o => PrintsOnce buffer o
    | some _, v, o => Reader.Allowed file v o
  answers
    | none, buffer, o, r, buffer' => Printed buffer o r buffer'
    | some _, v, o, r, v' => Reader.Answers file v o r v'
  done
    | none, _, _ => True
    | some _, _, v => Reader.Done v
  idle
    | none, _ => True
    | some r, m => ∃ offset, (m.reader r).proc.FollowsOffset offset
  inv m := m.Sound
  start := by
    intro t m p _ hidle hp
    cases t with
    | none =>
      obtain ⟨clkId, tp, rfl⟩ := hp
      exact wp_clockSettime clkId tp
    | some r =>
      obtain rfl : p = readConfigFile B := hp
      obtain ⟨offset, hoffset⟩ := hidle
      exact wp_readConfigFile_reader hne hshort hoffset
  call := by
    rintro t m o r m' hinv hallowed ⟨hguard, ho⟩
    cases t with
    | none =>
      obtain ⟨hinv', hprinted, hreader⟩ := writer_answers hinv hallowed hguard ho
      refine ⟨hinv', hprinted, fun u hu => ?_⟩
      cases u with
      | none => exact absurd rfl hu
      | some u =>
        have hu : m'.reader u = m.reader u := congrFun hreader u
        exact ⟨hu, fun ⟨offset, h⟩ => ⟨offset, hu ▸ h⟩⟩
    | some t =>
      obtain ⟨hinv', hanswers, hbuffer, hothers⟩ := reader_answers hinv hallowed hguard ho
      refine ⟨hinv', hanswers, fun u hu => ?_⟩
      cases u with
      | none => exact ⟨hbuffer, fun h => h⟩
      | some u =>
        have hu' : m'.reader u = m.reader u := hothers u fun h => hu (h ▸ rfl)
        exact ⟨hu', fun ⟨offset, h⟩ => ⟨offset, hu' ▸ h⟩⟩
  finish := by
    rintro t a m _ hinv hdone rfl
    refine ⟨hinv, ?_, fun u _ => ⟨rfl, id⟩⟩
    cases t with
    | none => trivial
    | some r =>
      obtain ⟨offset, hoffset, -⟩ := hdone
      exact ⟨offset, hoffset⟩

/-- **The processes follow the file**: none of them is being terminated, and one that comes out of
a refresh has the offset it had when it opened the file, or one the file has held since then. -/
def FollowsFile (s : Pool sys (Option R) (FileMem R) ℤ) : Prop :=
  ∀ r, (∀ code msg k, s.code (some r) ≠ some (.op (.exit code msg) k)) ∧
    ∀ a, s.code (some r) = some (.ret a) → (s.mem.reader r).proc.userOffset ∈ s.mem.held r

/-- **Readers of a shared clock follow an old or a new offset.** One process sets the clock by
writing to the file, over and over, and any number of others that have applied an offset refresh
their configuration from it, in any order of their calls. As long as no call is torn, they follow
the file. -/
theorem readers_follow_file {contents : CStr} {writer : Proc} {proc : R → Proc}
    {s : Pool sys (Option R) (FileMem R) ℤ} (hne : file ≠ []) (hshort : file.length < bufsiz)
    (hcontents : (fileOffset contents).isSome = true)
    (hproc : ∀ r, ∃ offset, (proc r).FollowsOffset offset)
    (h : (sharing B file FileMem.Untorn).Reach
      (Pool.init sys (Option R) ℤ (FileMem.start contents writer proc)) s) : FollowsFile s := by
  obtain ⟨hsound, hleft⟩ := (sharingViews B hne hshort).reach h (sound_start hcontents) fun t => by
    cases t with
    | none => trivial
    | some r => exact hproc r
  refine fun r => ⟨fun code msg k hc => (hleft (some r)).allows hc, fun a hc => ?_⟩
  obtain ⟨offset, ⟨text, -, hfollows⟩, hsome, hold | ⟨text', position, hbegan, hnew⟩⟩ :=
    (hleft (some r)).returns hc
  all_goals
    have huser : (s.mem.reader r).proc.userOffset = offset :=
      (congrArg Proc.userOffset hfollows).symm
    rw [huser]
  · exact hsound.old r offset hold
  · exact hsound.began r text' position offset hbegan hnew

end Sharing

/-! ### Processes on their own -/

theorem fiftyAhead_followsOffset : fiftyAhead.FollowsOffset ⟨50, 0⟩ :=
  ⟨"+50".toList, by decide +kernel, rfl⟩

/-- Two processes that are fifty seconds ahead, as the file says. -/
def fiftyShared : Pool sys (Option Unit) (FileMem Unit) ℤ :=
  Pool.init sys (Option Unit) ℤ (FileMem.start "+50\n".toList fiftyAhead fun _ => fiftyAhead)

/-- A process on its own, with the memory and its own `dont_fake`: the file is that of
`FAKETIME_TIMESTAMP_FILE`, and is updated; the real clocks show `⟨60, 0⟩`. It stops where it would
print or exit. -/
def onItsOwn (file : CStr) :
    Option Unit → Handler sys (FileMem Unit × Bool) (FileMem Unit × Option (ℤ × String))
  | _, (m, off), .getenv .faketimeTimestampFile => .ok (some file, m, off)
  | none, (m, off), .getenv .faketimeUpdateTimestampFile => .ok (some ['1'], m, off)
  | _, (m, off), .getenv _ => .ok (none, m, off)
  | none, (m, off), .load => .ok (m.writer, m, off)
  | none, (m, off), .store f => .ok ((), { m with writer := f m.writer }, off)
  | none, (m, off), .dontFake => .ok (off, m, off)
  | none, (m, _), .setDontFake off => .ok ((), m, off)
  | none, (m, off), .realClockGettime _ => .ok (some ⟨60, 0⟩, m, off)
  | none, (m, off), .setenv _ _ => .ok (true, m, off)
  | none, (m, off), .fopenWrite _ => .ok (true, { m with contents := [], buffer := [] }, off)
  | some r, (m, off), .load => .ok ((m.reader r).proc, m, off)
  | some r, (m, off), .store f =>
    .ok ((), m.setReader r { m.reader r with proc := f (m.reader r).proc }, off)
  | some r, (m, off), .openRead path =>
    if path = file then .ok (some 3, m.opened r, off) else .ok (none, m, off)
  | some r, (m, off), .read _ count =>
    .ok (.bytes ((m.contents.drop (m.reading r).2).take count), m.setReader r { m.reader r with
      began := some ((m.reading r).1,
        (m.reading r).2 + ((m.contents.drop (m.reading r).2).take count).length) }, off)
  | some _, (m, off), .close _ => .ok (true, m, off)
  | _, (m, _), .exit code msg => .error (m, some (code, msg))
  | _, (m, _), _ => .error (m, none)

theorem answers_of_onItsOwn {file : CStr} (t : Option Unit) (v : FileMem Unit × Bool) (o : Op)
    (r : o.Ans) (v' : FileMem Unit × Bool) (h : onItsOwn file t v o = .ok (r, v')) :
    v.1.Answers file t o r v'.1 := by
  obtain ⟨m, off⟩ := v
  cases t with
  | none =>
    cases o with
    | getenv x =>
      cases x
      case faketimeTimestampFile =>
        cases h
        exact ⟨rfl, rfl⟩
      all_goals
        cases h
        rfl
    | load =>
      cases h
      exact ⟨rfl, rfl⟩
    | store | dontFake | setDontFake | realClockGettime | setenv | fopenWrite =>
      cases h
      rfl
    | _ => cases h
  | some u =>
    cases o with
    | getenv x =>
      cases x
      case faketimeTimestampFile =>
        cases h
        exact ⟨rfl, rfl⟩
      all_goals
        cases h
        rfl
    | load =>
      cases h
      exact ⟨rfl, rfl⟩
    | openRead path =>
      have hopen : (if path = file then .ok (some 3, m.opened u, off) else .ok (none, m, off) :
          Except (FileMem Unit × Option (ℤ × String)) (Option ℕ × FileMem Unit × Bool)) =
            .ok (r, v') := h
      by_cases hp : path = file
      · rw [if_pos hp] at hopen
        cases hopen
        exact (if_pos hp).mpr ⟨rfl, rfl⟩
      · rw [if_neg hp] at hopen
        cases hopen
        exact (if_neg hp).mpr rfl
    | read fd count =>
      cases h
      have hpre := List.take_prefix count (m.contents.drop (m.reading u).2)
      exact ⟨hpre, List.length_take_le _ _, fun hnil => List.take_eq_nil_iff.mp hnil, rfl⟩
    | store | close =>
      cases h
      rfl
    | _ => cases h

theorem sharing_of_onItsOwn {B : Build} {file : CStr} (t : Option Unit) (v : FileMem Unit × Bool)
    (o : Op) (r : o.Ans) (v' : FileMem Unit × Bool) (h : onItsOwn file t v o = .ok (r, v')) :
    (sharing B file fun _ _ _ => True).ops t v.1 o r v'.1 :=
  ⟨trivial, answers_of_onItsOwn t v o r v' h⟩

/-! ### A refresh while the clock is being set -/

/-- The process that sets the clock, which prints this text and closes the file. -/
def printing (file text : CStr) :
    Handler sys (FileMem Unit × Bool) (FileMem Unit × Option (ℤ × String))
  | (m, off), .fprintf text' =>
    if text' = text then .ok (true, { m with buffer := m.buffer ++ text' }, off)
    else .error (m, none)
  | (m, off), .fclose => .ok (true, m.flushed, off)
  | v, o => onItsOwn file none v o

/-- The clock is set to `⟨100, 0⟩`. -/
def rewritten (m : FileMem Unit) : FileMem Unit :=
  match (clockSettime plainBuild .realtime ⟨100, 0⟩).run
    (printing "/clock".toList "+40.000000\n".toList) (m, false) with
  | .ok (_, m', _) => m'
  | .error _ => m

/-- A process that refreshes its configuration, while the clock is set before its first read. -/
def overtaken (m : FileMem Unit) (o : Op) : Except (FileMem Unit × Option (ℤ × String))
    (o.Ans × FileMem Unit) :=
  let m₁ := match o, (m.reader ()).began with
    | .read _ _, none => rewritten m
    | _, _ => m
  match o, (m.reader ()).began with
  | .openRead _, some _ => .error (m, none)
  | o, _ => (onItsOwn "/clock".toList (some ()) (m₁, false) o).map fun r => (r.1, r.2.1)

section Overtaken

variable {m m' : FileMem Unit} {o : Op} {r : o.Ans}

/-- Setting the clock prints one offset, and closes the file. -/
theorem sharing_of_printing (v : FileMem Unit × Bool) (o : Op) (r : o.Ans)
    (v' : FileMem Unit × Bool)
    (h : printing "/clock".toList "+40.000000\n".toList v o = .ok (r, v')) :
    (sharing plainBuild "/clock".toList FileMem.Untorn).ops none v.1 o r v'.1 := by
  obtain ⟨m, off⟩ := v
  cases o with
  | fprintf text =>
    have hprint : (if text = "+40.000000\n".toList then
        .ok (true, { m with buffer := m.buffer ++ text }, off) else .error (m, none) :
          Except (FileMem Unit × Option (ℤ × String)) (Bool × FileMem Unit × Bool)) =
            .ok (r, v') := h
    split at hprint
    next htext =>
      cases hprint
      exact ⟨⟨40000000000, by decide +kernel, by rw [htext]; decide +kernel⟩, rfl⟩
    next => cases hprint
  | fclose =>
    cases h
    exact ⟨trivial, rfl⟩
  | _ => exact ⟨trivial, answers_of_onItsOwn none _ _ _ _ h⟩

/-- What setting the clock leaves behind. -/
theorem rewritten_spec (hm : m.writer = fiftyAhead) :
    (sharing plainBuild "/clock".toList FileMem.Untorn).Runs none m
        (clockSettime plainBuild .realtime ⟨100, 0⟩) (rewritten m) (.ret 0) ∧
      (rewritten m).contents = "+40.000000\n".toList ∧ (rewritten m).reader = m.reader := by
  have hlen : ¬ bufferlen ≤ (printfPlusF (settimeOffset ⟨100, 0⟩ ⟨60, 0⟩)).length := by
    decide +kernel
  have htext : printfPlusF (settimeOffset ⟨100, 0⟩ ⟨60, 0⟩) = "+40.000000".toList := by
    decide +kernel
  have hoffset : (clockSettime plainBuild .realtime ⟨100, 0⟩).run
      (printing "/clock".toList "+40.000000\n".toList) (m, false) =
        (applyOffset (settimeOffset ⟨100, 0⟩ ⟨60, 0⟩)).run
          (printing "/clock".toList "+40.000000\n".toList) (m, false) := by
    obtain ⟨contents, buffer, writer, reader, held⟩ := m
    subst hm
    rfl
  have hrun : ∃ off, (clockSettime plainBuild .realtime ⟨100, 0⟩).run
      (printing "/clock".toList "+40.000000\n".toList) (m, false) =
        .ok (0, rewritten m, off) ∧ (rewritten m).contents = "+40.000000\n".toList ∧
          (rewritten m).reader = m.reader := by
    unfold rewritten
    rw [hoffset, applyOffset, if_neg hlen]
    unfold updateTimestampFile
    rw [htext]
    exact ⟨_, rfl, rfl, rfl⟩
  obtain ⟨off, hrun, hrest⟩ := hrun
  exact ⟨Machine.runs_of_run Prod.fst sharing_of_printing hrun, hrest⟩

/-- Before its first read the clock may be set, and later nothing happens to the text. -/
def BeforeOrAfter (m : FileMem Unit) : Prop :=
  (m.reader ()).began = none ∧ m.writer = fiftyAhead ∨
    ∃ text position, (m.reader ()).began = some (text, position) ∧ m.contents = text

/-- A refresh that is overtaken reads a text as a whole. -/
theorem answers_of_overtaken (hm : BeforeOrAfter m) (h : overtaken m o = .ok (r, m')) :
    BeforeOrAfter m' ∧ ∃ m₁,
      (sharing plainBuild "/clock".toList FileMem.Untorn).ops (some ()) m₁ o r m' ∧
      (m₁ = m ∨ m.writer = fiftyAhead ∧ m₁ = rewritten m) := by
  have hown : ∀ m₁ : FileMem Unit, ((onItsOwn "/clock".toList (some ()) (m₁, false) o).map
      fun r => (r.1, r.2.1)) = .ok (r, m') → m₁.Answers "/clock".toList (some ()) o r m' := by
    intro m₁ hr
    cases hx : onItsOwn "/clock".toList (some ()) (m₁, false) o with
    | error e =>
      rw [hx] at hr
      cases hr
    | ok x =>
      rw [hx] at hr
      cases hr
      exact answers_of_onItsOwn _ _ _ _ _ hx
  -- the clock is set before the first read, and then the writer does nothing
  cases o with
  | openRead path =>
    obtain ⟨hbegan, hwriter⟩ | ⟨text, position, hbegan, -⟩ := hm
    · unfold overtaken at h
      rw [hbegan] at h
      have hanswers := hown m h
      refine ⟨?_, m, ⟨trivial, hanswers⟩, Or.inl rfl⟩
      obtain rfl | rfl : m' = m ∨ m' = m.opened () := by
        have : (if path = "/clock".toList then r.isSome = true ∧ m' = m.opened () else m' = m) :=
          hanswers
        split at this
        · exact Or.inr this.2
        · exact Or.inl this
      · exact Or.inl ⟨hbegan, hwriter⟩
      · exact Or.inl ⟨by simp [FileMem.opened, FileMem.setReader], hwriter⟩
    · unfold overtaken at h
      rw [hbegan] at h
      cases h
  | read fd count =>
    -- after a read, the text the reader has begun is what the file holds
    have hread : ∀ m₁ : FileMem Unit,
        (∀ text position, (m₁.reader ()).began = some (text, position) → m₁.contents = text) →
        ((onItsOwn "/clock".toList (some ()) (m₁, false) (.read fd count)).map
          fun r => (r.1, r.2.1)) = .ok (r, m') → BeforeOrAfter m' := by
      intro m₁ hwhole hr
      cases hr
      refine Or.inr ⟨(m₁.reading ()).1, _, rfl, ?_⟩
      change m₁.contents = (m₁.reading ()).1
      unfold FileMem.reading
      cases hbegan : (m₁.reader ()).began with
      | none => rfl
      | some began => exact hwhole _ _ hbegan
    obtain ⟨hbegan, hwriter⟩ | ⟨text, position, hbegan, htext⟩ := hm
    · obtain ⟨-, hcontents, hreader⟩ := rewritten_spec hwriter
      have hnone : ((rewritten m).reader ()).began = none := by rw [hreader, hbegan]
      unfold overtaken at h
      rw [hbegan] at h
      refine ⟨hread _ (by rw [hnone]; exact nofun) h, _, ⟨?_, hown _ h⟩, Or.inr ⟨hwriter, rfl⟩⟩
      change FileMem.ReadsOn _ _
      rw [hnone, hcontents]
      -- the first read finds the text that has just been written, which is not empty
      exact List.cons_ne_nil _ _
    · unfold overtaken at h
      rw [hbegan] at h
      refine ⟨hread m (by rw [hbegan]; rintro _ _ ⟨⟩; exact htext) h, m, ⟨?_, hown m h⟩, Or.inl rfl⟩
      change FileMem.ReadsOn _ _
      rw [hbegan, htext]
      exact rfl
  | load | close =>
    have hanswers := hown m h
    cases h
    exact ⟨hm, m, ⟨trivial, hanswers⟩, Or.inl rfl⟩
  | getenv x =>
    have hanswers := hown m h
    have hsame : m' = m := by cases x <;> cases h <;> rfl
    rw [hsame] at hanswers ⊢
    exact ⟨hm, m, ⟨trivial, hanswers⟩, Or.inl rfl⟩
  | store f =>
    have hanswers := hown m h
    cases h
    refine ⟨?_, m, ⟨trivial, hanswers⟩, Or.inl rfl⟩
    obtain ⟨hbegan, hwriter⟩ | ⟨text, position, hbegan, htext⟩ := hm
    · exact Or.inl ⟨hbegan, hwriter⟩
    · exact Or.inr ⟨text, position, hbegan, htext⟩
  | _ => cases h

end Overtaken

/-- A refresh opens the file, and the clock is set to `⟨100, 0⟩` before it reads from it. -/
theorem readers_follow_file_of_refresh :
    ∃ s, (sharing plainBuild "/clock".toList FileMem.Untorn).Reach fiftyShared s ∧
      s.code (some ()) = some (.ret 1) ∧ (s.mem.reader ()).old = some ⟨50, 0⟩ ∧
        (s.mem.reader ()).proc.userOffset = ⟨40, 0⟩ ∧ FollowsFile s := by
  have hvalues : ((readConfigFile plainBuild).run overtaken fiftyShared.mem).toOption.map
      (fun r => (r.1, (r.2.reader ()).old, (r.2.reader ()).proc.userOffset)) =
        some (1, some ⟨50, 0⟩, ⟨40, 0⟩) := by
    decide +kernel
  cases hrun : (readConfigFile plainBuild).run overtaken fiftyShared.mem with
  | error e =>
    rw [hrun] at hvalues
    cases hvalues
  | ok x =>
    obtain ⟨a, m'⟩ := x
    rw [hrun] at hvalues
    obtain ⟨rfl, hold, hnew⟩ : a = 1 ∧ (m'.reader ()).old = some ⟨50, 0⟩ ∧
        (m'.reader ()).proc.userOffset = ⟨40, 0⟩ := by
      simpa [Except.toOption] using hvalues
    have hreach : (sharing plainBuild "/clock".toList FileMem.Untorn).Reach fiftyShared
        ⟨m', Function.update (fun _ => none) (some ()) (some (.ret 1))⟩ := by
      refine .head (.start (t := some ()) rfl rfl) ?_
      refine Machine.reach_of_run (J := BeforeOrAfter) (c := fun _ => none)
        (fun m o r m₂ hm ho => ?_) (Or.inl ⟨rfl, rfl⟩) hrun
      obtain ⟨hm₂, m₁, hops, rfl | ⟨hwriter, rfl⟩⟩ := answers_of_overtaken hm ho
      · exact ⟨hm₂, _, hops, fun _ => .refl⟩
      · refine ⟨hm₂, _, hops, fun q => ?_⟩
        have hstart : (sharing plainBuild "/clock".toList FileMem.Untorn).start none m
            (clockSettime plainBuild .realtime ⟨100, 0⟩) := ⟨_, _, rfl⟩
        exact (rewritten_spec hwriter).1.reach_of_return
          (s := ⟨m, Function.update (fun _ => none) (some ()) (some q)⟩) rfl hstart rfl
    refine ⟨_, hreach, rfl, hold, hnew, ?_⟩
    exact @readers_follow_file Unit _ plainBuild "/clock".toList _ fiftyAhead _ _ (by decide)
      (by decide) (by decide +kernel) (fun _ => ⟨_, fiftyAhead_followsOffset⟩) hreach

/-! ### A refresh that finds the file empty -/

/-- Where a process on its own stops, and why. -/
theorem stops_of_onItsOwn {file : CStr} {t : Option Unit} {v : FileMem Unit × Bool} {o : Op}
    {m : FileMem Unit} {e : Option (ℤ × String)} (h : onItsOwn file t v o = .error (m, e)) :
    v.1 = m ∧ ∀ code msg, e = some (code, msg) → o = .exit code msg := by
  obtain ⟨m', off⟩ := v
  cases o with
  | getenv x => cases t <;> cases x <;> cases h
  | openRead path =>
    cases t with
    | none =>
      cases h
      exact ⟨rfl, nofun⟩
    | some u =>
      have hopen : (if path = file then .ok (some 3, m'.opened u, off) else .ok (none, m', off) :
          Except (FileMem Unit × Option (ℤ × String)) (Option ℕ × FileMem Unit × Bool)) =
            .error (m, e) := h
      split at hopen <;> cases hopen
  | exit code msg =>
    cases t <;> cases h <;> exact ⟨rfl, fun code' msg' he => by cases he; rfl⟩
  | _ => cases t <;> cases h <;> exact ⟨rfl, nofun⟩

/-- **A refresh ends the process if it finds the file empty**: the process that sets the clock has
opened the file, and has not written to it. -/
theorem empty_file_is_fatal : fiftyAhead.FollowsOffset ⟨50, 0⟩ ∧
    fileOffset "+50\n".toList = some ⟨50, 0⟩ ∧
      ¬ ∀ s, (sharing plainBuild "/clock".toList fun _ _ _ => True).Reach fiftyShared s →
        FollowsFile s := by
  refine ⟨fiftyAhead_followsOffset, by decide +kernel, fun hfollows => ?_⟩
  -- the process that sets the clock has opened the file
  have hwriter : ∃ m, (clockSettime plainBuild .realtime ⟨100, 0⟩).run
      (onItsOwn "/clock".toList none) (FileMem.start "+50\n".toList fiftyAhead fun _ => fiftyAhead,
        false) = .error (m, none) ∧ m.contents = [] ∧
          m.reader = fun _ => ⟨fiftyAhead, none, none⟩ := by
    have hlen : ¬ bufferlen ≤ (printfPlusF (settimeOffset ⟨100, 0⟩ ⟨60, 0⟩)).length := by
      decide +kernel
    have hoffset : (clockSettime plainBuild .realtime ⟨100, 0⟩).run (onItsOwn "/clock".toList none)
        (FileMem.start "+50\n".toList fiftyAhead fun _ => fiftyAhead, false) =
          (applyOffset (settimeOffset ⟨100, 0⟩ ⟨60, 0⟩)).run (onItsOwn "/clock".toList none)
            (FileMem.start "+50\n".toList fiftyAhead fun _ => fiftyAhead, false) := rfl
    rw [hoffset, applyOffset, if_neg hlen]
    exact ⟨_, rfl, rfl, rfl⟩
  obtain ⟨m, hrun, hcontents, hreader⟩ := hwriter
  obtain ⟨v, o, k, hreach, hstop⟩ := Machine.reach_of_start Prod.fst (sharing_of_onItsOwn none)
    (M := sharing plainBuild "/clock".toList fun _ _ _ => True) (s := fiftyShared) rfl rfl
    ⟨.realtime, ⟨100, 0⟩, rfl⟩ hrun
  obtain ⟨rfl, -⟩ := stops_of_onItsOwn hstop
  -- another process refreshes its configuration before anything is written
  have hreader : ∃ m' code msg, (readConfigFile plainBuild).run (onItsOwn "/clock".toList (some ()))
      (v.1, false) = .error (m', some (code, msg)) := by
    obtain ⟨⟨_, _, _, _, _⟩, _⟩ := v
    subst hcontents hreader
    exact ⟨_, _, _, rfl⟩
  obtain ⟨m', code, msg, hrun'⟩ := hreader
  obtain ⟨v', o', k', hreach', hstop'⟩ := Machine.reach_of_start Prod.fst
    (sharing_of_onItsOwn (some ())) (M := sharing plainBuild "/clock".toList fun _ _ _ => True)
    (v := (v.1, false)) (s := ⟨v.1, Function.update (fun _ => none) none (some (.op o k))⟩) rfl rfl
    rfl hrun'
  obtain ⟨-, hexit⟩ := stops_of_onItsOwn hstop'
  obtain rfl := hexit code msg rfl
  exact (hfollows _ (hreach.trans hreach') ()).1 code msg k' rfl

end LibFaketime
