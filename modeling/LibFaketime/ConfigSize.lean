import LibFaketime.ConfigText
import LibFaketime.World

/-!
# How long a configuration file may be

The buffer has room for `bufferlen - 1` bytes, and `read_config_file` means to accept what fits:
once the buffer is full it asks for one more byte, and only a file that goes on is too long. But
it asks only if the last `read` returned zero, and a loop that ends because the buffer is full
has not seen a zero: what it remembers is the length of the last piece, and that counts as too
long. So a file that fills the buffer is refused, whatever the pieces
(`LibFaketime.config_size_iff`).

The pieces are those of a `LibFaketime.FileReader`: each call gets as many bytes as it says, within
what was asked for and what is left.
-/

namespace LibFaketime

open Effects Effects.Prog

/-! ### The calls that read a file -/

/-- **A way to read a file**: `chunk n` bytes, and one more, at the `n`-th call, which fails if
there is none, and whether the file is closed without an error. -/
structure FileReader where
  chunk : ℕ → Option ℕ
  closes : Bool

/-- No call fails. -/
def FileReader.ErrorFree (k : FileReader) : Prop := (∀ n, k.chunk n ≠ none) ∧ k.closes = true

/-- What the next call brings. -/
def FileReader.bring (k : FileReader) (v : World × ℕ) (count : ℕ) : ReadResult × World × ℕ :=
  match k.chunk v.2 with
  | none => (.failed, v.1, v.2 + 1)
  | some m => (.bytes (v.1.rest.take (min count (m + 1))),
      { v.1 with rest := v.1.rest.drop (min count (m + 1)) }, v.2 + 1)

/-- One process, with the number of reads it has made: they bring the pieces of `k`. -/
def reading (k : FileReader) : Handler sys (World × ℕ) Stop
  | v, .read _ count => .ok (k.bring v count)
  | v, .close _ => .ok (k.closes, v)
  | v, o => (seq v.1 o).map fun r => (r.1, r.2, v.2)

/-- A `read` or a `close` that fails. -/
def FileReader.Fails (k : FileReader) : Op → World × ℕ → Prop
  | .read _ _, v => k.chunk v.2 = none
  | .close _, _ => k.closes = false
  | _, _ => False

section Reading

variable {k : FileReader} {v : World × ℕ}

theorem reading_read_failed (fd count : ℕ) (h : k.chunk v.2 = none) :
    reading k v (.read fd count) = .ok (.failed, v.1, v.2 + 1) := by
  change Except.ok (k.bring v count) = _
  rw [FileReader.bring, h]

theorem reading_read_bytes (fd count : ℕ) {m : ℕ} (h : k.chunk v.2 = some m) :
    reading k v (.read fd count) = .ok (.bytes (v.1.rest.take (min count (m + 1))),
      { v.1 with rest := v.1.rest.drop (min count (m + 1)) }, v.2 + 1) := by
  change Except.ok (k.bring v count) = _
  rw [FileReader.bring, h]

end Reading

/-! ### Programs whose calls succeed -/

/-- **The program runs to its end without a call that fails**, and changes no setting. -/
def Completes {α : Type} (k : FileReader) (p : Sys α) (v : World × ℕ) (Q : α → Prop) : Prop :=
  p.Runs (reading k) v (fun r v' => Q r ∧ v'.1.proc = v.1.proc) ∧ ¬ p.Makes (reading k) k.Fails v

/-- **The program runs to its end** with a result in `Q`, and changes no setting. -/
def Returns {α : Type} (k : FileReader) (p : Sys α) (v : World × ℕ) (Q : α → Prop) : Prop :=
  p.Runs (reading k) v fun r v' => Q r ∧ v'.1.proc = v.1.proc

section Rules

variable {α β : Type} {k : FileReader} {v : World × ℕ} {P : α → Prop} {Q : β → Prop}

theorem Completes.returns {p : Sys α} (h : Completes k p v P) : Returns k p v P := h.1

theorem returns_pure {a : α} (h : P a) : Returns k (pure a) v P := runs_pure ⟨h, rfl⟩

theorem completes_pure {a : α} (h : P a) : Completes k (pure a) v P := ⟨returns_pure h, id⟩

/-- The rule of sequence. -/
theorem Returns.bind {p : Sys α} {f : α → Sys β} (hp : Returns k p v P)
    (hf : ∀ a v', P a → Returns k (f a) v' Q) : Returns k (p >>= f) v Q := by
  refine Runs.bind hp ?_
  rintro a v₁ ⟨ha, hproc⟩
  refine (hf a v₁ ha).mono ?_
  rintro b v₂ ⟨hb, hproc'⟩
  exact ⟨hb, hproc'.trans hproc⟩

/-- The rule of sequence. -/
theorem Completes.bind {p : Sys α} {f : α → Sys β} (hp : Completes k p v P)
    (hf : ∀ a v', P a → Completes k (f a) v' Q) : Completes k (p >>= f) v Q :=
  ⟨Returns.bind hp.1 fun a v' ha => (hf a v' ha).1,
    Runs.not_makes_bind hp.1 hp.2 fun a v' ha => (hf a v' ha.1).2⟩

theorem returns_call {o : Op} {r : o.Ans} {v' : World × ℕ} {f : o.Ans → Sys β}
    (ho : reading k v o = .ok (r, v')) (hproc : v'.1.proc = v.1.proc)
    (hf : Returns k (f r) v' Q) : Returns k (perform (I := sys) o >>= f) v Q := by
  refine runs_perform_bind ho (hf.mono ?_)
  rintro b v₂ ⟨hb, hproc'⟩
  exact ⟨hb, hproc'.trans hproc⟩

theorem completes_call {o : Op} {r : o.Ans} {v' : World × ℕ} {f : o.Ans → Sys β}
    (ho : reading k v o = .ok (r, v')) (hproc : v'.1.proc = v.1.proc) (hno : ¬ k.Fails o v)
    (hf : Completes k (f r) v' Q) : Completes k (perform (I := sys) o >>= f) v Q := by
  refine ⟨returns_call ho hproc hf.1, not_makes_perform_bind hno fun r' v₁ hr => ?_⟩
  rw [ho] at hr
  cases hr
  exact hf.2

end Rules

/-! ### The contents of an open file -/

section Open

variable {k : FileReader} {v : World × ℕ} {fd : ℕ}

/-- **The loop**, from a buffer that has the beginning of the file. It leaves `-1` if a read
fails; otherwise as much of the file as fits, and zero just if there was room left. -/
theorem readLoop_leaves (fuel fd : ℕ) (buffer contents : CStr) (bytes : ℤ)
    (hc : buffer ++ v.1.rest = contents) (hlen : buffer.length ≤ bufferlen - 1)
    (hbytes : buffer = [] ∨ 0 < bytes) (hfuel : bufferlen - 1 - buffer.length < fuel) :
    Returns k (readLoop fuel fd buffer bytes) v (fun r => r.2 = -1) ∧ ¬ k.ErrorFree ∨
      Completes k (readLoop fuel fd buffer bytes) v fun r =>
        r.1 = contents.take (bufferlen - 1) ∧ (r.2 = 0 ↔ contents.length < bufferlen - 1) := by
  induction fuel generalizing v buffer bytes with
  | zero => omega
  | succ fuel ih =>
    unfold readLoop
    split
    next hroom =>
      cases hchunk : k.chunk v.2 with
      | none =>
        refine Or.inl ⟨returns_call (reading_read_failed _ _ hchunk) rfl (returns_pure rfl), ?_⟩
        exact fun he => he.1 _ hchunk
      | some m =>
        -- a read that succeeds
        set n := min (bufferlen - 1 - buffer.length) (m + 1)
        have hread := reading_read_bytes fd (bufferlen - 1 - buffer.length) hchunk
        have hno : ¬ k.Fails (.read fd (bufferlen - 1 - buffer.length)) v := by
          intro h
          cases hchunk.symm.trans h
        by_cases hnil : v.1.rest.take n = []
        · -- there was room, so nothing is left
          have hrest : v.1.rest = [] := by
            rcases List.take_eq_nil_iff.mp hnil with h | h
            · omega
            · exact h
          rw [hrest, List.append_nil] at hc
          refine Or.inr (completes_call hread rfl hno ?_)
          dsimp only
          rw [if_pos hnil, ← hc]
          refine completes_pure ⟨?_, iff_of_true rfl hroom⟩
          exact (List.take_of_length_le hlen).symm
        · have hpos : 0 < (v.1.rest.take n).length := List.length_pos_iff.mpr hnil
          have hle : (v.1.rest.take n).length ≤ bufferlen - 1 - buffer.length :=
            (List.length_take_le _ _).trans (Nat.min_le_left _ _)
          have hturn := ih (v := ({ v.1 with rest := v.1.rest.drop n }, v.2 + 1))
            (buffer ++ v.1.rest.take n) ((v.1.rest.take n).length) ?_ ?_ ?_ ?_
          · refine hturn.imp (fun h => ⟨returns_call hread rfl ?_, h.2⟩)
              fun h => completes_call hread rfl hno ?_
            · dsimp only
              rw [if_neg hnil]
              exact h.1
            · dsimp only
              rw [if_neg hnil]
              exact h
          · dsimp only
            rw [List.append_assoc, List.take_append_drop, hc]
          · rw [List.length_append]
            omega
          · omega
          · rw [List.length_append]
            omega
    next hroom =>
      -- the buffer is full, and what was read last is not zero
      have hfull : buffer.length = bufferlen - 1 := by omega
      have hpos : 0 < bytes := by
        rcases hbytes with rfl | h
        · exact absurd hfull (by decide)
        · exact h
      refine Or.inr (completes_pure ⟨?_, iff_of_false hpos.ne' ?_⟩)
      · rw [← hc, List.take_left' hfull]
      · rw [← hc, List.length_append]
        omega

theorem probeEnd_eq {buffer : CStr} {bytes : ℤ} (h : bytes = 0 → buffer.length < bufferlen - 1) :
    probeEnd fd buffer bytes = pure bytes := by
  refine if_neg ?_
  rintro ⟨hfull, h0⟩
  have := h h0
  omega

theorem checkedContents_refuses {buffer : CStr} {bytes : ℤ}
    (h : k.closes = false ∨ bytes ≠ 0 ∨ Char.ofNat 0 ∈ buffer) :
    Returns k (checkedContents fd buffer bytes) v (· = .error (-1)) := by
  have herror : ∀ msg v₁, Returns k (perror msg >>= fun _ => pure (.error (-1)) :
      Sys (Except ℤ CStr)) v₁ (· = .error (-1)) :=
    fun msg v₁ => returns_call (o := .perror msg) rfl rfl (returns_pure rfl)
  refine returns_call (o := .close fd) rfl rfl ?_
  split
  · exact herror _ _
  · split
    · exact herror _ _
    · split
      · exact herror _ _
      · split
        · exact herror _ _
        next hclosed hlong hfailed hnul =>
          exfalso
          rcases h with h | h | h
          · rw [h] at hclosed
            exact hclosed rfl
          · omega
          · exact hnul h

theorem checkedContents_accepts {buffer : CStr} (hclosed : k.closes = true)
    (hnul : Char.ofNat 0 ∉ buffer) :
    Completes k (checkedContents fd buffer 0) v (· = .ok buffer) := by
  refine completes_call (o := .close fd) rfl rfl ?_ ?_
  · intro h
    cases hclosed.symm.trans h
  · rw [hclosed, if_neg (by decide), if_neg (by decide), if_neg (by decide), if_neg hnul]
    exact completes_pure rfl

/-- The contents that reach the parser: there is room for more, and no NUL byte. -/
def Readable (contents : CStr) : Prop :=
  contents.length < bufferlen - 1 ∧ Char.ofNat 0 ∉ contents

/-- **An open file**: its contents are read as they are, or something is wrong with them or with
a call. -/
theorem configContents_cases (k : FileReader) (v : World × ℕ) (fd : ℕ) :
    Returns k (configContents fd) v (· = .error (-1)) ∧ ¬ (k.ErrorFree ∧ Readable v.1.rest) ∨
      Completes k (configContents fd) v (· = .ok v.1.rest) ∧ Readable v.1.rest := by
  rcases readLoop_leaves (k := k) bufferlen fd [] v.1.rest 0 rfl (by decide) (Or.inl rfl)
    (by decide) with ⟨hloop, herror⟩ | hloop
  · -- a read has failed
    refine Or.inl ⟨hloop.bind fun r v₁ hr => ?_, fun h => herror h.1⟩
    rw [probeEnd_eq (by omega), pure_bind]
    exact checkedContents_refuses (Or.inr (Or.inl (by omega)))
  · by_cases hok : k.closes = true ∧ Readable v.1.rest
    · obtain ⟨hclosed, hroom, hnul⟩ := hok
      refine Or.inr ⟨hloop.bind fun r v₁ hr => ?_, hroom, hnul⟩
      obtain ⟨htext, hzero⟩ := hr
      rw [List.take_of_length_le hroom.le] at htext
      rw [probeEnd_eq (by rw [htext]; exact fun _ => hroom), pure_bind, hzero.mpr hroom, htext]
      exact checkedContents_accepts hclosed hnul
    · refine Or.inl ⟨hloop.returns.bind fun r v₁ hr => ?_, fun h => hok ⟨h.1.2, h.2⟩⟩
      obtain ⟨htext, hzero⟩ := hr
      rw [probeEnd_eq, pure_bind]
      · refine checkedContents_refuses ?_
        by_contra hcon
        rw [not_or, not_or, not_not, Bool.not_eq_false] at hcon
        obtain ⟨hclosed, h0, hnul⟩ := hcon
        have hroom := hzero.mp h0
        rw [htext, List.take_of_length_le hroom.le] at hnul
        exact hok ⟨hclosed, hroom, hnul⟩
      · intro h0
        rw [htext, List.length_take]
        have := hzero.mp h0
        omega

end Open

/-! ### The whole file -/

/-- The part of `LibFaketime.findConfig` that looks for a file. -/
def openedConfig : Sys (Option ℕ) := do
  let custom := boundedPath (← getenv .faketimeTimestampFile) []
  let filename := boundedPath (← getenv .home) "/.faketimerc".toList
  openConfig custom filename

/-- The part that reads it. -/
def contentsOf : Option ℕ → Sys (Except ℤ CStr)
  | none => pure (.error 0)
  | some fd => configContents fd

theorem findConfig_eq : findConfig = openedConfig >>= contentsOf := by
  unfold findConfig openedConfig
  simp only [bind_assoc]
  congr

/-- What is done with the contents. -/
def applyContents (B : Build) : Except ℤ CStr → Sys ℤ
  | .error result => pure result
  | .ok contents => parseFtString B (prepareConfigContents contents) >>= fun _ => pure 1

theorem readConfigFile_eq (B : Build) : readConfigFile B = findConfig >>= applyContents B := by
  unfold readConfigFile
  congr

section Main

variable {B : Build} {k : FileReader} {v : World × ℕ} {contents : CStr}

/-- A file with these contents is found. -/
def Opens (k : FileReader) (v : World × ℕ) (contents : CStr) : Prop :=
  openedConfig.Runs (reading k) v fun fd v' => fd.isSome = true ∧ v'.1.rest = contents

/-- **The contents are handed to the parser**, all of them. -/
def HandedOver (B : Build) (k : FileReader) (v : World × ℕ) (contents : CStr) : Prop :=
  ∃ v', v'.1.proc = v.1.proc ∧ (readConfigFile B).run (reading k) v =
    (parseFtString B (prepareConfigContents contents) >>= fun _ => pure 1 : Sys ℤ).run
      (reading k) v'

/-- **They are refused**, and the settings are left alone. -/
def ConfigRefused (B : Build) (k : FileReader) (v : World × ℕ) : Prop :=
  Returns k (readConfigFile B) v (· = -1)

/-- The contents fit the buffer, and there is no NUL byte. -/
def FitsBuffer (contents : CStr) : Prop :=
  contents.length ≤ bufferlen - 1 ∧ Char.ofNat 0 ∉ contents

/-- A read or a close fails on the way to the contents. -/
def ReadFails (k : FileReader) (v : World × ℕ) : Prop := findConfig.Makes (reading k) k.Fails v

theorem Readable.fitsBuffer (h : Readable contents) : FitsBuffer contents := ⟨h.1.le, h.2⟩

/-- What fits and is not read fills the buffer. -/
theorem not_readable_iff (h : FitsBuffer contents) :
    ¬ Readable contents ↔ contents.length = bufferlen - 1 := by
  refine ⟨fun hread => ?_, fun hlen hread => absurd hread.1 (by omega)⟩
  by_contra hne
  exact hread ⟨by have := h.1; omega, h.2⟩

/-- The calls that look for a file. -/
def Op.Looks : Op → Prop
  | .getenv _ | .openRead _ => True
  | _ => False

theorem looks_openedConfig : openedConfig.Uses Op.Looks := by
  have hfirst : ∀ paths, (openFirst paths).Uses Op.Looks := by
    intro paths
    induction paths with
    | nil => exact uses_pure _
    | cons path paths ih =>
      refine uses_perform_bind trivial fun fd => ?_
      cases fd with
      | none => exact ih
      | some fd => exact uses_pure _
  exact uses_perform_bind trivial fun custom => uses_perform_bind trivial fun home => hfirst _

theorem proc_of_looks {o : Op} {r : o.Ans} {v' : World × ℕ} (ho : o.Looks)
    (h : reading k v o = .ok (r, v')) : v'.1.proc = v.1.proc := by
  cases o with
  | getenv x =>
    change (v.1.ask (.getenv x) fun _ w => w).map _ = _ at h
    cases hask : v.1.ask (.getenv x) fun _ w => w with
    | error e =>
      rw [hask] at h
      cases h
    | ok a =>
      rw [hask] at h
      cases h
      rw [(World.ask_eq_ok hask).2]
      rfl
  | openRead path =>
    change (seq v.1 (.openRead path)).map _ = _ at h
    rw [seq_openRead] at h
    cases hfile : v.1.file v.1.now path with
    | none =>
      rw [hfile] at h
      cases h
      rfl
    | some contents =>
      rw [hfile] at h
      cases h
      rfl
  | _ => cases ho

/-- Looking for a file leaves the settings alone. -/
theorem Opens.exists_run (hopen : Opens k v contents) : ∃ fd v₁, v₁.1.rest = contents ∧
    v₁.1.proc = v.1.proc ∧ openedConfig.run (reading k) v = .ok (some fd, v₁) := by
  obtain ⟨fd, v₁, hrun, hsome, hrest⟩ := hopen
  obtain ⟨fd, rfl⟩ := Option.isSome_iff_exists.mp hsome
  refine ⟨fd, v₁, hrest, ?_, hrun⟩
  exact looks_openedConfig.invariant_run (J := fun v' => v'.1.proc = v.1.proc)
    (fun _ _ _ _ ho hw h => (proc_of_looks ho h).trans hw) rfl hrun

theorem ConfigRefused.not_handedOver (h : ConfigRefused B k v) : ¬ HandedOver B k v contents := by
  rintro ⟨v', -, hrun⟩
  obtain ⟨_, v₁, hr, rfl, -⟩ := h
  obtain ⟨_, v₂, -, hone⟩ := exists_of_run_bind (hrun.symm.trans hr)
  cases hone

/-- **The file that is found**: it is refused, or its contents reach the parser. -/
theorem readConfigFile_cases (B : Build) (hopen : Opens k v contents) :
    ConfigRefused B k v ∧ ¬ (k.ErrorFree ∧ Readable contents) ∨
      HandedOver B k v contents ∧ Readable contents ∧ ¬ ReadFails k v := by
  obtain ⟨fd, v₁, rfl, hproc, hrun⟩ := hopen.exists_run
  have hfind : openedConfig.Runs (reading k) v fun r v' => r = some fd ∧ v' = v₁ :=
    ⟨_, _, hrun, rfl, rfl⟩
  rcases configContents_cases k v₁ fd with ⟨hrefused, hbad⟩ | ⟨hread, hok⟩
  · refine Or.inl ⟨?_, hbad⟩
    have hresult : findConfig.Runs (reading k) v fun r v' =>
        r = .error (-1) ∧ v'.1.proc = v₁.1.proc := by
      rw [findConfig_eq]
      refine hfind.bind ?_
      rintro _ _ ⟨rfl, rfl⟩
      exact hrefused
    unfold ConfigRefused Returns
    rw [readConfigFile_eq]
    refine hresult.bind ?_
    rintro _ v₂ ⟨rfl, hproc'⟩
    exact runs_pure ⟨rfl, hproc'.trans hproc⟩
  · refine Or.inr ⟨?_, hok, ?_⟩
    · obtain ⟨_, v₂, hr, rfl, hproc'⟩ := hread.1
      refine ⟨v₂, hproc'.trans hproc, ?_⟩
      rw [readConfigFile_eq, findConfig_eq, run_bind, run_bind, hrun]
      change ((configContents fd).run (reading k) v₁).bind _ = _
      rw [hr]
      rfl
    · unfold ReadFails
      rw [findConfig_eq]
      refine hfind.not_makes_bind (looks_openedConfig.not_makes ?_) ?_
      · intro o w ho
        cases o <;> first | exact id | cases ho
      · rintro _ _ ⟨rfl, rfl⟩
        exact hread.2

/-- **A file reaches the parser just if it fits**, except one that fills the buffer. -/
theorem config_size_iff (hopen : Opens k v contents) :
    ((k.ErrorFree → (HandedOver B k v contents ↔ FitsBuffer contents)) ∧
        (¬ FitsBuffer contents ∨ ReadFails k v → ConfigRefused B k v)) ↔
      ¬ (contents.length = bufferlen - 1 ∧ Char.ofNat 0 ∉ contents ∧ k.ErrorFree) := by
  rcases readConfigFile_cases B hopen with ⟨hrefused, hbad⟩ | ⟨hover, hok, hno⟩
  · have hnot : ¬ HandedOver B k v contents := hrefused.not_handedOver
    constructor
    · rintro ⟨hsize, -⟩ ⟨hlen, hnul, hfree⟩
      exact hnot ((hsize hfree).mpr ⟨hlen.le, hnul⟩)
    · intro hfull
      refine ⟨fun hfree => iff_of_false hnot fun hfits => ?_, fun _ => hrefused⟩
      have hlen := (not_readable_iff hfits).mp fun h => hbad ⟨hfree, h⟩
      exact hfull ⟨hlen, hfits.2, hfree⟩
  · refine iff_of_true ⟨fun _ => iff_of_true hover hok.fitsBuffer, fun h => ?_⟩ fun h => ?_
    · rcases h with h | h
      · exact absurd hok.fitsBuffer h
      · exact absurd h hno
    · have := hok.1
      omega

end Main

/-- The file of the whole system, and no other. -/
def etcWorld (contents : CStr) : World :=
  { calmWorld (fun _ => none) (fun _ _ => ⟨1000, 0⟩) ⟨0, 0⟩ .initial with
    file := fun _ _ => some contents }

/-- Reads that bring a byte each. -/
def bytewise : FileReader := ⟨fun _ => some 0, true⟩

theorem opens_etcWorld (contents : CStr) : Opens bytewise (etcWorld contents, 0) contents :=
  ⟨some 3, _, rfl, rfl, rfl⟩

theorem bytewise_errorFree : bytewise.ErrorFree := ⟨fun _ => Option.some_ne_none _, rfl⟩

/-- A file with an offset, read byte by byte, reaches the parser. -/
theorem config_size_iff_offset :
    ((bytewise.ErrorFree → (HandedOver plainBuild bytewise (etcWorld "+1".toList, 0) "+1".toList ↔
        FitsBuffer "+1".toList)) ∧
      (¬ FitsBuffer "+1".toList ∨ ReadFails bytewise (etcWorld "+1".toList, 0) →
        ConfigRefused plainBuild bytewise (etcWorld "+1".toList, 0))) ↔
      ¬ ("+1".toList.length = bufferlen - 1 ∧ Char.ofNat 0 ∉ "+1".toList ∧
        bytewise.ErrorFree) :=
  config_size_iff (opens_etcWorld _)

/-- An offset and empty lines that fill the buffer. -/
def fullConfig : CStr := "+1".toList ++ List.replicate 253 '\n'

theorem length_fullConfig : fullConfig.length = bufferlen - 1 := by
  rw [fullConfig, List.length_append, List.length_replicate]
  rfl

theorem fitsBuffer_fullConfig : FitsBuffer fullConfig := by
  refine ⟨length_fullConfig.le, fun h => ?_⟩
  rcases List.mem_append.mp h with h | h
  · exact absurd h (by decide)
  · exact absurd (List.eq_of_mem_replicate h) (by decide)

/-- **A file that fills the buffer fits it, but is refused.** -/
theorem full_config_is_refused :
    bytewise.ErrorFree ∧ Opens bytewise (etcWorld fullConfig, 0) fullConfig ∧
      FitsBuffer fullConfig ∧ ¬ HandedOver plainBuild bytewise (etcWorld fullConfig, 0) fullConfig ∧
      ConfigRefused plainBuild bytewise (etcWorld fullConfig, 0) := by
  refine ⟨bytewise_errorFree, opens_etcWorld _, fitsBuffer_fullConfig, ?_⟩
  rcases readConfigFile_cases plainBuild (opens_etcWorld fullConfig) with
    ⟨hrefused, -⟩ | ⟨-, hok, -⟩
  · exact ⟨hrefused.not_handedOver, hrefused⟩
  · exact absurd hok.1 length_fullConfig.not_lt

end LibFaketime
