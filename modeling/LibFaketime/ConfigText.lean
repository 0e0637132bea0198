import LibFaketime.Config
import LibFaketime.System

/-!
# The text of a configuration file

What `read_config_file` hands to the parser is the contents of a file, whole: the loop
that reads it may get any pieces, but it goes on to the end, and a file that does not fit
the buffer is refused (`LibFaketime.wp_findConfig`).

The files are read by calls that concern nobody else, so this is shown for any view that
knows what is left of the file that is being read (`LibFaketime.ReadsFiles`).
-/

namespace LibFaketime

open Effects Effects.Prog

/-- The calls `read_config_file` makes before it has a text. -/
def Op.AboutFiles : Op → Prop
  | .getenv _ | .openRead _ | .read _ _ | .close _ | .perror _ | .stalled => True
  | _ => False

/-- Those it makes about a file that is open. -/
def Op.AboutOpen : Op → Prop
  | .read _ _ | .close _ | .perror _ => True
  | _ => False

theorem Op.AboutOpen.aboutFiles {o : Op} (h : o.AboutOpen) : o.AboutFiles := by
  cases o <;> trivial

/-- The contents of a file that fits the buffer. -/
def Contents (E : Surroundings) (text : CStr) : Prop :=
  ∃ path, E.file path (some text) ∧ text.length < bufferlen

/-- **A view of a thread that reads an open file**: `rest` is what is left of the file, and `K`
is something the calls about files leave alone. -/
structure ReadsOpen {σ : Type} (A : σ → Op → Prop) (O : σ → (o : Op) → o.Ans → σ → Prop)
    (rest : σ → CStr) (K : σ → Prop) : Prop where
  allowed : ∀ v o, K v → o.AboutOpen → A v o
  keeps : ∀ v o r v', K v → o.AboutOpen → O v o r v' → K v'
  read : ∀ v fd count l v', K v → O v (.read fd count) (.bytes l) v' → l <+: rest v ∧
    l.length ≤ count ∧ (l = [] → count = 0 ∨ rest v = []) ∧ rest v' = (rest v).drop l.length

/-- **A view of a thread that reads files**: `rest` is what is left of the file that is
open, and `K` is something the calls about files leave alone. -/
structure ReadsFiles {σ : Type} (E : Surroundings) (A : σ → Op → Prop)
    (O : σ → (o : Op) → o.Ans → σ → Prop) (rest : σ → CStr) (K : σ → Prop) : Prop where
  allowed : ∀ v o, K v → o.AboutFiles → A v o
  keeps : ∀ v o r v', K v → o.AboutFiles → O v o r v' → K v'
  opened : ∀ v path (r : Option ℕ) v', O v (.openRead path) r v' → ∃ contents,
    E.file path contents ∧ r.isSome = contents.isSome ∧ rest v' = contents.getD []
  read : ∀ v fd count l v', O v (.read fd count) (.bytes l) v' → l <+: rest v ∧
    l.length ≤ count ∧ (l = [] → count = 0 ∨ rest v = []) ∧ rest v' = (rest v).drop l.length

/-! ### An open file -/

section Open

variable {σ : Type} {A : σ → Op → Prop} {O : σ → (o : Op) → o.Ans → σ → Prop}
  {rest : σ → CStr} {K : σ → Prop} {v : σ} (h : ReadsOpen A O rest K)

include h

theorem wp_aboutOpen {β : Type} {o : Op} {f : o.Ans → Sys β} {Q : β → σ → Prop}
    (ho : o.AboutOpen) (hv : K v) (hf : ∀ r v', K v' → O v o r v' → (f r).Wp A O Q v') :
    (perform (I := sys) o >>= f).Wp A O Q v :=
  ⟨h.allowed v o hv ho, fun r v' hr => hf r v' (h.keeps v o r v' hv ho hr) hr⟩

/-- The read loop stops at the end of the file, or with something else than zero. Each turn
that goes on has read something. -/
theorem wp_readLoop (fuel fd : ℕ) (buffer : CStr) (bytes : ℤ) {contents : CStr} (hv : K v)
    (hc : buffer ++ rest v = contents) (hlen : buffer.length < bufferlen)
    (hend : bytes = 0 → buffer = []) (hfuel : bufferlen - 1 - buffer.length < fuel) :
    (readLoop fuel fd buffer bytes).Wp A O (fun r v' => K v' ∧ r.1.length < bufferlen ∧
      (r.2 = 0 → r.1 = contents)) v := by
  induction fuel generalizing v buffer bytes with
  | zero => omega
  | succ fuel ih =>
    unfold readLoop
    split
    next hroom =>
      refine wp_aboutOpen h trivial hv fun r v₁ hv₁ ho => ?_
      cases r with
      | failed => exact ⟨hv₁, hlen, fun h0 => by cases h0⟩
      | bytes l =>
        obtain ⟨hpre, hle, hnil, hrest⟩ := h.read _ _ _ _ _ hv ho
        have hl : l ++ rest v₁ = rest v := by
          rw [hrest]
          exact List.prefix_iff_eq_append.mp hpre
        dsimp only
        split
        next hl0 =>
          -- nothing was read although there was room, so nothing is left
          have hr0 : rest v = [] := (hnil hl0).resolve_left (by omega)
          refine ⟨hv₁, hlen, fun _ => ?_⟩
          rw [← hc, hr0, List.append_nil]
        next hl0 =>
          have hpos : 0 < l.length := List.length_pos_iff.mpr hl0
          refine ih _ _ hv₁ ?_ ?_ (fun h0 => ?_) ?_
          · rw [List.append_assoc, hl, hc]
          · rw [List.length_append]
            omega
          · omega
          · rw [List.length_append]
            omega
    next hroom =>
      refine ⟨hv, hlen, fun h0 => ?_⟩
      rw [hend h0] at hroom
      exact absurd (by decide) hroom

theorem wp_probeEnd (fd : ℕ) (buffer : CStr) (bytes : ℤ) (hv : K v) :
    (probeEnd fd buffer bytes).Wp A O (fun b v' => K v' ∧ (b = 0 → bytes = 0)) v := by
  unfold probeEnd
  split
  next hfull =>
    refine wp_aboutOpen h trivial hv fun r v₁ hv₁ _ => ?_
    cases r with
    | failed => exact ⟨hv₁, fun _ => hfull.2⟩
    | bytes l => exact ⟨hv₁, fun _ => hfull.2⟩
  next => exact ⟨hv, id⟩

theorem wp_checkedContents (fd : ℕ) (buffer : CStr) (bytes : ℤ) (hv : K v) :
    (checkedContents fd buffer bytes).Wp A O (fun r v' => K v' ∧
      ∀ text, r = .ok text → bytes = 0 ∧ text = buffer) v := by
  have herror : ∀ msg v₁, K v₁ → (perror msg >>= fun _ => pure (.error (-1)) :
      Sys (Except ℤ CStr)).Wp A O (fun r v' => K v' ∧
        ∀ text, r = .ok text → bytes = 0 ∧ text = buffer) v₁ := by
    intro msg v₁ hv₁
    refine wp_aboutOpen h trivial hv₁ fun _ v₂ hv₂ _ => ⟨hv₂, fun text ht => ?_⟩
    cases ht
  refine wp_aboutOpen h trivial hv fun closed v₁ hv₁ _ => ?_
  split
  · exact herror _ _ hv₁
  · split
    · exact herror _ _ hv₁
    · split
      · exact herror _ _ hv₁
      · split
        · exact herror _ _ hv₁
        · refine ⟨hv₁, fun text ht => ?_⟩
          cases ht
          exact ⟨by omega, rfl⟩

end Open

/-! ### The first file that exists -/

section Text

variable {σ : Type} {E : Surroundings} {A : σ → Op → Prop} {O : σ → (o : Op) → o.Ans → σ → Prop}
  {rest : σ → CStr} {K : σ → Prop} {v : σ} (h : ReadsFiles E A O rest K)

include h

theorem ReadsFiles.readsOpen : ReadsOpen A O rest K where
  allowed v o hv ho := h.allowed v o hv ho.aboutFiles
  keeps v o r v' hv ho := h.keeps v o r v' hv ho.aboutFiles
  read v fd count l v' _ ho := h.read v fd count l v' ho

theorem wp_aboutFiles {β : Type} {o : Op} {f : o.Ans → Sys β} {Q : β → σ → Prop}
    (ho : o.AboutFiles) (hv : K v) (hf : ∀ r v', K v' → O v o r v' → (f r).Wp A O Q v') :
    (perform (I := sys) o >>= f).Wp A O Q v :=
  ⟨h.allowed v o hv ho, fun r v' hr => hf r v' (h.keeps v o r v' hv ho hr) hr⟩

theorem wp_openFirst (paths : List CStr) (hv : K v) :
    (openFirst paths).Wp A O (fun fd v' => K v' ∧
      (fd.isSome = true → ∃ path, E.file path (some (rest v')))) v := by
  induction paths generalizing v with
  | nil => exact ⟨hv, fun hfd => by cases hfd⟩
  | cons path paths ih =>
    refine wp_aboutFiles h trivial hv fun fd v₁ hv₁ ho => ?_
    obtain ⟨contents, hfile, hsome, hrest⟩ := h.opened _ _ _ _ ho
    cases fd with
    | none => exact ih hv₁
    | some fd =>
      refine ⟨hv₁, fun _ => ⟨path, ?_⟩⟩
      cases contents with
      | none => cases hsome
      | some contents =>
        rw [hrest]
        exact hfile

/-- **What is handed to the parser is the contents of a file, whole.** -/
theorem wp_findConfig (hv : K v) :
    findConfig.Wp A O (fun r v' => K v' ∧ ∀ text, r = .ok text → Contents E text) v := by
  refine wp_aboutFiles h trivial hv fun custom v₁ hv₁ _ => ?_
  refine wp_aboutFiles h trivial hv₁ fun home v₂ hv₂ _ => ?_
  refine (wp_openFirst h _ hv₂).bind ?_
  rintro fd v₃ ⟨hv₃, hfile⟩
  cases fd with
  | none => exact ⟨hv₃, fun text ht => by cases ht⟩
  | some fd =>
    obtain ⟨path, hpath⟩ := hfile rfl
    refine (wp_readLoop h.readsOpen _ _ [] 0 hv₃ rfl (by decide) (fun _ => rfl) (by decide)).bind ?_
    rintro r v₄ ⟨hv₄, hlen, hall⟩
    refine (wp_probeEnd h.readsOpen _ _ _ hv₄).bind ?_
    rintro bytes v₅ ⟨hv₅, hzero⟩
    refine (wp_checkedContents h.readsOpen _ _ _ hv₅).mono ?_
    rintro c v₆ ⟨hv₆, hok⟩
    refine ⟨hv₆, fun text ht => ?_⟩
    obtain ⟨hb, rfl⟩ := hok text ht
    refine ⟨path, ?_, hlen⟩
    rw [hall (hzero hb)]
    exact hpath

end Text

end LibFaketime
