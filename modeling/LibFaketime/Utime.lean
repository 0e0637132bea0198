import LibFaketime.Files

/-!
# Setting the times of files

The functions behind the `utime` family, up to the call of the real function: what that is called
with, or `none` where the function returns `-1` instead. They come in three granularities, and
each of them takes the offset of the user from the times it is given.

What the system does with the times is what the manual says, to the nanosecond.
-/

namespace LibFaketime

/-! ### The functions -/

/-- `UTIME_NOW`. -/
def utimeNow : ℤ := 2 ^ 30 - 1

/-- `UTIME_OMIT`. -/
def utimeOmit : ℤ := 2 ^ 30 - 2

/-- `struct utimbuf`. -/
structure Utimbuf where
  actime : ℤ
  modtime : ℤ
deriving DecidableEq, Repr

/-- `timersub`. -/
def timersub (a b : Timeval) : Timeval :=
  let r := (timersub2 secToUSec (a.tvSec, a.tvUsec) (b.tvSec, b.tvUsec)).1
  ⟨r.1, r.2⟩

/-- `fake_current_realtime`. -/
def fakeCurrentRealtime (B : Build) : Sys (Option Timespec) := do
  match ← realClockGettime .realtime with
  | none => pure none
  | some tp =>
    let (result, tp) ← fakeClockGettime B .realtime tp
    pure (if result = -1 then none else some tp)

/-- `fake_current_timeval`. -/
def fakeCurrentTimeval (B : Build) : Sys (Option Timeval) := do
  match ← fakeCurrentRealtime B with
  | none => pure none
  | some ts => pure (some ⟨ts.tvSec, ts.tvNsec.tdiv 1000⟩)

/-- **`utime`**. -/
def utime (B : Build) (fakeUtimeDisabled : Bool) (times : Option Utimbuf) :
    Sys (Option (Option Utimbuf)) := do
  if fakeUtimeDisabled then
    match times with
    | some times => pure (some (some times))
    | none =>
      -- the user wants their given fake times left alone but they requested NOW
      match ← fakeCurrentRealtime B with
      | none => pure none
      | some now => pure (some (some ⟨now.tvSec, now.tvSec⟩))
  else
    match times with
    | none => pure (some none)
    | some times =>
      let s ← load
      pure (some (some ⟨times.actime - s.userOffset.tvSec, times.modtime - s.userOffset.tvSec⟩))

/-- **`utimes`**. -/
def utimes (B : Build) (fakeUtimeDisabled : Bool) (times : Option (Timeval × Timeval)) :
    Sys (Option (Option (Timeval × Timeval))) := do
  if fakeUtimeDisabled then
    match times with
    | some times => pure (some (some times))
    | none =>
      match ← fakeCurrentTimeval B with
      | none => pure none
      | some tn => pure (some (some (tn, tn)))
  else
    match times with
    | none => pure (some none)
    | some times =>
      let s ← load
      let userOffset2 : Timeval := ⟨s.userOffset.tvSec, s.userOffset.tvNsec.tdiv 1000⟩
      pure (some (some (timersub times.1 userOffset2, timersub times.2 userOffset2)))

/-- One round of the loop of `fake_two_timespec`. The faked time of now is asked for at most once:
`now` is what is known of it. -/
def fakeTimespec (B : Build) (fakeUtimeDisabled : Bool) (now : Option Timespec) (t : Timespec) :
    Sys (Option (Timespec × Option Timespec)) := do
  if fakeUtimeDisabled || t.tvNsec == utimeOmit || t.tvNsec == utimeNow then
    if fakeUtimeDisabled && t.tvNsec == utimeNow then
      match now with
      | some now => pure (some (now, some now))
      | none =>
        match ← fakeCurrentRealtime B with
        | none => pure none
        | some now => pure (some (now, some now))
    else pure (some (t, now))
  else
    let s ← load
    pure (some (timespecsub t s.userOffset, now))

/-- A null pointer stands for two values `UTIME_NOW`. -/
def requestedTimes (times : Option (Timespec × Timespec)) : Timespec × Timespec :=
  times.getD (⟨0, utimeNow⟩, ⟨0, utimeNow⟩)

/-- `fake_two_timespec`. -/
def fakeTwoTimespec (B : Build) (fakeUtimeDisabled : Bool) (times : Option (Timespec × Timespec)) :
    Sys (Option (Timespec × Timespec)) := do
  match ← fakeTimespec B fakeUtimeDisabled none (requestedTimes times).1 with
  | none => pure none
  | some (t₀, now) =>
    match ← fakeTimespec B fakeUtimeDisabled now (requestedTimes times).2 with
    | none => pure none
    | some (t₁, _) => pure (some (t₀, t₁))

/-- **`utimensat`**. -/
def utimensat (B : Build) (fakeUtimeDisabled : Bool) (times : Option (Timespec × Timespec)) :
    Sys (Option (Timespec × Timespec)) := fakeTwoTimespec B fakeUtimeDisabled times

/-- **`futimens`**. -/
def futimens (B : Build) (fakeUtimeDisabled : Bool) (times : Option (Timespec × Timespec)) :
    Sys (Option (Timespec × Timespec)) := fakeTwoTimespec B fakeUtimeDisabled times

/-! ### The system -/

/-- The time a field gets for the request `t` that has the value `old`, at the time `now`. -/
def Timespec.requested (t now old : Timespec) : Timespec :=
  if t.tvNsec = utimeNow then now else if t.tvNsec = utimeOmit then old else t

/-- The system takes no other nanoseconds. -/
def Timespec.Accepted (t : Timespec) : Prop :=
  t.tvNsec = utimeNow ∨ t.tvNsec = utimeOmit ∨ t.Normal

instance (t : Timespec) : Decidable t.Accepted := inferInstanceAs (Decidable (_ ∨ _))

/-- **The real `utimensat`**: the times of the file afterwards, if it succeeds. -/
def Stat.realUtimensat (buf : Stat) (now : Timespec) (tn : Timespec × Timespec) : Option Stat :=
  if tn.1.Accepted ∧ tn.2.Accepted then
    some
      { stCtim := if tn.1.tvNsec = utimeOmit ∧ tn.2.tvNsec = utimeOmit then buf.stCtim else now
        stAtim := tn.1.requested now buf.stAtim
        stMtim := tn.2.requested now buf.stMtim }
  else none

/-- **The real `utimes`**. -/
def Stat.realUtimes (buf : Stat) (now : Timespec) : Option (Timeval × Timeval) → Option Stat
  | none => some ⟨now, now, now⟩
  | some (a, m) =>
    if (0 ≤ a.tvUsec ∧ a.tvUsec < secToUSec) ∧ (0 ≤ m.tvUsec ∧ m.tvUsec < secToUSec) then
      some { buf with
        stCtim := now
        stAtim := ⟨a.tvSec, a.tvUsec * 1000⟩
        stMtim := ⟨m.tvSec, m.tvUsec * 1000⟩ }
    else none

/-- **The real `utime`**. -/
def Stat.realUtime (buf : Stat) (now : Timespec) : Option Utimbuf → Option Stat
  | none => some ⟨now, now, now⟩
  | some times => some { buf with
      stCtim := now
      stAtim := ⟨times.actime, 0⟩
      stMtim := ⟨times.modtime, 0⟩ }

end LibFaketime
