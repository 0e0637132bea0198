import LibFaketime.Lib.Interleave
import LibFaketime.State
import LibFaketime.UTHash

/-!
# Condition variables and their clocks

`pthread_cond_timedwait` has to know by which clock a condition goes, and a condition does not tell.
So `pthread_cond_init` notes the conditions of the monotonic clock in a hash table,
`pthread_cond_destroy` strikes them out, and a wait looks whether the condition is there. The table
is under a lock of its own, which can be had by many readers or one writer.

The threads of a process call the three functions in any order, as long as they keep to the rules
for condition variables (`LibFaketime.Conds.Answers`, where a call begins): a condition is used
between its initialization and its destruction, and nobody else is at it meanwhile. Any call the
functions make may fail at any time.

The table itself is never in danger: it is changed by one thread while no other is in it, it has no
entry whose memory has been given back, and all other memory has been given back when nobody is at
it (`LibFaketime.Conds.registry_is_sound`). What it says is right unless `pthread_cond_destroy` does
not get the lock. It has destroyed the condition by then, and leaves the entry where it is; the next
condition in that place, whatever its clock, is taken for one of the monotonic clock
(`LibFaketime.Conds.waits_by_own_clock_iff`).
-/

namespace LibFaketime.Conds

open Effects Effects.Prog

/-! ### The functions -/

/-- The intercepted calls, with the clock of the attribute where there is one. -/
inductive Call (C : Type) where
  | init (cond : C) (attr : Option ClockId)
  | destroy (cond : C)
  | timedwait (cond : C)

/-- The condition a call is about. -/
def Call.cond {C : Type} : Call C → C
  | .init cond _ | .destroy cond | .timedwait cond => cond

/-- What a thread is in the table for. -/
inductive Access where
  | read
  | write
deriving DecidableEq, Repr

/-- The calls the functions make. -/
inductive Op (C E : Type) where
  /-- The function is entered. -/
  | enter (call : Call C)
  | realCondInit (cond : C) (attr : Option ClockId)
  | realCondDestroy (cond : C)
  | condattrGetclock (attr : ClockId)
  | malloc
  | free (e : E)
  /-- `pthread_rwlock_wrlock`, in `pthread_cond_destroy` or not. -/
  | wrlock (destroying : Bool)
  | rdlock
  | unlock
  /-- One of the macros begins, and the next call is its end. -/
  | enterTable (access : Access)
  | hashAdd (e : E) (cond : C)
  | hashDel (e : E)
  | hashFind (cond : C)
  /-- The rest of `pthread_cond_timedwait_common`, with the clock that has been found. -/
  | timedwait (cond : C) (clkId : ClockId)

/-- The answers. -/
def Op.Ans {C E : Type} : Op C E → Type
  | .condattrGetclock _ => Except ℤ ClockId
  | .malloc => Option E
  | .hashFind _ => Option E
  | .enter _ | .free _ | .enterTable _ | .hashAdd _ _ | .hashDel _ => Unit
  | .realCondInit _ _ | .realCondDestroy _ | .wrlock _ | .rdlock | .unlock | .timedwait _ _ => ℤ

/-- The calls as an interface. -/
def calls (C E : Type) : Interface := ⟨Op C E, Op.Ans⟩

section Functions

variable {C E : Type}

/-- Make a call. -/
def call (o : Op C E) : Prog (calls C E) o.Ans := Prog.perform (I := calls C E) o

def realCondInit (cond : C) (attr : Option ClockId) : Prog (calls C E) ℤ :=
  call (.realCondInit cond attr)

def realCondDestroy (cond : C) : Prog (calls C E) ℤ := call (.realCondDestroy cond)

def condattrGetclock (attr : ClockId) : Prog (calls C E) (Except ℤ ClockId) :=
  call (.condattrGetclock attr)

def malloc : Prog (calls C E) (Option E) := call .malloc

def free (e : E) : Prog (calls C E) Unit := call (.free e)

def wrlock (destroying : Bool) : Prog (calls C E) ℤ := call (.wrlock destroying)

def rdlock : Prog (calls C E) ℤ := call .rdlock

def unlock : Prog (calls C E) ℤ := call .unlock

def timedwaitBy (cond : C) (clkId : ClockId) : Prog (calls C E) ℤ := call (.timedwait cond clkId)

/-- `HASH_ADD_PTR`. -/
def hashAddPtr (e : E) (cond : C) : Prog (calls C E) Unit := do
  let _ ← call (.enterTable .write)
  call (.hashAdd e cond)

/-- `HASH_DEL`. -/
def hashDelete (e : E) : Prog (calls C E) Unit := do
  let _ ← call (.enterTable .write)
  call (.hashDel e)

/-- `HASH_FIND_PTR`. -/
def hashFindPtr (cond : C) : Prog (calls C E) (Option E) := do
  let _ ← call (.enterTable .read)
  call (.hashFind cond)

/-- `ENOMEM`. -/
def enomem : ℤ := 12

/-- `pthread_cond_init` gives up. -/
def giveUp (cond : C) (result : ℤ) : Prog (calls C E) ℤ := do
  let _ ← realCondDestroy cond
  pure result

/-- The end of `pthread_cond_init` on a condition of the monotonic clock, with the memory for its
entry. -/
def noteMonotonic (cond : C) (e : E) : Prog (calls C E) ℤ := do
  let result ← wrlock false
  if result ≠ 0 then
    free e
    giveUp cond result
  else
    hashAddPtr e cond
    let result ← unlock
    if result ≠ 0 then
      hashDelete e
      free e
      giveUp cond result
    else pure result

/-- What `pthread_cond_init` does for the clock of the condition. -/
def noteClock (cond : C) (clockId : ClockId) : Prog (calls C E) ℤ := do
  if clockId = .monotonic then
    match ← malloc with
    | none => giveUp cond enomem
    | some e => noteMonotonic cond e
  else pure 0

/-- `pthread_cond_init_232`. -/
def pthreadCondInit (cond : C) (attr : Option ClockId) : Prog (calls C E) ℤ := do
  let result ← realCondInit cond attr
  if result ≠ 0 then pure result
  else
    match attr with
    | none => pure result
    | some attr =>
      match ← condattrGetclock attr with
      | .error result => pure result
      | .ok clockId => noteClock cond clockId

/-- What is done with the entry that has been found. -/
def strikeOut : Option E → Prog (calls C E) Unit
  | none => pure ()
  | some e => do
    hashDelete e
    free e

/-- `pthread_cond_destroy_232`. -/
def pthreadCondDestroy (cond : C) : Prog (calls C E) ℤ := do
  let result ← realCondDestroy cond
  if result ≠ 0 then pure result
  else
    let result ← wrlock true
    if result ≠ 0 then pure result
    else
      let e ← hashFindPtr cond
      strikeOut e
      unlock

/-- `pthread_cond_timedwait_common` up to where it knows the clock. -/
def pthreadCondTimedwait (cond : C) : Prog (calls C E) ℤ := do
  let result ← rdlock
  if result ≠ 0 then pure result
  else
    let e ← hashFindPtr cond
    let result ← unlock
    if result ≠ 0 then pure result
    else timedwaitBy cond (if e.isSome then .monotonic else .realtime)

/-- The function that is called. -/
def Call.body : Call C → Prog (calls C E) ℤ
  | .init cond attr => pthreadCondInit cond attr
  | .destroy cond => pthreadCondDestroy cond
  | .timedwait cond => pthreadCondTimedwait cond

/-- A call from its beginning to its end. -/
def Call.run (c : Call C) : Prog (calls C E) (Call C × ℤ) := do
  let _ ← call (.enter c)
  let result ← c.body
  pure (c, result)

end Functions

/-! ### The process -/

/-- What the threads know of a condition by themselves. -/
inductive Status (T : Type) where
  /-- It is not initialized. -/
  | raw
  /-- It is initialized, with the clock. -/
  | ready (clkId : ClockId)
  /-- A thread initializes or destroys it. -/
  | busy (t : T)

/-- Whose an address is. -/
inductive Owner (T : Type) where
  | unused
  /-- A thread has allocated it, or has taken it out of the table. -/
  | thread (t : T)
  /-- It is an entry of the table. -/
  | table

/-- The memory of the process. The contents of the table are kept beside it, and so are the clocks
by which the waits have gone, each with what the condition was at that time, and whether anybody has
given back memory that was not his, or put it into the table, or taken out what was not there. -/
structure Mem (T C E : Type) where
  status : C → Status T
  /-- The clock the real function has initialized the condition with. -/
  real : C → Option ClockId
  /-- The condition a thread is about to wait on. -/
  waiting : T → Option C
  monotonicConds : UTHash E C
  entries : List (E × C)
  heap : E → Owner T
  writer : Option T
  readers : T → ℕ
  /-- What a thread is in the table for. -/
  inside : T → Option Access
  waits : List (Status T × ClockId)
  misused : Prop

/-- The clock of an attribute. -/
def clockOf (attr : Option ClockId) : ClockId := attr.getD .realtime

/-- The clocks an attribute may have. -/
def Settable (attr : Option ClockId) : Prop :=
  clockOf attr = .realtime ∨ clockOf attr = .monotonic

section Process

variable {T C E : Type} [DecidableEq T] [DecidableEq C] [DecidableEq E]

/-- **What a call of a thread does.** The function of the hash table is `hash`, and with `stray`
unset `pthread_cond_destroy` always gets the lock. -/
def Answers (hash : C → ℕ) (stray : Bool) (t : T) (m : Mem T C E) :
    (o : Op C E) → o.Ans → Mem T C E → Prop
  | .enter (.init cond _), _, m' => m.status cond = .raw ∧
    m' = { m with status := Function.update m.status cond (.busy t) }
  | .enter (.destroy cond), _, m' => (∃ clkId, m.status cond = .ready clkId) ∧
    (∀ u, m.waiting u ≠ some cond) ∧
    m' = { m with status := Function.update m.status cond (.busy t) }
  | .enter (.timedwait cond), _, m' => (∃ clkId, m.status cond = .ready clkId) ∧
    m' = { m with waiting := Function.update m.waiting t (some cond) }
  | .realCondInit cond attr, (r : ℤ), m' => m' =
    if r = 0 then { m with real := Function.update m.real cond (some (clockOf attr)) } else m
  | .realCondDestroy cond, (r : ℤ), m' => m' =
    if r = 0 then { m with real := Function.update m.real cond none } else m
  | .condattrGetclock attr, (r : Except ℤ ClockId), m' => m' = m ∧
    match r with
    | .ok clkId => clkId = attr
    | .error result => result ≠ 0
  | .malloc, (r : Option E), m' =>
    match r with
    | none => m' = m
    | some e => m.heap e = .unused ∧ m' = { m with heap := Function.update m.heap e (.thread t) }
  | .free e, _, m' =>
    m' = { m with
      heap := Function.update m.heap e .unused
      misused := m.misused ∨ m.heap e ≠ .thread t }
  | .wrlock destroying, (r : ℤ), m' =>
    if r = 0 then m.writer = none ∧ (∀ u, m.readers u = 0) ∧ m' = { m with writer := some t }
    else (destroying = true → stray = true) ∧ m' = m
  | .rdlock, (r : ℤ), m' =>
    if r = 0 then m.writer = none ∧
      m' = { m with readers := Function.update m.readers t (m.readers t + 1) }
    else m' = m
  | .unlock, (r : ℤ), m' => m' =
    if r = 0 then
      if m.writer = some t then { m with writer := none }
      else { m with readers := Function.update m.readers t (m.readers t - 1) }
    else m
  | .enterTable access, _, m' =>
    m' = { m with inside := Function.update m.inside t (some access) }
  | .hashAdd e cond, _, m' => ∃ oom tbl, hashAdd hash oom m.monotonicConds e cond = some tbl ∧
    m' = { m with
      monotonicConds := tbl
      entries := m.entries ++ [(e, cond)]
      heap := Function.update m.heap e .table
      inside := Function.update m.inside t none
      misused := m.misused ∨ m.heap e ≠ .thread t }
  | .hashDel e, _, m' =>
    m' = { m with
      monotonicConds := LibFaketime.hashDel m.monotonicConds e
      entries := m.entries.filter fun p => p.1 != e
      heap := Function.update m.heap e (.thread t)
      inside := Function.update m.inside t none
      misused := m.misused ∨ m.heap e ≠ .table }
  | .hashFind cond, (r : Option E), m' => hashFind hash m.monotonicConds cond = some r ∧
    m' = { m with inside := Function.update m.inside t none }
  | .timedwait cond clkId, _, m' => m' = { m with waits := (m.status cond, clkId) :: m.waits }

/-- What the return of a call makes of the memory. A condition that has not been destroyed is as it
was. -/
def Returned (t : T) : Call C × ℤ → Mem T C E → Mem T C E → Prop
  | (.init cond attr, result), m, m' => m' =
    { m with
      status := Function.update m.status cond (if result = 0 then .ready (clockOf attr) else .raw) }
  | (.destroy cond, _), m, m' => m' =
    { m with
      status := Function.update m.status cond ((m.real cond).elim .raw .ready) }
  | (.timedwait _, _), m, m' => m' = { m with waiting := Function.update m.waiting t none }

/-- The calls a program may make. -/
def Call.Allowed : Call C → Prop
  | .init _ attr => Settable attr
  | _ => True

/-- **Threads that use condition variables.** -/
def condMachine (T : Type) (C : Type) (E : Type) [DecidableEq T] [DecidableEq C] [DecidableEq E]
    (hash : C → ℕ) (stray : Bool) : Machine (calls C E) T (Mem T C E) (Call C × ℤ) where
  ops := Answers hash stray
  start _ _ p := ∃ c : Call C, c.Allowed ∧ p = c.run
  finish := Returned

/-- A process that has used none yet. -/
structure Mem.Fresh (m : Mem T C E) : Prop where
  status : ∀ cond, m.status cond = .raw
  waiting : ∀ t, m.waiting t = none
  table : m.monotonicConds.head = none
  entries : m.entries = []
  heap : ∀ e, m.heap e = .unused
  writer : m.writer = none
  readers : ∀ t, m.readers t = 0
  inside : ∀ t, m.inside t = none
  waits : m.waits = []
  misused : ¬ m.misused

end Process

/-- A process with threads, conditions and memory. -/
def noConds : Mem ℕ ℕ ℕ where
  status _ := .raw
  real _ := none
  waiting _ := none
  monotonicConds := ⟨none, hashMakeTable 0, ⟨fun _ => none, fun _ => none, fun _ => none,
    fun _ => none, fun _ => 0, fun _ => 0⟩⟩
  entries := []
  heap _ := .unused
  writer := none
  readers _ := 0
  inside _ := none
  waits := []
  misused := False

theorem noConds_fresh : noConds.Fresh :=
  ⟨fun _ => rfl, fun _ => rfl, rfl, rfl, fun _ => rfl, rfl, fun _ => rfl, fun _ => rfl, rfl, id⟩

/-! ### What holds at any time -/

section Invariant

variable {T C E : Type}

/-- The entries of a condition. -/
def Mem.nodesOf (m : Mem T C E) (cond : C) : Set E := {e | (e, cond) ∈ m.entries}

/-- What the table should say of a condition with the clock. -/
def Noted (clkId : ClockId) (nodes : Set E) : Prop :=
  if clkId = .monotonic then ∃ e, nodes = {e} else nodes = ∅

/-- **The table is in order**, and who is in it has the lock for it. -/
structure Mem.Sound (hash : C → ℕ) (m : Mem T C E) : Prop where
  keyed : m.monotonicConds.Keyed hash m.entries
  entered : ∀ e, m.heap e = .table ↔ e ∈ m.entries.map Prod.fst
  exclusive : ∀ t, m.writer = some t → ∀ u, m.readers u = 0
  writes : ∀ t, m.inside t = some .write → m.writer = some t
  reads : ∀ t, m.inside t = some .read → m.writer = some t ∨ 0 < m.readers t
  waiting : ∀ t cond, m.waiting t = some cond → ∃ clkId, m.status cond = .ready clkId
  clock : ∀ cond clkId, m.status cond = .ready clkId →
    m.real cond = some clkId ∧ (clkId = .realtime ∨ clkId = .monotonic)
  used : ¬ m.misused

/-- **The table is right**, and so were the waits. -/
structure Mem.Registered (m : Mem T C E) : Prop where
  raw : ∀ cond, m.status cond = .raw → m.nodesOf cond = ∅
  ready : ∀ cond clkId, m.status cond = .ready clkId → Noted clkId (m.nodesOf cond)
  waits : ∀ w ∈ m.waits, w.1 = .ready w.2

/-! ### What a thread knows -/

/-- What no other thread can change. -/
@[ext]
structure Mine (C E : Type) where
  writes : Prop
  readers : ℕ
  inside : Option Access
  waiting : Option C
  nodes : Set E
  busy : Set C

/-- What is known of a condition. -/
@[ext]
structure About (T E : Type) where
  status : Status T
  real : Option ClockId
  nodes : Set E

def Mem.mine (m : Mem T C E) (t : T) : Mine C E where
  writes := m.writer = some t
  readers := m.readers t
  inside := m.inside t
  waiting := m.waiting t
  nodes := {e | m.heap e = .thread t}
  busy := {cond | m.status cond = .busy t}

def Mem.about (m : Mem T C E) (cond : C) : About T E := ⟨m.status cond, m.real cond, m.nodesOf cond⟩

/-- The thread is at the condition, so that nobody else changes it. -/
def Mine.Has (v : Mine C E) (cond : C) : Prop := cond ∈ v.busy ∨ v.waiting = some cond

/-- **What threads rely on.** -/
def registry (hash : C → ℕ) (stray : Bool) : Protocol T (Mem T C E) where
  inv m := m.Sound hash ∧ (stray = false → m.Registered)
  rely t m m' :=
    m'.mine t = m.mine t ∧ ∀ cond, (m.mine t).Has cond → m'.about cond = m.about cond
  rely_refl _ _ := ⟨rfl, fun _ _ => rfl⟩
  rely_trans _ _ _ _ h₁ h₂ :=
    ⟨h₂.1.trans h₁.1, fun cond hcond => (h₂.2 cond (h₁.1 ▸ hcond)).trans (h₁.2 cond hcond)⟩

/-- What a thread that is at a condition sees. -/
@[ext]
structure Seen (T C E : Type) where
  mine : Mine C E
  about : About T E

/-- The calls a thread may make that is at the condition `cond`. -/
def May (stray : Bool) (t : T) (cond : C) (v : Seen T C E) : Op C E → Prop
  | .enter _ => False
  | .realCondInit cond' _ | .realCondDestroy cond' => cond' = cond ∧ v.about.status = .busy t
  | .condattrGetclock _ | .malloc | .wrlock _ | .rdlock => True
  | .free e => e ∈ v.mine.nodes
  | .unlock => v.mine.inside = none
  | .enterTable .write => v.mine.writes
  | .enterTable .read => v.mine.writes ∨ 0 < v.mine.readers
  | .hashAdd e cond' => cond' = cond ∧ v.about.status = .busy t ∧ e ∈ v.mine.nodes
  | .hashDel e => e ∈ v.about.nodes ∧ v.about.status = .busy t
  | .hashFind cond' => cond' = cond
  | .timedwait cond' clkId => cond' = cond ∧ (stray = false → v.about.status = .ready clkId)

/-- What it sees of its calls. -/
def Sees (stray : Bool) (v : Seen T C E) : (o : Op C E) → o.Ans → Seen T C E → Prop
  | .enter _, _, _ => True
  | .realCondInit _ attr, (r : ℤ), v' => v' =
    if r = 0 then { v with about := { v.about with real := some (clockOf attr) } } else v
  | .realCondDestroy _, (r : ℤ), v' => v' =
    if r = 0 then { v with about := { v.about with real := none } } else v
  | .condattrGetclock attr, (r : Except ℤ ClockId), v' => v' = v ∧
    match r with
    | .ok clkId => clkId = attr
    | .error result => result ≠ 0
  | .malloc, (r : Option E), v' =>
    match r with
    | none => v' = v
    | some e => v' = { v with mine := { v.mine with nodes := insert e v.mine.nodes } }
  | .free e, _, v' => v' = { v with mine := { v.mine with nodes := v.mine.nodes \ {e} } }
  | .wrlock destroying, (r : ℤ), v' =>
    if r = 0 then v' = { v with mine := { v.mine with writes := True } }
    else (destroying = true → stray = true) ∧ v' = v
  | .rdlock, (r : ℤ), v' => v' =
    if r = 0 then { v with mine := { v.mine with readers := v.mine.readers + 1 } } else v
  | .unlock, (r : ℤ), v' =>
    if r = 0 then ∃ n, v' = { v with mine := { v.mine with writes := False, readers := n } }
    else v' = v
  | .enterTable access, _, v' => v' = { v with mine := { v.mine with inside := some access } }
  | .hashAdd e _, _, v' => v' =
    { mine := { v.mine with nodes := v.mine.nodes \ {e}, inside := none }
      about := { v.about with nodes := insert e v.about.nodes } }
  | .hashDel e, _, v' => v' =
    { mine := { v.mine with nodes := insert e v.mine.nodes, inside := none }
      about := { v.about with nodes := v.about.nodes \ {e} } }
  | .hashFind _, (r : Option E), v' => v' = { v with mine := { v.mine with inside := none } } ∧
    match r with
    | none => v.about.nodes = ∅
    | some e => e ∈ v.about.nodes
  | .timedwait _ _, _, v' => v' = v

/-! ### One step -/

variable {hash : C → ℕ} {stray : Bool} {t u : T} {m m' : Mem T C E} {cond : C} {e : E}

/-- Nobody else is at a condition that a thread initializes or destroys. -/
theorem Mem.Sound.not_has (h : m.Sound hash) (hbusy : m.status cond = .busy t) (hu : u ≠ t) :
    ¬ (m.mine u).Has cond := by
  rintro (hstatus | hwaiting)
  · have hstatus : m.status cond = .busy u := hstatus
    rw [hbusy, Status.busy.injEq] at hstatus
    exact hu hstatus.symm
  · obtain ⟨clkId, hready⟩ := h.waiting u cond hwaiting
    rw [hbusy] at hready
    cases hready

/-- A step at a condition that the thread is at. -/
theorem guar_of_busy (h : m.Sound hash) (hbusy : m.status cond = .busy t)
    (hmine : ∀ u, u ≠ t → m'.mine u = m.mine u)
    (habout : ∀ cond', cond' ≠ cond → m'.about cond' = m.about cond') :
    (registry hash stray).Guar t m m' := by
  refine fun u hu => ⟨hmine u hu, fun cond' hcond' => habout cond' ?_⟩
  rintro rfl
  exact h.not_has hbusy hu hcond'

/-- Only the conditions, the entries and the waits matter. -/
theorem Mem.Registered.congr (h : m.Registered) (hstatus : m'.status = m.status)
    (hentries : m'.entries = m.entries) (hwaits : m'.waits = m.waits) : m'.Registered where
  raw cond hraw := by
    rw [hstatus] at hraw
    rw [Mem.nodesOf, hentries]
    exact h.raw cond hraw
  ready cond clkId hready := by
    rw [hstatus] at hready
    rw [Mem.nodesOf, hentries]
    exact h.ready cond clkId hready
  waits w hw := h.waits w (hwaits ▸ hw)

/-- The table says of the other conditions what it said. -/
theorem Mem.Registered.of_busy (h : m.Registered) (hbusy : m.status cond = .busy t)
    (hstatus : m'.status cond = .busy t)
    (habout : ∀ cond', cond' ≠ cond → m'.about cond' = m.about cond')
    (hwaits : m'.waits = m.waits) : m'.Registered where
  raw cond' hraw := by
    have hne : cond' ≠ cond := by
      rintro rfl
      rw [hstatus] at hraw
      cases hraw
    have hsame := habout cond' hne
    have hsame_status : m'.status cond' = m.status cond' := congrArg About.status hsame
    exact (congrArg About.nodes hsame).trans (h.raw cond' (hsame_status ▸ hraw))
  ready cond' clkId hready := by
    have hne : cond' ≠ cond := by
      rintro rfl
      rw [hstatus] at hready
      cases hready
    have hsame := habout cond' hne
    have hsame_status : m'.status cond' = m.status cond' := congrArg About.status hsame
    have hsame_nodes : m'.nodesOf cond' = m.nodesOf cond' := congrArg About.nodes hsame
    rw [hsame_nodes]
    exact h.ready cond' clkId (hsame_status ▸ hready)
  waits w hw := h.waits w (hwaits ▸ hw)

end Invariant

section Step

variable {T C E : Type} {hash : C → ℕ} {stray : Bool} {t u : T} {m m' : Mem T C E} {cond : C}
  {e : E}

/-- The addresses of the others when one changes hands. -/
theorem nodes_update [DecidableEq E] {heap : E → Owner T} {o : Owner T} (hold : heap e ≠ .thread u)
    (hnew : o ≠ .thread u) :
    {x | Function.update heap e o x = .thread u} = {x | heap x = .thread u} := by
  ext x
  rcases eq_or_ne x e with rfl | hx
  · simp only [Set.mem_ofPred_eq, Function.update_self, hold, hnew]
  · simp only [Set.mem_ofPred_eq, Function.update_of_ne hx]

/-- An address the thread comes to own. -/
theorem nodes_insert [DecidableEq E] {heap : E → Owner T} :
    {x | Function.update heap e (.thread t) x = .thread t} = insert e {x | heap x = .thread t} := by
  ext x
  rcases eq_or_ne x e with rfl | hx
  · simp only [Set.mem_ofPred_eq, Function.update_self, Set.mem_insert_iff, true_or]
  · simp only [Set.mem_ofPred_eq, Function.update_of_ne hx, Set.mem_insert_iff, hx, false_or]

/-- An address the thread owns no more. -/
theorem nodes_sdiff [DecidableEq E] {heap : E → Owner T} {o : Owner T} (hnew : o ≠ .thread t) :
    {x | Function.update heap e o x = .thread t} = {x | heap x = .thread t} \ {e} := by
  ext x
  rcases eq_or_ne x e with rfl | hx
  · simp only [Set.mem_ofPred_eq, Function.update_self, hnew, Set.mem_sdiff, Set.mem_singleton_iff,
      not_true_eq_false, and_false]
  · simp only [Set.mem_ofPred_eq, Function.update_of_ne hx, Set.mem_sdiff, Set.mem_singleton_iff,
      hx, not_false_eq_true, and_true]

/-- The real functions change what the condition is. -/
theorem stepped_real [DecidableEq C] {v : Option ClockId} (hinv : (registry hash stray).inv m)
    (hbusy : m.status cond = .busy t) :
    (registry hash stray).inv { m with real := Function.update m.real cond v } ∧
      (registry hash stray).Guar t m { m with real := Function.update m.real cond v } := by
  have habout : ∀ cond', cond' ≠ cond →
      Mem.about { m with real := Function.update m.real cond v } cond' = m.about cond' := by
    intro cond' hne
    ext1
    · rfl
    · exact Function.update_of_ne hne ..
    · rfl
  refine ⟨⟨⟨hinv.1.keyed, hinv.1.entered, hinv.1.exclusive, hinv.1.writes, hinv.1.reads,
    hinv.1.waiting, fun cond' clkId hready => ?_, hinv.1.used⟩, fun hs => ?_⟩, ?_⟩
  · have hne : cond' ≠ cond := by
      rintro rfl
      rw [hbusy] at hready
      cases hready
    exact ⟨(Function.update_of_ne hne ..).trans (hinv.1.clock cond' clkId hready).1,
      (hinv.1.clock cond' clkId hready).2⟩
  · exact (hinv.2 hs).of_busy hbusy hbusy habout rfl
  · exact guar_of_busy hinv.1 hbusy (fun _ _ => rfl) habout

/-- An address changes hands that is no entry. -/
theorem stepped_heap [DecidableEq E] {o : Owner T} (hinv : (registry hash stray).inv m)
    (hold : m.heap e = .unused ∨ m.heap e = .thread t) (hnew : o = .unused ∨ o = .thread t) :
    (registry hash stray).inv { m with heap := Function.update m.heap e o } ∧
      (registry hash stray).Guar t m { m with heap := Function.update m.heap e o } := by
  refine ⟨⟨⟨hinv.1.keyed, fun x => ?_, hinv.1.exclusive, hinv.1.writes, hinv.1.reads,
    hinv.1.waiting, hinv.1.clock, hinv.1.used⟩, fun hs => (hinv.2 hs).congr rfl rfl rfl⟩,
    fun u hu => ⟨?_, fun _ _ => rfl⟩⟩
  · rw [← hinv.1.entered]
    rcases eq_or_ne x e with rfl | hx
    · have hfst : m.heap x ≠ .table := by
        rcases hold with h | h <;> rw [h] <;> exact nofun
      have hsnd : o ≠ .table := by
        rcases hnew with rfl | rfl <;> exact nofun
      change Function.update m.heap x o x = .table ↔ _
      rw [Function.update_self]
      exact iff_of_false hsnd hfst
    · change Function.update m.heap e o x = .table ↔ _
      rw [Function.update_of_ne hx]
  · have hfst : m.heap e ≠ .thread u := by
      rcases hold with h | h <;> rw [h]
      · exact nofun
      · exact fun heq => hu (Owner.thread.inj heq).symm
    have hsnd : o ≠ .thread u := by
      rcases hnew with rfl | rfl
      · exact nofun
      · exact fun heq => hu (Owner.thread.inj heq).symm
    ext1
    · rfl
    · rfl
    · rfl
    · rfl
    · exact nodes_update hfst hsnd
    · rfl

/-- A thread gets the lock for writing. -/
theorem stepped_wrlock (hinv : (registry hash stray).inv m) (hwriter : m.writer = none)
    (hreaders : ∀ u, m.readers u = 0) : (registry hash stray).inv { m with writer := some t } ∧
      (registry hash stray).Guar t m { m with writer := some t } := by
  refine ⟨⟨⟨hinv.1.keyed, hinv.1.entered, fun _ _ => hreaders, fun u hu => ?_, fun u hu => ?_,
    hinv.1.waiting, hinv.1.clock, hinv.1.used⟩, fun hs => (hinv.2 hs).congr rfl rfl rfl⟩,
    fun u hu => ⟨?_, fun _ _ => rfl⟩⟩
  · have hwrites := hinv.1.writes u hu
    rw [hwriter] at hwrites
    cases hwrites
  · rcases hinv.1.reads u hu with hwrites | hpos
    · rw [hwriter] at hwrites
      cases hwrites
    · rw [hreaders u] at hpos
      exact absurd hpos (Nat.lt_irrefl 0)
  · ext1
    · change (some t = some u) = (m.writer = some u)
      rw [hwriter]
      exact propext (iff_of_false (fun h => hu (Option.some.inj h).symm) nofun)
    · rfl
    · rfl
    · rfl
    · rfl
    · rfl

/-- A thread gets the lock for reading. -/
theorem stepped_rdlock [DecidableEq T] (hinv : (registry hash stray).inv m)
    (hwriter : m.writer = none) :
    (registry hash stray).inv
        { m with readers := Function.update m.readers t (m.readers t + 1) } ∧
      (registry hash stray).Guar t m
        { m with readers := Function.update m.readers t (m.readers t + 1) } := by
  refine ⟨⟨⟨hinv.1.keyed, hinv.1.entered, fun u hu => ?_, hinv.1.writes, fun u hu => ?_,
    hinv.1.waiting, hinv.1.clock, hinv.1.used⟩, fun hs => (hinv.2 hs).congr rfl rfl rfl⟩,
    fun u hu => ⟨?_, fun _ _ => rfl⟩⟩
  · have hu : m.writer = some u := hu
    rw [hwriter] at hu
    cases hu
  · refine (hinv.1.reads u hu).imp_right fun hpos => ?_
    rcases eq_or_ne u t with rfl | hne
    · change 0 < Function.update m.readers u (m.readers u + 1) u
      rw [Function.update_self]
      exact Nat.succ_pos _
    · change 0 < Function.update m.readers t (m.readers t + 1) u
      rwa [Function.update_of_ne hne]
  · ext1
    · rfl
    · exact Function.update_of_ne hu ..
    · rfl
    · rfl
    · rfl
    · rfl

/-- A thread gives the lock back. -/
theorem stepped_unlock [DecidableEq T] (hinv : (registry hash stray).inv m)
    (hinside : m.inside t = none) :
    (registry hash stray).inv (if m.writer = some t then { m with writer := none }
        else { m with readers := Function.update m.readers t (m.readers t - 1) }) ∧
      (registry hash stray).Guar t m (if m.writer = some t then { m with writer := none }
        else { m with readers := Function.update m.readers t (m.readers t - 1) }) := by
  -- whoever is inside is another thread, and its lock is left alone
  have houtside : ∀ u a, m.inside u = some a → u ≠ t := by
    rintro u a hu rfl
    rw [hinside] at hu
    cases hu
  split
  next hwriter =>
    have hother : ∀ u, m.writer = some u → u = t := fun u hu =>
      Option.some.inj (hu.symm.trans hwriter)
    refine ⟨⟨⟨hinv.1.keyed, hinv.1.entered, fun _ hu => (nomatch hu), fun u hu => ?_,
      fun u hu => ?_, hinv.1.waiting, hinv.1.clock, hinv.1.used⟩,
      fun hs => (hinv.2 hs).congr rfl rfl rfl⟩,
      fun u hu => ⟨?_, fun _ _ => rfl⟩⟩
    · exact absurd (hother u (hinv.1.writes u hu)) (houtside u _ hu)
    · rcases hinv.1.reads u hu with hwrites | hpos
      · exact absurd (hother u hwrites) (houtside u _ hu)
      · exact Or.inr hpos
    · ext1
      · exact propext (iff_of_false nofun fun h => hu (hother u h))
      · rfl
      · rfl
      · rfl
      · rfl
      · rfl
  next hwriter =>
    refine ⟨⟨⟨hinv.1.keyed, hinv.1.entered, fun u hu v => ?_, hinv.1.writes, fun u hu => ?_,
      hinv.1.waiting, hinv.1.clock, hinv.1.used⟩,
      fun hs => (hinv.2 hs).congr rfl rfl rfl⟩,
      fun u hu => ⟨?_, fun _ _ => rfl⟩⟩
    · have hzero := hinv.1.exclusive u hu
      change Function.update m.readers t (m.readers t - 1) v = 0
      rw [hzero t]
      rcases eq_or_ne v t with rfl | hne
      · rw [Function.update_self]
      · rw [Function.update_of_ne hne, hzero v]
    · refine (hinv.1.reads u hu).imp_right fun hpos => ?_
      change 0 < Function.update m.readers t (m.readers t - 1) u
      rwa [Function.update_of_ne (houtside u _ hu)]
    · ext1
      · rfl
      · exact Function.update_of_ne hu ..
      · rfl
      · rfl
      · rfl
      · rfl

/-- A thread goes into the table, or comes out. -/
theorem stepped_inside [DecidableEq T] {a : Option Access} (hinv : (registry hash stray).inv m)
    (hwrite : a = some .write → m.writer = some t)
    (hread : a = some .read → m.writer = some t ∨ 0 < m.readers t) :
    (registry hash stray).inv { m with inside := Function.update m.inside t a } ∧
      (registry hash stray).Guar t m { m with inside := Function.update m.inside t a } := by
  refine ⟨⟨⟨hinv.1.keyed, hinv.1.entered, hinv.1.exclusive, fun u hu => ?_, fun u hu => ?_,
    hinv.1.waiting, hinv.1.clock, hinv.1.used⟩, fun hs => (hinv.2 hs).congr rfl rfl rfl⟩,
    fun u hu => ⟨?_, fun _ _ => rfl⟩⟩
  · change Function.update m.inside t a u = _ at hu
    rcases eq_or_ne u t with rfl | hne
    · rw [Function.update_self] at hu
      exact hwrite hu
    · rw [Function.update_of_ne hne] at hu
      exact hinv.1.writes u hu
  · change Function.update m.inside t a u = _ at hu
    rcases eq_or_ne u t with rfl | hne
    · rw [Function.update_self] at hu
      exact hread hu
    · rw [Function.update_of_ne hne] at hu
      exact hinv.1.reads u hu
  · ext1
    · rfl
    · rfl
    · exact Function.update_of_ne hu ..
    · rfl
    · rfl
    · rfl

/-- An entry is made of an address the thread owns. -/
theorem stepped_hashAdd [DecidableEq E] {oom : Bool} {tbl : UTHash E C}
    (hinv : (registry hash stray).inv m) (hbusy : m.status cond = .busy t)
    (hown : m.heap e = .thread t)
    (htbl : hashAdd hash oom m.monotonicConds e cond = some tbl) :
    (registry hash stray).inv { m with
        monotonicConds := tbl
        entries := m.entries ++ [(e, cond)]
        heap := Function.update m.heap e .table } ∧
      (registry hash stray).Guar t m { m with
        monotonicConds := tbl
        entries := m.entries ++ [(e, cond)]
        heap := Function.update m.heap e .table } := by
  have hfresh : e ∉ m.entries.map Prod.fst := by
    rw [← hinv.1.entered, hown]
    exact nofun
  have hkeyed : tbl.Keyed hash (m.entries ++ [(e, cond)]) := by
    rcases hashAdd_keyed oom hinv.1.keyed hfresh with ⟨hnone, -⟩ | ⟨tbl', htbl', hkeyed⟩
    · rw [htbl] at hnone
      cases hnone
    · rw [htbl] at htbl'
      exact Option.some.inj htbl' ▸ hkeyed
  -- the entry is one of this condition, and no other one sees it
  have habout : ∀ cond', cond' ≠ cond → Mem.about { m with
      monotonicConds := tbl
      entries := m.entries ++ [(e, cond)]
      heap := Function.update m.heap e .table } cond' = m.about cond' := by
    intro cond' hne
    ext1
    · rfl
    · rfl
    · ext x
      change (x, cond') ∈ m.entries ++ [(e, cond)] ↔ (x, cond') ∈ m.entries
      rw [List.mem_append, List.mem_singleton, Prod.mk.injEq, or_iff_left fun h => hne h.2]
  refine ⟨⟨⟨hkeyed, fun x => ?_, hinv.1.exclusive, hinv.1.writes, hinv.1.reads, hinv.1.waiting,
    hinv.1.clock, hinv.1.used⟩, fun hs => (hinv.2 hs).of_busy hbusy hbusy habout rfl⟩,
    guar_of_busy hinv.1 hbusy (fun u hu => ?_) habout⟩
  · change Function.update m.heap e .table x = .table ↔ x ∈ (m.entries ++ [(e, cond)]).map Prod.fst
    rw [List.map_append, List.mem_append, ← hinv.1.entered, List.map_singleton, List.mem_singleton]
    rcases eq_or_ne x e with rfl | hx
    · rw [Function.update_self]
      exact iff_of_true rfl (Or.inr rfl)
    · rw [Function.update_of_ne hx, or_iff_left hx]
  · ext1
    · rfl
    · rfl
    · rfl
    · rfl
    · refine nodes_update ?_ nofun
      rw [hown]
      exact fun heq => hu (Owner.thread.inj heq).symm
    · rfl

/-- An entry is taken out. -/
theorem stepped_hashDel [DecidableEq E] (hinv : (registry hash stray).inv m)
    (hbusy : m.status cond = .busy t) (he : e ∈ m.nodesOf cond) :
    (registry hash stray).inv { m with
        monotonicConds := hashDel m.monotonicConds e
        entries := m.entries.filter fun p => p.1 != e
        heap := Function.update m.heap e (.thread t) } ∧
      (registry hash stray).Guar t m { m with
        monotonicConds := hashDel m.monotonicConds e
        entries := m.entries.filter fun p => p.1 != e
        heap := Function.update m.heap e (.thread t) } := by
  have hmem : e ∈ m.entries.map Prod.fst := List.mem_map_of_mem he
  have hentry : m.heap e = .table := (hinv.1.entered e).mpr hmem
  have hfilter : ∀ x cond', (x, cond') ∈ m.entries.filter (fun p => p.1 != e) ↔
      (x, cond') ∈ m.entries ∧ x ≠ e := by
    intro x cond'
    rw [List.mem_filter, bne_iff_ne]
  -- an entry of another condition has another key, so it stays
  have habout : ∀ cond', cond' ≠ cond → Mem.about { m with
      monotonicConds := hashDel m.monotonicConds e
      entries := m.entries.filter fun p => p.1 != e
      heap := Function.update m.heap e (.thread t) } cond' = m.about cond' := by
    intro cond' hne
    ext1
    · rfl
    · rfl
    · ext x
      refine (hfilter x cond').trans (and_iff_left_of_imp ?_)
      rintro hx rfl
      exact hne ((hinv.1.keyed.2 _ hx).symm.trans (hinv.1.keyed.2 _ he))
  refine ⟨⟨⟨hashDel_keyed hinv.1.keyed hmem, fun x => ?_, hinv.1.exclusive, hinv.1.writes,
    hinv.1.reads, hinv.1.waiting, hinv.1.clock, hinv.1.used⟩,
    fun hs => (hinv.2 hs).of_busy hbusy hbusy habout rfl⟩,
    guar_of_busy hinv.1 hbusy (fun u hu => ?_) habout⟩
  · change Function.update m.heap e (.thread t) x = .table ↔
      x ∈ (m.entries.filter fun p => p.1 != e).map Prod.fst
    rcases eq_or_ne x e with rfl | hx
    · rw [Function.update_self]
      refine iff_of_false nofun fun h => ?_
      obtain ⟨p, hp, hpx⟩ := List.mem_map.mp h
      exact ((hfilter p.1 p.2).mp hp).2 hpx
    · rw [Function.update_of_ne hx, hinv.1.entered]
      constructor
      · intro h
        obtain ⟨p, hp, rfl⟩ := List.mem_map.mp h
        exact List.mem_map_of_mem ((hfilter p.1 p.2).mpr ⟨hp, hx⟩)
      · intro h
        obtain ⟨p, hp, rfl⟩ := List.mem_map.mp h
        exact List.mem_map_of_mem ((hfilter p.1 p.2).mp hp).1
  · ext1
    · rfl
    · rfl
    · rfl
    · rfl
    · refine nodes_update ?_ fun heq => hu (Owner.thread.inj heq).symm
      rw [hentry]
      exact nofun
    · rfl

/-- The steps of a guarantee, one after the other. -/
theorem guar_trans {m₁ : Mem T C E} (h₁ : (registry hash stray).Guar t m m₁)
    (h₂ : (registry hash stray).Guar t m₁ m') : (registry hash stray).Guar t m m' :=
  fun u hu => (registry hash stray).rely_trans u (h₁ u hu) (h₂ u hu)

variable [DecidableEq T] [DecidableEq C] [DecidableEq E]

/-- What a step at a condition keeps, and what the thread sees of it. -/
def Stepped (hash : C → ℕ) (stray : Bool) (t : T) (cond : C) (m : Mem T C E) (o : Op C E)
    (r : o.Ans) (m' : Mem T C E) : Prop :=
  (registry hash stray).inv m' ∧ (registry hash stray).Guar t m m' ∧ (m'.mine t).Has cond ∧
    Sees stray ⟨m.mine t, m.about cond⟩ o r ⟨m'.mine t, m'.about cond⟩

theorem or_eq_left {p q : Prop} (h : q) : (p ∨ ¬ q) = p :=
  propext (or_iff_left (not_not_intro h))

omit [DecidableEq T] [DecidableEq C] [DecidableEq E] in
/-- A call that changes nothing. -/
theorem step_same {o : Op C E} {r : o.Ans} (hinv : (registry hash stray).inv m)
    (hhas : (m.mine t).Has cond)
    (h : Sees stray ⟨m.mine t, m.about cond⟩ o r ⟨m.mine t, m.about cond⟩) :
    Stepped hash stray t cond m o r m :=
  ⟨hinv, fun u _ => (registry hash stray).rely_refl u m, hhas, h⟩

omit [DecidableEq T] [DecidableEq E] in
/-- The real functions that initialize and destroy. -/
theorem step_realCond {o : Op C E} {r : o.Ans} {result : ℤ} {v : Option ClockId}
    (hinv : (registry hash stray).inv m) (hhas : (m.mine t).Has cond)
    (hbusy : m.status cond = .busy t)
    (hsees : ∀ seen seen' : Seen T C E, (seen' = if result = 0 then
      { seen with about := { seen.about with real := v } } else seen) → Sees stray seen o r seen')
    (h : m' = if result = 0 then { m with real := Function.update m.real cond v } else m) :
    Stepped hash stray t cond m o r m' := by
  subst h
  by_cases hr : result = 0
  · rw [if_pos hr]
    obtain ⟨hinv', hguar⟩ := stepped_real (v := v) hinv hbusy
    refine ⟨hinv', hguar, hhas, hsees _ _ ?_⟩
    rw [if_pos hr]
    ext1
    · rfl
    · ext1
      · rfl
      · exact Function.update_self ..
      · rfl
  · rw [if_neg hr]
    exact step_same hinv hhas (hsees _ _ (if_neg hr).symm)

theorem step_malloc {r : Option E} (hinv : (registry hash stray).inv m)
    (hhas : (m.mine t).Has cond) (h : Answers hash stray t m .malloc r m') :
    Stepped hash stray t cond m .malloc r m' := by
  cases r with
  | none =>
    obtain rfl : m' = m := h
    exact step_same hinv hhas rfl
  | some e =>
    obtain ⟨hunused, rfl⟩ := h
    obtain ⟨hinv', hguar⟩ := stepped_heap (t := t) hinv (Or.inl hunused) (Or.inr rfl)
    refine ⟨hinv', hguar, hhas, ?_⟩
    ext1
    · ext1
      · rfl
      · rfl
      · rfl
      · rfl
      · exact nodes_insert
      · rfl
    · rfl

theorem step_free {r : Unit} (hinv : (registry hash stray).inv m) (hhas : (m.mine t).Has cond)
    (hown : m.heap e = .thread t) (h : Answers hash stray t m (.free e) r m') :
    Stepped hash stray t cond m (.free e) r m' := by
  obtain rfl : m' = _ := h
  rw [or_eq_left hown]
  obtain ⟨hinv', hguar⟩ := stepped_heap (t := t) hinv (Or.inr hown) (Or.inl rfl)
  refine ⟨hinv', hguar, hhas, ?_⟩
  ext1
  · ext1
    · rfl
    · rfl
    · rfl
    · rfl
    · exact nodes_sdiff nofun
    · rfl
  · rfl

theorem step_wrlock {destroying : Bool} {r : ℤ} (hinv : (registry hash stray).inv m)
    (hhas : (m.mine t).Has cond) (h : Answers hash stray t m (.wrlock destroying) r m') :
    Stepped hash stray t cond m (.wrlock destroying) r m' := by
  unfold Answers at h
  dsimp only at h
  by_cases hr : r = 0
  · rw [if_pos hr] at h
    obtain ⟨hwriter, hreaders, rfl⟩ := h
    obtain ⟨hinv', hguar⟩ := stepped_wrlock (t := t) hinv hwriter hreaders
    unfold Stepped Sees
    dsimp only
    rw [if_pos hr]
    refine ⟨hinv', hguar, hhas, ?_⟩
    ext1
    · ext1
      · exact eq_true rfl
      · rfl
      · rfl
      · rfl
      · rfl
      · rfl
    · rfl
  · rw [if_neg hr] at h
    obtain ⟨hstray, rfl⟩ := h
    refine step_same hinv hhas ?_
    unfold Sees
    dsimp only
    rw [if_neg hr]
    exact ⟨hstray, rfl⟩

theorem step_rdlock {r : ℤ} (hinv : (registry hash stray).inv m) (hhas : (m.mine t).Has cond)
    (h : Answers hash stray t m .rdlock r m') : Stepped hash stray t cond m .rdlock r m' := by
  unfold Answers at h
  dsimp only at h
  by_cases hr : r = 0
  · rw [if_pos hr] at h
    obtain ⟨hwriter, rfl⟩ := h
    obtain ⟨hinv', hguar⟩ := stepped_rdlock (t := t) hinv hwriter
    unfold Stepped Sees
    dsimp only
    rw [if_pos hr]
    refine ⟨hinv', hguar, hhas, ?_⟩
    ext1
    · ext1
      · rfl
      · exact Function.update_self ..
      · rfl
      · rfl
      · rfl
      · rfl
    · rfl
  · rw [if_neg hr] at h
    obtain rfl : m' = m := h
    refine step_same hinv hhas ?_
    unfold Sees
    dsimp only
    rw [if_neg hr]

theorem step_unlock {r : ℤ} (hinv : (registry hash stray).inv m) (hhas : (m.mine t).Has cond)
    (hinside : m.inside t = none) (h : Answers hash stray t m .unlock r m') :
    Stepped hash stray t cond m .unlock r m' := by
  obtain rfl : m' = _ := h
  unfold Stepped Sees
  dsimp only
  by_cases hr : r = 0
  · rw [if_pos hr, if_pos hr]
    obtain ⟨hinv', hguar⟩ := stepped_unlock hinv hinside
    refine ⟨hinv', hguar, ?_⟩
    split
    next hwriter =>
      refine ⟨hhas, m.readers t, ?_⟩
      ext1
      · ext1
        · exact eq_false nofun
        · rfl
        · rfl
        · rfl
        · rfl
        · rfl
      · rfl
    next hwriter =>
      refine ⟨hhas, m.readers t - 1, ?_⟩
      ext1
      · ext1
        · exact eq_false hwriter
        · exact Function.update_self ..
        · rfl
        · rfl
        · rfl
        · rfl
      · rfl
  · rw [if_neg hr, if_neg hr]
    exact ⟨hinv, fun u _ => (registry hash stray).rely_refl u m, hhas, rfl⟩

theorem step_enterTable {access : Access} {r : Unit} (hinv : (registry hash stray).inv m)
    (hhas : (m.mine t).Has cond)
    (hmay : May stray t cond ⟨m.mine t, m.about cond⟩ (.enterTable access))
    (h : Answers hash stray t m (.enterTable access) r m') :
    Stepped hash stray t cond m (.enterTable access) r m' := by
  obtain rfl : m' = _ := h
  obtain ⟨hinv', hguar⟩ := stepped_inside (t := t) (a := some access) hinv
    (fun ha => by
      cases ha
      exact hmay)
    (fun ha => by
      cases ha
      exact hmay)
  refine ⟨hinv', hguar, hhas, ?_⟩
  ext1
  · ext1
    · rfl
    · rfl
    · exact Function.update_self ..
    · rfl
    · rfl
    · rfl
  · rfl

theorem step_hashAdd {r : Unit} (hinv : (registry hash stray).inv m) (hhas : (m.mine t).Has cond)
    (hbusy : m.status cond = .busy t) (hown : m.heap e = .thread t)
    (h : Answers hash stray t m (.hashAdd e cond) r m') :
    Stepped hash stray t cond m (.hashAdd e cond) r m' := by
  obtain ⟨oom, tbl, htbl, rfl⟩ := h
  rw [or_eq_left hown]
  obtain ⟨hinv₁, hguar₁⟩ := stepped_hashAdd hinv hbusy hown htbl
  obtain ⟨hinv', hguar'⟩ := stepped_inside (t := t) (a := none) hinv₁ nofun nofun
  refine ⟨hinv', guar_trans hguar₁ hguar', hhas, ?_⟩
  ext1
  · ext1
    · rfl
    · rfl
    · exact Function.update_self ..
    · rfl
    · exact nodes_sdiff nofun
    · rfl
  · ext1
    · rfl
    · rfl
    · ext x
      change (x, cond) ∈ m.entries ++ [(e, cond)] ↔ x = e ∨ (x, cond) ∈ m.entries
      rw [List.mem_append, List.mem_singleton, Prod.mk.injEq, and_iff_left rfl, or_comm]

theorem step_hashDel {r : Unit} (hinv : (registry hash stray).inv m) (hhas : (m.mine t).Has cond)
    (hbusy : m.status cond = .busy t) (he : e ∈ m.nodesOf cond)
    (h : Answers hash stray t m (.hashDel e) r m') :
    Stepped hash stray t cond m (.hashDel e) r m' := by
  obtain rfl : m' = _ := h
  rw [or_eq_left ((hinv.1.entered e).mpr (List.mem_map_of_mem he))]
  obtain ⟨hinv₁, hguar₁⟩ := stepped_hashDel hinv hbusy he
  obtain ⟨hinv', hguar'⟩ := stepped_inside (t := t) (a := none) hinv₁ nofun nofun
  refine ⟨hinv', guar_trans hguar₁ hguar', hhas, ?_⟩
  ext1
  · ext1
    · rfl
    · rfl
    · exact Function.update_self ..
    · rfl
    · exact nodes_insert
    · rfl
  · ext1
    · rfl
    · rfl
    · ext x
      change (x, cond) ∈ m.entries.filter (fun p => p.1 != e) ↔ (x, cond) ∈ m.entries ∧ x ≠ e
      rw [List.mem_filter, bne_iff_ne]

theorem step_hashFind {r : Option E} (hinv : (registry hash stray).inv m)
    (hhas : (m.mine t).Has cond) (h : Answers hash stray t m (.hashFind cond) r m') :
    Stepped hash stray t cond m (.hashFind cond) r m' := by
  obtain ⟨hr, rfl⟩ := h
  obtain ⟨hinv', hguar⟩ := stepped_inside (t := t) (a := none) hinv nofun nofun
  obtain ⟨r', hr', hfound, hmissing⟩ := hashFind_keyed hinv.1.keyed cond
  obtain rfl : r = r' := Option.some.inj (hr.symm.trans hr')
  refine ⟨hinv', hguar, hhas, ?_, ?_⟩
  · ext1
    · ext1
      · rfl
      · rfl
      · exact Function.update_self ..
      · rfl
      · rfl
      · rfl
    · rfl
  · cases r with
    | none => exact Set.eq_empty_of_forall_notMem (hmissing rfl)
    | some e => exact hfound e rfl

/-- A wait is recorded, with the state of its condition. -/
theorem step_timedwait {clkId : ClockId} {r : ℤ} (hinv : (registry hash stray).inv m)
    (hhas : (m.mine t).Has cond) (hclock : stray = false → m.status cond = .ready clkId)
    (h : Answers hash stray t m (.timedwait cond clkId) r m') :
    Stepped hash stray t cond m (.timedwait cond clkId) r m' := by
  obtain rfl : m' = _ := h
  refine ⟨⟨⟨hinv.1.keyed, hinv.1.entered, hinv.1.exclusive, hinv.1.writes, hinv.1.reads,
    hinv.1.waiting, hinv.1.clock, hinv.1.used⟩,
    fun hs => ⟨(hinv.2 hs).raw, (hinv.2 hs).ready, ?_⟩⟩,
    fun u _ => (registry hash stray).rely_refl u m, hhas, rfl⟩
  intro w hw
  rcases List.mem_cons.mp hw with rfl | hw
  · exact hclock hs
  · exact (hinv.2 hs).waits w hw

/-- **Every call a thread may make keeps the table in order.** -/
theorem step {o : Op C E} {r : o.Ans} (hinv : (registry hash stray).inv m)
    (hhas : (m.mine t).Has cond) (hmay : May stray t cond ⟨m.mine t, m.about cond⟩ o)
    (h : Answers hash stray t m o r m') : Stepped hash stray t cond m o r m' := by
  cases o with
  | enter c => exact hmay.elim
  | realCondInit cond' attr =>
    obtain ⟨rfl, hbusy⟩ := hmay
    exact step_realCond hinv hhas hbusy (fun _ _ => id) h
  | realCondDestroy cond' =>
    obtain ⟨rfl, hbusy⟩ := hmay
    exact step_realCond hinv hhas hbusy (fun _ _ => id) h
  | condattrGetclock attr =>
    obtain ⟨rfl, hr⟩ := h
    exact step_same hinv hhas ⟨rfl, hr⟩
  | malloc => exact step_malloc hinv hhas h
  | free e => exact step_free hinv hhas hmay h
  | wrlock destroying => exact step_wrlock hinv hhas h
  | rdlock => exact step_rdlock hinv hhas h
  | unlock => exact step_unlock hinv hhas hmay h
  | enterTable access => exact step_enterTable hinv hhas hmay h
  | hashAdd e cond' =>
    obtain ⟨rfl, hbusy, hown⟩ := hmay
    exact step_hashAdd hinv hhas hbusy hown h
  | hashDel e =>
    obtain ⟨he, hbusy⟩ := hmay
    exact step_hashDel hinv hhas hbusy he h
  | hashFind cond' =>
    obtain rfl : cond' = cond := hmay
    exact step_hashFind hinv hhas h
  | timedwait cond' clkId =>
    obtain ⟨rfl, hclock⟩ := hmay
    exact step_timedwait hinv hhas hclock h

end Step

/-! ### The functions, one after the other -/

section Functions

variable {T C E : Type} {stray : Bool} {t : T} {cond : C} {v : Seen T C E} {e : E}

/-- The lock is asked for writing. -/
theorem wp_wrlock {β : Type} {destroying : Bool} {k : ℤ → Prog (calls C E) β}
    {Q : β → Seen T C E → Prop}
    (hlocked : (k 0).Wp (May stray t cond) (Sees stray) Q
      { v with mine := { v.mine with writes := True } })
    (hfailed : ∀ r, r ≠ 0 → (destroying = true → stray = true) →
      (k r).Wp (May stray t cond) (Sees stray) Q v) :
    (wrlock destroying >>= k).Wp (May stray t cond) (Sees stray) Q v := by
  refine ⟨trivial, fun (r : ℤ) v' hv' => ?_⟩
  by_cases hr : r = 0
  · obtain rfl : v' = _ := (if_pos hr).mp hv'
    subst hr
    exact hlocked
  · obtain ⟨hstray, rfl⟩ := (if_neg hr).mp hv'
    exact hfailed r hr hstray

/-- The lock is asked for reading. -/
theorem wp_rdlock {β : Type} {k : ℤ → Prog (calls C E) β} {Q : β → Seen T C E → Prop}
    (hlocked : (k 0).Wp (May stray t cond) (Sees stray) Q
      { v with mine := { v.mine with readers := v.mine.readers + 1 } })
    (hfailed : ∀ r, r ≠ 0 → (k r).Wp (May stray t cond) (Sees stray) Q v) :
    (rdlock >>= k).Wp (May stray t cond) (Sees stray) Q v := by
  refine ⟨trivial, fun (r : ℤ) v' hv' => ?_⟩
  obtain rfl : v' = _ := hv'
  by_cases hr : r = 0
  · subst hr
    exact hlocked
  · rw [if_neg hr]
    exact hfailed r hr

/-- The lock is given back. -/
theorem wp_unlock {β : Type} {k : ℤ → Prog (calls C E) β} {Q : β → Seen T C E → Prop}
    (hinside : v.mine.inside = none)
    (hunlocked : ∀ n, (k 0).Wp (May stray t cond) (Sees stray) Q
      { v with mine := { v.mine with writes := False, readers := n } })
    (hfailed : ∀ r, r ≠ 0 → (k r).Wp (May stray t cond) (Sees stray) Q v) :
    (unlock >>= k).Wp (May stray t cond) (Sees stray) Q v := by
  refine ⟨hinside, fun (r : ℤ) v' hv' => ?_⟩
  by_cases hr : r = 0
  · obtain ⟨n, rfl⟩ := (if_pos hr).mp hv'
    subst hr
    exact hunlocked n
  · obtain rfl : v' = v := (if_neg hr).mp hv'
    exact hfailed r hr

/-- Memory is given back. -/
theorem wp_free {β : Type} {k : Unit → Prog (calls C E) β} {Q : β → Seen T C E → Prop}
    (he : e ∈ v.mine.nodes)
    (hfreed : (k ()).Wp (May stray t cond) (Sees stray) Q
      { v with mine := { v.mine with nodes := v.mine.nodes \ {e} } }) :
    (free e >>= k).Wp (May stray t cond) (Sees stray) Q v := by
  refine ⟨he, fun _ v' hv' => ?_⟩
  obtain rfl : v' = _ := hv'
  exact hfreed

/-- The condition is destroyed, or not. -/
theorem wp_realCondDestroy {β : Type} {k : ℤ → Prog (calls C E) β} {Q : β → Seen T C E → Prop}
    (hbusy : v.about.status = .busy t)
    (hdestroyed : (k 0).Wp (May stray t cond) (Sees stray) Q
      { v with about := { v.about with real := none } })
    (hfailed : ∀ r, r ≠ 0 → (k r).Wp (May stray t cond) (Sees stray) Q v) :
    (realCondDestroy cond >>= k).Wp (May stray t cond) (Sees stray) Q v := by
  refine ⟨⟨rfl, hbusy⟩, fun (r : ℤ) v' hv' => ?_⟩
  obtain rfl : v' = _ := hv'
  by_cases hr : r = 0
  · subst hr
    exact hdestroyed
  · rw [if_neg hr]
    exact hfailed r hr

/-- The condition is initialized, or not. -/
theorem wp_realCondInit {β : Type} {attr : Option ClockId} {k : ℤ → Prog (calls C E) β}
    {Q : β → Seen T C E → Prop} (hbusy : v.about.status = .busy t)
    (hready : (k 0).Wp (May stray t cond) (Sees stray) Q
      { v with about := { v.about with real := some (clockOf attr) } })
    (hfailed : ∀ r, r ≠ 0 → (k r).Wp (May stray t cond) (Sees stray) Q v) :
    (realCondInit cond attr >>= k).Wp (May stray t cond) (Sees stray) Q v := by
  refine ⟨⟨rfl, hbusy⟩, fun (r : ℤ) v' hv' => ?_⟩
  obtain rfl : v' = _ := hv'
  by_cases hr : r = 0
  · subst hr
    exact hready
  · rw [if_neg hr]
    exact hfailed r hr

/-- An entry is added. -/
theorem wp_hashAddPtr (hbusy : v.about.status = .busy t) (hwrites : v.mine.writes)
    (he : e ∈ v.mine.nodes) : (hashAddPtr e cond).Wp (May stray t cond) (Sees stray)
      (fun _ v' => v' = ⟨{ v.mine with nodes := v.mine.nodes \ {e}, inside := none },
        { v.about with nodes := insert e v.about.nodes }⟩) v := by
  refine ⟨hwrites, fun _ v₁ hv₁ => ?_⟩
  obtain rfl : v₁ = _ := hv₁
  refine ⟨⟨rfl, hbusy, he⟩, fun _ v₂ hv₂ => ?_⟩
  exact hv₂

/-- An entry is taken out. -/
theorem wp_hashDelete (hbusy : v.about.status = .busy t) (hwrites : v.mine.writes)
    (he : e ∈ v.about.nodes) : (hashDelete e).Wp (May stray t cond) (Sees stray)
      (fun _ v' => v' = ⟨{ v.mine with nodes := insert e v.mine.nodes, inside := none },
        { v.about with nodes := v.about.nodes \ {e} }⟩) v := by
  refine ⟨hwrites, fun _ v₁ hv₁ => ?_⟩
  obtain rfl : v₁ = _ := hv₁
  refine ⟨⟨he, hbusy⟩, fun _ v₂ hv₂ => ?_⟩
  exact hv₂

/-- An entry is searched. -/
theorem wp_hashFindPtr (hlock : v.mine.writes ∨ 0 < v.mine.readers) :
    (hashFindPtr cond).Wp (May stray t cond) (Sees stray)
      (fun r v' => v' = { v with mine := { v.mine with inside := none } } ∧
        match r with
        | none => v.about.nodes = ∅
        | some e => e ∈ v.about.nodes) v := by
  refine ⟨hlock, fun _ v₁ hv₁ => ?_⟩
  obtain rfl : v₁ = _ := hv₁
  refine ⟨rfl, fun r v₂ hv₂ => ?_⟩
  obtain ⟨rfl, hr⟩ := hv₂
  exact ⟨rfl, hr⟩

/-- Clocks but the monotonic one leave no entry. -/
theorem noted_empty {clkId : ClockId} (h : clkId ≠ .monotonic) : Noted clkId (∅ : Set E) := by
  rw [Noted, if_neg h]

theorem noted_singleton : Noted .monotonic ({e} : Set E) := by
  rw [Noted, if_pos rfl]
  exact ⟨e, rfl⟩

/-- An entry says that the clock is the monotonic one, and there is only one. -/
theorem Noted.of_mem {clkId : ClockId} {nodes : Set E} (h : Noted clkId nodes) (he : e ∈ nodes) :
    clkId = .monotonic ∧ nodes = {e} := by
  rw [Noted] at h
  split at h
  next hclock =>
    obtain ⟨e', rfl⟩ := h
    rw [Set.mem_singleton_iff.mp he]
    exact ⟨hclock, rfl⟩
  next =>
    rw [h] at he
    exact he.elim

/-- Without an entry it is another one. -/
theorem Noted.of_empty {clkId : ClockId} {nodes : Set E} (h : Noted clkId nodes)
    (hnodes : nodes = ∅) : clkId ≠ .monotonic := by
  rintro rfl
  rw [Noted, if_pos rfl, hnodes] at h
  obtain ⟨e, he⟩ := h
  exact Set.singleton_ne_empty e he.symm

/-- What `pthread_cond_init` leaves. -/
structure InitDone (stray : Bool) (attr : Option ClockId) (result : ℤ) (v : Seen T C E) : Prop where
  nodes : v.mine.nodes = ∅
  inside : v.mine.inside = none
  ready : result = 0 → v.about.real = some (clockOf attr) ∧
    (stray = false → Noted (clockOf attr) v.about.nodes)
  failed : result ≠ 0 → stray = false → v.about.nodes = ∅

theorem wp_giveUp {attr : Option ClockId} {result : ℤ} (hbusy : v.about.status = .busy t)
    (hnodes : v.mine.nodes = ∅) (hinside : v.mine.inside = none) (hresult : result ≠ 0)
    (habout : stray = false → v.about.nodes = ∅) :
    (giveUp cond result).Wp (May stray t cond) (Sees stray) (InitDone stray attr) v := by
  refine wp_realCondDestroy hbusy ?_ fun r hr => ?_
  · exact ⟨hnodes, hinside, fun h => absurd h hresult, fun _ => habout⟩
  · exact ⟨hnodes, hinside, fun h => absurd h hresult, fun _ => habout⟩

theorem wp_noteMonotonic (hbusy : v.about.status = .busy t) (hnodes : v.mine.nodes = {e})
    (hinside : v.mine.inside = none) (hreal : v.about.real = some .monotonic)
    (habout : stray = false → v.about.nodes = ∅) :
    (noteMonotonic cond e).Wp (May stray t cond) (Sees stray) (InitDone stray (some .monotonic))
      v := by
  have hown : e ∈ v.mine.nodes := by
    rw [hnodes]
    exact rfl
  have hfreed : v.mine.nodes \ {e} = ∅ := by rw [hnodes, Set.sdiff_self]
  refine wp_wrlock ?_ fun r hr _ => ?_
  · -- the entry is added
    refine Wp.bind (wp_hashAddPtr hbusy trivial hown) ?_
    rintro - _ rfl
    refine wp_unlock rfl (fun n => ⟨hfreed, rfl, fun _ => ⟨hreal, fun hs => ?_⟩,
      fun h => absurd rfl h⟩) fun r hr => ?_
    · change Noted .monotonic (insert e v.about.nodes)
      rw [habout hs, insert_empty_eq]
      exact noted_singleton
    · -- and taken out again
      rw [if_pos hr]
      refine Wp.bind (wp_hashDelete hbusy trivial (Set.mem_insert ..)) ?_
      rintro - _ rfl
      refine wp_free (Set.mem_insert ..) (wp_giveUp hbusy ?_ rfl hr fun hs => ?_)
      · change insert e (v.mine.nodes \ {e}) \ {e} = ∅
        rw [hfreed, insert_empty_eq, Set.sdiff_self]
      · change insert e v.about.nodes \ {e} = ∅
        rw [habout hs, insert_empty_eq, Set.sdiff_self]
  · rw [if_pos hr]
    exact wp_free hown (wp_giveUp hbusy hfreed hinside hr habout)

theorem wp_noteClock {clkId : ClockId} (hbusy : v.about.status = .busy t)
    (hnodes : v.mine.nodes = ∅) (hinside : v.mine.inside = none)
    (hreal : v.about.real = some clkId) (habout : stray = false → v.about.nodes = ∅) :
    (noteClock cond clkId).Wp (May stray t cond) (Sees stray) (InitDone stray (some clkId)) v := by
  by_cases hclock : clkId = .monotonic
  · subst hclock
    rw [noteClock, if_pos rfl]
    refine ⟨trivial, fun r v₁ hv₁ => ?_⟩
    cases r with
    | none =>
      obtain rfl : v₁ = _ := hv₁
      exact wp_giveUp hbusy hnodes hinside (by decide) habout
    | some e =>
      obtain rfl : v₁ = _ := hv₁
      refine wp_noteMonotonic hbusy ?_ hinside hreal habout
      change insert e v.mine.nodes = {e}
      rw [hnodes, insert_empty_eq]
  · rw [noteClock, if_neg hclock]
    refine ⟨hnodes, hinside, fun _ => ⟨hreal, fun hs => ?_⟩, fun h => absurd rfl h⟩
    rw [habout hs]
    exact noted_empty hclock

/-- **Initializing a condition** that is not in the table. -/
theorem wp_pthreadCondInit {attr : Option ClockId} (hbusy : v.about.status = .busy t)
    (hnodes : v.mine.nodes = ∅) (hinside : v.mine.inside = none)
    (habout : stray = false → v.about.nodes = ∅) :
    (pthreadCondInit cond attr).Wp (May stray t cond) (Sees stray) (InitDone stray attr) v := by
  refine wp_realCondInit hbusy ?_ fun r hr => ?_
  · rw [if_neg (not_not_intro rfl)]
    cases attr with
    | none =>
      refine ⟨hnodes, hinside, fun _ => ⟨rfl, fun hs => ?_⟩, fun h => absurd rfl h⟩
      change Noted .realtime v.about.nodes
      rw [habout hs]
      exact noted_empty (by decide)
    | some attr =>
      refine ⟨trivial, fun r v₁ hv₁ => ?_⟩
      obtain ⟨rfl, hr⟩ := hv₁
      cases r with
      | error result => exact ⟨hnodes, hinside, fun h => absurd h hr, fun _ => habout⟩
      | ok clkId =>
        obtain rfl : clkId = attr := hr
        exact wp_noteClock hbusy hnodes hinside rfl habout
  · rw [if_pos hr]
    exact ⟨hnodes, hinside, fun h => absurd h hr, fun _ => habout⟩

/-- What is left of the entry that has been found. -/
theorem wp_strikeOut {r : Option E} (hbusy : v.about.status = .busy t) (hwrites : v.mine.writes)
    (hnodes : v.mine.nodes = ∅) (hinside : v.mine.inside = none)
    (hr : ∀ e, r = some e → e ∈ v.about.nodes) :
    (strikeOut r).Wp (May stray t cond) (Sees stray)
      (fun _ v' => v'.mine.nodes = ∅ ∧ v'.mine.inside = none ∧ v'.about.real = v.about.real ∧
        v'.about.nodes = v.about.nodes \ {e | r = some e}) v := by
  cases r with
  | none =>
    refine ⟨hnodes, hinside, rfl, ?_⟩
    simp only [reduceCtorEq, Set.ofPred_false, Set.sdiff_empty]
  | some e =>
    refine Wp.bind (wp_hashDelete hbusy hwrites (hr e rfl)) ?_
    rintro - _ rfl
    refine wp_free (k := Prog.ret) (Set.mem_insert ..) ⟨?_, rfl, rfl, ?_⟩
    · change insert e v.mine.nodes \ {e} = ∅
      rw [hnodes, insert_empty_eq, Set.sdiff_self]
    · ext x
      simp only [Set.mem_sdiff, Set.mem_singleton_iff, Set.mem_ofPred_eq, Option.some.injEq,
        eq_comm]

/-- What `pthread_cond_destroy` leaves: the condition has been destroyed, or nothing has
happened. -/
structure DestroyDone (stray : Bool) (v v' : Seen T C E) : Prop where
  nodes : v'.mine.nodes = ∅
  inside : v'.mine.inside = none
  about : v'.about.real = none ∧ (stray = false → v'.about.nodes = ∅) ∨ v'.about = v.about

/-- **Destroying a condition** of which the table is right. -/
theorem wp_pthreadCondDestroy {clkId : ClockId} (hbusy : v.about.status = .busy t)
    (hnodes : v.mine.nodes = ∅) (hinside : v.mine.inside = none)
    (habout : stray = false → Noted clkId v.about.nodes) :
    (pthreadCondDestroy cond).Wp (May stray t cond) (Sees stray) (fun _ => DestroyDone stray v)
      v := by
  refine wp_realCondDestroy hbusy ?_ fun r hr => ?_
  · rw [if_neg (not_not_intro rfl)]
    refine wp_wrlock ?_ fun r hr hstray => ?_
    · rw [if_neg (not_not_intro rfl)]
      refine Wp.bind (wp_hashFindPtr (Or.inl trivial)) ?_
      rintro r _ ⟨rfl, hr⟩
      have hfound : ∀ e, r = some e → e ∈ v.about.nodes := by
        rintro e rfl
        exact hr
      refine Wp.bind (wp_strikeOut hbusy trivial hnodes rfl hfound) ?_
      rintro - v₁ ⟨hnodes₁, hinside₁, hreal₁, habout₁⟩
      have hleft : stray = false → v₁.about.nodes = ∅ := by
        intro hs
        rw [habout₁]
        cases r with
        | none =>
          rw [show v.about.nodes = ∅ from hr, Set.empty_sdiff]
        | some e =>
          rw [((habout hs).of_mem hr).2]
          exact Set.sdiff_eq_empty.mpr fun x hx => congrArg some (Set.mem_singleton_iff.mp hx).symm
      exact wp_unlock (k := Prog.ret) hinside₁
        (fun n => ⟨hnodes₁, hinside₁, Or.inl ⟨hreal₁, hleft⟩⟩)
        fun r _ => ⟨hnodes₁, hinside₁, Or.inl ⟨hreal₁, hleft⟩⟩
    · rw [if_pos hr]
      refine ⟨hnodes, hinside, Or.inl ⟨rfl, fun hs => ?_⟩⟩
      rw [hs] at hstray
      cases hstray rfl
  · rw [if_pos hr]
    exact ⟨hnodes, hinside, Or.inr rfl⟩

/-- **Waiting on a condition** of which the table is right. -/
theorem wp_pthreadCondTimedwait {clkId : ClockId} (hready : v.about.status = .ready clkId)
    (hclock : clkId = .realtime ∨ clkId = .monotonic) (hnodes : v.mine.nodes = ∅)
    (hinside : v.mine.inside = none) (habout : stray = false → Noted clkId v.about.nodes) :
    (pthreadCondTimedwait cond).Wp (May stray t cond) (Sees stray)
      (fun _ v' => v'.mine.nodes = ∅ ∧ v'.mine.inside = none) v := by
  refine wp_rdlock ?_ fun r hr => ?_
  · rw [if_neg (not_not_intro rfl)]
    refine Wp.bind (wp_hashFindPtr (Or.inr (Nat.succ_pos _))) ?_
    rintro r _ ⟨rfl, hr⟩
    refine wp_unlock rfl (fun n => ?_) fun r hr => ?_
    · rw [if_neg (not_not_intro rfl)]
      refine ⟨⟨rfl, fun hs => ?_⟩, fun _ v₁ hv₁ => ?_⟩
      · refine hready.trans (congrArg Status.ready ?_)
        cases r with
        | none => exact hclock.resolve_right ((habout hs).of_empty hr)
        | some e => exact ((habout hs).of_mem hr).1
      · obtain rfl : v₁ = _ := hv₁
        exact ⟨hnodes, rfl⟩
    · rw [if_pos hr]
      exact ⟨hnodes, rfl⟩
  · rw [if_pos hr]
    exact ⟨hnodes, hinside⟩

/-- What no call of a function changes. -/
theorem sees_frame {o : Op C E} {r : o.Ans} {v' : Seen T C E} (hmay : May stray t cond v o)
    (h : Sees stray v o r v') : v'.mine.waiting = v.mine.waiting ∧ v'.mine.busy = v.mine.busy ∧
      v'.about.status = v.about.status := by
  cases o with
  | enter c => exact hmay.elim
  | realCondInit cond' attr =>
    obtain rfl : v' = _ := h
    split <;> exact ⟨rfl, rfl, rfl⟩
  | realCondDestroy cond' =>
    obtain rfl : v' = _ := h
    split <;> exact ⟨rfl, rfl, rfl⟩
  | condattrGetclock attr =>
    obtain ⟨rfl, -⟩ := h
    exact ⟨rfl, rfl, rfl⟩
  | malloc =>
    cases r with
    | none =>
      obtain rfl : v' = v := h
      exact ⟨rfl, rfl, rfl⟩
    | some e =>
      obtain rfl : v' = _ := h
      exact ⟨rfl, rfl, rfl⟩
  | wrlock destroying =>
    by_cases hr : (show ℤ from r) = 0
    · obtain rfl : v' = _ := (if_pos hr).mp h
      exact ⟨rfl, rfl, rfl⟩
    · obtain ⟨-, rfl⟩ := (if_neg hr).mp h
      exact ⟨rfl, rfl, rfl⟩
  | rdlock =>
    obtain rfl : v' = _ := h
    split <;> exact ⟨rfl, rfl, rfl⟩
  | unlock =>
    by_cases hr : (show ℤ from r) = 0
    · obtain ⟨n, rfl⟩ := (if_pos hr).mp h
      exact ⟨rfl, rfl, rfl⟩
    · obtain rfl : v' = v := (if_neg hr).mp h
      exact ⟨rfl, rfl, rfl⟩
  | free e | enterTable access | hashAdd e cond' | hashDel e | timedwait cond' clkId =>
    obtain rfl : v' = _ := h
    exact ⟨rfl, rfl, rfl⟩
  | hashFind cond' =>
    obtain ⟨rfl, -⟩ := h
    exact ⟨rfl, rfl, rfl⟩

/-- What no function changes. -/
theorem wp_frame {β : Type} {p : Prog (calls C E) β} {Q : β → Seen T C E → Prop}
    (h : p.Wp (May stray t cond) (Sees stray) Q v) :
    p.Wp (May stray t cond) (Sees stray) (fun a v' => Q a v' ∧
      v'.mine.waiting = v.mine.waiting ∧ v'.mine.busy = v.mine.busy ∧
        v'.about.status = v.about.status) v := by
  induction p generalizing v with
  | ret a => exact ⟨h, rfl, rfl, rfl⟩
  | op o k ih =>
    refine ⟨h.1, fun r v₁ hv₁ => (ih r (h.2 r v₁ hv₁)).mono fun a v' ⟨hQ, hsame⟩ => ⟨hQ, ?_⟩⟩
    have hsame₁ := sees_frame h.1 hv₁
    exact ⟨hsame.1.trans hsame₁.1, hsame.2.1.trans hsame₁.2.1, hsame.2.2.trans hsame₁.2.2⟩

end Functions

/-! ### Calls -/

section Calls

variable {T C E : Type} {hash : C → ℕ} {stray : Bool} {t u : T} {m m' : Mem T C E} {cond : C}

/-- What is left of a thread that is not in one of the functions. -/
structure Mine.Idle (v : Mine C E) : Prop where
  nodes : v.nodes = ∅
  inside : v.inside = none
  waiting : v.waiting = none
  busy : v.busy = ∅

/-- What is left when a function returns. -/
structure Mine.Leaves (v : Mine C E) (waiting : Option C) (busy : Set C) : Prop where
  nodes : v.nodes = ∅
  inside : v.inside = none
  waiting : v.waiting = waiting
  busy : v.busy = busy

/-- A thread is done with a call. -/
def Call.Done (stray : Bool) (v : Seen T C E) : Call C × ℤ → Prop
  | (.init cond attr, result) => v.mine.Leaves none {cond} ∧ Settable attr ∧
    InitDone stray attr result v
  | (.destroy cond, _) => v.mine.Leaves none {cond} ∧
    (v.about.real = none ∧ (stray = false → v.about.nodes = ∅) ∨
      ∃ clkId, v.about.real = some clkId ∧ (clkId = .realtime ∨ clkId = .monotonic) ∧
        (stray = false → Noted clkId v.about.nodes))
  | (.timedwait cond, _) => v.mine.Leaves (some cond) ∅

/-- The state of a condition is changed by the only thread that is at it. -/
theorem stepped_status [DecidableEq C] {s : Status T} (hinv : (registry hash stray).inv m)
    (hothers : ∀ u, u ≠ t → ¬ (m.mine u).Has cond) (hwaiting : m.waiting t ≠ some cond)
    (hbusy : ∀ u, s = .busy u → u = t)
    (hready : ∀ clkId, s = .ready clkId →
      (m.real cond = some clkId ∧ (clkId = .realtime ∨ clkId = .monotonic)) ∧
        (stray = false → Noted clkId (m.nodesOf cond)))
    (hraw : s = .raw → stray = false → m.nodesOf cond = ∅) :
    (registry hash stray).inv { m with status := Function.update m.status cond s } ∧
      (registry hash stray).Guar t m { m with status := Function.update m.status cond s } := by
  -- what is said about the other conditions stays as it is
  refine ⟨⟨⟨hinv.1.keyed, hinv.1.entered, hinv.1.exclusive, hinv.1.writes, hinv.1.reads,
    fun u cond' hu => ?_, fun cond' clkId h => ?_, hinv.1.used⟩, fun hs => ⟨fun cond' h => ?_,
    fun cond' clkId h => ?_, (hinv.2 hs).waits⟩⟩, fun u hu => ⟨?_, fun cond' hcond' => ?_⟩⟩
  · have hu : m.waiting u = some cond' := hu
    have hne : cond' ≠ cond := by
      rintro rfl
      rcases eq_or_ne u t with rfl | hne
      · exact hwaiting hu
      · exact hothers u hne (Or.inr hu)
    obtain ⟨clkId, hclkId⟩ := hinv.1.waiting u cond' hu
    exact ⟨clkId, (Function.update_of_ne hne ..).trans hclkId⟩
  · change Function.update m.status cond s cond' = _ at h
    rcases eq_or_ne cond' cond with rfl | hne
    · rw [Function.update_self] at h
      exact (hready clkId h).1
    · rw [Function.update_of_ne hne] at h
      exact hinv.1.clock cond' clkId h
  · change Function.update m.status cond s cond' = _ at h
    rcases eq_or_ne cond' cond with rfl | hne
    · rw [Function.update_self] at h
      exact hraw h hs
    · rw [Function.update_of_ne hne] at h
      exact (hinv.2 hs).raw cond' h
  · change Function.update m.status cond s cond' = _ at h
    rcases eq_or_ne cond' cond with rfl | hne
    · rw [Function.update_self] at h
      exact (hready clkId h).2 hs
    · rw [Function.update_of_ne hne] at h
      exact (hinv.2 hs).ready cond' clkId h
  · ext1
    · rfl
    · rfl
    · rfl
    · rfl
    · rfl
    · ext cond'
      change Function.update m.status cond s cond' = _ ↔ m.status cond' = _
      rcases eq_or_ne cond' cond with rfl | hne
      · rw [Function.update_self]
        exact iff_of_false (fun h => hu (hbusy u h)) fun h => hothers u hu (Or.inl h)
      · rw [Function.update_of_ne hne]
  · have hne : cond' ≠ cond := by
      rintro rfl
      exact hothers u hu hcond'
    ext1
    · exact Function.update_of_ne hne ..
    · rfl
    · rfl

/-- A thread begins or ends to wait. -/
theorem stepped_waiting [DecidableEq T] {w : Option C} (hinv : (registry hash stray).inv m)
    (hready : ∀ cond, w = some cond → ∃ clkId, m.status cond = .ready clkId) :
    (registry hash stray).inv { m with waiting := Function.update m.waiting t w } ∧
      (registry hash stray).Guar t m { m with waiting := Function.update m.waiting t w } := by
  refine ⟨⟨⟨hinv.1.keyed, hinv.1.entered, hinv.1.exclusive, hinv.1.writes, hinv.1.reads,
    fun u cond' hu => ?_, hinv.1.clock, hinv.1.used⟩,
    fun hs => (hinv.2 hs).congr rfl rfl rfl⟩,
    fun u hu => ⟨?_, fun _ _ => rfl⟩⟩
  · change Function.update m.waiting t w u = _ at hu
    rcases eq_or_ne u t with rfl | hne
    · rw [Function.update_self] at hu
      exact hready cond' hu
    · rw [Function.update_of_ne hne] at hu
      exact hinv.1.waiting u cond' hu
  · ext1
    · rfl
    · rfl
    · rfl
    · exact Function.update_of_ne hu ..
    · rfl
    · rfl

variable [DecidableEq T] [DecidableEq C]

/-- **The return of a call is safe.** -/
theorem safe_return {a : Call C × ℤ} (hinv : (registry hash stray).inv m)
    (hdone : Call.Done stray ⟨m.mine t, m.about a.1.cond⟩ a) (h : Returned t a m m') :
    (registry hash stray).inv m' ∧ (registry hash stray).Guar t m m' ∧ (m'.mine t).Idle := by
  have hbusy : ∀ cond (s : Status T), s ≠ .busy t →
      {cond' | m.status cond' = .busy t} = {cond} →
      {cond' | Function.update m.status cond s cond' = .busy t} = ∅ := by
    intro cond s hs hset
    refine Set.eq_empty_of_forall_notMem fun cond' h => ?_
    change Function.update m.status cond s cond' = _ at h
    rcases eq_or_ne cond' cond with rfl | hne
    · rw [Function.update_self] at h
      exact hs h
    · rw [Function.update_of_ne hne] at h
      have hmem : cond' ∈ {cond' | m.status cond' = .busy t} := h
      rw [hset] at hmem
      exact hne hmem
  have hlone : ∀ cond, {cond' | m.status cond' = .busy t} = {cond} →
      ∀ u, u ≠ t → ¬ (m.mine u).Has cond := by
    intro cond hset u hu
    have hmem : cond ∈ {cond' | m.status cond' = .busy t} := by
      rw [hset]
      exact rfl
    exact hinv.1.not_has hmem hu
  -- a thread that comes out of a call is at no condition any more
  obtain ⟨c, r⟩ := a
  cases c with
  | init cond attr =>
    obtain ⟨hleaves, hattr, hinit⟩ := hdone
    obtain rfl : m' = _ := h
    have hwaiting : m.waiting t ≠ some cond := by
      rw [show m.waiting t = none from hleaves.waiting]
      exact nofun
    -- the real call has made a condition of it, or has failed
    by_cases hr : r = 0
    · rw [if_pos hr]
      obtain ⟨hinv', hguar⟩ := stepped_status (s := .ready (clockOf attr)) hinv
        (hlone cond hleaves.busy) hwaiting nofun (fun clkId heq => by
          cases heq
          exact ⟨⟨(hinit.ready hr).1, hattr⟩, (hinit.ready hr).2⟩) nofun
      exact ⟨hinv', hguar, hleaves.nodes, hleaves.inside, hleaves.waiting,
        hbusy cond _ nofun hleaves.busy⟩
    · rw [if_neg hr]
      obtain ⟨hinv', hguar⟩ := stepped_status (s := .raw) hinv (hlone cond hleaves.busy) hwaiting
        nofun nofun fun _ => hinit.failed hr
      exact ⟨hinv', hguar, hleaves.nodes, hleaves.inside, hleaves.waiting,
        hbusy cond _ nofun hleaves.busy⟩
  | destroy cond =>
    obtain ⟨hleaves, habout⟩ := hdone
    obtain rfl : m' = _ := h
    have hwaiting : m.waiting t ≠ some cond := by
      rw [show m.waiting t = none from hleaves.waiting]
      exact nofun
    -- the condition is gone, or the real call has refused and its entry is still there
    rcases habout with ⟨hreal, hnodes⟩ | ⟨clkId, hreal, hclock, hnoted⟩
    · rw [show m.real cond = none from hreal]
      obtain ⟨hinv', hguar⟩ := stepped_status (s := .raw) hinv (hlone cond hleaves.busy) hwaiting
        nofun nofun fun _ => hnodes
      exact ⟨hinv', hguar, hleaves.nodes, hleaves.inside, hleaves.waiting,
        hbusy cond _ nofun hleaves.busy⟩
    · have hreal : m.real cond = some clkId := hreal
      rw [hreal]
      obtain ⟨hinv', hguar⟩ := stepped_status (s := .ready clkId) hinv (hlone cond hleaves.busy)
        hwaiting nofun (fun clkId' heq => by
          cases heq
          exact ⟨⟨hreal, hclock⟩, hnoted⟩) nofun
      exact ⟨hinv', hguar, hleaves.nodes, hleaves.inside, hleaves.waiting,
        hbusy cond _ nofun hleaves.busy⟩
  | timedwait cond =>
    obtain rfl : m' = _ := h
    obtain ⟨hinv', hguar⟩ := stepped_waiting (t := t) (w := none) hinv nofun
    exact ⟨hinv', hguar, hdone.nodes, hdone.inside, Function.update_self .., hdone.busy⟩

variable [DecidableEq E]

/-- A thread that is at a condition runs as if it were alone with it. -/
theorem safe_of_seen {β : Type} {p : Prog (calls C E) β} {Q : β → Seen T C E → Prop}
    (hp : p.Wp (May stray t cond) (Sees stray) Q ⟨m.mine t, m.about cond⟩)
    (hhas : (m.mine t).Has cond) :
    (registry hash stray).Safe (condMachine T C E hash stray) t
      (fun a m' => Q a ⟨m'.mine t, m'.about cond⟩) p m := by
  have hsafe := Protocol.safe_of_wp (P := registry hash stray) (M := condMachine T C E hash stray)
    (t := t) (V := fun m => Seen.mk (m.mine t) (m.about cond)) (L := fun m => (m.mine t).Has cond)
    (fun m m' hrely _ hL => ⟨hrely.1 ▸ hL, by rw [hrely.1, hrely.2 cond hL]⟩)
    (fun m o r m' hmay hinv hL h => step hinv hL hmay h) hp hhas
  exact hsafe.mono fun _ _ _ h => h.2

/-- A function, up to the return of the call. -/
theorem safe_body {c : Call C} {Q : ℤ → Seen T C E → Prop}
    (hp : c.body.Wp (May stray t c.cond) (Sees stray) Q ⟨m.mine t, m.about c.cond⟩)
    (hhas : (m.mine t).Has c.cond)
    (hdone : ∀ r v, Q r v → v.mine.waiting = m.waiting t →
      v.mine.busy = {cond | m.status cond = .busy t} → Call.Done stray v (c, r)) :
    (registry hash stray).Safe (condMachine T C E hash stray) t
      (fun a m => Call.Done stray ⟨m.mine t, m.about a.1.cond⟩ a)
      (c.body >>= fun r => Prog.ret (c, r)) m := by
  have hwp : (c.body >>= fun r => Prog.ret (c, r)).Wp (May stray t c.cond) (Sees stray)
      (fun a v => a.1 = c ∧ Call.Done stray v a) ⟨m.mine t, m.about c.cond⟩ := by
    refine Wp.bind (wp_frame hp) ?_
    rintro r v ⟨hQ, hwaiting, hbusy, -⟩
    exact ⟨rfl, hdone r v hQ hwaiting hbusy⟩
  refine (safe_of_seen hwp hhas).mono ?_
  rintro ⟨c', r⟩ m' - ⟨rfl, h⟩
  exact h

/-- **Every call is safe.** -/
theorem safe_run {c : Call C} (hc : c.Allowed) (hidle : (m.mine t).Idle) :
    (registry hash stray).Safe (condMachine T C E hash stray) t
      (fun a m => Call.Done stray ⟨m.mine t, m.about a.1.cond⟩ a) c.run m := by
  intro m₁ hrely hinv _ m₂ ho
  have hidle₁ : (m₁.mine t).Idle := hrely.1 ▸ hidle
  have hnone : m₁.waiting t = none := hidle₁.waiting
  -- a condition nobody is at
  have hlone : ∀ cond, (∀ u, m₁.status cond ≠ .busy u) → (∀ u, m₁.waiting u ≠ some cond) →
      ∀ u, u ≠ t → ¬ (m₁.mine u).Has cond := fun _ hbusy hwaiting u _ h =>
    h.elim (hbusy u) (hwaiting u)
  have hbusy : ∀ cond, {cond' | Function.update m₁.status cond (.busy t) cond' = .busy t} =
      {cond} := by
    intro cond
    ext cond'
    rcases eq_or_ne cond' cond with rfl | hne
    · simp only [Set.mem_ofPred_eq, Function.update_self, Set.mem_singleton_iff]
    · simp only [Set.mem_ofPred_eq, Function.update_of_ne hne, Set.mem_singleton_iff, hne,
        iff_false]
      exact fun h => Set.notMem_empty cond' (hidle₁.busy ▸ h)
  cases c with
  | init cond attr =>
    obtain ⟨hraw, rfl⟩ := ho
    have hothers := hlone cond (by rw [hraw]; exact nofun) fun u hu => by
      obtain ⟨clkId, hready⟩ := hinv.1.waiting u cond hu
      rw [hraw] at hready
      cases hready
    obtain ⟨hinv₂, hguar⟩ := stepped_status (t := t) (s := .busy t) hinv hothers
      (by rw [hnone]; exact nofun) (fun u h => (Status.busy.inj h).symm) nofun nofun
    refine ⟨hinv₂, hguar, safe_body (c := .init cond attr) (wp_pthreadCondInit ?_ hidle₁.nodes
      hidle₁.inside fun hs => (hinv.2 hs).raw cond hraw) (Or.inl ?_) ?_⟩
    · exact Function.update_self ..
    · exact Function.update_self ..
    · intro r v hdone hwaiting hset
      exact ⟨⟨hdone.nodes, hdone.inside, hwaiting.trans hnone, hset.trans (hbusy cond)⟩, hc, hdone⟩
  | destroy cond =>
    obtain ⟨⟨clkId, hready⟩, hunused, rfl⟩ := ho
    have hothers := hlone cond (by rw [hready]; exact nofun) hunused
    obtain ⟨hinv₂, hguar⟩ := stepped_status (t := t) (s := .busy t) hinv hothers
      (hunused t) (fun u h => (Status.busy.inj h).symm) nofun nofun
    refine ⟨hinv₂, hguar, safe_body (c := .destroy cond) (wp_pthreadCondDestroy ?_ hidle₁.nodes
      hidle₁.inside fun hs => (hinv.2 hs).ready cond clkId hready) (Or.inl ?_) ?_⟩
    · exact Function.update_self ..
    · exact Function.update_self ..
    · intro r v hdone hwaiting hset
      refine ⟨⟨hdone.nodes, hdone.inside, hwaiting.trans hnone, hset.trans (hbusy cond)⟩,
        hdone.about.imp_right fun hsame => ?_⟩
      obtain ⟨hreal, hclock⟩ := hinv.1.clock cond clkId hready
      rw [hsame]
      exact ⟨clkId, hreal, hclock, fun hs => (hinv.2 hs).ready cond clkId hready⟩
  | timedwait cond =>
    obtain ⟨⟨clkId, hready⟩, rfl⟩ := ho
    obtain ⟨hinv₂, hguar⟩ := stepped_waiting (t := t) (w := some cond) hinv fun cond' h => by
      cases h
      exact ⟨clkId, hready⟩
    refine ⟨hinv₂, hguar, safe_body (c := .timedwait cond) (wp_pthreadCondTimedwait hready
      (hinv.1.clock cond clkId hready).2 hidle₁.nodes hidle₁.inside
      fun hs => (hinv.2 hs).ready cond clkId hready) (Or.inr ?_) ?_⟩
    · exact Function.update_self ..
    · rintro r v ⟨hnodes, hinside⟩ hwaiting hset
      exact ⟨hnodes, hinside, hwaiting.trans (Function.update_self ..), hset.trans hidle₁.busy⟩

/-- **The table stays in order** in any run. -/
theorem reach_registry {m₀ : Mem T C E} (hm₀ : m₀.Fresh)
    {s : Pool (calls C E) T (Mem T C E) (Call C × ℤ)}
    (hs : (condMachine T C E hash stray).Reach (Pool.init (calls C E) T (Call C × ℤ) m₀) s) :
    (registry hash stray).inv s.mem ∧ ∀ t, s.code t = none → (s.mem.mine t).Idle := by
  have hidle : ∀ t, (m₀.mine t).Idle := by
    intro t
    refine ⟨Set.eq_empty_of_forall_notMem fun e he => ?_, hm₀.inside t, hm₀.waiting t,
      Set.eq_empty_of_forall_notMem fun cond hcond => ?_⟩
    · have he : m₀.heap e = .thread t := he
      rw [hm₀.heap] at he
      cases he
    · have hcond : m₀.status cond = .busy t := hcond
      rw [hm₀.status] at hcond
      cases hcond
  have hinv : (registry hash stray).inv m₀ := by
    refine ⟨⟨⟨Or.inl ⟨?_, hm₀.table⟩, ?_⟩, fun e => ?_, fun t ht => ?_, fun t ht => ?_,
      fun t ht => ?_, fun t cond ht => ?_, fun cond clkId h => ?_, hm₀.misused⟩,
      fun _ => ⟨fun cond _ => ?_, fun cond clkId h => ?_, ?_⟩⟩
    · rw [hm₀.entries]
      rfl
    · rw [hm₀.entries]
      exact fun p hp => absurd hp List.not_mem_nil
    · rw [hm₀.heap, hm₀.entries]
      exact iff_of_false nofun List.not_mem_nil
    · rw [hm₀.writer] at ht
      cases ht
    · rw [hm₀.inside] at ht
      cases ht
    · rw [hm₀.inside] at ht
      cases ht
    · rw [hm₀.waiting] at ht
      cases ht
    · rw [hm₀.status] at h
      cases h
    · refine Set.eq_empty_of_forall_notMem fun e (he : (e, cond) ∈ m₀.entries) => ?_
      rw [hm₀.entries] at he
      cases he
    · rw [hm₀.status] at h
      cases h
    · rw [hm₀.waits]
      exact fun w hw => absurd hw List.not_mem_nil
  -- from here on every step of every call keeps it
  obtain ⟨hinv, hleft⟩ := Protocol.reach_safe (P := registry hash stray)
    (D := fun t m => (m.mine t).Idle)
    (Q := fun t a m => Call.Done stray ⟨m.mine t, m.about a.1.cond⟩ a)
    (fun t m m' hD hrely => hrely.1 ▸ hD)
    (fun t m p _ hD hp => by
      obtain ⟨c, hc, rfl⟩ := hp
      exact safe_run hc hD)
    (fun t a m m' hinv hdone h => safe_return hinv hdone h) hs hinv fun t => hidle t
  refine ⟨hinv, fun t ht => ?_⟩
  have := hleft t
  rwa [Protocol.Left, ht] at this

/-- **The table is never in danger.** Whatever fails, and in whatever order the threads come: nobody
is in the table while another thread changes it; it has the entries that have been put into it and
not taken out, none of them in memory that has been given back, and the check of the table finds
nothing wrong; nobody gives back memory that is not his, or takes out what is not there; and when
nobody is in one of the functions, all memory but the entries has been given back. -/
theorem registry_is_sound {m₀ : Mem T C E} (hm₀ : m₀.Fresh)
    {s : Pool (calls C E) T (Mem T C E) (Call C × ℤ)}
    (hs : (condMachine T C E hash stray).Reach (Pool.init (calls C E) T (Call C × ℤ) m₀) s) :
    (∀ t u, u ≠ t → s.mem.inside t = some .write → s.mem.inside u = none) ∧
      s.mem.monotonicConds.Keyed hash s.mem.entries ∧ hashFsck s.mem.monotonicConds = true ∧
      (∀ p ∈ s.mem.entries, s.mem.heap p.1 = .table) ∧ ¬ s.mem.misused ∧
      ((∀ t, s.code t = none) → ∀ e, s.mem.heap e ≠ .unused → e ∈ s.mem.entries.map Prod.fst) := by
  obtain ⟨⟨hsound, -⟩, hidle⟩ := reach_registry hm₀ hs
  refine ⟨fun t u hu ht => ?_, hsound.keyed, hashFsck_of_represents hsound.keyed.1, fun p hp => ?_,
    hsound.used, fun hall e he => ?_⟩
  · have hwriter := hsound.writes t ht
    cases hinside : s.mem.inside u with
    | none => rfl
    | some a =>
      cases a with
      | write => exact absurd (Option.some.inj ((hsound.writes u hinside).symm.trans hwriter)) hu
      | read =>
        rcases hsound.reads u hinside with hw | hpos
        · exact absurd (Option.some.inj (hw.symm.trans hwriter)) hu
        · rw [hsound.exclusive t hwriter u] at hpos
          exact absurd hpos (Nat.lt_irrefl 0)
  · exact (hsound.entered p.1).mpr (List.mem_map_of_mem hp)
  · cases howner : s.mem.heap e with
    | unused => exact absurd howner he
    | thread t =>
      have hmem : e ∈ (s.mem.mine t).nodes := howner
      rw [(hidle t (hall t)).nodes] at hmem
      exact hmem.elim
    | table => exact (hsound.entered e).mp howner

/-! ### A condition that is not struck out -/

/-- A process in which nobody is at a condition and the lock is free. -/
structure Mem.Calm (m : Mem T C E) : Prop where
  waiting : ∀ t, m.waiting t = none
  writer : m.writer = none
  readers : ∀ t, m.readers t = 0

/-- A thread makes its next call. -/
theorem runs_call {β : Type} {o : Op C E} (r : o.Ans) (m₁ : Mem T C E)
    {k : o.Ans → Prog (calls C E) β} {p : Prog (calls C E) β} {R : Mem T C E → Prop}
    (ho : Answers hash stray t m o r m₁)
    (h : ∃ m', (condMachine T C E hash stray).Runs t m₁ (k r) m' p ∧ R m') :
    ∃ m', (condMachine T C E hash stray).Runs t m (Prog.op (I := calls C E) o k) m' p ∧ R m' :=
  h.imp fun _ h => ⟨.call ho h.1, h.2⟩

/-- The thread that writes gives the lock back. -/
theorem answers_unlock (hwriter : m.writer = some t) :
    Answers hash stray t m .unlock (0 : ℤ) { m with writer := none } :=
  (if_pos hwriter).symm

/-- And so does one that reads. -/
theorem answers_unlock_read (hwriter : m.writer ≠ some t) :
    Answers hash stray t m .unlock (0 : ℤ)
      { m with readers := Function.update m.readers t (m.readers t - 1) } :=
  (if_neg hwriter).symm

omit [DecidableEq T] [DecidableEq C] [DecidableEq E] in
/-- A table that has not been made is not full. -/
theorem Mem.Fresh.not_full {m₀ : Mem T C E} (h : m₀.Fresh) : ¬ m₀.monotonicConds.Full :=
  fun hfull => hfull.1 h.table

/-- A condition of the monotonic clock is initialized. -/
theorem runs_init_monotonic (hinv : (registry hash stray).inv m) (hcalm : m.Calm)
    (hfull : ¬ m.monotonicConds.Full) (hraw : m.status cond = .raw) {e : E}
    (he : m.heap e = .unused) :
    ∃ m', (condMachine T C E hash stray).Runs t m (Call.run (.init cond (some .monotonic))) m'
      (.ret (.init cond (some .monotonic), 0)) ∧ m'.Calm ∧ (e, cond) ∈ m'.entries := by
  have hfresh : e ∉ m.entries.map Prod.fst := by
    rw [← hinv.1.entered, he]
    exact nofun
  obtain ⟨tbl, htbl⟩ : ∃ tbl, hashAdd hash false m.monotonicConds e cond = some tbl := by
    rcases hashAdd_keyed false hinv.1.keyed hfresh with ⟨-, h⟩ | ⟨tbl, htbl, -⟩
    · exact absurd h (not_or.mpr ⟨Bool.false_ne_true, hfull⟩)
    · exact ⟨tbl, htbl⟩
  refine runs_call (o := .enter (.init cond (some .monotonic))) () _ ⟨hraw, rfl⟩ ?_
  refine runs_call (o := .realCondInit cond (some .monotonic)) (0 : ℤ) _ rfl ?_
  refine runs_call (o := .condattrGetclock .monotonic) (.ok .monotonic : Except ℤ ClockId) _
    ⟨rfl, rfl⟩ ?_
  refine runs_call (o := .malloc) (some e : Option E) _ ⟨he, rfl⟩ ?_
  refine runs_call (o := .wrlock false) (0 : ℤ) _ ⟨hcalm.writer, hcalm.readers, rfl⟩ ?_
  refine runs_call (o := .enterTable .write) () _ rfl ?_
  refine runs_call (o := .hashAdd e cond) () _ ⟨false, tbl, htbl, rfl⟩ ?_
  refine runs_call (o := .unlock) (0 : ℤ) _ (answers_unlock rfl) ?_
  exact ⟨_, .refl, ⟨hcalm.waiting, rfl, hcalm.readers⟩,
    List.mem_append_right _ (List.mem_singleton_self _)⟩

/-- It is destroyed, but not struck out. -/
theorem runs_destroy_stray (hash : C → ℕ) (t : T) {clkId : ClockId} (hcalm : m.Calm)
    (hready : m.status cond = .ready clkId) :
    ∃ m', (condMachine T C E hash true).Runs t m (Call.run (.destroy cond)) m'
      (.ret (.destroy cond, 22)) ∧ m'.Calm ∧ m'.entries = m.entries ∧ m'.real cond = none := by
  refine runs_call (o := .enter (.destroy cond)) () _
    ⟨⟨clkId, hready⟩, fun u => by rw [hcalm.waiting]; exact nofun, rfl⟩ ?_
  refine runs_call (o := .realCondDestroy cond) (0 : ℤ) _ rfl ?_
  refine runs_call (o := .wrlock true) (22 : ℤ) _ ⟨fun _ => rfl, rfl⟩ ?_
  exact ⟨_, .refl, ⟨hcalm.waiting, hcalm.writer, hcalm.readers⟩, rfl, Function.update_self ..⟩

/-- Another condition is initialized in its place. -/
theorem runs_init_plain (hash : C → ℕ) (stray : Bool) (t : T) (hcalm : m.Calm)
    (hraw : m.status cond = .raw) :
    ∃ m', (condMachine T C E hash stray).Runs t m (Call.run (.init cond none)) m'
      (.ret (.init cond none, 0)) ∧ m'.Calm ∧ m'.entries = m.entries := by
  refine runs_call (o := .enter (.init cond none)) () _ ⟨hraw, rfl⟩ ?_
  refine runs_call (o := .realCondInit cond none) (0 : ℤ) _ rfl ?_
  exact ⟨_, .refl, ⟨hcalm.waiting, hcalm.writer, hcalm.readers⟩, rfl⟩

/-- And somebody waits on that one. -/
theorem runs_wait (hinv : (registry hash stray).inv m) (hcalm : m.Calm)
    (hready : m.status cond = .ready .realtime) {e : E} (he : (e, cond) ∈ m.entries) :
    ∃ m', (condMachine T C E hash stray).Runs t m (Call.run (.timedwait cond)) m'
      (.ret (.timedwait cond, 0)) ∧ (.ready .realtime, .monotonic) ∈ m'.waits := by
  obtain ⟨r, hr, -, hmissing⟩ := hashFind_keyed hinv.1.keyed cond
  obtain ⟨e', rfl⟩ : ∃ e', r = some e' :=
    Option.ne_none_iff_exists'.mp fun hnone => hmissing hnone e he
  refine runs_call (o := .enter (.timedwait cond)) () _ ⟨⟨.realtime, hready⟩, rfl⟩ ?_
  refine runs_call (o := .rdlock) (0 : ℤ) _ ⟨hcalm.writer, rfl⟩ ?_
  refine runs_call (o := .enterTable .read) () _ rfl ?_
  refine runs_call (o := .hashFind cond) (some e' : Option E) _ ⟨hr, rfl⟩ ?_
  have hwriter : m.writer ≠ some t := by
    rw [hcalm.writer]
    exact nofun
  refine runs_call (o := .unlock) (0 : ℤ) _ (answers_unlock_read hwriter) ?_
  refine runs_call (o := .timedwait cond .monotonic) (0 : ℤ) _ rfl ?_
  refine ⟨_, .refl, List.mem_cons.mpr (Or.inl ?_)⟩
  exact congrArg (·, ClockId.monotonic) hready.symm

/-- A thread makes a call while the others are idle. -/
theorem reach_run {c : Call C} {r : ℤ} {m'' : Mem T C E} (hc : c.Allowed)
    (h : (condMachine T C E hash stray).Runs t m c.run m' (.ret (c, r)))
    (hf : Returned t (c, r) m' m'') :
    (condMachine T C E hash stray).Reach ⟨m, fun _ => none⟩ ⟨m'', fun _ => none⟩ :=
  Machine.Runs.reach_of_return (s := ⟨m, fun _ => none⟩) rfl ⟨c, hc, rfl⟩ h hf

/-- A condition of the monotonic clock has been initialized. -/
theorem reach_init_monotonic (t : T) (hinv : (registry hash stray).inv m) (hcalm : m.Calm)
    (hfull : ¬ m.monotonicConds.Full) (hraw : m.status cond = .raw) {e : E}
    (he : m.heap e = .unused) :
    ∃ m', (condMachine T C E hash stray).Reach ⟨m, fun _ => none⟩ ⟨m', fun _ => none⟩ ∧
      m'.Calm ∧ (e, cond) ∈ m'.entries ∧ m'.status cond = .ready .monotonic := by
  obtain ⟨m₁, hrun, hcalm₁, he₁⟩ := runs_init_monotonic (t := t) hinv hcalm hfull hraw he
  exact ⟨_, reach_run (c := .init cond (some .monotonic)) (Or.inr rfl) hrun rfl,
    ⟨hcalm₁.waiting, hcalm₁.writer, hcalm₁.readers⟩, he₁, Function.update_self ..⟩

/-- It has been destroyed. -/
theorem reach_destroy_stray (hash : C → ℕ) (t : T) {clkId : ClockId} (hcalm : m.Calm)
    (hready : m.status cond = .ready clkId) :
    ∃ m', (condMachine T C E hash true).Reach ⟨m, fun _ => none⟩ ⟨m', fun _ => none⟩ ∧
      m'.Calm ∧ m'.entries = m.entries ∧ m'.status cond = .raw := by
  obtain ⟨m₁, hrun, hcalm₁, he₁, hreal₁⟩ :=
    runs_destroy_stray hash t hcalm hready
  refine ⟨_, reach_run (c := .destroy cond) trivial hrun rfl,
    ⟨hcalm₁.waiting, hcalm₁.writer, hcalm₁.readers⟩, he₁, ?_⟩
  exact (Function.update_self ..).trans (by rw [hreal₁]; rfl)

/-- There is another one in its place. -/
theorem reach_init_plain (hash : C → ℕ) (stray : Bool) (t : T) (hcalm : m.Calm)
    (hraw : m.status cond = .raw) :
    ∃ m', (condMachine T C E hash stray).Reach ⟨m, fun _ => none⟩ ⟨m', fun _ => none⟩ ∧
      m'.Calm ∧ m'.entries = m.entries ∧ m'.status cond = .ready .realtime := by
  obtain ⟨m₁, hrun, hcalm₁, he₁⟩ := runs_init_plain hash stray t hcalm hraw
  exact ⟨_, reach_run (c := .init cond none) (Or.inl rfl) hrun rfl,
    ⟨hcalm₁.waiting, hcalm₁.writer, hcalm₁.readers⟩, he₁, Function.update_self ..⟩

/-- The entry of the first condition. -/
theorem registry_is_sound_after_init : ∃ s,
    (condMachine ℕ ℕ ℕ id true).Reach (Pool.init (calls ℕ ℕ) ℕ (Call ℕ × ℤ) noConds) s ∧
      s.mem.heap 0 = .table := by
  have hinv : (registry id true).inv noConds := (reach_registry noConds_fresh .refl).1
  obtain ⟨m, hs, -, he, -⟩ := reach_init_monotonic 0 hinv ⟨fun _ => rfl, rfl, fun _ => rfl⟩
    noConds_fresh.not_full (noConds_fresh.status 0) (noConds_fresh.heap 0)
  exact ⟨_, hs, (registry_is_sound noConds_fresh hs).2.2.2.1 _ he⟩

/-- **A wait may go by a wrong clock** if a condition has not been struck out. -/
theorem exists_stray_wait [Nonempty T] [Nonempty C] [Nonempty E] (hash : C → ℕ) {m₀ : Mem T C E}
    (hm₀ : m₀.Fresh) :
    ∃ s, (condMachine T C E hash true).Reach (Pool.init (calls C E) T (Call C × ℤ) m₀) s ∧
      (.ready .realtime, .monotonic) ∈ s.mem.waits := by
  obtain ⟨t⟩ := ‹Nonempty T›
  obtain ⟨cond⟩ := ‹Nonempty C›
  obtain ⟨e⟩ := ‹Nonempty E›
  have hinv : (registry hash true).inv m₀ := (reach_registry hm₀ .refl).1
  obtain ⟨m₁, hs₁, hcalm₁, he₁, hready₁⟩ := reach_init_monotonic t hinv
    ⟨hm₀.waiting, hm₀.writer, hm₀.readers⟩ hm₀.not_full (hm₀.status cond) (hm₀.heap e)
  obtain ⟨m₂, hs₂, hcalm₂, he₂, hraw₂⟩ := reach_destroy_stray hash t hcalm₁ hready₁
  obtain ⟨m₃, hs₃, hcalm₃, he₃, hready₃⟩ := reach_init_plain hash true t hcalm₂ hraw₂
  have hs := (hs₁.trans hs₂).trans hs₃
  have hentry : (e, cond) ∈ m₃.entries := by rwa [he₃, he₂]
  obtain ⟨m₄, hrun, hwait⟩ := runs_wait (t := t) (reach_registry hm₀ hs).1 hcalm₃ hready₃ hentry
  exact ⟨_, hs.trans (reach_run (c := .timedwait cond) trivial hrun rfl), hwait⟩

/-- **Every wait goes by the clock of its condition**, in whatever order the threads come and
whatever else fails, exactly if `pthread_cond_destroy` always gets the lock. If it does not, a later
condition for the real time may be waited on by the monotonic clock. -/
theorem waits_by_own_clock_iff [Nonempty T] [Nonempty C] [Nonempty E] {m₀ : Mem T C E}
    (hm₀ : m₀.Fresh) :
    ((∀ s, (condMachine T C E hash stray).Reach (Pool.init (calls C E) T (Call C × ℤ) m₀) s →
      ∀ w ∈ s.mem.waits, w.1 = .ready w.2) ↔ stray = false) ∧
    (stray = true →
      ∃ s, (condMachine T C E hash stray).Reach (Pool.init (calls C E) T (Call C × ℤ) m₀) s ∧
        (.ready .realtime, .monotonic) ∈ s.mem.waits) := by
  have hstray : stray = true →
      ∃ s, (condMachine T C E hash stray).Reach (Pool.init (calls C E) T (Call C × ℤ) m₀) s ∧
        (.ready .realtime, .monotonic) ∈ s.mem.waits := by
    rintro rfl
    exact exists_stray_wait hash hm₀
  refine ⟨⟨fun h => ?_, fun hstray s hs => ((reach_registry hm₀ hs).1.2 hstray).waits⟩, hstray⟩
  by_contra hne
  obtain ⟨s, hs, hwait⟩ := hstray (Bool.not_eq_false _ ▸ hne)
  have heq : Status.ready ClockId.realtime = Status.ready ClockId.monotonic := h s hs _ hwait
  rw [Status.ready.injEq] at heq
  cases heq

/-- In a process whose locks may fail it need not. -/
theorem waits_by_own_clock_iff_stray :
    ¬ ∀ s, (condMachine ℕ ℕ ℕ id true).Reach (Pool.init (calls ℕ ℕ) ℕ (Call ℕ × ℤ) noConds) s →
      ∀ w ∈ s.mem.waits, w.1 = .ready w.2 :=
  fun h => Bool.noConfusion ((waits_by_own_clock_iff noConds_fresh).1.mp h)

end Calls

end LibFaketime.Conds
