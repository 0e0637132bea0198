import LibFaketime.Lib.OneShot
import LibFaketime.Limits
import LibFaketime.Precedence

/-!
# The external command

An external command can be set to be started at a query with a given number, or when a given
time has passed. It is a trigger that goes off once (`OneShot.Trigger`): `callcounter` is its
count, `spawned` whether it has gone off, and a query is an event it looks at.

But the limits on the faking stand before it. A query they shut out is counted and then left
before the command is looked at, so that the query with the given number may go by without the
command being started, and then it never is (`LibFaketime.command_starts_once_iff`).
-/

namespace LibFaketime

open Effects Effects.Prog OneShot

/-! ### The command as a trigger -/

/-- The command is due, whatever the number of the query. -/
def Proc.commandDue (s : Proc) (c : ClockId) (tp : Timespec) : Bool :=
  decide (-1 < s.ftSpawnSecs) && decide (s.ftSpawnSecs ≤ s.secondsSince c tp)

/-- A query, as the trigger sees it. -/
def Proc.event (s : Proc) (c : ClockId) (tp : Timespec) : Event :=
  ⟨!s.shutsOut c tp, s.commandDue c tp⟩

/-- `LONG_MAX`, as a number of calls. -/
def callCap : ℕ := 2 ^ 63 - 1

/-- **The variables of the process are those of the trigger** for the query with the number
`N`. -/
structure Follows (N : ℕ) (t : Trigger) (s : Proc) : Prop where
  support : s.spawnsupport = true
  number : s.ftSpawnNcalls = N
  count : s.callcounter = t.count
  capped : t.count ≤ callCap
  fired : s.spawned = t.fired

section Follows

variable {B : Build} {N : ℕ} {t : Trigger} {s s' : Proc} {w w' : World} {c : ClockId}
  {tp : Timespec} {β γ : Type}

theorem Follows.of_limitState (h : Follows N t s) (heq : s'.limitState = s.limitState) :
    Follows N t s' := by
  simp only [Proc.limitState, Prod.mk.injEq] at heq
  obtain ⟨⟨hcalls, -⟩, hsupport, hspawned, -, hnumber⟩ := heq
  exact ⟨hsupport.trans h.support, hnumber.trans h.number, hcalls.trans h.count,
    h.capped, hspawned.trans h.fired⟩

/-- Every query is counted, up to `LONG_MAX`. -/
theorem Follows.counted (h : Follows N t s) (hN : 0 < N) :
    s.counted = { s with callcounter := t.upcoming callCap } := by
  have hcounts : s.countsCalls = true := by
    rw [Proc.countsCalls, h.support, h.number, Bool.true_and, Bool.or_eq_true]
    exact Or.inr (bne_iff_ne.mpr (by omega))
  have hnext : (if s.callcounter < longMax then s.callcounter + 1 else s.callcounter) =
      t.upcoming callCap := by
    have hcapped := h.capped
    rw [h.count, Trigger.upcoming]
    unfold longMax callCap at *
    split <;> omega
  rw [Proc.counted, if_pos hcounts, hnext]

/-- The command is started at a query exactly if the trigger goes off. -/
theorem Follows.fires_eq (h : Follows N t s) (hN : 0 < N) (c : ClockId) (tp : Timespec) :
    t.fires callCap N (s.event c tp) =
      (!s.shutsOut c tp && s.counted.spawnsNow (s.secondsSince c tp)) := by
  have hnumber : ((t.upcoming callCap : ℤ) == s.ftSpawnNcalls) = (t.upcoming callCap == N) := by
    rw [h.number, Bool.eq_iff_iff, beq_iff_eq, beq_iff_eq, Nat.cast_inj]
  rw [Trigger.fires, Proc.event, Proc.spawnsNow, h.counted hN, ← h.fired, ← hnumber,
    Proc.commandDue]
  dsimp only
  rw [h.support, Bool.true_and]

/-- **One step of the trigger**: whether the program starts the command, and what it leaves
behind. -/
def Steps (N : ℕ) (t : Trigger) (e : Event) (n : ℕ) (s : Proc) : Prop :=
  n = (t.fires callCap N e).toNat ∧ Follows N (t.next callCap N e) s

theorem starts_countCall : starts countCall w = 0 := by
  have huses : countCall.Uses fun o : Op => o.startsCommand = false := by
    refine uses_perform_bind (I := sys) (o := .load) rfl fun s => ?_
    split
    · exact uses_perform rfl
    · exact uses_pure _
  exact huses.count_eq_zero fun _ ho => ho

/-- What a query leaves of the variables of the trigger. -/
theorem Follows.next (h : Follows N t w.proc) (hN : 0 < N) {e : Event} {s : Proc}
    (heq : s.limitState = { w.proc.counted with
      spawned := t.fired || t.fires callCap N e }.limitState) :
    Follows N (t.next callCap N e) s := by
  have hnext : Follows N (t.next callCap N e) { w.proc.counted with
      spawned := t.fired || t.fires callCap N e } := by
    rw [h.counted hN]
    exact ⟨h.support, h.number, rfl, Nat.min_le_right _ _, rfl⟩
  exact hnext.of_limitState heq

/-- **The limits and the command.** -/
theorem Follows.steps_limitsAndSpawn (h : Follows N t w.proc) (hN : 0 < N) :
    Arrives (Steps N t (w.proc.event c tp)) (limitsAndSpawn c tp) w := by
  have hcounted := h.counted hN
  have hsupport : w.proc.counted.spawnsupport = true := by
    rw [hcounted]
    exact h.support
  have hout : (w.proc.counted.limitedFaking && w.proc.counted.outsideLimits
      (timespecsub tp (w.proc.counted.ftplStarttime.of c)).tvSec) = w.proc.shutsOut c tp := by
    rw [Proc.shutsOut, hcounted]
  have hnow : w.proc.counted.spawnsNow (timespecsub tp (w.proc.counted.ftplStarttime.of c)).tvSec =
      w.proc.counted.spawnsNow (w.proc.secondsSince c tp) := by
    rw [Proc.secondsSince, hcounted]
  have hspawned : w.proc.counted.spawned = t.fired := by
    rw [hcounted]
    exact h.fired
  have hfires := h.fires_eq hN c tp
  intro b w' hr
  -- the call is counted first, whether or not the limits shut it out
  obtain ⟨_, w₁, h₁, hr, hcount₁⟩ := exists_of_run_bind_count (c := Op.startsCommand) hr
  obtain rfl := runs_countCall_counted.ends _ _ h₁
  obtain ⟨_, _, hload, hr, hcount₂⟩ := exists_of_run_bind_count (c := Op.startsCommand) hr
  cases hload
  rw [starts, limitsAndSpawn, hcount₁, ← starts, starts_countCall, hcount₂]
  dsimp only at hr ⊢
  rw [hsupport, Bool.or_true, if_pos rfl, hout, hnow] at hr ⊢
  -- the limits come before the command, so what they shut out sets nothing off
  cases hs : w.proc.shutsOut c tp with
  | true =>
    rw [hs, Bool.not_true, Bool.false_and] at hfires
    rw [hs, if_pos rfl] at hr
    rw [if_pos rfl]
    cases hr
    refine ⟨congrArg Bool.toNat hfires.symm, h.next hN ?_⟩
    rw [hfires, Bool.or_false, ← hspawned]
  | false =>
    rw [hs, Bool.not_false, Bool.true_and] at hfires
    rw [hs, if_neg (by simp), ← hfires] at hr
    rw [if_neg (by simp), ← hfires]
    cases hf : t.fires callCap N (w.proc.event c tp) with
    | true =>
      rw [hf, if_pos rfl] at hr
      rw [if_pos rfl]
      cases hr
      refine ⟨congrArg Bool.toNat hf.symm, h.next hN ?_⟩
      rw [hf, Bool.or_true]
    | false =>
      rw [hf, if_neg (by simp)] at hr
      rw [if_neg (by simp)]
      cases hr
      refine ⟨congrArg Bool.toNat hf.symm, h.next hN ?_⟩
      rw [hf, Bool.or_false, ← hspawned]

/-- **A query is one step of the trigger.** -/
theorem Follows.steps_fakeClockGettime (h : Follows N t w.proc) (hN : 0 < N)
    (hfaking : w.dontFake = false) (hcpu : c.IsCpu = false) :
    Arrives (Steps N t (w.proc.event c tp)) (fakeClockGettime B c tp) w := by
  refine arrives_of_limits ?_ hfaking hcpu fun v hv => ?_
  · intro n s s' hs hstep
    exact ⟨hstep.1, hstep.2.of_limitState hs⟩
  · rw [← hv] at h ⊢
    exact h.steps_limitsAndSpawn hN

end Follows

/-! ### Whole runs -/

/-- A query, in the world in which it is made. -/
structure Query where
  before : World
  clkId : ClockId
  tp : Timespec

namespace Query

/-- How often it starts the command. -/
def starts (B : Build) (q : Query) : ℕ :=
  LibFaketime.starts (fakeClockGettime B q.clkId q.tp) q.before

/-- What the trigger sees of it. -/
def event (q : Query) : Event := q.before.proc.event q.clkId q.tp

/-- The limits let the query through. -/
def LetThrough (q : Query) : Prop := q.before.proc.shutsOut q.clkId q.tp = false

/-- The seconds have passed after which the command is to be started. -/
def Late (q : Query) : Prop := q.before.proc.commandDue q.clkId q.tp = true

theorem setsOff_event {N i : ℕ} {q : Query} :
    q.event.SetsOff N i ↔ q.LetThrough ∧ (q.Late ∨ i + 1 = N) :=
  and_congr_left fun _ => iff_of_eq (Bool.not_eq_true' _)

end Query

/-- **A run with its queries**: those of clocks that are not CPU clocks, while the time is
faked. Whatever else happens, in this process or outside, leaves alone the limits and what is
counted for them. -/
inductive Queries (B : Build) : World → List Query → World → Prop
  | nil {w : World} : Queries B w [] w
  | query {w w₁ w' : World} {qs : List Query} {c : ClockId} {tp : Timespec} {r : ℤ × Timespec}
      (hfaking : w.dontFake = false) (hcpu : c.IsCpu = false)
      (h : (fakeClockGettime B c tp).run seq w = .ok (r, w₁)) (hs : Queries B w₁ qs w') :
      Queries B w (⟨w, c, tp⟩ :: qs) w'
  | other {w w₁ w' : World} {qs : List Query} (h : w₁.proc.limitState = w.proc.limitState)
      (hs : Queries B w₁ qs w') : Queries B w qs w'

section Queries

variable {B : Build} {N : ℕ} {t : Trigger} {w₀ w₁ w w' : World} {qs : List Query}
  {env : EnvVar → Option CStr}

/-- **A run is a run of the trigger.** -/
theorem Queries.trace (hs : Queries B w qs w') (hN : 0 < N) (h : Follows N t w.proc) :
    qs.map (Query.starts B) =
      t.trace callCap N (qs.map Query.event) := by
  induction hs generalizing t with
  | nil => rfl
  | query hfaking hcpu hrun _ ih =>
    obtain ⟨hstarts, hnext⟩ := h.steps_fakeClockGettime hN hfaking hcpu _ _ hrun
    rw [List.map_cons, List.map_cons, Trigger.trace, Query.event, ← ih hnext, Query.starts, hstarts]
  | other heq _ ih => exact ih (h.of_limitState heq)

/-! ### A process that is to start a command -/

/-- The settings that are read once do not take the command back. -/
theorem unaffected_support : Unaffected fun s => s.spawnsupport = true := by
  constructor
  all_goals intros
  all_goals first | assumption | rfl

/-- Nothing is counted before the process is initialized. -/
def Proc.Uncounted (s : Proc) : Prop := s.callcounter = 0 ∧ s.spawned = false

theorem unaffected_uncounted : Unaffected Proc.Uncounted := by
  constructor
  all_goals intros
  all_goals assumption

theorem ends_getenv {β : Type} {v : EnvVar} {f : Option CStr → Sys β} {Q : β → World → Prop}
    (henv : w.HasEnv env) (h : (f (env v)).Ends seq w.tick Q) : (getenv v >>= f).Ends seq w Q := by
  refine ends_ask rfl fun r hr => ?_
  rw [henv] at hr
  cases hr
  exact h

/-- **A command is set**, to be started at the query with the number `N`. -/
structure SetsCommand (N : ℕ) (env : EnvVar → Option CStr) : Prop where
  command : env .faketimeSpawnTarget ≠ none ∨ env .faketimeSpawnExec ≠ none
  number : (env .faketimeSpawnNumcalls).bind parseLongSetting = some (N : ℤ)
  pos : 0 < N

theorem SetsCommand.capped (h : SetsCommand N env) : N ≤ callCap := by
  obtain ⟨text, -, hparse⟩ := Option.bind_eq_some_iff.mp h.number
  unfold parseLongSetting at hparse
  split at hparse
  · split at hparse
    next hrange =>
      cases hparse
      have hmax := hrange.2
      unfold ftTimeMax at hmax
      unfold callCap
      omega
    · cases hparse
  · cases hparse

theorem ends_spawnTarget (henv : w.HasEnv env) (hset : env .faketimeSpawnTarget ≠ none) :
    spawnTarget.Ends seq w fun _ w' => w'.proc.spawnsupport = true := by
  obtain ⟨command, hcommand⟩ := Option.ne_none_iff_exists'.mp hset
  refine ends_getenv henv ?_
  rw [hcommand, Option.isSome_some, if_pos rfl]
  refine ends_getenv henv ?_
  split
  · exact ends_exit
  · rintro _ _ ⟨⟩
    rfl

theorem ends_spawnExec (henv : w.HasEnv env) (hset : env .faketimeSpawnExec ≠ none) :
    spawnExec.Ends seq w fun _ w' => w'.proc.spawnsupport = true := by
  obtain ⟨command, hcommand⟩ := Option.ne_none_iff_exists'.mp hset
  refine ends_getenv henv ?_
  rw [hcommand]
  refine ends_getenv henv ?_
  split
  · exact ends_exit
  · refine Ends.bind (Q := fun _ _ => True) (fun _ _ _ => trivial) fun _ _ _ => ?_
    rintro _ _ ⟨⟩
    rfl

theorem ends_parseSpawnLimits (henv : w.HasEnv env) (h : SetsCommand N env)
    (hsupport : w.proc.spawnsupport = true) : parseSpawnLimits.Ends seq w fun _ w' =>
      w'.proc.spawnsupport = true ∧ w'.proc.ftSpawnNcalls = N := by
  obtain ⟨text, htext, hparse⟩ := Option.bind_eq_some_iff.mp h.number
  have huses : (assignLong .faketimeSpawnSeconds "FAKETIME_SPAWN_SECONDS"
      fun n s => { s with ftSpawnSecs := n }).Uses (Sets fun s => s.spawnsupport = true) :=
    uses_assignLong fun _ _ h => h
  refine Ends.bind (fun _ _ hr => sets_of_run huses hsupport hr) fun _ w₁ h₁ => ?_
  have henv₁ : w₁.HasEnv env := fun n v => by rw [h₁.2, henv]
  refine ends_getenv henv₁ ?_
  rw [htext]
  dsimp only
  rw [longSetting, hparse]
  rintro _ _ ⟨⟩
  exact ⟨h₁.1, rfl⟩

/-- **The settings of the command.** -/
theorem ends_spawnSettings (henv : w.HasEnv env) (h : SetsCommand N env) :
    spawnSettings.Ends seq w fun _ w' =>
      w'.proc.spawnsupport = true ∧ w'.proc.ftSpawnNcalls = N := by
  intro a w' hr
  obtain ⟨_, w₁, h₁, hr⟩ := exists_of_run_bind hr
  have henv₁ : w₁.HasEnv env := fun n v => by
    rw [(sets_of_run (uses_spawnTarget unaffected_true) trivial h₁).2, henv]
  obtain ⟨_, w₂, h₂, hr⟩ := exists_of_run_bind hr
  have henv₂ : w₂.HasEnv env := fun n v => by
    rw [(sets_of_run (uses_spawnExec unaffected_true) trivial h₂).2, henv₁]
  have hsupport : w₂.proc.spawnsupport = true := by
    rcases h.command with hset | hset
    · have hset₁ := ends_spawnTarget henv hset _ _ h₁
      exact (sets_of_run (uses_spawnExec unaffected_support) hset₁ h₂).1
    · exact ends_spawnExec henv₁ hset _ _ h₂
  refine ends_parseSpawnLimits henv₂ h hsupport a w' ?_
  rwa [run_load, hsupport, if_pos rfl] at hr

/-- The settings that are read after those of the command leave them alone. -/
theorem follows_of_readLimitsAndFiles (henv : w.HasEnv env) (h : SetsCommand N env)
    (hfresh : w.proc.Uncounted) (hr : readLimitsAndFiles.run seq w = .ok ((), w')) :
    Follows N .fresh w'.proc := by
  obtain ⟨_, w₁, h₁, hr⟩ := exists_of_run_bind hr
  obtain ⟨hfresh₁, hos₁⟩ := sets_of_run (uses_limitSettings unaffected_uncounted) hfresh h₁
  obtain ⟨_, w₂, h₂, hr⟩ := exists_of_run_bind hr
  have henv₁ : w₁.HasEnv env := fun n v => by rw [hos₁, henv]
  obtain ⟨hsupport, hnumber⟩ := ends_spawnSettings henv₁ h _ _ h₂
  obtain ⟨hcalls, hspawned⟩ :=
    (sets_of_run (uses_spawnSettings unaffected_uncounted) hfresh₁ h₂).1
  have hfollows : Follows N .fresh w₂.proc :=
    ⟨hsupport, hnumber, hcalls, Nat.zero_le _, hspawned⟩
  have huses : (saveFile >>= fun _ => loadFile >>= fun _ => formatSetting).Uses
      (Sets (Follows N .fresh)) :=
    (uses_saveFile fun _ h => h.of_limitState rfl).bind fun _ =>
      (uses_loadFile fun _ _ _ _ h => h.of_limitState rfl).bind fun _ =>
        uses_formatSetting fun _ _ h => h.of_limitState rfl
  exact (sets_of_run huses hfollows hr).1

/-- The setting of the user has nothing to do with the command. -/
theorem limitState_firstSetting : (firstSetting B).Ends seq w fun _ w' =>
    w'.proc.limitState = w.proc.limitState := by
  refine ends_ask rfl fun r _ => ?_
  cases r with
  | some setting =>
    exact ends_store (limitState_of_run
      (bystander_of_refreshing (refreshing_parseFtString trivial setting)))
  | none =>
    exact limitState_of_run ((bystander_of_refreshing (refreshing_readConfigFile trivial)).bind
      fun _ => uses_pure _)

/-- **The initialization with a command.** -/
theorem follows_of_init (henv : w.HasEnv env) (h : SetsCommand N env)
    (hfresh : w.proc.Uncounted) (hr : (ftplReallyInit B).run seq w = .ok ((), w')) :
    Follows N .fresh w'.proc := by
  obtain ⟨v₁, v₂, v₃, v₄, ⟨hfresh₁, hos⟩, hfiles, hstart, hfirst, hlast⟩ := exists_stages
    (K := Proc.Uncounted) unaffected_uncounted (fun _ _ h => h) (fun _ _ h => h) (fun _ h => h)
    hfresh hr
  have henv₁ : v₁.HasEnv env := fun n v => by rw [hos, henv]
  have hfollows := follows_of_readLimitsAndFiles henv₁ h hfresh₁ hfiles
  have hstart' := limitState_of_run (bystander_of_plain (plain_agreeOnStarttime trivial)) _ _ hstart
  have hfirst' := limitState_firstSetting _ _ hfirst
  rw [hlast]
  exact (hfollows.of_limitState hstart').of_limitState hfirst'

end Queries

/-! ### A command at the first query -/

/-- The environment of a process that is to run `/bin/true` at its first query, with the faking
to stop after `stop` calls. -/
def commandEnv (stop : Option CStr) : EnvVar → Option CStr
  | .faketimeSpawnTarget => some "/bin/true".toList
  | .faketimeSpawnNumcalls => some ['1']
  | .faketimeStopAfterNumcalls => stop
  | v => startAtEnv v

/-- The process in such an environment. -/
def commandWorld (stop : Option CStr) : World :=
  calmWorld (commandEnv stop) (fun _ _ => ⟨1000, 0⟩) ⟨0, 0⟩ .initial

theorem setsCommand_commandEnv (stop : Option CStr) : SetsCommand 1 (commandEnv stop) where
  command := Or.inl nofun
  number := show parseLongSetting ['1'] = some 1 by decide +kernel
  pos := Nat.one_pos

/-- What the first query asks. -/
def firstQuery : Sys (ℤ × Timespec) := fakeClockGettime epochBuild .realtime ⟨1000, 0⟩

theorem run_first_query : ∃ w₁ r w,
    (ftplReallyInit epochBuild).run seq (commandWorld none) = .ok ((), w₁) ∧
      firstQuery.run seq w₁ = .ok (r, w) ∧ w₁.dontFake = false ∧
        w₁.proc.shutsOut .realtime ⟨1000, 0⟩ = false := ⟨_, _, _, rfl, rfl, rfl, rfl⟩

theorem run_first_query_shut : ∃ w₁ r w,
    (ftplReallyInit epochBuild).run seq (commandWorld (some ['1'])) = .ok ((), w₁) ∧
      firstQuery.run seq w₁ = .ok (r, w) ∧ w₁.dontFake = false ∧ starts firstQuery w₁ = 0 :=
  ⟨_, _, _, rfl, rfl, rfl, rfl⟩

end LibFaketime
