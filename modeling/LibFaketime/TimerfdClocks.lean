import LibFaketime.Lib.FirstFit
import LibFaketime.Strings
import LibFaketime.Timeouts

/-!
# The clocks of timer descriptors

`timerfd_settime` is told a descriptor, not a clock. The clock is looked up in
`/proc/self/fdinfo`, and where nothing can be read there, in a table that `timerfd_create` has
filled. The table is the first-fit table of `FirstFit` with descriptor 0 for its marker, and
nothing is ever taken out of it.

So the table has the clock of the last `timerfd_create` for every descriptor but 0 that is among
the first `FT_TIMERFD_CLOCK_ENTRIES` ever returned, whatever has been closed since. Descriptor 0 is
one that `timerfd_create` can return too. Its entry stands in a free cell, and the next new
descriptor takes it. Every other lookup ends with `CLOCK_REALTIME`, which is right if that was the
clock (`LibFaketime.timerfd_clock_eq_latest_iff`).
-/

namespace LibFaketime

/-! ### The functions -/

/-- `struct timerfd_clock_entry`. -/
structure TimerfdClockEntry where
  fd : ℤ
  clockId : ClockId
  deriving DecidableEq

/-- `FT_TIMERFD_CLOCK_ENTRIES`. -/
def ftTimerfdClockEntries : ℕ := 64

/-- `timerfd_clocks`, as it is at first. -/
def timerfdClocks : List TimerfdClockEntry := List.replicate ftTimerfdClockEntries ⟨0, .realtime⟩

/-- The loop of `remember_timerfd_clock`. -/
def rememberLoop (fd : ℤ) (clockId : ClockId) : List TimerfdClockEntry → List TimerfdClockEntry
  | [] => []
  | entry :: rest =>
    if entry.fd = fd ∨ entry.fd = 0 then ⟨fd, clockId⟩ :: rest
    else entry :: rememberLoop fd clockId rest

/-- `remember_timerfd_clock`, where `pthread_mutex_lock` returns `lock`. -/
def rememberTimerfdClock (lock : ℤ) (fd : ℤ) (clockId : ClockId) (table : List TimerfdClockEntry) :
    List TimerfdClockEntry :=
  if lock ≠ 0 then table else rememberLoop fd clockId table

/-- The clock with a given identifier. -/
def clockOfId (id : ℤ) : ClockId :=
  if id = 0 then .realtime
  else if id = 1 then .monotonic
  else if id = 2 then .processCputimeId
  else if id = 3 then .threadCputimeId
  else if id = 4 then .monotonicRaw
  else if id = 5 then .realtimeCoarse
  else if id = 6 then .monotonicCoarse
  else if id = 7 then .boottime
  else .other id

/-- The clock that the text read from `/proc/self/fdinfo` names. -/
def fdinfoClock (buffer : CStr) : Option ClockId :=
  let value := match strstr "\nclockid:".toList buffer with
    | some value => some value
    | none => if "clockid:".toList.isPrefixOf buffer then some buffer else none
  value.bind fun value =>
    -- `value == buffer` compares addresses
    match strtol (value.drop (if value.length = buffer.length then 8 else 9)) with
    | some (parsedClockId, _) =>
      if 0 ≤ parsedClockId ∧ parsedClockId ≤ intMax then some (clockOfId parsedClockId) else none
    | none => none

/-- `timerfd_clock`, where `pthread_mutex_lock` returns `lock` and `fdinfo` is what has been read
from `/proc/self/fdinfo`, if anything could be read. -/
def timerfdClock (lock : ℤ) (table : List TimerfdClockEntry) (fd : ℤ) (fdinfo : Option CStr) :
    ClockId :=
  if lock ≠ 0 then .realtime
  else
    let clockId := match table.find? fun entry => entry.fd = fd with
      | some entry => entry.clockId
      | none => .realtime
    match fdinfo with
    | some buffer => (fdinfoClock buffer).getD clockId
    | none => clockId

/-- `timerfd_create`, with the result of the real function if there is one. -/
def timerfdCreate (lock : ℤ) (clockid : ClockId) (real : Option ℤ)
    (table : List TimerfdClockEntry) : ℤ × List TimerfdClockEntry :=
  match real with
  | none => (-1, table)
  | some fd => (fd, if fd ≠ -1 then rememberTimerfdClock lock fd clockid table else table)

/-! ### Runs -/

/-- A call of `timerfd_create` that has returned a descriptor. -/
structure CreatedTimerfd where
  clockid : ClockId
  fd : ℤ
  nonneg : 0 ≤ fd

/-- What such a call enters into the table. -/
def CreatedTimerfd.entry (c : CreatedTimerfd) : TimerfdClockEntry := ⟨c.fd, c.clockid⟩

/-- The table after some calls. Its mutex is a plain one, which can always be locked. -/
def timerfdClocksAfter (calls : List CreatedTimerfd) : List TimerfdClockEntry :=
  calls.foldl (fun table c => (timerfdCreate 0 c.clockid (some c.fd) table).2) timerfdClocks

/-- The descriptors that have been returned, other than 0, in the order in which they came. -/
def descriptorsReturned (calls : List CreatedTimerfd) : List ℤ :=
  ((calls.map CreatedTimerfd.fd).filter fun fd => fd ≠ 0).eraseDups

/-! ### The table is a first-fit table -/

section Table

variable {calls before after : List CreatedTimerfd} {c : CreatedTimerfd}

theorem rememberLoop_eq_insert (fd : ℤ) (clockId : ClockId) (table : List TimerfdClockEntry) :
    rememberLoop fd clockId table =
      FirstFit.insert TimerfdClockEntry.fd 0 ⟨fd, clockId⟩ table := by
  induction table with
  | nil => rfl
  | cons entry rest ih => rw [rememberLoop, FirstFit.insert, ih]

/-- **A call** inserts its entry. -/
theorem timerfdCreate_eq_insert (c : CreatedTimerfd) (table : List TimerfdClockEntry) :
    (timerfdCreate 0 c.clockid (some c.fd) table).2 =
      FirstFit.insert TimerfdClockEntry.fd 0 c.entry table := by
  have hfd : c.fd ≠ -1 := by
    have := c.nonneg
    omega
  rw [timerfdCreate, if_pos hfd, rememberTimerfdClock, if_neg (by simp)]
  exact rememberLoop_eq_insert ..

/-- **A run** inserts its entries. -/
theorem timerfdClocksAfter_eq_insertAll (calls : List CreatedTimerfd) :
    timerfdClocksAfter calls =
      FirstFit.insertAll TimerfdClockEntry.fd 0 timerfdClocks (calls.map CreatedTimerfd.entry) := by
  rw [timerfdClocksAfter, FirstFit.insertAll, List.foldl_map]
  congr 1
  funext table c
  exact timerfdCreate_eq_insert c table

theorem free_timerfdClocks : FirstFit.Free TimerfdClockEntry.fd 0 timerfdClocks := by
  intro entry hentry
  rw [List.eq_of_mem_replicate hentry]

theorem descriptorsReturned_eq_known (calls : List CreatedTimerfd) :
    descriptorsReturned calls =
      FirstFit.known TimerfdClockEntry.fd 0 (calls.map CreatedTimerfd.entry) := by
  rw [descriptorsReturned, FirstFit.known, List.map_map]
  rfl

/-- The last entry with the descriptor of a call that is the last one to return it. -/
theorem latest_of_last (h : ∀ d ∈ after, d.fd ≠ c.fd) :
    FirstFit.latest TimerfdClockEntry.fd c.fd ((before ++ c :: after).map CreatedTimerfd.entry) =
      some c.entry := by
  have hnil : (after.map CreatedTimerfd.entry).filter (fun e => e.fd = c.fd) = [] := by
    refine List.filter_eq_nil_iff.mpr fun e he => ?_
    obtain ⟨d, hd, rfl⟩ := List.mem_map.mp he
    exact decide_eq_false (h d hd) ▸ Bool.false_ne_true
  rw [FirstFit.latest, List.map_append, List.map_cons, List.filter_append,
    List.filter_cons_of_pos (by simp [CreatedTimerfd.entry]), hnil, List.getLast?_concat]

/-- The lookup of `timerfd_clock`. -/
theorem timerfdClock_none (table : List TimerfdClockEntry) (fd : ℤ) :
    timerfdClock 0 table fd none =
      ((FirstFit.lookup TimerfdClockEntry.fd fd table).map TimerfdClockEntry.clockId).getD
        .realtime := by
  rw [timerfdClock, if_neg (by simp), FirstFit.lookup]
  cases table.find? fun entry => entry.fd = fd <;> rfl

/-- **A descriptor other than 0** has the clock of its last call if it is one of the first. -/
theorem timerfdClock_of_ne_zero (h : ∀ d ∈ after, d.fd ≠ c.fd) (hc : c.fd ≠ 0) :
    timerfdClock 0 (timerfdClocksAfter (before ++ c :: after)) c.fd none =
      if c.fd ∈ (descriptorsReturned (before ++ c :: after)).take ftTimerfdClockEntries then
        c.clockid
      else .realtime := by
  have hlength : timerfdClocks.length = ftTimerfdClockEntries := List.length_replicate
  rw [timerfdClock_none, timerfdClocksAfter_eq_insertAll,
    FirstFit.lookup_of_ne_free free_timerfdClocks hc, latest_of_last h,
    ← descriptorsReturned_eq_known, hlength]
  split
  · rfl
  · rfl

/-- **Descriptor 0** has the clock of its last call while its entry stands in a free cell. -/
theorem timerfdClock_of_eq_zero (h : ∀ d ∈ after, d.fd ≠ c.fd) (hc : c.fd = 0)
    (hroom : (descriptorsReturned (before ++ c :: after)).length < ftTimerfdClockEntries)
    (hold : ∀ d ∈ after, ∃ b ∈ before, b.fd = d.fd) :
    timerfdClock 0 (timerfdClocksAfter (before ++ c :: after)) c.fd none = c.clockid := by
  rw [descriptorsReturned_eq_known, List.map_append, List.map_cons] at hroom
  have hlength : timerfdClocks.length = ftTimerfdClockEntries := List.length_replicate
  rw [timerfdClock_none, timerfdClocksAfter_eq_insertAll, List.map_append, List.map_cons, hc,
    FirstFit.lookup_free_of_kept free_timerfdClocks hc (fun e he => ?_) (hlength ▸ hroom)]
  · rfl
  · obtain ⟨d, hd, rfl⟩ := List.mem_map.mp he
    obtain ⟨b, hb, hbd⟩ := hold d hd
    exact ⟨fun h0 => h d hd (h0.trans hc.symm), b.entry, List.mem_map_of_mem hb, hbd⟩

/-- **Descriptor 0** has no clock in a table without free cells. -/
theorem timerfdClock_zero_of_full
    (hfull : ftTimerfdClockEntries ≤ (descriptorsReturned calls).length) :
    timerfdClock 0 (timerfdClocksAfter calls) 0 none = .realtime := by
  have hlength : timerfdClocks.length = ftTimerfdClockEntries := List.length_replicate
  rw [descriptorsReturned_eq_known, ← hlength] at hfull
  rw [timerfdClock_none, timerfdClocksAfter_eq_insertAll,
    FirstFit.lookup_free_of_full free_timerfdClocks hfull]
  rfl

/-- **Descriptor 0** loses its clock to the next new descriptor. -/
theorem timerfdClock_zero_of_new (h : ∀ d ∈ after, d.fd ≠ c.fd) (hc : c.fd = 0) {d : CreatedTimerfd}
    (hd : d ∈ after) (hnew : ∀ b ∈ before, b.fd ≠ d.fd) :
    timerfdClock 0 (timerfdClocksAfter (before ++ c :: after)) 0 none = .realtime := by
  rw [timerfdClock_none, timerfdClocksAfter_eq_insertAll, List.map_append, List.map_cons]
  cases hfound : FirstFit.lookup TimerfdClockEntry.fd 0
      (FirstFit.insertAll TimerfdClockEntry.fd 0 timerfdClocks
        (before.map CreatedTimerfd.entry ++ c.entry :: after.map CreatedTimerfd.entry)) with
  | none => rfl
  | some entry =>
    have hmem := FirstFit.lookup_free_of_claimed free_timerfdClocks hc
      (fun e he => by
        obtain ⟨a, ha, rfl⟩ := List.mem_map.mp he
        exact fun h0 => h a ha (h0.trans hc.symm))
      (List.mem_map_of_mem hd)
      (fun e he => by
        obtain ⟨b, hb, rfl⟩ := List.mem_map.mp he
        exact hnew b hb) hfound
    rw [List.eq_of_mem_replicate (List.mem_of_mem_tail hmem)]
    rfl

/-- **What `timerfd_clock` answers without `/proc`**: the clock of the last `timerfd_create` that
returned the descriptor, if that clock is `CLOCK_REALTIME` or the descriptor has kept its cell. -/
theorem timerfd_clock_eq_latest_iff (before after : List CreatedTimerfd) (c : CreatedTimerfd)
    (h : ∀ d ∈ after, d.fd ≠ c.fd) :
    timerfdClock 0 (timerfdClocksAfter (before ++ c :: after)) c.fd none = c.clockid ↔
      c.clockid = .realtime ∨
      (c.fd ≠ 0 ∧
        c.fd ∈ (descriptorsReturned (before ++ c :: after)).take ftTimerfdClockEntries) ∨
      (c.fd = 0 ∧ (descriptorsReturned (before ++ c :: after)).length < ftTimerfdClockEntries ∧
        ∀ d ∈ after, ∃ b ∈ before, b.fd = d.fd) := by
  by_cases hc : c.fd = 0
  · by_cases hroom : (descriptorsReturned (before ++ c :: after)).length < ftTimerfdClockEntries
    · by_cases hold : ∀ d ∈ after, ∃ b ∈ before, b.fd = d.fd
      · exact iff_of_true (timerfdClock_of_eq_zero h hc hroom hold)
          (Or.inr (Or.inr ⟨hc, hroom, hold⟩))
      · obtain ⟨d, hd, hnew⟩ : ∃ d ∈ after, ∀ b ∈ before, b.fd ≠ d.fd := by
          simpa using hold
        rw [hc, timerfdClock_zero_of_new h hc hd hnew, eq_comm]
        exact (or_iff_left fun hkept => hkept.elim (fun hk => hk.1 rfl) fun hk => hold hk.2.2).symm
    · rw [hc, timerfdClock_zero_of_full (Nat.le_of_not_lt hroom), eq_comm]
      exact (or_iff_left fun hkept => hkept.elim (fun hk => hk.1 rfl) fun hk => hroom hk.2.1).symm
  · rw [timerfdClock_of_ne_zero h hc]
    split
    case isTrue hmem => exact iff_of_true rfl (Or.inr (Or.inl ⟨hc, hmem⟩))
    case isFalse hmem =>
      rw [eq_comm]
      exact (or_iff_left fun hkept => hkept.elim (fun hk => hmem hk.2) fun hk => hc hk.1).symm

/-- A descriptor that is closed and returned again, with another clock. -/
theorem timerfd_clock_eq_latest_iff_reused :
    (∀ d ∈ [(⟨.realtime, 4, by decide⟩ : CreatedTimerfd)], d.fd ≠ 3) ∧
    (timerfdClock 0 (timerfdClocksAfter
        ([⟨.realtime, 3, by decide⟩] ++ ⟨.monotonic, 3, by decide⟩ ::
          [⟨.realtime, 4, by decide⟩])) 3 none = .monotonic ↔
      ClockId.monotonic = .realtime ∨
      ((3 : ℤ) ≠ 0 ∧ 3 ∈ (descriptorsReturned
        ([⟨.realtime, 3, by decide⟩] ++ ⟨.monotonic, 3, by decide⟩ ::
          [⟨.realtime, 4, by decide⟩])).take ftTimerfdClockEntries) ∨
      ((3 : ℤ) = 0 ∧ (descriptorsReturned
        ([⟨.realtime, 3, by decide⟩] ++ ⟨.monotonic, 3, by decide⟩ ::
          [⟨.realtime, 4, by decide⟩])).length < ftTimerfdClockEntries ∧
        ∀ d ∈ [(⟨.realtime, 4, by decide⟩ : CreatedTimerfd)],
          ∃ b ∈ [(⟨.realtime, 3, by decide⟩ : CreatedTimerfd)], b.fd = d.fd)) :=
  ⟨by decide, timerfd_clock_eq_latest_iff [⟨.realtime, 3, by decide⟩] [⟨.realtime, 4, by decide⟩]
    ⟨.monotonic, 3, by decide⟩ (by decide)⟩

/-- The entry of descriptor 0 is lost to descriptor 3. -/
theorem timerfd_clock_forgets_zero :
    ¬ ∀ (before after : List CreatedTimerfd) (c : CreatedTimerfd), (∀ d ∈ after, d.fd ≠ c.fd) →
      timerfdClock 0 (timerfdClocksAfter (before ++ c :: after)) c.fd none = c.clockid := by
  intro h
  have hzero := h [] [⟨.monotonic, 3, by decide⟩] ⟨.monotonic, 0, by decide⟩ (by decide)
  exact absurd hzero (by decide)

end Table

end LibFaketime
