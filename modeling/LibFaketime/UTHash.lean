import LibFaketime.Lib.Linked
import Mathlib.Algebra.Order.Floor.Div
import Mathlib.Data.List.Perm.Subperm
import Mathlib.Data.Nat.Bitwise
import Mathlib.Data.Nat.Notation
import Mathlib.Data.Set.Insert

/-!
# The hash table

Which condition variables go by the monotonic clock is kept in a hash table of macros. Every element
lies in two doubly linked lists: all of them in the order in which they were added, and those of one
bucket, the latest first. When a bucket is full the number of buckets is doubled and every element
goes to a new one; when that does not help twice in a row, it is not done any more.

For every hash function and every sequence of additions, deletions and searches, the table finds an
element with a key exactly if one has been added and not deleted since, whatever has been doubled
meanwhile, and it passes the check of its own that is made after every change when it is debugged
(`LibFaketime.uthash_refines`).

The numbers of elements are natural numbers here. Those of the source are `unsigned`, which is the
same as long as there are fewer than `2 ^ 28` elements at a time.
-/

namespace LibFaketime

open Linked

/-! ### The table -/

/-- `UT_hash_bucket`. -/
structure UTHashBucket (P : Type) where
  hhHead : Option P
  count : ℕ
  expandMult : ℕ

/-- `UT_hash_table`. -/
structure UTHashTable (P : Type) where
  buckets : ℕ → UTHashBucket P
  numBuckets : ℕ
  log2NumBuckets : ℕ
  numItems : ℕ
  tail : P
  idealChainMaxlen : ℕ
  nonidealItems : ℕ
  ineffExpands : ℕ
  noexpand : Bool

/-- The fields of `UT_hash_handle` in all elements. -/
structure UTHashHandles (P K : Type) where
  prev : P → Option P
  next : P → Option P
  hhPrev : P → Option P
  hhNext : P → Option P
  key : P → K
  hashv : P → ℕ

/-- The pointer to the first element, and what can be reached from it. Without a first element there
is no table. -/
structure UTHash (P K : Type) where
  head : Option P
  tbl : UTHashTable P
  hh : UTHashHandles P K

/-- `HASH_INITIAL_NUM_BUCKETS`. -/
def hashInitialNumBuckets : ℕ := 32

/-- `HASH_INITIAL_NUM_BUCKETS_LOG2`. -/
def hashInitialNumBucketsLog2 : ℕ := 5

/-- `HASH_BKT_CAPACITY_THRESH`. -/
def hashBktCapacityThresh : ℕ := 10

/-- `HASH_TO_BKT`. -/
def hashToBkt (hashv numBkts : ℕ) : ℕ := hashv &&& (numBkts - 1)

section Macros

variable {P K : Type} [DecidableEq P]

/-- `HASH_MAKE_TABLE`. -/
def hashMakeTable (head : P) : UTHashTable P where
  buckets _ := ⟨none, 0, 0⟩
  numBuckets := hashInitialNumBuckets
  log2NumBuckets := hashInitialNumBucketsLog2
  numItems := 0
  tail := head
  idealChainMaxlen := 0
  nonidealItems := 0
  ineffExpands := 0
  noexpand := false

/-- `HASH_APPEND_LIST`. -/
def hashAppendList (m : UTHash P K) (add : P) : UTHash P K :=
  { m with
    hh := { m.hh with
      next := Function.update (Function.update m.hh.next add none) m.tbl.tail (some add)
      prev := Function.update m.hh.prev add (some m.tbl.tail) }
    tbl := { m.tbl with tail := add } }

/-- The first assignments of `HASH_ADD_TO_BKT`, which the loop of `HASH_EXPAND_BUCKETS` makes too:
an element comes to stand first in the bucket. -/
def UTHashHandles.putFirst (hh : UTHashHandles P K) (hhHead : Option P) (add : P) :
    UTHashHandles P K :=
  { hh with
    hhNext := Function.update hh.hhNext add hhHead
    hhPrev := assign (Function.update hh.hhPrev add none) hhHead (some add) }

/-- The new buckets, while they are filled. -/
structure Expansion (P K : Type) where
  hh : UTHashHandles P K
  newBuckets : ℕ → UTHashBucket P
  nonidealItems : ℕ

/-- One element goes to its new bucket. -/
def Expansion.move (tbl : UTHashTable P) (e : Expansion P K) (thh : P) : Expansion P K :=
  let bkt := hashToBkt (e.hh.hashv thh) (tbl.numBuckets * 2)
  let newbkt := e.newBuckets bkt
  let count := newbkt.count + 1
  let nonideal := decide (tbl.idealChainMaxlen < count)
  { hh := e.hh.putFirst newbkt.hhHead thh
    newBuckets := Function.update e.newBuckets bkt
      ⟨some thh, count, if nonideal then count / tbl.idealChainMaxlen else newbkt.expandMult⟩
    nonidealItems := if nonideal then e.nonidealItems + 1 else e.nonidealItems }

/-- The inner loop of `HASH_EXPAND_BUCKETS`, over the elements of an old bucket; nothing if it has
not ended after so many rounds. -/
def moveChain (tbl : UTHashTable P) : ℕ → Option P → Expansion P K → Option (Expansion P K)
  | _, none, e => some e
  | 0, some _, _ => none
  | fuel + 1, some thh, e =>
    let nxt := e.hh.hhNext thh
    moveChain tbl fuel nxt (e.move tbl thh)

/-- The outer loop, over the old buckets. -/
def moveBuckets (tbl : UTHashTable P) : List ℕ → Expansion P K → Option (Expansion P K)
  | [], e => some e
  | i :: is, e => (moveChain tbl tbl.numItems (tbl.buckets i).hhHead e).bind (moveBuckets tbl is)

/-- The ideal length of a chain when the buckets have been doubled, rounded up. -/
def UTHashTable.ideal (tbl : UTHashTable P) : ℕ :=
  (tbl.numItems >>> (tbl.log2NumBuckets + 1)) +
    if tbl.numItems &&& (tbl.numBuckets * 2 - 1) ≠ 0 then 1 else 0

/-- `HASH_EXPAND_BUCKETS`; nothing if there is no memory, and the process exits. There is taken to
be none for so many buckets that their number would not be an `unsigned`. -/
def hashExpandBuckets (oom : Bool) (m : UTHash P K) : Option (UTHash P K) :=
  if oom = true ∨ 2 ^ 32 ≤ m.tbl.numBuckets * 2 then none
  else
    let tbl := { m.tbl with idealChainMaxlen := m.tbl.ideal }
    (moveBuckets tbl (List.range tbl.numBuckets) ⟨m.hh, fun _ => ⟨none, 0, 0⟩, 0⟩).map fun e =>
      let ineff := if tbl.numItems >>> 1 < e.nonidealItems then tbl.ineffExpands + 1 else 0
      { m with
        hh := e.hh
        tbl := { tbl with
          nonidealItems := e.nonidealItems
          numBuckets := tbl.numBuckets * 2
          log2NumBuckets := tbl.log2NumBuckets + 1
          buckets := e.newBuckets
          ineffExpands := ineff
          noexpand := if 1 < ineff then true else tbl.noexpand } }

/-- `HASH_ADD_TO_BKT`. -/
def hashAddToBkt (oom : Bool) (m : UTHash P K) (bkt : ℕ) (add : P) : Option (UTHash P K) :=
  let head := m.tbl.buckets bkt
  let count := head.count + 1
  let m := { m with
    hh := m.hh.putFirst head.hhHead add
    tbl := { m.tbl with
      buckets := Function.update m.tbl.buckets bkt ⟨some add, count, head.expandMult⟩ } }
  if (head.expandMult + 1) * hashBktCapacityThresh ≤ count ∧ m.tbl.noexpand = false then
    hashExpandBuckets oom m
  else some m

/-- `HASH_ADD_TO_TABLE`. -/
def hashAddToTable (oom : Bool) (m : UTHash P K) (hashval : ℕ) (add : P) : Option (UTHash P K) :=
  let m := { m with tbl := { m.tbl with numItems := m.tbl.numItems + 1 } }
  hashAddToBkt oom m (hashToBkt hashval m.tbl.numBuckets) add

/-- `HASH_ADD_KEYPTR_BYHASHVALUE`. -/
def hashAddKeyptrByhashvalue (oom : Bool) (m : UTHash P K) (key : K) (hashval : ℕ) (add : P) :
    Option (UTHash P K) :=
  let hh := { m.hh with
    hashv := Function.update m.hh.hashv add hashval
    key := Function.update m.hh.key add key }
  match m.head with
  | none =>
    if oom then none
    else
      let hh := { hh with
        next := Function.update hh.next add none
        prev := Function.update hh.prev add none }
      hashAddToTable oom ⟨some add, hashMakeTable add, hh⟩ hashval add
  | some _ => hashAddToTable oom (hashAppendList { m with hh := hh } add) hashval add

/-- `HASH_ADD_PTR`. -/
def hashAdd (hash : K → ℕ) (oom : Bool) (m : UTHash P K) (add : P) (key : K) :
    Option (UTHash P K) :=
  hashAddKeyptrByhashvalue oom m key (hash key) add

/-- `HASH_DEL_IN_BKT`. -/
def hashDelInBkt (m : UTHash P K) (bkt : ℕ) (delhh : P) : UTHash P K :=
  let head := m.tbl.buckets bkt
  { m with
    tbl := { m.tbl with
      buckets := Function.update m.tbl.buckets bkt
        { head with
          count := head.count - 1
          hhHead := if head.hhHead = some delhh then m.hh.hhNext delhh else head.hhHead } }
    hh := { m.hh with
      hhNext := assign m.hh.hhNext (m.hh.hhPrev delhh) (m.hh.hhNext delhh)
      hhPrev := assign m.hh.hhPrev (m.hh.hhNext delhh) (m.hh.hhPrev delhh) } }

/-- `HASH_DEL`. -/
def hashDel (m : UTHash P K) (delptr : P) : UTHash P K :=
  if m.hh.prev delptr = none ∧ m.hh.next delptr = none then { m with head := none }
  else
    let tail :=
      if delptr = m.tbl.tail then (m.hh.prev delptr).getD m.tbl.tail else m.tbl.tail
    let m := { m with
      head := if m.hh.prev delptr = none then m.hh.next delptr else m.head
      hh := { m.hh with
        next := assign m.hh.next (m.hh.prev delptr) (m.hh.next delptr)
        prev := assign m.hh.prev (m.hh.next delptr) (m.hh.prev delptr) }
      tbl := { m.tbl with tail := tail } }
    let m := hashDelInBkt m (hashToBkt (m.hh.hashv delptr) m.tbl.numBuckets) delptr
    { m with tbl := { m.tbl with numItems := m.tbl.numItems - 1 } }

/-- `HASH_FIND_IN_BKT`; nothing if the loop has not ended after so many rounds. -/
def hashFindInBkt [DecidableEq K] (hh : UTHashHandles P K) (key : K) (hashval : ℕ) :
    ℕ → Option P → Option (Option P)
  | _, none => some none
  | 0, some _ => none
  | fuel + 1, some out =>
    if hh.hashv out = hashval ∧ hh.key out = key then some (some out)
    else hashFindInBkt hh key hashval fuel (hh.hhNext out)

/-- `HASH_FIND_PTR`. -/
def hashFind [DecidableEq K] (hash : K → ℕ) (m : UTHash P K) (key : K) : Option (Option P) :=
  match m.head with
  | none => some none
  | some _ =>
    hashFindInBkt m.hh key (hash key) m.tbl.numItems
      (m.tbl.buckets (hashToBkt (hash key) m.tbl.numBuckets)).hhHead

/-- A loop of `HASH_FSCK` along one of the lists: how many elements there are, if each points back
to the one before. -/
def countLinked (next prev : P → Option P) : ℕ → Option P → Option P → Option ℕ
  | _, _, none => some 0
  | 0, _, some _ => none
  | fuel + 1, before, some thh =>
    if prev thh = before then (countLinked next prev fuel (some thh) (next thh)).map (· + 1)
    else none

/-- `HASH_FSCK`: whether it finds nothing wrong. -/
def hashFsck (m : UTHash P K) : Bool :=
  match m.head with
  | none => true
  | some _ =>
    let tbl := m.tbl
    let chain i := countLinked m.hh.hhNext m.hh.hhPrev tbl.numItems none (tbl.buckets i).hhHead
    ((List.range tbl.numBuckets).all fun i => decide (chain i = some (tbl.buckets i).count)) &&
      decide (((List.range tbl.numBuckets).map fun i => (tbl.buckets i).count).sum =
        tbl.numItems) &&
      decide (countLinked m.hh.next m.hh.prev tbl.numItems none m.head = some tbl.numItems)

end Macros

/-! ### The buckets -/

section Buckets

variable {P K : Type} {buckets : ℕ → UTHashBucket P} {hh hh' : UTHashHandles P K}
  {idx : P → ℕ} {S : Set P} {chain : ℕ → List P} {x y : P} {i : ℕ}

/-- **The elements of `S` lie in their buckets**, and `chain` tells in which order. -/
structure Filled (buckets : ℕ → UTHashBucket P) (hh : UTHashHandles P K) (idx : P → ℕ) (S : Set P)
    (chain : ℕ → List P) : Prop where
  links : ∀ i, Links hh.hhNext hh.hhPrev none (buckets i).hhHead (chain i) none
  nodup : ∀ i, (chain i).Nodup
  mem : ∀ i x, x ∈ chain i ↔ x ∈ S ∧ idx x = i
  count : ∀ i, (buckets i).count = (chain i).length

theorem filled_empty : Filled (fun _ => (⟨none, 0, 0⟩ : UTHashBucket P)) hh idx ∅ fun _ => [] :=
  ⟨fun _ => rfl, fun _ => List.nodup_nil,
    fun _ _ => iff_of_false List.not_mem_nil fun h => h.1.elim, fun _ => rfl⟩

/-- A table that has just been made. -/
theorem filled_hashMakeTable (add : P) :
    Filled (hashMakeTable add).buckets hh idx {x | x ∈ ([] : List P)} fun _ => [] := by
  have hempty : {x | x ∈ ([] : List P)} = ∅ := by
    simp only [List.not_mem_nil, Set.ofPred_false]
  rw [hempty]
  exact filled_empty

/-- Only the links between the elements of a bucket matter. -/
theorem Filled.congr (h : Filled buckets hh idx S chain) (hnext : hh'.hhNext = hh.hhNext)
    (hprev : hh'.hhPrev = hh.hhPrev) : Filled buckets hh' idx S chain where
  links i := by
    rw [hnext, hprev]
    exact h.links i
  nodup := h.nodup
  mem := h.mem
  count := h.count

/-- Where an element belongs matters only for those that are there. -/
theorem Filled.congr_idx {idx' : P → ℕ} (h : Filled buckets hh idx S chain)
    (hidx : ∀ x ∈ S, idx' x = idx x) : Filled buckets hh idx' S chain where
  links := h.links
  nodup := h.nodup
  mem i x := by
    rw [h.mem]
    exact and_congr_right fun hx => by rw [hidx x hx]
  count := h.count

/-- An element that lies in no bucket. -/
theorem Filled.notMem (h : Filled buckets hh idx S chain) (hx : x ∉ S) (i : ℕ) : x ∉ chain i :=
  fun hmem => hx ((h.mem i x).mp hmem).1

/-- No element lies in two buckets. -/
theorem Filled.ne_of_mem (h : Filled buckets hh idx S chain) {j : ℕ} (hij : i ≠ j)
    (hx : x ∈ chain i) : x ∉ chain j :=
  fun hx' => hij (((h.mem i x).mp hx).2.symm.trans ((h.mem j x).mp hx').2)

variable [DecidableEq P]

/-- **An element comes to stand first in its bucket.** -/
theorem Filled.putFirst (h : Filled buckets hh idx S chain) (hx : x ∉ S) (expandMult : ℕ) :
    Filled
      (Function.update buckets (idx x) ⟨some x, (buckets (idx x)).count + 1, expandMult⟩)
      (hh.putFirst (buckets (idx x)).hhHead x) idx (insert x S)
      (Function.update chain (idx x) (x :: chain (idx x))) where
  links i := by
    by_cases hi : i = idx x
    · subst hi
      simp only [Function.update_self]
      exact (h.links _).cons (h.nodup _) (h.notMem hx _)
    · simp only [Function.update_of_ne hi]
      refine (h.links i).congr (update_of_notMem (h.notMem hx i)) fun y hy => ?_
      -- only the old head of that chain gets a new predecessor, and it is in no other chain
      have hhead : (buckets (idx x)).hhHead ≠ some y := by
        rw [(h.links (idx x)).head_eq]
        exact fun heq => h.ne_of_mem hi hy (List.mem_of_head? heq)
      exact (assign_of_ne hhead).trans (update_of_notMem (h.notMem hx i) y hy)
  nodup i := by
    by_cases hi : i = idx x
    · subst hi
      simp only [Function.update_self]
      exact List.nodup_cons.mpr ⟨h.notMem hx _, h.nodup _⟩
    · simp only [Function.update_of_ne hi]
      exact h.nodup i
  mem i y := by
    by_cases hi : i = idx x
    · subst hi
      simp only [Function.update_self, List.mem_cons, Set.mem_insert_iff, h.mem]
      constructor
      · rintro (rfl | ⟨hy, hidx⟩)
        · exact ⟨Or.inl rfl, rfl⟩
        · exact ⟨Or.inr hy, hidx⟩
      · rintro ⟨rfl | hy, hidx⟩
        · exact Or.inl rfl
        · exact Or.inr ⟨hy, hidx⟩
    · simp only [Function.update_of_ne hi, Set.mem_insert_iff, h.mem]
      constructor
      · exact fun hy => ⟨Or.inr hy.1, hy.2⟩
      · rintro ⟨rfl | hy, hidx⟩
        · exact absurd hidx.symm hi
        · exact ⟨hy, hidx⟩
  count i := by
    by_cases hi : i = idx x
    · subst hi
      simp only [Function.update_self, List.length_cons, h.count]
    · simp only [Function.update_of_ne hi]
      exact h.count i

/-- **An element is taken out of its bucket.** -/
theorem Filled.remove (h : Filled buckets hh idx S chain) (hx : x ∈ S) :
    Filled
      (Function.update buckets (idx x)
        { buckets (idx x) with
          count := (buckets (idx x)).count - 1
          hhHead := if (buckets (idx x)).hhHead = some x then hh.hhNext x
            else (buckets (idx x)).hhHead })
      { hh with
        hhNext := assign hh.hhNext (hh.hhPrev x) (hh.hhNext x)
        hhPrev := assign hh.hhPrev (hh.hhNext x) (hh.hhPrev x) }
      idx (S \ {x}) (Function.update chain (idx x) ((chain (idx x)).erase x)) := by
  obtain ⟨xs, ys, hsplit⟩ := List.append_of_mem ((h.mem (idx x) x).mpr ⟨hx, rfl⟩)
  have hnodup := h.nodup (idx x)
  have hlinks := h.links (idx x)
  rw [hsplit] at hnodup hlinks
  obtain ⟨hprev, hremoved⟩ := hlinks.remove hnodup
  have hxs : x ∉ xs := fun hmem => by
    rw [List.nodup_append] at hnodup
    exact hnodup.2.2 x hmem x (List.mem_cons_self ..) rfl
  have herase : (chain (idx x)).erase x = xs ++ ys := by
    rw [hsplit, List.erase_append_right _ hxs, List.erase_cons_head]
  have hhead : (buckets (idx x)).hhHead = some x ↔ xs = [] := by
    rw [hlinks.head_eq]
    cases xs with
    | nil => simp
    | cons z zs =>
      simp only [List.cons_append, List.head?_cons, Option.some.injEq, reduceCtorEq, iff_false]
      rintro rfl
      exact hxs (List.mem_cons_self ..)
  obtain ⟨mid, -, rfl, -, hys⟩ := links_append.mp hlinks
  -- the neighbours lie in the same bucket
  have hbefore : ∀ y, hh.hhPrev x = some y → y ∈ chain (idx x) := by
    intro y hy
    rw [hprev] at hy
    rw [hsplit]
    exact List.mem_append_left _ (List.mem_of_getLast? hy)
  have hafter : ∀ y, hh.hhNext x = some y → y ∈ chain (idx x) := by
    intro y hy
    rw [hys.head_eq] at hy
    rw [hsplit]
    exact List.mem_append_right _ (List.mem_cons_of_mem _ (List.mem_of_head? hy))
  refine ⟨fun i => ?_, fun i => ?_, fun i y => ?_, fun i => ?_⟩
  · by_cases hi : i = idx x
    · subst hi
      simp only [Function.update_self, herase, hhead]
      exact hremoved
    · simp only [Function.update_of_ne hi]
      refine (h.links i).congr (fun y hy => assign_of_ne fun heq => ?_)
        fun y hy => assign_of_ne fun heq => ?_
      · exact h.ne_of_mem hi hy (hbefore y heq)
      · exact h.ne_of_mem hi hy (hafter y heq)
  · by_cases hi : i = idx x
    · subst hi
      simp only [Function.update_self]
      exact (h.nodup _).erase x
    · simp only [Function.update_of_ne hi]
      exact h.nodup i
  · by_cases hi : i = idx x
    · subst hi
      simp only [Function.update_self, (h.nodup _).mem_erase_iff, h.mem, Set.mem_sdiff,
        Set.mem_singleton_iff]
      constructor
      · exact fun ⟨hne, hy, hidx⟩ => ⟨⟨hy, hne⟩, hidx⟩
      · exact fun ⟨⟨hy, hne⟩, hidx⟩ => ⟨hne, hy, hidx⟩
    · simp only [Function.update_of_ne hi, h.mem, Set.mem_sdiff, Set.mem_singleton_iff]
      constructor
      · refine fun ⟨hy, hidx⟩ => ⟨⟨hy, ?_⟩, hidx⟩
        rintro rfl
        exact hi hidx.symm
      · exact fun ⟨⟨hy, _⟩, hidx⟩ => ⟨hy, hidx⟩
  · by_cases hi : i = idx x
    · subst hi
      simp only [Function.update_self, h.count]
      rw [List.length_erase_of_mem ((h.mem _ x).mpr ⟨hx, rfl⟩)]
    · simp only [Function.update_of_ne hi]
      exact h.count i

end Buckets

/-! ### Doubling the buckets -/

/-- The ideal length of a chain is what the comment beside it says. -/
theorem UTHashTable.ideal_eq {P : Type} {tbl : UTHashTable P}
    (h : tbl.numBuckets = 2 ^ tbl.log2NumBuckets) :
    tbl.ideal = tbl.numItems ⌈/⌉ (tbl.numBuckets * 2) := by
  have hbuckets : tbl.numBuckets * 2 = 2 ^ (tbl.log2NumBuckets + 1) := by rw [h, pow_succ]
  have hpos := Nat.two_pow_pos (tbl.log2NumBuckets + 1)
  rw [UTHashTable.ideal, hbuckets, Nat.shiftRight_eq_div_pow, Nat.and_two_pow_sub_one_eq_mod]
  refine eq_of_forall_ge_iff fun c => ?_
  rw [ceilDiv_le_iff_le_mul hpos]
  by_cases hmod : tbl.numItems % 2 ^ (tbl.log2NumBuckets + 1) = 0
  · obtain ⟨q, hq⟩ := Nat.dvd_of_mod_eq_zero hmod
    rw [if_neg (not_not_intro hmod), Nat.add_zero, hq, Nat.mul_div_cancel_left q hpos]
    exact (Nat.mul_le_mul_left_iff hpos).symm
  · have hne : tbl.numItems ≠ 2 ^ (tbl.log2NumBuckets + 1) * c := by
      intro heq
      rw [heq, Nat.mul_mod_right] at hmod
      exact hmod rfl
    rw [if_pos hmod, Nat.succ_le_iff, Nat.div_lt_iff_lt_mul hpos, mul_comm c]
    exact ⟨Nat.le_of_lt, fun hle => Nat.lt_of_le_of_ne hle hne⟩

section Doubling

variable {P K : Type} [DecidableEq P] {tbl : UTHashTable P} {hh : UTHashHandles P K} {S T : Set P}
  {e : Expansion P K} {chain : ℕ → List P} {x : P}

/-- **The elements of `S` have gone to their new buckets**, and nothing has happened to the
others. -/
structure Rehashed (tbl : UTHashTable P) (hh : UTHashHandles P K) (S : Set P) (e : Expansion P K) :
    Prop where
  filled : ∃ chain,
    Filled e.newBuckets e.hh (fun x => hashToBkt (e.hh.hashv x) (tbl.numBuckets * 2)) S chain
  hhNext : ∀ x, x ∉ S → e.hh.hhNext x = hh.hhNext x
  next : e.hh.next = hh.next
  prev : e.hh.prev = hh.prev
  key : e.hh.key = hh.key
  hashv : e.hh.hashv = hh.hashv

/-- One more. -/
theorem Rehashed.move (h : Rehashed tbl hh S e) (hx : x ∉ S) :
    Rehashed tbl hh (insert x S) (e.move tbl x) := by
  obtain ⟨chain, hfilled⟩ := h.filled
  refine ⟨⟨_, hfilled.putFirst hx _⟩, fun y hy => ?_, h.next, h.prev, h.key, h.hashv⟩
  rw [← h.hhNext y fun hmem => hy (Set.mem_insert_of_mem _ hmem)]
  refine Function.update_of_ne ?_ ..
  rintro rfl
  exact hy (Set.mem_insert ..)

/-- **All elements of a bucket.** The loop ends, and the induction is on the elements it has before
it. -/
theorem moveChain_spec {rest : List P} {before thh : Option P} {fuel : ℕ}
    (hlinks : Links hh.hhNext hh.hhPrev before thh rest none) (hnodup : rest.Nodup)
    (hfresh : ∀ y ∈ rest, y ∉ S) (hfuel : rest.length ≤ fuel) (h : Rehashed tbl hh S e) :
    ∃ e', moveChain tbl fuel thh e = some e' ∧ Rehashed tbl hh (S ∪ {y | y ∈ rest}) e' := by
  induction rest generalizing before thh fuel S e with
  | nil =>
    obtain rfl : thh = none := hlinks
    refine ⟨e, by cases fuel <;> rfl, ?_⟩
    simpa only [List.not_mem_nil, Set.ofPred_false, Set.union_empty] using h
  | cons x rest ih =>
    obtain ⟨rfl, -, hrest⟩ := hlinks
    obtain ⟨hx, hnodup⟩ := List.nodup_cons.mp hnodup
    obtain ⟨fuel, rfl⟩ : ∃ n, fuel = n + 1 :=
      Nat.exists_eq_succ_of_ne_zero (Nat.ne_of_gt (Nat.lt_of_lt_of_le (Nat.succ_pos _) hfuel))
    have hxS := hfresh x (List.mem_cons_self ..)
    have hfresh' : ∀ y ∈ rest, y ∉ insert x S := by
      rintro y hy (rfl | hyS)
      · exact hx hy
      · exact hfresh y (List.mem_cons_of_mem _ hy) hyS
    obtain ⟨e', he', hmoved⟩ := ih hrest hnodup hfresh' (Nat.le_of_succ_le_succ hfuel) (h.move hxS)
    refine ⟨e', ?_, ?_⟩
    · rw [moveChain, h.hhNext x hxS]
      exact he'
    · have hall : S ∪ {y | y ∈ x :: rest} = insert x S ∪ {y | y ∈ rest} := by
        ext y
        simp only [Set.mem_union, Set.mem_ofPred_eq, List.mem_cons, Set.mem_insert_iff]
        tauto
      rw [hall]
      exact hmoved

/-- **All elements of many buckets.** -/
theorem moveBuckets_spec {idx : P → ℕ} {is : List ℕ} (h : Rehashed tbl hh S e)
    (hfilled : Filled tbl.buckets hh idx T chain)
    (hlength : ∀ i, (chain i).length ≤ tbl.numItems) (his : is.Nodup)
    (hfresh : ∀ i ∈ is, ∀ y ∈ chain i, y ∉ S) :
    ∃ e', moveBuckets tbl is e = some e' ∧
      Rehashed tbl hh (S ∪ {y | ∃ i ∈ is, y ∈ chain i}) e' := by
  induction is generalizing S e with
  | nil =>
    refine ⟨e, rfl, ?_⟩
    simpa only [List.not_mem_nil, false_and, exists_false, Set.ofPred_false, Set.union_empty]
      using h
  | cons i is ih =>
    obtain ⟨hi, his⟩ := List.nodup_cons.mp his
    obtain ⟨e₁, he₁, hmoved₁⟩ := moveChain_spec (hfilled.links i) (hfilled.nodup i)
      (hfresh i (List.mem_cons_self ..)) (hlength i) h
    -- the chains have no element in common, so what is left has not been moved yet
    have hfresh' : ∀ j ∈ is, ∀ y ∈ chain j, y ∉ S ∪ {y | y ∈ chain i} := by
      rintro j hj y hy (hyS | hyi)
      · exact hfresh j (List.mem_cons_of_mem _ hj) y hy hyS
      · refine hfilled.ne_of_mem ?_ hy hyi
        rintro rfl
        exact hi hj
    obtain ⟨e', he', hmoved⟩ := ih hmoved₁ his hfresh'
    refine ⟨e', ?_, ?_⟩
    · rw [moveBuckets, he₁]
      exact he'
    · have hall : S ∪ {y | ∃ j ∈ i :: is, y ∈ chain j} =
          S ∪ {y | y ∈ chain i} ∪ {y | ∃ j ∈ is, y ∈ chain j} := by
        ext y
        simp only [Set.mem_union, Set.mem_ofPred_eq, List.mem_cons, exists_eq_or_imp]
        tauto
      rw [hall]
      exact hmoved

end Doubling

/-! ### The table as a whole -/

section Table

variable {P K : Type} {hash : K → ℕ} {m m' : UTHash P K} {xs : List P} {x : P} {key : K}

theorem hashToBkt_lt (hashv n : ℕ) : hashToBkt hashv (2 ^ n) < 2 ^ n := by
  rw [hashToBkt, Nat.and_two_pow_sub_one_eq_mod]
  exact Nat.mod_lt _ (Nat.two_pow_pos n)

/-- **The table holds the elements `xs`**, in the order in which they have been added. -/
structure UTHash.Holds (hash : K → ℕ) (m : UTHash P K) (xs : List P) : Prop where
  links : Links m.hh.next m.hh.prev none m.head xs none
  nodup : xs.Nodup
  tail : xs.getLast? = some m.tbl.tail
  numItems : m.tbl.numItems = xs.length
  numBuckets : m.tbl.numBuckets = 2 ^ m.tbl.log2NumBuckets
  hashed : ∀ x ∈ xs, m.hh.hashv x = hash (m.hh.key x)
  filled : ∃ chain, Filled m.tbl.buckets m.hh
    (fun x => hashToBkt (m.hh.hashv x) m.tbl.numBuckets) {x | x ∈ xs} chain

/-- A bucket holds no more elements than there are. -/
theorem Filled.length_le {buckets : ℕ → UTHashBucket P} {hh : UTHashHandles P K} {idx : P → ℕ}
    {chain : ℕ → List P} (h : Filled buckets hh idx {x | x ∈ xs} chain) (i : ℕ) :
    (chain i).length ≤ xs.length :=
  (List.subperm_of_subset (h.nodup i) fun x hx => ((h.mem i x).mp hx).1).length_le

/-- The search in a bucket ends, and finds an element with the key if there is one. -/
theorem hashFindInBkt_spec [DecidableEq K] {hh : UTHashHandles P K} {rest : List P}
    {before out : Option P} {fuel : ℕ} (key : K)
    (hlinks : Links hh.hhNext hh.hhPrev before out rest none) (hfuel : rest.length ≤ fuel)
    (hhashed : ∀ x ∈ rest, hh.hashv x = hash (hh.key x)) :
    hashFindInBkt hh key (hash key) fuel out = some (rest.find? fun x => hh.key x = key) := by
  induction rest generalizing before out fuel with
  | nil =>
    obtain rfl : out = none := hlinks
    cases fuel <;> rfl
  | cons x rest ih =>
    obtain ⟨rfl, -, hrest⟩ := hlinks
    obtain ⟨fuel, rfl⟩ : ∃ n, fuel = n + 1 :=
      Nat.exists_eq_succ_of_ne_zero (Nat.ne_of_gt (Nat.lt_of_lt_of_le (Nat.succ_pos _) hfuel))
    rw [hashFindInBkt, List.find?_cons]
    by_cases hkey : hh.key x = key
    · have hhash : hh.hashv x = hash key := by
        rw [hhashed x (List.mem_cons_self ..), hkey]
      rw [if_pos ⟨hhash, hkey⟩, decide_eq_true hkey]
    · rw [if_neg fun h => hkey h.2, decide_eq_false hkey]
      exact ih hrest (Nat.le_of_succ_le_succ hfuel) fun y hy =>
        hhashed y (List.mem_cons_of_mem _ hy)

/-- The buckets hold as many elements as there are, one with another. -/
theorem Filled.sum_count {buckets : ℕ → UTHashBucket P} {hh : UTHashHandles P K} {idx : P → ℕ}
    {chain : ℕ → List P} {n : ℕ} (h : Filled buckets hh idx {x | x ∈ xs} chain)
    (hnodup : xs.Nodup) (hidx : ∀ x, idx x < n) :
    ((List.range n).map fun i => (buckets i).count).sum = xs.length := by
  have hperm : ((List.range n).flatMap chain).Perm xs := by
    refine (List.perm_ext_iff_of_nodup (List.nodup_flatMap.mpr ⟨fun i _ => h.nodup i, ?_⟩)
      hnodup).mpr fun x => ?_
    · refine List.nodup_range.imp fun hij => ?_
      exact fun x hx => h.ne_of_mem hij hx
    · simp only [List.mem_flatMap, List.mem_range, h.mem, Set.mem_ofPred_eq]
      exact ⟨fun ⟨_, _, hx, _⟩ => hx, fun hx => ⟨_, hidx x, hx, rfl⟩⟩
  rw [← hperm.length_eq, List.length_flatMap]
  simp only [h.count]

/-- **What the table represents.** Without a first element there is nothing in it. -/
def UTHash.Represents (hash : K → ℕ) (m : UTHash P K) (xs : List P) : Prop :=
  (xs = [] ∧ m.head = none) ∨ m.Holds hash xs

/-- **An element is found** if there is one with the key. -/
theorem hashFind_spec [DecidableEq K] (h : m.Represents hash xs) (key : K) :
    ∃ r, hashFind hash m key = some r ∧
      (∀ x, r = some x → x ∈ xs ∧ m.hh.key x = key) ∧ (r = none → ∀ x ∈ xs, m.hh.key x ≠ key) := by
  rcases h with ⟨rfl, hhead⟩ | h
  · refine ⟨none, ?_, fun x hx => (nomatch hx), fun _ x hx => absurd hx List.not_mem_nil⟩
    rw [hashFind, hhead]
  · obtain ⟨chain, hfilled⟩ := h.filled
    -- the bucket in which an element with the key lies, if there is one
    have hfind := hashFindInBkt_spec key
      (hfilled.links (hashToBkt (hash key) m.tbl.numBuckets)) (h.numItems ▸ hfilled.length_le _)
      fun x hx => h.hashed x ((hfilled.mem _ x).mp hx).1
    cases hhead : m.head with
    | none =>
      rw [h.links.head_eq, List.head?_eq_none_iff] at hhead
      have htail := h.tail
      rw [hhead] at htail
      cases htail
    | some first =>
      refine ⟨_, by rw [hashFind, hhead]; exact hfind, fun x hx => ?_, fun hnone x hx hkey => ?_⟩
      · have hmem := List.mem_of_find?_eq_some hx
        have hkey := List.find?_some hx
        exact ⟨((hfilled.mem _ x).mp hmem).1, of_decide_eq_true hkey⟩
      · refine List.find?_eq_none.mp hnone x ((hfilled.mem _ x).mpr ⟨hx, ?_⟩) (decide_eq_true hkey)
        rw [h.hashed x hx, hkey]

/-- A table of so many buckets that their number cannot be doubled once more. -/
def UTHash.Full (m : UTHash P K) : Prop := m.head ≠ none ∧ 2 ^ 32 ≤ m.tbl.numBuckets * 2

variable [DecidableEq P]

/-- **Doubling the buckets changes nothing** but where the elements lie. -/
theorem UTHash.Holds.expand (h : m.Holds hash xs) (hfits : m.tbl.numBuckets * 2 < 2 ^ 32) :
    ∃ m', hashExpandBuckets false m = some m' ∧ m'.Holds hash xs ∧ m'.hh.key = m.hh.key := by
  obtain ⟨chain, hfilled⟩ := h.filled
  have hlength : ∀ i, (chain i).length ≤ m.tbl.numItems := fun i => by
    rw [h.numItems]
    exact hfilled.length_le i
  have hstart : Rehashed { m.tbl with idealChainMaxlen := m.tbl.ideal } m.hh ∅
      ⟨m.hh, fun _ => ⟨none, 0, 0⟩, 0⟩ :=
    ⟨⟨_, filled_empty⟩, fun _ _ => rfl, rfl, rfl, rfl, rfl⟩
  obtain ⟨e, he, hmoved⟩ := moveBuckets_spec hstart hfilled hlength
    (List.nodup_range (n := m.tbl.numBuckets)) fun _ _ _ _ => Set.notMem_empty _
  -- every element lies in one of the old buckets
  have hall : ∅ ∪ {y | ∃ i ∈ List.range m.tbl.numBuckets, y ∈ chain i} = {x | x ∈ xs} := by
    rw [Set.empty_union]
    ext y
    simp only [Set.mem_ofPred_eq, List.mem_range, hfilled.mem]
    constructor
    · exact fun ⟨_, _, hy, _⟩ => hy
    · refine fun hy => ⟨_, ?_, hy, rfl⟩
      rw [h.numBuckets]
      exact hashToBkt_lt ..
  rw [hall] at hmoved
  have hroom : ¬(false = true ∨ 2 ^ 32 ≤ m.tbl.numBuckets * 2) :=
    not_or.mpr ⟨Bool.false_ne_true, Nat.not_le.mpr hfits⟩
  have hexpand : hashExpandBuckets false m = _ :=
    (if_neg hroom).trans (congrArg (Option.map _) he)
  refine ⟨_, hexpand, ⟨?_, h.nodup, h.tail, h.numItems, ?_, ?_, hmoved.filled⟩, hmoved.key⟩
  · have hlinks := h.links
    rwa [← hmoved.next, ← hmoved.prev] at hlinks
  · exact (congrArg (· * 2) h.numBuckets).trans (pow_succ ..).symm
  · intro x hx
    have := h.hashed x hx
    rwa [← hmoved.hashv, ← hmoved.key] at this

/-- An element that has been put at the end of the list comes to the table. -/
theorem hashAddToTable_spec (m : UTHash P K) (xs : List P) {add : P} {hashval : ℕ} (oom : Bool)
    (hval : m.hh.hashv add = hashval)
    (hlinks : Links m.hh.next m.hh.prev none m.head (xs ++ [add]) none)
    (hnodup : (xs ++ [add]).Nodup) (htail : m.tbl.tail = add) (hitems : m.tbl.numItems = xs.length)
    (hbuckets : m.tbl.numBuckets = 2 ^ m.tbl.log2NumBuckets)
    (hhashed : ∀ x ∈ xs ++ [add], m.hh.hashv x = hash (m.hh.key x))
    (hfilled : ∃ chain, Filled m.tbl.buckets m.hh
      (fun x => hashToBkt (m.hh.hashv x) m.tbl.numBuckets) {x | x ∈ xs} chain) :
    (hashAddToTable oom m hashval add = none ∧ (oom = true ∨ 2 ^ 32 ≤ m.tbl.numBuckets * 2)) ∨
      ∃ m', hashAddToTable oom m hashval add = some m' ∧ m'.Holds hash (xs ++ [add]) ∧
        m'.hh.key = m.hh.key := by
  subst hval
  obtain ⟨chain, hfilled⟩ := hfilled
  have hadd : add ∉ xs := fun h =>
    (List.nodup_append.mp hnodup).2.2 add h add (List.mem_singleton_self _) rfl
  have hall : insert add {x | x ∈ xs} = {x | x ∈ xs ++ [add]} := by
    ext y
    simp only [Set.mem_insert_iff, Set.mem_ofPred_eq, List.mem_append, List.mem_singleton]
    exact or_comm
  -- the element is put at the head of its chain, and then its chain may be too long
  have hput := hfilled.putFirst hadd
    (m.tbl.buckets (hashToBkt (m.hh.hashv add) m.tbl.numBuckets)).expandMult
  rw [hall] at hput
  generalize hm₁ : UTHash.mk m.head { m.tbl with
      numItems := m.tbl.numItems + 1
      buckets := Function.update m.tbl.buckets (hashToBkt (m.hh.hashv add) m.tbl.numBuckets)
        ⟨some add, (m.tbl.buckets (hashToBkt (m.hh.hashv add) m.tbl.numBuckets)).count + 1,
        (m.tbl.buckets (hashToBkt (m.hh.hashv add) m.tbl.numBuckets)).expandMult⟩ }
    (m.hh.putFirst (m.tbl.buckets (hashToBkt (m.hh.hashv add) m.tbl.numBuckets)).hhHead add) = m₁
  have hholds : m₁.Holds hash (xs ++ [add]) := by
    subst hm₁
    refine ⟨hlinks, hnodup, ?_, ?_, hbuckets, hhashed, ⟨_, hput⟩⟩
    · rw [List.getLast?_concat]
      exact congrArg some htail.symm
    · rw [List.length_append, List.length_singleton, ← hitems]
  have hkey : m₁.hh.key = m.hh.key := by
    subst hm₁
    rfl
  have hcases : hashAddToTable oom m (m.hh.hashv add) add = hashExpandBuckets oom m₁ ∨
      hashAddToTable oom m (m.hh.hashv add) add = some m₁ := by
    subst hm₁
    rw [hashAddToTable, hashAddToBkt]
    split
    · exact Or.inl rfl
    · exact Or.inr rfl
  have hbuckets₁ : m₁.tbl.numBuckets = m.tbl.numBuckets := by
    subst hm₁
    rfl
  rcases hcases with h | h
  · by_cases hfull : oom = true ∨ 2 ^ 32 ≤ m.tbl.numBuckets * 2
    · refine Or.inl ⟨h.trans ?_, hfull⟩
      rw [hashExpandBuckets, hbuckets₁, if_pos hfull]
    · obtain ⟨hoom, hfits⟩ := not_or.mp hfull
      obtain rfl : oom = false := eq_false_of_ne_true hoom
      obtain ⟨m', hm', hholds', hkey'⟩ := hholds.expand (by omega)
      exact Or.inr ⟨m', h.trans hm', hholds', hkey'.trans hkey⟩
  · exact Or.inr ⟨m₁, h, hholds, hkey⟩

/-- **An element is added**, unless there is no memory. -/
theorem hashAdd_spec (oom : Bool) (h : m.Represents hash xs) {add : P} (hadd : add ∉ xs) :
    (hashAdd hash oom m add key = none ∧ (oom = true ∨ m.Full)) ∨
      ∃ m', hashAdd hash oom m add key = some m' ∧ m'.Holds hash (xs ++ [add]) ∧
        m'.hh.key = Function.update m.hh.key add key := by
  -- the first assignments, to the fields of the element
  have hself : Function.update m.hh.hashv add (hash key) add = hash key := Function.update_self ..
  have hhash_self : Function.update m.hh.hashv add (hash key) add =
      hash (Function.update m.hh.key add key add) := by
    rw [Function.update_self, Function.update_self]
  have hne : ∀ x ∈ xs, x ≠ add := by
    rintro x hx rfl
    exact hadd hx
  rcases h with ⟨rfl, hhead⟩ | h
  · cases oom with
    | true =>
      refine Or.inl ⟨?_, Or.inl rfl⟩
      rw [hashAdd, hashAddKeyptrByhashvalue, hhead]
      rfl
    | false =>
      have hspec := hashAddToTable_spec ⟨some add, hashMakeTable add, { m.hh with
          hashv := Function.update m.hh.hashv add (hash key)
          key := Function.update m.hh.key add key
          next := Function.update m.hh.next add none
          prev := Function.update m.hh.prev add none }⟩ [] false hself
        ⟨rfl, Function.update_self .., Function.update_self ..⟩ (List.nodup_singleton add) rfl rfl
        rfl (fun x hx => by rw [List.mem_singleton.mp hx]; exact hhash_self)
        ⟨_, filled_hashMakeTable add⟩
      have hfits : ¬(false = true ∨ 2 ^ 32 ≤ hashInitialNumBuckets * 2) := by decide
      rw [hashAdd, hashAddKeyptrByhashvalue, hhead]
      exact hspec.imp_left fun h => absurd h.2 hfits
  · obtain ⟨first, hhead⟩ : ∃ first, m.head = some first := by
      refine Option.ne_none_iff_exists'.mp fun hnone => ?_
      rw [h.links.head_eq, List.head?_eq_none_iff] at hnone
      have htail := h.tail
      rw [hnone] at htail
      cases htail
    obtain ⟨chain, hfilled⟩ := h.filled
    have hhashed : ∀ x ∈ xs ++ [add], Function.update m.hh.hashv add (hash key) x =
        hash (Function.update m.hh.key add key x) := by
      intro x hx
      rcases List.mem_append.mp hx with hx | hx
      · rw [Function.update_of_ne (hne x hx), Function.update_of_ne (hne x hx), h.hashed x hx]
      · rw [List.mem_singleton.mp hx]
        exact hhash_self
    have hbkt : ∀ x ∈ xs, hashToBkt (Function.update m.hh.hashv add (hash key) x) m.tbl.numBuckets =
        hashToBkt (m.hh.hashv x) m.tbl.numBuckets := by
      intro x hx
      rw [Function.update_of_ne (hne x hx)]
    have hspec := hashAddToTable_spec (hashAppendList { m with hh := { m.hh with
        hashv := Function.update m.hh.hashv add (hash key)
        key := Function.update m.hh.key add key } } add) xs oom hself
      (h.links.concat h.nodup hadd h.tail) (List.nodup_append.mpr ⟨h.nodup, List.nodup_singleton _,
        fun x hx y hy => by rw [List.mem_singleton.mp hy]; exact hne x hx⟩)
      rfl h.numItems h.numBuckets hhashed ⟨chain, (hfilled.congr_idx hbkt).congr rfl rfl⟩
    have hfull : m.head ≠ none := by
      rw [hhead]
      exact Option.some_ne_none first
    rw [hhead] at hspec
    rw [hashAdd, hashAddKeyptrByhashvalue, hhead]
    exact hspec.imp_left fun h => ⟨h.1, h.2.imp_right fun hbuckets => ⟨hfull, hbuckets⟩⟩

/-- The last element of a list from which one is taken out. -/
theorem getLast?_remove {l₁ l₂ : List P} {tail : P} (hnodup : (l₁ ++ x :: l₂).Nodup)
    (htail : (l₁ ++ x :: l₂).getLast? = some tail) (hne : ¬ (l₁ = [] ∧ l₂ = [])) :
    (l₁ ++ l₂).getLast? = some (if x = tail then l₁.getLast?.getD tail else tail) := by
  obtain ⟨-, hxl₂, -⟩ := List.nodup_append.mp hnodup
  obtain ⟨hx, -⟩ := List.nodup_cons.mp hxl₂
  cases l₂ with
  | nil =>
    rw [List.getLast?_concat] at htail
    obtain rfl := Option.some.inj htail
    rw [if_pos rfl, List.append_nil]
    cases hl₁ : l₁.getLast? with
    | none => exact absurd ⟨List.getLast?_eq_none_iff.mp hl₁, rfl⟩ hne
    | some y => rfl
  | cons y l₂ =>
    rw [List.getLast?_append, List.getLast?_cons_cons] at htail
    have hlast : (y :: l₂).getLast? = some tail := by
      rw [List.getLast?_cons] at htail ⊢
      exact htail
    have hne : x ≠ tail := by
      rintro rfl
      exact hx (List.mem_of_getLast? hlast)
    rw [if_neg hne, List.getLast?_append, hlast]
    rfl

/-- **An element is deleted.** -/
theorem hashDel_spec (h : m.Holds hash xs) (hx : x ∈ xs) :
    (hashDel m x).Represents hash (xs.erase x) ∧ (hashDel m x).hh.key = m.hh.key := by
  -- the neighbours of the element are what is before and after it in the list
  obtain ⟨l₁, l₂, rfl⟩ := List.append_of_mem hx
  obtain ⟨hprev, hremoved⟩ := h.links.remove h.nodup
  obtain ⟨mid, -, rfl, -, hl₂⟩ := links_append.mp h.links
  have hnext := hl₂.head_eq
  have hx₁ : x ∉ l₁ := fun hmem =>
    (List.nodup_append.mp h.nodup).2.2 x hmem x (List.mem_cons_self ..) rfl
  have herase : (l₁ ++ x :: l₂).erase x = l₁ ++ l₂ := by
    rw [List.erase_append_right _ hx₁, List.erase_cons_head]
  have hfirst : m.hh.prev x = none ↔ l₁ = [] := by rw [hprev, List.getLast?_eq_none_iff]
  have hlast : m.hh.next x = none ↔ l₂ = [] := by rw [hnext, List.head?_eq_none_iff]
  rw [hashDel, herase]
  split
  next hnone =>
    rw [hfirst, hlast] at hnone
    -- it was the only one, and the table goes with it
    obtain ⟨rfl, rfl⟩ := hnone
    exact ⟨Or.inl ⟨rfl, rfl⟩, rfl⟩
  next hsome =>
    rw [hfirst, hlast] at hsome
    have hsub : ∀ y, y ∈ l₁ ++ l₂ ↔ y ∈ l₁ ++ x :: l₂ ∧ y ≠ x := by
      intro y
      rw [← herase, h.nodup.mem_erase_iff, and_comm]
    obtain ⟨chain, hfilled⟩ := h.filled
    have hchain := hfilled.remove hx
    have hall : {y | y ∈ l₁ ++ x :: l₂} \ {x} = {y | y ∈ l₁ ++ l₂} := by
      ext y
      exact (hsub y).symm
    rw [hall] at hchain
    refine ⟨Or.inr ⟨?_, ?_, ?_, ?_, h.numBuckets, ?_, ⟨_, hchain.congr rfl rfl⟩⟩, rfl⟩
    · simp only [← hfirst] at hremoved
      exact hremoved
    · rw [← herase]
      exact h.nodup.erase x
    · have htail := getLast?_remove h.nodup h.tail hsome
      rwa [← hprev] at htail
    · have hitems := h.numItems
      rw [List.length_append, List.length_cons] at hitems
      rw [List.length_append]
      exact congrArg (· - 1) hitems
    · exact fun y hy => h.hashed y ((hsub y).mp hy).1

/-- A list that is linked up is counted. -/
theorem countLinked_spec {next prev : P → Option P} {before thh : Option P} {rest : List P}
    {fuel : ℕ} (hlinks : Links next prev before thh rest none) (hfuel : rest.length ≤ fuel) :
    countLinked next prev fuel before thh = some rest.length := by
  induction rest generalizing before thh fuel with
  | nil =>
    obtain rfl : thh = none := hlinks
    cases fuel <;> rfl
  | cons x rest ih =>
    obtain ⟨rfl, hback, hrest⟩ := hlinks
    obtain ⟨fuel, rfl⟩ : ∃ n, fuel = n + 1 :=
      Nat.exists_eq_succ_of_ne_zero (Nat.ne_of_gt (Nat.lt_of_lt_of_le (Nat.succ_pos _) hfuel))
    rw [countLinked, if_pos hback, ih hrest (Nat.le_of_succ_le_succ hfuel)]
    rfl

/-- **The check finds nothing wrong.** -/
theorem hashFsck_of_represents (h : m.Represents hash xs) : hashFsck m = true := by
  rcases h with ⟨-, hhead⟩ | h
  · rw [hashFsck, hhead]
  · obtain ⟨chain, hfilled⟩ := h.filled
    have hchains : ∀ i, countLinked m.hh.hhNext m.hh.hhPrev m.tbl.numItems none
        (m.tbl.buckets i).hhHead = some (m.tbl.buckets i).count := by
      intro i
      rw [countLinked_spec (hfilled.links i) (h.numItems ▸ hfilled.length_le i), hfilled.count]
    have hsum := hfilled.sum_count h.nodup fun x => by
      rw [h.numBuckets]
      exact hashToBkt_lt ..
    have hlist := countLinked_spec h.links h.numItems.ge
    rw [← h.numItems] at hsum hlist
    rw [← h.numBuckets] at hsum
    rw [hashFsck]
    split
    · rfl
    · simp only [hchains, hsum, hlist, decide_true, Bool.and_eq_true, List.all_eq_true,
        implies_true, and_true]

/-! ### Runs -/

/-- What a program does to the table. There may be no memory for the table or for twice the number
of buckets when an element is added. -/
inductive HashOp (P K : Type) where
  | add (add : P) (key : K) (oom : Bool)
  | del (delptr : P)

/-- One operation after the other; nothing if the process exits. -/
def hashRun (hash : K → ℕ) : List (HashOp P K) → UTHash P K → Option (UTHash P K)
  | [], m => some m
  | .add x key oom :: ops, m => (hashAdd hash oom m x key).bind (hashRun hash ops)
  | .del x :: ops, m => hashRun hash ops (hashDel m x)

/-- What there is in the table: the elements with their keys, in the order in which they have been
added. -/
def inTable : List (HashOp P K) → List (P × K) → List (P × K)
  | [], l => l
  | .add x key _ :: ops, l => inTable ops (l ++ [(x, key)])
  | .del x :: ops, l => inTable ops (l.filter fun p => p.1 != x)

/-- The program adds no element that is there and deletes none that is not. -/
def Proper : List (HashOp P K) → List (P × K) → Prop
  | [], _ => True
  | .add x key _ :: ops, l => x ∉ l.map Prod.fst ∧ Proper ops (l ++ [(x, key)])
  | .del x :: ops, l => x ∈ l.map Prod.fst ∧ Proper ops (l.filter fun p => p.1 != x)

/-- Whether it does can be decided. -/
instance decidableProper : ∀ (ops : List (HashOp P K)) (l : List (P × K)), Decidable (Proper ops l)
  | [], _ => inferInstanceAs (Decidable True)
  | .add x key _ :: ops, l =>
    have := decidableProper ops (l ++ [(x, key)])
    inferInstanceAs (Decidable (x ∉ l.map Prod.fst ∧ Proper ops (l ++ [(x, key)])))
  | .del x :: ops, l =>
    have := decidableProper ops (l.filter fun p => p.1 != x)
    inferInstanceAs
      (Decidable (x ∈ l.map Prod.fst ∧ Proper ops (l.filter fun p => p.1 != x)))

/-- The table represents elements with keys. -/
def UTHash.Keyed (hash : K → ℕ) (m : UTHash P K) (l : List (P × K)) : Prop :=
  m.Represents hash (l.map Prod.fst) ∧ ∀ p ∈ l, m.hh.key p.1 = p.2

/-- An element is added with its key. -/
theorem hashAdd_keyed {l : List (P × K)} (oom : Bool) (h : m.Keyed hash l)
    (hx : x ∉ l.map Prod.fst) : (hashAdd hash oom m x key = none ∧ (oom = true ∨ m.Full)) ∨
      ∃ m', hashAdd hash oom m x key = some m' ∧ m'.Keyed hash (l ++ [(x, key)]) := by
  obtain ⟨hrep, hkeys⟩ := h
  refine (hashAdd_spec oom hrep hx).imp_right fun ⟨m', hm', hholds, hkey⟩ =>
    ⟨m', hm', ?_, fun p hp => ?_⟩
  · rw [List.map_append]
    exact Or.inr hholds
  · rw [hkey]
    rcases List.mem_append.mp hp with hp | hp
    · have hne : p.1 ≠ x := fun heq => hx (heq ▸ List.mem_map_of_mem hp)
      exact (Function.update_of_ne hne ..).trans (hkeys p hp)
    · rw [List.mem_singleton.mp hp]
      exact Function.update_self ..

/-- An element is deleted with its key. -/
theorem hashDel_keyed {l : List (P × K)} (h : m.Keyed hash l) (hx : x ∈ l.map Prod.fst) :
    (hashDel m x).Keyed hash (l.filter fun p => p.1 != x) := by
  obtain ⟨hrep, hkeys⟩ := h
  have hholds : m.Holds hash (l.map Prod.fst) := by
    rcases hrep with ⟨hnil, -⟩ | hholds
    · rw [hnil] at hx
      cases hx
    · exact hholds
  obtain ⟨hrep', hkey⟩ := hashDel_spec hholds hx
  refine ⟨?_, fun p hp => ?_⟩
  · rw [hholds.nodup.erase_eq_filter, List.filter_map] at hrep'
    exact hrep'
  · rw [hkey]
    exact hkeys p (List.mem_of_mem_filter hp)

omit [DecidableEq P] in
/-- An element is found with its key. -/
theorem hashFind_keyed [DecidableEq K] {l : List (P × K)} (h : m.Keyed hash l) (key : K) :
    ∃ r, hashFind hash m key = some r ∧ (∀ x, r = some x → (x, key) ∈ l) ∧
      (r = none → ∀ x, (x, key) ∉ l) := by
  obtain ⟨hrep, hkeys⟩ := h
  obtain ⟨r, hr, hfound, hmissing⟩ := hashFind_spec hrep key
  refine ⟨r, hr, fun x hx => ?_, fun hnone x hmem => ?_⟩
  · obtain ⟨hmem, hkey⟩ := hfound x hx
    obtain ⟨p, hp, rfl⟩ := List.mem_map.mp hmem
    have hpair : p = (p.1, key) := Prod.ext rfl ((hkeys p hp).symm.trans hkey)
    rwa [hpair] at hp
  · exact hmissing hnone x (List.mem_map_of_mem hmem) (hkeys _ hmem)

/-- On the way the table gets so large that the number of its buckets cannot be doubled. -/
def GetsFull (hash : K → ℕ) (ops : List (HashOp P K)) (m : UTHash P K) : Prop :=
  ∃ ops₁ m₁, ops₁ <+: ops ∧ hashRun hash ops₁ m = some m₁ ∧ m₁.Full

theorem GetsFull.cons {ops : List (HashOp P K)} {op : HashOp P K} (h : GetsFull hash ops m')
    (hop : ∀ ops₁, hashRun hash (op :: ops₁) m = hashRun hash ops₁ m') :
    GetsFull hash (op :: ops) m := by
  obtain ⟨ops₁, m₁, hprefix, hrun, hfull⟩ := h
  exact ⟨op :: ops₁, m₁, (List.prefix_cons_inj op).mpr hprefix, (hop ops₁).trans hrun, hfull⟩

/-- **Every run keeps the table in order.** -/
theorem hashRun_spec {ops : List (HashOp P K)} {l : List (P × K)} (h : m.Keyed hash l)
    (hproper : Proper ops l) :
    (hashRun hash ops m = none ∧ ((∃ x key, HashOp.add x key true ∈ ops) ∨ GetsFull hash ops m)) ∨
      ∃ m', hashRun hash ops m = some m' ∧ m'.Keyed hash (inTable ops l) := by
  induction ops generalizing m l with
  | nil => exact Or.inr ⟨m, rfl, h⟩
  | cons op ops ih =>
    cases op with
    | add x key oom =>
      obtain ⟨hx, hproper⟩ := hproper
      rcases hashAdd_keyed oom h hx with ⟨hnone, hwhy⟩ | ⟨m', hm', hkeyed⟩
      · refine Or.inl ⟨?_, ?_⟩
        · rw [hashRun, hnone]
          rfl
        · rcases hwhy with rfl | hfull
          · exact Or.inl ⟨x, key, List.mem_cons_self ..⟩
          · exact Or.inr ⟨[], m, List.nil_prefix, rfl, hfull⟩
      · have hrun : hashRun hash (.add x key oom :: ops) m = hashRun hash ops m' := by
          rw [hashRun, hm', Option.bind_some]
        rw [hrun, inTable]
        refine (ih hkeyed hproper).imp_left fun ⟨hnone, hwhy⟩ => ⟨hnone, ?_⟩
        refine hwhy.imp (fun ⟨y, k, hmem⟩ => ⟨y, k, List.mem_cons_of_mem _ hmem⟩)
          fun hfull => hfull.cons fun ops₁ => ?_
        rw [hashRun, hm', Option.bind_some]
    | del x =>
      obtain ⟨hx, hproper⟩ := hproper
      rw [hashRun, inTable]
      refine (ih (hashDel_keyed h hx) hproper).imp_left fun ⟨hnone, hwhy⟩ => ⟨hnone, ?_⟩
      exact hwhy.imp (fun ⟨y, k, hmem⟩ => ⟨y, k, List.mem_cons_of_mem _ hmem⟩)
        fun hfull => hfull.cons fun _ => rfl

/-- **The hash table is what it is meant to be.** Whatever the hash function, and whatever has been
added and deleted: unless the process has exited for want of memory (for a table that cannot be
doubled there is taken to be none), a search ends and finds an element with the key exactly if there
is one; the elements are linked up in the order in which they have been added; and the check of the
table finds nothing wrong. -/
theorem uthash_refines [DecidableEq K] (hash : K → ℕ) (m : UTHash P K) (hm : m.head = none)
    (ops : List (HashOp P K)) (hproper : Proper ops []) :
    (hashRun hash ops m = none ∧ ((∃ x key, HashOp.add x key true ∈ ops) ∨ GetsFull hash ops m)) ∨
      ∃ m', hashRun hash ops m = some m' ∧
        (∀ key, ∃ r, hashFind hash m' key = some r ∧
          (∀ x, r = some x → (x, key) ∈ inTable ops []) ∧
          (r = none → ∀ x, (x, key) ∉ inTable ops [])) ∧
        Links m'.hh.next m'.hh.prev none m'.head ((inTable ops []).map Prod.fst) none ∧
        hashFsck m' = true := by
  have hstart : m.Keyed hash [] := ⟨Or.inl ⟨rfl, hm⟩, fun p hp => absurd hp List.not_mem_nil⟩
  refine (hashRun_spec hstart hproper).imp_right fun ⟨m', hrun, hkeyed⟩ =>
    ⟨m', hrun, hashFind_keyed hkeyed, ?_, hashFsck_of_represents hkeyed.1⟩
  rcases hkeyed.1 with ⟨hnil, hhead⟩ | hholds
  · rw [hnil]
    exact hhead
  · exact hholds.links

/-- Elements of one hash value, of which one is deleted. -/
theorem uthash_refines_collisions : ∃ m' : UTHash ℕ ℕ,
    hashRun (fun _ => 7) [.add 0 10 false, .add 1 11 false, .add 2 12 false, .del 1]
      ⟨none, hashMakeTable 0, ⟨fun _ => none, fun _ => none, fun _ => none, fun _ => none,
        fun _ => 0, fun _ => 0⟩⟩ = some m' ∧
    hashFind (fun _ => 7) m' 11 = some none := by
  have hgoes : (hashRun (fun _ : ℕ => 7) [.add 0 10 false, .add 1 11 false, .add 2 12 false, .del 1]
      ⟨none, hashMakeTable 0, ⟨fun _ => none, fun _ => none, fun _ => none, fun _ => none,
        fun _ => 0, fun _ => 0⟩⟩).isSome = true := by decide
  rcases uthash_refines (fun _ : ℕ => 7) ⟨none, hashMakeTable 0, ⟨fun _ => none, fun _ => none,
      fun _ => none, fun _ => none, fun _ => 0, fun _ => 0⟩⟩ rfl
    [.add 0 10 false, .add 1 11 false, .add 2 12 false, .del 1] (by decide) with
    ⟨hnone, -⟩ | ⟨m', hrun, hfind, -⟩
  · rw [hnone] at hgoes
    cases hgoes
  · obtain ⟨r, hr, hfound, -⟩ := hfind 11
    refine ⟨m', hrun, hr.trans (congrArg some ?_)⟩
    cases r with
    | none => rfl
    | some x => exact absurd (hfound x rfl) (by simp [inTable])

/-- The buckets are doubled when there are ten elements in one of them. -/
example : (hashRun (fun _ : ℕ => 7) ((List.range 10).map fun x => .add x x false)
    ⟨none, hashMakeTable 0, ⟨fun _ => none, fun _ => none, fun _ => none, fun _ => none,
      fun _ => 0, fun _ => 0⟩⟩).map (fun m => m.tbl.numBuckets) = some 64 := by decide +kernel

end Table

end LibFaketime
