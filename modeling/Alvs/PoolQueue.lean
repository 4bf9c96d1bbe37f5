import Alvs.IndexPool
import Alvs.Lib.Runs

/-!
# The index pool as a queue

A run of a pool is any list of allocations, releases (of any index) and rewinds. The
`PoolLedger` keeps the history that the pool itself forgets : the indexes allocated and
the indexes really freed since the last rewind. The two meet in the queue : what was
allocated, followed by the free slots, is the initial order followed by what was freed
(`PoolLedger.Ordered`), so freed indexes come back in the order of their release.

`poolQueue_run` says what holds after every run.
-/

namespace Alvs

open ProgLogic

inductive PoolOp
  | alloc
  | release (index : Nat)
  | rewind
  deriving DecidableEq

/-- A pool with the indexes allocated and freed since its last rewind, each in order. A
release that changes nothing does not count. -/
structure PoolLedger where
  pool : IndexPool
  allocated : List Nat
  released : List Nat

namespace PoolLedger

/-- A pool that was just rewound. -/
def start (pool : IndexPool) : PoolLedger := ⟨pool.indexPoolRewind, [], []⟩

def step (l : PoolLedger) : PoolOp → PoolLedger
  | .alloc =>
    match l.pool.indexPoolAlloc with
    | none => l
    | some (index, pool) => { l with pool := pool, allocated := l.allocated ++ [index] }
  | .release index =>
    { l with
      pool := l.pool.indexPoolRelease index
      released :=
        if index < l.pool.maxSize ∧ l.pool.indexesFlags index = true then l.released ++ [index]
        else l.released }
  | .rewind => start l.pool

/-- The allocated indexes followed by the free slots are all indexes, in the order of a
rewind, followed by the freed ones. -/
structure Ordered (n : Nat) (l : PoolLedger) : Prop where
  wf : l.pool.Wf
  maxSize_eq : l.pool.maxSize = n
  order : l.allocated ++ l.pool.freeSlots = List.range n ++ l.released

end PoolLedger

/-! ## One operation -/

namespace IndexPool

variable {pool pool' : IndexPool} {index : Nat}

/-- A release of an index that is out of range or free changes nothing. -/
theorem release_of_not (h : ¬(index < pool.maxSize ∧ pool.indexesFlags index = true)) :
    pool.indexPoolRelease index = pool := by
  unfold indexPoolRelease
  split
  · rfl
  next hin =>
    rw [if_pos]
    by_contra hflag
    exact h ⟨by omega, by simpa using hflag⟩

theorem alloc_eq_none_iff : pool.indexPoolAlloc = none ↔ pool.freeSlots = [] := by
  rw [← List.length_eq_zero_iff, freeSlots, List.length_map, List.length_range]
  unfold indexPoolAlloc
  split
  next h => exact iff_of_true rfl h
  next h => exact iff_of_false (by simp) h

/-- An allocation fails exactly where every index is allocated. -/
theorem Wf.alloc_eq_none_iff (hw : pool.Wf) :
    pool.indexPoolAlloc = none ↔ ∀ i < pool.maxSize, pool.indexesFlags i = true := by
  rw [IndexPool.alloc_eq_none_iff, List.eq_nil_iff_forall_not_mem]
  constructor
  · intro h i hi
    have hnot := h i
    rw [hw.mem_iff, not_and, Bool.not_eq_false] at hnot
    exact hnot hi
  · intro h i hm
    obtain ⟨hi, hfree⟩ := (hw.mem_iff i).mp hm
    rw [h i hi] at hfree
    cases hfree

end IndexPool

namespace PoolLedger

variable {n : Nat} {l : PoolLedger}

theorem Ordered.start {pool : IndexPool} (h : 0 < pool.maxSize) :
    (start pool).Ordered pool.maxSize where
  wf := IndexPool.Wf.rewind h
  maxSize_eq := rfl
  order := by simp [PoolLedger.start, IndexPool.freeSlots_rewind]

/-- Every operation keeps the order. -/
theorem Ordered.step (h : l.Ordered n) (op : PoolOp) : (l.step op).Ordered n := by
  cases op with
  | alloc =>
    rw [PoolLedger.step]
    cases halloc : l.pool.indexPoolAlloc with
    | none => exact h
    | some r =>
      obtain ⟨index, pool⟩ := r
      refine ⟨h.wf.alloc halloc, ?_, ?_⟩
      · exact (IndexPool.alloc_flags halloc).2.trans h.maxSize_eq
      · rw [List.append_assoc, List.singleton_append, ← IndexPool.freeSlots_alloc h.wf halloc]
        exact h.order
  | release index =>
    refine ⟨h.wf.release, IndexPool.release_maxSize.trans h.maxSize_eq, ?_⟩
    rw [PoolLedger.step]
    split
    next hheld =>
      rw [IndexPool.freeSlots_release h.wf hheld.1 hheld.2, ← List.append_assoc, h.order,
        List.append_assoc]
    next hnot =>
      rw [IndexPool.release_of_not hnot]
      exact h.order
  | rewind =>
    rw [← h.maxSize_eq]
    exact Ordered.start (Nat.zero_lt_of_lt h.wf.head_lt)

theorem Ordered.run (h : l.Ordered n) (ops : List PoolOp) :
    (ops.foldl PoolLedger.step l).Ordered n :=
  have hall : Always (fun _ _ => True) PoolLedger.step l ops :=
    Always.of_forall (fun _ _ => trivial) l ops
  Always.invariant (fun _ op hl _ => hl.step op) l ops h hall

end PoolLedger

/-! ## Every run -/

/-- What holds of a pool of `n` indexes with its history : the queue fits its array (and
the sum of its head and length 32 bits, for a size that is an `int`), its slots are the
free indexes, each once, an allocation fails only where none is left, a release of an index
not held changes nothing, and the allocations after the first `n` return the freed indexes
in the order of their release. -/
structure PoolLedger.IsQueue (n : Nat) (l : PoolLedger) : Prop where
  fits : l.pool.maxSize = n ∧ l.pool.head < n ∧ l.pool.length ≤ n
  noWrap : n < 2 ^ 31 → l.pool.head + l.pool.length < 2 ^ 32
  distinct : l.pool.freeSlots.Nodup
  free : ∀ i, i ∈ l.pool.freeSlots ↔ i < n ∧ l.pool.indexesFlags i = false
  allocFails : l.pool.indexPoolAlloc = none ↔ ∀ i < n, l.pool.indexesFlags i = true
  releaseIgnored : ∀ i, (n ≤ i ∨ l.pool.indexesFlags i = false) → l.pool.indexPoolRelease i = l.pool
  order : l.allocated ++ l.pool.freeSlots = List.range n ++ l.released
  fifo : ∀ k, n + k < l.allocated.length → l.allocated[n + k]? = l.released[k]?

theorem PoolLedger.Ordered.fifo {n : Nat} {l : PoolLedger} (h : l.Ordered n) {k : Nat}
    (hk : n + k < l.allocated.length) : l.allocated[n + k]? = l.released[k]? := by
  have hget := congrArg (·[n + k]?) h.order
  simp only [List.getElem?_append_left hk] at hget
  rw [hget, List.getElem?_append_right (by simp), List.length_range, Nat.add_sub_cancel_left]

theorem PoolLedger.Ordered.isQueue {n : Nat} {l : PoolLedger} (h : l.Ordered n) : l.IsQueue n := by
  have hfifo := fun k => h.fifo (k := k)
  obtain ⟨hw, rfl, horder⟩ := h
  have hhead := hw.head_lt
  have hlength := hw.length_le
  refine ⟨⟨rfl, hhead, hlength⟩, by omega, hw.nodup, hw.mem_iff, hw.alloc_eq_none_iff,
    fun i hi => IndexPool.release_of_not ?_, horder, hfifo⟩
  rintro ⟨hlt, hflag⟩
  rcases hi with hge | hfree
  · omega
  · rw [hfree] at hflag
    cases hflag

theorem poolQueue_run (pool : IndexPool) (hsize : 0 < pool.maxSize) (ops : List PoolOp) :
    (ops.foldl PoolLedger.step (.start pool)).IsQueue pool.maxSize :=
  ((PoolLedger.Ordered.start hsize).run ops).isQueue

/-- Two indexes allocated from a pool of two, freed in the other order and allocated
again. -/
theorem poolQueue_run_two :
    let pool : IndexPool := ⟨2, 1, 7, fun _ => 5, fun _ => true⟩
    let ops : List PoolOp := [.alloc, .alloc, .release 1, .release 9, .release 0, .alloc, .alloc]
    (ops.foldl PoolLedger.step (.start pool)).allocated = [0, 1, 1, 0] ∧
      (ops.foldl PoolLedger.step (.start pool)).IsQueue 2 :=
  ⟨by decide, poolQueue_run ⟨2, 1, 7, fun _ => 5, fun _ => true⟩ (by decide) _⟩

end Alvs
