import Alvs.Defs
import Mathlib.Data.Finset.Card
import Mathlib.Data.List.Nodup
import Mathlib.Data.Finset.Range
import Mathlib.Data.Nat.ModEq

/-!
# The index pool

`IndexPool` is the circular queue of free indexes with its allocation flags, and
`indexPoolAlloc`, `indexPoolRelease` and `indexPoolRewind` are its operations. The
queue read from its head is `freeSlots` : an allocation takes its first element
(`freeSlots_alloc`), a release appends to it (`freeSlots_release`).

`IndexPool.Wf` says that the free slots are exactly the indexes flagged as free, each
once. A `WfPool n` is a pool of size `n` that is well formed, so the control plane cannot
hold any other; what its operations do to the allocation flags (`WfPool.alloc_spec`,
`WfPool.release_flag`) is all the rest of the development uses.
-/

namespace Alvs

/-- `struct index_pool`, with the array of flags as the indexes flagged `INDEX_ALLOC`. -/
structure IndexPool where
  maxSize : Nat
  head : Nat
  length : Nat
  indexes : Nat → Nat
  indexesFlags : Nat → Bool

namespace IndexPool

def indexPoolRewind (pool : IndexPool) : IndexPool :=
  { pool with
    head := 0
    length := pool.maxSize
    indexes := fun ind => ind
    indexesFlags := fun _ => false }

def indexPoolAlloc (pool : IndexPool) : Option (Nat × IndexPool) :=
  if pool.length = 0 then none
  else
    let index := pool.indexes pool.head
    some (index, { pool with
      indexesFlags := Function.update pool.indexesFlags index true
      head := (pool.head + 1) % pool.maxSize
      length := pool.length - 1 })

def indexPoolRelease (pool : IndexPool) (index : Nat) : IndexPool :=
  if pool.maxSize ≤ index then pool
  else if pool.indexesFlags index = false then pool
  else
    let tail := (pool.head + pool.length) % pool.maxSize
    { pool with
      indexes := Function.update pool.indexes tail index
      indexesFlags := Function.update pool.indexesFlags index false
      length := pool.length + 1 }

/-! ## The queue of free indexes -/

/-- The indexes in the queue, from its head. -/
def freeSlots (pool : IndexPool) : List Nat :=
  (List.range pool.length).map fun k => pool.indexes ((pool.head + k) % pool.maxSize)

/-- The free slots are the indexes flagged as free, each once. -/
structure Wf (pool : IndexPool) : Prop where
  head_lt : pool.head < pool.maxSize
  length_le : pool.length ≤ pool.maxSize
  nodup : pool.freeSlots.Nodup
  mem_iff : ∀ i, i ∈ pool.freeSlots ↔ i < pool.maxSize ∧ pool.indexesFlags i = false

variable {pool pool' : IndexPool} {index : Nat}

theorem freeSlots_alloc (hw : pool.Wf) (h : pool.indexPoolAlloc = some (index, pool')) :
    pool.freeSlots = index :: pool'.freeSlots := by
  unfold indexPoolAlloc at h
  split at h
  · cases h
  next hlen =>
    simp only [Option.some.injEq, Prod.mk.injEq] at h
    obtain ⟨rfl, rfl⟩ := h
    obtain ⟨n, hn⟩ := Nat.exists_eq_succ_of_ne_zero hlen
    simp only [freeSlots, hn, Nat.succ_eq_add_one, Nat.add_sub_cancel]
    rw [List.range_succ_eq_map, List.map_cons, Nat.add_zero, Nat.mod_eq_of_lt hw.head_lt,
      List.map_map]
    congr 1
    refine List.map_congr_left fun k _ => ?_
    simp only [Function.comp_apply, Nat.mod_add_mod]
    congr 2
    omega

/-- A pool with an allocated index has room in its queue. -/
theorem Wf.length_lt (hw : pool.Wf) (hi : index < pool.maxSize)
    (hf : pool.indexesFlags index = true) : pool.length < pool.maxSize := by
  have hlen : pool.freeSlots.length = pool.length := by simp [freeSlots]
  have hsub : pool.freeSlots.toFinset ⊂ Finset.range pool.maxSize := by
    refine Finset.ssubset_iff_subset_ne.mpr ⟨fun i hm => ?_, fun heq => ?_⟩
    · exact Finset.mem_range.mpr ((hw.mem_iff i).mp (List.mem_toFinset.mp hm)).1
    · have hm : index ∈ pool.freeSlots := by
        rw [← List.mem_toFinset, heq]
        exact Finset.mem_range.mpr hi
      simpa [hf] using ((hw.mem_iff index).mp hm).2
  have hcard := Finset.card_lt_card hsub
  rwa [List.toFinset_card_of_nodup hw.nodup, hlen, Finset.card_range] at hcard

theorem freeSlots_release (hw : pool.Wf) (hi : index < pool.maxSize)
    (hf : pool.indexesFlags index = true) :
    (pool.indexPoolRelease index).freeSlots = pool.freeSlots ++ [index] := by
  have hlt := hw.length_lt hi hf
  have hh := hw.head_lt
  rw [indexPoolRelease, if_neg (by omega), if_neg (by simp [hf])]
  simp only [freeSlots, List.range_succ, List.map_append, List.map_cons, List.map_nil,
    Function.update_self]
  congr 1
  refine List.map_congr_left fun k hk => Function.update_of_ne (fun heq => ?_) _ _
  -- two offsets below the size that meet modulo the size are equal
  have hk := List.mem_range.mp hk
  have hmod : k ≡ pool.length [MOD pool.maxSize] := Nat.ModEq.add_left_cancel' pool.head heq
  have := hmod.eq_of_lt_of_lt (by omega) hlt
  omega

/-! ## The operations keep a pool well formed -/

theorem alloc_flags (h : pool.indexPoolAlloc = some (index, pool')) :
    pool'.indexesFlags = Function.update pool.indexesFlags index true ∧
      pool'.maxSize = pool.maxSize := by
  unfold indexPoolAlloc at h
  split at h
  · cases h
  · simp only [Option.some.injEq, Prod.mk.injEq] at h
    obtain ⟨rfl, rfl⟩ := h
    exact ⟨rfl, rfl⟩

theorem alloc_mem (hw : pool.Wf) (h : pool.indexPoolAlloc = some (index, pool')) :
    index < pool.maxSize ∧ pool.indexesFlags index = false := by
  rw [← hw.mem_iff, freeSlots_alloc hw h]
  exact List.mem_cons_self

theorem Wf.alloc (hw : pool.Wf) (h : pool.indexPoolAlloc = some (index, pool')) : pool'.Wf := by
  have hslots := freeSlots_alloc hw h
  obtain ⟨hflags, hmax⟩ := alloc_flags h
  have hnodup := hw.nodup
  rw [hslots, List.nodup_cons] at hnodup
  refine ⟨?_, ?_, hnodup.2, fun i => ?_⟩
  · unfold indexPoolAlloc at h
    split at h
    · cases h
    · simp only [Option.some.injEq, Prod.mk.injEq] at h
      obtain ⟨-, rfl⟩ := h
      exact Nat.mod_lt _ (Nat.zero_lt_of_lt hw.head_lt)
  · have hlen : ∀ p : IndexPool, p.freeSlots.length = p.length := fun p => by simp [freeSlots]
    have := congrArg List.length hslots
    rw [List.length_cons, hlen, hlen] at this
    have := hw.length_le
    omega
  · have hi := hw.mem_iff i
    rw [hslots, List.mem_cons] at hi
    rw [hflags, hmax, Function.update_apply]
    by_cases heq : i = index
    · subst heq
      simp [hnodup.1]
    · simpa [heq] using hi

theorem release_flags (hi : index < pool.maxSize) :
    (pool.indexPoolRelease index).indexesFlags = Function.update pool.indexesFlags index false := by
  rw [indexPoolRelease, if_neg (by omega)]
  split
  next hf => exact (Function.update_eq_self_iff.mpr hf.symm).symm
  next => rfl

theorem release_maxSize : (pool.indexPoolRelease index).maxSize = pool.maxSize := by
  unfold indexPoolRelease
  split
  · rfl
  · split <;> rfl

theorem Wf.release (hw : pool.Wf) : (pool.indexPoolRelease index).Wf := by
  by_cases hi : index < pool.maxSize
  swap
  · rw [indexPoolRelease, if_pos (by omega)]
    exact hw
  by_cases hf : pool.indexesFlags index = true
  swap
  · rw [indexPoolRelease, if_neg (by omega), if_pos (by simpa using hf)]
    exact hw
  have hslots := freeSlots_release hw hi hf
  have hlt := hw.length_lt hi hf
  have hnew : index ∉ pool.freeSlots := fun hm => by simpa [hf] using ((hw.mem_iff _).mp hm).2
  refine ⟨?_, ?_, ?_, fun i => ?_⟩
  · rw [indexPoolRelease, if_neg (by omega), if_neg (by simp [hf])]
    exact hw.head_lt
  · rw [indexPoolRelease, if_neg (by omega), if_neg (by simp [hf])]
    exact hlt
  · rw [hslots]
    exact (List.nodup_append_comm.mp (List.nodup_cons.mpr ⟨hnew, hw.nodup⟩))
  · rw [hslots, release_flags hi, release_maxSize, List.mem_append, List.mem_singleton,
      Function.update_apply]
    by_cases heq : i = index
    · subst heq
      simp [hi]
    · simpa [heq] using hw.mem_iff i

theorem freeSlots_rewind (pool : IndexPool) :
    pool.indexPoolRewind.freeSlots = List.range pool.maxSize := by
  simp only [freeSlots, indexPoolRewind, Nat.zero_add]
  refine (List.map_congr_left fun k hk => ?_).trans (List.map_id _)
  exact Nat.mod_eq_of_lt (List.mem_range.mp hk)

theorem Wf.rewind (h : 0 < pool.maxSize) : pool.indexPoolRewind.Wf := by
  refine ⟨h, le_rfl, ?_, fun i => ?_⟩
  · rw [freeSlots_rewind]
    exact List.nodup_range
  · rw [freeSlots_rewind]
    simp [indexPoolRewind]

end IndexPool

/-! ## Pools that are well formed -/

/-- A well formed pool of `n` indexes. -/
structure WfPool (n : Nat) where
  pool : IndexPool
  wf : pool.Wf
  maxSize_eq : pool.maxSize = n

namespace WfPool

variable {n : Nat}

/-- The pool with all indexes free. -/
def init (h : 0 < n) : WfPool n where
  pool := (⟨n, 0, 0, fun _ => 0, fun _ => false⟩ : IndexPool).indexPoolRewind
  wf := IndexPool.Wf.rewind h
  maxSize_eq := rfl

def rewind (p : WfPool n) : WfPool n where
  pool := p.pool.indexPoolRewind
  wf := IndexPool.Wf.rewind (Nat.zero_lt_of_lt p.wf.head_lt)
  maxSize_eq := p.maxSize_eq

def alloc (p : WfPool n) : Option (Nat × WfPool n) :=
  match h : p.pool.indexPoolAlloc with
  | none => none
  | some (i, pool') =>
    some (i, ⟨pool', p.wf.alloc h, (IndexPool.alloc_flags h).2.trans p.maxSize_eq⟩)

def release (p : WfPool n) (index : Nat) : WfPool n where
  pool := p.pool.indexPoolRelease index
  wf := p.wf.release
  maxSize_eq := IndexPool.release_maxSize.trans p.maxSize_eq

/-- The index is allocated. -/
def flag (p : WfPool n) (index : Nat) : Bool := p.pool.indexesFlags index

@[simp] theorem init_flag (h : 0 < n) (i : Nat) : (init h).flag i = false := rfl

@[simp] theorem rewind_flag (p : WfPool n) (i : Nat) : p.rewind.flag i = false := rfl

theorem alloc_eq_some {p p' : WfPool n} {i : Nat} (h : p.alloc = some (i, p')) :
    p.pool.indexPoolAlloc = some (i, p'.pool) := by
  unfold alloc at h
  split at h
  · cases h
  next j pool' heq =>
    simp only [Option.some.injEq, Prod.mk.injEq] at h
    obtain ⟨rfl, rfl⟩ := h
    exact heq

/-- An allocation takes a free index and flags it. -/
theorem alloc_spec {p p' : WfPool n} {i : Nat} (h : p.alloc = some (i, p')) :
    i < n ∧ p.flag i = false ∧ ∀ j, p'.flag j = if j = i then true else p.flag j := by
  have h' := alloc_eq_some h
  obtain ⟨hlt, hfree⟩ := IndexPool.alloc_mem p.wf h'
  refine ⟨p.maxSize_eq ▸ hlt, hfree, fun j => ?_⟩
  simp only [flag, (IndexPool.alloc_flags h').1, Function.update_apply]

/-- The index of an allocation fits a column of 32 bits. -/
theorem alloc_toNat {p p' : WfPool n} {i : Nat} (h : p.alloc = some (i, p')) (hn : n ≤ 2 ^ 32) :
    (UInt32.ofNat i).toNat = i := by
  rw [UInt32.toNat_ofNat']
  exact Nat.mod_eq_of_lt ((alloc_spec h).1.trans_le hn)

/-- A release of an index of the pool clears its flag. -/
theorem release_flag {p : WfPool n} {i : Nat} (hi : i < n) (j : Nat) :
    (p.release i).flag j = if j = i then false else p.flag j := by
  rw [← p.maxSize_eq] at hi
  simp only [flag, release, IndexPool.release_flags hi, Function.update_apply]

end WfPool

end Alvs
