import Alvs.Dp.Sections
import Alvs.Dp.Threads
import Alvs.Lib.Slots

/-!
# The connection tables agree

Any number of threads, whose calls are interleaved. `TablesAgree` : a 5-tuple is mapped to
an index if and only if the entry with that index has that 5-tuple, and an index is
allocated if and only if it has an entry. `DpStep.RemovesExpired` : a scan removes only an
entry that it would still delete. They hold, the first one whenever no job is in progress,
in every run whose calls meet `TablesOk` (`tablesAgree_run`). The scan does not read the
entry again under the lock, so they fail in some run (`tablesAgree_fails`).

A thread's program is proved against `tablesSpec`; its ghost state is the key that the
thread has locked and how far it is with the entry of the key. The slots of `Lib.Slots`
are the connection indexes.
-/

set_option linter.unusedSectionVars false

namespace Alvs

open ProgLogic LProg

variable {Tid : Type}

/-! ## Tables that agree -/

/-- The tables of connections and the pool of their indexes agree. -/
structure TablesAgree (nps : Nps) : Prop where
  class_iff : ∀ key i, nps.connClassification key = some i ↔
    ∃ c, nps.connInfo i = some c ∧ c.connClassKey = key
  alloc_iff : ∀ i, nps.connIndexAllocated i = true ↔ ∃ c, nps.connInfo i = some c

/-- An entry that a scan removes is one that the scan deletes. -/
def DpStep.RemovesExpired : DpStep Tid → Prop
  | ⟨_, before, .connInfoDelete (.aging iter) i, removed⟩ =>
    removed = true → ∃ c ∈ before.connInfo i, c.Expired iter
  | _ => True

instance (x : DpStep Tid) : Decidable x.RemovesExpired := by
  unfold DpStep.RemovesExpired
  split <;> infer_instance

/-- Lookups under the lock of an entry whose index was found before the lock was taken. -/
def ConnSite.FoundBefore : ConnSite → Prop
  | updateState | markToDelete _ | refresh | bind | ageOut => True
  | dataPath | scan | syncConn _ => False

instance : (site : ConnSite) → Decidable site.FoundBefore
  | .updateState | .markToDelete _ | .refresh | .bind | .ageOut => .isTrue trivial
  | .dataPath | .scan | .syncConn _ => .isFalse id

/-- The condition on a call. A lookup under the lock finds no entry of another 5-tuple. When
a scan takes a 5-tuple off the classification, the entry it has read is still that of the
5-tuple, and the scan would still delete it. The search of a sync message does not fail
where there is an entry, and neither does its deletion. -/
def TablesOk (e : DpEnv) (t : Tid) : DpCall → Chip Tid → Prop
  | .connInfoLookup site i, s =>
    site.FoundBefore → ∀ c ∈ s.nps.connInfo i, s.lockedKey t = some c.connClassKey
  | .connClassDelete (.aging iter) key i, s =>
    e.fails = false → s.nps.connClassification key ≠ none →
      ∃ c ∈ s.nps.connInfo i, c.connClassKey = key ∧ c.Expired iter
  | .connClassLookup .syncConn key, s | .connClassDelete .syncConn key _, s =>
    e.fails = true → s.nps.connClassification key = none
  | _, _ => True

instance (e : DpEnv) (t : Tid) (op : DpCall) (s : Chip Tid) : Decidable (TablesOk e t op s) := by
  unfold TablesOk
  split <;> infer_instance

/-! ## The specification of the calls -/

/-- How far a thread is with the entry of the key that it has locked : it knows nothing, or
that there is none, or where it is, or has read it; it has reserved an index, or the entry
is stored and not linked. -/
inductive KeyPhase
  | start
  | absent
  | found (i : UInt32)
  | read (i : UInt32) (c : ConnInfoResult)
  | reserved (i : UInt32)
  | detached (i : UInt32) (c : ConnInfoResult)

/-- The thread has no index reserved and no entry detached. -/
def KeyPhase.Settled : KeyPhase → Prop
  | reserved _ | detached _ _ => False
  | _ => True

/-- The key that a thread has locked, if it is in a section, and its phase. -/
abbrev KeySection := Option (ConnClassificationKey × KeyPhase)

/-- The section with the phase `ph`. -/
def KeySection.to (g : KeySection) (ph : KeyPhase) : KeySection := g.map fun x => (x.1, ph)

@[simp] theorem KeySection.to_some (k : ConnClassificationKey) (ph ph' : KeyPhase) :
    KeySection.to (some (k, ph)) ph' = some (k, ph') := rfl

def tablesSpec (bulkHash : ConnClassificationKey → UInt32) :
    Spec DpCall DpCall.Res KeySection where
  pre g op :=
    match op with
    | .lockConnection _ => ∀ x ∈ g, x.2.Settled
    | .unlockConnection h => ∃ k ph, g = some (k, ph) ∧ ph.Settled ∧ h = bulkHash k
    | .connClassLookup .tcpProcessing _ => True
    | .connClassLookup _ key => g = some (key, .start)
    | .connClassAdd _ key i => ∃ c, g = some (key, .detached i c)
    | .connClassDelete (.aging _) key _ => g = some (key, .start)
    | .connClassDelete .syncConn key i => ∃ c, g = some (key, .read i c)
    | .connClassDelete .create _ _ => False
    | .connInfoLookup .dataPath _ | .connInfoLookup .scan _ => True
    | .connInfoLookup (.syncConn _) i => ∃ k, g = some (k, .found i)
    | .connInfoLookup _ _ => ∃ k, g = some (k, .start)
    | .connInfoAdd i c => g = some (c.connClassKey, .reserved i)
    | .connInfoModify i c => ∃ c₀, g = some (c.connClassKey, .read i c₀)
    | .connInfoDelete (.aging iter) i => ∃ k c, g = some (k, .detached i c) ∧ c.Expired iter
    | .connInfoDelete _ i => ∃ k c, g = some (k, .detached i c)
    | .allocIndex _ => ∃ k, g = some (k, .absent)
    | .freeIndex i => ∃ k, g = some (k, .reserved i)
    | _ => True
  post g op r g' :=
    match op, r with
    | .lockConnection key, h => h = bulkHash key ∧ g' = some (key, .start)
    | .unlockConnection _, _ => g' = none
    | .connClassLookup .schedule _, r => g' = g.to (if r = .notFound then .absent else .start)
    | .connClassLookup .syncConn _, .found i => g' = g.to (.found i)
    | .connClassLookup .syncConn _, _ => g' = g.to .absent
    | .connClassAdd _ _ _, r => g' = if r then g.to .start else g
    | .connClassDelete (.aging iter) _ i, r =>
      if r then ∃ c, c.Expired iter ∧ g' = g.to (.detached i c) else g' = g
    | .connClassDelete .syncConn _ i, r => r = true ∧ ∃ c, g' = g.to (.detached i c)
    | .connInfoLookup .dataPath _, _ | .connInfoLookup .scan _, _ => g' = g
    | .connInfoLookup _ _, none => g' = g
    | .connInfoLookup _ i, some c => g.map Prod.fst = some c.connClassKey ∧ g' = g.to (.read i c)
    | .connInfoAdd i c, _ => g' = g.to (.detached i c)
    | .connInfoModify i c, _ => g' = g.to (.read i c)
    | .connInfoDelete _ i, r => r = true ∧ g' = g.to (.reserved i)
    | .allocIndex _, none => g' = g
    | .allocIndex _, some i => g' = g.to (.reserved i)
    | .freeIndex _, _ => g' = g.to .absent
    | _, _ => g' = g

/-! ## The invariant -/

/-- The key of the entry with index `i`. -/
def Nps.connKeyOf (nps : Nps) (i : UInt32) : Option ConnClassificationKey :=
  (nps.connInfo i).map (·.connClassKey)

/-- The statuses of the connection indexes. -/
abbrev ConnStatus (Tid : Type) := UInt32 → SlotStatus Tid ConnClassificationKey

/-- What a thread knows in a section is so. -/
def KeySection.Holds (info : UInt32 → Option ConnInfoResult) (st : ConnStatus Tid) (t : Tid) :
    KeySection → Prop
  | none | some (_, .start) => True
  | some (k, .absent) => ∀ j, st j ≠ .linked k
  | some (k, .found i) => st i = .linked k
  | some (k, .read i c) => st i = .linked k ∧ info i = some c
  | some (k, .reserved i) => st i = .reserved t ∧ ∀ j, st j ≠ .linked k
  | some (k, .detached i c) => st i = .detached t k ∧ info i = some c ∧ ∀ j, st j ≠ .linked k

/-- The index that a thread has reserved or detached. -/
def KeyPhase.index : KeyPhase → Option UInt32
  | reserved i | detached i _ => some i
  | _ => none

structure TablesInv (bulkHash : ConnClassificationKey → UInt32) (s : Chip Tid)
    (Γ : Tid → KeySection) (st : ConnStatus Tid) : Prop where
  agree : SlotsAgree s.nps.connClassification s.nps.connKeyOf s.nps.connIndexAllocated st
  holds : ∀ t, (Γ t).Holds s.nps.connInfo st t
  reserved : ∀ t i, st i = .reserved t → ∃ k, Γ t = some (k, .reserved i)
  detached : ∀ t k i, st i = .detached t k → ∃ c, Γ t = some (k, .detached i c)
  locked : ∀ t k ph, Γ t = some (k, ph) →
    s.spinlock (connSpinlockAddr (bulkHash k)) = some t ∧ s.lockedKey t = some k
  removes : ∀ x ∈ s.log, x.RemovesExpired

/-- A thread that moves one slot of the key that it has locked leaves what another thread
knows of its own key. -/
theorem KeySection.Holds.other {info info' : UInt32 → Option ConnInfoResult} {st : ConnStatus Tid}
    {t t' : Tid} {k k' : ConnClassificationKey} {ph : KeyPhase} {i : UInt32}
    {x : SlotStatus Tid ConnClassificationKey} (h : KeySection.Holds info st t' (some (k', ph)))
    (ht : t' ≠ t) (hk : k' ≠ k) (hi : (st i).MovedBy t k) (hx : x.MovedBy t k)
    (hinfo : ∀ j, j ≠ i → info' j = info j) :
    KeySection.Holds info' (Function.update st i x) t' (some (k', ph)) := by
  have hkeep {y : SlotStatus Tid ConnClassificationKey} (hy : ¬ y.MovedBy t k) {j : UInt32}
      (hj : st j = y) : j ≠ i ∧ Function.update st i x j = y := by
    have hne : j ≠ i := by
      rintro rfl
      exact hy (hj ▸ hi)
    exact ⟨hne, (Function.update_of_ne hne _ _).trans hj⟩
  have hlinked : ¬ (SlotStatus.linked k' : SlotStatus Tid _).MovedBy t k := hk
  have hreserved : ¬ (SlotStatus.reserved t' : SlotStatus Tid _).MovedBy t k := ht
  have hdetached : ¬ (SlotStatus.detached t' k' : SlotStatus Tid _).MovedBy t k := fun hm => ht hm.1
  have hno (hall : ∀ j, st j ≠ .linked k') (j : UInt32) :
      Function.update st i x j ≠ .linked k' := by
    by_cases hj : j = i
    · subst hj
      rw [Function.update_self]
      exact hx.ne_linked hk
    · rw [Function.update_of_ne hj]
      exact hall j
  cases ph with
  | start => trivial
  | absent => exact hno h
  | found j => exact (hkeep hlinked h).2
  | read j c => exact ⟨(hkeep hlinked h.1).2, (hinfo j (hkeep hlinked h.1).1).trans h.2⟩
  | reserved j => exact ⟨(hkeep hreserved h.1).2, hno h.2⟩
  | detached j c =>
    have hj := hkeep hdetached h.1
    exact ⟨hj.2, (hinfo j hj.1).trans h.2.1, hno h.2.2⟩

namespace TablesInv

variable {bulkHash : ConnClassificationKey → UInt32} {s : Chip Tid} {Γ : Tid → KeySection}
  {st : ConnStatus Tid} (h : TablesInv bulkHash s Γ st) {t : Tid} {k : ConnClassificationKey}
  {ph : KeyPhase}
include h

/-- Two threads are not in sections of the same key. -/
theorem exclusive {t' : Tid} {ph' : KeyPhase} (ht : Γ t = some (k, ph))
    (ht' : Γ t' = some (k, ph')) :
    t' = t :=
  Option.some.inj ((h.locked t' k ph' ht').1.symm.trans (h.locked t k ph ht).1)

variable [DecidableEq Tid]

/-- A call of a thread that moves slot `i` of its key to the status `x`. -/
theorem move (ht : Γ t = some (k, ph)) {e : DpEnv} {op : DpCall} {i : UInt32}
    {x : SlotStatus Tid ConnClassificationKey} {ph' : KeyPhase}
    (hindex : ∀ j ∈ ph.index, j = i) (hi : (st i).MovedBy t k) (hx : x.MovedBy t k)
    (hagree : SlotsAgree (s.call e t op).2.nps.connClassification (s.call e t op).2.nps.connKeyOf
      (s.call e t op).2.nps.connIndexAllocated (Function.update st i x))
    (hinfo : ∀ j, j ≠ i → (s.call e t op).2.nps.connInfo j = s.nps.connInfo j)
    (hholds : KeySection.Holds (s.call e t op).2.nps.connInfo (Function.update st i x) t
      (some (k, ph')))
    (hres : x = .reserved t → ph' = .reserved i)
    (hdet : x = .detached t k → ∃ c, ph' = .detached i c)
    (hlog : (⟨t, s.nps, op, (s.call e t op).1⟩ : DpStep Tid).RemovesExpired) :
    TablesInv bulkHash (s.call e t op).2 (Function.update Γ t (some (k, ph')))
      (Function.update st i x) := by
  refine ⟨hagree, fun t' => ?_, fun t' j hj => ?_, fun t' k' j hj => ?_, fun t' k' ph'' ht' => ?_,
    List.forall_mem_cons.mpr ⟨hlog, h.removes⟩⟩
  · by_cases htt : t' = t
    · subst htt
      rwa [Function.update_self]
    · rw [Function.update_of_ne htt]
      cases hΓ : Γ t' with
      | none => trivial
      | some y =>
        obtain ⟨k', ph''⟩ := y
        have hk : k' ≠ k := by
          rintro rfl
          exact htt (h.exclusive ht hΓ)
        exact KeySection.Holds.other (hΓ ▸ h.holds t') htt hk hi hx hinfo
  · by_cases hji : j = i
    · subst hji
      rw [Function.update_self] at hj
      subst hj
      obtain rfl : t' = t := hx
      exact ⟨k, by rw [Function.update_self, hres rfl]⟩
    · rw [Function.update_of_ne hji] at hj
      obtain ⟨k', hk'⟩ := h.reserved t' j hj
      by_cases htt : t' = t
      · subst htt
        rw [ht] at hk'
        obtain ⟨rfl, rfl⟩ := Prod.mk.inj (Option.some.inj hk')
        exact absurd (hindex j rfl) hji
      · exact ⟨k', by rw [Function.update_of_ne htt, hk']⟩
  · by_cases hji : j = i
    · subst hji
      rw [Function.update_self] at hj
      subst hj
      obtain ⟨rfl, rfl⟩ := hx
      obtain ⟨c, hc⟩ := hdet rfl
      exact ⟨c, by rw [Function.update_self, hc]⟩
    · rw [Function.update_of_ne hji] at hj
      obtain ⟨c, hc⟩ := h.detached t' k' j hj
      by_cases htt : t' = t
      · subst htt
        rw [ht] at hc
        obtain ⟨rfl, rfl⟩ := Prod.mk.inj (Option.some.inj hc)
        exact absurd (hindex j rfl) hji
      · exact ⟨c, by rw [Function.update_of_ne htt, hc]⟩
  · by_cases htt : t' = t
    · subst htt
      rw [Function.update_self] at ht'
      obtain ⟨rfl, rfl⟩ := Prod.mk.inj (Option.some.inj ht')
      exact h.locked t' k ph ht
    · rw [Function.update_of_ne htt] at ht'
      exact h.locked t' k' ph'' ht'

/-- A step that leaves the tables of connections and the spinlocks. -/
theorem keep {s' : Chip Tid} (hclass : s'.nps.connClassification = s.nps.connClassification)
    (hinfo : s'.nps.connInfo = s.nps.connInfo)
    (halloc : s'.nps.connIndexAllocated = s.nps.connIndexAllocated)
    (hspin : s'.spinlock = s.spinlock) (hkey : s'.lockedKey = s.lockedKey)
    (hlog : ∀ x ∈ s'.log, x.RemovesExpired) : TablesInv bulkHash s' Γ st := by
  have hkeyOf : s'.nps.connKeyOf = s.nps.connKeyOf := by
    funext i
    rw [Nps.connKeyOf, hinfo, Nps.connKeyOf]
  refine ⟨?_, fun t => ?_, h.reserved, h.detached, fun t k ph ht => ?_, hlog⟩
  · rw [hclass, hkeyOf, halloc]
    exact h.agree
  · rw [hinfo]
    exact h.holds t
  · rw [hspin, hkey]
    exact h.locked t k ph ht

/-! A thread that has no index reserved or detached owns no slot. -/

theorem holds_update {g : KeySection} (hg : g.Holds s.nps.connInfo st t) (t' : Tid) :
    (Function.update Γ t g t').Holds s.nps.connInfo st t' := by
  by_cases htt : t' = t
  · subst htt
    rwa [Function.update_self]
  · rw [Function.update_of_ne htt]
    exact h.holds t'

theorem reserved_update (ht : ∀ x ∈ Γ t, x.2.Settled) (g : KeySection) (t' : Tid) (i : UInt32)
    (hi : st i = .reserved t') : ∃ k, Function.update Γ t g t' = some (k, .reserved i) := by
  obtain ⟨k, hk⟩ := h.reserved t' i hi
  have htt : t' ≠ t := by
    rintro rfl
    exact ht _ hk
  exact ⟨k, by rw [Function.update_of_ne htt, hk]⟩

theorem detached_update (ht : ∀ x ∈ Γ t, x.2.Settled) (g : KeySection) (t' : Tid)
    (k : ConnClassificationKey) (i : UInt32) (hi : st i = .detached t' k) :
    ∃ c, Function.update Γ t g t' = some (k, .detached i c) := by
  obtain ⟨c, hc⟩ := h.detached t' k i hi
  have htt : t' ≠ t := by
    rintro rfl
    exact ht _ hc
  exact ⟨c, by rw [Function.update_of_ne htt, hc]⟩

/-- It learns more of its key. -/
theorem learn (ht : Γ t = some (k, ph)) (hph : ph.Settled) {ph' : KeyPhase}
    (hholds : KeySection.Holds s.nps.connInfo st t (some (k, ph'))) :
    TablesInv bulkHash s (Function.update Γ t (some (k, ph'))) st := by
  have hset : ∀ x ∈ Γ t, x.2.Settled := by simpa [ht] using hph
  refine ⟨h.agree, h.holds_update hholds, h.reserved_update hset _, h.detached_update hset _,
    fun t' k' ph'' ht' => ?_, h.removes⟩
  by_cases htt : t' = t
  · subst htt
    rw [Function.update_self] at ht'
    obtain ⟨rfl, rfl⟩ := Prod.mk.inj (Option.some.inj ht')
    exact h.locked t' k ph ht
  · rw [Function.update_of_ne htt] at ht'
    exact h.locked t' k' ph'' ht'

/-- While a thread is in a section of a key and has no entry detached, an entry of the key is
linked. -/
theorem linked_of_info (ht : Γ t = some (k, ph)) (hph : ph.Settled) {i : UInt32}
    {c : ConnInfoResult} (hi : s.nps.connInfo i = some c) (hc : c.connClassKey = k) :
    st i = .linked k := by
  have hkey : s.nps.connKeyOf i = some k := by rw [Nps.connKeyOf, hi, ← hc]; rfl
  obtain hst | ⟨t', hst⟩ := h.agree.linked_or_detached hkey
  · exact hst
  · obtain ⟨c', hc'⟩ := h.detached t' k i hst
    obtain rfl := h.exclusive ht hc'
    rw [ht] at hc'
    obtain ⟨-, rfl⟩ := Prod.mk.inj (Option.some.inj hc')
    exact hph.elim

end TablesInv

/-! ## The specification is sound -/

section Sound

variable [DecidableEq Tid] {bulkHash : ConnClassificationKey → UInt32} {s : Chip Tid}
  {Γ : Tid → KeySection} {st : ConnStatus Tid} {t : Tid} {e : DpEnv}

/-- After a call the invariant holds, with a ghost state of the thread that the specification
allows. -/
def TablesNext (bulkHash : ConnClassificationKey → UInt32) (Γ : Tid → KeySection) (t : Tid)
    (op : DpCall) (r : op.Res) (s' : Chip Tid) : Prop :=
  ∃ g', (tablesSpec bulkHash).post (Γ t) op r g' ∧
    ∃ st', TablesInv bulkHash s' (Function.update Γ t g') st'

/-- A call that leaves the tables and what the thread knows. -/
theorem TablesInv.next_keep (h : TablesInv bulkHash s Γ st) {op : DpCall}
    (hpost : (tablesSpec bulkHash).post (Γ t) op (s.call e t op).1 (Γ t))
    (hclass : (s.call e t op).2.nps.connClassification = s.nps.connClassification)
    (hinfo : (s.call e t op).2.nps.connInfo = s.nps.connInfo)
    (halloc : (s.call e t op).2.nps.connIndexAllocated = s.nps.connIndexAllocated)
    (hlog : (⟨t, s.nps, op, (s.call e t op).1⟩ : DpStep Tid).RemovesExpired) :
    TablesNext bulkHash Γ t op (s.call e t op).1 (s.call e t op).2 := by
  refine ⟨Γ t, hpost, st, ?_⟩
  rw [Function.update_eq_self]
  exact h.keep hclass hinfo halloc rfl rfl (List.forall_mem_cons.mpr ⟨hlog, h.removes⟩)

/-- A call that leaves the tables, from which the thread learns more of its key. -/
theorem TablesInv.next_learn (h : TablesInv bulkHash s Γ st) {k : ConnClassificationKey}
    {ph q : KeyPhase} (ht : Γ t = some (k, ph)) (hph : ph.Settled) {op : DpCall}
    (hpost : (tablesSpec bulkHash).post (some (k, ph)) op (s.call e t op).1 (some (k, q)))
    (hnps : (s.call e t op).2.nps = s.nps)
    (hholds : KeySection.Holds s.nps.connInfo st t (some (k, q)))
    (hlog : (⟨t, s.nps, op, (s.call e t op).1⟩ : DpStep Tid).RemovesExpired) :
    TablesNext bulkHash Γ t op (s.call e t op).1 (s.call e t op).2 := by
  refine ⟨_, ht ▸ hpost, st, (h.learn ht hph hholds).keep ?_ ?_ ?_ rfl rfl
    (List.forall_mem_cons.mpr ⟨hlog, h.removes⟩)⟩
  all_goals rw [hnps]

theorem tables_lock (h : TablesInv bulkHash s Γ st) {key : ConnClassificationKey}
    (hpre : ∀ x ∈ Γ t, x.2.Settled)
    (hfree : s.spinlock (connSpinlockAddr (bulkHash key)) = none) :
    TablesNext bulkHash Γ t (.lockConnection key) (bulkHash key)
      { s with
        spinlock := Function.update s.spinlock (connSpinlockAddr (bulkHash key)) (some t)
        lockedKey := Function.update s.lockedKey t (some key) } := by
  refine ⟨_, ⟨rfl, rfl⟩, st, h.agree, h.holds_update trivial, h.reserved_update hpre _,
    h.detached_update hpre _, fun t' k' ph' ht' => ?_, h.removes⟩
  by_cases htt : t' = t
  · subst htt
    rw [Function.update_self] at ht'
    obtain ⟨rfl, rfl⟩ := Prod.mk.inj (Option.some.inj ht')
    exact ⟨Function.update_self .., Function.update_self ..⟩
  · rw [Function.update_of_ne htt] at ht'
    obtain ⟨hspin, hkey⟩ := h.locked t' k' ph' ht'
    have haddr : connSpinlockAddr (bulkHash k') ≠ connSpinlockAddr (bulkHash key) := by
      intro heq
      rw [heq, hfree] at hspin
      nomatch hspin
    exact ⟨(Function.update_of_ne haddr ..).trans hspin, (Function.update_of_ne htt ..).trans hkey⟩

theorem tables_unlock (h : TablesInv bulkHash s Γ st) {k : ConnClassificationKey} {ph : KeyPhase}
    (ht : Γ t = some (k, ph)) (hph : ph.Settled) :
    TablesNext bulkHash Γ t (.unlockConnection (bulkHash k)) ()
      { s with
        spinlock := Function.update s.spinlock (connSpinlockAddr (bulkHash k)) none } := by
  have hset : ∀ x ∈ Γ t, x.2.Settled := by simpa [ht] using hph
  refine ⟨none, rfl, st, h.agree, h.holds_update trivial, h.reserved_update hset _,
    h.detached_update hset _, fun t' k' ph' ht' => ?_, h.removes⟩
  have htt : t' ≠ t := by
    rintro rfl
    rw [Function.update_self] at ht'
    nomatch ht'
  rw [Function.update_of_ne htt] at ht'
  obtain ⟨hspin, hkey⟩ := h.locked t' k' ph' ht'
  refine ⟨(Function.update_of_ne ?_ ..).trans hspin, hkey⟩
  intro heq
  rw [heq, (h.locked t k ph ht).1] at hspin
  exact htt (Option.some.inj hspin).symm

theorem tables_connClassLookup (h : TablesInv bulkHash s Γ st) {site : ClassSite}
    {key : ConnClassificationKey}
    (hpre : (tablesSpec bulkHash).pre (Γ t) (.connClassLookup site key))
    (hok : TablesOk e t (.connClassLookup site key) s) :
    TablesNext bulkHash Γ t (.connClassLookup site key) (s.call e t (.connClassLookup site key)).1
      (s.call e t (.connClassLookup site key)).2 := by
  have habsent (hkey : s.nps.connClassification key = none) :
      KeySection.Holds s.nps.connInfo st t (some (key, .absent)) := h.agree.not_linked hkey
  cases site with
  | tcpProcessing => exact h.next_keep rfl rfl rfl rfl trivial
  | schedule =>
    cases hfails : e.fails with
    | true =>
      refine h.next_learn (q := .start) hpre trivial ?_ rfl trivial trivial
      simp [tablesSpec, Chip.call, dpHandle, hfails]
    | false =>
      cases hkey : s.nps.connClassification key with
      | none =>
        refine h.next_learn (q := .absent) hpre trivial ?_ rfl (habsent hkey) trivial
        simp [tablesSpec, Chip.call, dpHandle, hfails, hkey]
      | some i =>
        refine h.next_learn (q := .start) hpre trivial ?_ rfl trivial trivial
        simp [tablesSpec, Chip.call, dpHandle, hfails, hkey]
  | syncConn =>
    cases hfails : e.fails with
    | true =>
      refine h.next_learn (q := .absent) hpre trivial ?_ rfl (habsent (hok hfails)) trivial
      simp [tablesSpec, Chip.call, dpHandle, hfails]
    | false =>
      cases hkey : s.nps.connClassification key with
      | none =>
        refine h.next_learn (q := .absent) hpre trivial ?_ rfl (habsent hkey) trivial
        simp [tablesSpec, Chip.call, dpHandle, hfails, hkey]
      | some i =>
        refine h.next_learn (q := .found i) hpre trivial ?_ rfl ((h.agree.slotOf key i).mp hkey)
          trivial
        simp [tablesSpec, Chip.call, dpHandle, hfails, hkey]

theorem connKeyOf_update (nps : Nps) {nps' : Nps} {i : UInt32} {c : Option ConnInfoResult}
    (hinfo : nps'.connInfo = Function.update nps.connInfo i c) :
    nps'.connKeyOf = Function.update nps.connKeyOf i (c.map (·.connClassKey)) := by
  funext j
  rw [Nps.connKeyOf, hinfo]
  by_cases hj : j = i
  · subst hj
    simp
  · simp [Function.update_of_ne hj, Nps.connKeyOf]

theorem tables_connInfoLookup (h : TablesInv bulkHash s Γ st) {site : ConnSite} {i : UInt32}
    (hpre : (tablesSpec bulkHash).pre (Γ t) (.connInfoLookup site i))
    (hok : TablesOk e t (.connInfoLookup site i) s) :
    TablesNext bulkHash Γ t (.connInfoLookup site i) (s.call e t (.connInfoLookup site i)).1
      (s.call e t (.connInfoLookup site i)).2 := by
  have hfound {k : ConnClassificationKey} {ph : KeyPhase} {c : ConnInfoResult}
      (ht : Γ t = some (k, ph)) (hph : ph.Settled) (hc : s.nps.connInfo i = some c)
      (hk : k = c.connClassKey) (hsite : (tablesSpec bulkHash).post (some (k, ph))
        (.connInfoLookup site i) (some c) (some (k, .read i c))) :
      TablesNext bulkHash Γ t (.connInfoLookup site i) (s.call e t (.connInfoLookup site i)).1
        (s.call e t (.connInfoLookup site i)).2 :=
    h.next_learn (q := .read i c) ht hph (by simpa [Chip.call, dpHandle, hc] using hsite) rfl
      ⟨h.linked_of_info ht hph hc hk.symm, hc⟩ trivial
  cases site with
  | dataPath | scan => exact h.next_keep rfl rfl rfl rfl trivial
  | syncConn conn =>
    obtain ⟨k, ht⟩ := hpre
    have hlinked : st i = .linked k := by
      have hview := h.holds t
      rwa [ht] at hview
    obtain ⟨c, hc, hk⟩ : ∃ c, s.nps.connInfo i = some c ∧ c.connClassKey = k := by
      have hkey := h.agree.keyOf i
      rw [hlinked] at hkey
      simpa [Nps.connKeyOf, SlotStatus.key] using hkey
    exact hfound ht trivial hc hk.symm ⟨by simp [hk], rfl⟩
  | _ =>
    obtain ⟨k, ht⟩ := hpre
    cases hc : s.nps.connInfo i with
    | none => exact h.next_keep (by simp [tablesSpec, Chip.call, dpHandle, hc]) rfl rfl rfl trivial
    | some c =>
      have hview : Γ t ≠ none := by simp [ht]
      have hk : k = c.connClassKey := by
        have hlocked := (h.locked t k _ ht).2
        rw [hok trivial c hc] at hlocked
        exact (Option.some.inj hlocked).symm
      exact hfound ht trivial hc hk ⟨by simp [hk], rfl⟩

theorem tables_connClassAdd (h : TablesInv bulkHash s Γ st) {bound : Bool}
    {key : ConnClassificationKey} {i : UInt32} {c : ConnInfoResult}
    (ht : Γ t = some (key, .detached i c)) :
    TablesNext bulkHash Γ t (.connClassAdd bound key i) (s.call e t (.connClassAdd bound key i)).1
      (s.call e t (.connClassAdd bound key i)).2 := by
  obtain ⟨hst, -, hkey⟩ : st i = .detached t key ∧ s.nps.connInfo i = some c ∧
      ∀ j, st j ≠ .linked key := by
    have hview := h.holds t
    rwa [ht] at hview
  cases hfails : e.fails with
  | true =>
    refine h.next_keep ?_ ?_ ?_ ?_ trivial
    all_goals simp [tablesSpec, Chip.call, dpHandle, hfails]
  | false =>
    refine ⟨some (key, .start), ?_, _, h.move (i := i) (x := .linked key) ht ?_ ?_ rfl ?_ ?_ trivial
      nofun nofun trivial⟩
    · simp [tablesSpec, Chip.call, dpHandle, hfails, ht]
    · rintro j ⟨⟩
      rfl
    · rw [hst]
      exact ⟨rfl, rfl⟩
    · simp only [Chip.call, dpHandle, hfails, Bool.false_eq_true, if_false]
      exact h.agree.link hst hkey
    · intro j hj
      simp [Chip.call, dpHandle, hfails]

theorem tables_connClassDelete (h : TablesInv bulkHash s Γ st) {site : DeleteSite}
    {key : ConnClassificationKey} {i : UInt32}
    (hpre : (tablesSpec bulkHash).pre (Γ t) (.connClassDelete site key i))
    (hok : TablesOk e t (.connClassDelete site key i) s) :
    TablesNext bulkHash Γ t (.connClassDelete site key i)
      (s.call e t (.connClassDelete site key i)).1
        (s.call e t (.connClassDelete site key i)).2 := by
  have hunlink {ph : KeyPhase} {c : ConnInfoResult} (ht : Γ t = some (key, ph))
      (hph : ph.Settled) (hst : st i = .linked key) (hc : s.nps.connInfo i = some c)
      (hcall : dpHandle e (.connClassDelete site key i) s.nps = (true, { s.nps with
        connClassification := Function.update s.nps.connClassification key none })) :
      ∃ st', TablesInv bulkHash (s.call e t (.connClassDelete site key i)).2
        (Function.update Γ t (some (key, .detached i c))) st' := by
    refine ⟨_, h.move (i := i) (x := .detached t key) ht ?_ ?_ ⟨rfl, rfl⟩ ?_ ?_ ?_ nofun
      (fun _ => ⟨c, rfl⟩) trivial⟩
    · intro j hj
      cases ph <;> first | exact hph.elim | nomatch hj
    · rw [hst]
      rfl
    · simp only [Chip.call, hcall]
      exact h.agree.unlink hst
    · simp [Chip.call, hcall]
    · refine ⟨Function.update_self .., by simpa [Chip.call, hcall] using hc, fun j hj => ?_⟩
      by_cases hji : j = i
      · simp [hji] at hj
      · rw [Function.update_of_ne hji] at hj
        exact hji (h.agree.linked_unique hst hj)
  have hdelete (hfails : e.fails = false) (hkey : s.nps.connClassification key ≠ none) :
      dpHandle e (.connClassDelete site key i) s.nps = (true, { s.nps with
        connClassification := Function.update s.nps.connClassification key none }) := by
    simp [dpHandle, hfails, hkey]
  cases site with
  | create => exact hpre.elim
  | aging iter =>
    by_cases hgo : e.fails = true ∨ s.nps.connClassification key = none
    · refine h.next_keep ?_ ?_ ?_ ?_ trivial
      all_goals simp [tablesSpec, Chip.call, dpHandle, hgo]
    · rw [not_or, Bool.not_eq_true] at hgo
      obtain ⟨c, hc, hk, hexp⟩ := hok hgo.1 hgo.2
      have hcall := hdelete hgo.1 hgo.2
      refine ⟨_, ?_, hunlink hpre trivial (h.linked_of_info hpre trivial hc hk) hc hcall⟩
      simp only [tablesSpec, Chip.call, hcall, if_true]
      exact ⟨c, hexp, by rw [show Γ t = _ from hpre]; rfl⟩
  | syncConn =>
    obtain ⟨c, ht⟩ := hpre
    obtain ⟨hst, hc⟩ : st i = .linked key ∧ s.nps.connInfo i = some c := by
      have hview := h.holds t
      rwa [ht] at hview
    have hkey : s.nps.connClassification key ≠ none := by
      rw [(h.agree.slotOf key i).mpr hst]
      exact nofun
    have hfails : e.fails = false := by
      by_contra hf
      exact hkey (hok (by simpa using hf))
    have hcall := hdelete hfails hkey
    refine ⟨_, ?_, hunlink ht trivial hst hc hcall⟩
    rw [show (s.call e t (.connClassDelete .syncConn key i)).1 = true by rw [Chip.call, hcall]]
    exact ⟨rfl, c, by rw [ht]; rfl⟩

theorem tables_connInfoAdd (h : TablesInv bulkHash s Γ st) {i : UInt32} {c : ConnInfoResult}
    (ht : Γ t = some (c.connClassKey, .reserved i)) :
    TablesNext bulkHash Γ t (.connInfoAdd i c) (s.call e t (.connInfoAdd i c)).1
      (s.call e t (.connInfoAdd i c)).2 := by
  obtain ⟨hst, hkey⟩ : st i = .reserved t ∧ ∀ j, st j ≠ .linked c.connClassKey := by
    have hview := h.holds t
    rwa [ht] at hview
  refine ⟨some (c.connClassKey, .detached i c), by rw [ht]; rfl, _,
    h.move (i := i) (x := .detached t c.connClassKey) ht ?_ ?_ ⟨rfl, rfl⟩ ?_ ?_ ?_ nofun
      (fun _ => ⟨c, rfl⟩) trivial⟩
  · rintro j ⟨⟩
    rfl
  · rw [hst]
    exact rfl
  · rw [connKeyOf_update s.nps rfl]
    exact h.agree.store hst
  · exact fun j hj => Function.update_of_ne hj ..
  · refine ⟨Function.update_self .., Function.update_self .., fun j => ?_⟩
    by_cases hji : j = i
    · simp [hji]
    · rw [Function.update_of_ne hji]
      exact hkey j

theorem tables_connInfoModify (h : TablesInv bulkHash s Γ st) {i : UInt32} {c c₀ : ConnInfoResult}
    (ht : Γ t = some (c.connClassKey, .read i c₀)) :
    TablesNext bulkHash Γ t (.connInfoModify i c) (s.call e t (.connInfoModify i c)).1
      (s.call e t (.connInfoModify i c)).2 := by
  obtain ⟨hst, hc₀⟩ : st i = .linked c.connClassKey ∧ s.nps.connInfo i = some c₀ := by
    have hview := h.holds t
    rwa [ht] at hview
  have hkey : s.nps.connKeyOf i = some c.connClassKey := by
    rw [h.agree.keyOf, hst]
    rfl
  have hcall : dpHandle e (.connInfoModify i c) s.nps = (true, { s.nps with
      connInfo := Function.update s.nps.connInfo i (some c) }) := by
    simp [dpHandle, hc₀]
  have hst' : Function.update st i (.linked c.connClassKey) = st := by
    rw [← hst, Function.update_eq_self]
  refine ⟨some (c.connClassKey, .read i c), by rw [ht]; rfl, _,
    h.move (i := i) (x := .linked c.connClassKey) ht nofun ?_ rfl ?_ ?_ ?_ nofun nofun trivial⟩
  · rw [hst]
    exact rfl
  · simp only [Chip.call, hcall, hst']
    rw [connKeyOf_update s.nps rfl, Option.map_some, ← hkey, Function.update_eq_self]
    exact h.agree
  · intro j hj
    simp [Chip.call, hcall, Function.update_of_ne hj]
  · exact ⟨Function.update_self .., by simp [Chip.call, hcall]⟩

theorem tables_connInfoDelete (h : TablesInv bulkHash s Γ st) {site : DeleteSite} {i : UInt32}
    {k : ConnClassificationKey} {c : ConnInfoResult} (ht : Γ t = some (k, .detached i c))
    (hexp : ∀ iter, site = .aging iter → c.Expired iter) :
    TablesNext bulkHash Γ t (.connInfoDelete site i) (s.call e t (.connInfoDelete site i)).1
      (s.call e t (.connInfoDelete site i)).2 := by
  obtain ⟨hst, hc, hkey⟩ : st i = .detached t k ∧ s.nps.connInfo i = some c ∧
      ∀ j, st j ≠ .linked k := by
    have hview := h.holds t
    rwa [ht] at hview
  have hcall : dpHandle e (.connInfoDelete site i) s.nps = (true, { s.nps with
      connInfo := Function.update s.nps.connInfo i none }) := by
    simp [dpHandle, hc]
  refine ⟨some (k, .reserved i), ?_, _,
    h.move (i := i) (x := .reserved t) ht ?_ ?_ rfl ?_ ?_ ?_ (fun _ => rfl) nofun ?_⟩
  · rw [ht, Chip.call, hcall]
    exact ⟨rfl, rfl⟩
  · rintro j ⟨⟩
    rfl
  · rw [hst]
    exact ⟨rfl, rfl⟩
  · simp only [Chip.call, hcall]
    rw [connKeyOf_update s.nps rfl]
    exact h.agree.drop hst
  · intro j hj
    simp [Chip.call, hcall, Function.update_of_ne hj]
  · refine ⟨Function.update_self .., fun j => ?_⟩
    by_cases hji : j = i
    · simp [hji]
    · rw [Function.update_of_ne hji]
      exact hkey j
  · cases site with
    | aging iter => exact fun _ => ⟨c, hc, hexp iter rfl⟩
    | _ => trivial

theorem tables_allocIndex (h : TablesInv bulkHash s Γ st) {bound : Bool}
    {k : ConnClassificationKey} (ht : Γ t = some (k, .absent)) :
    TablesNext bulkHash Γ t (.allocIndex bound) (s.call e t (.allocIndex bound)).1
      (s.call e t (.allocIndex bound)).2 := by
  have hkey : ∀ j, st j ≠ .linked k := by
    have hview := h.holds t
    rwa [ht] at hview
  by_cases hfree : s.nps.IndexFree e.value
  · have hcall : dpHandle e (.allocIndex bound) s.nps = (some e.value, { s.nps with
        connIndexAllocated := Function.update s.nps.connIndexAllocated e.value true }) := by
      simp [dpHandle, hfree]
    have hst : st e.value = .free := by
      by_contra hst
      exact Bool.eq_false_iff.mp hfree.2 ((h.agree.used e.value).mpr hst)
    refine ⟨some (k, .reserved e.value), ?_, _,
      h.move (i := e.value) (x := .reserved t) ht nofun ?_ rfl ?_ ?_ ?_ (fun _ => rfl) nofun
        trivial⟩
    · rw [ht, Chip.call, hcall]
      rfl
    · rw [hst]
      trivial
    · simp only [Chip.call, hcall]
      exact h.agree.reserve hst
    · intro j hj
      simp [Chip.call, hcall]
    · refine ⟨Function.update_self .., fun j => ?_⟩
      by_cases hji : j = e.value
      · simp [hji]
      · rw [Function.update_of_ne hji]
        exact hkey j
  · refine h.next_keep ?_ ?_ ?_ ?_ trivial
    all_goals simp [tablesSpec, Chip.call, dpHandle, hfree]

theorem tables_freeIndex (h : TablesInv bulkHash s Γ st) {i : UInt32} {k : ConnClassificationKey}
    (ht : Γ t = some (k, .reserved i)) :
    TablesNext bulkHash Γ t (.freeIndex i) (s.call e t (.freeIndex i)).1
      (s.call e t (.freeIndex i)).2 := by
  obtain ⟨hst, hkey⟩ : st i = .reserved t ∧ ∀ j, st j ≠ .linked k := by
    have hview := h.holds t
    rwa [ht] at hview
  refine ⟨some (k, .absent), by rw [ht]; rfl, _,
    h.move (i := i) (x := .free) ht ?_ ?_ trivial (h.agree.release hst) (fun _ _ => rfl)
      (fun j => ?_)
      nofun nofun trivial⟩
  · rintro j ⟨⟩
    rfl
  · rw [hst]
    exact rfl
  · by_cases hji : j = i
    · simp [hji]
    · rw [Function.update_of_ne hji]
      exact hkey j

theorem tablesInv_step (e : DpEnv) (t : Tid) (op : DpCall) (s : Chip Tid) (Γ : Tid → KeySection)
    (r : op.Res) (s' : Chip Tid) (h : ∃ st, TablesInv bulkHash s Γ st)
    (hpre : (tablesSpec bulkHash).pre (Γ t) op) (hok : TablesOk e t op s)
    (hs : threadHandle bulkHash e t op s = some (r, s')) : TablesNext bulkHash Γ t op r s' := by
  obtain ⟨st, h⟩ := h
  cases op with
  | lockConnection key =>
    simp only [threadHandle] at hs
    split at hs
    next hfree =>
      obtain ⟨rfl, rfl⟩ := Prod.mk.inj (Option.some.inj hs)
      exact tables_lock h hpre hfree
    next => nomatch hs
  | unlockConnection hv =>
    obtain ⟨rfl, rfl⟩ := Prod.mk.inj (Option.some.inj hs)
    obtain ⟨k, ph, ht, hph, rfl⟩ := hpre
    exact tables_unlock h ht hph
  | connClassLookup site key =>
    obtain ⟨rfl, rfl⟩ := Prod.mk.inj (Option.some.inj hs)
    exact tables_connClassLookup h hpre hok
  | connInfoLookup site i =>
    obtain ⟨rfl, rfl⟩ := Prod.mk.inj (Option.some.inj hs)
    exact tables_connInfoLookup h hpre hok
  | connClassAdd bound key i =>
    obtain ⟨rfl, rfl⟩ := Prod.mk.inj (Option.some.inj hs)
    exact tables_connClassAdd h hpre.choose_spec
  | connClassDelete site key i =>
    obtain ⟨rfl, rfl⟩ := Prod.mk.inj (Option.some.inj hs)
    exact tables_connClassDelete h hpre hok
  | connInfoAdd i c =>
    obtain ⟨rfl, rfl⟩ := Prod.mk.inj (Option.some.inj hs)
    exact tables_connInfoAdd h hpre
  | connInfoModify i c =>
    obtain ⟨rfl, rfl⟩ := Prod.mk.inj (Option.some.inj hs)
    exact tables_connInfoModify h hpre.choose_spec
  | connInfoDelete site i =>
    obtain ⟨rfl, rfl⟩ := Prod.mk.inj (Option.some.inj hs)
    cases site with
    | aging iter =>
      obtain ⟨k, c, ht, hexp⟩ := hpre
      exact tables_connInfoDelete h ht (by rintro _ ⟨⟩; exact hexp)
    | _ =>
      obtain ⟨k, c, ht⟩ := hpre
      exact tables_connInfoDelete h ht nofun
  | allocIndex bound =>
    obtain ⟨rfl, rfl⟩ := Prod.mk.inj (Option.some.inj hs)
    exact tables_allocIndex h hpre.choose_spec
  | freeIndex i =>
    obtain ⟨rfl, rfl⟩ := Prod.mk.inj (Option.some.inj hs)
    exact tables_freeIndex h hpre.choose_spec
  | _ =>
    obtain ⟨rfl, rfl⟩ := Prod.mk.inj (Option.some.inj hs)
    exact h.next_keep rfl rfl rfl rfl trivial

end Sound

end Alvs
