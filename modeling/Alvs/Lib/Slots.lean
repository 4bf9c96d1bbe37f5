import Mathlib.Logic.Function.Basic

/-!
# Tables of slots

A store keeps entries in slots : a table maps each slot to the key of its entry, another
maps each key to its slot, and a pool tells which slots are in use. The two tables and the
pool are written one after the other, so in between they do not agree.

`SlotStatus` is what a slot is in the meantime : free, reserved by a thread, detached (it
has an entry that its key does not lead to) by a thread, or linked. The statuses determine
the tables (`SlotsAgree`), each write of the tables moves one slot, and where no slot is
reserved or detached the tables agree (`SlotsAgree.key_iff`, `SlotsAgree.used_iff`).
-/

set_option linter.unusedSectionVars false

namespace ProgLogic

variable {Tid Key Slot : Type} [DecidableEq Key] [DecidableEq Slot]

inductive SlotStatus (Tid Key : Type)
  | free
  | reserved (t : Tid)
  | detached (t : Tid) (k : Key)
  | linked (k : Key)

/-- The key of the entry in a slot. -/
def SlotStatus.key : SlotStatus Tid Key → Option Key
  | free | reserved _ => none
  | detached _ k | linked k => some k

/-- A slot that thread `t` may move while it works on key `k`. -/
def SlotStatus.MovedBy (t : Tid) (k : Key) : SlotStatus Tid Key → Prop
  | free => True
  | reserved t' => t' = t
  | detached t' k' => t' = t ∧ k' = k
  | linked k' => k' = k

namespace SlotStatus.MovedBy

variable {t t' : Tid} {k k' : Key} {x : SlotStatus Tid Key}

theorem ne_linked (h : x.MovedBy t k) (hk : k' ≠ k) : x ≠ .linked k' := by
  rintro rfl
  exact hk h

end SlotStatus.MovedBy

/-- No thread is about to move the slot. -/
def SlotStatus.Settled : SlotStatus Tid Key → Prop
  | free | linked _ => True
  | reserved _ | detached _ _ => False

/-- The tables and the pool are those of the statuses. -/
structure SlotsAgree (slotOf : Key → Option Slot) (keyOf : Slot → Option Key)
    (used : Slot → Bool) (st : Slot → SlotStatus Tid Key) : Prop where
  slotOf : ∀ k i, slotOf k = some i ↔ st i = .linked k
  keyOf : ∀ i, keyOf i = (st i).key
  used : ∀ i, used i = true ↔ st i ≠ .free

namespace SlotsAgree

variable {slotOf : Key → Option Slot} {keyOf : Slot → Option Key} {used : Slot → Bool}
  {st : Slot → SlotStatus Tid Key} (h : SlotsAgree slotOf keyOf used st) {t : Tid} {k : Key}
    {i : Slot}
include h

/-! ## Reading the tables -/

theorem not_linked (hk : slotOf k = none) (i : Slot) : st i ≠ .linked k := fun hi => by
  have := (h.slotOf k i).mpr hi
  simp [hk] at this

/-- A key has one slot. -/
theorem linked_unique {j : Slot} (hi : st i = .linked k) (hj : st j = .linked k) : j = i :=
  Option.some.inj (((h.slotOf k j).mpr hj).symm.trans ((h.slotOf k i).mpr hi))

/-- An entry is linked or detached. -/
theorem linked_or_detached (hi : keyOf i = some k) : st i = .linked k ∨ ∃ t, st i =
    .detached t k := by
  rw [h.keyOf] at hi
  cases hst : st i with
  | free | reserved => simp [hst, SlotStatus.key] at hi
  | detached t k' => exact .inr ⟨t, by simpa [hst, SlotStatus.key] using hi⟩
  | linked k' => exact .inl (by simpa [hst, SlotStatus.key] using hi)

theorem key_iff (hi : (st i).Settled) : slotOf k = some i ↔ keyOf i = some k := by
  rw [h.slotOf, h.keyOf]
  revert hi
  cases st i <;> simp [SlotStatus.Settled, SlotStatus.key]

theorem used_iff (hi : (st i).Settled) : used i = true ↔ ∃ k, keyOf i = some k := by
  rw [h.used, h.keyOf]
  revert hi
  cases st i <;> simp [SlotStatus.Settled, SlotStatus.key]

/-! ## Moving a slot -/

/-- Tables and statuses that differ in slot `i` only agree if they do there. -/
theorem move {slotOf' : Key → Option Slot} {keyOf' : Slot → Option Key} {used' : Slot → Bool}
    {x : SlotStatus Tid Key}
    (hslot : ∀ k j, slotOf' k = some j ↔ Function.update st i x j = .linked k)
    (hkey : keyOf' i = x.key) (hkey' : ∀ j, j ≠ i → keyOf' j = keyOf j)
    (hused : used' i = true ↔ x ≠ .free) (hused' : ∀ j, j ≠ i → used' j = used j) :
    SlotsAgree slotOf' keyOf' used' (Function.update st i x) := by
  refine ⟨hslot, fun j => ?_, fun j => ?_⟩
  all_goals
    by_cases hj : j = i
    · subst hj
      simp only [Function.update_self]
      assumption
    · rw [Function.update_of_ne hj]
      first | rw [hkey' j hj, h.keyOf] | rw [hused' j hj, h.used]

/-- A slot that is not linked and moves to a status other than linked leaves the table of
keys. -/
theorem slotOf_move {x : SlotStatus Tid Key} (hi : ∀ k, st i ≠ .linked k)
    (hx : ∀ k, x ≠ .linked k) (k : Key) (j : Slot) :
    slotOf k = some j ↔ Function.update st i x j = .linked k := by
  rw [h.slotOf]
  by_cases hj : j = i
  · subst hj
    simp [hi k, hx k]
  · rw [Function.update_of_ne hj]

/-- A free slot is taken from the pool. -/
theorem reserve (hi : st i = .free) :
    SlotsAgree slotOf keyOf (Function.update used i true) (Function.update st i (.reserved t)) :=
  h.move (h.slotOf_move (by simp [hi]) (by simp)) (by simp [h.keyOf, hi, SlotStatus.key])
    (fun _ _ => rfl) (by simp) fun _ hj => Function.update_of_ne hj _ _

/-- A reserved slot goes back to the pool. -/
theorem release (hi : st i = .reserved t) :
    SlotsAgree slotOf keyOf (Function.update used i false) (Function.update st i .free) :=
  h.move (h.slotOf_move (by simp [hi]) (by simp)) (by simp [h.keyOf, hi, SlotStatus.key])
    (fun _ _ => rfl) (by simp) fun _ hj => Function.update_of_ne hj _ _

/-- An entry is stored in a reserved slot. -/
theorem store (hi : st i = .reserved t) :
    SlotsAgree slotOf (Function.update keyOf i (some k)) used
      (Function.update st i (.detached t k)) :=
  h.move (h.slotOf_move (by simp [hi]) (by simp)) (by simp [SlotStatus.key])
    (fun _ hj => Function.update_of_ne hj _ _) (by simp [h.used, hi]) fun _ _ => rfl

/-- A detached entry is dropped. -/
theorem drop (hi : st i = .detached t k) :
    SlotsAgree slotOf (Function.update keyOf i none) used (Function.update st i (.reserved t)) :=
  h.move (h.slotOf_move (by simp [hi]) (by simp)) (by simp [SlotStatus.key])
    (fun _ hj => Function.update_of_ne hj _ _) (by simp [h.used, hi]) fun _ _ => rfl

/-- A detached entry is linked, its key being in no other slot. -/
theorem link (hi : st i = .detached t k) (hk : ∀ j, st j ≠ .linked k) :
    SlotsAgree (Function.update slotOf k (some i)) keyOf used
      (Function.update st i (.linked k)) := by
  refine h.move (fun k' j => ?_) (by simp [h.keyOf, hi, SlotStatus.key]) (fun _ _ => rfl)
    (by simp [h.used, hi]) fun _ _ => rfl
  by_cases hk' : k' = k
  · subst hk'
    by_cases hj : j = i
    · simp [hj]
    · simp [Function.update_of_ne hj, hk j, Ne.symm hj]
  · rw [Function.update_of_ne hk', h.slotOf]
    by_cases hj : j = i
    · simp [hj, hi, Ne.symm hk']
    · rw [Function.update_of_ne hj]

/-- A linked entry is detached. -/
theorem unlink (hi : st i = .linked k) :
    SlotsAgree (Function.update slotOf k none) keyOf used
      (Function.update st i (.detached t k)) := by
  refine h.move (fun k' j => ?_) (by simp [h.keyOf, hi, SlotStatus.key]) (fun _ _ => rfl)
    (by simp [h.used, hi]) fun _ _ => rfl
  by_cases hj : j = i
  · subst hj
    by_cases hk' : k' = k
    · simp [hk']
    · simp [Function.update_of_ne hk', h.slotOf, hi, Ne.symm hk']
  · rw [Function.update_of_ne hj]
    by_cases hk' : k' = k
    · subst hk'
      simpa using fun hst => hj (h.linked_unique hi hst)
    · rw [Function.update_of_ne hk', h.slotOf]

end SlotsAgree

end ProgLogic
