import Mathlib.Logic.Function.Basic

/-!
# Maps kept in slots

A store keeps the values of a map in slots. One table gives the slot of a key, another one the value
in a slot, which has its key in it, and a pool tells which slots are used. `SlotMap.WF` : the three
agree. `SlotMap.contents` is the map, and the lemmas say what of it the writes change : a value put
into an unused slot, one that is taken out, and one that is replaced by a value with its key.

`updates` applies a list of records to a map, each at its own key.
-/

namespace ProgLogic

/-- The slots of the keys, the values in the slots and the slots that are used. -/
structure SlotMap (Key Slot α : Type) where
  slotOf : Key → Option Slot
  value : Slot → Option α
  used : Slot → Bool

namespace SlotMap

variable {Key Slot α : Type} {keyOf : α → Key} {m : SlotMap Key Slot α} {k : Key} {i : Slot}
  {a b : α}

/-- A key leads to the slot of the value with that key, and the slots with values are used. -/
structure WF (keyOf : α → Key) (m : SlotMap Key Slot α) : Prop where
  slot_iff : ∀ k i, m.slotOf k = some i ↔ ∃ a, m.value i = some a ∧ keyOf a = k
  used_iff : ∀ i, m.used i = true ↔ ∃ a, m.value i = some a

/-- The map that is kept. -/
def contents (m : SlotMap Key Slot α) (k : Key) : Option α := (m.slotOf k).bind m.value

namespace WF

theorem value_of_slot (h : m.WF keyOf) (hi : m.slotOf k = some i) :
    ∃ a, m.value i = some a ∧ keyOf a = k := (h.slot_iff k i).mp hi

theorem slot_of_value (h : m.WF keyOf) (ha : m.value i = some a) : m.slotOf (keyOf a) = some i :=
  (h.slot_iff _ i).mpr ⟨a, ha, rfl⟩

theorem contents_of_value (h : m.WF keyOf) (ha : m.value i = some a) :
    m.contents (keyOf a) = some a := by
  rw [contents, h.slot_of_value ha, Option.bind_some, ha]

theorem contents_eq_none (h : m.WF keyOf) : m.contents k = none ↔ m.slotOf k = none := by
  constructor
  · intro hnone
    cases hi : m.slotOf k with
    | none => rfl
    | some i =>
      obtain ⟨a, ha, rfl⟩ := h.value_of_slot hi
      rw [h.contents_of_value ha] at hnone
      cases hnone
  · intro hnone
    rw [contents, hnone, Option.bind_none]

theorem key_of_contents (h : m.WF keyOf) (ha : m.contents k = some a) : keyOf a = k := by
  obtain ⟨i, hi, hvalue⟩ := Option.bind_eq_some_iff.mp ha
  obtain ⟨a', ha', hkey⟩ := h.value_of_slot hi
  obtain rfl := Option.some.inj (ha'.symm.trans hvalue)
  exact hkey

end WF

/-- An unused slot has no value. -/
theorem WF.value_of_unused (h : m.WF keyOf) (hi : m.used i = false) : m.value i = none := by
  rw [Option.eq_none_iff_forall_ne_some]
  intro a ha
  rw [(h.used_iff i).mpr ⟨a, ha⟩] at hi
  cases hi

/-! ## Writes -/

variable [DecidableEq Key] [DecidableEq Slot]

/-- A value in a slot of its own. -/
def insert (m : SlotMap Key Slot α) (k : Key) (i : Slot) (a : α) : SlotMap Key Slot α where
  slotOf := Function.update m.slotOf k (some i)
  value := Function.update m.value i (some a)
  used := Function.update m.used i true

/-- The value in a slot taken out. -/
def erase (m : SlotMap Key Slot α) (k : Key) (i : Slot) : SlotMap Key Slot α where
  slotOf := Function.update m.slotOf k none
  value := Function.update m.value i none
  used := Function.update m.used i false

/-- Another value in a slot. -/
def replace (m : SlotMap Key Slot α) (i : Slot) (a : α) : SlotMap Key Slot α :=
  { m with value := Function.update m.value i (some a) }

namespace WF

theorem insert (h : m.WF keyOf) (hk : m.slotOf k = none) (hi : m.used i = false)
    (ha : keyOf a = k) : (m.insert k i a).WF keyOf := by
  have hfree := h.value_of_unused hi
  constructor
  · intro k' j
    change Function.update m.slotOf k (some i) k' = some j ↔
      ∃ b, Function.update m.value i (some a) j = some b ∧ keyOf b = k'
    by_cases hj : j = i
    · subst hj
      rw [Function.update_self]
      by_cases hk' : k' = k
      · rw [hk', Function.update_self]
        exact iff_of_true rfl ⟨a, rfl, ha⟩
      · rw [Function.update_of_ne hk']
        refine iff_of_false (fun hslot => ?_) ?_
        · obtain ⟨b, hb, -⟩ := h.value_of_slot hslot
          rw [hfree] at hb
          cases hb
        · rintro ⟨b, hb, rfl⟩
          exact hk' (Option.some.inj hb ▸ ha)
    · rw [Function.update_of_ne hj, ← h.slot_iff]
      by_cases hk' : k' = k
      · rw [hk', Function.update_self, hk]
        exact iff_of_false (fun hij => hj (Option.some.inj hij).symm) (by simp)
      · rw [Function.update_of_ne hk']
  · intro j
    change Function.update m.used i true j = true ↔
      ∃ b, Function.update m.value i (some a) j = some b
    by_cases hj : j = i
    · subst hj
      simp
    · rw [Function.update_of_ne hj, Function.update_of_ne hj]
      exact h.used_iff j

theorem contents_insert (h : m.WF keyOf) (hi : m.used i = false) :
    (m.insert k i a).contents = Function.update m.contents k (some a) := by
  have hfree := h.value_of_unused hi
  funext k'
  change (Function.update m.slotOf k (some i) k').bind (Function.update m.value i (some a)) = _
  by_cases hk : k' = k
  · rw [hk, Function.update_self, Function.update_self, Option.bind_some, Function.update_self]
  · rw [Function.update_of_ne hk, Function.update_of_ne hk, contents]
    refine Option.bind_congr fun j hj => Function.update_of_ne ?_ _ _
    rintro rfl
    obtain ⟨b, hb, -⟩ := h.value_of_slot hj
    rw [hfree] at hb
    cases hb

theorem erase (h : m.WF keyOf) (ha : m.value i = some a) : (m.erase (keyOf a) i).WF keyOf := by
  constructor
  · intro k' j
    change Function.update m.slotOf (keyOf a) none k' = some j ↔
      ∃ b, Function.update m.value i none j = some b ∧ keyOf b = k'
    by_cases hj : j = i
    · subst hj
      rw [Function.update_self]
      refine iff_of_false (fun hslot => ?_) (by simp)
      by_cases hk' : k' = keyOf a
      · rw [hk', Function.update_self] at hslot
        cases hslot
      · rw [Function.update_of_ne hk'] at hslot
        obtain ⟨b, hb, hkey⟩ := h.value_of_slot hslot
        obtain rfl := Option.some.inj (ha.symm.trans hb)
        exact hk' hkey.symm
    · rw [Function.update_of_ne hj, ← h.slot_iff]
      by_cases hk' : k' = keyOf a
      · rw [hk', Function.update_self, h.slot_of_value ha]
        exact iff_of_false (by simp) fun hij => hj (Option.some.inj hij).symm
      · rw [Function.update_of_ne hk']
  · intro j
    change Function.update m.used i false j = true ↔ ∃ b, Function.update m.value i none j = some b
    by_cases hj : j = i
    · subst hj
      simp
    · rw [Function.update_of_ne hj, Function.update_of_ne hj]
      exact h.used_iff j

theorem contents_erase (h : m.WF keyOf) (ha : m.value i = some a) :
    (m.erase (keyOf a) i).contents = Function.update m.contents (keyOf a) none := by
  funext k'
  change (Function.update m.slotOf (keyOf a) none k').bind (Function.update m.value i none) = _
  by_cases hk : k' = keyOf a
  · rw [hk, Function.update_self, Function.update_self, Option.bind_none]
  · rw [Function.update_of_ne hk, Function.update_of_ne hk, contents]
    refine Option.bind_congr fun j hj => Function.update_of_ne ?_ _ _
    rintro rfl
    obtain ⟨b, hb, rfl⟩ := h.value_of_slot hj
    exact hk (congrArg keyOf (Option.some.inj (hb.symm.trans ha)))

omit [DecidableEq Key] in
theorem replace (h : m.WF keyOf) (ha : m.value i = some a) (hkey : keyOf b = keyOf a) :
    (m.replace i b).WF keyOf := by
  constructor
  · intro k' j
    change m.slotOf k' = some j ↔ ∃ c, Function.update m.value i (some b) j = some c ∧ keyOf c = k'
    rw [h.slot_iff]
    by_cases hj : j = i
    · subst hj
      rw [Function.update_self, ha]
      simp [hkey]
    · rw [Function.update_of_ne hj]
  · intro j
    change m.used j = true ↔ ∃ c, Function.update m.value i (some b) j = some c
    rw [h.used_iff]
    by_cases hj : j = i
    · subst hj
      simp [ha]
    · rw [Function.update_of_ne hj]

theorem contents_replace (h : m.WF keyOf) (ha : m.value i = some a) :
    (m.replace i b).contents = Function.update m.contents (keyOf a) (some b) := by
  funext k'
  change (m.slotOf k').bind (Function.update m.value i (some b)) = _
  by_cases hk : k' = keyOf a
  · rw [hk, Function.update_self, h.slot_of_value ha, Option.bind_some, Function.update_self]
  · rw [Function.update_of_ne hk, contents]
    refine Option.bind_congr fun j hj => Function.update_of_ne ?_ _ _
    rintro rfl
    obtain ⟨b, hb, rfl⟩ := h.value_of_slot hj
    exact hk (congrArg keyOf (Option.some.inj (hb.symm.trans ha)))

end WF

end SlotMap

/-! ## Records that update a map -/

section Updates

variable {Rec Key α : Type} [DecidableEq Key] {key : Rec → Key} {f : Rec → Option α → Option α}
  {rs rs' : List Rec} {m : Key → Option α} {k : Key}

/-- The map after the records `rs`, where `r` changes what is at `key r` by `f r`. -/
def updates (key : Rec → Key) (f : Rec → Option α → Option α) (rs : List Rec)
    (m : Key → Option α) : Key → Option α :=
  rs.foldl (fun m r => Function.update m (key r) (f r (m (key r)))) m

theorem updates_cons (r : Rec) : updates key f (r :: rs) m =
    updates key f rs (Function.update m (key r) (f r (m (key r)))) := rfl

theorem updates_append : updates key f (rs ++ rs') m = updates key f rs' (updates key f rs m) :=
  List.foldl_append

/-- Other keys keep their values. -/
theorem updates_of_notMem (h : k ∉ rs.map key) : updates key f rs m k = m k := by
  induction rs generalizing m with
  | nil => rfl
  | cons r rs ih =>
    rw [List.map_cons, List.mem_cons, not_or] at h
    rw [updates_cons, ih h.2, Function.update_of_ne h.1]

/-- A record whose key no other one has. -/
theorem updates_of_mem {r : Rec} (hdistinct : (rs.map key).Nodup) (hr : r ∈ rs) :
    updates key f rs m (key r) = f r (m (key r)) := by
  induction rs generalizing m with
  | nil => exact absurd hr List.not_mem_nil
  | cons r' rs ih =>
    rw [List.map_cons, List.nodup_cons] at hdistinct
    rw [updates_cons]
    rcases List.mem_cons.mp hr with rfl | hr
    · rw [updates_of_notMem hdistinct.1, Function.update_self]
    · have hne : key r ≠ key r' := fun heq =>
        hdistinct.1 (heq ▸ List.mem_map_of_mem hr)
      rw [ih hdistinct.2 hr, Function.update_of_ne hne]

end Updates

end ProgLogic
