import Alvs.Dp.Alone
import Alvs.Lib.Tally
import Mathlib.Data.FinEnum

/-!
# Counters of connection entries

The data plane keeps counters of each server that are to say how many entries are bound to it
(`ConnCounter`). While a function has counted an entry that is not stored yet, or removed one that
is still counted, the counter is ahead of the entries (`ConnCounter.Counts`).
-/

namespace Alvs

open ProgLogic

/-! ## Numbers of entries -/

/-- The entry is bound to server `j`. -/
def ConnInfoResult.BoundTo (c : ConnInfoResult) (j : UInt32) : Prop :=
  c.bound = true ∧ c.serverIndex = j

instance (c : ConnInfoResult) (j : UInt32) : Decidable (c.BoundTo j) :=
  inferInstanceAs (Decidable (_ ∧ _))

/-- 1 for an entry that meets `p`. -/
def entryWeight (p : ConnInfoResult → Bool) (c : Option ConnInfoResult) : Int :=
  if c.any p then 1 else 0

/-- The number of entries that meet `p`. -/
def Nps.entryCount (s : Nps) (p : ConnInfoResult → Bool) : Int := tally (entryWeight p) s.connInfo

section Counting

variable {s s' : Nps} {p : ConnInfoResult → Bool} {i : UInt32}

@[simp] theorem entryWeight_none (p : ConnInfoResult → Bool) : entryWeight p none = 0 := rfl

theorem entryWeight_some (p : ConnInfoResult → Bool) (c : ConnInfoResult) :
    entryWeight p (some c) = if p c = true then 1 else 0 := rfl

theorem entryWeight_nonneg (p : ConnInfoResult → Bool) (c : Option ConnInfoResult) :
    0 ≤ entryWeight p c := by
  unfold entryWeight
  split <;> decide

theorem entryWeight_le_one (p : ConnInfoResult → Bool) (c : Option ConnInfoResult) :
    entryWeight p c ≤ 1 := by
  unfold entryWeight
  split <;> decide

theorem Nps.entryCount_nonneg (s : Nps) (p : ConnInfoResult → Bool) : 0 ≤ s.entryCount p :=
  tally_nonneg fun _ => entryWeight_nonneg p _

theorem card_uint32 : Fintype.card UInt32 = 2 ^ 32 := by
  have e : UInt32 ≃ Fin (2 ^ 32) := ⟨UInt32.toFin, UInt32.ofFin, fun _ => rfl, fun _ => rfl⟩
  rw [Fintype.card_congr e, Fintype.card_fin]

theorem Nps.entryCount_lt (s : Nps) (p : ConnInfoResult → Bool) : s.entryCount p < 2 ^ 64 := by
  have hle : s.entryCount p ≤ Fintype.card UInt32 := tally_le_card fun _ => entryWeight_le_one p _
  rw [card_uint32] at hle
  exact lt_of_le_of_lt hle (by decide)

/-- An entry that meets `p` is counted. -/
theorem Nps.entryCount_pos {c : ConnInfoResult} (hc : s.connInfo i = some c) (hp : p c = true) :
    0 < s.entryCount p := by
  have hle : entryWeight p (s.connInfo i) ≤ s.entryCount p :=
    le_tally (fun _ => entryWeight_nonneg p _) i
  rw [hc, entryWeight_some, if_pos hp] at hle
  omega

/-- No entry meets `p`. -/
theorem Nps.entryCount_eq_zero (h : ∀ i c, s.connInfo i = some c → p c = false) :
    s.entryCount p = 0 := by
  refine tally_eq_zero fun i => ?_
  cases hc : s.connInfo i with
  | none => rfl
  | some c => rw [entryWeight_some, if_neg (Bool.eq_false_iff.mp (h i c hc))]

theorem Nps.entryCount_update {c : Option ConnInfoResult}
    (hs' : s'.connInfo = Function.update s.connInfo i c) :
    s'.entryCount p = s.entryCount p - entryWeight p (s.connInfo i) + entryWeight p c := by
  rw [Nps.entryCount, hs', tally_update]
  rfl

theorem Nps.entryCount_congr (hs' : s'.connInfo = s.connInfo) : s'.entryCount p =
    s.entryCount p := by
  rw [Nps.entryCount, hs', Nps.entryCount]

end Counting

/-! ## Counters -/

/-- A counter of each server, and the entries that it is to count. -/
structure ConnCounter where
  value : Nps → ServerInfoResult → Int
  counts : UInt32 → ConnInfoResult → Bool

namespace ConnCounter

/-- The counter of each server is `ahead` of the number of its entries. -/
def Counts (k : ConnCounter) (ahead : UInt32 → Int) (s : Nps) : Prop :=
  ∀ j info, s.serverInfo j = some info → k.value s info = s.entryCount (k.counts j) + ahead j

variable {k : ConnCounter} {ahead ahead' : UInt32 → Int} {s s' : Nps}

/-- A step that leaves the entries. -/
theorem Counts.congr (h : k.Counts ahead s) (hserver : s'.serverInfo = s.serverInfo)
    (hconn : s'.connInfo = s.connInfo)
    (hvalue : ∀ j info, s.serverInfo j = some info →
      k.value s' info - ahead' j = k.value s info - ahead j) : k.Counts ahead' s' := by
  intro j info hinfo
  rw [hserver] at hinfo
  have hs := h j info hinfo
  have hv := hvalue j info hinfo
  rw [Nps.entryCount_congr hconn]
  omega

/-- A step that replaces entry `i`. -/
theorem Counts.update (h : k.Counts ahead s) {i : UInt32} {c : Option ConnInfoResult}
    (hserver : s'.serverInfo = s.serverInfo) (hconn : s'.connInfo = Function.update s.connInfo i c)
    (hvalue : ∀ j info, s.serverInfo j = some info → k.value s' info - ahead' j =
      k.value s info - ahead j - entryWeight (k.counts j) (s.connInfo i) +
        entryWeight (k.counts j) c) : k.Counts ahead' s' := by
  intro j info hinfo
  rw [hserver] at hinfo
  have hs := h j info hinfo
  have hv := hvalue j info hinfo
  rw [Nps.entryCount_update hconn]
  omega

end ConnCounter

end Alvs
