import Mathlib.Algebra.BigOperators.Group.Finset.Basic
import Mathlib.Algebra.Order.BigOperators.Group.Finset
import Mathlib.Algebra.Ring.Nat
import Mathlib.Order.Interval.Finset.Nat

/-!
# Places shared out by weight

Two ways to give a number of places to items with weights. `LargestFirst` gives each place
to the first item with the largest weight left, and takes one off that weight.
`LargestFirst.count_eq` : where the places suffice, each item gets as many as its weight.
`LargestFirst.mem_iff` : where they may not, an item gets one if and only if fewer places
go to what precedes it.

`LargestFirst.eq_take_levels` : the places go level by level, from the largest weight down, to
the items whose weight reaches the level.

`blocks` gives each item as many places in a row as its weight. `window_perm` : consecutive
numbers modulo their number are each place once.
-/

namespace ProgLogic

/-! ## Levels -/

section Levels

variable {ι : Type*} {xs : List ι} {w w' : ι → ℕ}

/-- Level by level, from `top` down to 1, the items whose weight reaches the level. -/
def levels (xs : List ι) (w : ι → ℕ) : ℕ → List ι
  | 0 => []
  | t + 1 => xs.filter (t + 1 ≤ w ·) ++ levels xs w t

theorem levels_congr : ∀ {t : ℕ},
    (∀ u, 0 < u → u ≤ t → ∀ j ∈ xs, (u ≤ w j ↔ u ≤ w' j)) → levels xs w t = levels xs w' t
  | 0, _ => rfl
  | t + 1, h => by
    have hrest : levels xs w t = levels xs w' t :=
      levels_congr fun u hpos hu => h u hpos (Nat.le_succ_of_le hu)
    rw [levels, levels, hrest]
    congr 1
    refine List.filter_congr fun j hj => ?_
    exact decide_eq_decide.mpr (h (t + 1) t.succ_pos (Nat.le_refl _) j hj)

theorem levels_eq_nil {t : ℕ} (h : ∀ j ∈ xs, w j = 0) : levels xs w t = [] := by
  induction t with
  | zero => rfl
  | succ t ih =>
    rw [levels, ih, List.append_nil, List.filter_eq_nil_iff]
    intro j hj
    rw [h j hj, decide_eq_true_eq]
    exact Nat.not_succ_le_zero t

end Levels

/-! ## The largest first -/

section LargestFirst

variable {ι : Type*} [LinearOrder ι] {s : Finset ι} {w : ι → ℕ} {i : ι} {n : ℕ} {l : List ι}

/-- The first of the items with the largest weight, which is not 0. -/
structure FirstLargest (s : Finset ι) (w : ι → ℕ) (i : ι) : Prop where
  mem : i ∈ s
  pos : 0 < w i
  le : ∀ j ∈ s, w j ≤ w i
  first : ∀ j ∈ s, j < i → w j < w i

/-- The weights once item `i` has got a place. -/
def spend (w : ι → ℕ) (i : ι) : ι → ℕ := Function.update w i (w i - 1)

/-- The items that get `n` places, place by place; fewer where all weights are spent. -/
inductive LargestFirst (s : Finset ι) : ℕ → (ι → ℕ) → List ι → Prop
  | full (w : ι → ℕ) : LargestFirst s 0 w []
  | spent {n : ℕ} {w : ι → ℕ} (h : ∀ i ∈ s, w i = 0) : LargestFirst s (n + 1) w []
  | place {n : ℕ} {w : ι → ℕ} {i : ι} {l : List ι} (h : FirstLargest s w i)
      (hl : LargestFirst s n (spend w i) l) : LargestFirst s (n + 1) w (i :: l)

@[simp] theorem spend_self : spend w i i = w i - 1 := Function.update_self i _ w

theorem spend_of_ne {j : ι} (h : j ≠ i) : spend w i j = w j := Function.update_of_ne h _ w

theorem sum_spend (h : i ∈ s) (hpos : 0 < w i) : ∑ j ∈ s, spend w i j + 1 = ∑ j ∈ s, w j := by
  have hrest : ∑ j ∈ s.erase i, spend w i j = ∑ j ∈ s.erase i, w j :=
    Finset.sum_congr rfl fun j hj => spend_of_ne (Finset.ne_of_mem_erase hj)
  rw [← Finset.add_sum_erase s _ h, ← Finset.add_sum_erase s w h, hrest, spend_self]
  omega

namespace LargestFirst

theorem subset (h : LargestFirst s n w l) : ∀ i ∈ l, i ∈ s := by
  induction h with
  | full w => exact fun _ hi => absurd hi List.not_mem_nil
  | spent h => exact fun _ hi => absurd hi List.not_mem_nil
  | place h _ ih =>
    intro j hj
    obtain rfl | hj := List.mem_cons.mp hj
    · exact h.mem
    · exact ih j hj

/-- Places are left over only where all weights are spent. -/
theorem length_eq (h : LargestFirst s n w l) : l.length = min n (∑ i ∈ s, w i) := by
  induction h with
  | full w => simp
  | spent h => rw [Finset.sum_eq_zero h]; simp
  | place h _ ih =>
    have hsum := sum_spend h.mem h.pos
    rw [List.length_cons, ih]
    omega

/-- With places for all, each item gets as many as its weight. -/
theorem count_eq (h : LargestFirst s n w l) (hn : ∑ i ∈ s, w i ≤ n) :
    ∀ i ∈ s, l.count i = w i := by
  induction h with
  | full w =>
    intro i hi
    have hzero := Finset.sum_eq_zero_iff.mp (Nat.le_zero.mp hn) i hi
    rw [hzero, List.count_nil]
  | spent h => exact fun i hi => by rw [h i hi, List.count_nil]
  | @place n w i l h _ ih =>
    intro j hj
    have hsum := sum_spend h.mem h.pos
    have hcount := ih (by omega) j hj
    by_cases hji : j = i
    · subst hji
      have hpos := h.pos
      rw [List.count_cons_self, hcount, spend_self]
      omega
    · rw [List.count_cons_of_ne (Ne.symm hji), hcount, spend_of_ne hji]

/-- The places that item `j` gets before item `i` gets its first : what its weight exceeds
that of `i` by, and one more where it comes first and has no smaller weight. -/
def precedes (w : ι → ℕ) (i j : ι) : ℕ := w j - w i + if j < i ∧ w i ≤ w j then 1 else 0

/-- The places that go to other items before item `i` gets its first. -/
def before (s : Finset ι) (w : ι → ℕ) (i : ι) : ℕ := ∑ j ∈ s, precedes w i j

theorem before_first (h : FirstLargest s w i) : before s w i = 0 := by
  refine Finset.sum_eq_zero fun j hj => ?_
  have hle := h.le j hj
  unfold precedes
  split
  next hji => exact absurd hji.2 (Nat.not_le.mpr (h.first j hj hji.1))
  next => omega

/-- A place that goes to another item is one fewer before item `i` gets its first. -/
theorem before_spend {m : ι} (h : FirstLargest s w m) (hmi : i ≠ m) (hi : i ∈ s)
    (hpos : 0 < w i) : before s (spend w m) i + 1 = before s w i := by
  have hrest : ∑ j ∈ s.erase m, precedes (spend w m) i j = ∑ j ∈ s.erase m, precedes w i j :=
    Finset.sum_congr rfl fun j hj => by
      rw [precedes, precedes, spend_of_ne (Finset.ne_of_mem_erase hj), spend_of_ne hmi]
  have hle := h.le i hi
  rw [before, before, ← Finset.add_sum_erase s _ h.mem, ← Finset.add_sum_erase s _ h.mem, hrest,
    precedes, precedes, spend_self, spend_of_ne hmi]
  -- the largest weight is above that of `i`, or `m` comes first
  obtain hlt | heq := Nat.lt_or_eq_of_le hle
  · have hle' : w i ≤ w m - 1 := by omega
    simp only [hle, hle', and_true]
    omega
  · have hm : m < i := (lt_or_gt_of_ne hmi.symm).resolve_right fun hlt =>
      absurd (h.first i hi hlt) (by omega)
    rw [if_neg (by omega), if_pos ⟨hm, hle⟩]
    omega

/-- An item gets a place if and only if fewer go to what precedes it. -/
theorem mem_iff (h : LargestFirst s n w l) :
    ∀ i ∈ s, (i ∈ l ↔ 0 < w i ∧ before s w i < n) := by
  induction h with
  | full w => simp
  | spent h => exact fun i hi => by simp [h i hi]
  | @place n w m l h _ ih =>
    intro i hi
    by_cases him : i = m
    · subst him
      rw [before_first h]
      exact ⟨fun _ => ⟨h.pos, Nat.zero_lt_succ n⟩, fun _ => List.mem_cons_self⟩
    · rw [List.mem_cons, ih i hi, spend_of_ne him]
      constructor
      · rintro (heq | ⟨hpos, hlt⟩)
        · exact absurd heq him
        · have hb := before_spend h him hi hpos
          exact ⟨hpos, by omega⟩
      · rintro ⟨hpos, hlt⟩
        have hb := before_spend h him hi hpos
        exact .inr ⟨hpos, by omega⟩

end LargestFirst

/-- The first item with the largest weight is the first of the levels. -/
theorem levels_eq_cons {xs : List ι} (hxs : xs.Pairwise (· < ·))
    (h : FirstLargest xs.toFinset w i) : ∀ {top : ℕ},
    (∀ j ∈ xs, w j ≤ top) → levels xs w top = i :: levels xs (spend w i) top
  | 0, htop => absurd (htop i (List.mem_toFinset.mp h.mem)) (Nat.not_le.mpr h.pos)
  | t + 1, htop => by
    have hi : i ∈ xs := List.mem_toFinset.mp h.mem
    rcases Nat.lt_or_eq_of_le (htop i hi) with hlt | heq
    · -- no weight reaches the highest level
      have hmax : ∀ j ∈ xs, w j ≤ t := fun j hj =>
        (h.le j (List.mem_toFinset.mpr hj)).trans (Nat.le_of_lt_succ hlt)
      have hempty : xs.filter (t + 1 ≤ w ·) = [] := List.filter_eq_nil_iff.mpr fun j hj => by
        rw [decide_eq_true_eq]
        exact Nat.not_le.mpr (Nat.lt_succ_of_le (hmax j hj))
      have hempty' : xs.filter (t + 1 ≤ spend w i ·) = [] :=
        List.filter_eq_nil_iff.mpr fun j hj => by
          have hj' := hmax j hj
          rw [decide_eq_true_eq]
          by_cases hji : j = i
          · rw [hji, spend_self]
            omega
          · rw [spend_of_ne hji]
            omega
      rw [levels, levels, hempty, hempty', List.nil_append, List.nil_append]
      exact levels_eq_cons hxs h hmax
    · obtain ⟨pre, post, rfl⟩ := List.append_of_mem hi
      obtain ⟨-, hpost, hpre⟩ := List.pairwise_append.mp hxs
      have hfirst : ∀ j ∈ pre, w j < t + 1 := fun j hj =>
        heq ▸ h.first j (by simp [hj]) (hpre j hj i List.mem_cons_self)
      have hne : ∀ j ∈ pre ++ post, j ≠ i := fun j hj => by
        rcases List.mem_append.mp hj with hj | hj
        · exact (hpre j hj i List.mem_cons_self).ne
        · exact ((List.pairwise_cons.mp hpost).1 j hj).ne'
      have hlower : levels (pre ++ i :: post) (spend w i) t = levels (pre ++ i :: post) w t := by
        refine levels_congr fun u _ hu j _ => ?_
        by_cases hji : j = i
        · rw [hji, spend_self]
          omega
        · rw [spend_of_ne hji]
      have hpreEmpty : ∀ w' : ι → ℕ, (∀ j ∈ pre, w' j = w j) → pre.filter (t + 1 ≤ w' ·) = [] :=
        fun w' hw' => List.filter_eq_nil_iff.mpr fun j hj => by
          rw [decide_eq_true_eq, hw' j hj]
          exact Nat.not_le.mpr (hfirst j hj)
      have hspendPre : ∀ j ∈ pre, spend w i j = w j := fun j hj =>
        spend_of_ne (hne j (List.mem_append_left post hj))
      have hspendPost : post.filter (t + 1 ≤ spend w i ·) = post.filter (t + 1 ≤ w ·) :=
        List.filter_congr fun j hj => by rw [spend_of_ne (hne j (List.mem_append_right pre hj))]
      have hhead : (i :: post).filter (t + 1 ≤ w ·) = i :: post.filter (t + 1 ≤ w ·) :=
        List.filter_cons_of_pos (decide_eq_true heq.ge)
      have hhead' : (i :: post).filter (t + 1 ≤ spend w i ·) = post.filter (t + 1 ≤ w ·) := by
        have hspent : ¬ decide (t + 1 ≤ spend w i i) = true := by
          rw [spend_self, decide_eq_true_eq]
          omega
        exact (List.filter_cons_of_neg (p := fun j => t + 1 ≤ spend w i j) hspent).trans hspendPost
      rw [levels, levels, hlower, List.filter_append, List.filter_append,
        hpreEmpty w (fun _ _ => rfl), hpreEmpty _ hspendPre, hhead, hhead']
      rfl

/-- The places go level by level. -/
theorem LargestFirst.eq_take_levels {xs : List ι} (hxs : xs.Pairwise (· < ·)) {top : ℕ}
    (h : LargestFirst xs.toFinset n w l) (htop : ∀ j ∈ xs, w j ≤ top) :
    l = (levels xs w top).take n := by
  generalize hs : xs.toFinset = s at h
  induction h with
  | full w => rfl
  | spent h =>
    subst hs
    rw [levels_eq_nil fun j hj => h j (List.mem_toFinset.mpr hj), List.take_nil]
  | @place n w i l h _ ih =>
    subst hs
    have htop' : ∀ j ∈ xs, spend w i j ≤ top := fun j hj => by
      by_cases hji : j = i
      · rw [hji, spend_self]
        exact (Nat.sub_le _ _).trans (htop i (List.mem_toFinset.mp h.mem))
      · rw [spend_of_ne hji]
        exact htop j hj
    rw [levels_eq_cons hxs h htop, List.take_succ_cons, ih htop']

end LargestFirst

/-! ## Blocks -/

section Blocks

variable {α : Type*} {w : α → ℕ} {x : α}

/-- Each item as many times in a row as its weight. -/
def blocks (w : α → ℕ) (l : List α) : List α := l.flatMap fun x => List.replicate (w x) x

@[simp] theorem blocks_nil (w : α → ℕ) : blocks w [] = [] := rfl

@[simp] theorem blocks_cons (w : α → ℕ) (x : α) (l : List α) :
    blocks w (x :: l) = List.replicate (w x) x ++ blocks w l := rfl

theorem length_blocks (w : α → ℕ) : ∀ l : List α, (blocks w l).length = (l.map w).sum
  | [] => rfl
  | x :: l => by simp [length_blocks w l]

theorem blocks_append (w : α → ℕ) (l l' : List α) : blocks w (l ++ l') =
    blocks w l ++ blocks w l' :=
  List.flatMap_append

theorem mem_of_mem_blocks {l : List α} (h : x ∈ blocks w l) : x ∈ l := by
  obtain ⟨y, hy, hx⟩ := List.mem_flatMap.mp h
  rw [List.eq_of_mem_replicate hx]
  exact hy

/-- The first occurrence of an item is among the first `n` places if and only if the items
before it have fewer. -/
theorem mem_take_blocks {pre post : List α} (hpos : 0 < w x) (hx : x ∉ pre) (n : ℕ) :
    x ∈ (blocks w (pre ++ x :: post)).take n ↔ (pre.map w).sum < n := by
  rw [blocks_append, blocks_cons, List.take_append, List.mem_append, length_blocks]
  constructor
  · rintro (hmem | hmem)
    · exact absurd (mem_of_mem_blocks (List.mem_of_mem_take hmem)) hx
    · have hlen := List.length_pos_of_mem hmem
      rw [List.length_take] at hlen
      omega
  · intro hlt
    obtain ⟨k, hk⟩ := Nat.exists_eq_add_of_lt hlt
    obtain ⟨m, hm⟩ := Nat.exists_eq_add_of_lt hpos
    right
    rw [hm, Nat.zero_add, List.replicate_succ, hk, show (pre.map w).sum + k + 1 -
      (pre.map w).sum = k + 1 by omega]
    exact List.mem_cons_self

end Blocks

/-! ## Windows -/

/-- Any `n` consecutive numbers have each remainder modulo `n` once. -/
theorem window_perm (a n : ℕ) : ((List.range' a n).map (· % n)).Perm (List.range n) := by
  have h := Nat.multiset_Ico_map_mod a n
  rw [show Multiset.Ico a (a + n) = ↑(List.range' a n) by
    rw [Multiset.Ico, Nat.Ico_eq_range', Nat.add_sub_cancel_left]] at h
  exact Multiset.coe_eq_coe.mp h

end ProgLogic
