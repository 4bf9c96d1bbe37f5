import Mathlib.Data.List.Sort
import Mathlib.Logic.Function.Basic

/-!
# Tables that answer with the first match

A table has an entry or none at each index, and answers a search with the matching entry of
the lowest index. `Lists t l` : the entries of the table are those of a list, without a gap.

An entry is inserted into such a table, or deleted from it, by single writes: the entries after
it move by one index each, so that one entry is there twice in between (`dup`). `find?_dup` :
that does not change any answer. The lemmas on `Lists` are the writes, one by one.

`IsLongest` is the answer that a search for the longest match expects. The first match is the
longest one if the entries are sorted by their length (`isLongest_find?`).
-/

namespace ProgLogic

variable {α : Type}

/-! ## The first match -/

/-- The entry that matches at the lowest of the first `size` indexes. -/
def firstMatch (m : α → Bool) (t : Nat → Option α) (size : Nat) : Option α :=
  (List.range size).findSome? fun i => (t i).filter m

/-- The entries of the table are those of `l`, from index 0 on. -/
def Lists (t : Nat → Option α) (l : List α) : Prop := ∀ i, t i = l[i]?

theorem Lists.firstMatch {m : α → Bool} : ∀ {l : List α} {t : Nat → Option α} {size : Nat},
    Lists t l → l.length ≤ size → firstMatch m t size = l.find? m
  | [], t, size, h, _ => by
    refine List.findSome?_eq_none_iff.mpr fun i _ => ?_
    rw [h i]
    rfl
  | x :: l, t, 0, _, hsize => absurd hsize (Nat.not_succ_le_zero _)
  | x :: l, t, size + 1, h, hsize => by
    have htail : Lists (fun i => t (i + 1)) l := fun i => h (i + 1)
    have hrest := htail.firstMatch (m := m) (Nat.le_of_succ_le_succ hsize)
    have hhead : t 0 = some x := h 0
    rw [ProgLogic.firstMatch] at hrest ⊢
    rw [List.range_succ_eq_map, List.findSome?_cons, hhead, List.find?_cons, List.findSome?_map]
    cases hm : m x with
    | true => rw [Option.filter_some_pos hm]
    | false =>
      rw [Option.filter_some_neg hm]
      exact hrest

/-- Where the keys are distinct, the first entry with a key is the only one. -/
theorem find?_of_nodup_map {β : Type} [DecidableEq β] {f : α → β} : ∀ {l : List α} {x : α},
    (l.map f).Nodup → x ∈ l → l.find? (fun y => f y = f x) = some x
  | [], _, _, hx => absurd hx List.not_mem_nil
  | y :: l, x, h, hx => by
    obtain ⟨hy, hl⟩ := List.nodup_cons.mp h
    rcases List.mem_cons.mp hx with rfl | hx
    · exact List.find?_cons_of_pos (decide_eq_true rfl)
    · rw [List.find?_cons_of_neg]
      · exact find?_of_nodup_map hl hx
      · rw [decide_eq_true_eq]
        exact fun heq => hy (heq ▸ List.mem_map_of_mem hx)

/-! ## An entry that is there twice -/

/-- The list with its element at `k` twice. -/
def dup (l : List α) (k : Nat) : List α := l.take (k + 1) ++ l.drop k

theorem getElem?_dup (l : List α) (k i : Nat) :
    (dup l k)[i]? = if i ≤ k then l[i]? else l[i - 1]? := by
  rw [dup]
  by_cases hk : k + 1 ≤ l.length
  · have hlen : (l.take (k + 1)).length = k + 1 := List.length_take_of_le hk
    split
    next hi => rw [List.getElem?_append_left (by omega), List.getElem?_take_of_lt (by omega)]
    next hi =>
      rw [List.getElem?_append_right (by omega), hlen, List.getElem?_drop]
      congr 1
      omega
  · rw [List.take_of_length_le (by omega), List.drop_eq_nil_of_le (by omega), List.append_nil]
    split
    next => rfl
    next hi => rw [List.getElem?_eq_none (by omega), List.getElem?_eq_none (by omega)]

theorem find?_dup (m : α → Bool) (l : List α) (k : Nat) : (dup l k).find? m = l.find? m := by
  rw [dup, List.find?_append]
  conv_rhs => rw [← List.take_append_drop (k + 1) l, List.find?_append]
  by_cases hk : k < l.length
  · rw [List.drop_eq_getElem_cons hk, List.find?_cons]
    cases hm : m l[k] with
    | false => rfl
    | true =>
      -- the copy is not the first match
      have hfound : (l.take (k + 1)).find? m ≠ none := by
        rw [Ne, List.find?_eq_none]
        intro hnone
        have hmem : l[k] ∈ l.take (k + 1) := by
          rw [List.take_succ_eq_append_getElem hk]
          exact List.mem_append_right _ List.mem_cons_self
        exact hnone _ hmem hm
      obtain ⟨x, hx⟩ := Option.ne_none_iff_exists'.mp hfound
      rw [hx]
      rfl
  · rw [List.drop_eq_nil_of_le (by omega), List.drop_eq_nil_of_le (by omega)]

theorem dup_length (l : List α) : dup l l.length = l := by
  rw [dup, List.drop_length, List.append_nil, List.take_of_length_le (Nat.le_succ _)]

/-! ## Writes -/

namespace Lists

variable {t : Nat → Option α} {l : List α} {k : Nat} {x : α}

/-- An entry is written one index up, over the copy of the next one. -/
theorem write_up (h : Lists t (dup l (k + 1))) (hx : l[k]? = some x) :
    Lists (Function.update t (k + 1) (some x)) (dup l k) := by
  intro i
  rw [Function.update_apply, getElem?_dup]
  split
  next hi =>
    rw [hi, if_neg (Nat.not_succ_le_self k), Nat.add_sub_cancel]
    exact hx.symm
  next hi =>
    rw [h i, getElem?_dup]
    by_cases hik : i ≤ k
    · rw [if_pos hik, if_pos (Nat.le_succ_of_le hik)]
    · rw [if_neg hik, if_neg (by omega)]

/-- The new entry is written over the copy of the one at its index. -/
theorem insert (h : Lists t (dup l k)) (hk : k ≤ l.length) :
    Lists (Function.update t k (some x)) (l.take k ++ x :: l.drop k) := by
  have hlen : (l.take k).length = k := List.length_take_of_le hk
  intro i
  rw [Function.update_apply]
  rcases Nat.lt_trichotomy i k with hi | hi | hi
  · rw [if_neg (Nat.ne_of_lt hi), h i, getElem?_dup, if_pos (Nat.le_of_lt hi),
      List.getElem?_append_left (hlen.symm ▸ hi), List.getElem?_take_of_lt hi]
  · rw [if_pos hi, hi, List.getElem?_append_right (Nat.le_of_eq hlen), hlen, Nat.sub_self]
    rfl
  · obtain ⟨j, rfl⟩ := Nat.exists_eq_add_of_lt hi
    rw [if_neg (Nat.ne_of_gt hi), h, getElem?_dup, if_neg (Nat.not_le.mpr hi),
      List.getElem?_append_right (by omega), hlen]
    have hindex : k + j + 1 - k = j + 1 := by omega
    rw [hindex, List.getElem?_cons_succ, List.getElem?_drop, Nat.add_sub_cancel]

/-- The entry after a deleted one is written over it. -/
theorem write_over (h : Lists t l) (hx : l[k + 1]? = some x) :
    Lists (Function.update t k (some x)) (dup (l.eraseIdx k) k) := by
  intro i
  rw [Function.update_apply, getElem?_dup, List.getElem?_eraseIdx, List.getElem?_eraseIdx]
  rcases Nat.lt_trichotomy i k with hi | hi | hi
  · rw [if_neg (Nat.ne_of_lt hi), if_pos (Nat.le_of_lt hi), if_pos hi, h i]
  · rw [if_pos hi, if_pos (Nat.le_of_eq hi), if_neg (by omega), hi, hx]
  · rw [if_neg (Nat.ne_of_gt hi), if_neg (Nat.not_le.mpr hi), if_neg (by omega), h i]
    congr 1
    omega

/-- An entry is written one index down, over the second copy of the one before. -/
theorem write_down (h : Lists t (dup l k)) (hx : l[k + 1]? = some x) :
    Lists (Function.update t (k + 1) (some x)) (dup l (k + 1)) := by
  intro i
  rw [Function.update_apply, getElem?_dup]
  split
  next hi => rw [hi, if_pos (Nat.le_refl _), hx]
  next hi =>
    rw [h i, getElem?_dup]
    by_cases hik : i ≤ k
    · rw [if_pos hik, if_pos (Nat.le_succ_of_le hik)]
    · rw [if_neg hik, if_neg (by omega)]

/-- The last entry is removed. -/
theorem pop (h : Lists t (l ++ [x])) : Lists (Function.update t l.length none) l := by
  intro i
  rw [Function.update_apply]
  split
  next hi => rw [hi, List.getElem?_eq_none (Nat.le_refl _)]
  next hi =>
    rw [h i]
    by_cases hlt : i < l.length
    · exact List.getElem?_append_left hlt
    · have hlen : (l ++ [x]).length ≤ i := by
        rw [List.length_append, List.length_singleton]
        omega
      rw [List.getElem?_eq_none hlen, List.getElem?_eq_none (Nat.not_lt.mp hlt)]

/-- An entry is written over the one at its index. -/
theorem set (h : Lists t l) (hk : k < l.length) :
    Lists (Function.update t k (some x)) (l.set k x) := by
  intro i
  rw [Function.update_apply]
  split
  next hi => rw [hi, List.getElem?_set_self hk]
  next hi => rw [List.getElem?_set_ne (Ne.symm hi), h i]

end Lists

/-- The last entry is there twice. -/
theorem dup_last {l : List α} {k : Nat} {x : α} (hx : l[k]? = some x) (hk : k + 1 = l.length) :
    dup l k = l ++ [x] := by
  have hlt : k < l.length := hk ▸ Nat.lt_succ_self k
  rw [List.getElem?_eq_getElem hlt] at hx
  rw [dup, List.take_of_length_le (Nat.le_of_eq hk.symm), List.drop_eq_getElem_cons hlt,
    Option.some.inj hx, hk, List.drop_length]

/-! ## The longest match -/

section Longest

variable {m : α → Bool} {len : α → Nat}

/-- The answer is an entry that matches, of the greatest length; it is none if no entry matches. -/
def IsLongest (len : α → Nat) (S : α → Prop) (m : α → Bool) : Option α → Prop
  | some x => S x ∧ m x = true ∧ ∀ y, S y → m y = true → len y ≤ len x
  | none => ∀ y, S y → m y = false

theorem isLongest_find? : ∀ {l : List α}, l.Pairwise (fun x y => len y ≤ len x) →
    IsLongest len (· ∈ l) m (l.find? m)
  | [], _ => fun _ h => absurd h List.not_mem_nil
  | x :: l, h => by
    obtain ⟨hx, hl⟩ := List.pairwise_cons.mp h
    have hrest := isLongest_find? hl
    cases hm : m x with
    | true =>
      rw [List.find?_cons_of_pos hm]
      refine ⟨List.mem_cons_self, hm, fun y hy _ => ?_⟩
      rcases List.mem_cons.mp hy with rfl | hy
      · exact Nat.le_refl _
      · exact hx y hy
    | false =>
      rw [List.find?_cons_of_neg (Bool.eq_false_iff.mp hm)]
      cases hfind : l.find? m with
      | none =>
        rw [hfind] at hrest
        intro y hy
        rcases List.mem_cons.mp hy with rfl | hy
        · exact hm
        · exact hrest y hy
      | some z =>
        rw [hfind] at hrest
        refine ⟨List.mem_cons_of_mem _ hrest.1, hrest.2.1, fun y hy hmy => ?_⟩
        rcases List.mem_cons.mp hy with rfl | hy
        · rw [hm] at hmy
          cases hmy
        · exact hrest.2.2 y hy hmy

theorem IsLongest.congr {S S' : α → Prop} {m' : α → Bool} (hS : ∀ x, S x ↔ S' x)
    (hm : ∀ x, S x → m x = m' x) : ∀ {r : Option α}, IsLongest len S m r → IsLongest len S' m' r
  | none, h => fun y hy => (hm y ((hS y).mpr hy)).symm.trans (h y ((hS y).mpr hy))
  | some x, h => ⟨(hS x).mp h.1, (hm x h.1).symm.trans h.2.1, fun y hy hmy =>
    h.2.2 y ((hS y).mpr hy) ((hm y ((hS y).mpr hy)).trans hmy)⟩

end Longest

end ProgLogic
