import Alvs.Cp.Spec
import Alvs.Lib.Shares

/-!
# What the buckets hold

The loops of the three algorithms as shares of the 256 entries (`Alvs.Lib.Shares`). The
weights are divided by their greatest common divisor (`reduceWeights_eq`), weighted round
robin draws the first server with the largest weight left (`wrrFillBuckets_eq`), source
hash gives each server a block of entries and begins again after the last one
(`shFillBuckets_eq`).
-/

namespace Alvs

open ProgLogic

/-! ## The greatest common divisor -/

theorem alvsDbGcd_toNat (num1 num2 : UInt16) (h : num2 ≠ 0) :
    (alvsDbGcd num1 num2).toNat = Nat.gcd num1.toNat num2.toNat := by
  induction num1, num2 using alvsDbGcd.induct with
  | case1 num1 num2 hstop =>
    have hdvd : num2.toNat ∣ num1.toNat := by
      have hmod := congrArg UInt16.toNat (hstop.resolve_right h)
      rw [UInt16.toNat_mod] at hmod
      exact Nat.dvd_of_mod_eq_zero hmod
    rw [alvsDbGcd, dif_pos hstop, Nat.gcd_eq_right hdvd]
  | case2 num1 num2 hgo ih =>
    rw [alvsDbGcd, dif_neg hgo, ih fun h0 => hgo (.inl h0), UInt16.toNat_mod,
      Nat.gcd_comm num2.toNat, ← Nat.gcd_rec, Nat.gcd_comm]

/-- The greatest common divisor of the weights of a list. -/
def weightGcd (l : List DbServer) : Nat := (l.map (·.weight.toNat)).foldr Nat.gcd 0

@[simp] theorem weightGcd_cons (s : DbServer) (l : List DbServer) :
    weightGcd (s :: l) = Nat.gcd s.weight.toNat (weightGcd l) := rfl

theorem cyclicNode_lt {α : Type} {l : List α} {i : Nat} (h : i < l.length) :
    cyclicNode l i = some l[i] := by
  rw [cyclicNode, Nat.mod_eq_of_lt h, List.getElem?_eq_getElem h]

/-- The loop stops early where the greatest common divisor is 1. -/
theorem gcdLoop_spec {l : List DbServer} (hpos : ∀ s ∈ l, s.weight ≠ 0) :
    ∀ (m i : Nat) (gcd : UInt16), i + m = l.length →
    (gcdLoop l (List.range' i m) gcd).elim 1 UInt16.toNat =
      Nat.gcd gcd.toNat (weightGcd (l.drop i))
  | 0, i, gcd, h => by
    rw [List.drop_of_length_le (by omega)]
    simp [gcdLoop, weightGcd]
  | m + 1, i, gcd, h => by
    have hi : i < l.length := by omega
    have hgcd := alvsDbGcd_toNat gcd l[i].weight (hpos _ (List.getElem_mem hi))
    rw [List.range'_succ, gcdLoop, cyclicNode_lt hi, List.drop_eq_getElem_cons hi, weightGcd_cons,
      ← Nat.gcd_assoc, ← hgcd]
    simp only []
    split
    next hone =>
      rw [hone]
      exact (Nat.gcd_one_left _).symm
    next => exact gcdLoop_spec hpos m (i + 1) _ (by omega)

/-! ## Divided weights -/

/-- Nodes of a cyclic list are changed once for each index that leads to them. -/
theorem foldl_modify_getElem? {α : Type} (f : α → α) : ∀ (inds : List Nat) (l : List α) (k : Nat),
    (inds.foldl (fun list i => list.modify (i % list.length) f) l)[k]? =
      l[k]?.map f^[(inds.map (· % l.length)).count k]
  | [], l, k => by simp
  | i :: inds, l, k => by
    rw [List.foldl_cons, foldl_modify_getElem? f inds, List.length_modify, List.map_cons]
    by_cases hk : i % l.length = k
    · rw [hk, List.count_cons_self, List.getElem?_modify_eq, Function.iterate_succ]
      cases l[k]? <;> rfl
    · rw [List.count_cons_of_ne hk, List.getElem?_modify_ne f l hk]

/-- The dividing loop changes every node once, wherever it starts. -/
theorem foldl_modify_all {α : Type} (f : α → α) (l : List α) (start : Nat) :
    (List.range' start l.length).foldl (fun list i => list.modify (i % list.length) f) l =
      l.map f := by
  ext1 k
  rw [foldl_modify_getElem?, (window_perm start l.length).count_eq, List.getElem?_map]
  by_cases hk : k < l.length
  · rw [List.count_eq_one_of_mem List.nodup_range (List.mem_range.mpr hk), Function.iterate_one]
  · rw [List.getElem?_eq_none (by omega)]
    rfl

theorem weightGcd_pos {s : DbServer} {l : List DbServer} (h : s.weight ≠ 0) :
    0 < weightGcd (s :: l) :=
  Nat.gcd_pos_of_pos_left _ (Nat.pos_of_ne_zero fun h0 => h (UInt16.toNat_inj.mp h0))

/-- All weights are divided by their greatest common divisor. -/
theorem reduceWeights_eq {l : List DbServer} (hpos : ∀ s ∈ l, s.weight ≠ 0) :
    ∃ gcd : UInt16, gcd.toNat = weightGcd l ∧
      alvsDbReduceWeights l l.length = l.map fun s => s.withWeight (s.weight / gcd) := by
  cases l with
  | nil => exact ⟨0, rfl, rfl⟩
  | cons s l =>
    have hspec := gcdLoop_spec hpos l.length 1 s.weight (by rw [List.length_cons]; omega)
    rw [List.drop_one, List.tail_cons, ← weightGcd_cons] at hspec
    simp only [alvsDbReduceWeights, List.head?_cons, List.length_cons, Nat.add_sub_cancel]
    cases hloop : gcdLoop (s :: l) (List.range' 1 l.length) s.weight with
    | none =>
      rw [hloop] at hspec
      refine ⟨1, hspec, ?_⟩
      rw [List.map_congr_left (g := id) fun s _ => ?_, List.map_id]
      simp [DbServer.withWeight]
    | some gcd =>
      rw [hloop] at hspec
      exact ⟨gcd, hspec, foldl_modify_all _ (s :: l) l.length⟩

theorem weightGcd_dvd {l : List DbServer} {s : DbServer} (h : s ∈ l) :
    weightGcd l ∣ s.weight.toNat := by
  induction l with
  | nil => cases h
  | cons s' l ih =>
    obtain rfl | h := List.mem_cons.mp h
    · exact Nat.gcd_dvd_left _ _
    · exact (Nat.gcd_dvd_right _ _).trans (ih h)

/-- A weight that is not 0 is not 0 divided. -/
theorem div_weightGcd_pos {l : List DbServer} {s : DbServer} (h : s ∈ l) (hpos : s.weight ≠ 0) :
    0 < s.weight.toNat / weightGcd l := by
  have hweight : 0 < s.weight.toNat := Nat.pos_of_ne_zero fun h0 => hpos (UInt16.toNat_inj.mp h0)
  exact Nat.div_pos (Nat.le_of_dvd hweight (weightGcd_dvd h))
    (Nat.pos_of_dvd_of_pos (weightGcd_dvd h) hweight)

/-! ## Weighted round robin -/

/-- The weight at a position of a list, 0 behind its end. -/
def weightAt (l : List DbServer) (i : Nat) : Nat := l[i]?.elim 0 fun s => s.weight.toNat

theorem weightAt_lt {l : List DbServer} {i : Nat} (h : i < l.length) :
    weightAt l i = l[i].weight.toNat := by
  rw [weightAt, List.getElem?_eq_getElem h, Option.elim_some]

/-- One round of the search for the largest weight. -/
def maxRound (l : List DbServer) (m : Option Nat × UInt16) (ind : Nat) : Option Nat × UInt16 :=
  match cyclicNode l ind with
  | none => m
  | some server =>
    if server.weight > m.2 then (some (ind % l.length), server.weight) else m

/-- After `n` rounds the search holds the first node with the largest weight of `n`. -/
theorem maxRounds (l : List DbServer) : ∀ {n : Nat}, n ≤ l.length →
    ((List.range n).foldl (maxRound l) (none, 0) = (none, 0) ∧ ∀ j < n, weightAt l j = 0) ∨
    ∃ i w, (List.range n).foldl (maxRound l) (none, 0) = (some i, w) ∧
      w.toNat = weightAt l i ∧ FirstLargest (Finset.range n) (weightAt l) i
  | 0, _ => .inl ⟨rfl, fun j hj => absurd hj (Nat.not_lt_zero j)⟩
  | n + 1, h => by
    have hn : n < l.length := h
    have hweight := weightAt_lt hn
    have hround : ∀ m, maxRound l m n = if l[n].weight > m.2 then (some n, l[n].weight) else m :=
      fun m => by rw [maxRound, cyclicNode_lt hn, Nat.mod_eq_of_lt hn]
    rw [List.range_succ, List.foldl_append, List.foldl_cons, List.foldl_nil, hround]
    obtain ⟨hfold, hzero⟩ | ⟨i, w, hfold, hw, hi⟩ := maxRounds l (Nat.le_of_succ_le h)
    · rw [hfold]
      split
      next hgt =>
        have hpos : 0 < weightAt l n := hweight ▸ hgt
        refine .inr ⟨n, _, rfl, hweight.symm, Finset.self_mem_range_succ n, hpos, ?_, ?_⟩
        · intro j hj
          obtain hlt | rfl := Nat.lt_succ_iff_lt_or_eq.mp (Finset.mem_range.mp hj)
          · exact hzero j hlt ▸ Nat.zero_le _
          · exact le_rfl
        · exact fun j _ hlt => hzero j hlt ▸ hpos
      next hle =>
        refine .inl ⟨rfl, fun j hj => ?_⟩
        obtain hlt | rfl := Nat.lt_succ_iff_lt_or_eq.mp hj
        · exact hzero j hlt
        · rw [hweight]
          exact Nat.eq_zero_of_not_pos hle
    · have hin := Finset.mem_range.mp hi.mem
      rw [hfold]
      split
      next hgt =>
        have hlt : weightAt l i < weightAt l n := by
          rw [← hw, hweight]
          exact hgt
        refine .inr ⟨n, _, rfl, hweight.symm, Finset.self_mem_range_succ n, by omega, ?_, ?_⟩
        · intro j hj
          obtain hjn | rfl := Nat.lt_succ_iff_lt_or_eq.mp (Finset.mem_range.mp hj)
          · exact (hi.le j (Finset.mem_range.mpr hjn)).trans hlt.le
          · exact le_rfl
        · exact fun j _ hjn => (hi.le j (Finset.mem_range.mpr hjn)).trans_lt hlt
      next hle =>
        have hle : weightAt l n ≤ weightAt l i := by
          rw [← hw, hweight]
          exact Nat.le_of_not_lt hle
        refine .inr ⟨i, w, rfl, hw, Finset.mem_range.mpr (by omega), hi.pos, ?_, ?_⟩
        · intro j hj
          obtain hjn | rfl := Nat.lt_succ_iff_lt_or_eq.mp (Finset.mem_range.mp hj)
          · exact hi.le j (Finset.mem_range.mpr hjn)
          · exact hle
        · exact fun j _ hji => hi.first j (Finset.mem_range.mpr (hji.trans hin)) hji

theorem getMaxWeightServer_spec (l : List DbServer) :
    (alvsDbGetMaxWeightServer l l.length = none ∧ ∀ j < l.length, weightAt l j = 0) ∨
    ∃ i, alvsDbGetMaxWeightServer l l.length = some i ∧
      FirstLargest (Finset.range l.length) (weightAt l) i := by
  have hfold : alvsDbGetMaxWeightServer l l.length =
    ((List.range l.length).foldl (maxRound l) (none, 0)).1 := rfl
  rw [hfold]
  obtain ⟨hnone, hzero⟩ | ⟨i, w, hsome, -, hi⟩ := maxRounds l le_rfl
  · exact .inl ⟨by rw [hnone], hzero⟩
  · exact .inr ⟨i, by rw [hsome], hi⟩

/-- The server at a position with one taken off its weight. -/
theorem weightAt_modify {l : List DbServer} {i : Nat} (hpos : 0 < weightAt l i) :
    weightAt (l.modify i fun s => s.withWeight (s.weight - 1)) = spend (weightAt l) i := by
  ext j
  by_cases hj : j = i
  · subst hj
    have hlt : j < l.length := by
      by_contra hge
      rw [weightAt, List.getElem?_eq_none (by omega)] at hpos
      cases hpos
    rw [weightAt_lt hlt] at hpos
    have hle : (1 : UInt16) ≤ l[j].weight := UInt16.le_iff_toNat_le.mpr hpos
    rw [spend_self, weightAt, List.getElem?_modify_eq, List.getElem?_eq_getElem hlt,
      weightAt_lt hlt]
    exact UInt16.toNat_sub_of_le _ _ hle
  · rw [spend_of_ne hj, weightAt, List.getElem?_modify_ne _ _ (Ne.symm hj), weightAt]

/-- The entries of the bucket, without their weights, by the positions of their servers. -/
theorem wrrLoop_nodes : ∀ (n : Nat) (l : List DbServer), ∃ ps,
    LargestFirst (Finset.range l.length) n (weightAt l) ps ∧
    (wrrLoop l.length n l).map (fun s => some (s.withWeight 0)) =
      ps.map fun i => l[i]?.map (·.withWeight 0)
  | 0, l => ⟨[], .full _, rfl⟩
  | n + 1, l => by
    obtain ⟨hnone, hzero⟩ | ⟨i, hsome, hi⟩ := getMaxWeightServer_spec l
    · refine ⟨[], .spent fun j hj => hzero j (Finset.mem_range.mp hj), ?_⟩
      rw [wrrLoop, hnone]
      rfl
    · have hlt := Finset.mem_range.mp hi.mem
      obtain ⟨ps, hps, hmap⟩ := wrrLoop_nodes n
        (l.modify i fun s => s.withWeight (s.weight - 1))
      rw [List.length_modify, weightAt_modify hi.pos] at hps
      refine ⟨i :: ps, .place hi hps, ?_⟩
      simp only [wrrLoop, hsome, List.getElem?_eq_getElem hlt, List.map_cons, Option.map_some]
      rw [List.length_modify] at hmap
      rw [hmap]
      congr 1
      refine List.map_congr_left fun j _ => ?_
      by_cases hj : j = i
      · subst hj
        rw [List.getElem?_modify_eq]
        cases l[j]? <;> rfl
      · rw [List.getElem?_modify_ne _ _ (Ne.symm hj)]

/-- The bucket of weighted round robin, by the positions of its servers. -/
theorem wrrLoop_largestFirst (n : Nat) (l : List DbServer) : ∃ ps,
    LargestFirst (Finset.range l.length) n (weightAt l) ps ∧
    (wrrLoop l.length n l).map (fun s => some s.npsIndex) =
      ps.map fun i => l[i]?.map (·.npsIndex) := by
  obtain ⟨ps, hps, hmap⟩ := wrrLoop_nodes n l
  refine ⟨ps, hps, ?_⟩
  have hindexes := congrArg (List.map (Option.map (·.npsIndex))) hmap
  simp only [List.map_map, Function.comp_def, Option.map_some, Option.map_map] at hindexes
  exact hindexes

/-- The weights of a list divided by their greatest common divisor, by position. -/
def reducedAt (l : List DbServer) (i : Nat) : Nat := weightAt l i / weightGcd l

theorem weightAt_divided {l : List DbServer} {gcd : UInt16} (hgcd : gcd.toNat = weightGcd l) :
    weightAt (l.map fun s => s.withWeight (s.weight / gcd)) = reducedAt l := by
  ext i
  rw [weightAt, List.getElem?_map, reducedAt, weightAt]
  cases l[i]? with
  | none => simp
  | some s => simp [DbServer.withWeight, hgcd]

theorem reducedAt_pos {l : List DbServer} (hpos : ∀ s ∈ l, s.weight ≠ 0) {i : Nat}
    (hi : i < l.length) : 0 < reducedAt l i := by
  have hmem := List.getElem_mem hi
  rw [reducedAt, weightAt_lt hi]
  exact div_weightGcd_pos hmem (hpos _ hmem)

theorem wrrFillBuckets_eq {l : List DbServer} (hpos : ∀ s ∈ l, s.weight ≠ 0) : ∃ ps,
    LargestFirst (Finset.range l.length) alvsSizeOfSchedBucket (reducedAt l) ps ∧
    (alvsDbWrrFillBuckets (alvsDbReduceWeights l l.length) l.length).map
      (fun s => some s.npsIndex) = ps.map fun i => l[i]?.map (·.npsIndex) := by
  obtain ⟨gcd, hgcd, hreduce⟩ := reduceWeights_eq hpos
  obtain ⟨ps, hps, hmap⟩ := wrrLoop_largestFirst alvsSizeOfSchedBucket
    (l.map fun s => s.withWeight (s.weight / gcd))
  rw [List.length_map, weightAt_divided hgcd] at hps
  rw [List.length_map] at hmap
  refine ⟨ps, hps, ?_⟩
  rw [hreduce, alvsDbWrrFillBuckets, hmap]
  refine List.map_congr_left fun i _ => ?_
  rw [List.getElem?_map]
  cases l[i]? <;> rfl

/-! ## Source hash -/

/-- A server takes the entries that are left of its weight, then the next one follows. -/
theorem shLoop_server {l : List DbServer} {pos : Nat} {s : DbServer}
    (hs : cyclicNode l pos = some s) : ∀ (n : Nat) (weight : UInt16), weight < s.weight →
    shLoop l n pos weight =
      (List.replicate (s.weight.toNat - weight.toNat) s).take n ++
        shLoop l (n - (s.weight.toNat - weight.toNat)) (pos + 1) 0
  | 0, weight, h => by simp [shLoop]
  | n + 1, weight, h => by
    have hlt : weight.toNat < s.weight.toNat := h
    have hsucc : (weight + 1).toNat = weight.toNat + 1 := by
      have := s.weight.toNat_lt
      rw [UInt16.toNat_add, UInt16.toNat_one]
      omega
    obtain ⟨k, hk⟩ : ∃ k, s.weight.toNat - weight.toNat = k + 1 :=
      ⟨_, (Nat.succ_pred (by omega)).symm⟩
    rw [shLoop, hs, hk, List.replicate_succ, List.take_succ_cons, List.cons_append,
      Nat.add_sub_add_right]
    simp only []
    congr 1
    split
    next hge =>
      have hge : s.weight.toNat ≤ weight.toNat + 1 := hsucc ▸ hge
      obtain rfl : k = 0 := by omega
      simp
    next hlt' =>
      have hlt' : weight + 1 < s.weight := UInt16.not_le.mp hlt'
      rw [shLoop_server hs n _ hlt', hsucc, show s.weight.toNat - (weight.toNat + 1) = k by omega]

/-- The servers from a position on take a block of entries each. -/
theorem shLoop_blocks {l : List DbServer} (hpos : ∀ s ∈ l, s.weight ≠ 0) :
    ∀ (post pre : List DbServer), l = pre ++ post → ∀ n, shLoop l n pre.length 0 =
      (blocks (fun s => s.weight.toNat) post).take n ++
        shLoop l (n - (post.map fun s => s.weight.toNat).sum) l.length 0
  | [], pre, h, n => by
    rw [h]
    simp
  | s :: post, pre, h, n => by
    have hnode : cyclicNode l pre.length = some s := by
      have hlt : pre.length < l.length := by rw [h]; simp
      rw [cyclicNode_lt hlt]
      simp [h]
    have hweight : 0 < s.weight :=
      UInt16.pos_iff_ne_zero.mpr (hpos s (by rw [h]; simp))
    have hlen : pre.length + 1 = (pre ++ [s]).length := by simp
    rw [shLoop_server hnode n 0 hweight, hlen, shLoop_blocks hpos post (pre ++ [s]) (by simp [h]),
      blocks_cons, List.take_append, List.length_replicate, List.append_assoc, List.map_cons,
      List.sum_cons, Nat.sub_sub]
    rfl

theorem length_shLoop {l : List DbServer} (hne : l ≠ []) :
    ∀ (n pos : Nat) (weight : UInt16), (shLoop l n pos weight).length = n
  | 0, _, _ => rfl
  | n + 1, pos, weight => by
    have hlt : pos % l.length < l.length := Nat.mod_lt _ (List.length_pos_of_ne_nil hne)
    rw [shLoop, cyclicNode, List.getElem?_eq_getElem hlt]
    simp only [List.length_cons]
    split
    · rw [length_shLoop hne n]
    · rw [length_shLoop hne n]

/-- A server whose row differs from those before it has an entry of the source hash bucket if
and only if the blocks before its own leave one. -/
theorem mem_shLoop {pre post : List DbServer} {s : DbServer}
    (hpos : ∀ s' ∈ pre ++ s :: post, s'.weight ≠ 0) (hs : s ∉ pre) (n : Nat) :
    s ∈ shLoop (pre ++ s :: post) n 0 0 ↔ (pre.map fun s => s.weight.toNat).sum < n := by
  have hweight : 0 < s.weight.toNat :=
    Nat.pos_of_ne_zero fun h => hpos s (by simp) (UInt16.toNat_inj.mp h)
  have hblocks := shLoop_blocks hpos (pre ++ s :: post) [] rfl n
  rw [List.length_nil] at hblocks
  rw [hblocks, List.mem_append, mem_take_blocks (w := fun s => s.weight.toNat) hweight hs]
  refine ⟨fun h => h.elim id fun hmem => ?_, .inl⟩
  -- the loop begins again only behind the blocks of all servers
  by_contra hge
  rw [List.map_append, List.map_cons, List.sum_append, List.sum_cons,
    show n - ((pre.map fun s => s.weight.toNat).sum + (s.weight.toNat +
      (post.map fun s => s.weight.toNat).sum)) = 0 by omega] at hmem
  cases hmem

theorem sum_take_weights {l : List DbServer} : ∀ {i : Nat}, i ≤ l.length →
    ((l.take i).map fun s => s.weight.toNat).sum = ∑ j ∈ Finset.range i, weightAt l j
  | 0, _ => rfl
  | i + 1, h => by
    rw [List.take_add_one, List.getElem?_eq_getElem h, Option.toList_some, List.map_append,
      List.sum_append, sum_take_weights (Nat.le_of_succ_le h), Finset.sum_range_succ,
      weightAt_lt h]
    simp

theorem mem_of_mem_shLoop {l : List DbServer} {s : DbServer} : ∀ {n pos : Nat} {weight : UInt16},
    s ∈ shLoop l n pos weight → s ∈ l
  | 0, _, _, h => absurd h List.not_mem_nil
  | n + 1, pos, weight, h => by
    unfold shLoop at h
    split at h
    · cases h
    next server hnode =>
      obtain rfl | h := List.mem_cons.mp h
      · exact List.mem_of_getElem? hnode
      · split at h
        · exact mem_of_mem_shLoop h
        · exact mem_of_mem_shLoop h

/-! ## The entries of a server -/

/-- The entries that are filled before the first of the server at position `i`. -/
def precedingEntries (schedAlg : AlvsSchedulerType) (l : List DbServer) (i : Nat) : Nat :=
  match schedAlg with
  | .weightedRoundRobin => LargestFirst.before (Finset.range l.length) (reducedAt l) i
  | .sourceHash => ∑ j ∈ Finset.range i, reducedAt l j
  | _ => i

section Entries

variable {l : List DbServer} (hnodup : (l.map (·.npsIndex)).Nodup) (hpos : ∀ s ∈ l, s.weight ≠ 0)

include hnodup in
theorem eq_of_npsIndex {i j : Nat} (hi : i < l.length) (hj : j < l.length)
    (h : l[i].npsIndex = l[j].npsIndex) : i = j :=
  hnodup.of_map.getElem_inj_iff.mp
    (List.inj_on_of_nodup_map hnodup (List.getElem_mem hi) (List.getElem_mem hj) h)

include hnodup in
theorem occupies_rr {i : Nat} (hi : i < l.length) :
    (∃ e ∈ alvsDbRrFillBuckets l l.length, e.npsIndex = l[i].npsIndex) ↔
      i < alvsSizeOfSchedBucket := by
  rw [alvsDbRrFillBuckets, take_cyclicNode l (Nat.min_le_left _ _)]
  constructor
  · rintro ⟨e, he, hidx⟩
    obtain ⟨j, hj, rfl⟩ := List.mem_take_iff_getElem.mp he
    have hji := eq_of_npsIndex hnodup (by omega) hi hidx
    omega
  · intro hlt
    exact ⟨l[i], List.mem_take_iff_getElem.mpr ⟨i, by omega, rfl⟩, rfl⟩

include hnodup hpos in
theorem occupies_wrr {i : Nat} (hi : i < l.length) :
    (∃ e ∈ alvsDbWrrFillBuckets (alvsDbReduceWeights l l.length) l.length,
      e.npsIndex = l[i].npsIndex) ↔
    LargestFirst.before (Finset.range l.length) (reducedAt l) i < alvsSizeOfSchedBucket := by
  obtain ⟨ps, hps, hmap⟩ := wrrFillBuckets_eq hpos
  have hmem := hps.mem_iff i (Finset.mem_range.mpr hi)
  rw [and_iff_right (reducedAt_pos hpos hi)] at hmem
  rw [← hmem]
  constructor
  · rintro ⟨e, he, hidx⟩
    have hsome : some e.npsIndex ∈ ps.map fun i => l[i]?.map (·.npsIndex) :=
      hmap ▸ List.mem_map_of_mem he
    obtain ⟨p, hp, hpe⟩ := List.mem_map.mp hsome
    have hlt := Finset.mem_range.mp (hps.subset p hp)
    rw [List.getElem?_eq_getElem hlt, Option.map_some, Option.some_inj, hidx] at hpe
    rwa [← eq_of_npsIndex hnodup hlt hi hpe]
  · intro hp
    have hsome : l[i]?.map (·.npsIndex) ∈ ps.map fun i => l[i]?.map (·.npsIndex) :=
      List.mem_map_of_mem hp
    rw [← hmap] at hsome
    obtain ⟨e, he, hidx⟩ := List.mem_map.mp hsome
    rw [List.getElem?_eq_getElem hi, Option.map_some, Option.some_inj] at hidx
    exact ⟨e, he, hidx⟩

include hnodup hpos in
theorem occupies_shLoop (n : Nat) {i : Nat} (hi : i < l.length) :
    (∃ e ∈ shLoop l n 0 0, e.npsIndex = l[i].npsIndex) ↔
      ∑ j ∈ Finset.range i, weightAt l j < n := by
  have hsplit : l = l.take i ++ l[i] :: l.drop (i + 1) := by
    rw [← List.drop_eq_getElem_cons hi, List.take_append_drop]
  have hnot : l[i] ∉ l.take i := fun hmem => by
    obtain ⟨j, hj, hji⟩ := List.mem_take_iff_getElem.mp hmem
    have := eq_of_npsIndex hnodup (by omega) hi (congrArg DbServer.npsIndex hji)
    omega
  have hmem := @mem_shLoop (l.take i) (l.drop (i + 1)) l[i] (hsplit ▸ hpos) hnot n
  rw [← hsplit, sum_take_weights hi.le] at hmem
  rw [← hmem]
  constructor
  · rintro ⟨e, he, hidx⟩
    rwa [← List.inj_on_of_nodup_map hnodup (mem_of_mem_shLoop he) (List.getElem_mem hi) hidx]
  · exact fun h => ⟨l[i], h, rfl⟩

include hnodup hpos in
theorem occupies_sh {i : Nat} (hi : i < l.length) :
    (∃ e ∈ alvsDbShFillBuckets (alvsDbReduceWeights l l.length), e.npsIndex = l[i].npsIndex) ↔
      ∑ j ∈ Finset.range i, reducedAt l j < alvsSizeOfSchedBucket := by
  obtain ⟨gcd, hgcd, hreduce⟩ := reduceWeights_eq hpos
  have hpos' : ∀ s ∈ l.map fun s => s.withWeight (s.weight / gcd), s.weight ≠ 0 := by
    intro s hs h0
    obtain ⟨s', hs', rfl⟩ := List.mem_map.mp hs
    have hdiv := div_weightGcd_pos hs' (hpos s' hs')
    rw [← hgcd, ← UInt16.toNat_div] at hdiv
    exact absurd (congrArg UInt16.toNat h0) (Nat.pos_iff_ne_zero.mp hdiv)
  have hnodup' : ((l.map fun s => s.withWeight (s.weight / gcd)).map (·.npsIndex)).Nodup := by
    rw [List.map_map]
    exact hnodup
  have hoccupies := occupies_shLoop hnodup' hpos' alvsSizeOfSchedBucket (i := i) (by simpa)
  rw [weightAt_divided hgcd] at hoccupies
  rw [hreduce, alvsDbShFillBuckets, ← hoccupies]
  simp [DbServer.withWeight]

include hnodup hpos in
/-- A server has an entry if and only if fewer than 256 are filled before its first. -/
theorem occupies_iff {schedAlg : AlvsSchedulerType} {b : List DbServer}
    (hb : serversBuckets schedAlg l l.length = some b) {i : Nat} (hi : i < l.length) :
    (∃ e ∈ b, e.npsIndex = l[i].npsIndex) ↔
      precedingEntries schedAlg l i < alvsSizeOfSchedBucket := by
  unfold serversBuckets at hb
  rw [if_neg (by omega)] at hb
  cases schedAlg with
  | roundRobin =>
    cases hb
    exact occupies_rr hnodup hi
  | weightedRoundRobin =>
    cases hb
    exact occupies_wrr hnodup hpos hi
  | sourceHash =>
    cases hb
    exact occupies_sh hnodup hpos hi
  | _ => cases hb

end Entries

/-! ## The size of a bucket -/

/-- The number of entries of the bucket of a list. -/
def bucketSize (schedAlg : AlvsSchedulerType) (l : List DbServer) : Nat :=
  match schedAlg with
  | .weightedRoundRobin => min alvsSizeOfSchedBucket (∑ i ∈ Finset.range l.length, reducedAt l i)
  | .sourceHash => if l = [] then 0 else alvsSizeOfSchedBucket
  | _ => min l.length alvsSizeOfSchedBucket

theorem length_bucket {l : List DbServer} (hpos : ∀ s ∈ l, s.weight ≠ 0)
    {schedAlg : AlvsSchedulerType} {b : List DbServer}
    (hb : serversBuckets schedAlg l l.length = some b) : b.length = bucketSize schedAlg l := by
  by_cases hl : l = []
  · subst hl
    cases hb
    cases schedAlg <;> rfl
  unfold serversBuckets at hb
  rw [if_neg (by simpa using hl)] at hb
  cases schedAlg with
  | roundRobin =>
    cases hb
    change (alvsDbRrFillBuckets l l.length).length = min l.length alvsSizeOfSchedBucket
    rw [alvsDbRrFillBuckets, take_cyclicNode l (Nat.min_le_left _ _), List.length_take]
    exact Nat.min_eq_left (Nat.min_le_left _ _)
  | weightedRoundRobin =>
    cases hb
    obtain ⟨ps, hps, hmap⟩ := wrrFillBuckets_eq hpos
    have hlen := congrArg List.length hmap
    rw [List.length_map, List.length_map, hps.length_eq] at hlen
    exact hlen
  | sourceHash =>
    cases hb
    obtain ⟨gcd, -, hreduce⟩ := reduceWeights_eq hpos
    rw [hreduce, alvsDbShFillBuckets, length_shLoop (by simpa using hl), bucketSize, if_neg hl]
  | _ => cases hb

theorem length_wrrLoop_le (m : Nat) : ∀ (n : Nat) (l : List DbServer), (wrrLoop m n l).length ≤ n
  | 0, _ => le_rfl
  | n + 1, l => by
    unfold wrrLoop
    split
    · exact Nat.zero_le _
    · split
      · exact Nat.zero_le _
      · exact Nat.succ_le_succ (length_wrrLoop_le m n _)

theorem length_shLoop_le (l : List DbServer) :
    ∀ (n pos : Nat) (weight : UInt16), (shLoop l n pos weight).length ≤ n
  | 0, _, _ => le_rfl
  | n + 1, pos, weight => by
    unfold shLoop
    split
    · exact Nat.zero_le _
    · refine Nat.succ_le_succ ?_
      split <;> exact length_shLoop_le l n _ _

/-- A bucket has at most 256 entries. -/
theorem length_bucket_le (cp : Cp) (v : DbService) :
    (cp.bucket v).length ≤ alvsSizeOfSchedBucket := by
  have hle : ∀ alg l n, ((serversBuckets alg l n).getD []).length ≤ alvsSizeOfSchedBucket := by
    intro alg l n
    unfold serversBuckets
    by_cases hn : n = 0
    · rw [if_pos hn]
      exact Nat.zero_le _
    · rw [if_neg hn]
      cases alg
      case roundRobin =>
        refine (List.length_filterMap_le _ _).trans ?_
        rw [List.length_range]
        exact Nat.min_le_right _ _
      case weightedRoundRobin => exact length_wrrLoop_le _ _ _
      case sourceHash => exact length_shLoop_le _ _ _ _
      all_goals exact Nat.zero_le _
  exact hle _ _ _

/-- The number of entries that are written is the length of the bucket. -/
theorem entriesCount_toNat (cp : Cp) (v : DbService) :
    (cp.entriesCount v).toNat = (cp.bucket v).length := by
  have hcount : ∀ n, (List.range n).foldl (fun (count : UInt16) ind =>
      if (cp.bucket v)[ind]?.isSome then count + 1 else count) 0 =
        UInt16.ofNat (min n (cp.bucket v).length) := by
    intro n
    induction n with
    | zero => simp
    | succ n ih =>
      rw [List.range_succ, List.foldl_append, ih, List.foldl_cons, List.foldl_nil]
      split
      next hsome =>
        have hlt : n < (cp.bucket v).length := by simpa using hsome
        rw [Nat.min_eq_left hlt.le, Nat.min_eq_left hlt]
        exact (UInt16.ofNat_add n 1).symm
      next hnone =>
        have hge : (cp.bucket v).length ≤ n := by simpa using hnone
        rw [Nat.min_eq_right hge, Nat.min_eq_right (by omega)]
  have hle : (cp.bucket v).length ≤ 256 := length_bucket_le cp v
  rw [Cp.entriesCount, hcount, Nat.min_eq_right (length_bucket_le cp v), UInt16.toNat_ofNat']
  exact Nat.mod_eq_of_lt (by omega)

end Alvs
