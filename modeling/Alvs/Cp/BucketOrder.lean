import Alvs.Cp.Buckets

/-!
# The order of the buckets

Which server each entry of a bucket is of. Source hash (`shFillBuckets_entry`) : entry `k` is of
the server whose interval of prefix weights has `k` modulo the sum of all weights. Weighted round
robin (`wrrFillBuckets_levels`) : the servers level by level, from the largest weight down to 1,
those whose weight reaches the level in the order of the list.

The loop of the source mutates the weights of the list it is given, and an entry refers to a node
of it. `DbServer.withWeight 0` is what such a node has besides its weight.
-/

namespace Alvs

open ProgLogic

/-! ## Source hash -/

/-- The sum of the weights of the first `j` servers. -/
def prefixWeight (l : List DbServer) (j : Nat) : Nat := ((l.take j).map (·.weight.toNat)).sum

section SourceHash

variable {l : List DbServer}

theorem prefixWeight_succ {j : Nat} (hj : j < l.length) :
    prefixWeight l (j + 1) = prefixWeight l j + l[j].weight.toNat := by
  rw [prefixWeight, prefixWeight, List.take_succ_eq_append_getElem hj, List.map_append,
    List.sum_append]
  simp

theorem prefixWeight_mono {i j : Nat} (hij : i ≤ j) (hj : j ≤ l.length) :
    prefixWeight l i ≤ prefixWeight l j := by
  induction j with
  | zero => rw [Nat.le_zero.mp hij]
  | succ j ih =>
    rcases Nat.lt_or_eq_of_le hij with hlt | rfl
    · rw [prefixWeight_succ hj]
      exact (ih (Nat.le_of_lt_succ hlt) (Nat.le_of_succ_le hj)).trans (Nat.le_add_right _ _)
    · exact Nat.le_refl _

/-- A number is in the interval of one server at most. -/
theorem prefixWeight_unique {i j k : Nat} (hi : i < l.length) (hj : j < l.length)
    (hik : prefixWeight l i ≤ k) (hki : k < prefixWeight l (i + 1)) (hjk : prefixWeight l j ≤ k)
    (hkj : k < prefixWeight l (j + 1)) : i = j := by
  rcases Nat.lt_trichotomy i j with hlt | heq | hlt
  · have hle := prefixWeight_mono (i := i + 1) (Nat.succ_le_of_lt hlt) (Nat.le_of_lt hj)
    omega
  · exact heq
  · have hle := prefixWeight_mono (i := j + 1) (Nat.succ_le_of_lt hlt) (Nat.le_of_lt hi)
    omega

/-- A number below the sum is in the interval of a server. -/
theorem prefixWeight_exists : ∀ {n k : Nat}, n ≤ l.length → k < prefixWeight l n →
    ∃ j, j < n ∧ prefixWeight l j ≤ k ∧ k < prefixWeight l (j + 1)
  | 0, _, _, hk => absurd hk (Nat.not_lt_zero _)
  | n + 1, k, hn, hk => by
    rcases Nat.lt_or_ge k (prefixWeight l n) with hlt | hge
    · obtain ⟨j, hj, hle, hlt⟩ := prefixWeight_exists (Nat.le_of_succ_le hn) hlt
      exact ⟨j, Nat.lt_succ_of_lt hj, hle, hlt⟩
    · exact ⟨n, Nat.lt_succ_self n, hge, hk⟩

/-- Entry `k` of the loop, where the server at `pos` has taken `weight` entries. -/
theorem shLoop_getElem? (hpos : ∀ s ∈ l, s.weight ≠ 0) : ∀ {n p pos : Nat} {weight : UInt16}
    (hp : p < l.length), pos % l.length = p → weight < l[p].weight →
    ∀ k < n, ∀ j < l.length,
      prefixWeight l j ≤ (prefixWeight l p + weight.toNat + k) % prefixWeight l l.length →
      (prefixWeight l p + weight.toNat + k) % prefixWeight l l.length < prefixWeight l (j + 1) →
      (shLoop l n pos weight)[k]? = l[j]?
  | 0, _, _, _, _, _, _, k, hk, _, _, _, _ => absurd hk (Nat.not_lt_zero k)
  | n + 1, p, pos, weight, hp, hpp, hweight, k, hk, j, hj, hle, hlt => by
    have hnode : cyclicNode l pos = some l[p] := by
      rw [cyclicNode, hpp, List.getElem?_eq_getElem hp]
    have hw : weight.toNat < l[p].weight.toNat := hweight
    have hsucc := prefixWeight_succ hp
    have hall := prefixWeight_mono (i := p + 1) (Nat.succ_le_of_lt hp) (Nat.le_refl _)
    have hone : (weight + 1).toNat = weight.toNat + 1 := by
      have hbound := l[p].weight.toNat_lt
      rw [UInt16.toNat_add, UInt16.toNat_one]
      omega
    have hnode0 : ∀ q (hq : q < l.length), (0 : UInt16) < l[q].weight := fun q hq =>
      UInt16.pos_iff_ne_zero.mpr (hpos _ (List.getElem_mem hq))
    rw [shLoop, hnode]
    dsimp only
    cases k with
    | zero =>
      rw [Nat.add_zero, Nat.mod_eq_of_lt (by omega)] at hle hlt
      obtain rfl := prefixWeight_unique hp hj (by omega) (by omega) hle hlt
      rw [List.getElem?_cons_zero, List.getElem?_eq_getElem]
    | succ k =>
      have hk' : k < n := Nat.lt_of_succ_lt_succ hk
      rw [List.getElem?_cons_succ]
      split
      next hfull =>
        have hge : l[p].weight.toNat ≤ weight.toNat + 1 := hone ▸ hfull
        have hmod : (pos + 1) % l.length = (p + 1) % l.length := by
          rw [← hpp, Nat.mod_add_mod]
        rcases Nat.lt_or_eq_of_le (Nat.succ_le_of_lt hp) with hnext | hlast
        · have hsum : prefixWeight l p + weight.toNat + (k + 1) =
              prefixWeight l (p + 1) + (0 : UInt16).toNat + k := by
            rw [UInt16.toNat_zero]
            omega
          rw [hsum] at hle hlt
          rw [Nat.mod_eq_of_lt hnext] at hmod
          exact shLoop_getElem? hpos hnext hmod (hnode0 _ hnext) k hk' j hj hle hlt
        · -- the loop begins again with the first server
          have hlast : p + 1 = l.length := hlast
          have hfirst : 0 < l.length := Nat.zero_lt_of_lt hp
          have hsum : (prefixWeight l p + weight.toNat + (k + 1)) % prefixWeight l l.length =
              (prefixWeight l 0 + (0 : UInt16).toNat + k) % prefixWeight l l.length := by
            have htotal : prefixWeight l p + weight.toNat + (k + 1) =
                k + prefixWeight l l.length := by
              rw [← hlast]
              omega
            rw [htotal, Nat.add_mod_right, UInt16.toNat_zero]
            exact congrArg (· % _) (Nat.zero_add k).symm
          rw [hsum] at hle hlt
          rw [hlast, Nat.mod_self] at hmod
          exact shLoop_getElem? hpos hfirst hmod (hnode0 _ hfirst) k hk' j hj hle hlt
      next hmore =>
        have hlt' : weight + 1 < l[p].weight := UInt16.not_le.mp hmore
        have hsum : prefixWeight l p + weight.toNat + (k + 1) =
            prefixWeight l p + (weight + 1).toNat + k := by rw [hone]; omega
        rw [hsum] at hle hlt
        exact shLoop_getElem? hpos hp hpp hlt' k hk' j hj hle hlt

/-- The server whose interval has `k` modulo the sum of all weights. -/
theorem exists_node (hne : l ≠ []) (hpos : ∀ s ∈ l, s.weight ≠ 0) (k : Nat) :
    ∃ j, j < l.length ∧ prefixWeight l j ≤ k % prefixWeight l l.length ∧
      k % prefixWeight l l.length < prefixWeight l (j + 1) := by
  have hfirst : 0 < l.length := List.length_pos_of_ne_nil hne
  have hweight : 0 < l[0].weight.toNat :=
    UInt16.pos_iff_ne_zero.mpr (hpos _ (List.getElem_mem hfirst))
  have hsucc := prefixWeight_succ hfirst
  have hall := prefixWeight_mono (i := 0 + 1) (Nat.succ_le_of_lt hfirst) (Nat.le_refl _)
  exact prefixWeight_exists (Nat.le_refl _) (Nat.mod_lt _ (by omega))

/-- All entries of the source hash bucket are filled, entry `k` with the server in whose interval
of prefix weights `k` is modulo the sum of all weights. -/
theorem shFillBuckets_entry (l : List DbServer) (hne : l ≠ []) (hpos : ∀ s ∈ l, s.weight ≠ 0) :
    (alvsDbShFillBuckets l).length = alvsSizeOfSchedBucket ∧
    ∃ node : Nat → Nat,
      (∀ k < alvsSizeOfSchedBucket,
        node k < l.length ∧ (alvsDbShFillBuckets l)[k]? = l[node k]?) ∧
      ∀ k < alvsSizeOfSchedBucket, ∀ j < l.length, (node k = j ↔
        prefixWeight l j ≤ k % prefixWeight l l.length ∧
        k % prefixWeight l l.length < prefixWeight l (j + 1)) := by
  have hfirst : 0 < l.length := List.length_pos_of_ne_nil hne
  refine ⟨length_shLoop hne _ _ _, ?_⟩
  choose node hnode hle hlt using exists_node hne hpos
  refine ⟨node, fun k hk => ⟨hnode k, ?_⟩, fun k hk j hj => ⟨?_, ?_⟩⟩
  · have hweight : (0 : UInt16) < l[0].weight :=
      UInt16.pos_iff_ne_zero.mpr (hpos _ (List.getElem_mem hfirst))
    have hstart : prefixWeight l 0 + (0 : UInt16).toNat + k = k := Nat.zero_add k
    refine shLoop_getElem? hpos hfirst (Nat.zero_mod _) hweight k hk _ (hnode k) ?_ ?_
    · rw [hstart]
      exact hle k
    · rw [hstart]
      exact hlt k
  · rintro rfl
    exact ⟨hle k, hlt k⟩
  · rintro ⟨hjle, hjlt⟩
    exact prefixWeight_unique (hnode k) hj (hle k) (hlt k) hjle hjlt

/-- Servers of a list, with the given weights. -/
def weightedServers (weights : List UInt16) : List DbServer :=
  weights.zipIdx.map fun p =>
    { ip := 0x0a000002, port := 80 + .ofNat p.2, weight := p.1, active := true,
      npsIndex := .ofNat p.2
      connFlags := ipVsConnFDroute, serverFlags := ipVsDestFAvailable, uThresh := 0, lThresh := 0
      serverStatsBase := serverStatsBase (.ofNat p.2), serviceStatsBase := serviceStatsBase 0
      serverOnDemandStatsBase := serverOnDemandStatsBase (.ofNat p.2)
      serverFlagsDpBase := serverFlagsDpBase (.ofNat p.2), serverStats := .zero }

/-- The last entry of a bucket of servers of weights 2, 3 and 1 is of the second one. -/
theorem shFillBuckets_last : ∃ node : Nat → Nat,
    (alvsDbShFillBuckets (weightedServers [2, 3, 1]))[255]? =
      (weightedServers [2, 3, 1])[node 255]? ∧ node 255 = 1 := by
  obtain ⟨-, node, hentry, hnode⟩ := shFillBuckets_entry (weightedServers [2, 3, 1]) (by decide)
    (by decide)
  exact ⟨node, (hentry 255 (by decide)).2, (hnode 255 (by decide) 1 (by decide)).mpr (by decide)⟩

end SourceHash

/-! ## Weighted round robin -/

/-- The largest weight of a list. -/
def maxWeight (l : List DbServer) : Nat := (l.map (·.weight.toNat)).foldr max 0

/-- For each level from the largest weight down to 1, the positions of the servers whose weight
reaches it, in the order of the list. -/
def levelOrder (l : List DbServer) : List Nat :=
  levels (List.range l.length) (weightAt l) (maxWeight l)

section WeightedRoundRobin

variable {l : List DbServer}

theorem weightAt_le_maxWeight : ∀ (l : List DbServer) (i : Nat), weightAt l i ≤ maxWeight l
  | [], _ => Nat.le_refl 0
  | _ :: _, 0 => Nat.le_max_left _ _
  | _ :: l, i + 1 => (weightAt_le_maxWeight l i).trans (Nat.le_max_right _ _)

/-- The weighted round robin bucket is the first entries of the level order, as many as there is
room for. -/
theorem wrrFillBuckets_levels (l : List DbServer) :
    (alvsDbWrrFillBuckets l l.length).map (fun s => some (s.withWeight 0)) =
      ((levelOrder l).take (min alvsSizeOfSchedBucket (l.map (·.weight.toNat)).sum)).map
        (fun i => l[i]?.map (·.withWeight 0)) ∧
    (alvsDbWrrFillBuckets l l.length).length =
      min alvsSizeOfSchedBucket (l.map (·.weight.toNat)).sum := by
  obtain ⟨ps, hps, hmap⟩ := wrrLoop_nodes alvsSizeOfSchedBucket l
  have hsum : ∑ i ∈ Finset.range l.length, weightAt l i = (l.map (·.weight.toNat)).sum := by
    rw [← sum_take_weights (Nat.le_refl l.length), List.take_length]
  have hlen : ps.length = min alvsSizeOfSchedBucket (l.map (·.weight.toNat)).sum := by
    rw [hps.length_eq, hsum]
  have hlevels : ps = (levelOrder l).take alvsSizeOfSchedBucket := by
    refine LargestFirst.eq_take_levels List.pairwise_lt_range ?_
      fun j _ => weightAt_le_maxWeight l j
    rwa [List.toFinset_range]
  have htake : ps = (levelOrder l).take (min alvsSizeOfSchedBucket (l.map (·.weight.toNat)).sum) :=
    calc ps = ((levelOrder l).take alvsSizeOfSchedBucket).take ps.length := by
          rw [← hlevels, List.take_length]
      _ = (levelOrder l).take (min ps.length alvsSizeOfSchedBucket) := List.take_take
      _ = _ := by rw [hlen, min_eq_left (min_le_left _ _)]
  refine ⟨?_, ?_⟩
  · rw [alvsDbWrrFillBuckets, hmap, htake]
  · have hlength := congrArg List.length hmap
    rw [List.length_map, List.length_map] at hlength
    rw [alvsDbWrrFillBuckets, hlength, hlen]

end WeightedRoundRobin

end Alvs
