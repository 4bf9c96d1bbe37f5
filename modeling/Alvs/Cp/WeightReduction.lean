import Alvs.Cp.Buckets
import Alvs.Lib.While
import Mathlib.Tactic.Ring

/-!
# The reduction of the weights

`alvs_db_reduce_weights` and `alvs_db_gcd` on machine words : the loops run with fuel, the
16-bit index of the two walks is kept, and a division by 0 is a result of its own
(`Halt.divisionByZero`). For a list of fewer than 2¹⁶ servers with positive weights the two
walks do what `gcdLoop` and the division of `alvsDbReduceWeights` do (`gcdWalk_eq`,
`divideWalk_eq`), so the run returns every weight divided by the greatest common divisor of
all (`reduceWeights_returns`).
-/

namespace Alvs

open ProgLogic

/-- How a run ends : it has no fuel left, it follows a null pointer or divides by 0, or it
returns. -/
inductive Halt (α : Type)
  | outOfFuel
  | nullPointer
  | divisionByZero
  | returned (a : α)
  deriving DecidableEq

/-! ## The loops -/

/-- `while ((r = num1 % num2) != 0)` of `alvs_db_gcd`. -/
def gcdBody : UInt16 × UInt16 → UInt16 × UInt16 ⊕ Option UInt16
  | (num1, num2) =>
    if num2 = 0 then .inr none
    else
      let r := num1 % num2
      if r ≠ 0 then .inl (num2, r) else .inr (some num2)

/-- `alvs_db_gcd`. -/
def gcdRun (fuel : Nat) (num1 num2 : UInt16) : Halt UInt16 :=
  match loop gcdBody fuel (num1, num2) with
  | none => .outOfFuel
  | some none => .divisionByZero
  | some (some gcd) => .returned gcd

/-- The variables of the walk that computes the divisor : `server_list` points to node
`pos`. -/
structure GcdWalk where
  pos : Nat
  gcd : UInt16
  ind : UInt16

/-- The first loop of `alvs_db_reduce_weights`, which leaves with the divisor and the node it
stopped at, or with `none` where the function returns. -/
def gcdWalkBody (fuel : Nat) (serverList : List DbServer) (serverCount : UInt32) (w : GcdWalk) :
    GcdWalk ⊕ Halt (Option (UInt16 × Nat)) :=
  if w.ind.toUInt32 < serverCount then
    let pos := (w.pos + 1) % serverList.length
    match cyclicNode serverList pos with
    | none => .inr .nullPointer
    | some server =>
      match gcdRun fuel w.gcd server.weight with
      | .outOfFuel => .inr .outOfFuel
      | .nullPointer => .inr .nullPointer
      | .divisionByZero => .inr .divisionByZero
      | .returned gcd =>
        if gcd = 1 then .inr (.returned none) else .inl ⟨pos, gcd, w.ind + 1⟩
  else .inr (.returned (some (w.gcd, w.pos)))

/-- The variables of the walk that divides the weights. -/
structure DivideWalk where
  serverList : List DbServer
  pos : Nat
  ind : UInt16

def divideWalkBody (serverCount : UInt32) (gcd : UInt16) (w : DivideWalk) :
    DivideWalk ⊕ Halt (List DbServer) :=
  if w.ind.toUInt32 < serverCount then
    if gcd = 0 then .inr .divisionByZero
    else
      .inl ⟨w.serverList.modify w.pos fun s => s.withWeight (s.weight / gcd),
        (w.pos + 1) % w.serverList.length, w.ind + 1⟩
  else .inr (.returned w.serverList)

/-- `alvs_db_reduce_weights`. -/
def reduceWeightsRun (fuel : Nat) (serverList : List DbServer) (serverCount : UInt32) :
    Halt (List DbServer) :=
  match serverList.head? with
  | none => .nullPointer
  | some server =>
    match loop (gcdWalkBody fuel serverList serverCount) fuel ⟨0, server.weight, 1⟩ with
    | none => .outOfFuel
    | some .outOfFuel => .outOfFuel
    | some .nullPointer => .nullPointer
    | some .divisionByZero => .divisionByZero
    | some (.returned none) => .returned serverList
    | some (.returned (some (gcd, pos))) =>
      (loop (divideWalkBody serverCount gcd) fuel ⟨serverList, pos, 0⟩).getD .outOfFuel

/-! ## The loops return -/

theorem toNat_pos {x : UInt16} (h : x ≠ 0) : 0 < x.toNat :=
  Nat.pos_of_ne_zero fun h0 => h (UInt16.toNat_inj.mp h0)

/-- Every round lowers the divisor, so a fuel above it is enough. -/
theorem gcdRun_eq {num1 num2 : UInt16} (h : num2 ≠ 0) {fuel : Nat} (hfuel : num2.toNat < fuel) :
    gcdRun fuel num1 num2 = .returned (alvsDbGcd num1 num2) := by
  have hround : ∀ p : UInt16 × UInt16, p.2 ≠ 0 ∧ alvsDbGcd p.1 p.2 = alvsDbGcd num1 num2 →
      (∃ p', gcdBody p = .inl p' ∧ (p'.2 ≠ 0 ∧ alvsDbGcd p'.1 p'.2 = alvsDbGcd num1 num2) ∧
        p'.2.toNat < p.2.toNat) ∨
      ∃ r, gcdBody p = .inr r ∧ r = some (alvsDbGcd num1 num2) := by
    rintro ⟨m, n⟩ ⟨hn, heq⟩
    simp only [gcdBody, hn, if_false]
    by_cases hr : m % n = 0
    · right
      rw [alvsDbGcd, dif_pos (.inl hr)] at heq
      exact ⟨some n, by simp [hr], congrArg some heq⟩
    · left
      refine ⟨(n, m % n), by simp [hr], ⟨hr, ?_⟩, ?_⟩
      · rwa [alvsDbGcd, dif_neg (by simp [hr, hn])] at heq
      · rw [UInt16.toNat_mod]
        exact Nat.mod_lt _ (toNat_pos hn)
  obtain ⟨r, hloop, rfl⟩ := loop_rule gcdBody _ (fun p => p.2.toNat) _ hround
    (s := (num1, num2)) ⟨h, rfl⟩ hfuel
  rw [gcdRun, hloop]

/-- The index of a walk, one round on. -/
theorem toNat_ind_add_one {ind : UInt16} {n : Nat} (h : ind.toNat < n) (hn : n < 2 ^ 16) :
    (ind + 1).toNat = ind.toNat + 1 := by
  rw [UInt16.toNat_add]
  exact Nat.mod_eq_of_lt (by simp; omega)

/-- The test `ind < server_count` of the walks. -/
theorem ind_lt_iff {ind : UInt16} {n : Nat} (hn : n < 2 ^ 16) :
    ind.toUInt32 < UInt32.ofNat n ↔ ind.toNat < n := by
  rw [UInt32.lt_iff_toNat_lt, UInt16.toNat_toUInt32, UInt32.toNat_ofNat',
    Nat.mod_eq_of_lt (by omega)]

variable {l : List DbServer}

/-- The walk has come to the node before `ind`, and the nodes still to be visited give
`result`. -/
structure GcdWalk.Visits (l : List DbServer) (result : Option UInt16) (w : GcdWalk) : Prop where
  node : w.pos + 1 = w.ind.toNat
  le : w.ind.toNat ≤ l.length
  rest : gcdLoop l (List.range' w.ind.toNat (l.length - w.ind.toNat)) w.gcd = result

/-- The first walk visits the nodes from the second to the last, as `gcdLoop` does. -/
theorem gcdWalk_eq (hne : l ≠ []) (hlt : l.length < 2 ^ 16) (hpos : ∀ s ∈ l, s.weight ≠ 0)
    {fuel : Nat} (hfuel : 2 ^ 16 ≤ fuel) (gcd : UInt16) :
    loop (gcdWalkBody fuel l (.ofNat l.length)) fuel ⟨0, gcd, 1⟩ =
      some (.returned ((gcdLoop l (List.range' 1 (l.length - 1)) gcd).map (·, l.length - 1))) := by
  have hlen := List.length_pos_of_ne_nil hne
  generalize hresult : gcdLoop l (List.range' 1 (l.length - 1)) gcd = result
  have hround : ∀ w : GcdWalk, w.Visits l result →
      (∃ w', gcdWalkBody fuel l (.ofNat l.length) w = .inl w' ∧ w'.Visits l result ∧
        l.length - w'.ind.toNat < l.length - w.ind.toNat) ∨
      ∃ r, gcdWalkBody fuel l (.ofNat l.length) w = .inr r ∧
        r = .returned (result.map (·, l.length - 1)) := by
    rintro ⟨pos, g, ind⟩ ⟨hnode, hle, hrest⟩
    simp only at hnode hle hrest
    simp only [gcdWalkBody, ind_lt_iff hlt]
    by_cases hind : ind.toNat < l.length
    · obtain ⟨m, hm⟩ : ∃ m, l.length - ind.toNat = m + 1 := ⟨l.length - ind.toNat - 1, by omega⟩
      have hmem : l[ind.toNat].weight ≠ 0 := hpos _ (List.getElem_mem hind)
      have hmod : (pos + 1) % l.length = ind.toNat := by
        rw [hnode, Nat.mod_eq_of_lt hind]
      rw [hm, List.range'_succ, gcdLoop, cyclicNode_lt hind] at hrest
      simp only [hind, if_true, hmod, cyclicNode_lt hind,
        gcdRun_eq hmem (l[ind.toNat].weight.toNat_lt.trans_le hfuel)]
      by_cases hone : alvsDbGcd g l[ind.toNat].weight = 1
      · right
        simp only [hone, if_true] at hrest ⊢
        exact ⟨_, rfl, by rw [← hrest]; rfl⟩
      · left
        simp only [hone, if_false] at hrest ⊢
        have hnext := toNat_ind_add_one hind hlt
        have hleft : l.length - (ind.toNat + 1) = m := by omega
        refine ⟨_, rfl, ⟨hnext.symm, hnext.trans_le hind, ?_⟩, ?_⟩
        · simp only [hnext, hleft]
          exact hrest
        · simp only [hnext]
          omega
    · right
      rw [show l.length - ind.toNat = 0 by omega] at hrest
      simp only [hind, if_false]
      refine ⟨_, rfl, ?_⟩
      rw [← hrest, show pos = l.length - 1 by omega]
      rfl
  obtain ⟨r, hloop, rfl⟩ := loop_rule _ _ (fun w : GcdWalk => l.length - w.ind.toNat) _ hround
    (s := ⟨0, gcd, 1⟩) ⟨rfl, hlen, hresult⟩ (show l.length - 1 < fuel by omega)
  exact hloop

/-- The second walk has divided the nodes of `ind` rounds, and the rounds still to come
give `result`. -/
structure DivideWalk.Divides (n : Nat) (gcd : UInt16) (start : Nat) (result : List DbServer)
    (w : DivideWalk) : Prop where
  length_eq : w.serverList.length = n
  le : w.ind.toNat ≤ n
  node : w.pos = (start + w.ind.toNat) % n
  rest : (List.range' (start + w.ind.toNat) (n - w.ind.toNat)).foldl
    (fun list i => list.modify (i % list.length) fun s => s.withWeight (s.weight / gcd))
    w.serverList = result

/-- The second walk divides every weight, wherever it starts. -/
theorem divideWalk_eq (hlt : l.length < 2 ^ 16) {gcd : UInt16} (hgcd : gcd ≠ 0) {fuel : Nat}
    (hfuel : 2 ^ 16 ≤ fuel) {start : Nat} (hstart : start < l.length) :
    loop (divideWalkBody (.ofNat l.length) gcd) fuel ⟨l, start, 0⟩ =
      some (.returned (l.map fun s => s.withWeight (s.weight / gcd))) := by
  have hround : ∀ w : DivideWalk,
      w.Divides l.length gcd start (l.map fun s => s.withWeight (s.weight / gcd)) →
      (∃ w', divideWalkBody (.ofNat l.length) gcd w = .inl w' ∧
        w'.Divides l.length gcd start (l.map fun s => s.withWeight (s.weight / gcd)) ∧
        l.length - w'.ind.toNat < l.length - w.ind.toNat) ∨
      ∃ r, divideWalkBody (.ofNat l.length) gcd w = .inr r ∧
        r = .returned (l.map fun s => s.withWeight (s.weight / gcd)) := by
    rintro ⟨list, pos, ind⟩ ⟨hlength, hle, hnode, hrest⟩
    simp only at hlength hle hnode hrest
    simp only [divideWalkBody, ind_lt_iff hlt, hgcd, if_false]
    by_cases hind : ind.toNat < l.length
    · left
      obtain ⟨m, hm⟩ : ∃ m, l.length - ind.toNat = m + 1 := ⟨l.length - ind.toNat - 1, by omega⟩
      have hnext := toNat_ind_add_one hind hlt
      have hleft : l.length - (ind.toNat + 1) = m := by omega
      rw [hm, List.range'_succ, List.foldl_cons, hlength, ← hnode] at hrest
      simp only [hind, if_true]
      refine ⟨_, rfl, ⟨?_, hnext.trans_le hind, ?_, ?_⟩, ?_⟩
      · rw [List.length_modify, hlength]
      · simp only [hnext, hlength, hnode, Nat.mod_add_mod, Nat.add_assoc]
      · simp only [hnext, hleft]
        exact hrest
      · simp only [hnext]
        omega
    · right
      rw [show l.length - ind.toNat = 0 by omega] at hrest
      simp only [hind, if_false]
      exact ⟨_, rfl, congrArg Halt.returned hrest⟩
  obtain ⟨r, hloop, rfl⟩ := loop_rule _ _ (fun w : DivideWalk => l.length - w.ind.toNat) _ hround
    (s := ⟨l, start, 0⟩)
    ⟨rfl, Nat.zero_le _, (Nat.mod_eq_of_lt hstart).symm, foldl_modify_all _ l start⟩
    (show l.length - 0 < fuel by omega)
  exact hloop

/-- The machine's run is that of `alvsDbReduceWeights`. -/
theorem reduceWeightsRun_eq (hne : l ≠ []) (hlt : l.length < 2 ^ 16)
    (hpos : ∀ s ∈ l, s.weight ≠ 0) {fuel : Nat} (hfuel : 2 ^ 16 ≤ fuel) :
    reduceWeightsRun fuel l (.ofNat l.length) = .returned (alvsDbReduceWeights l l.length) := by
  obtain ⟨server, rest, rfl⟩ := List.exists_cons_of_ne_nil hne
  have hspec := gcdLoop_spec hpos rest.length 1 server.weight (by simp [Nat.add_comm])
  simp only [reduceWeightsRun, alvsDbReduceWeights, List.head?_cons,
    gcdWalk_eq hne hlt hpos hfuel]
  rw [List.length_cons, Nat.add_sub_cancel]
  cases hloop : gcdLoop (server :: rest) (List.range' 1 rest.length) server.weight with
  | none => rfl
  | some gcd =>
    rw [hloop, List.drop_one, List.tail_cons, ← weightGcd_cons] at hspec
    have hgcd : gcd ≠ 0 := by
      rintro rfl
      have hzero : weightGcd (server :: rest) = 0 := hspec.symm
      have := weightGcd_pos (l := rest) (hpos server List.mem_cons_self)
      omega
    have hlast : rest.length < (server :: rest).length := by simp
    have hdivide := divideWalk_eq hlt hgcd hfuel hlast
    simp only [List.length_cons] at hdivide
    simp only [Option.map_some, hdivide, Option.getD_some]
    exact congrArg Halt.returned (foldl_modify_all _ (server :: rest) rest.length).symm

/-! ## The reduced weights -/

theorem dvd_weightGcd {d : Nat} (hdvd : ∀ s ∈ l, d ∣ s.weight.toNat) : d ∣ weightGcd l := by
  induction l with
  | nil => exact Nat.dvd_zero _
  | cons s l ih =>
    rw [List.forall_mem_cons] at hdvd
    exact Nat.dvd_gcd hdvd.1 (ih hdvd.2)

theorem weightGcd_map_div {gcd : UInt16} (hdvd : ∀ s ∈ l, gcd.toNat ∣ s.weight.toNat) :
    weightGcd (l.map fun s => s.withWeight (s.weight / gcd)) = weightGcd l / gcd.toNat := by
  induction l with
  | nil => simp [weightGcd]
  | cons s l ih =>
    rw [List.forall_mem_cons] at hdvd
    have hdiv := Nat.gcd_div hdvd.1 (dvd_weightGcd hdvd.2)
    rw [List.map_cons, weightGcd_cons, weightGcd_cons, ih hdvd.2, ← hdiv]
    simp only [DbServer.withWeight, UInt16.toNat_div]

/-- The lists that `alvs_db_reduce_weights` is called with. -/
structure Reducible (l : List DbServer) : Prop where
  ne_nil : 1 ≤ l.length
  lt : l.length < 2 ^ 16
  pos : ∀ s ∈ l, 0 < s.weight

/-- The weights are divided by their greatest common divisor, which keeps all ratios. -/
structure Reduced (l reduced : List DbServer) : Prop where
  divided : ∃ gcd : UInt16, gcd.toNat = weightGcd l ∧
    reduced = l.map fun s => s.withWeight (s.weight / gcd)
  early : weightGcd l = 1 → reduced = l
  ratios : ∀ i j, weightAt reduced i * weightAt l j = weightAt reduced j * weightAt l i
  gcd_eq : weightGcd reduced = 1

theorem reduceWeights_returns (l : List DbServer) (h : Reducible l) (fuel : Nat)
    (hfuel : 2 ^ 16 ≤ fuel) :
    ∃ reduced, reduceWeightsRun fuel l (.ofNat l.length) = .returned reduced ∧
      Reduced l reduced := by
  have hne : l ≠ [] := List.ne_nil_of_length_pos h.ne_nil
  have hpos : ∀ s ∈ l, s.weight ≠ 0 := fun s hs => (UInt16.ne_of_lt (h.pos s hs)).symm
  obtain ⟨gcd, hgcd, hreduce⟩ := reduceWeights_eq hpos
  have hdvd : ∀ s ∈ l, gcd.toNat ∣ s.weight.toNat := fun s hs => hgcd ▸ weightGcd_dvd hs
  have hgcdPos : 0 < weightGcd l := by
    obtain ⟨server, rest, rfl⟩ := List.exists_cons_of_ne_nil hne
    exact weightGcd_pos (hpos server List.mem_cons_self)
  refine ⟨_, reduceWeightsRun_eq hne h.lt hpos hfuel, ⟨⟨gcd, hgcd, hreduce⟩, ?_, ?_, ?_⟩⟩
  · intro hone
    have hgcdOne : gcd = 1 := UInt16.toNat_inj.mp (hgcd.trans hone)
    rw [hreduce, hgcdOne, List.map_congr_left (g := id) fun s _ => ?_, List.map_id]
    simp [DbServer.withWeight]
  · intro i j
    have hat : ∀ k, weightAt (l.map fun s => s.withWeight (s.weight / gcd)) k * gcd.toNat =
        weightAt l k := by
      intro k
      by_cases hk : k < l.length
      · rw [weightAt_lt (by simpa using hk), weightAt_lt hk]
        simp only [List.getElem_map, DbServer.withWeight, UInt16.toNat_div]
        exact Nat.div_mul_cancel (hdvd _ (List.getElem_mem hk))
      · simp [weightAt, List.getElem?_eq_none (Nat.not_lt.mp hk)]
    rw [hreduce, ← hat i, ← hat j]
    ring
  · rw [hreduce, weightGcd_map_div hdvd, hgcd]
    exact Nat.div_self hgcdPos

/-- A server of each of the given weights. -/
def serversOfWeight (weights : List UInt16) : List DbServer :=
  weights.map fun w => ⟨0, 80, w, true, 0, 0, 2, 0, 0, serverStatsBase 0, ⟨true, 0, 0⟩,
    serverOnDemandStatsBase 0, serverFlagsDpBase 0, .zero⟩

theorem reduceWeights_returns_three :
    ∃ reduced, reduceWeightsRun (2 ^ 16) (serversOfWeight [12, 8, 20]) 3 = .returned reduced ∧
      Reduced (serversOfWeight [12, 8, 20]) reduced :=
  reduceWeights_returns _ ⟨by decide, by decide, by decide⟩ _ le_rfl

end Alvs
