import Alvs.Cp.Buckets
import Alvs.Cp.Inv
import Alvs.Lib.Runs

/-!
# Servers without an entry

An active server with a weight has an entry in the bucket of its service if and only if
fewer than 256 are filled before its first (`occupies_iff`). A service has at most 256
active servers (`activeAtMost_run`), so round robin has an entry for each; the two
algorithms with weights may not (`noneStarved_iff`).
-/

namespace Alvs

open ProgLogic

/-! ## The number of active servers -/

/-- An active row of a service. -/
def ActiveOf (t : ServiceTuple) (r : ServerRow) : Bool := r.srv = t && r.server.active

/-- The number of active servers of a service. -/
def Cp.activeCount (cp : Cp) (t : ServiceTuple) : Nat := cp.servers.countP (ActiveOf t)

theorem Cp.length_serverList (cp : Cp) (t : ServiceTuple) :
    (cp.serverList t ⟨false, true⟩).length = cp.activeCount t := by
  rw [Cp.serverList, List.length_map, Cp.activeCount, List.countP_eq_length_filter]
  congr 2
  ext r
  simp [Cp.Selected, ActiveOf]

/-- No service has more active servers than its bucket has entries. -/
def Cp.ActiveAtMost (cp : Cp) : Prop := ∀ t, cp.activeCount t ≤ alvsSizeOfSchedBucket

section Count

variable {cp : Cp} {t : ServiceTuple}

/-- A change of rows that activates none of the service. -/
theorem activeCount_map_le {f : ServerRow → ServerRow}
    (hf : ∀ r ∈ cp.servers, (f r).srv = r.srv ∧
      (r.srv = t → (f r).server.active = true → r.server.active = true)) :
    (cp.servers.map f).countP (ActiveOf t) ≤ cp.activeCount t := by
  rw [List.countP_map]
  refine List.countP_mono_left fun r hr hact => ?_
  obtain ⟨hsrv, hactive⟩ := hf r hr
  simp only [Function.comp_apply, ActiveOf, hsrv, Bool.and_eq_true, decide_eq_true_eq] at hact ⊢
  exact ⟨hact.1, hactive hact.1 hact.2⟩

theorem activeCount_updateServer_le {t₀ : ServiceTuple} {ip : UInt32} {port : UInt16}
    {f : DbServer → DbServer} (hf : ∀ r ∈ cp.servers, r.key = (t₀, ip, port) → t₀ = t →
      (f r.server).active = true → r.server.active = true) :
    (cp.updateServer t₀ ip port f).activeCount t ≤ cp.activeCount t := by
  refine activeCount_map_le fun r hr => ?_
  split
  next hk => exact ⟨rfl, fun ht => hf r hr hk ((congrArg Prod.fst hk).symm.trans ht)⟩
  next => exact ⟨rfl, fun _ => id⟩

theorem activeCount_deactivate_le (p : ServerRow → Prop) [DecidablePred p] :
    (cp.servers.map fun r => if p r then { r with server := r.server.deactivated } else r).countP
      (ActiveOf t) ≤ cp.activeCount t := by
  refine activeCount_map_le fun r _ => ?_
  split
  · exact ⟨rfl, fun _ h => absurd h (by simp [DbServer.deactivated])⟩
  · exact ⟨rfl, fun _ => id⟩

theorem countP_le_add {α : Type} {p q e : α → Bool} :
    ∀ {l : List α}, (∀ x ∈ l, p x = true → q x = true ∨ e x = true) →
      l.countP p ≤ l.countP q + l.countP e
  | [], _ => le_rfl
  | x :: l, h => by
    have hx := h x List.mem_cons_self
    have hl := countP_le_add fun y hy => h y (List.mem_cons_of_mem x hy)
    simp only [List.countP_cons]
    split_ifs <;> simp_all <;> omega

/-- The update of a row makes at most one more active. -/
theorem activeCount_updateServer_succ (h : cp.Inv) {t₀ : ServiceTuple} {ip : UInt32}
    {port : UInt16} {f : DbServer → DbServer} :
    (cp.updateServer t₀ ip port f).activeCount t ≤ cp.activeCount t + 1 := by
  have hnodup : (cp.servers.map ServerRow.key).Nodup :=
    List.pairwise_map.mpr (h.servers_distinct.imp And.left)
  have hone : cp.servers.countP (fun r => r.key == (t₀, ip, port)) ≤ 1 := by
    have hcount := List.nodup_iff_count_le_one.mp hnodup (t₀, ip, port)
    rw [List.count, List.countP_map] at hcount
    exact hcount
  refine Nat.le_trans ?_ (Nat.add_le_add_left hone _)
  rw [Cp.activeCount, Cp.updateServer, List.countP_map, Cp.activeCount]
  refine countP_le_add fun r _ hact => ?_
  by_cases hk : r.key = (t₀, ip, port)
  · exact .inr (by simpa using hk)
  · left
    rwa [Function.comp_apply, if_neg hk] at hact

theorem activeCount_rowAdded (h : cp.Inv) {service : DbService} {d : IpVsDestUser}
    {v : DbServer} {cp₁ : Cp} (hadded : cp.RowAdded service d v cp₁) :
    cp₁.activeCount t ≤ cp.activeCount t + if t = service.tuple then 1 else 0 := by
  split
  next ht =>
    obtain ⟨r, -, -, -, rfl⟩ | ⟨-, i, pool, -, -, rfl⟩ := hadded
    · exact activeCount_updateServer_succ h
    · simp only [Cp.activeCount, List.countP_append, List.countP_singleton]
      split <;> omega
  next ht =>
    obtain ⟨r, -, -, -, rfl⟩ | ⟨-, i, pool, -, -, rfl⟩ := hadded
    · exact activeCount_updateServer_le fun _ _ _ heq => absurd heq.symm ht
    · simp only [Cp.activeCount, List.countP_append, List.countP_singleton]
      rw [if_neg (by simpa [ActiveOf] using fun heq => absurd heq.symm ht)]

end Count

/-- Every operation keeps the bound : a server is added to a service that has fewer. -/
theorem activeAtMost_effect {s s' : Sys} {op : CpOp} (h : s.cp.Inv) (hmost : s.cp.ActiveAtMost)
    (he : s.Effect op s') : s'.cp.ActiveAtMost := by
  intro t
  have ht := hmost t
  cases he with
  | addService => exact ht
  | modifyService => exact ht
  | modifyServiceAlg => exact ht
  | deleteService hfind => exact (activeCount_deactivate_le _).trans ht
  | @addServer u d service v s₁ hfind hcount hadded =>
    rw [Cp.length_serverList] at hcount
    have hrow := @activeCount_rowAdded s.cp t h _ _ _ _ hadded.cp
    have hbound : s₁.cp.activeCount t ≤ alvsSizeOfSchedBucket := by
      refine hrow.trans ?_
      split
      next hts =>
        subst hts
        omega
      next => omega
    split
    · exact hbound
    · exact hbound
  | @modifyServer u d service r s₁ _ _ _ hs₁ =>
    subst hs₁
    have hle : (s.modifiedServerRow service.tuple (modifiedServer r.server d)
        (raisesThreshold r.server d)).cp.activeCount t ≤ s.cp.activeCount t :=
      activeCount_updateServer_le fun _ _ _ _ hact => hact
    split <;> exact hle.trans ht
  | @deleteServer u d service r s₁ _ _ _ hs₁ =>
    subst hs₁
    have hle : (s.deactivatedServerRow r).cp.activeCount t ≤ s.cp.activeCount t :=
      activeCount_updateServer_le fun _ _ _ _ hact => absurd hact (by simp [DbServer.deactivated])
    split <;> exact hle.trans ht
  | clear => exact (activeCount_deactivate_le fun _ => True).trans ht
  | aging hr => exact (List.Sublist.countP_le List.filter_sublist).trans ht

/-- In every state of a run. -/
theorem activeAtMost_run (ops : List CpOp) : (ops.foldl Sys.cpStep Sys.init).cp.Inv ∧
    (ops.foldl Sys.cpStep Sys.init).cp.ActiveAtMost := by
  refine List.foldlRecOn (motive := fun s => s.cp.Inv ∧ s.cp.ActiveAtMost) ops Sys.cpStep
    ⟨.init, fun _ => Nat.zero_le _⟩ ?_
  rintro s ⟨hinv, hmost⟩ op -
  refine ⟨inv_cpStep hinv op, ?_⟩
  obtain heq | he := cpStep_cases hinv.algs op
  · rwa [heq]
  · exact activeAtMost_effect hinv hmost he

/-! ## An entry for every server -/

/-- The servers that the bucket of a service is made of : those that are active and have a
weight. -/
def Cp.scheduled (cp : Cp) (v : DbService) : List DbServer := cp.serverList v.tuple ⟨true, true⟩

/-- Every active server with a weight has an entry in the bucket of its service. -/
def Cp.NoneStarved (cp : Cp) : Prop :=
  ∀ v ∈ cp.services, ∀ s ∈ cp.scheduled v, ∃ e ∈ cp.bucket v, e.npsIndex = s.npsIndex

/-- The service uses round robin, or fewer than 256 entries are filled before the first of
each of its servers. -/
def Cp.BucketSuffices (cp : Cp) (v : DbService) : Prop :=
  v.schedAlg = .roundRobin ∨ ∀ i < (cp.scheduled v).length,
    precedingEntries v.schedAlg (cp.scheduled v) i < alvsSizeOfSchedBucket

section Bucket

variable {cp : Cp} {v : DbService}

theorem weight_scheduled {s : DbServer} (h : s ∈ cp.scheduled v) : s.weight ≠ 0 := by
  obtain ⟨r, hr, rfl⟩ := List.mem_map.mp h
  have hsel := (List.mem_filter.mp hr).2
  simp only [Cp.Selected, Bool.not_true, Bool.false_or, Bool.and_eq_true,
    decide_eq_true_eq] at hsel
  exact UInt16.pos_iff_ne_zero.mp hsel.1.2

theorem nodup_scheduled (h : cp.Inv) : ((cp.scheduled v).map (·.npsIndex)).Nodup := by
  rw [Cp.scheduled, Cp.serverList, List.map_map]
  refine List.pairwise_map.mpr ((h.servers_distinct.filter _).imp fun hd => hd.2)

theorem bucket_scheduled (h : cp.Inv) (hv : v ∈ cp.services) :
    serversBuckets v.schedAlg (cp.scheduled v) (cp.scheduled v).length = some (cp.bucket v) := by
  obtain ⟨b, hb⟩ := serversBuckets_supported (h.algs v hv) (cp.scheduled v) (cp.scheduled v).length
  rw [hb, Cp.bucket]
  exact congrArg some (congrArg (Option.getD · []) hb).symm

theorem length_bucket_scheduled (h : cp.Inv) (hv : v ∈ cp.services) :
    (cp.bucket v).length = bucketSize v.schedAlg (cp.scheduled v) :=
  length_bucket (fun _ => weight_scheduled) (bucket_scheduled h hv)

theorem length_scheduled_le (hmost : cp.ActiveAtMost) :
    (cp.scheduled v).length ≤ alvsSizeOfSchedBucket := by
  refine Nat.le_trans ?_ (hmost v.tuple)
  rw [Cp.scheduled, Cp.serverList, List.length_map, ← List.countP_eq_length_filter]
  refine List.countP_mono_left fun r _ hsel => ?_
  simp only [Cp.Selected, Bool.not_true, Bool.false_or, Bool.and_eq_true,
    decide_eq_true_eq] at hsel
  simp [ActiveOf, hsel.1.1, hsel.2]

end Bucket

/-- In every state of a run each active server with a weight has an entry, if and only if the
bucket of each service suffices. -/
theorem noneStarved_iff (ops : List CpOp) : (ops.foldl Sys.cpStep Sys.init).cp.NoneStarved ↔
    ∀ v ∈ (ops.foldl Sys.cpStep Sys.init).cp.services,
      (ops.foldl Sys.cpStep Sys.init).cp.BucketSuffices v := by
  obtain ⟨hinv, hmost⟩ := activeAtMost_run ops
  generalize (ops.foldl Sys.cpStep Sys.init).cp = cp at hinv hmost
  refine forall₂_congr fun v hv => ?_
  have hoccupies := fun i (hi : i < (cp.scheduled v).length) =>
    occupies_iff (nodup_scheduled hinv) (fun _ => weight_scheduled) (bucket_scheduled hinv hv) hi
  constructor
  · intro h
    exact .inr fun i hi => (hoccupies i hi).mp (h _ (List.getElem_mem hi))
  · rintro h s hs
    obtain ⟨i, hi, rfl⟩ := List.getElem_of_mem hs
    refine (hoccupies i hi).mpr ?_
    obtain halg | h := h
    · rw [halg]
      exact hi.trans_le (length_scheduled_le hmost)
    · exact h i hi

/-- A weighted round robin service with a server of weight 300 and then one of weight 1. -/
def lightServer : List CpOp :=
  [.addService { exampleService with schedName := "wrr" },
    .addServer { exampleService with schedName := "wrr" } (exampleServer 0 300),
    .addServer { exampleService with schedName := "wrr" } (exampleServer 1 1)]

/-- All its entries are the first server's. -/
theorem noneStarved_fails : Always Succeeds Sys.cpStep Sys.init lightServer ∧
    ¬ (lightServer.foldl Sys.cpStep Sys.init).cp.NoneStarved := by
  refine ⟨by decide +kernel, ?_⟩
  unfold Cp.NoneStarved
  decide +kernel

end Alvs
