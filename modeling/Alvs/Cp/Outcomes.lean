import Alvs.Cp.Faults

/-!
# What the operations do when calls fail

For each operation, `Outcome` for every result it can return and whatever calls fail.
The parts that an operation is made of are specified first : a part that writes no row
either returns `ALVS_DB_OK` and no call of it failed, or an error and its last call failed
(`Settles`).
-/

namespace Alvs

open ProgLogic

/-- `ALVS_DB_INTERNAL_ERROR` or `ALVS_DB_NPS_ERROR`. -/
def AlvsDbRc.IsError (rc : AlvsDbRc) : Prop := rc = .internalError ∨ rc = .npsError

theorem AlvsDbRc.IsError.ne_ok {rc : AlvsDbRc} (h : rc.IsError) : rc ≠ .ok := by
  obtain rfl | rfl := h <;> decide

/-- The request passes its checks, where the operation ignores the failure of a call.
Whether the service has room for one more server is not one of them : its servers are
not counted where that call fails. -/
def Sys.Accepts (s : Sys) : CpOp → Prop
  | .addService u =>
    supportedProtocol u.protocol = true ∧ supportedSchedAlg (getSchedAlg u.schedName) = true ∧
      s.cp.findService u.tuple = none ∧ s.cp.serviceIndexPool.alloc ≠ none
  | .deleteService u _ => s.cp.findService u.tuple ≠ none
  | .addServer u d =>
    supportedRoutingAlg d.connFlags = true ∧ d.lThreshold ≤ d.uThreshold ∧
      s.cp.findService u.tuple ≠ none ∧
      match s.cp.findServer u.tuple d.ip d.cpPort with
      | some r => r.server.active = false
      | none => s.cp.serverIndexPool.alloc ≠ none
  | _ => True

/-- What an operation that began in state `s` has done when it returns. -/
structure Outcome (s : Sys) (op : CpOp) (rc : AlvsDbRc) (g : Faulty) : Prop where
  algs : g.sys.cp.AlgsSupported
  known : rc = .ok ∨ rc = .failure ∨ rc = .notSupported ∨ rc.IsError
  ok : rc = .ok → s.cp.Effect op g.sys.cp ∧ s.Accepts op ∧ ∀ c ∈ g.failed, c.Ignored
  rejected : rc = .failure ∨ rc = .notSupported → g.sys = s ∧ (g.failed = [] ∨ ¬ s.Accepts op)
  error : rc.IsError → ∃ c ∈ g.failed, ¬ c.Ignored

namespace Outcome

variable {s : Sys} {op : CpOp} {rc : AlvsDbRc} {g : Faulty}

theorem of_ok (halgs : g.sys.cp.AlgsSupported) (heffect : s.cp.Effect op g.sys.cp)
    (haccepts : s.Accepts op) (hfailed : ∀ c ∈ g.failed, c.Ignored) : Outcome s op .ok g where
  algs := halgs
  known := .inl rfl
  ok _ := ⟨heffect, haccepts, hfailed⟩
  rejected h := by obtain h | h := h <;> cases h
  error h := by obtain h | h := h <;> cases h

theorem of_rejected (halgs : s.cp.AlgsSupported) (hrc : rc = .failure ∨ rc = .notSupported)
    {failed : List CpCall} (h : failed = [] ∨ ¬ s.Accepts op) :
    Outcome s op rc ⟨s, failed⟩ where
  algs := halgs
  known := by tauto
  ok hok := by subst hok; obtain h | h := hrc <;> cases h
  rejected _ := ⟨rfl, h⟩
  error herr := by obtain rfl | rfl := hrc <;> obtain h | h := herr <;> cases h

theorem of_error (halgs : g.sys.cp.AlgsSupported) (hrc : rc.IsError) {c : CpCall}
    (hmem : c ∈ g.failed) (hc : ¬ c.Ignored) : Outcome s op rc g where
  algs := halgs
  known := by tauto
  ok hok := by subst hok; obtain h | h := hrc <;> cases h
  rejected h := by obtain rfl | rfl := h <;> obtain h | h := hrc <;> cases h
  error _ := ⟨c, hmem, hc⟩

end Outcome

/-! ## Parts of the operations -/

/-- The database is as before, and either no call failed or the last one, which is not
ignored, did. -/
def Settles (g : Faulty) (rc : AlvsDbRc) (g' : Faulty) : Prop :=
  g'.sys.cp = g.sys.cp ∧ (rc = .ok ∧ g'.failed = g.failed ∨
    rc.IsError ∧ ∃ c, ¬ c.Ignored ∧ g'.failed = c :: g.failed)

theorem Settles.of_ok {g g' : Faulty} (hcp : g'.sys.cp = g.sys.cp) (hf : g'.failed = g.failed) :
    Settles g .ok g' := ⟨hcp, .inl ⟨rfl, hf⟩⟩

theorem Settles.of_fail {g : Faulty} {rc : AlvsDbRc} {c : CpCall} (hrc : rc.IsError)
    (hc : ¬ c.Ignored) {g' : Faulty} (hcp : g'.sys.cp = g.sys.cp) (hf : g'.failed = g.failed) :
    Settles g rc (g'.fail c) :=
  ⟨hcp, .inr ⟨hrc, c, hc, congrArg (c :: ·) hf⟩⟩

/-- Calls before that changed the chip only. -/
theorem Settles.of_same {g g₁ g' : Faulty} {rc : AlvsDbRc} (h : Settles g₁ rc g')
    (hcp : g₁.sys.cp = g.sys.cp) (hf : g₁.failed = g.failed) : Settles g rc g' := by
  obtain ⟨h₁, h₂⟩ := h
  rw [hcp] at h₁
  rw [hf] at h₂
  exact ⟨h₁, h₂⟩

theorem wp_populateSchedInfo (npsIndex : UInt32) (buckets : List DbServer) :
    ∀ (inds : List Nat) (count : UInt16) (g : Faulty),
    (populateSchedInfo npsIndex buckets inds count).wp faultSpec
      (fun r g' => Settles g r.1 g') g
  | [], _, _ => .of_ok rfl rfl
  | ind :: inds, count, g => by
    unfold populateSchedInfo
    split
    next =>
      simp only [Prog.wp_bind, wp_infraModifyEntry, if_true, Bool.false_eq_true, if_false]
      exact ⟨.of_fail (.inr rfl) id rfl rfl, Prog.wp_mono
        (wp_populateSchedInfo npsIndex buckets inds _ _) fun _ _ h => h.of_same rfl rfl⟩
    next =>
      simp only [Prog.wp_bind, wp_infraDeleteEntry, if_true, Bool.false_eq_true, if_false]
      exact ⟨.of_fail (.inr rfl) id rfl rfl, Prog.wp_mono
        (wp_populateSchedInfo npsIndex buckets inds _ _) fun _ _ h => h.of_same rfl rfl⟩

/-- Recalculating the entries of a service with a supported algorithm. -/
theorem wp_recalculate {v : DbService} (hsup : supportedSchedAlg v.schedAlg = true) (g : Faulty) :
    (alvsDbRecalculateSchedulingInfo v).wp faultSpec
      (fun r g' => Settles g r.1 g' ∧ ∃ n, r.2 = { v with schedEntriesCount := n }) g := by
  unfold alvsDbRecalculateSchedulingInfo
  simp only [Prog.wp_bind, wp_internalDbGetServerList]
  refine ⟨⟨.of_fail (.inl rfl) id rfl rfl, v.schedEntriesCount, rfl⟩, ?_⟩
  have hstrict : ¬ (CpCall.internalDbGetServerCount v.tuple ⟨true, true⟩).Ignored := fun h =>
    absurd (congrArg Exclude.weightZero h) (by decide)
  simp only [wp_internalDbGetServerCount]
  refine ⟨⟨.of_fail (.inl rfl) hstrict rfl rfl, v.schedEntriesCount, rfl⟩, ?_⟩
  obtain ⟨b, hb⟩ := serversBuckets_supported hsup (g.sys.cp.serverList v.tuple ⟨true, true⟩)
    (g.sys.cp.serverList v.tuple ⟨true, true⟩).length
  simp only [hb, Prog.wp_bind]
  exact Prog.wp_mono (wp_populateSchedInfo v.npsIndex b _ 0 g) fun r g' h => ⟨h, r.2, rfl⟩

theorem wp_deactivateServers (serverList : List DbServer) : ∀ (n : Nat) (g : Faulty),
    (deactivateServers serverList n).wp faultSpec (Settles g) g
  | 0, _ => .of_ok rfl rfl
  | n + 1, g => by
    unfold deactivateServers
    split
    next => exact wp_deactivateServers serverList n g
    next =>
      simp only [Prog.wp_bind, wp_infraModifyEntry, if_true, Bool.true_eq_false, if_false]
      exact ⟨.of_fail (.inr rfl) id rfl rfl, Prog.wp_mono
        (wp_deactivateServers serverList n _) fun _ _ h => h.of_same rfl rfl⟩

theorem wp_deleteServiceClassifications (serviceList : List DbService) :
    ∀ (inds : List Nat) (g : Faulty),
    (deleteServiceClassifications serviceList inds).wp faultSpec (Settles g) g
  | [], _ => .of_ok rfl rfl
  | ind :: inds, g => by
    unfold deleteServiceClassifications
    split
    next => exact wp_deleteServiceClassifications serviceList inds g
    next =>
      simp only [Prog.wp_bind, wp_infraDeleteEntry, if_true, Bool.true_eq_false, if_false]
      exact ⟨.of_fail (.inr rfl) id rfl rfl, Prog.wp_mono
        (wp_deleteServiceClassifications serviceList inds _) fun _ _ h => h.of_same rfl rfl⟩

/-- Clearing the counters of a service leaves the database, and its failure is ignored. -/
theorem wp_cleanServiceStats {i : UInt32} {g : Faulty} {Q : AlvsDbRc → Faulty → Prop}
    (h : ∀ rc g', rc ≠ .internalError → g'.sys.cp = g.sys.cp →
      (∀ c ∈ g'.failed, c ∈ g.failed ∨ c.Ignored) → Q rc g') :
    (alvsDbCleanServiceStats i).wp faultSpec Q g := by
  simp only [alvsDbCleanServiceStats, Prog.wp_bind, wp_infraClearPostedCounters, if_true,
    Bool.true_eq_false, if_false]
  refine ⟨h _ _ (by decide) rfl fun c hc => ?_, h _ _ (by decide) rfl fun c => .inl⟩
  obtain rfl | hc := List.mem_cons.mp hc
  exacts [.inr trivial, .inl hc]

theorem wp_cleanServerStats {i : UInt32} {g : Faulty} {Q : AlvsDbRc → Faulty → Prop}
    (h : ∀ rc g', rc ≠ .internalError → g'.sys.cp = g.sys.cp →
      (∀ c ∈ g'.failed, c ∈ g.failed ∨ c.Ignored) → Q rc g') :
    (alvsDbCleanServerStats i).wp faultSpec Q g := by
  simp only [alvsDbCleanServerStats, Prog.wp_bind, wp_infraClearLongCounters,
    wp_infraClearPostedCounters, if_true, Bool.true_eq_false, if_false]
  refine ⟨h _ _ (by decide) rfl fun c hc => ?_, h _ _ (by decide) rfl fun c hc => ?_,
    h _ _ (by decide) rfl fun c => .inl⟩
  · obtain rfl | hc := List.mem_cons.mp hc
    exacts [.inr trivial, .inl hc]
  · obtain rfl | hc := List.mem_cons.mp hc
    exacts [.inr trivial, .inl hc]

/-! ## Algorithms that stay supported -/

theorem Cp.AlgsSupported.modifyService {cp : Cp} (h : cp.AlgsSupported) {v : DbService}
    (hsup : supportedSchedAlg v.schedAlg = true) : (cp.modifyService v).AlgsSupported := by
  intro w hw
  obtain ⟨w₀, hw₀, rfl⟩ := List.mem_map.mp hw
  split
  · exact hsup
  · exact h w₀ hw₀

theorem Cp.AlgsSupported.append {cp : Cp} (h : cp.AlgsSupported) {v : DbService}
    (hsup : supportedSchedAlg v.schedAlg = true) {pool : WfPool serviceIndexPoolSize} :
    Cp.AlgsSupported { cp with services := cp.services ++ [v], serviceIndexPool := pool } := by
  intro w hw
  obtain hw | rfl := by simpa using hw
  exacts [h w hw, hsup]

theorem Cp.AlgsSupported.deleteService {cp : Cp} (h : cp.AlgsSupported) (t : ServiceTuple) :
    (cp.deleteService t).AlgsSupported := fun w hw => h w (List.mem_of_mem_filter hw)

/-! ## Services -/

/-- `alvs_db_delete_service` after it has counted the servers of the service. -/
def deleteCountedService (cpService : DbService) (serverCount : Nat) : CpProg AlvsDbRc := do
  let some serverList ← internalDbGetServerList cpService.tuple ⟨false, true⟩
    | return .internalError
  if (← internalDbDeleteService cpService.tuple) = false then
    return .internalError
  serviceIndexPoolRelease cpService.npsIndex
  if (← infraDeleteEntry (.serviceClassification
      (buildNpsServiceClassificationKey cpService.tuple))) = false then
    return .npsError
  if (← infraDeleteEntry (.serviceInfo (buildNpsServiceInfoKey cpService))) = false then
    return .npsError
  let rc ← deactivateServers serverList serverCount
  if rc ≠ .ok then
    return rc
  let (rc, _) ← alvsDbRecalculateSchedulingInfo cpService
  return rc

section Services

variable {s : Sys} (hs : s.cp.AlgsSupported) (u : IpVsServiceUser)

include hs

theorem outcome_addService :
    (alvsDbAddService u).wp faultSpec (Outcome s (.addService u)) ⟨s, []⟩ := by
  unfold alvsDbAddService
  refine (Prog.wp_ite _ _ _ _ _).mpr ⟨fun hp => ?_, fun hp => ?_⟩
  · exact .of_rejected hs (.inr rfl) (.inl rfl)
  refine (Prog.wp_ite _ _ _ _ _).mpr ⟨fun ha => ?_, fun ha => ?_⟩
  · exact .of_rejected hs (.inr rfl) (.inl rfl)
  simp only [Bool.not_eq_false] at hp ha
  simp only [Prog.wp_bind, wp_internalDbGetService]
  refine ⟨.of_error hs (.inl rfl) List.mem_cons_self id, ?_⟩
  cases hf : s.cp.findService u.tuple with
  | some v => exact .of_rejected hs (.inl rfl) (.inl rfl)
  | none =>
    cases halloc : s.cp.serviceIndexPool.alloc with
    | none =>
      simp only [Prog.wp_bind]
      rw [wp_serviceIndexPoolAlloc_none (g := ⟨s, []⟩) halloc]
      exact .of_rejected hs (.inr rfl) (.inl rfl)
    | some ip =>
      obtain ⟨i, pool⟩ := ip
      have haccepts : s.Accepts (.addService u) := ⟨hp, ha, hf, by rw [halloc]; simp⟩
      simp only [Prog.wp_bind]
      rw [wp_serviceIndexPoolAlloc_some (g := ⟨s, []⟩) halloc]
      simp only [Prog.wp_bind]
      refine wp_cleanServiceStats fun rc g hrc hcp hfailed => ?_
      have hfailed : ∀ c ∈ g.failed, c.Ignored := fun c hc =>
        (hfailed c hc).resolve_left List.not_mem_nil
      have hfind : g.sys.cp.findService (newService u (.ofNat i)).tuple = none := by
        rw [hcp]
        exact hf
      have halgs : ∀ pool', Cp.AlgsSupported { s.cp with
          services := s.cp.services ++ [newService u (.ofNat i)], serviceIndexPool := pool' } :=
        fun _ => hs.append ha
      simp only [if_neg hrc, Prog.wp_bind, wp_internalDbAddService hfind, if_true,
        Bool.true_eq_false, if_false, wp_serviceIndexPoolRelease, wp_infraAddEntry, Faulty.fail,
        hcp]
      refine ⟨.of_error hs (.inl rfl) List.mem_cons_self id,
        .of_error (halgs _) (.inr rfl) List.mem_cons_self id,
        .of_error (halgs _) (.inr rfl) List.mem_cons_self id, ?_⟩
      exact .of_ok (halgs _) (.addService ha hf halloc) haccepts hfailed

theorem outcome_modifyService :
    (alvsDbModifyService u).wp faultSpec (Outcome s (.modifyService u)) ⟨s, []⟩ := by
  unfold alvsDbModifyService
  refine (Prog.wp_ite _ _ _ _ _).mpr ⟨fun ha => ?_, fun ha => ?_⟩
  · exact .of_rejected hs (.inr rfl) (.inl rfl)
  simp only [Bool.not_eq_false] at ha
  simp only [Prog.wp_bind, wp_internalDbGetService]
  refine ⟨.of_error hs (.inl rfl) List.mem_cons_self id, ?_⟩
  cases hf : s.cp.findService u.tuple with
  | none => exact .of_rejected hs (.inl rfl) (.inl rfl)
  | some prev =>
    -- the row that is written keeps the algorithm of the request
    have hwrite : ∀ v : DbService, v.schedAlg = getSchedAlg u.schedName → ∀ g : Faulty,
        g.sys.cp = s.cp → g.failed = [] → (do
          if (← internalDbModifyService v) = false then
            return .internalError
          if (← infraModifyEntry (serviceInfoEntry v)) = false then
            return .npsError
          return .ok : CpProg AlvsDbRc).wp faultSpec (Outcome s (.modifyService u)) g := by
      intro v hv g hcp hfailed
      rw [← hv] at ha
      simp only [Prog.wp_bind, wp_internalDbModifyService, if_true, Bool.true_eq_false, if_false,
        wp_infraModifyEntry, Faulty.fail, hcp, hfailed]
      refine ⟨.of_error (hcp ▸ hs) (.inl rfl) List.mem_cons_self id,
        .of_error (hs.modifyService ha) (.inr rfl) List.mem_cons_self id, ?_⟩
      exact .of_ok (hs.modifyService ha) (.modifyService ha) trivial (by simp)
    refine (Prog.wp_ite _ _ _ _ _).mpr ⟨fun hnew => ?_, fun hsame => ?_⟩
    · refine Prog.wp_bind_of (wp_recalculate (v := modifiedRow prev u) ha _) ?_
      rintro ⟨rc, v⟩ g ⟨⟨hcp, hrc⟩, n, hv⟩
      obtain rfl : v = _ := hv
      obtain ⟨rfl, hfailed⟩ | ⟨herr, c, hc, hfailed⟩ := hrc
      · exact hwrite _ rfl g hcp hfailed
      · rw [if_pos herr.ne_ok]
        exact .of_error (hcp ▸ hs) herr (hfailed ▸ List.mem_cons_self) hc
    · exact hwrite _ rfl _ rfl rfl

/-- The request goes on with this count of the servers. -/
theorem outcome_deleteCountedService {v : DbService} (hf : s.cp.findService u.tuple = some v)
    (uninit n : Nat) {failed : List CpCall} (hfailed : ∀ c ∈ failed, c.Ignored) :
    (deleteCountedService v n).wp faultSpec (Outcome s (.deleteService u uninit))
      ⟨s, failed⟩ := by
  have haccepts : s.Accepts (.deleteService u uninit) := by
    change s.cp.findService u.tuple ≠ none
    rw [hf]
    simp
  have hdelete := hs.deleteService v.tuple
  unfold deleteCountedService
  simp only [Prog.wp_bind, wp_internalDbGetServerList, wp_internalDbDeleteService, if_true,
    Bool.true_eq_false, if_false, wp_serviceIndexPoolRelease, wp_infraDeleteEntry, Faulty.fail]
  refine ⟨.of_error hs (.inl rfl) List.mem_cons_self id,
    .of_error hs (.inl rfl) List.mem_cons_self id,
    .of_error hdelete (.inr rfl) List.mem_cons_self id,
    .of_error hdelete (.inr rfl) List.mem_cons_self id, ?_⟩
  refine Prog.wp_mono (wp_deactivateServers _ n _) ?_
  rintro rc g ⟨hcp, ⟨rfl, hfailed'⟩ | ⟨herr, c, hc, hfailed'⟩⟩
  swap
  · rw [if_pos herr.ne_ok]
    exact .of_error (hcp ▸ hdelete) herr (hfailed' ▸ List.mem_cons_self) hc
  rw [if_neg (by simp)]
  refine Prog.wp_bind_of (wp_recalculate (hs.of_find hf) g) ?_
  rintro ⟨rc, w⟩ g' ⟨⟨hcp', ⟨rfl, hfailed''⟩ | ⟨herr, c, hc, hfailed''⟩⟩, -⟩
  · refine .of_ok ?_ ?_ haccepts ?_
    · rw [hcp', hcp]
      exact hdelete
    · rw [hcp', hcp]
      exact .deleteService hf
    · rw [hfailed'', hfailed']
      exact hfailed
  · refine .of_error ?_ herr (hfailed'' ▸ List.mem_cons_self) hc
    rw [hcp', hcp]
    exact hdelete

theorem outcome_deleteService (uninit : Nat) :
    (alvsDbDeleteService u uninit).wp faultSpec (Outcome s (.deleteService u uninit)) ⟨s, []⟩ := by
  unfold alvsDbDeleteService
  simp only [Prog.wp_bind, wp_internalDbGetService]
  refine ⟨.of_error hs (.inl rfl) List.mem_cons_self id, ?_⟩
  cases hf : s.cp.findService u.tuple with
  | none => exact .of_rejected hs (.inl rfl) (.inl rfl)
  | some v =>
    -- the servers are counted, or are not and the request goes on
    simp only [Prog.wp_bind, wp_internalDbGetServerCount]
    refine ⟨outcome_deleteCountedService hs u hf uninit _ fun c hc => ?_,
      outcome_deleteCountedService hs u hf uninit _ fun c hc => absurd hc List.not_mem_nil⟩
    rw [List.mem_singleton.mp hc]
    exact rfl

end Services

/-! ## Servers -/

/-- `alvs_db_add_server` after it has counted the servers of the service. -/
def addCountedServer (cpService : DbService) (ipVsDest : IpVsDestUser) (serverCount : Nat) :
    CpProg AlvsDbRc := do
  if serverCount = alvsSizeOfSchedBucket then
    return .failure
  match ← addServerRow cpService ipVsDest with
  | .error rc => return rc
  | .ok cpServer =>
    if ipVsDest.weight > 0 then
      let rc ← recalculateAndModifyServiceInfo cpService true
      if rc ≠ .ok then
        return rc
    if (← infraAddEntry (.serverClassification
        (buildNpsServerClassificationKey cpService.tuple cpServer.ip cpServer.port)
        cpServer.npsIndex)) = false then
      return .npsError
    return .ok

section Servers

variable {s : Sys} (hs : s.cp.AlgsSupported) (u : IpVsServiceUser) (d : IpVsDestUser)

/-- What `addServerRow` has done when it returns : it is rejected and changed nothing, a call
that is not ignored failed, or the row is made and only ignored calls failed. -/
def RowOutcome (s : Sys) (service : DbService) (d : IpVsDestUser) (failed : List CpCall)
    (res : Except AlvsDbRc DbServer) (g : Faulty) : Prop :=
  match res with
  | .error rc =>
    (rc = .failure ∨ rc = .notSupported) ∧ g = ⟨s, failed⟩ ∧
      (match s.cp.findServer service.tuple d.ip d.cpPort with
      | some r => r.server.active = true
      | none => s.cp.serverIndexPool.alloc = none) ∨
    rc.IsError ∧ g.sys.cp.AlgsSupported ∧ ∃ c ∈ g.failed, ¬ c.Ignored
  | .ok v => s.cp.RowAdded service d v g.sys.cp ∧ g.sys.cp.AlgsSupported ∧
    (∀ c ∈ g.failed, c ∈ failed ∨ c.Ignored) ∧
    match s.cp.findServer service.tuple d.ip d.cpPort with
    | some r => r.server.active = false
    | none => s.cp.serverIndexPool.alloc ≠ none

include hs in
theorem wp_addServerRow (service : DbService) (failed : List CpCall) :
    (addServerRow service d).wp faultSpec (RowOutcome s service d failed) ⟨s, failed⟩ := by
  have herror : ∀ {rc : AlvsDbRc} {g : Faulty} {c : CpCall}, rc.IsError →
      g.sys.cp.AlgsSupported → c ∈ g.failed → ¬ c.Ignored →
      RowOutcome s service d failed (.error rc) g :=
    fun hrc hg hmem hc => .inr ⟨hrc, hg, _, hmem, hc⟩
  unfold addServerRow
  simp only [Prog.wp_bind, wp_internalDbGetServer]
  refine ⟨herror (.inl rfl) hs List.mem_cons_self id, ?_⟩
  cases hf : s.cp.findServer service.tuple d.ip d.cpPort with
  | some r =>
    simp only [Option.map_some]
    refine (Prog.wp_ite _ _ _ _ _).mpr ⟨fun hact => ?_, fun hact => ?_⟩
    · exact .inl ⟨.inl rfl, rfl, by rw [hf]; exact hact⟩
    simp only [Bool.not_eq_true] at hact
    simp only [Prog.wp_bind, wp_internalDbActivateServer, if_true, Bool.true_eq_false, if_false,
      wp_infraModifyEntry]
    refine ⟨herror (.inl rfl) hs List.mem_cons_self id,
      herror (.inr rfl) hs List.mem_cons_self id, ?_⟩
    exact ⟨.inl ⟨r, hf, hact, rfl, rfl⟩, hs, fun c => .inl, by rw [hf]; exact hact⟩
  | none =>
    simp only [Option.map_none]
    cases halloc : s.cp.serverIndexPool.alloc with
    | none =>
      simp only [Prog.wp_bind]
      rw [wp_serverIndexPoolAlloc_none (g := ⟨s, failed⟩) halloc]
      exact .inl ⟨.inr rfl, rfl, by rw [hf]; exact halloc⟩
    | some ip =>
      obtain ⟨i, pool⟩ := ip
      simp only [Prog.wp_bind]
      rw [wp_serverIndexPoolAlloc_some (g := ⟨s, failed⟩) halloc]
      simp only [Prog.wp_bind]
      refine wp_cleanServerStats fun rc g hrc hcp hfailed => ?_
      have hnone : ∀ g' : Faulty, g'.sys.cp = g.sys.cp → g'.sys.cp.findServer service.tuple
          (newServer service d (.ofNat i)).ip (newServer service d (.ofNat i)).port = none := by
        intro g' hg'
        rw [hg', hcp]
        exact hf
      have halgs : g.sys.cp.AlgsSupported := hcp ▸ hs
      simp only [if_neg hrc, alvsClearOverloadedFlagOfServer, Prog.wp_bind,
        wp_clearServerFlagsWord, if_true, Bool.true_eq_false, if_false, Prog.wp_pure,
        reduceCtorEq, wp_serverIndexPoolRelease]
      refine ⟨herror (.inl rfl) halgs List.mem_cons_self id,
        Iff.mpr (wp_internalDbAddServer (hnone _ rfl)) ?_⟩
      simp only [if_true, Bool.true_eq_false, if_false, Prog.wp_bind, Prog.wp_pure,
        wp_serverIndexPoolRelease, wp_infraModifyEntry]
      refine ⟨herror (.inl rfl) halgs List.mem_cons_self id,
        herror (.inr rfl) halgs List.mem_cons_self id, ?_⟩
      refine ⟨.inr ⟨hf, i, pool, halloc, rfl, ?_⟩, halgs, hfailed, ?_⟩
      · rw [hcp]
      · rw [hf, halloc]
        simp

/-- Recalculating the entries of a service and writing its info entry, and its row too where
`modifyDb` is set. -/
theorem wp_recalculateAndModifyServiceInfo {v : DbService}
    (hsup : supportedSchedAlg v.schedAlg = true) (modifyDb : Bool) {g : Faulty}
    (hg : g.sys.cp.AlgsSupported) :
    (recalculateAndModifyServiceInfo v modifyDb).wp faultSpec (fun rc g' =>
      g'.sys.cp.AlgsSupported ∧
      (rc = .ok ∧ g'.failed = g.failed ∧ (∃ n, g'.sys.cp =
        if modifyDb then g.sys.cp.modifyService { v with schedEntriesCount := n }
        else g.sys.cp) ∨
      rc.IsError ∧ ∃ c ∈ g'.failed, ¬ c.Ignored)) g := by
  unfold recalculateAndModifyServiceInfo
  refine Prog.wp_bind_of (wp_recalculate hsup g) ?_
  rintro ⟨rc, w⟩ g' ⟨⟨hcp, ⟨rfl, hfailed⟩ | ⟨herr, c, hc, hfailed⟩⟩, n, hw⟩
  swap
  · have herr : rc.IsError := herr
    simp only [ne_eq, herr.ne_ok, not_false_eq_true, if_true, Prog.wp_pure]
    exact ⟨hcp ▸ hg, .inr ⟨herr, c, hfailed ▸ List.mem_cons_self, hc⟩⟩
  obtain rfl : w = _ := hw
  simp only [ne_eq, not_true_eq_false, if_false]
  cases modifyDb with
  | false =>
    simp only [Bool.false_eq_true, if_false, Prog.wp_bind, wp_infraModifyEntry, if_true,
      Bool.true_eq_false, Prog.wp_pure, hcp]
    exact ⟨⟨hcp ▸ hg, .inr ⟨.inr rfl, _, List.mem_cons_self, id⟩⟩,
      hg, .inl ⟨trivial, hfailed, n, trivial⟩⟩
  | true =>
    simp only [if_false, Prog.wp_bind, wp_infraModifyEntry, if_true, Bool.true_eq_false,
      Prog.wp_pure, wp_internalDbModifyService, hcp]
    have hmodify := hg.modifyService (v := { v with schedEntriesCount := n }) hsup
    exact ⟨⟨hcp ▸ hg, .inr ⟨.inl rfl, _, List.mem_cons_self, id⟩⟩,
      ⟨hmodify, .inr ⟨.inr rfl, _, List.mem_cons_self, id⟩⟩,
      hmodify, .inl ⟨trivial, hfailed, n, rfl⟩⟩

include hs

/-- The request goes on with this count of the servers. -/
theorem outcome_addCountedServer (hr : supportedRoutingAlg d.connFlags = true)
    (ht : ¬ d.lThreshold > d.uThreshold) {service : DbService}
    (hf : s.cp.findService u.tuple = some service) (n : Nat) {failed : List CpCall}
    (hfailed : ∀ c ∈ failed, c.Ignored) (hn : n = alvsSizeOfSchedBucket → failed = []) :
    (addCountedServer service d n).wp faultSpec (Outcome s (.addServer u d)) ⟨s, failed⟩ := by
  have htuple : service.tuple = u.tuple := by simpa using List.find?_some hf
  unfold addCountedServer
  refine (Prog.wp_ite _ _ _ _ _).mpr ⟨fun h => ?_, fun h => ?_⟩
  · exact .of_rejected hs (.inl rfl) (.inl (hn h))
  refine Prog.wp_bind_of (wp_addServerRow hs d service failed) ?_
  rintro (rc | v) g hrow
  · obtain ⟨hrc, rfl, hrow⟩ | ⟨herr, halgs, c, hmem, hc⟩ := hrow
    · refine .of_rejected hs hrc (.inr fun haccepts => ?_)
      obtain ⟨-, -, -, haccepts⟩ := haccepts
      rw [← htuple] at haccepts
      cases hf' : s.cp.findServer service.tuple d.ip d.cpPort with
      | none =>
        rw [hf'] at hrow haccepts
        exact haccepts hrow
      | some r =>
        rw [hf'] at hrow haccepts
        exact absurd (hrow.symm.trans haccepts) (by decide)
    · exact .of_error halgs herr hmem hc
  · obtain ⟨hadded, halgs, hfailed', hrow⟩ := hrow
    have haccepts : s.Accepts (.addServer u d) := by
      refine ⟨hr, UInt32.not_lt.mp ht, by rw [hf]; simp, ?_⟩
      rw [← htuple]
      exact hrow
    have hfailed'' : ∀ c ∈ g.failed, c.Ignored := fun c hc =>
      (hfailed' c hc).elim (hfailed c) id
    refine (Prog.wp_ite _ _ _ _ _).mpr ⟨fun hw => ?_, fun hw => ?_⟩
    · refine Prog.wp_bind_of
        (wp_recalculateAndModifyServiceInfo (hs.of_find hf) true halgs) ?_
      rintro rc g' ⟨halgs', ⟨rfl, hsame, n, hcp⟩ | ⟨herr, c, hmem, hc⟩⟩
      · simp only [ne_eq, not_true_eq_false, if_false, Prog.wp_bind, wp_infraAddEntry, if_true,
          Bool.true_eq_false, Prog.wp_pure]
        refine ⟨.of_error halgs' (.inr rfl) List.mem_cons_self id,
          .of_ok halgs' ?_ haccepts (hsame ▸ hfailed'')⟩
        rw [hcp]
        exact .addServerCount hadded (show supportedSchedAlg service.schedAlg = true from
          hs.of_find hf)
      · rw [if_pos herr.ne_ok]
        exact .of_error halgs' herr hmem hc
    · simp only [Prog.wp_bind, wp_infraAddEntry, if_true, Bool.true_eq_false, if_false,
        Prog.wp_pure]
      exact ⟨.of_error halgs (.inr rfl) List.mem_cons_self id,
        .of_ok halgs (.addServer hadded) haccepts hfailed''⟩

theorem outcome_addServer :
    (alvsDbAddServer u d).wp faultSpec (Outcome s (.addServer u d)) ⟨s, []⟩ := by
  unfold alvsDbAddServer
  refine (Prog.wp_ite _ _ _ _ _).mpr ⟨fun hr => ?_, fun hr => ?_⟩
  · exact .of_rejected hs (.inr rfl) (.inl rfl)
  refine (Prog.wp_ite _ _ _ _ _).mpr ⟨fun ht => ?_, fun ht => ?_⟩
  · exact .of_rejected hs (.inr rfl) (.inl rfl)
  simp only [Bool.not_eq_false] at hr
  simp only [Prog.wp_bind, wp_internalDbGetService]
  refine ⟨.of_error hs (.inl rfl) List.mem_cons_self id, ?_⟩
  cases hf : s.cp.findService u.tuple with
  | none => exact .of_rejected hs (.inl rfl) (.inl rfl)
  | some service =>
    -- the servers are counted, or are not and the request goes on with none
    simp only [Prog.wp_bind, wp_internalDbGetServerCount]
    refine ⟨outcome_addCountedServer hs u d hr ht hf _ (fun c hc => ?_)
        (by simp [alvsSizeOfSchedBucket]),
      outcome_addCountedServer hs u d hr ht hf _ (fun c hc => absurd hc List.not_mem_nil)
        fun _ => rfl⟩
    rw [List.mem_singleton.mp hc]
    exact rfl

theorem outcome_modifyServer :
    (alvsDbModifyServer u d).wp faultSpec (Outcome s (.modifyServer u d)) ⟨s, []⟩ := by
  unfold alvsDbModifyServer
  refine (Prog.wp_ite _ _ _ _ _).mpr ⟨fun hr => ?_, fun hr => ?_⟩
  · exact .of_rejected hs (.inr rfl) (.inl rfl)
  refine (Prog.wp_ite _ _ _ _ _).mpr ⟨fun ht => ?_, fun ht => ?_⟩
  · exact .of_rejected hs (.inr rfl) (.inl rfl)
  simp only [Prog.wp_bind, wp_internalDbGetService]
  refine ⟨.of_error hs (.inl rfl) List.mem_cons_self id, ?_⟩
  cases hf : s.cp.findService u.tuple with
  | none => exact .of_rejected hs (.inl rfl) (.inl rfl)
  | some service =>
    simp only [Prog.wp_bind, wp_internalDbGetServer]
    refine ⟨.of_error hs (.inl rfl) List.mem_cons_self id, ?_⟩
    cases hrow : s.cp.findServer service.tuple d.ip d.cpPort with
    | none => exact .of_rejected hs (.inl rfl) (.inl rfl)
    | some r =>
      simp only [Option.map_some]
      refine (Prog.wp_ite _ _ _ _ _).mpr ⟨fun hact => ?_, fun hact => ?_⟩
      · exact .of_rejected hs (.inl rfl) (.inl rfl)
      -- the overloaded flag is cleared, or is not, and the row is written
      have hrest : ∀ g : Faulty, g.sys.cp = s.cp → g.failed = [] → (do
          if (← internalDbModifyServer service.tuple (modifiedServer r.server d)) = false then
            return .internalError
          if (modifiedServer r.server d).weight ≠ r.server.weight.toUInt8.toUInt16 then
            let rc ← recalculateAndModifyServiceInfo service false
            if rc ≠ .ok then
              return rc
          if (← infraModifyEntry (serverInfoEntry (modifiedServer r.server d))) = false then
            return .npsError
          return .ok : CpProg AlvsDbRc).wp faultSpec (Outcome s (.modifyServer u d)) g := by
        intro g hcp hfailed
        simp only [Prog.wp_bind, wp_internalDbModifyServer, if_true, Bool.true_eq_false, if_false]
        refine ⟨.of_error (hcp ▸ hs) (.inl rfl) List.mem_cons_self id, ?_⟩
        refine (Prog.wp_ite _ _ _ _ _).mpr ⟨fun hw => ?_, fun hw => ?_⟩
        · refine Prog.wp_bind_of
            (wp_recalculateAndModifyServiceInfo (hs.of_find hf) false (hcp ▸ hs)) ?_
          rintro rc g' ⟨halgs', ⟨rfl, hsame, n, hcp'⟩ | ⟨herr, c, hmem, hc⟩⟩
          · simp only [ne_eq, not_true_eq_false, if_false, Prog.wp_bind, wp_infraModifyEntry,
              if_true, Bool.true_eq_false, Prog.wp_pure]
            refine ⟨.of_error halgs' (.inr rfl) List.mem_cons_self id,
              .of_ok halgs' ?_ trivial (by simp [hsame, hfailed])⟩
            rw [hcp', hcp]
            exact .modifyServer hrow
          · rw [if_pos herr.ne_ok]
            exact .of_error halgs' herr hmem hc
        · simp only [Prog.wp_bind, wp_infraModifyEntry, if_true, Bool.true_eq_false, if_false,
            Prog.wp_pure, hcp]
          exact ⟨.of_error hs (.inr rfl) List.mem_cons_self id,
            .of_ok hs (.modifyServer hrow) trivial (by simp [hfailed])⟩
      refine (Prog.wp_ite _ _ _ _ _).mpr ⟨fun hth => ?_, fun hth => ?_⟩
      · simp only [alvsClearOverloadedFlagOfServer, Prog.wp_bind, wp_clearServerFlagsWord, if_true,
          Bool.true_eq_false, if_false, Prog.wp_pure, reduceCtorEq]
        exact ⟨.of_error hs (.inl rfl) List.mem_cons_self id, hrest _ rfl rfl⟩
      · exact hrest _ rfl rfl

theorem outcome_deleteServer :
    (alvsDbDeleteServer u d).wp faultSpec (Outcome s (.deleteServer u d)) ⟨s, []⟩ := by
  unfold alvsDbDeleteServer
  simp only [Prog.wp_bind, wp_internalDbGetService]
  refine ⟨.of_error hs (.inl rfl) List.mem_cons_self id, ?_⟩
  cases hf : s.cp.findService u.tuple with
  | none => exact .of_rejected hs (.inl rfl) (.inl rfl)
  | some service =>
    simp only [Prog.wp_bind, wp_internalDbGetServer]
    refine ⟨.of_error hs (.inl rfl) List.mem_cons_self id, ?_⟩
    cases hrow : s.cp.findServer service.tuple d.ip d.cpPort with
    | none => exact .of_rejected hs (.inl rfl) (.inl rfl)
    | some r =>
      simp only [Option.map_some]
      refine (Prog.wp_ite _ _ _ _ _).mpr ⟨fun hact => ?_, fun hact => ?_⟩
      · exact .of_rejected hs (.inl rfl) (.inl rfl)
      simp only [Prog.wp_bind, wp_internalDbDeactivateServer, if_true, Bool.true_eq_false,
        if_false]
      refine ⟨.of_error hs (.inl rfl) List.mem_cons_self id, ?_⟩
      refine (Prog.wp_ite _ _ _ _ _).mpr ⟨fun hw => ?_, fun hw => ?_⟩
      · refine Prog.wp_bind_of
          (wp_recalculateAndModifyServiceInfo (hs.of_find hf) false hs) ?_
        rintro rc g' ⟨halgs', ⟨rfl, hsame, n, hcp'⟩ | ⟨herr, c, hmem, hc⟩⟩
        · simp only [ne_eq, not_true_eq_false, if_false, Prog.wp_bind, wp_infraModifyEntry,
            wp_infraDeleteEntry, if_true, Bool.true_eq_false, Prog.wp_pure]
          refine ⟨.of_error halgs' (.inr rfl) List.mem_cons_self id,
            .of_error halgs' (.inr rfl) List.mem_cons_self id,
            .of_ok halgs' ?_ trivial (by simp [hsame])⟩
          rw [hcp']
          exact .deleteServer
        · rw [if_pos herr.ne_ok]
          exact .of_error halgs' herr hmem hc
      · simp only [Prog.wp_bind, wp_infraModifyEntry, wp_infraDeleteEntry, if_true,
          Bool.true_eq_false, if_false, Prog.wp_pure]
        exact ⟨.of_error hs (.inr rfl) List.mem_cons_self id,
          .of_error hs (.inr rfl) List.mem_cons_self id,
          .of_ok hs .deleteServer trivial (by simp)⟩

end Servers

/-! ## Clear -/

theorem outcome_clear {s : Sys} (hs : s.cp.AlgsSupported) :
    alvsDbClear.wp faultSpec (Outcome s .clear) ⟨s, []⟩ := by
  unfold alvsDbClear
  simp only [Prog.wp_bind, wp_internalDbGetServiceCount, wp_internalDbGetServiceList]
  refine ⟨.of_error hs (.inl rfl) List.mem_cons_self id,
    .of_error hs (.inl rfl) List.mem_cons_self id, ?_⟩
  refine Prog.wp_mono (wp_deleteServiceClassifications _ _ _) ?_
  rintro rc g ⟨hcp, ⟨rfl, hfailed⟩ | ⟨herr, c, hc, hfailed⟩⟩
  swap
  · rw [if_pos herr.ne_ok]
    exact .of_error (hcp ▸ hs) herr (hfailed ▸ List.mem_cons_self) hc
  have hcleared : Cp.AlgsSupported { g.sys.cp.clearAll with
      serviceIndexPool := g.sys.cp.serviceIndexPool.rewind } := by
    simp [Cp.AlgsSupported, Cp.clearAll]
  simp only [ne_eq, not_true_eq_false, if_false, Prog.wp_bind, wp_infraDeleteAllEntries, if_true,
    Bool.true_eq_false, Prog.wp_pure, wp_internalDbClearAll, wp_serviceIndexPoolRewind]
  refine ⟨.of_error (hcp ▸ hs) (.inr rfl) List.mem_cons_self id,
    .of_error (hcp ▸ hs) (.inr rfl) List.mem_cons_self id,
    .of_error (hcp ▸ hs) (.inl rfl) List.mem_cons_self id, .of_ok hcleared ?_ trivial ?_⟩
  · rw [hcp]
    exact .clear
  · simp [hfailed]

/-! ## The aging thread -/

/-- A round of the aging thread that does not exit leaves the database as it is or ages a
server. -/
theorem outcome_aging {s : Sys} (hs : s.cp.AlgsSupported) (value : UInt64) :
    (agingRound value).wp faultSpec (fun rc g => g.sys.cp.AlgsSupported ∧
      (rc = .internalError ∨ rc = .ok ∧
        (g.sys.cp = s.cp ∨ ∃ pick, s.cp.Effect (.aging pick) g.sys.cp))) ⟨s, []⟩ := by
  unfold agingRound serverDbAging
  simp only [Bool.false_eq_true, if_false, Prog.wp_bind, wp_stepInactiveServers]
  refine ⟨⟨hs, .inl rfl⟩, fun pick => ?_⟩
  cases hrow : (s.cp.servers.filter fun r => !r.server.active)[pick]? with
  | none => exact ⟨hs, .inr ⟨rfl, .inl rfl⟩⟩
  | some r =>
    have hr : r ∈ s.cp.servers := List.mem_of_mem_filter (List.mem_of_getElem? hrow)
    -- the value that the thread holds when it looks whether it is 0
    have hrest : ∀ (value : UInt64) (g : Faulty), g.sys = s → (do
        let l : AgingLocal := ⟨value, false⟩
        if l.value ≠ 0 then
          return l
        if (← internalDbDeleteServer r.srv r.server.ip r.server.port) = false then
          return { l with exited := true }
        if (← infraDeleteEntry (.serverInfo (buildNpsServerInfoKey r.server))) = false then
          return { l with exited := true }
        serverIndexPoolRelease r.server.npsIndex
        return l : CpProg AgingLocal).wp faultSpec (fun l g => g.sys.cp.AlgsSupported ∧
          ((if l.exited then AlvsDbRc.internalError else .ok) = .internalError ∨
            (if l.exited then AlvsDbRc.internalError else .ok) = .ok ∧
              (g.sys.cp = s.cp ∨ ∃ pick, s.cp.Effect (.aging pick) g.sys.cp))) g := by
      rintro value ⟨_, failed⟩ rfl
      refine (Prog.wp_ite _ _ _ _ _).mpr ⟨fun _ => ⟨hs, .inr ⟨rfl, .inl rfl⟩⟩, fun _ => ?_⟩
      simp only [Prog.wp_bind, wp_internalDbDeleteServer, if_true, Bool.true_eq_false, if_false,
        wp_infraDeleteEntry, wp_serverIndexPoolRelease, Prog.wp_pure]
      exact ⟨⟨hs, .inl trivial⟩, ⟨hs, .inl trivial⟩, hs, .inr ⟨rfl, .inr ⟨0, .aging hr⟩⟩⟩
    simp only [alvsDbGetNumConnTotal, Prog.wp_bind, wp_infraGetLongCounter, Prog.wp_pure,
      reduceCtorEq, if_false]
    exact ⟨hrest _ _ rfl, hrest _ _ rfl⟩

/-! ## The daemons -/

/-- What a command on the daemons has done when it returns : it writes to the application
info row only, and every call of it that failed ends it. -/
structure DaemonOutcome (s : Sys) (rc : AlvsDbRc) (g : Faulty) : Prop where
  tables : g.sys.cp = { s.cp with applicationInfo := g.sys.cp.applicationInfo }
  ok : rc = .ok → g.failed = []
  rejected : rc = .failure ∨ rc = .notSupported → g.sys = s
  strict : ∀ c ∈ g.failed, ¬ c.Ignored

namespace DaemonOutcome

variable {s : Sys} {g : Faulty}

theorem of_ok (htables : g.sys.cp = { s.cp with applicationInfo := g.sys.cp.applicationInfo })
    (hfailed : g.failed = []) : DaemonOutcome s .ok g where
  tables := htables
  ok _ := hfailed
  rejected h := by obtain h | h := h <;> cases h
  strict c hc := absurd (hfailed ▸ hc) List.not_mem_nil

theorem of_error {rc : AlvsDbRc} (hrc : rc.IsError)
    (htables : g.sys.cp = { s.cp with applicationInfo := g.sys.cp.applicationInfo })
    (hstrict : ∀ c ∈ g.failed, ¬ c.Ignored) : DaemonOutcome s rc g where
  tables := htables
  ok hok := by subst hok; obtain h | h := hrc <;> cases h
  rejected h := by obtain rfl | rfl := h <;> obtain h | h := hrc <;> cases h
  strict := hstrict

theorem of_failure : DaemonOutcome s .failure ⟨s, []⟩ where
  tables := rfl
  ok := nofun
  rejected _ := rfl
  strict _ hc := absurd hc List.not_mem_nil

end DaemonOutcome

theorem strict_singleton {c : CpCall} (h : ¬ c.Ignored) : ∀ c' ∈ [c], ¬ c'.Ignored :=
  List.forall_mem_singleton.mpr h

theorem outcome_modifyApplicationInfo {s : Sys} (v : DbApplicationInfo) :
    (modifyApplicationInfo v).wp faultSpec (DaemonOutcome s) ⟨s, []⟩ := by
  simp only [modifyApplicationInfo, Prog.wp_bind, wp_internalDbModifyApplicationInfo, if_true,
    Bool.true_eq_false, if_false, wp_infraModifyEntry, Prog.wp_pure]
  exact ⟨.of_error (.inl rfl) rfl (strict_singleton id),
    .of_error (.inr rfl) rfl (strict_singleton id), .of_ok rfl rfl⟩

theorem outcome_initDaemon (s : Sys) (ifaddr : Option (List IfAddr)) (d d' : IpVsDaemonUser) :
    (alvsDbInitDaemon ifaddr d d').wp faultSpec (DaemonOutcome s) ⟨s, []⟩ := by
  simp only [alvsDbInitDaemon, Prog.wp_bind, wp_internalDbGetApplicationInfo]
  refine ⟨.of_error (.inl rfl) rfl (strict_singleton id), ?_⟩
  cases s.cp.applicationInfo DbApplicationInfo.zero.applicationIndex with
  | none =>
    cases alvsDbHandleMcastIf ifaddr d
      (buildCpStateSyncDaemons (Option.getD none DbApplicationInfo.zero) d d') with
    | none => exact .of_failure
    | some v =>
      simp only [Prog.wp_bind]
      refine wp_internalDbAddApplicationInfo ?_ ?_
      · exact .of_error (.inl rfl) rfl (strict_singleton id)
      · simp only [Bool.true_eq_false, if_false, Prog.wp_bind, wp_infraAddEntry, if_true]
        exact ⟨.of_error (.inr rfl) rfl (strict_singleton id), .of_ok rfl rfl⟩
  | some row =>
    cases alvsDbHandleMcastIf ifaddr d
      (buildCpStateSyncDaemons ((some row).getD DbApplicationInfo.zero) d d') with
    | none => exact .of_failure
    | some v =>
      simp only [Option.isSome_some, if_true, Prog.wp_bind, wp_internalDbModifyApplicationInfo,
        Bool.true_eq_false, if_false, wp_infraAddEntry]
      exact ⟨.of_error (.inl rfl) rfl (strict_singleton id),
        .of_error (.inr rfl) rfl (strict_singleton id), .of_ok rfl rfl⟩

theorem outcome_startDaemon (s : Sys) (ifaddr : Option (List IfAddr)) (d : IpVsDaemonUser) :
    (alvsDbStartDaemon ifaddr d).wp faultSpec (DaemonOutcome s) ⟨s, []⟩ := by
  simp only [alvsDbStartDaemon, Prog.wp_bind, wp_internalDbGetApplicationInfo]
  refine ⟨.of_error (.inl rfl) rfl (strict_singleton id), ?_⟩
  cases s.cp.applicationInfo alvsApplicationInfoIndex with
  | none => exact .of_error (.inl rfl) rfl fun _ hc => absurd hc List.not_mem_nil
  | some row =>
    refine (Prog.wp_ite _ _ _ _ _).mpr ⟨fun _ => .of_failure, fun _ => ?_⟩
    refine (Prog.wp_ite _ _ _ _ _).mpr ⟨fun _ => .of_failure, fun _ => ?_⟩
    cases alvsDbHandleMcastIf ifaddr d row with
    | none => exact .of_failure
    | some v => exact outcome_modifyApplicationInfo _

theorem outcome_stopDaemon (s : Sys) (d : IpVsDaemonUser) :
    (alvsDbStopDaemon d).wp faultSpec (DaemonOutcome s) ⟨s, []⟩ := by
  simp only [alvsDbStopDaemon, Prog.wp_bind, wp_internalDbGetApplicationInfo]
  refine ⟨.of_error (.inl rfl) rfl (strict_singleton id), ?_⟩
  cases s.cp.applicationInfo alvsApplicationInfoIndex with
  | none => exact .of_error (.inl rfl) rfl fun _ hc => absurd hc List.not_mem_nil
  | some row =>
    refine (Prog.wp_ite _ _ _ _ _).mpr ⟨fun _ => .of_failure, fun _ => ?_⟩
    refine (Prog.wp_ite _ _ _ _ _).mpr ⟨fun _ => .of_failure, fun _ => ?_⟩
    exact outcome_modifyApplicationInfo _

/-! ## Requests -/

/-- An operation of the administrator, no round of the aging thread. -/
def CpOp.Admin : CpOp → Prop
  | .aging _ => False
  | _ => True

theorem outcome_admin {s : Sys} (hs : s.cp.AlgsSupported) : ∀ {op : CpOp}, op.Admin →
    (adminProgram op).wp faultSpec (Outcome s op) ⟨s, []⟩
  | .addService u, _ => outcome_addService hs u
  | .modifyService u, _ => outcome_modifyService hs u
  | .deleteService u uninit, _ => outcome_deleteService hs u uninit
  | .addServer u d, _ => outcome_addServer hs u d
  | .modifyServer u d, _ => outcome_modifyServer hs u d
  | .deleteServer u d, _ => outcome_deleteServer hs u d
  | .clear, _ => outcome_clear hs

section Serve

variable {s : Sys} (hs : s.cp.AlgsSupported) (env : Nat → CpEnv) (value : UInt64)

include hs

theorem serve_admin {op : CpOp} (hop : op.Admin) :
    Outcome s op (s.serve ⟨.ipvs op, env, value⟩).1 (s.serve ⟨.ipvs op, env, value⟩).2 := by
  refine serve_of_wp ?_
  rw [show (CpRequest.ipvs op).program value = adminProgram op by cases op <;> trivial]
  exact outcome_admin hs hop

theorem serve_aging (pick : Nat) :
    (s.served ⟨.ipvs (.aging pick), env, value⟩).cp.AlgsSupported ∧
    ((s.serve ⟨.ipvs (.aging pick), env, value⟩).1 = .internalError ∨
      (s.serve ⟨.ipvs (.aging pick), env, value⟩).1 = .ok ∧
        ((s.served ⟨.ipvs (.aging pick), env, value⟩).cp = s.cp ∨ ∃ pick',
          s.cp.Effect (.aging pick') (s.served ⟨.ipvs (.aging pick), env, value⟩).cp)) :=
  serve_of_wp (a := ⟨.ipvs (.aging pick), env, value⟩)
    (Q := fun rc g => g.sys.cp.AlgsSupported ∧ (rc = .internalError ∨ rc = .ok ∧
      (g.sys.cp = s.cp ∨ ∃ pick', s.cp.Effect (.aging pick') g.sys.cp)))
    (outcome_aging hs value)

end Serve

/-- A command on the daemons. -/
def CpRequest.Daemon : CpRequest → Prop
  | .ipvs _ => False
  | _ => True

theorem serve_daemon (s : Sys) {request : CpRequest} (h : request.Daemon) (env : Nat → CpEnv)
    (value : UInt64) :
    DaemonOutcome s (s.serve ⟨request, env, value⟩).1 (s.serve ⟨request, env, value⟩).2 := by
  cases request with
  | ipvs op => exact h.elim
  | initDaemon ifaddr d d' => exact serve_of_wp (outcome_initDaemon s ifaddr d d')
  | startDaemon ifaddr d => exact serve_of_wp (outcome_startDaemon s ifaddr d)
  | stopDaemon d => exact serve_of_wp (outcome_stopDaemon s d)

/-- A command of the administrator, no round of the aging thread. -/
def CpRequest.Command (request : CpRequest) : Prop :=
  (∃ op : CpOp, op.Admin ∧ request = .ipvs op) ∨ request.Daemon

theorem CpRequest.aging_or_command (request : CpRequest) :
    (∃ pick, request = .ipvs (.aging pick)) ∨ request.Command := by
  cases request with
  | ipvs op =>
    cases op with
    | aging pick => exact .inl ⟨pick, rfl⟩
    | _ => exact .inr (.inl ⟨_, by trivial, rfl⟩)
  | _ => exact .inr (.inr trivial)

theorem algs_served {s : Sys} (hs : s.cp.AlgsSupported) (a : CpAttempt) :
    (s.served a).cp.AlgsSupported := by
  obtain ⟨request, env, value⟩ := a
  obtain ⟨pick, rfl⟩ | ⟨op, hop, rfl⟩ | hd := request.aging_or_command
  · exact (serve_aging hs env value pick).1
  · exact (serve_admin hs env value hop).algs
  · rw [Sys.served, (serve_daemon s hd env value).tables]
    exact hs

/-- Whatever calls fail in a run, the algorithms of the services are supported. -/
theorem algs_run (as : List CpAttempt) : (as.foldl Sys.served Sys.init).cp.AlgsSupported :=
  List.foldlRecOn (motive := fun s => s.cp.AlgsSupported) as Sys.served Cp.Inv.init.algs
    fun _ hs a _ => algs_served hs a

end Alvs
