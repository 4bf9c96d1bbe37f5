import Alvs.Cp.Exec

/-!
# What the operations of the control plane do

For each operation, the state after it where every call succeeds : an operation that
does not return `ALVS_DB_OK` left the state as it was, and one that returns it changed the
state as the update functions of this file say. The updates are compositions of the
calls' own effects, in the order of the source.
-/

namespace Alvs

open ProgLogic

variable {s s' : Sys} {pick : Nat} {rc : AlvsDbRc}

/-- Every service row has an algorithm that is supported. -/
def Cp.AlgsSupported (cp : Cp) : Prop :=
  ∀ service ∈ cp.services, supportedSchedAlg service.schedAlg = true

theorem Cp.AlgsSupported.of_find {cp : Cp} (h : cp.AlgsSupported) {t : ServiceTuple}
    {service : DbService} (hf : cp.findService t = some service) :
    supportedSchedAlg service.schedAlg = true :=
  h _ (List.mem_of_find?_eq_some hf)

/-- The row a `SELECT` returns has the tuple it was selected by. -/
theorem Cp.findService_tuple {cp : Cp} {t : ServiceTuple} {service : DbService}
    (h : cp.findService t = some service) : service.tuple = t := by
  simpa using List.find?_some h

theorem Cp.findServer_key {cp : Cp} {t : ServiceTuple} {ip : UInt32} {port : UInt16}
    {r : ServerRow} (h : cp.findServer t ip port = some r) : r.key = (t, ip, port) := by
  simpa using List.find?_some h

/-- A row that a `SELECT` returns is returned for its own key. -/
theorem Cp.findServer_self {cp : Cp} {t : ServiceTuple} {ip : UInt32} {port : UInt16}
    {r : ServerRow} (h : cp.findServer t ip port = some r) :
    cp.findServer r.srv r.server.ip r.server.port = some r := by
  have hkey := Cp.findServer_key h
  simp only [ServerRow.key, Prod.mk.injEq] at hkey
  rw [hkey.1, hkey.2.1, hkey.2.2]
  exact h

def Sys.withEntry (s : Sys) (e : SearchEntry) : Sys := { s with nps := s.nps.setEntry e }

def Sys.withoutEntry (s : Sys) (k : SearchKey) : Sys := { s with nps := s.nps.eraseEntry k }

@[simp] theorem setEntry_serverInfo (nps : Nps) (v : DbServer) :
    (nps.setEntry (serverInfoEntry v)).serverInfo =
      Function.update nps.serverInfo v.npsIndex (some (buildNpsServerInfoResult v)) := rfl

/-! ## Services -/

/-- A new service with its info and classification entries. -/
def Sys.addedService (s : Sys) (v : DbService) (pool : WfPool serviceIndexPoolSize) : Sys where
  cp := { s.cp with services := s.cp.services ++ [v], serviceIndexPool := pool }
  nps := ((s.nps.clearPosted (serviceStatsBase v.npsIndex) alvsNumOfServiceStats).setEntry
    (serviceInfoEntry v)).setEntry
    (.serviceClassification (buildNpsServiceClassificationKey v.tuple)
      (buildNpsServiceClassificationResult v))

theorem addService_spec {u : IpVsServiceUser}
    (h : s.runCp pick (alvsDbAddService u) = (rc, s')) :
    rc ≠ .ok ∧ s' = s ∨
    rc = .ok ∧ supportedSchedAlg (getSchedAlg u.schedName) = true ∧
      s.cp.findService u.tuple = none ∧
      ∃ i pool, s.cp.serviceIndexPool.alloc = some (i, pool) ∧
        s' = s.addedService (newService u (.ofNat i)) pool := by
  revert h
  unfold alvsDbAddService
  rw [runCp_ite, runCp_ite]
  split_ifs with hp ha
  · rintro ⟨⟩
    exact .inl ⟨by decide, rfl⟩
  · rintro ⟨⟩
    exact .inl ⟨by decide, rfl⟩
  simp only [runCp_bind, runCp_internalDbGetService]
  cases hf : s.cp.findService u.tuple with
  | some v =>
    rintro ⟨⟩
    exact .inl ⟨by decide, rfl⟩
  | none =>
    cases halloc : s.cp.serviceIndexPool.alloc with
    | none =>
      simp only [runCp_bind, runCp_serviceIndexPoolAlloc_none halloc, runCp_pure]
      rintro ⟨⟩
      exact .inl ⟨by decide, rfl⟩
    | some ip =>
      have hf' : ∀ i, (s.cp.services.find? fun r => r.tuple = (newService u i).tuple) = none :=
        fun _ => hf
      simp only [runCp_bind, runCp_serviceIndexPoolAlloc_some halloc, runCp_cleanServiceStats,
        reduceCtorEq, if_false, runCp_internalDbAddService, hf', runCp_infraAddEntry, runCp_pure]
      rintro ⟨⟩
      exact .inr ⟨rfl, by simpa using ha, trivial, ip.1, ip.2, rfl, rfl⟩

/-- A service with new values, in the database and in its info entry. -/
def Sys.modifiedService (s : Sys) (v : DbService) : Sys where
  cp := s.cp.modifyService v
  nps := s.nps.setEntry (serviceInfoEntry v)

theorem modifyService_spec {u : IpVsServiceUser}
    (h : s.runCp pick (alvsDbModifyService u) = (rc, s')) :
    rc ≠ .ok ∧ s' = s ∨
    rc = .ok ∧ supportedSchedAlg (getSchedAlg u.schedName) = true ∧
      ∃ prev, s.cp.findService u.tuple = some prev ∧
        (prev.schedAlg = getSchedAlg u.schedName ∧ s' = s.modifiedService (modifiedRow prev u) ∨
          prev.schedAlg ≠ getSchedAlg u.schedName ∧
          s' = (s.recalculated (modifiedRow prev u)).modifiedService
            { modifiedRow prev u with
              schedEntriesCount := s.cp.entriesCount (modifiedRow prev u) }) := by
  revert h
  unfold alvsDbModifyService
  rw [runCp_ite]
  split_ifs with ha
  · rintro ⟨⟩
    exact .inl ⟨by decide, rfl⟩
  have ha : ∀ prev, supportedSchedAlg (modifiedRow prev u).schedAlg = true :=
    fun _ => by simpa [modifiedRow] using ha
  simp only [runCp_bind, runCp_internalDbGetService]
  cases hf : s.cp.findService u.tuple with
  | none =>
    rintro ⟨⟩
    exact .inl ⟨by decide, rfl⟩
  | some prev =>
    by_cases heq : prev.schedAlg = (modifiedRow prev u).schedAlg
    · simp only [heq, ne_eq, not_true_eq_false, if_false, runCp_bind, runCp_pure,
        runCp_internalDbModifyService, runCp_infraModifyEntry, reduceCtorEq]
      rintro ⟨⟩
      exact .inr ⟨rfl, ha prev, prev, rfl, .inl ⟨heq, rfl⟩⟩
    · simp only [heq, ne_eq, not_false_eq_true, if_true, runCp_bind, runCp_pure,
        runCp_recalculate _ _ _ (ha prev), runCp_internalDbModifyService, runCp_infraModifyEntry,
        reduceCtorEq, if_false, not_true_eq_false]
      rintro ⟨⟩
      exact .inr ⟨rfl, ha prev, prev, rfl, .inr ⟨heq, rfl⟩⟩

/-- The first server of a list marked as unavailable. -/
def Nps.deactivatedFirst (nps : Nps) (serverList : List DbServer) : Nps :=
  match serverList.head? with
  | none => nps
  | some server => nps.setEntry (serverInfoEntry server.unavailable)

theorem Nps.setEntry_setEntry (nps : Nps) (e : SearchEntry) :
    (nps.setEntry e).setEntry e = nps.setEntry e := by
  cases e <;> simp [Nps.setEntry]

theorem runCp_deactivateServers (serverList : List DbServer) :
    ∀ (n : Nat) (s : Sys), s.runCp pick (deactivateServers serverList (n + 1)) =
      (.ok, { s with nps := s.nps.deactivatedFirst serverList })
  | n, s => by
    unfold deactivateServers
    cases h : serverList.head? with
    | none =>
      cases n with
      | zero => simp [deactivateServers, Nps.deactivatedFirst, h]
      | succ n => simp [runCp_deactivateServers serverList n, Nps.deactivatedFirst, h]
    | some server =>
      cases n with
      | zero =>
        simp only [runCp_bind, runCp_infraModifyEntry, reduceCtorEq, if_false, deactivateServers,
          runCp_pure, Nps.deactivatedFirst, h]
      | succ n =>
        simp only [runCp_bind, runCp_infraModifyEntry, reduceCtorEq, if_false,
          runCp_deactivateServers serverList n, Nps.deactivatedFirst, h, Nps.setEntry_setEntry]

theorem runCp_deactivateServers_length (serverList : List DbServer) (s : Sys) :
    s.runCp pick (deactivateServers serverList serverList.length) =
      (.ok, { s with nps := s.nps.deactivatedFirst serverList }) := by
  cases serverList with
  | nil => rfl
  | cons server rest => exact runCp_deactivateServers (server :: rest) rest.length s

/-- A service deleted from the database, its index released, its classification and info
entries deleted and the first of its active servers marked as unavailable. -/
def Sys.deletedService (s : Sys) (v : DbService) : Sys where
  cp := { s.cp.deleteService v.tuple with
    serviceIndexPool := s.cp.serviceIndexPool.release v.npsIndex.toNat }
  nps := ((s.nps.eraseEntry
    (.serviceClassification (buildNpsServiceClassificationKey v.tuple))).eraseEntry
    (.serviceInfo (buildNpsServiceInfoKey v))).deactivatedFirst
    (s.cp.serverList v.tuple ⟨false, true⟩)

theorem deleteService_spec {u : IpVsServiceUser} {uninit : Nat} (hs : s.cp.AlgsSupported)
    (h : s.runCp pick (alvsDbDeleteService u uninit) = (rc, s')) :
    rc ≠ .ok ∧ s' = s ∨
    rc = .ok ∧ ∃ v, s.cp.findService u.tuple = some v ∧
      s' = (s.deletedService v).recalculated v := by
  revert h
  unfold alvsDbDeleteService
  simp only [runCp_bind, runCp_internalDbGetService]
  cases hf : s.cp.findService u.tuple with
  | none =>
    rintro ⟨⟩
    exact .inl ⟨by decide, rfl⟩
  | some v =>
    simp only [runCp_bind, runCp_internalDbGetServerCount, runCp_internalDbGetServerList,
      Option.getD_some, runCp_internalDbDeleteService, reduceCtorEq, if_false,
      runCp_serviceIndexPoolRelease, runCp_infraDeleteEntry, runCp_deactivateServers_length,
      ne_eq, not_true_eq_false, runCp_recalculate _ _ _ (hs.of_find hf), runCp_pure]
    rintro ⟨⟩
    exact .inr ⟨rfl, v, rfl, rfl⟩

/-! ## Servers -/

/-- The scheduling entries of a service recalculated and its info entry written, and its
row too where `modifyDb` is set. -/
def Sys.recalculatedService (s : Sys) (v : DbService) (modifyDb : Bool) : Sys :=
  let v' := { v with schedEntriesCount := s.cp.entriesCount v }
  let s := s.recalculated v
  { cp := if modifyDb then s.cp.modifyService v' else s.cp
    nps := s.nps.setEntry (serviceInfoEntry v') }

theorem runCp_recalculateAndModifyServiceInfo (s : Sys) {v : DbService}
    (h : supportedSchedAlg v.schedAlg = true) (modifyDb : Bool) :
    s.runCp pick (recalculateAndModifyServiceInfo v modifyDb) =
      (.ok, s.recalculatedService v modifyDb) := by
  unfold recalculateAndModifyServiceInfo
  cases modifyDb <;>
    simp only [runCp_bind, runCp_recalculate _ _ _ h, ne_eq, not_true_eq_false, if_false, if_true,
      Bool.false_eq_true, runCp_internalDbModifyService, runCp_infraModifyEntry, reduceCtorEq,
      runCp_pure, Sys.recalculatedService]

/-- A server with a new index, in the database and in its info entry, its counters and
flags cleared. -/
def Sys.addedServer (s : Sys) (t : ServiceTuple) (v : DbServer)
    (pool : WfPool serverIndexPoolSize) : Sys where
  cp := { s.cp with servers := s.cp.servers ++ [⟨t, v⟩], serverIndexPool := pool }
  nps := ((((s.nps.clearOnDemand (serverOnDemandStatsBase v.npsIndex)
    alvsNumOfServersOnDemandStats).clearPosted (serverStatsBase v.npsIndex)
    alvsNumOfServerStats).clearFlagsWord v.serverFlagsDpBase)).setEntry (serverInfoEntry v)

/-- An inactive server activated with the values of `v`. -/
def Sys.reactivated (s : Sys) (t : ServiceTuple) (v : DbServer) : Sys where
  cp := s.cp.updateServer t v.ip v.port v.activate
  nps := s.nps.setEntry (serverInfoEntry v)

/-- The state once `addServerRow` has made the row of server `v`. -/
def Sys.RowAdded (s : Sys) (service : DbService) (d : IpVsDestUser) (v : DbServer)
    (s' : Sys) : Prop :=
  (∃ r, s.cp.findServer service.tuple d.ip d.cpPort = some r ∧ r.server.active = false ∧
    v = reactivatedServer r.server d ∧ s' = s.reactivated service.tuple v) ∨
  s.cp.findServer service.tuple d.ip d.cpPort = none ∧
    ∃ i pool, s.cp.serverIndexPool.alloc = some (i, pool) ∧
      v = newServer service d (.ofNat i) ∧ s' = s.addedServer service.tuple v pool

theorem addServerRow_spec {service : DbService} {d : IpVsDestUser}
    {res : Except AlvsDbRc DbServer} (h : s.runCp pick (addServerRow service d) = (res, s')) :
    (∃ rc, res = .error rc ∧ rc ≠ .ok ∧ s' = s) ∨
    ∃ v, res = .ok v ∧ s.RowAdded service d v s' := by
  revert h
  unfold addServerRow
  simp only [runCp_bind, runCp_internalDbGetServer]
  cases hf : s.cp.findServer service.tuple d.ip d.cpPort with
  | some r =>
    by_cases hact : r.server.active = true
    · simp only [Option.map_some, hact, if_true, runCp_pure]
      rintro ⟨⟩
      exact .inl ⟨_, rfl, by decide, rfl⟩
    · simp only [Option.map_some, hact, if_false, runCp_bind, runCp_internalDbActivateServer,
        reduceCtorEq, runCp_infraModifyEntry, runCp_pure]
      rintro ⟨⟩
      exact .inr ⟨_, rfl, .inl ⟨r, hf, by simpa using hact, rfl, rfl⟩⟩
  | none =>
    cases halloc : s.cp.serverIndexPool.alloc with
    | none =>
      simp only [Option.map_none, runCp_bind, runCp_serverIndexPoolAlloc_none halloc]
      rintro ⟨⟩
      exact .inl ⟨_, rfl, by decide, rfl⟩
    | some ip =>
      have hf' : ∀ i, (s.cp.servers.find? fun r => r.key =
          (service.tuple, (newServer service d i).ip, (newServer service d i).port)) = none :=
        fun _ => hf
      simp only [Option.map_none, runCp_bind, runCp_serverIndexPoolAlloc_some halloc,
        runCp_cleanServerStats, reduceCtorEq, if_false, runCp_clearOverloadedFlag,
        runCp_internalDbAddServer, hf', runCp_infraModifyEntry, runCp_pure]
      rintro ⟨⟩
      exact .inr ⟨_, rfl, .inr ⟨hf, ip.1, ip.2, halloc, rfl, rfl⟩⟩

/-- The classification entry of a server. -/
def serverClassificationEntry (t : ServiceTuple) (v : DbServer) : SearchEntry :=
  .serverClassification (buildNpsServerClassificationKey t v.ip v.port) v.npsIndex

theorem addServer_spec {u : IpVsServiceUser} {d : IpVsDestUser} (hs : s.cp.AlgsSupported)
    (h : s.runCp pick (alvsDbAddServer u d) = (rc, s')) :
    rc ≠ .ok ∧ s' = s ∨
    rc = .ok ∧ ∃ service v s₁, s.cp.findService u.tuple = some service ∧
      (s.cp.serverList service.tuple ⟨false, true⟩).length ≠ alvsSizeOfSchedBucket ∧
      s.RowAdded service d v s₁ ∧
      s' = (if d.weight > 0 then s₁.recalculatedService service true else s₁).withEntry
        (serverClassificationEntry service.tuple v) := by
  revert h
  unfold alvsDbAddServer
  rw [runCp_ite]
  split
  next =>
    rintro ⟨⟩
    exact .inl ⟨by decide, rfl⟩
  rw [runCp_ite]
  split
  next =>
    rintro ⟨⟩
    exact .inl ⟨by decide, rfl⟩
  simp only [runCp_bind, runCp_internalDbGetService]
  cases hf : s.cp.findService u.tuple with
  | none =>
    rintro ⟨⟩
    exact .inl ⟨by decide, rfl⟩
  | some service =>
    simp only [runCp_bind, runCp_internalDbGetServerCount, Option.getD_some]
    by_cases hcount : (s.cp.serverList service.tuple ⟨false, true⟩).length = alvsSizeOfSchedBucket
    · simp only [hcount, if_true]
      rintro ⟨⟩
      exact .inl ⟨by decide, rfl⟩
    · simp only [hcount, if_false, runCp_bind]
      rcases hrow : s.runCp pick (addServerRow service d) with ⟨res, s₁⟩
      obtain ⟨rc', rfl, hrc, rfl⟩ | ⟨v, rfl, hadded⟩ := addServerRow_spec hrow
      · rintro ⟨⟩
        exact .inl ⟨hrc, rfl⟩
      · refine fun h => .inr ?_
        by_cases hw : d.weight > 0
        · simp only [hw, if_true, runCp_bind, ne_eq, runCp_infraAddEntry, reduceCtorEq, if_false,
            runCp_recalculateAndModifyServiceInfo _ (hs.of_find hf), not_true_eq_false,
            runCp_pure] at h
          obtain ⟨rfl, rfl⟩ := Prod.mk.inj h
          exact ⟨rfl, service, v, s₁, rfl, hcount, hadded, by simp [hw]; rfl⟩
        · simp only [hw, if_false, runCp_bind, runCp_infraAddEntry, reduceCtorEq,
            runCp_pure] at h
          obtain ⟨rfl, rfl⟩ := Prod.mk.inj h
          exact ⟨rfl, service, v, s₁, rfl, hcount, hadded, by simp [hw]; rfl⟩

/-- A server with the values of `v` in the database. -/
def Sys.modifiedServerRow (s : Sys) (t : ServiceTuple) (v : DbServer) (clearFlags : Bool) :
    Sys where
  cp := s.cp.updateServer t v.ip v.port v.modify
  nps := if clearFlags then s.nps.clearFlagsWord v.serverFlagsDpBase else s.nps

/-- The request lifts or raises the upper threshold, so the overload flag is cleared. -/
def raisesThreshold (row : DbServer) (d : IpVsDestUser) : Bool :=
  d.uThreshold = 0 ∨ d.uThreshold > row.uThresh

/-- The comparison of the new weight with the 8 bits kept of the old one. -/
def weightSeemsChanged (row : DbServer) (d : IpVsDestUser) : Bool :=
  d.storedWeight ≠ row.weight.toUInt8.toUInt16

theorem modifyServer_spec {u : IpVsServiceUser} {d : IpVsDestUser} (hs : s.cp.AlgsSupported)
    (h : s.runCp pick (alvsDbModifyServer u d) = (rc, s')) :
    rc ≠ .ok ∧ s' = s ∨
    rc = .ok ∧ ∃ service r s₁, s.cp.findService u.tuple = some service ∧
      s.cp.findServer service.tuple d.ip d.cpPort = some r ∧ r.server.active = true ∧
      s₁ = s.modifiedServerRow service.tuple (modifiedServer r.server d)
        (raisesThreshold r.server d) ∧
      s' = (if weightSeemsChanged r.server d then s₁.recalculatedService service false
        else s₁).withEntry (serverInfoEntry (modifiedServer r.server d)) := by
  revert h
  unfold alvsDbModifyServer
  rw [runCp_ite]
  split
  next =>
    rintro ⟨⟩
    exact .inl ⟨by decide, rfl⟩
  rw [runCp_ite]
  split
  next =>
    rintro ⟨⟩
    exact .inl ⟨by decide, rfl⟩
  simp only [runCp_bind, runCp_internalDbGetService]
  cases hf : s.cp.findService u.tuple with
  | none =>
    rintro ⟨⟩
    exact .inl ⟨by decide, rfl⟩
  | some service =>
    simp only [runCp_bind, runCp_internalDbGetServer]
    cases hr : s.cp.findServer service.tuple d.ip d.cpPort with
    | none =>
      rintro ⟨⟩
      exact .inl ⟨by decide, rfl⟩
    | some r =>
      simp only [Option.map_some]
      cases hact : r.server.active with
      | false =>
        rintro ⟨⟩
        exact .inl ⟨by decide, rfl⟩
      | true =>
        refine fun h => .inr ?_
        by_cases hu : d.uThreshold = 0 ∨ d.uThreshold > r.server.uThresh <;>
        by_cases hw : (modifiedServer r.server d).weight ≠ r.server.weight.toUInt8.toUInt16 <;>
        · simp only [hu, hw, if_true, if_false, reduceCtorEq, Bool.true_eq_false, runCp_bind,
            runCp_clearOverloadedFlag, runCp_internalDbModifyServer, runCp_infraModifyEntry,
            runCp_recalculateAndModifyServiceInfo _ (hs.of_find hf), ne_eq, not_true_eq_false,
            not_false_eq_true, runCp_pure] at h
          obtain ⟨rfl, rfl⟩ := Prod.mk.inj h
          refine ⟨rfl, service, r, _, rfl, hr, hact, rfl, ?_⟩
          simp only [modifiedServer, ne_eq] at hw
          simp only [weightSeemsChanged, raisesThreshold, hu, hw, decide_true, decide_false,
            if_true, if_false, Bool.false_eq_true, ne_eq, not_false_eq_true]
          rfl

/-- A server deactivated in the database. -/
def Sys.deactivatedServerRow (s : Sys) (r : ServerRow) : Sys :=
  { s with cp := s.cp.updateServer r.srv r.server.ip r.server.port DbServer.deactivated }

theorem deleteServer_spec {u : IpVsServiceUser} {d : IpVsDestUser} (hs : s.cp.AlgsSupported)
    (h : s.runCp pick (alvsDbDeleteServer u d) = (rc, s')) :
    rc ≠ .ok ∧ s' = s ∨
    rc = .ok ∧ ∃ service r s₁, s.cp.findService u.tuple = some service ∧
      s.cp.findServer service.tuple d.ip d.cpPort = some r ∧ r.server.active = true ∧
      s₁ = s.deactivatedServerRow r ∧
      s' = ((if r.server.weight > 0 then s₁.recalculatedService service false
        else s₁).withEntry (serverInfoEntry r.server.unavailable)).withoutEntry
          (.serverClassification (buildNpsServerClassificationKey r.srv r.server.ip
            r.server.port)) := by
  revert h
  unfold alvsDbDeleteServer
  simp only [runCp_bind, runCp_internalDbGetService]
  cases hf : s.cp.findService u.tuple with
  | none =>
    rintro ⟨⟩
    exact .inl ⟨by decide, rfl⟩
  | some service =>
    simp only [runCp_bind, runCp_internalDbGetServer]
    cases hr : s.cp.findServer service.tuple d.ip d.cpPort with
    | none =>
      rintro ⟨⟩
      exact .inl ⟨by decide, rfl⟩
    | some r =>
      simp only [Option.map_some]
      cases hact : r.server.active with
      | false =>
        rintro ⟨⟩
        exact .inl ⟨by decide, rfl⟩
      | true =>
        refine fun h => .inr ?_
        have hsrv : service.tuple = r.srv := (congrArg Prod.fst (Cp.findServer_key hr)).symm
        by_cases hw : r.server.unavailable.weight > 0 <;>
        · simp only [hw, if_true, if_false, Bool.true_eq_false, runCp_bind,
            runCp_internalDbDeactivateServer, runCp_infraModifyEntry, runCp_infraDeleteEntry,
            runCp_recalculateAndModifyServiceInfo _ (hs.of_find hf), ne_eq, not_true_eq_false,
            runCp_pure] at h
          obtain ⟨rfl, rfl⟩ := Prod.mk.inj h
          refine ⟨rfl, service, r, _, rfl, hr, hact, rfl, ?_⟩
          simp only [DbServer.unavailable] at hw
          simp only [hw, if_true, if_false, hsrv]
          rfl

/-! ## Clear and the aging of a server -/

/-- The classification entries of services deleted. -/
def Nps.withoutServices (nps : Nps) (services : List DbService) : Nps :=
  services.foldl
    (fun nps v => nps.eraseEntry
      (.serviceClassification (buildNpsServiceClassificationKey v.tuple))) nps

theorem runCp_deleteServiceClassifications (list : List DbService) :
    ∀ (inds : List Nat) (s : Sys),
    s.runCp pick (deleteServiceClassifications list inds) =
      (.ok, { s with nps := s.nps.withoutServices (inds.filterMap (cyclicNode list)) })
  | [], s => rfl
  | ind :: inds, s => by
    unfold deleteServiceClassifications
    cases h : cyclicNode list ind with
    | none =>
      simp only [runCp_deleteServiceClassifications list inds, List.filterMap_cons_none h]
    | some v =>
      simp only [runCp_bind, runCp_infraDeleteEntry, if_false, Bool.true_eq_false,
        runCp_deleteServiceClassifications list inds, List.filterMap_cons_some h,
        Nps.withoutServices, List.foldl_cons]

/-- The first nodes of a cyclic list, each once. -/
theorem take_cyclicNode {α : Type} (l : List α) :
    ∀ {n : Nat}, n ≤ l.length → (List.range n).filterMap (cyclicNode l) = l.take n
  | 0, _ => rfl
  | n + 1, h => by
    have hnode : cyclicNode l n = l[n]? := by rw [cyclicNode, Nat.mod_eq_of_lt h]
    rw [List.range_succ, List.filterMap_append, take_cyclicNode l (Nat.le_of_succ_le h),
      List.take_add_one]
    cases hn : l[n]? <;> simp [hnode, hn]

theorem filterMap_cyclicNode {α : Type} (l : List α) :
    (List.range l.length).filterMap (cyclicNode l) = l := by
  rw [take_cyclicNode l le_rfl, List.take_length]

/-- Everything but the servers cleared. -/
def Sys.cleared (s : Sys) : Sys where
  cp := { s.cp.clearAll with serviceIndexPool := s.cp.serviceIndexPool.rewind }
  nps := ((s.nps.withoutServices s.cp.services).eraseAllEntries .serviceInfo).eraseAllEntries
    .schedInfo

theorem clear_spec (h : s.runCp pick alvsDbClear = (rc, s')) : rc = .ok ∧ s' = s.cleared := by
  revert h
  unfold alvsDbClear
  simp only [runCp_bind, runCp_internalDbGetServiceCount, runCp_internalDbGetServiceList,
    runCp_deleteServiceClassifications, filterMap_cyclicNode, ne_eq, not_true_eq_false, if_false,
    runCp_infraDeleteAllEntries, Bool.true_eq_false, runCp_internalDbClearAll,
    runCp_serviceIndexPoolRewind, runCp_pure]
  rintro ⟨⟩
  exact ⟨rfl, rfl⟩

/-- The row of a server deleted, its info entry too, and its index released. -/
def Sys.reclaimed (s : Sys) (r : ServerRow) : Sys where
  cp := { s.cp.deleteServer r.srv r.server.ip r.server.port with
    serverIndexPool := s.cp.serverIndexPool.release r.server.npsIndex.toNat }
  nps := s.nps.eraseEntry (.serverInfo r.server.npsIndex)

/-- The aging thread reclaims an inactive server whose connection count reads 0, or does
nothing. -/
theorem aging_spec {l l' : AgingLocal} (h : s.runCp pick (serverDbAging l) = (l', s')) :
    s' = s ∨ ∃ r ∈ s.cp.servers, r.server.active = false ∧
      counterValue (s.nps.onDemand ((serverOnDemandStatsBase r.server.npsIndex).add
        alvsServerStatsConnectionTotalOffset)) = 0 ∧ s' = s.reclaimed r := by
  revert h
  unfold serverDbAging
  split
  next =>
    rintro ⟨⟩
    exact .inl rfl
  simp only [runCp_bind, runCp_stepInactiveServers]
  cases hrow : (s.cp.servers.filter fun r => !r.server.active)[pick]? with
  | none =>
    rintro ⟨⟩
    exact .inl rfl
  | some r =>
    have hmem := List.mem_filter.mp (List.mem_of_getElem? hrow)
    simp only [runCp_bind, runCp_getNumConnTotal, reduceCtorEq, if_false, Option.getD_some]
    by_cases hzero : counterValue (s.nps.onDemand ((serverOnDemandStatsBase
        r.server.npsIndex).add alvsServerStatsConnectionTotalOffset)) = 0
    · simp only [hzero, ne_eq, not_true_eq_false, if_false, runCp_bind,
        runCp_internalDbDeleteServer, Bool.true_eq_false, runCp_infraDeleteEntry,
        runCp_serverIndexPoolRelease, runCp_pure]
      rintro ⟨⟩
      exact .inr ⟨r, hmem.1, by simpa using hmem.2, hzero, rfl⟩
    · simp only [hzero, ne_eq, not_false_eq_true, if_true, runCp_pure]
      rintro ⟨⟩
      exact .inl rfl

end Alvs
