import Alvs.Cp.IndexPools
import Alvs.Cp.VirtualServers
import Alvs.Lib.Rows
import Alvs.PoolQueue

/-!
# The requests on the database

The database holds a table of virtual servers (`Cp.table`). Where every call succeeds, an operation
accepts its request exactly if the table admits it, and then the table is that with the request
applied; otherwise it returns `ALVS_DB_FAILURE` or `ALVS_DB_NOT_SUPPORTED` and changes nothing
(`Served`).
-/

namespace Alvs

open ProgLogic

/-! ## The table of the database -/

def DbService.vs (v : DbService) : VsService := ⟨v.schedAlg, v.flags⟩

def DbServer.vs (v : DbServer) : VsServer := ⟨⟨v.connFlags, v.weight, v.uThresh, v.lThresh⟩,
    v.active⟩

/-- The services and servers of the database. -/
def Cp.table (cp : Cp) : VsTable where
  service t := (cp.findService t).map DbService.vs
  server k := (cp.findServer k.1 k.2.1 k.2.2).map fun r => r.server.vs

/-- The values of a request. -/
def IpVsDestUser.vs (d : IpVsDestUser) : VsDest :=
  ⟨d.connFlags, d.storedWeight, d.uThreshold, d.lThreshold⟩

/-- The server that a request names. -/
def serverKey (u : IpVsServiceUser) (d : IpVsDestUser) : ServerKey := (u.tuple, d.ip, d.cpPort)

section Table

variable {cp cp' : Cp}

theorem table_ext (hservices : cp'.services = cp.services) (hservers : cp'.servers = cp.servers) :
    cp'.table = cp.table := by
  simp only [Cp.table, Cp.findService, Cp.findServer, hservices, hservers]

theorem findService_eq (t : ServiceTuple) :
    cp.findService t = Rows.get DbService.tuple cp.services t := rfl

theorem findServer_eq (k : ServerKey) :
    cp.findServer k.1 k.2.1 k.2.2 = Rows.get ServerRow.key cp.servers k := rfl

theorem service_eq_none {t : ServiceTuple} :
    cp.table.service t = none ↔ cp.findService t = none := by simp [Cp.table]

theorem server_eq_none {k : ServerKey} :
    cp.table.server k = none ↔ cp.findServer k.1 k.2.1 k.2.2 = none := by simp [Cp.table]

/-- A change of the rows at one key is one of the table. -/
theorem table_service_update {t : ServiceTuple} {o : Option DbService}
    (h : Rows.get DbService.tuple cp'.services =
      Function.update (Rows.get DbService.tuple cp.services) t o) :
    cp'.table.service = Function.update cp.table.service t (o.map DbService.vs) := by
  funext t'
  simp only [Cp.table, findService_eq, h]
  exact Function.apply_update (fun _ => Option.map DbService.vs) _ t o t'

theorem table_server_update {k : ServerKey} {o : Option ServerRow}
    (h : Rows.get ServerRow.key cp'.servers =
      Function.update (Rows.get ServerRow.key cp.servers) k o) :
    cp'.table.server = Function.update cp.table.server k (o.map fun r => r.server.vs) := by
  funext k'
  simp only [Cp.table, findServer_eq, h]
  exact Function.apply_update (fun _ => Option.map fun r : ServerRow => r.server.vs) _ k o k'

/-- `UPDATE services` sets the values of the service. -/
theorem table_modifyService {v prev : DbService} (h : cp.findService v.tuple = some prev) :
    (cp.modifyService v).table = cp.table.withService v.tuple v.vs := by
  refine VsTable.ext ?_ rfl
  have hget := Rows.get_update DbService.tuple cp.services
    (f := fun r => { r with
      flags := v.flags
      schedAlg := v.schedAlg
      schedEntriesCount := v.schedEntriesCount }) (fun _ => rfl) v.tuple
  rw [table_service_update hget, ← findService_eq, h]
  rfl

/-- `UPDATE servers` sets the values of the server. -/
theorem table_updateServer {t : ServiceTuple} {ip : UInt32} {port : UInt16} {r : ServerRow}
    {f : DbServer → DbServer} (h : cp.findServer t ip port = some r)
    (hip : ∀ v, (f v).ip = v.ip) (hport : ∀ v, (f v).port = v.port) :
    (cp.updateServer t ip port f).table = cp.table.withServer (t, ip, port) (f r.server).vs := by
  refine VsTable.ext rfl ?_
  have hget := Rows.get_update ServerRow.key cp.servers
    (f := fun r => { r with server := f r.server })
    (fun r => by simp only [ServerRow.key, hip, hport]) (t, ip, port)
  rw [table_server_update hget, ← findServer_eq, h]
  rfl

/-- A recalculation of the scheduling entries leaves the table. -/
theorem table_recalculatedService {s : Sys} {v : DbService} {modifyDb : Bool} {t : ServiceTuple}
    (h : s.cp.findService t = some v) : (s.recalculatedService v modifyDb).cp.table =
      s.cp.table := by
  cases modifyDb with
  | false => rfl
  | true =>
    have htuple : v.tuple = t := Cp.findService_tuple h
    have hmodify := table_modifyService
      (v := { v with schedEntriesCount := s.cp.entriesCount v }) (htuple ▸ h)
    refine hmodify.trans (VsTable.ext ?_ rfl)
    have hself : s.cp.table.service v.tuple = some v.vs := by
      simp only [Cp.table, htuple, h, Option.map_some]
    exact (congrArg (Function.update s.cp.table.service v.tuple) hself.symm).trans
      (Function.update_eq_self _ _)

/-- The servers deactivated as the rows are. -/
theorem table_deactivated {p : ServerKey → Bool} (k : ServerKey)
    (h : cp'.servers = cp.servers.map fun r =>
      if p r.key then { r with server := r.server.deactivated } else r) :
    cp'.table.server k = cp.table.deactivate p k := by
  have hkey (r : ServerRow) : ServerRow.key
      (if p r.key then { r with server := r.server.deactivated } else r) = r.key := by
    split <;> rfl
  have hget := Rows.get_map (k := k) ServerRow.key cp.servers hkey
  simp only [Cp.table, findServer_eq, VsTable.deactivate, h, hget]
  cases hr : Rows.get ServerRow.key cp.servers k with
  | none => split <;> rfl
  | some r =>
    have hk : r.key = k := Rows.key_of_get hr
    by_cases hp : p k = true
    · simp only [Option.map_some, hk, hp, if_true]
      rfl
    · simp only [Option.map_some, hk, hp]
      rfl

/-! ### Counts and pools -/

theorem services_ncard (h : cp.Inv) : cp.table.services.ncard = cp.services.length := by
  have hset : cp.table.services =
      {t | ∃ v, Rows.get DbService.tuple cp.services t = some v ∧ true = true} := by
    ext t
    simp [VsTable.services, Cp.table, findService_eq, Option.ne_none_iff_exists']
  rw [hset, ← Rows.length_filter (h.services_distinct.imp And.left) fun _ => true,
    List.filter_true]

theorem servers_ncard (h : cp.Inv) : cp.table.servers.ncard = cp.servers.length := by
  have hset : cp.table.servers =
      {k | ∃ r, Rows.get ServerRow.key cp.servers k = some r ∧ true = true} := by
    ext k
    simp [VsTable.servers, Cp.table, findServer_eq, Option.ne_none_iff_exists']
  rw [hset, ← Rows.length_filter (h.servers_distinct.imp And.left) fun _ => true,
    List.filter_true]

theorem activeServers_ncard (h : cp.Inv) (t : ServiceTuple) :
    (cp.table.activeServers t).ncard = (cp.serverList t ⟨false, true⟩).length := by
  have hset : cp.table.activeServers t = {k | ∃ r, Rows.get ServerRow.key cp.servers k = some r ∧
      Cp.Selected t ⟨false, true⟩ r = true} := by
    ext k
    simp only [VsTable.activeServers, Cp.table, findServer_eq, Set.mem_ofPred_eq,
      Option.map_eq_some_iff, Cp.Selected]
    constructor
    · rintro ⟨v, ⟨r, hr, rfl⟩, rfl, hact⟩
      have hkey : r.srv = k.1 := congrArg Prod.fst (Rows.key_of_get hr)
      exact ⟨r, hr, by simpa [hkey, DbServer.vs] using hact⟩
    · rintro ⟨r, hr, hsel⟩
      have hkey : r.srv = k.1 := congrArg Prod.fst (Rows.key_of_get hr)
      have hsel : r.srv = t ∧ r.server.active = true := by simpa using hsel
      exact ⟨_, ⟨r, hr, rfl⟩, hkey.symm.trans hsel.1, hsel.2⟩
  rw [hset, ← Rows.length_filter (h.servers_distinct.imp And.left), Cp.serverList, List.length_map]

/-- Distinct numbers below `n` are all of them where there are `n`. -/
theorem length_eq_iff_all {n : Nat} {l : List Nat} (hnodup : l.Nodup) (hlt : ∀ i ∈ l, i < n) :
    l.length = n ↔ ∀ i < n, i ∈ l := by
  have hsub : l.toFinset ⊆ Finset.range n := fun i hi =>
    Finset.mem_range.mpr (hlt i (List.mem_toFinset.mp hi))
  constructor
  · intro hlen i hi
    have hcard : (Finset.range n).card ≤ l.toFinset.card := by
      rw [Finset.card_range, List.toFinset_card_of_nodup hnodup, hlen]
    rw [← List.mem_toFinset, Finset.eq_of_subset_of_card_le hsub hcard]
    exact Finset.mem_range.mpr hi
  · intro hall
    have heq : l.toFinset = Finset.range n :=
      hsub.antisymm fun i hi => List.mem_toFinset.mpr (hall i (Finset.mem_range.mp hi))
    rw [← List.toFinset_card_of_nodup hnodup, heq, Finset.card_range]

theorem wfPool_alloc_eq_none {n : Nat} (p : WfPool n) :
    p.alloc = none ↔ ∀ i < n, p.flag i = true := by
  have halloc : p.alloc = none ↔ p.pool.indexPoolAlloc = none := by
    unfold WfPool.alloc
    split
    next h => exact iff_of_true rfl h
    next h => exact iff_of_false (Option.some_ne_none _) (h ▸ Option.some_ne_none _)
  rw [halloc, p.wf.alloc_eq_none_iff, p.maxSize_eq]
  rfl

/-- No service index is left where all services are there that there can be. -/
theorem serviceAlloc_eq_none (h : cp.Inv) (hheld : cp.Held) :
    cp.serviceIndexPool.alloc = none ↔ cp.table.services.ncard = serviceIndexPoolSize := by
  have hnodup : (cp.services.map fun v => v.npsIndex.toNat).Nodup :=
    List.pairwise_map.mpr (h.services_distinct.imp fun hne heq => hne.2 (UInt32.toNat_inj.mp heq))
  have hiff := length_eq_iff_all hnodup fun i hi => by
    obtain ⟨v, hv, rfl⟩ := List.mem_map.mp hi
    exact (h.services_index v hv).1
  rw [List.length_map] at hiff
  rw [services_ncard h, hiff, wfPool_alloc_eq_none]
  refine forall_congr' fun i => imp_congr_right fun _ => ⟨fun hflag => ?_, fun hi => ?_⟩
  · obtain ⟨v, hv, hvi⟩ := hheld.services i hflag
    exact List.mem_map.mpr ⟨v, hv, hvi⟩
  · obtain ⟨v, hv, rfl⟩ := List.mem_map.mp hi
    exact (h.services_index v hv).2

theorem serverAlloc_eq_none (h : cp.Inv) (hheld : cp.Held) :
    cp.serverIndexPool.alloc = none ↔ cp.table.servers.ncard = serverIndexPoolSize := by
  have hnodup : (cp.servers.map fun r => r.server.npsIndex.toNat).Nodup :=
    List.pairwise_map.mpr (h.servers_distinct.imp fun hne heq => hne.2 (UInt32.toNat_inj.mp heq))
  have hiff := length_eq_iff_all hnodup fun i hi => by
    obtain ⟨r, hr, rfl⟩ := List.mem_map.mp hi
    exact (h.servers_index r hr).1
  rw [List.length_map] at hiff
  rw [servers_ncard h, hiff, wfPool_alloc_eq_none]
  refine forall_congr' fun i => imp_congr_right fun _ => ⟨fun hflag => ?_, fun hi => ?_⟩
  · obtain ⟨r, hr, hri⟩ := hheld.servers i hflag
    exact List.mem_map.mpr ⟨r, hr, hri⟩
  · obtain ⟨r, hr, rfl⟩ := List.mem_map.mp hi
    exact (h.servers_index r hr).2

end Table

/-! ## Operations -/

/-- What an operation returns and the state after it are those of the request on the table. -/
structure Served (s : Sys) (req : VsRequest) (out : AlvsDbRc × Sys) : Prop where
  admitted : s.cp.table.Admits req → out.1 = .ok ∧ out.2.cp.table = s.cp.table.apply req
  refused : ¬ s.cp.table.Admits req →
    (out.1 = .failure ∨ out.1 = .notSupported) ∧ out.2 = s

section Served

variable {s s' : Sys} {req : VsRequest} {pick : Nat}

theorem Served.of_admitted (h : s.cp.table.Admits req)
    (htable : s'.cp.table = s.cp.table.apply req) : Served s req (.ok, s') :=
  ⟨fun _ => ⟨rfl, htable⟩, fun hnot => absurd h hnot⟩

theorem Served.of_refused {rc : AlvsDbRc} (h : ¬ s.cp.table.Admits req)
    (hrc : rc = .failure ∨ rc = .notSupported) : Served s req (rc, s) :=
  ⟨fun hadmits => absurd hadmits h, fun _ => ⟨hrc, rfl⟩⟩

theorem Served.handle {out : AlvsDbRc × Sys} (h : Served s req out) :
    out.2.cp.table = s.cp.table.handle req := by
  by_cases hadmits : s.cp.table.Admits req
  · rw [(h.admitted hadmits).2, VsTable.handle_of_admits hadmits]
  · rw [(h.refused hadmits).2, VsTable.handle_of_not_admits hadmits]

theorem served_addService (h : s.cp.Inv) (hheld : s.cp.Held) {u : IpVsServiceUser} {f : IpVsFlags}
    (hflags : s.cp.findService u.tuple = none → u.flags = f.applied 0) :
    Served s (.newService u.tuple (getSchedAlg u.schedName) f)
      (s.runCp pick (alvsDbAddService u)) := by
  unfold alvsDbAddService
  rw [runCp_ite, runCp_ite]
  split_ifs with hp ha
  · exact .of_refused (fun hadmits => Bool.false_ne_true (hp.symm.trans hadmits.1)) (.inr rfl)
  · exact .of_refused (fun hadmits => Bool.false_ne_true (ha.symm.trans hadmits.2.1)) (.inr rfl)
  simp only [runCp_bind, runCp_internalDbGetService]
  cases hf : s.cp.findService u.tuple with
  | some v =>
    refine .of_refused (fun hadmits => ?_) (.inl rfl)
    rw [service_eq_none.mp hadmits.2.2.1] at hf
    cases hf
  | none =>
    cases halloc : s.cp.serviceIndexPool.alloc with
    | none =>
      simp only [runCp_bind, runCp_serviceIndexPoolAlloc_none halloc, runCp_pure]
      exact .of_refused (fun hadmits => hadmits.2.2.2 ((serviceAlloc_eq_none h hheld).mp halloc))
        (.inr rfl)
    | some ip =>
      have hf' : ∀ i, (s.cp.services.find? fun r => r.tuple = (newService u i).tuple) = none :=
        fun _ => hf
      simp only [runCp_bind, runCp_serviceIndexPoolAlloc_some halloc, runCp_cleanServiceStats,
        reduceCtorEq, if_false, runCp_internalDbAddService, hf', runCp_infraAddEntry, runCp_pure]
      have hroom : s.cp.table.services.ncard ≠ serviceIndexPoolSize := fun heq =>
        Option.some_ne_none ip (halloc.symm.trans ((serviceAlloc_eq_none h hheld).mpr heq))
      have hprotocol : supportedProtocol u.protocol = true := by simpa using hp
      refine .of_admitted ⟨hprotocol, by simpa using ha, service_eq_none.mpr hf, hroom⟩ ?_
      refine VsTable.ext ?_ rfl
      rw [table_service_update (Rows.get_append DbService.tuple (hf' (.ofNat ip.1)))]
      simp only [Option.map_some, DbService.vs, newService, hflags hf]
      rfl

theorem served_modifyService {u : IpVsServiceUser} {f : IpVsFlags}
    (hflags : ∀ v, s.cp.findService u.tuple = some v → u.flags = f.applied v.flags) :
    Served s (.setService u.tuple (getSchedAlg u.schedName) f)
      (s.runCp pick (alvsDbModifyService u)) := by
  unfold alvsDbModifyService
  rw [runCp_ite]
  split_ifs with ha
  · exact .of_refused (fun hadmits => Bool.false_ne_true (ha.symm.trans hadmits.1)) (.inr rfl)
  simp only [runCp_bind, runCp_internalDbGetService]
  cases hf : s.cp.findService u.tuple with
  | none => exact .of_refused (fun hadmits => hadmits.2 (service_eq_none.mpr hf)) (.inl rfl)
  | some prev =>
    have hadmits : s.cp.table.Admits (.setService u.tuple (getSchedAlg u.schedName) f) :=
      ⟨by simpa using ha, fun hnone => by
        rw [service_eq_none.mp hnone] at hf
        cases hf⟩
    have htuple : prev.tuple = u.tuple := Cp.findService_tuple hf
    have htable {v : DbService} (hv : v.tuple = prev.tuple)
        (hvs : v.vs = (modifiedRow prev u).vs) : (s.cp.modifyService v).table =
          s.cp.table.apply (.setService u.tuple (getSchedAlg u.schedName) f) := by
      have hold : s.cp.table.service u.tuple = some prev.vs := by
        simp only [Cp.table, hf, Option.map_some]
      rw [table_modifyService (by rw [hv, htuple, hf]), hv, htuple, hvs, VsTable.apply, hold]
      simp only [DbService.vs, modifiedRow, hflags prev hf, Option.map_some, Option.getD_some]
    by_cases heq : prev.schedAlg = (modifiedRow prev u).schedAlg
    · simp only [heq, ne_eq, not_true_eq_false, if_false, runCp_bind, runCp_pure,
        runCp_internalDbModifyService, runCp_infraModifyEntry, reduceCtorEq]
      exact .of_admitted hadmits (htable rfl rfl)
    · have hsup : supportedSchedAlg (modifiedRow prev u).schedAlg = true := hadmits.1
      simp only [heq, ne_eq, not_false_eq_true, if_true, runCp_bind, runCp_pure,
        runCp_recalculate _ _ _ hsup, runCp_internalDbModifyService, runCp_infraModifyEntry,
        reduceCtorEq, if_false, not_true_eq_false]
      exact .of_admitted hadmits (htable rfl rfl)

theorem served_deleteService (hs : s.cp.AlgsSupported) {u : IpVsServiceUser} {uninit : Nat} :
    Served s (.delService u.tuple) (s.runCp pick (alvsDbDeleteService u uninit)) := by
  unfold alvsDbDeleteService
  simp only [runCp_bind, runCp_internalDbGetService]
  cases hf : s.cp.findService u.tuple with
  | none => exact .of_refused (fun hadmits => hadmits (service_eq_none.mpr hf)) (.inl rfl)
  | some v =>
    have htuple : v.tuple = u.tuple := Cp.findService_tuple hf
    simp only [runCp_bind, runCp_internalDbGetServerCount, runCp_internalDbGetServerList,
      Option.getD_some, runCp_internalDbDeleteService, reduceCtorEq, if_false,
      runCp_serviceIndexPoolRelease, runCp_infraDeleteEntry, runCp_deactivateServers_length,
      ne_eq, not_true_eq_false, runCp_recalculate _ _ _ (hs.of_find hf), runCp_pure]
    refine .of_admitted (fun hnone => by
      rw [service_eq_none.mp hnone] at hf
      cases hf) (VsTable.ext ?_ ?_)
    · rw [table_service_update (Rows.get_erase DbService.tuple s.cp.services v.tuple), htuple]
      rfl
    · funext k
      refine table_deactivated (p := fun k => k.1 = u.tuple) k ?_
      refine List.map_congr_left fun r _ => ?_
      rw [htuple]
      exact if_congr decide_eq_true_iff.symm rfl rfl

theorem served_clear : Served s .flush (s.runCp pick alvsDbClear) := by
  rcases hrun : s.runCp pick alvsDbClear with ⟨rc, s'⟩
  obtain ⟨rfl, rfl⟩ := clear_spec hrun
  refine .of_admitted trivial (VsTable.ext rfl ?_)
  funext k
  exact table_deactivated (p := fun _ => true) k rfl

/-- The checks of a server request that come first. -/
theorem served_dest_refused {d : IpVsDestUser} {p : CpProg AlvsDbRc}
    (hreq : ∀ T : VsTable, T.Admits req → d.vs.Acceptable)
    (hp : d.vs.Acceptable → Served s req (s.runCp pick p)) :
    Served s req (s.runCp pick (if supportedRoutingAlg d.connFlags = false then
      pure .notSupported else if d.lThreshold > d.uThreshold then pure .notSupported else p)) := by
  rw [runCp_ite, runCp_ite]
  split_ifs with hr ht
  · exact .of_refused (fun hadmits => Bool.false_ne_true (hr.symm.trans (hreq _ hadmits).1))
      (.inr rfl)
  · exact .of_refused (fun hadmits => absurd (hreq _ hadmits).2 (UInt32.not_le.mpr ht)) (.inr rfl)
  · exact hp ⟨Bool.eq_true_of_not_eq_false hr, UInt32.not_lt.mp ht⟩

theorem mem_activeServers {cp : Cp} {k : ServerKey} :
    k ∈ cp.table.activeServers k.1 ↔
      ∃ r, cp.findServer k.1 k.2.1 k.2.2 = some r ∧ r.server.active = true := by
  simp only [VsTable.activeServers, Cp.table, Set.mem_ofPred_eq, Option.map_eq_some_iff]
  constructor
  · rintro ⟨v, ⟨r, hr, rfl⟩, -, hact⟩
    exact ⟨r, hr, hact⟩
  · rintro ⟨r, hr, hact⟩
    exact ⟨_, ⟨r, hr, rfl⟩, trivial, hact⟩

/-- The row of a server that is active already, or has none and gets no index, is not made. -/
theorem addServerRow_cases {service : DbService} {d : IpVsDestUser}
    {res : Except AlvsDbRc DbServer} (h : s.runCp pick (addServerRow service d) = (res, s')) :
    (∃ rc, res = .error rc ∧ (rc = .failure ∨ rc = .notSupported) ∧ s' = s ∧
      ((∃ r, s.cp.findServer service.tuple d.ip d.cpPort = some r ∧ r.server.active = true) ∨
        s.cp.findServer service.tuple d.ip d.cpPort = none ∧ s.cp.serverIndexPool.alloc = none)) ∨
    ∃ v, res = .ok v ∧ s.RowAdded service d v s' := by
  obtain ⟨rc, rfl, -, -⟩ | hadded := addServerRow_spec h
  swap
  · exact .inr hadded
  refine .inl ⟨rc, rfl, ?_⟩
  revert h
  unfold addServerRow
  simp only [runCp_bind, runCp_internalDbGetServer]
  cases hf : s.cp.findServer service.tuple d.ip d.cpPort with
  | some r =>
    by_cases hact : r.server.active = true
    · simp only [Option.map_some, hact, if_true, runCp_pure]
      rintro ⟨⟩
      exact ⟨.inl rfl, rfl, .inl ⟨r, rfl, hact⟩⟩
    · simp only [Option.map_some, hact, if_false, runCp_bind, runCp_internalDbActivateServer,
        reduceCtorEq, runCp_infraModifyEntry, runCp_pure]
      rintro ⟨⟩
  | none =>
    cases halloc : s.cp.serverIndexPool.alloc with
    | none =>
      simp only [Option.map_none, runCp_bind, runCp_serverIndexPoolAlloc_none halloc]
      rintro ⟨⟩
      exact ⟨.inr rfl, rfl, .inr ⟨trivial, trivial⟩⟩
    | some ip =>
      have hf' : ∀ i, (s.cp.servers.find? fun r => r.key =
          (service.tuple, (newServer service d i).ip, (newServer service d i).port)) = none :=
        fun _ => hf
      simp only [Option.map_none, runCp_bind, runCp_serverIndexPoolAlloc_some halloc,
        runCp_cleanServerStats, reduceCtorEq, if_false, runCp_clearOverloadedFlag,
        runCp_internalDbAddServer, hf', runCp_infraModifyEntry, runCp_pure]
      rintro ⟨⟩

theorem rowAdded_table {service : DbService} {d : IpVsDestUser} {v : DbServer}
    (h : s.RowAdded service d v s') :
    s'.cp.table = s.cp.table.withServer (service.tuple, d.ip, d.cpPort) ⟨d.vs, true⟩ := by
  obtain ⟨r, hf, -, rfl, rfl⟩ | ⟨hf, i, pool, -, rfl, rfl⟩ := h
  · have hkey := Cp.findServer_key hf
    simp only [ServerRow.key, Prod.mk.injEq] at hkey
    obtain ⟨-, hip, hport⟩ := hkey
    have hfind : s.cp.findServer service.tuple r.server.ip r.server.port = some r := by
      rw [hip, hport, hf]
    refine (table_updateServer (f := (reactivatedServer r.server d).activate) hfind (fun _ => rfl)
      fun _ => rfl).trans ?_
    rw [hip, hport]
    rfl
  · refine VsTable.ext rfl ?_
    have hget := @Rows.get_append ServerRow _ _ s.cp.servers
      ⟨service.tuple, newServer service d (.ofNat i)⟩ ServerRow.key hf
    exact @table_server_update s.cp (s.addedServer service.tuple _ pool).cp _ _ hget

theorem rowAdded_findService {service : DbService} {d : IpVsDestUser} {v : DbServer}
    (h : s.RowAdded service d v s') (t : ServiceTuple) :
    s'.cp.findService t = s.cp.findService t := by
  obtain ⟨r, -, -, -, rfl⟩ | ⟨-, i, pool, -, -, rfl⟩ := h <;> rfl

theorem served_addServer (h : s.cp.Inv) (hheld : s.cp.Held) {u : IpVsServiceUser}
    {d : IpVsDestUser} :
    Served s (.newDest (serverKey u d) d.vs) (s.runCp pick (alvsDbAddServer u d)) := by
  refine served_dest_refused (fun T hadmits => hadmits.1) fun hd => ?_
  simp only [runCp_bind, runCp_internalDbGetService]
  cases hf : s.cp.findService u.tuple with
  | none => exact .of_refused (fun hadmits => hadmits.2.1 (service_eq_none.mpr hf)) (.inl rfl)
  | some service =>
    have htuple : service.tuple = u.tuple := Cp.findService_tuple hf
    have hcounts := activeServers_ncard h service.tuple
    simp only [runCp_bind, runCp_internalDbGetServerCount, Option.getD_some]
    by_cases hcount : (s.cp.serverList service.tuple ⟨false, true⟩).length = alvsSizeOfSchedBucket
    · simp only [hcount, if_true]
      refine .of_refused (fun hadmits => hadmits.2.2.1 ?_) (.inl rfl)
      rw [htuple] at hcounts hcount
      exact hcounts.trans hcount
    simp only [hcount, if_false, runCp_bind]
    rcases hrow : s.runCp pick (addServerRow service d) with ⟨res, s₁⟩
    obtain ⟨rc, rfl, hrc, rfl, hwhy⟩ | ⟨v, rfl, hadded⟩ := addServerRow_cases hrow
    · refine .of_refused (fun hadmits => ?_) hrc
      obtain ⟨-, -, -, hactive, hroom⟩ := hadmits
      rw [htuple] at hwhy
      obtain ⟨r, hr, hact⟩ | ⟨hnone, halloc⟩ := hwhy
      · exact hactive (mem_activeServers.mpr ⟨r, hr, hact⟩)
      · exact hroom (server_eq_none.mpr hnone) ((serverAlloc_eq_none h hheld).mp halloc)
    · have hkey := rowAdded_table hadded
      have hadmits : s.cp.table.Admits (.newDest (serverKey u d) d.vs) := by
        refine ⟨hd, fun hnone => ?_, fun heq => hcount ?_, fun hmem => ?_, fun hnone heq => ?_⟩
        · exact Option.some_ne_none service (hf.symm.trans (service_eq_none.mp hnone))
        · exact hcounts.symm.trans (htuple ▸ heq)
        · obtain ⟨r, hr, hact⟩ := mem_activeServers.mp hmem
          obtain ⟨r', hr', hact', -⟩ | ⟨hnone, -⟩ := hadded
          · rw [htuple] at hr'
            obtain rfl := Option.some.inj (hr.symm.trans hr')
            exact Bool.false_ne_true (hact'.symm.trans hact)
          · rw [htuple] at hnone
            exact Option.some_ne_none r (hr.symm.trans hnone)
        · obtain ⟨r', hr', -⟩ | ⟨-, i, pool, halloc, -⟩ := hadded
          · rw [htuple] at hr'
            exact Option.some_ne_none r' (hr'.symm.trans (server_eq_none.mp hnone))
          · exact Option.some_ne_none _ (halloc.symm.trans ((serverAlloc_eq_none h hheld).mpr heq))
      rw [htuple] at hkey
      by_cases hw : d.weight > 0
      · simp only [hw, if_true, runCp_bind, ne_eq, runCp_infraAddEntry, reduceCtorEq, if_false,
          runCp_recalculateAndModifyServiceInfo _ (h.algs.of_find hf), not_true_eq_false,
          runCp_pure]
        refine .of_admitted hadmits ?_
        exact (table_recalculatedService ((rowAdded_findService hadded _).trans hf)).trans hkey
      · simp only [hw, if_false, runCp_bind, runCp_infraAddEntry, reduceCtorEq, runCp_pure]
        exact .of_admitted hadmits hkey

/-- The row of a server changed by `f`. -/
theorem table_rowChanged {service : DbService} {u : IpVsServiceUser} {d : IpVsDestUser}
    {r : ServerRow} (s' : Sys) (htuple : service.tuple = u.tuple)
    (hr : s.cp.findServer service.tuple d.ip d.cpPort = some r) {f : DbServer → DbServer}
    (hip : ∀ v, (f v).ip = v.ip) (hport : ∀ v, (f v).port = v.port)
    (hs' : s'.cp = s.cp.updateServer service.tuple r.server.ip r.server.port f) :
    s'.cp.table = s.cp.table.withServer (serverKey u d) (f r.server).vs := by
  have hkey := Cp.findServer_key hr
  simp only [ServerRow.key, Prod.mk.injEq] at hkey
  rw [hs', hkey.2.1, hkey.2.2, table_updateServer hr hip hport, htuple]
  rfl

theorem served_modifyServer (hs : s.cp.AlgsSupported) {u : IpVsServiceUser} {d : IpVsDestUser} :
    Served s (.setDest (serverKey u d) d.vs) (s.runCp pick (alvsDbModifyServer u d)) := by
  refine served_dest_refused (fun T hadmits => hadmits.1) fun hd => ?_
  simp only [runCp_bind, runCp_internalDbGetService]
  cases hf : s.cp.findService u.tuple with
  | none => exact .of_refused (fun hadmits => hadmits.2.1 (service_eq_none.mpr hf)) (.inl rfl)
  | some service =>
    have htuple : service.tuple = u.tuple := Cp.findService_tuple hf
    simp only [runCp_bind, runCp_internalDbGetServer]
    cases hr : s.cp.findServer service.tuple d.ip d.cpPort with
    | none =>
      refine .of_refused (fun hadmits => ?_) (.inl rfl)
      obtain ⟨r, hr', -⟩ := mem_activeServers.mp hadmits.2.2
      rw [htuple] at hr
      exact Option.some_ne_none r (hr'.symm.trans hr)
    | some r =>
      simp only [Option.map_some]
      cases hact : r.server.active with
      | false =>
        refine .of_refused (fun hadmits => ?_) (.inl rfl)
        obtain ⟨r', hr', hact'⟩ := mem_activeServers.mp hadmits.2.2
        rw [htuple] at hr
        obtain rfl := Option.some.inj (hr'.symm.trans hr)
        exact Bool.false_ne_true (hact.symm.trans hact')
      | true =>
        have hadmits : s.cp.table.Admits (.setDest (serverKey u d) d.vs) :=
          ⟨hd, fun hnone => Option.some_ne_none service (hf.symm.trans (service_eq_none.mp hnone)),
            mem_activeServers.mpr ⟨r, (congrArg (s.cp.findServer · d.ip d.cpPort) htuple).symm.trans
              hr,
              hact⟩⟩
        have hvs : ((modifiedServer r.server d).modify r.server).vs = ⟨d.vs, true⟩ := by
          simp only [DbServer.vs, DbServer.modify, modifiedServer, hact]
          rfl
        by_cases hu : d.uThreshold = 0 ∨ d.uThreshold > r.server.uThresh <;>
        by_cases hw : (modifiedServer r.server d).weight ≠ r.server.weight.toUInt8.toUInt16
        all_goals
          simp only [hu, hw, if_true, if_false, reduceCtorEq, Bool.true_eq_false, runCp_bind,
            runCp_clearOverloadedFlag, runCp_internalDbModifyServer, runCp_infraModifyEntry,
            runCp_recalculateAndModifyServiceInfo _ (hs.of_find hf), ne_eq, not_true_eq_false,
            not_false_eq_true, runCp_pure]
          have htable := table_rowChanged (s.modifiedServerRow service.tuple
            (modifiedServer r.server d) (raisesThreshold r.server d)) htuple hr
            (f := (modifiedServer r.server d).modify) (fun _ => rfl) (fun _ => rfl) rfl
          refine .of_admitted hadmits ?_
          exact htable.trans (by rw [hvs]; rfl)

theorem served_deleteServer (hs : s.cp.AlgsSupported) {u : IpVsServiceUser} {d : IpVsDestUser} :
    Served s (.delDest (serverKey u d)) (s.runCp pick (alvsDbDeleteServer u d)) := by
  unfold alvsDbDeleteServer
  simp only [runCp_bind, runCp_internalDbGetService]
  cases hf : s.cp.findService u.tuple with
  | none => exact .of_refused (fun hadmits => hadmits.1 (service_eq_none.mpr hf)) (.inl rfl)
  | some service =>
    have htuple : service.tuple = u.tuple := Cp.findService_tuple hf
    simp only [runCp_bind, runCp_internalDbGetServer]
    cases hr : s.cp.findServer service.tuple d.ip d.cpPort with
    | none =>
      refine .of_refused (fun hadmits => ?_) (.inl rfl)
      obtain ⟨r, hr', -⟩ := mem_activeServers.mp hadmits.2
      rw [htuple] at hr
      exact Option.some_ne_none r (hr'.symm.trans hr)
    | some r =>
      simp only [Option.map_some]
      cases hact : r.server.active with
      | false =>
        refine .of_refused (fun hadmits => ?_) (.inl rfl)
        obtain ⟨r', hr', hact'⟩ := mem_activeServers.mp hadmits.2
        rw [htuple] at hr
        obtain rfl := Option.some.inj (hr'.symm.trans hr)
        exact Bool.false_ne_true (hact.symm.trans hact')
      | true =>
        have hrow := (congrArg (s.cp.findServer · d.ip d.cpPort) htuple).symm.trans hr
        have hadmits : s.cp.table.Admits (.delDest (serverKey u d)) :=
          ⟨fun hnone => Option.some_ne_none service (hf.symm.trans (service_eq_none.mp hnone)),
            mem_activeServers.mpr ⟨r, hrow, hact⟩⟩
        have hserver : s.cp.table.server (serverKey u d) = some r.server.vs := by
          simp only [Cp.table, serverKey, hrow, Option.map_some]
        have happly : s.cp.table.withServer (serverKey u d) r.server.deactivated.vs =
            s.cp.table.apply (.delDest (serverKey u d)) := by
          refine VsTable.ext rfl (funext fun k => ?_)
          by_cases hk : k = serverKey u d
          · subst hk
            simp [VsTable.withServer, VsTable.apply, VsTable.deactivate, hserver,
              DbServer.deactivated, VsServer.deactivated, DbServer.vs]
          · simp [VsTable.withServer, VsTable.apply, VsTable.deactivate, hk]
        have hsrv : r.srv = service.tuple := congrArg Prod.fst (Cp.findServer_key hr)
        have htable := table_rowChanged (s.deactivatedServerRow r) htuple hr
          (f := DbServer.deactivated) (fun _ => rfl) (fun _ => rfl) (by rw [← hsrv]; rfl)
        simp only [Sys.deactivatedServerRow, hsrv] at htable
        by_cases hw : r.server.unavailable.weight > 0
        all_goals
          simp only [hw, if_true, if_false, Bool.true_eq_false, runCp_bind,
            runCp_internalDbDeactivateServer, runCp_infraModifyEntry, runCp_infraDeleteEntry,
            runCp_recalculateAndModifyServiceInfo _ (hs.of_find hf), ne_eq, not_true_eq_false,
            runCp_pure]
          exact .of_admitted hadmits (htable.trans happly)

/-- A round of the aging thread reclaims an inactive server, or does nothing. -/
theorem table_aging (h : s.cp.Inv) (l : AgingLocal) :
    (s.runCp pick (serverDbAging l)).2.cp.table = s.cp.table ∨
      ∃ k, k ∉ s.cp.table.activeServers k.1 ∧
        (s.runCp pick (serverDbAging l)).2.cp.table = s.cp.table.reclaim k := by
  rcases hrun : s.runCp pick (serverDbAging l) with ⟨l', s'⟩
  obtain rfl | ⟨r, hr, hact, -, rfl⟩ := aging_spec hrun
  · exact .inl rfl
  · refine .inr ⟨r.key, fun hmem => ?_, VsTable.ext rfl ?_⟩
    · obtain ⟨r', hr', hact'⟩ := mem_activeServers.mp hmem
      obtain rfl := h.server_eq_of_key (List.mem_of_find?_eq_some hr') hr (Cp.findServer_key hr')
      exact Bool.false_ne_true (hact.symm.trans hact')
    · have hget := Rows.get_erase ServerRow.key s.cp.servers r.key
      exact @table_server_update s.cp (s.reclaimed r).cp _ _ hget

end Served

end Alvs
