import Alvs.Cp.Spec

/-!
# Runs of the control plane and the invariant of its database

`Sys.cpStep` is one operation with every call succeeding, and `Sys.Effect` lists what an
operation that succeeds does (`cpStep_cases`). `Cp.Inv` is the invariant of the database
and the index pools : keys and indexes of the rows are distinct, each row's index is
allocated in its pool, and a server row's flags and addresses are those of its `active`
column and its index. `inv_cpStep` keeps it along every run.
-/

namespace Alvs

open ProgLogic

/-! ## Operations -/

/-- An operation of the administrator, or one round of the aging thread, with what the
operation's environment settles. -/
inductive CpOp
  | addService (u : IpVsServiceUser)
  | modifyService (u : IpVsServiceUser)
  | deleteService (u : IpVsServiceUser) (uninit : Nat)
  | addServer (u : IpVsServiceUser) (d : IpVsDestUser)
  | modifyServer (u : IpVsServiceUser) (d : IpVsDestUser)
  | deleteServer (u : IpVsServiceUser) (d : IpVsDestUser)
  | clear
  | aging (pick : Nat)

/-- The program of an operation of the administrator. -/
def adminProgram : CpOp → CpProg AlvsDbRc
  | .addService u => alvsDbAddService u
  | .modifyService u => alvsDbModifyService u
  | .deleteService u uninit => alvsDbDeleteService u uninit
  | .addServer u d => alvsDbAddServer u d
  | .modifyServer u d => alvsDbModifyServer u d
  | .deleteServer u d => alvsDbDeleteServer u d
  | .clear => alvsDbClear
  | .aging _ => pure .ok

/-- The result of an operation all of whose calls succeed, and the state after it. -/
def Sys.cpRun (s : Sys) : CpOp → AlvsDbRc × Sys
  | .addService u => s.runCp 0 (alvsDbAddService u)
  | .modifyService u => s.runCp 0 (alvsDbModifyService u)
  | .deleteService u uninit => s.runCp 0 (alvsDbDeleteService u uninit)
  | .addServer u d => s.runCp 0 (alvsDbAddServer u d)
  | .modifyServer u d => s.runCp 0 (alvsDbModifyServer u d)
  | .deleteServer u d => s.runCp 0 (alvsDbDeleteServer u d)
  | .clear => s.runCp 0 alvsDbClear
  | .aging pick => (.ok, (s.runCp pick (serverDbAging ⟨0, false⟩)).2)

/-- The state after an operation. -/
def Sys.cpStep (s : Sys) (op : CpOp) : Sys := (s.cpRun op).2

/-- The operation returns `ALVS_DB_OK`. -/
def Succeeds (s : Sys) (op : CpOp) : Prop := (s.cpRun op).1 = .ok

instance (s : Sys) (op : CpOp) : Decidable (Succeeds s op) := inferInstanceAs (Decidable (_ = _))

/-- A request for a round robin service. -/
def exampleService : IpVsServiceUser := ⟨6, 0x0100000a, 0x5000, "rr", 0⟩

/-- A request for server `n` of the service, with a weight. -/
def exampleServer (n : UInt32) (weight : Int32) : IpVsDestUser :=
  ⟨0x0100000b + n * 0x1000000, 0x5000, ipVsConnFDroute, weight, 0, 0⟩

/-- What an operation does when it succeeds. -/
inductive Sys.Effect (s : Sys) : CpOp → Sys → Prop
  | addService {u : IpVsServiceUser} {i : Nat} {pool : WfPool serviceIndexPoolSize}
      (hsup : supportedSchedAlg (getSchedAlg u.schedName) = true)
      (hfind : s.cp.findService u.tuple = none)
      (halloc : s.cp.serviceIndexPool.alloc = some (i, pool)) :
      Effect s (.addService u) (s.addedService (newService u (.ofNat i)) pool)
  | modifyService {u : IpVsServiceUser} {prev : DbService}
      (hsup : supportedSchedAlg (getSchedAlg u.schedName) = true)
      (hfind : s.cp.findService u.tuple = some prev)
      (hsame : prev.schedAlg = getSchedAlg u.schedName) :
      Effect s (.modifyService u) (s.modifiedService (modifiedRow prev u))
  | modifyServiceAlg {u : IpVsServiceUser} {prev : DbService}
      (hsup : supportedSchedAlg (getSchedAlg u.schedName) = true)
      (hfind : s.cp.findService u.tuple = some prev)
      (hnew : prev.schedAlg ≠ getSchedAlg u.schedName) :
      Effect s (.modifyService u) ((s.recalculated (modifiedRow prev u)).modifiedService
        { modifiedRow prev u with schedEntriesCount := s.cp.entriesCount (modifiedRow prev u) })
  | deleteService {u : IpVsServiceUser} {uninit : Nat} {v : DbService}
      (hfind : s.cp.findService u.tuple = some v) :
      Effect s (.deleteService u uninit) ((s.deletedService v).recalculated v)
  | addServer {u : IpVsServiceUser} {d : IpVsDestUser} {service : DbService} {v : DbServer}
      {s₁ : Sys} (hfind : s.cp.findService u.tuple = some service)
      (hcount : (s.cp.serverList service.tuple ⟨false, true⟩).length ≠ alvsSizeOfSchedBucket)
      (hadded : s.RowAdded service d v s₁) :
      Effect s (.addServer u d)
        ((if d.weight > 0 then s₁.recalculatedService service true else s₁).withEntry
          (serverClassificationEntry service.tuple v))
  | modifyServer {u : IpVsServiceUser} {d : IpVsDestUser} {service : DbService} {r : ServerRow}
      {s₁ : Sys} (hfind : s.cp.findService u.tuple = some service)
      (hrow : s.cp.findServer service.tuple d.ip d.cpPort = some r)
      (hact : r.server.active = true)
      (hs₁ : s₁ = s.modifiedServerRow service.tuple (modifiedServer r.server d)
        (raisesThreshold r.server d)) :
      Effect s (.modifyServer u d)
        ((if weightSeemsChanged r.server d then s₁.recalculatedService service false
          else s₁).withEntry (serverInfoEntry (modifiedServer r.server d)))
  | deleteServer {u : IpVsServiceUser} {d : IpVsDestUser} {service : DbService} {r : ServerRow}
      {s₁ : Sys} (hfind : s.cp.findService u.tuple = some service)
      (hrow : s.cp.findServer service.tuple d.ip d.cpPort = some r)
      (hact : r.server.active = true) (hs₁ : s₁ = s.deactivatedServerRow r) :
      Effect s (.deleteServer u d)
        (((if r.server.weight > 0 then s₁.recalculatedService service false
          else s₁).withEntry (serverInfoEntry r.server.unavailable)).withoutEntry
          (.serverClassification (buildNpsServerClassificationKey r.srv r.server.ip
            r.server.port)))
  | clear : Effect s .clear s.cleared
  | aging {pick : Nat} {r : ServerRow} (hr : r ∈ s.cp.servers) (hact : r.server.active = false)
      (hzero : counterValue (s.nps.onDemand ((serverOnDemandStatsBase r.server.npsIndex).add
        alvsServerStatsConnectionTotalOffset)) = 0) :
      Effect s (.aging pick) (s.reclaimed r)

theorem Sys.Effect.of_eq {s s' t : Sys} {op : CpOp} (h : s' = t) (he : s.Effect op t) :
    s.Effect op s' := h ▸ he

/-- An operation changes nothing, or succeeds with its effect. -/
theorem cpStep_cases {s : Sys} (hs : s.cp.AlgsSupported) (op : CpOp) :
    s.cpStep op = s ∨ s.Effect op (s.cpStep op) := by
  cases op with
  | addService u =>
    obtain ⟨-, h⟩ | ⟨-, hsup, hf, i, pool, ha, h⟩ := @addService_spec s _ _ _ u rfl
    · exact .inl h
    · exact .inr (.of_eq h (.addService hsup hf ha))
  | modifyService u =>
    obtain ⟨-, h⟩ | ⟨-, hsup, prev, hf, ⟨hsame, h⟩ | ⟨hnew, h⟩⟩ :=
      @modifyService_spec s _ _ _ u rfl
    · exact .inl h
    · exact .inr (.of_eq h (.modifyService hsup hf hsame))
    · exact .inr (.of_eq h (.modifyServiceAlg hsup hf hnew))
  | deleteService u uninit =>
    obtain ⟨-, h⟩ | ⟨-, v, hf, h⟩ := @deleteService_spec s _ _ _ u uninit hs rfl
    · exact .inl h
    · exact .inr (.of_eq h (.deleteService hf))
  | addServer u d =>
    obtain ⟨-, h⟩ | ⟨-, service, v, s₁, hf, hcount, hadded, h⟩ :=
      @addServer_spec s _ _ _ u d hs rfl
    · exact .inl h
    · exact .inr (.of_eq h (.addServer hf hcount hadded))
  | modifyServer u d =>
    obtain ⟨-, h⟩ | ⟨-, service, r, s₁, hf, hr, hact, hs₁, h⟩ :=
      @modifyServer_spec s _ _ _ u d hs rfl
    · exact .inl h
    · exact .inr (.of_eq h (.modifyServer hf hr hact hs₁))
  | deleteServer u d =>
    obtain ⟨-, h⟩ | ⟨-, service, r, s₁, hf, hr, hact, hs₁, h⟩ :=
      @deleteServer_spec s _ _ _ u d hs rfl
    · exact .inl h
    · exact .inr (.of_eq h (.deleteServer hf hr hact hs₁))
  | clear => exact .inr (.of_eq (@clear_spec s _ _ _ rfl).2 .clear)
  | aging pick =>
    obtain h | ⟨r, hr, hact, hzero, h⟩ := @aging_spec s _ pick ⟨0, false⟩ _ rfl
    · exact .inl h
    · exact .inr (.of_eq h (.aging hr hact hzero))

/-- The checks of a server request that come before the database is read. -/
def CpOp.Acceptable : CpOp → Prop
  | .addServer _ d => supportedRoutingAlg d.connFlags = true ∧ d.lThreshold ≤ d.uThreshold
  | .modifyServer _ d => supportedRoutingAlg d.connFlags = true ∧ d.lThreshold ≤ d.uThreshold
  | _ => True

instance decidableAcceptable : (op : CpOp) → Decidable op.Acceptable
  | .addServer _ d =>
    inferInstanceAs (Decidable (supportedRoutingAlg d.connFlags = true ∧
      d.lThreshold ≤ d.uThreshold))
  | .modifyServer _ d =>
    inferInstanceAs (Decidable (supportedRoutingAlg d.connFlags = true ∧
      d.lThreshold ≤ d.uThreshold))
  | .addService _ => .isTrue trivial
  | .modifyService _ => .isTrue trivial
  | .deleteService _ _ => .isTrue trivial
  | .deleteServer _ _ => .isTrue trivial
  | .clear => .isTrue trivial
  | .aging _ => .isTrue trivial

/-- An operation that fails the checks changes nothing. -/
theorem cpStep_of_not_acceptable {s : Sys} {op : CpOp} (h : ¬ op.Acceptable) : s.cpStep op = s := by
  cases op with
  | addServer u d =>
    show (s.runCp 0 (alvsDbAddServer u d)).2 = s
    unfold alvsDbAddServer
    rw [runCp_ite]
    split
    next => rfl
    next hsup =>
      rw [runCp_ite, if_pos]
      · rfl
      · exact UInt32.not_le.mp fun hle => h ⟨by simpa using hsup, hle⟩
  | modifyServer u d =>
    show (s.runCp 0 (alvsDbModifyServer u d)).2 = s
    unfold alvsDbModifyServer
    rw [runCp_ite]
    split
    next => rfl
    next hsup =>
      rw [runCp_ite, if_pos]
      · rfl
      · exact UInt32.not_le.mp fun hle => h ⟨by simpa using hsup, hle⟩
  | _ => exact absurd trivial h

/-! ## What an operation does to the database -/

/-- The database once `addServerRow` has made the row of server `v`. -/
def Cp.RowAdded (cp : Cp) (service : DbService) (d : IpVsDestUser) (v : DbServer)
    (cp' : Cp) : Prop :=
  (∃ r, cp.findServer service.tuple d.ip d.cpPort = some r ∧ r.server.active = false ∧
    v = reactivatedServer r.server d ∧ cp' = cp.updateServer service.tuple v.ip v.port v.activate) ∨
  cp.findServer service.tuple d.ip d.cpPort = none ∧
    ∃ i pool, cp.serverIndexPool.alloc = some (i, pool) ∧ v = newServer service d (.ofNat i) ∧
      cp' = { cp with servers := cp.servers ++ [⟨service.tuple, v⟩], serverIndexPool := pool }

/-- What an operation does to the database and the index pools when it succeeds. The number
of scheduling entries that is stored is left open. -/
inductive Cp.Effect (cp : Cp) : CpOp → Cp → Prop
  | addService {u : IpVsServiceUser} {i : Nat} {pool : WfPool serviceIndexPoolSize}
      (hsup : supportedSchedAlg (getSchedAlg u.schedName) = true)
      (hfind : cp.findService u.tuple = none)
      (halloc : cp.serviceIndexPool.alloc = some (i, pool)) :
      Effect cp (.addService u) { cp with
        services := cp.services ++ [newService u (.ofNat i)]
        serviceIndexPool := pool }
  | modifyService {u : IpVsServiceUser} {v : DbService}
      (hsup : supportedSchedAlg v.schedAlg = true) :
      Effect cp (.modifyService u) (cp.modifyService v)
  | deleteService {u : IpVsServiceUser} {uninit : Nat} {v : DbService}
      (hfind : cp.findService u.tuple = some v) :
      Effect cp (.deleteService u uninit) { cp.deleteService v.tuple with
        serviceIndexPool := cp.serviceIndexPool.release v.npsIndex.toNat }
  | addServer {u : IpVsServiceUser} {d : IpVsDestUser} {service : DbService} {v : DbServer}
      {cp₁ : Cp} (hadded : cp.RowAdded service d v cp₁) : Effect cp (.addServer u d) cp₁
  | addServerCount {u : IpVsServiceUser} {d : IpVsDestUser} {service w : DbService}
      {v : DbServer} {cp₁ : Cp} (hadded : cp.RowAdded service d v cp₁)
      (hsup : supportedSchedAlg w.schedAlg = true) :
      Effect cp (.addServer u d) (cp₁.modifyService w)
  | modifyServer {u : IpVsServiceUser} {d : IpVsDestUser} {service : DbService} {r : ServerRow}
      (hrow : cp.findServer service.tuple d.ip d.cpPort = some r) :
      Effect cp (.modifyServer u d) (cp.updateServer service.tuple
        (modifiedServer r.server d).ip (modifiedServer r.server d).port
        (modifiedServer r.server d).modify)
  | deleteServer {u : IpVsServiceUser} {d : IpVsDestUser} {t : ServiceTuple} {ip : UInt32}
      {port : UInt16} :
      Effect cp (.deleteServer u d) (cp.updateServer t ip port DbServer.deactivated)
  | clear : Effect cp .clear { cp.clearAll with serviceIndexPool := cp.serviceIndexPool.rewind }
  | aging {pick : Nat} {r : ServerRow} (hr : r ∈ cp.servers) :
      Effect cp (.aging pick) { cp.deleteServer r.srv r.server.ip r.server.port with
        serverIndexPool := cp.serverIndexPool.release r.server.npsIndex.toNat }

theorem Sys.RowAdded.cp {s s' : Sys} {service : DbService} {d : IpVsDestUser} {v : DbServer}
    (h : s.RowAdded service d v s') : s.cp.RowAdded service d v s'.cp := by
  obtain ⟨r, hf, hact, hv, rfl⟩ | ⟨hf, i, pool, halloc, hv, rfl⟩ := h
  · exact .inl ⟨r, hf, hact, hv, rfl⟩
  · exact .inr ⟨hf, i, pool, halloc, hv, rfl⟩

/-- The effect of an operation on the database. -/
theorem Sys.Effect.cp {s s' : Sys} {op : CpOp} (hs : s.cp.AlgsSupported) (he : s.Effect op s') :
    s.cp.Effect op s'.cp := by
  cases he with
  | addService hsup hfind halloc => exact .addService hsup hfind halloc
  | modifyService hsup _ _ => exact .modifyService hsup
  | modifyServiceAlg hsup _ _ => exact .modifyService hsup
  | deleteService hfind => exact .deleteService hfind
  | addServer hfind _ hadded =>
    have hsup := hs.of_find hfind
    split
    · exact .addServerCount hadded.cp hsup
    · exact .addServer hadded.cp
  | modifyServer _ hrow _ hs₁ =>
    subst hs₁
    split <;> exact .modifyServer hrow
  | deleteServer _ _ _ hs₁ =>
    subst hs₁
    split <;> exact .deleteServer
  | clear => exact .clear
  | aging hr _ _ => exact .aging hr

/-! ## The invariant of the database -/

/-- The flags of a server row are those of its `active` column and its addresses those of
its index. -/
structure DbServer.Ok (v : DbServer) : Prop where
  flags : v.serverFlags = if v.active then ipVsDestFAvailable else 0
  stats : v.serverStatsBase = Alvs.serverStatsBase v.npsIndex
  onDemand : v.serverOnDemandStatsBase = Alvs.serverOnDemandStatsBase v.npsIndex
  flagsDp : v.serverFlagsDpBase = Alvs.serverFlagsDpBase v.npsIndex

/-- Two rows of `services` with different keys and indexes. -/
def DbService.Distinct (v w : DbService) : Prop := v.tuple ≠ w.tuple ∧ v.npsIndex ≠ w.npsIndex

/-- Two rows of `servers` with different keys and indexes. -/
def ServerRow.Distinct (r r' : ServerRow) : Prop :=
  r.key ≠ r'.key ∧ r.server.npsIndex ≠ r'.server.npsIndex

instance : Std.Symm DbService.Distinct := ⟨fun _ _ h => ⟨h.1.symm, h.2.symm⟩⟩

instance : Std.Symm ServerRow.Distinct := ⟨fun _ _ h => ⟨h.1.symm, h.2.symm⟩⟩

/-- The invariant of the database and the index pools. -/
structure Cp.Inv (cp : Cp) : Prop where
  algs : cp.AlgsSupported
  services_distinct : cp.services.Pairwise DbService.Distinct
  services_index : ∀ v ∈ cp.services, v.npsIndex.toNat < serviceIndexPoolSize ∧
    cp.serviceIndexPool.flag v.npsIndex.toNat = true
  servers_distinct : cp.servers.Pairwise ServerRow.Distinct
  servers_index : ∀ r ∈ cp.servers, r.server.npsIndex.toNat < serverIndexPoolSize ∧
    cp.serverIndexPool.flag r.server.npsIndex.toNat = true
  servers_ok : ∀ r ∈ cp.servers, r.server.Ok

namespace Cp.Inv

variable {cp : Cp}

theorem init : Sys.init.cp.Inv where
  algs := by simp [Sys.init, Cp.AlgsSupported]
  services_distinct := .nil
  services_index := by simp [Sys.init]
  servers_distinct := .nil
  servers_index := by simp [Sys.init]
  servers_ok := by simp [Sys.init]

theorem service_eq_of_tuple (h : cp.Inv) {v w : DbService} (hv : v ∈ cp.services)
    (hw : w ∈ cp.services) (hvw : v.tuple = w.tuple) : v = w := by
  by_contra hne
  exact (h.services_distinct.forall hv hw hne).1 hvw

theorem service_eq_of_index (h : cp.Inv) {v w : DbService} (hv : v ∈ cp.services)
    (hw : w ∈ cp.services) (hvw : v.npsIndex = w.npsIndex) : v = w := by
  by_contra hne
  exact (h.services_distinct.forall hv hw hne).2 hvw

theorem server_eq_of_key (h : cp.Inv) {r r' : ServerRow} (hr : r ∈ cp.servers)
    (hr' : r' ∈ cp.servers) (hk : r.key = r'.key) : r = r' := by
  by_contra hne
  exact (h.servers_distinct.forall hr hr' hne).1 hk

theorem server_eq_of_index (h : cp.Inv) {r r' : ServerRow} (hr : r ∈ cp.servers)
    (hr' : r' ∈ cp.servers) (hi : r.server.npsIndex = r'.server.npsIndex) : r = r' := by
  by_contra hne
  exact (h.servers_distinct.forall hr hr' hne).2 hi

/-- A row that a `SELECT` does not find differs in its key from every row. -/
theorem service_ne_of_find_none {t : ServiceTuple} (hf : cp.findService t = none) {v : DbService}
    (hv : v ∈ cp.services) : v.tuple ≠ t := by
  simpa using List.find?_eq_none.mp hf v hv

theorem server_ne_of_find_none {t : ServiceTuple} {ip : UInt32} {port : UInt16}
    (hf : cp.findServer t ip port = none) {r : ServerRow} (hr : r ∈ cp.servers) :
    r.key ≠ (t, ip, port) := by
  simpa using List.find?_eq_none.mp hf r hr

/-- An index that a pool hands out is no index of a row. -/
theorem service_index_fresh (h : cp.Inv) {i : Nat} {pool : WfPool serviceIndexPoolSize}
    (halloc : cp.serviceIndexPool.alloc = some (i, pool)) :
    ∀ v ∈ cp.services, v.npsIndex ≠ .ofNat i := by
  intro v hv heq
  have hflag := (h.services_index v hv).2
  rw [heq, WfPool.alloc_toNat halloc (by decide), (WfPool.alloc_spec halloc).2.1] at hflag
  cases hflag

theorem server_index_fresh (h : cp.Inv) {i : Nat} {pool : WfPool serverIndexPoolSize}
    (halloc : cp.serverIndexPool.alloc = some (i, pool)) :
    ∀ r ∈ cp.servers, r.server.npsIndex ≠ .ofNat i := by
  intro r hr heq
  have hflag := (h.servers_index r hr).2
  rw [heq, WfPool.alloc_toNat halloc (by decide), (WfPool.alloc_spec halloc).2.1] at hflag
  cases hflag

/-! ### Changes of the tables that keep the invariant -/

theorem addService (h : cp.Inv) {v : DbService} {i : Nat} {pool : WfPool serviceIndexPoolSize}
    (hsup : supportedSchedAlg v.schedAlg = true) (hf : cp.findService v.tuple = none)
    (halloc : cp.serviceIndexPool.alloc = some (i, pool)) (hi : v.npsIndex = .ofNat i) :
    Cp.Inv { cp with services := cp.services ++ [v], serviceIndexPool := pool } := by
  obtain ⟨hlt, -, hflag⟩ := WfPool.alloc_spec halloc
  have hvi := WfPool.alloc_toNat halloc (by decide)
  have hne := h.service_index_fresh halloc
  rw [← hi] at hvi hne
  constructor
  · intro w hw
    obtain hw | rfl := by simpa using hw
    exacts [h.algs w hw, hsup]
  · refine List.pairwise_append.mpr ⟨h.services_distinct, List.pairwise_singleton _ _, ?_⟩
    intro w hw v' hv'
    obtain rfl := by simpa using hv'
    exact ⟨service_ne_of_find_none hf hw, hne w hw⟩
  · intro w hw
    obtain hw | rfl := by simpa using hw
    · have := h.services_index w hw
      rw [hflag]
      split <;> simp_all
    · rw [hflag, hvi]
      exact ⟨hlt, by simp⟩
  · exact h.servers_distinct
  · exact h.servers_index
  · exact h.servers_ok

/-- A change of service rows that keeps keys and indexes. -/
theorem mapServices (h : cp.Inv) (f : DbService → DbService)
    (hf : ∀ v ∈ cp.services, (f v).tuple = v.tuple ∧ (f v).npsIndex = v.npsIndex ∧
      supportedSchedAlg (f v).schedAlg = true) :
    Cp.Inv { cp with services := cp.services.map f } := by
  constructor
  · intro w hw
    obtain ⟨v, hv, rfl⟩ := List.mem_map.mp hw
    exact (hf v hv).2.2
  · refine List.pairwise_map.mpr (h.services_distinct.imp_of_mem fun {v w} hv hw hd => ?_)
    unfold DbService.Distinct
    rw [(hf v hv).1, (hf w hw).1, (hf v hv).2.1, (hf w hw).2.1]
    exact hd
  · intro w hw
    obtain ⟨v, hv, rfl⟩ := List.mem_map.mp hw
    rw [(hf v hv).2.1]
    exact h.services_index v hv
  · exact h.servers_distinct
  · exact h.servers_index
  · exact h.servers_ok

theorem modifyService (h : cp.Inv) {v : DbService}
    (hsup : supportedSchedAlg v.schedAlg = true) : (cp.modifyService v).Inv := by
  refine h.mapServices _ fun w hw => ?_
  split
  · exact ⟨rfl, rfl, hsup⟩
  · exact ⟨rfl, rfl, h.algs w hw⟩

/-- Some services deleted, and of their indexes only those released. -/
theorem filterServices (h : cp.Inv) (p : DbService → Bool)
    (pool : WfPool serviceIndexPoolSize)
    (hp : ∀ v ∈ cp.services, p v = true → pool.flag v.npsIndex.toNat = true) :
    Cp.Inv { cp with services := cp.services.filter p, serviceIndexPool := pool } where
  algs v hv := h.algs v (List.mem_of_mem_filter hv)
  services_distinct := h.services_distinct.filter p
  services_index v hv :=
    have hv := List.mem_filter.mp hv
    ⟨(h.services_index v hv.1).1, hp v hv.1 hv.2⟩
  servers_distinct := h.servers_distinct
  servers_index := h.servers_index
  servers_ok := h.servers_ok

/-- A change of server rows that keeps keys and indexes. -/
theorem mapServers (h : cp.Inv) (f : ServerRow → ServerRow)
    (hf : ∀ r ∈ cp.servers, (f r).key = r.key ∧ (f r).server.npsIndex = r.server.npsIndex ∧
      (f r).server.Ok) :
    Cp.Inv { cp with servers := cp.servers.map f } := by
  constructor
  · exact h.algs
  · exact h.services_distinct
  · exact h.services_index
  · refine List.pairwise_map.mpr (h.servers_distinct.imp_of_mem fun {r r'} hr hr' hd => ?_)
    unfold ServerRow.Distinct
    rw [(hf r hr).1, (hf r' hr').1, (hf r hr).2.1, (hf r' hr').2.1]
    exact hd
  · intro r' hr'
    obtain ⟨r, hr, rfl⟩ := List.mem_map.mp hr'
    rw [(hf r hr).2.1]
    exact h.servers_index r hr
  · intro r' hr'
    obtain ⟨r, hr, rfl⟩ := List.mem_map.mp hr'
    exact (hf r hr).2.2

theorem updateServer (h : cp.Inv) (t : ServiceTuple) (ip : UInt32) (port : UInt16)
    (f : DbServer → DbServer)
    (hf : ∀ r ∈ cp.servers, r.key = (t, ip, port) → (f r.server).ip = r.server.ip ∧
      (f r.server).port = r.server.port ∧ (f r.server).npsIndex = r.server.npsIndex ∧
      (f r.server).Ok) :
    (cp.updateServer t ip port f).Inv := by
  refine h.mapServers _ fun r hr => ?_
  split
  next hk =>
    obtain ⟨hip, hport, hidx, hok⟩ := hf r hr hk
    exact ⟨by simp [ServerRow.key, hip, hport], hidx, hok⟩
  next => exact ⟨rfl, rfl, h.servers_ok r hr⟩

theorem addServer (h : cp.Inv) {t : ServiceTuple} {v : DbServer} {i : Nat}
    {pool : WfPool serverIndexPoolSize} (hf : cp.findServer t v.ip v.port = none)
    (halloc : cp.serverIndexPool.alloc = some (i, pool)) (hi : v.npsIndex = .ofNat i)
    (hok : v.Ok) :
    Cp.Inv { cp with servers := cp.servers ++ [⟨t, v⟩], serverIndexPool := pool } := by
  obtain ⟨hlt, -, hflag⟩ := WfPool.alloc_spec halloc
  have hvi := WfPool.alloc_toNat halloc (by decide)
  have hne := h.server_index_fresh halloc
  rw [← hi] at hvi hne
  constructor
  · exact h.algs
  · exact h.services_distinct
  · exact h.services_index
  · refine List.pairwise_append.mpr ⟨h.servers_distinct, List.pairwise_singleton _ _, ?_⟩
    intro r hr r' hr'
    obtain rfl := by simpa using hr'
    exact ⟨server_ne_of_find_none hf hr, hne r hr⟩
  · intro r hr
    obtain hr | rfl := by simpa using hr
    · have := h.servers_index r hr
      rw [hflag]
      split <;> simp_all
    · rw [hflag, hvi]
      exact ⟨hlt, by simp⟩
  · intro r hr
    obtain hr | rfl := by simpa using hr
    exacts [h.servers_ok r hr, hok]

/-- A row deleted and its index released. -/
theorem deleteServer (h : cp.Inv) {r : ServerRow} (hr : r ∈ cp.servers) :
    Cp.Inv { cp.deleteServer r.srv r.server.ip r.server.port with
      serverIndexPool := cp.serverIndexPool.release r.server.npsIndex.toNat } := by
  constructor
  · exact h.algs
  · exact h.services_distinct
  · exact h.services_index
  · exact h.servers_distinct.filter _
  · intro r' hr'
    obtain ⟨hmem, hk⟩ := List.mem_filter.mp hr'
    have hne : r'.server.npsIndex.toNat ≠ r.server.npsIndex.toNat := fun heq => by
      obtain rfl := h.server_eq_of_index hmem hr (UInt32.toNat_inj.mp heq)
      simp [ServerRow.key] at hk
    rw [WfPool.release_flag (h.servers_index r hr).1, if_neg hne]
    exact h.servers_index r' hmem
  · exact fun r' hr' => h.servers_ok r' (List.mem_of_mem_filter hr')

end Cp.Inv

/-! ## Every operation keeps the invariant -/

namespace DbServer.Ok

variable {v : DbServer}

theorem deactivated (h : v.Ok) : v.deactivated.Ok where
  flags := by
    simp only [DbServer.deactivated, h.flags, Bool.false_eq_true, if_false]
    split <;> decide
  stats := h.stats
  onDemand := h.onDemand
  flagsDp := h.flagsDp

theorem activate (h : v.Ok) (w : DbServer) : (w.activate v).Ok where
  flags := by
    simp only [DbServer.activate, h.flags, if_true]
    split <;> decide
  stats := h.stats
  onDemand := h.onDemand
  flagsDp := h.flagsDp

theorem modify (h : v.Ok) {w : DbServer} (hw : w.serverFlags = v.serverFlags) :
    (w.modify v).Ok where
  flags := hw.trans h.flags
  stats := h.stats
  onDemand := h.onDemand
  flagsDp := h.flagsDp

theorem newServer (service : DbService) (d : IpVsDestUser) (i : UInt32) :
    (newServer service d i).Ok := ⟨rfl, rfl, rfl, rfl⟩

end DbServer.Ok

/-- The row that has the key of `r` is `r`. -/
theorem Cp.Inv.eq_of_findServer {cp : Cp} (h : cp.Inv) {t : ServiceTuple} {ip : UInt32}
    {port : UInt16} {r r' : ServerRow} (hf : cp.findServer t ip port = some r)
    (hr' : r' ∈ cp.servers) (hk : r'.key = (t, ip, port)) : r' = r :=
  h.server_eq_of_key hr' (List.mem_of_find?_eq_some hf) (hk.trans (Cp.findServer_key hf).symm)

theorem inv_cpRowAdded {cp cp₁ : Cp} (h : cp.Inv) {service : DbService} {d : IpVsDestUser}
    {v : DbServer} (hadded : cp.RowAdded service d v cp₁) : cp₁.Inv := by
  obtain ⟨r, hf, -, rfl, rfl⟩ | ⟨hf, i, pool, halloc, rfl, rfl⟩ := hadded
  · refine h.updateServer _ _ _ _ fun r' hr' _ => ⟨rfl, rfl, rfl, ?_⟩
    exact (h.servers_ok r' hr').activate _
  · exact h.addServer hf halloc rfl (.newServer _ _ _)

theorem inv_cpEffect {cp cp' : Cp} {op : CpOp} (h : cp.Inv) (he : cp.Effect op cp') :
    cp'.Inv := by
  cases he with
  | addService hsup hfind halloc => exact h.addService hsup hfind halloc rfl
  | modifyService hsup => exact h.modifyService hsup
  | @deleteService u uninit v hfind =>
    have hv := List.mem_of_find?_eq_some hfind
    have hmap := h.mapServers
      (fun r => if r.srv = v.tuple then { r with server := r.server.deactivated } else r)
      fun r hr => by
        split
        · exact ⟨rfl, rfl, (h.servers_ok r hr).deactivated⟩
        · exact ⟨rfl, rfl, h.servers_ok r hr⟩
    refine hmap.filterServices (fun w => w.tuple ≠ v.tuple) _ fun w hw hne => ?_
    have hidx : w.npsIndex.toNat ≠ v.npsIndex.toNat := fun heq => by
      rw [h.service_eq_of_index hw hv (UInt32.toNat_inj.mp heq)] at hne
      simp at hne
    rw [WfPool.release_flag (h.services_index v hv).1, if_neg hidx]
    exact (h.services_index w hw).2
  | addServer hadded => exact inv_cpRowAdded h hadded
  | addServerCount hadded hsup => exact (inv_cpRowAdded h hadded).modifyService hsup
  | @modifyServer u d service r hrow =>
    refine h.updateServer _ _ _ _ fun r' hr' hk => ⟨rfl, rfl, rfl, ?_⟩
    have hkey := Cp.findServer_key hrow
    rw [show ((modifiedServer r.server d).ip, (modifiedServer r.server d).port) =
      (d.ip, d.cpPort) from congrArg Prod.snd hkey] at hk
    obtain rfl := h.eq_of_findServer hrow hr' hk
    exact (h.servers_ok r' hr').modify rfl
  | deleteServer =>
    exact h.updateServer _ _ _ _ fun r' hr' _ =>
      ⟨rfl, rfl, rfl, (h.servers_ok r' hr').deactivated⟩
  | clear =>
    have hmap := h.mapServers (fun r => { r with server := r.server.deactivated })
      fun r hr => ⟨rfl, rfl, (h.servers_ok r hr).deactivated⟩
    have hclear := hmap.filterServices (fun _ => false) cp.serviceIndexPool.rewind
      fun w _ hf => by cases hf
    simpa [Cp.clearAll] using hclear
  | aging hr => exact h.deleteServer hr

theorem inv_effect {s s' : Sys} {op : CpOp} (h : s.cp.Inv) (he : s.Effect op s') : s'.cp.Inv :=
  inv_cpEffect h (he.cp h.algs)

theorem inv_cpStep {s : Sys} (h : s.cp.Inv) (op : CpOp) : (s.cpStep op).cp.Inv := by
  obtain heq | he := cpStep_cases h.algs op
  · rwa [heq]
  · exact inv_effect h he

end Alvs
