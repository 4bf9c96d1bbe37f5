import Alvs.Cp.InfoMirror
import Alvs.Cp.SchedMirror

/-!
# The statistics block of a server's service

The row and the info entry of a server hold the statistics base of its service. It is set
where the server gets a row, and kept where an inactive row is activated again, though a
service that was deleted and added in between has another index. The base is right along
the runs in which every row that is activated again has the base of the present index
(`statsAttributed_run`). `statsAttributed_fails` is a run in which one has not.
-/

namespace Alvs

open ProgLogic

/-- The base of the service statistics in the info entry of a server. -/
def Nps.infoBase (nps : Nps) (i : UInt32) : Option SumAddr :=
  (nps.serverInfo i).map (·.serviceStatsBase)

/-- The service of a row exists and has the statistics block that the row names. -/
def Cp.Attributed (cp : Cp) (r : ServerRow) : Prop :=
  ∃ v ∈ cp.services, v.tuple = r.srv ∧ r.server.serviceStatsBase = serviceStatsBase v.npsIndex

/-- The row of every active server names the statistics block of its service's index, and so
does its info entry. -/
def StatsAttributed (s : Sys) : Prop :=
  ∀ r ∈ s.cp.servers, r.server.active = true → ∃ v ∈ s.cp.services, v.tuple = r.srv ∧
    r.server.serviceStatsBase = serviceStatsBase v.npsIndex ∧
    s.nps.infoBase r.server.npsIndex = some (serviceStatsBase v.npsIndex)

/-- The invariant of the runs : also the entries of inactive rows agree with them. -/
structure StatsInv (s : Sys) : Prop where
  info : ∀ r ∈ s.cp.servers, s.nps.infoBase r.server.npsIndex = some r.server.serviceStatsBase
  base : ∀ v ∈ s.cp.services, v.statsBase = serviceStatsBase v.npsIndex
  active : ∀ r ∈ s.cp.servers, r.server.active = true → s.cp.Attributed r

namespace StatsInv

variable {s s' : Sys}

theorem attributed (h : StatsInv s) : StatsAttributed s := by
  intro r hr hact
  obtain ⟨v, hv, hvt, hbase⟩ := h.active r hr hact
  exact ⟨v, hv, hvt, hbase, hbase ▸ h.info r hr⟩

/-- A step that keeps the bases of rows and entries, and activates attributed rows only. -/
theorem map (h : StatsInv s) {f : ServerRow → ServerRow}
    (hservers : s'.cp.servers = s.cp.servers.map f)
    (hf : ∀ r ∈ s.cp.servers, (f r).srv = r.srv ∧ (f r).server.npsIndex = r.server.npsIndex ∧
      (f r).server.serviceStatsBase = r.server.serviceStatsBase)
    (hact : ∀ r ∈ s.cp.servers, (f r).server.active = true → s'.cp.Attributed r)
    (hbase : ∀ v ∈ s'.cp.services, v.statsBase = serviceStatsBase v.npsIndex)
    (hinfo : ∀ i, s'.nps.infoBase i = s.nps.infoBase i) : StatsInv s' := by
  refine ⟨fun r' hr' => ?_, hbase, fun r' hr' hr'act => ?_⟩
  · rw [hservers] at hr'
    obtain ⟨r, hr, rfl⟩ := List.mem_map.mp hr'
    obtain ⟨-, hidx, hrbase⟩ := hf r hr
    rw [hidx, hrbase, hinfo]
    exact h.info r hr
  · rw [hservers] at hr'
    obtain ⟨r, hr, rfl⟩ := List.mem_map.mp hr'
    obtain ⟨hsrv, -, hrbase⟩ := hf r hr
    obtain ⟨v, hv, hvt, hvb⟩ := hact r hr hr'act
    exact ⟨v, hv, hvt.trans hsrv.symm, hrbase.trans hvb⟩

/-- A step that leaves the servers and keeps every service, its index and its base. -/
theorem services (h : StatsInv s) {g : DbService → DbService}
    (hservers : s'.cp.servers = s.cp.servers) (hserv : s'.cp.services = s.cp.services.map g)
    (hg : ∀ v, (g v).tuple = v.tuple ∧ (g v).npsIndex = v.npsIndex ∧ (g v).statsBase = v.statsBase)
    (hinfo : s'.nps.serverInfo = s.nps.serverInfo) : StatsInv s' := by
  refine h.map (f := id) (by rw [List.map_id, hservers]) (fun r _ => ⟨rfl, rfl, rfl⟩) ?_ ?_ ?_
  · intro r hr hact
    obtain ⟨v, hv, hvt, hvb⟩ := h.active r hr hact
    obtain ⟨htuple, hidx, -⟩ := hg v
    exact ⟨g v, hserv ▸ List.mem_map_of_mem hv, htuple.trans hvt, hidx ▸ hvb⟩
  · rw [hserv]
    intro v' hv'
    obtain ⟨v, hv, rfl⟩ := List.mem_map.mp hv'
    obtain ⟨-, hidx, hbase⟩ := hg v
    rw [hidx, hbase]
    exact h.base v hv
  · exact fun i => by rw [Nps.infoBase, hinfo, Nps.infoBase]

/-- A step that leaves rows, services and server entries. -/
theorem same (h : StatsInv s) (hservers : s'.cp.servers = s.cp.servers)
    (hserv : s'.cp.services = s.cp.services)
    (hinfo : s'.nps.serverInfo = s.nps.serverInfo) : StatsInv s' :=
  h.services (g := id) hservers (by rw [List.map_id, hserv]) (fun _ => ⟨rfl, rfl, rfl⟩) hinfo

end StatsInv

/-! ## What the operations write -/

section Writes

variable {s : Sys}

theorem infoBase_congr {nps nps' : Nps} (h : nps'.serverInfo = nps.serverInfo) (i : UInt32) :
    nps'.infoBase i = nps.infoBase i := by
  rw [Nps.infoBase, h, Nps.infoBase]

theorem infoBase_self (nps : Nps) (v : DbServer) :
    (nps.setEntry (serverInfoEntry v)).infoBase v.npsIndex = some v.serviceStatsBase := by
  rw [Nps.infoBase, setEntry_serverInfo, Function.update_self]
  rfl

theorem infoBase_ne (nps : Nps) {v : DbServer} {i : UInt32} (hi : i ≠ v.npsIndex) :
    (nps.setEntry (serverInfoEntry v)).infoBase i = nps.infoBase i := by
  rw [Nps.infoBase, setEntry_serverInfo, Function.update_of_ne hi, Nps.infoBase]

/-- An entry written with the base that it has. -/
theorem infoBase_same {nps : Nps} {v : DbServer}
    (h : nps.infoBase v.npsIndex = some v.serviceStatsBase) (i : UInt32) :
    (nps.setEntry (serverInfoEntry v)).infoBase i = nps.infoBase i := by
  by_cases hi : i = v.npsIndex
  · rw [hi, infoBase_self, h]
  · exact infoBase_ne nps hi

theorem StatsInv.modifiedService (h : StatsInv s) (v : DbService) :
    StatsInv (s.modifiedService v) := by
  refine h.services rfl rfl (fun w => ?_) rfl
  split <;> exact ⟨rfl, rfl, rfl⟩

theorem StatsInv.recalculatedService (h : StatsInv s) (v : DbService) (modifyDb : Bool) :
    StatsInv (s.recalculatedService v modifyDb) := by
  unfold Sys.recalculatedService
  generalize s.cp.entriesCount v = n
  cases modifyDb
  · exact h.same rfl rfl rfl
  · exact (h.modifiedService { v with schedEntriesCount := n }).same rfl rfl rfl

theorem StatsInv.addedService (h : StatsInv s) {v : DbService}
    (hv : v.statsBase = serviceStatsBase v.npsIndex) (pool : WfPool serviceIndexPoolSize) :
    StatsInv (s.addedService v pool) := by
  refine h.map (List.map_id _).symm (fun _ _ => ⟨rfl, rfl, rfl⟩) ?_ ?_ fun _ => rfl
  · intro r hr hact
    obtain ⟨w, hw, hwr⟩ := h.active r hr hact
    exact ⟨w, List.mem_append_left _ hw, hwr⟩
  · intro w hw
    obtain hw | rfl := by simpa [Sys.addedService] using hw
    exacts [h.base w hw, hv]

/-- The update of a row that keeps its base, and activates it only where it is attributed. -/
theorem StatsInv.updateServer (h : StatsInv s) (t : ServiceTuple) (ip : UInt32) (port : UInt16)
    {f : DbServer → DbServer}
    (hf : ∀ v, (f v).npsIndex = v.npsIndex ∧ (f v).serviceStatsBase = v.serviceStatsBase)
    (hact : ∀ r ∈ s.cp.servers, r.key = (t, ip, port) → (f r.server).active = true →
      s.cp.Attributed r) :
    StatsInv { s with cp := s.cp.updateServer t ip port f } := by
  refine h.map rfl (fun r _ => ?_) (fun r hr hract => ?_) h.base fun i => rfl
  · split
    · exact ⟨rfl, hf r.server⟩
    · exact ⟨rfl, rfl, rfl⟩
  · split at hract
    next hk => exact hact r hr hk hract
    next => exact h.active r hr hract

theorem StatsInv.withServerInfo (h : StatsInv s) {v : DbServer}
    (hv : s.nps.infoBase v.npsIndex = some v.serviceStatsBase) :
    StatsInv (s.withEntry (serverInfoEntry v)) :=
  h.map (List.map_id _).symm (fun _ _ => ⟨rfl, rfl, rfl⟩) h.active h.base (infoBase_same hv)

theorem recalculatedService_infoBase (v : DbService) (modifyDb : Bool) (i : UInt32) :
    (s.recalculatedService v modifyDb).nps.infoBase i = s.nps.infoBase i := by
  unfold Sys.recalculatedService
  generalize s.cp.entriesCount v = n
  rfl

theorem StatsInv.deletedService (h : StatsInv s) (v : DbService) :
    StatsInv (s.deletedService v) := by
  refine h.map rfl (fun r _ => ?_) (fun r hr hact => ?_) (fun w hw => ?_) fun i => ?_
  · split <;> exact ⟨rfl, rfl, rfl⟩
  · split at hact
    next => cases hact
    next hsrv =>
      obtain ⟨w, hw, hwt, hwb⟩ := h.active r hr hact
      refine ⟨w, List.mem_filter.mpr ⟨hw, ?_⟩, hwt, hwb⟩
      simpa [hwt] using hsrv
  · exact h.base w (List.mem_of_mem_filter hw)
  · show (Nps.deactivatedFirst _ _).infoBase i = _
    unfold Nps.deactivatedFirst
    split
    next => rfl
    next server hhead =>
      obtain ⟨r, hr, rfl⟩ := List.mem_map.mp (List.mem_of_mem_head? hhead)
      exact @infoBase_same s.nps r.server.unavailable (h.info r (List.mem_of_mem_filter hr)) i

end Writes

/-! ## The runs that keep it -/

/-- A row that is activated again has the base of the present index of its service. -/
def BaseKept (s : Sys) : CpOp → Prop
  | .addServer u d => ∀ v ∈ s.cp.findService u.tuple, ∀ r ∈ s.requestedRow u d,
    r.server.active = false ∧
      (s.cp.serverList u.tuple ⟨false, true⟩).length ≠ alvsSizeOfSchedBucket →
    r.server.serviceStatsBase = serviceStatsBase v.npsIndex
  | _ => True

instance decidableBaseKept (s : Sys) : (op : CpOp) → Decidable (BaseKept s op)
  | .addServer u d => by unfold BaseKept; infer_instance
  | .addService _ => .isTrue trivial
  | .modifyService _ => .isTrue trivial
  | .deleteService _ _ => .isTrue trivial
  | .modifyServer _ _ => .isTrue trivial
  | .deleteServer _ _ => .isTrue trivial
  | .clear => .isTrue trivial
  | .aging _ => .isTrue trivial

/-- The condition on an operation : unless it fails its checks, it activates a row with the
right base. -/
def StatsOk (s : Sys) (op : CpOp) : Prop := op.Acceptable → BaseKept s op

instance (s : Sys) (op : CpOp) : Decidable (StatsOk s op) := inferInstanceAs (Decidable (_ → _))

/-- The row that `addServerRow` makes has the base of its service. -/
theorem statsInv_rowAdded {s s₁ : Sys} (h : StatsInv s) (hinv : s.cp.Inv) {service : DbService}
    (hservice : service ∈ s.cp.services) {d : IpVsDestUser} {v : DbServer}
    (hok : ∀ r, s.cp.findServer service.tuple d.ip d.cpPort = some r → r.server.active = false →
      r.server.serviceStatsBase = serviceStatsBase service.npsIndex)
    (hadded : s.RowAdded service d v s₁) : StatsInv s₁ := by
  obtain ⟨r, hf, hact, rfl, rfl⟩ | ⟨hf, i, pool, halloc, rfl, rfl⟩ := hadded
  · have hkey := Cp.findServer_key hf
    have hsrv : r.srv = service.tuple := congrArg Prod.fst hkey
    have hr := List.mem_of_find?_eq_some hf
    have h₁ := h.updateServer service.tuple (reactivatedServer r.server d).ip
      (reactivatedServer r.server d).port (f := (reactivatedServer r.server d).activate)
      (fun _ => ⟨rfl, rfl⟩) fun r' hr' hk _ => by
        obtain rfl := hinv.server_eq_of_key hr' hr (hk.trans (hsrv ▸ rfl))
        exact ⟨service, hservice, hsrv.symm, hok r' hf hact⟩
    exact h₁.withServerInfo (v := reactivatedServer r.server d) (h.info r hr)
  · have hne := hinv.server_index_fresh halloc
    constructor
    · intro r hr
      obtain hr | rfl := by simpa [Sys.addedServer] using hr
      · exact (infoBase_ne _ (hne r hr)).trans (h.info r hr)
      · exact infoBase_self _ _
    · exact h.base
    · intro r hr hact
      obtain hr | rfl := by simpa [Sys.addedServer] using hr
      · exact h.active r hr hact
      · exact ⟨service, hservice, rfl, h.base service hservice⟩

theorem statsInv_effect {s s' : Sys} {op : CpOp} (h : StatsInv s) (hinv : s.cp.Inv)
    (hok : BaseKept s op) (he : s.Effect op s') : StatsInv s' := by
  cases he with
  | addService => exact h.addedService rfl _
  | modifyService => exact h.modifiedService _
  | @modifyServiceAlg u prev hsup hfind hnew =>
    have h₁ : StatsInv (s.recalculated (modifiedRow prev u)) := h.same rfl rfl rfl
    exact h₁.modifiedService _
  | deleteService hfind => exact (h.deletedService _).same rfl rfl rfl
  | @addServer u d service v s₁ hfind hcount hadded =>
    have htuple := Cp.findService_tuple hfind
    rw [htuple] at hcount
    have h₁ : StatsInv s₁ := by
      refine statsInv_rowAdded h hinv (List.mem_of_find?_eq_some hfind) (fun r hr hact => ?_) hadded
      rw [htuple] at hr
      exact hok service hfind r hr ⟨hact, hcount⟩
    split
    · exact (h₁.recalculatedService service true).same rfl rfl rfl
    · exact h₁.same rfl rfl rfl
  | @modifyServer u d service r s₁ hfind hrow hact hs₁ =>
    have hr := List.mem_of_find?_eq_some hrow
    have hinfo : s₁.nps.serverInfo = s.nps.serverInfo := by
      rw [hs₁, Sys.modifiedServerRow]
      split <;> rfl
    have h₁ : StatsInv s₁ := by
      refine StatsInv.same (h.updateServer service.tuple (modifiedServer r.server d).ip
        (modifiedServer r.server d).port (f := (modifiedServer r.server d).modify)
        (fun _ => ⟨rfl, rfl⟩) fun r' hr' _ => h.active r' hr') ?_ ?_ hinfo
      · rw [hs₁]; rfl
      · rw [hs₁]; rfl
    have hbase := (infoBase_congr hinfo r.server.npsIndex).trans (h.info r hr)
    split
    · exact (h₁.recalculatedService service false).withServerInfo
        ((recalculatedService_infoBase service false _).trans hbase)
    · exact h₁.withServerInfo hbase
  | @deleteServer u d service r s₁ hfind hrow hact hs₁ =>
    have hr := List.mem_of_find?_eq_some hrow
    have h₁ : StatsInv s₁ := by
      rw [hs₁]
      exact h.updateServer _ _ _ (fun _ => ⟨rfl, rfl⟩) fun _ _ _ hact => by cases hact
    have hbase : s₁.nps.infoBase r.server.npsIndex = some r.server.serviceStatsBase := by
      rw [hs₁]
      exact h.info r hr
    split
    · exact ((h₁.recalculatedService service false).withServerInfo (v := r.server.unavailable)
        ((recalculatedService_infoBase service false _).trans hbase)).same rfl rfl rfl
    · exact (h₁.withServerInfo (v := r.server.unavailable) hbase).same rfl rfl rfl
  | clear =>
    refine h.map rfl (fun _ _ => ⟨rfl, rfl, rfl⟩) (fun r _ hact => by cases hact) ?_ fun i => ?_
    · exact fun v hv => absurd hv List.not_mem_nil
    · exact infoBase_congr (withoutServices_serverInfo s.cp.services s.nps) i
  | @aging _ r hr _ _ =>
    refine ⟨fun r' hr' => ?_, h.base, fun r' hr' => h.active r' (List.mem_of_mem_filter hr')⟩
    obtain ⟨hmem, hk⟩ := List.mem_filter.mp hr'
    have hne : r'.server.npsIndex ≠ r.server.npsIndex := fun heq => by
      obtain rfl := hinv.server_eq_of_index hmem hr heq
      simp [ServerRow.key] at hk
    have hkept : (s.reclaimed r).nps.infoBase r'.server.npsIndex =
        s.nps.infoBase r'.server.npsIndex :=
      congrArg (Option.map _) (Function.update_of_ne hne _ _)
    exact hkept.trans (h.info r' hmem)

theorem statsInv_cpStep (s : Sys) (op : CpOp) (h : s.cp.Inv ∧ StatsInv s) (hok : StatsOk s op) :
    (s.cpStep op).cp.Inv ∧ StatsInv (s.cpStep op) := by
  obtain ⟨hinv, hstats⟩ := h
  refine ⟨inv_cpStep hinv op, ?_⟩
  by_cases hacc : op.Acceptable
  · obtain heq | he := cpStep_cases hinv.algs op
    · rwa [heq]
    · exact statsInv_effect hstats hinv (hok hacc) he
  · rwa [cpStep_of_not_acceptable hacc]

/-- Where every row that is activated again has the base of its service's present index,
the statistics of every active server go to its service in every state of the run. -/
theorem statsAttributed_run (ops : List CpOp) (hops : Always StatsOk Sys.cpStep Sys.init ops) :
    StatsAttributed (ops.foldl Sys.cpStep Sys.init) := by
  have hinit : StatsInv Sys.init := by
    constructor
    · exact fun r hr => absurd hr List.not_mem_nil
    · exact fun v hv => absurd hv List.not_mem_nil
    · exact fun r hr => absurd hr List.not_mem_nil
  exact (Always.invariant statsInv_cpStep _ ops ⟨.init, hinit⟩ hops).2.attributed

/-- A server that is deleted and added again while its service stays. -/
theorem statsAttributed_run_reactivated :
    StatsAttributed ([.addService exampleService, .addServer exampleService (exampleServer 0 1),
      .deleteServer exampleService (exampleServer 0 1),
      .addServer exampleService (exampleServer 0 1)].foldl Sys.cpStep Sys.init) :=
  statsAttributed_run _ (by decide +kernel)

/-! ## A run that breaks it -/

/-- A service with a server is deleted, and both are added again. -/
def readdServiceAndServer : List CpOp :=
  [.addService exampleService, .addServer exampleService (exampleServer 0 1),
    .deleteService exampleService 0, .addService exampleService,
    .addServer exampleService (exampleServer 0 1)]

/-- All operations of that run succeed. The service has index 1 and its server counts for
index 0. -/
theorem statsAttributed_fails :
    Always Succeeds Sys.cpStep Sys.init readdServiceAndServer ∧
      ¬ StatsAttributed (readdServiceAndServer.foldl Sys.cpStep Sys.init) := by
  refine ⟨by decide +kernel, fun h => ?_⟩
  have hrow : ∃ r ∈ (readdServiceAndServer.foldl Sys.cpStep Sys.init).cp.servers,
      r.server.active = true ∧ r.server.serviceStatsBase = serviceStatsBase 0 := by decide +kernel
  have hindex : ∀ v ∈ (readdServiceAndServer.foldl Sys.cpStep Sys.init).cp.services,
      v.npsIndex = 1 := by decide +kernel
  obtain ⟨r, hr, hact, hbase⟩ := hrow
  obtain ⟨v, hv, -, hvb, -⟩ := h r hr hact
  rw [hbase, hindex v hv] at hvb
  exact absurd hvb (by decide)

end Alvs
