import Alvs.Cp.Ops

/-!
# Executing the control plane where every call succeeds

What each call returns and does under `cpOk`, as rewriting rules for `Prog.exec`, the
scheduling table that a recalculation writes (`exec_alvsDbRecalculateSchedulingInfo`),
and for each operation what it has done when it returns (`addService_spec` and so on) :
an operation that does not return `ALVS_DB_OK` changed nothing.
-/

namespace Alvs

open ProgLogic

/-- No call fails; the aging thread's `SELECT` returns inactive row number `pick`. -/
def cpOk (pick : Nat) : CpEnv := ⟨false, pick⟩

/-- Run a program of the control plane with every call succeeding. -/
def Sys.runCp {α : Type} (s : Sys) (pick : Nat) (p : CpProg α) : α × Sys :=
  p.exec (cpHandle (cpOk pick)) s

section Exec

variable {α β : Type} (s : Sys) (pick : Nat)

@[simp] theorem runCp_pure (a : α) : s.runCp pick (pure a) = (a, s) := rfl

@[simp] theorem runCp_bind (p : CpProg α) (f : α → CpProg β) :
    s.runCp pick (p >>= f) = (s.runCp pick p).2.runCp pick (f (s.runCp pick p).1) :=
  Prog.exec_bind _ p f s

@[simp] theorem runCp_map (f : α → β) (p : CpProg α) :
    s.runCp pick (f <$> p) = (f (s.runCp pick p).1, (s.runCp pick p).2) :=
  Prog.exec_map _ s f p

theorem runCp_ite (c : Prop) [Decidable c] (p q : CpProg α) :
    s.runCp pick (if c then p else q) = if c then s.runCp pick p else s.runCp pick q :=
  Prog.exec_ite _ s c p q

@[simp] theorem runCp_internalDbGetService (t : ServiceTuple) :
    s.runCp pick (internalDbGetService t) = (some (s.cp.findService t), s) := rfl

@[simp] theorem runCp_internalDbModifyService (v : DbService) :
    s.runCp pick (internalDbModifyService v) = (true, { s with cp := s.cp.modifyService v }) := rfl

@[simp] theorem runCp_internalDbDeleteService (t : ServiceTuple) :
    s.runCp pick (internalDbDeleteService t) = (true, { s with cp := s.cp.deleteService t }) := rfl

@[simp] theorem runCp_internalDbGetServiceCount :
    s.runCp pick internalDbGetServiceCount = (some s.cp.services.length, s) := rfl

@[simp] theorem runCp_internalDbGetServiceList :
    s.runCp pick internalDbGetServiceList = (some s.cp.services, s) := rfl

@[simp] theorem runCp_internalDbClearAll :
    s.runCp pick internalDbClearAll = (true, { s with cp := s.cp.clearAll }) := rfl

@[simp] theorem runCp_internalDbGetServerCount (t : ServiceTuple) (f : Exclude) :
    s.runCp pick (internalDbGetServerCount t f) = (some (s.cp.serverList t f).length, s) := rfl

@[simp] theorem runCp_internalDbGetServerList (t : ServiceTuple) (f : Exclude) :
    s.runCp pick (internalDbGetServerList t f) = (some (s.cp.serverList t f), s) := rfl

@[simp] theorem runCp_internalDbGetServer (t : ServiceTuple) (ip : UInt32) (port : UInt16) :
    s.runCp pick (internalDbGetServer t ip port) =
      (some ((s.cp.findServer t ip port).map (·.server)), s) := rfl

@[simp] theorem runCp_internalDbModifyServer (t : ServiceTuple) (v : DbServer) :
    s.runCp pick (internalDbModifyServer t v) =
      (true, { s with cp := s.cp.updateServer t v.ip v.port v.modify }) := rfl

@[simp] theorem runCp_internalDbDeleteServer (t : ServiceTuple) (ip : UInt32) (port : UInt16) :
    s.runCp pick (internalDbDeleteServer t ip port) =
      (true, { s with cp := s.cp.deleteServer t ip port }) := rfl

@[simp] theorem runCp_internalDbDeactivateServer (t : ServiceTuple) (ip : UInt32) (port : UInt16) :
    s.runCp pick (internalDbDeactivateServer t ip port) =
      (true, { s with cp := s.cp.updateServer t ip port DbServer.deactivated }) := rfl

@[simp] theorem runCp_internalDbActivateServer (t : ServiceTuple) (v : DbServer) :
    s.runCp pick (internalDbActivateServer t v) =
      (true, { s with cp := s.cp.updateServer t v.ip v.port v.activate }) := rfl

@[simp] theorem runCp_internalDbGetApplicationInfo (i : UInt8) :
    s.runCp pick (internalDbGetApplicationInfo i) = (some (s.cp.applicationInfo i), s) := rfl

@[simp] theorem runCp_internalDbModifyApplicationInfo (v : DbApplicationInfo) :
    s.runCp pick (internalDbModifyApplicationInfo v) =
      (true, { s with cp := s.cp.modifyApplicationInfo v }) := rfl

@[simp] theorem runCp_stepInactiveServers :
    s.runCp pick stepInactiveServers = (some (s.cp.servers.filter fun r => !r.server.active)[pick]?,
      s) := rfl

@[simp] theorem runCp_serviceIndexPoolRelease (i : UInt32) :
    s.runCp pick (serviceIndexPoolRelease i) = ((), { s with
      cp := { s.cp with serviceIndexPool := s.cp.serviceIndexPool.release i.toNat } }) := rfl

@[simp] theorem runCp_serviceIndexPoolRewind :
    s.runCp pick serviceIndexPoolRewind =
      ((), { s with cp := { s.cp with serviceIndexPool := s.cp.serviceIndexPool.rewind } }) := rfl

@[simp] theorem runCp_serverIndexPoolRelease (i : UInt32) :
    s.runCp pick (serverIndexPoolRelease i) = ((), { s with
      cp := { s.cp with serverIndexPool := s.cp.serverIndexPool.release i.toNat } }) := rfl

@[simp] theorem runCp_infraAddEntry (v : SearchEntry) :
    s.runCp pick (infraAddEntry v) = (true, { s with nps := s.nps.setEntry v }) := rfl

@[simp] theorem runCp_infraModifyEntry (v : SearchEntry) :
    s.runCp pick (infraModifyEntry v) = (true, { s with nps := s.nps.setEntry v }) := rfl

@[simp] theorem runCp_infraDeleteEntry (k : SearchKey) :
    s.runCp pick (infraDeleteEntry k) = (true, { s with nps := s.nps.eraseEntry k }) := rfl

@[simp] theorem runCp_infraDeleteAllEntries (i : StructId) :
    s.runCp pick (infraDeleteAllEntries i) = (true, { s with nps := s.nps.eraseAllEntries i }) :=
      rfl

@[simp] theorem runCp_infraGetLongCounter (a : SumAddr) :
    s.runCp pick (infraGetLongCounter a) = (some (counterValue (s.nps.onDemand a)), s) := rfl

@[simp] theorem runCp_infraClearLongCounters (a : SumAddr) (n : UInt32) :
    s.runCp pick (infraClearLongCounters a n) = (true, { s with nps := s.nps.clearOnDemand a n }) :=
      rfl

@[simp] theorem runCp_infraClearPostedCounters (a : SumAddr) (n : UInt32) :
    s.runCp pick (infraClearPostedCounters a n) = (true, { s with nps := s.nps.clearPosted a n }) :=
      rfl

@[simp] theorem runCp_clearServerFlagsWord (a : SumAddr) :
    s.runCp pick (clearServerFlagsWord a) = (true, { s with nps := s.nps.clearFlagsWord a }) := rfl

@[simp] theorem runCp_cleanServiceStats (i : UInt32) :
    s.runCp pick (alvsDbCleanServiceStats i) =
      (.ok, { s with nps := s.nps.clearPosted (serviceStatsBase i) alvsNumOfServiceStats }) := rfl

@[simp] theorem runCp_cleanServerStats (i : UInt32) :
    s.runCp pick (alvsDbCleanServerStats i) =
      (.ok, { s with nps := (s.nps.clearOnDemand (serverOnDemandStatsBase i)
        alvsNumOfServersOnDemandStats).clearPosted (serverStatsBase i) alvsNumOfServerStats }) :=
  rfl

@[simp] theorem runCp_clearOverloadedFlag (v : DbServer) :
    s.runCp pick (alvsClearOverloadedFlagOfServer v) =
      (.ok, { s with nps := s.nps.clearFlagsWord v.serverFlagsDpBase }) := rfl

@[simp] theorem runCp_getNumConnTotal (i : UInt32) :
    s.runCp pick (alvsDbGetNumConnTotal i) =
      ((.ok, some (counterValue (s.nps.onDemand ((serverOnDemandStatsBase i).add
        alvsServerStatsConnectionTotalOffset)))), s) := rfl

end Exec

section Conditional

variable {s : Sys} {pick : Nat}

theorem runCp_internalDbAddService {v : DbService}
    (h : (s.cp.services.find? fun r => r.tuple = v.tuple) = none) :
    s.runCp pick (internalDbAddService v) =
      (true, { s with cp := { s.cp with services := s.cp.services ++ [v] } }) :=
  cpHandle_addService h

theorem runCp_internalDbAddServer {t : ServiceTuple} {v : DbServer}
    (h : (s.cp.servers.find? fun r => r.key = (t, v.ip, v.port)) = none) :
    s.runCp pick (internalDbAddServer t v) =
      (true, { s with cp := { s.cp with servers := s.cp.servers ++ [⟨t, v⟩] } }) :=
  cpHandle_addServer h

theorem runCp_internalDbAddApplicationInfo {v : DbApplicationInfo}
    (h : s.cp.applicationInfo v.applicationIndex = none) :
    s.runCp pick (internalDbAddApplicationInfo v) =
      (true, { s with cp := s.cp.addApplicationInfo v }) := by
  have hnone : ¬ (s.cp.applicationInfo v.applicationIndex).isSome := by simp [h]
  exact (cpHandle_addApplicationInfo v).trans (if_neg hnone)

theorem runCp_serviceIndexPoolAlloc_none (h : s.cp.serviceIndexPool.alloc = none) :
    s.runCp pick serviceIndexPoolAlloc = (none, s) :=
  cpHandle_serviceAlloc_none (e := cpOk pick) h

theorem runCp_serviceIndexPoolAlloc_some {i : Nat} {pool : WfPool serviceIndexPoolSize}
    (h : s.cp.serviceIndexPool.alloc = some (i, pool)) :
    s.runCp pick serviceIndexPoolAlloc =
      (some (.ofNat i), { s with cp := { s.cp with serviceIndexPool := pool } }) :=
  cpHandle_serviceAlloc_some (e := cpOk pick) h

theorem runCp_serverIndexPoolAlloc_none (h : s.cp.serverIndexPool.alloc = none) :
    s.runCp pick serverIndexPoolAlloc = (none, s) :=
  cpHandle_serverAlloc_none (e := cpOk pick) h

theorem runCp_serverIndexPoolAlloc_some {i : Nat} {pool : WfPool serverIndexPoolSize}
    (h : s.cp.serverIndexPool.alloc = some (i, pool)) :
    s.runCp pick serverIndexPoolAlloc =
      (some (.ofNat i), { s with cp := { s.cp with serverIndexPool := pool } }) :=
  cpHandle_serverAlloc_some (e := cpOk pick) h

end Conditional

/-! ## Recalculating the scheduling entries -/

/-- A table with the entries `inds` of a bucket written to it. -/
def populated (npsIndex : UInt32) (buckets : List DbServer) (inds : List Nat)
    (t : UInt16 → Option UInt32) : UInt16 → Option UInt32 :=
  inds.foldl
    (fun t ind => Function.update t (schedIndex npsIndex ind) (buckets[ind]?.map (·.npsIndex))) t

/-- The bucket of a service, computed from its servers in the database that are active and
have a weight. -/
def Cp.bucket (cp : Cp) (service : DbService) : List DbServer :=
  let serverList := cp.serverList service.tuple ⟨true, true⟩
  (serversBuckets service.schedAlg serverList serverList.length).getD []

/-- The state with the scheduling entries of a service recalculated. -/
def Sys.recalculated (s : Sys) (service : DbService) : Sys :=
  { s with nps := { s.nps with
    schedInfo := populated service.npsIndex (s.cp.bucket service) (List.range alvsSizeOfSchedBucket)
      s.nps.schedInfo } }

/-- The number of entries of a service after a recalculation. -/
def Cp.entriesCount (cp : Cp) (service : DbService) : UInt16 :=
  (List.range alvsSizeOfSchedBucket).foldl
    (fun count ind => if (cp.bucket service)[ind]?.isSome then count + 1 else count) 0

theorem runCp_populateSchedInfo (pick : Nat) (npsIndex : UInt32) (buckets : List DbServer) :
    ∀ (inds : List Nat) (count : UInt16) (s : Sys),
    s.runCp pick (populateSchedInfo npsIndex buckets inds count) =
      ((.ok, inds.foldl (fun c ind => if buckets[ind]?.isSome then c + 1 else c) count),
        { s with nps := { s.nps with
          schedInfo := populated npsIndex buckets inds s.nps.schedInfo } })
  | [], _, _ => rfl
  | ind :: inds, count, s => by
    unfold populateSchedInfo
    split
    next server h =>
      simp only [runCp_bind, runCp_infraModifyEntry, if_true]
      rw [runCp_populateSchedInfo]
      simp only [List.foldl_cons, populated, h, Nps.setEntry, Option.isSome_some, if_true,
        Option.map_some]
    next h =>
      simp only [runCp_bind, runCp_infraDeleteEntry, if_true]
      rw [runCp_populateSchedInfo]
      simp only [List.foldl_cons, populated, h, Nps.eraseEntry, Option.isSome_none,
        Bool.false_eq_true, if_false, Option.map_none]

/-- The algorithms that `supported_sched_alg` accepts have a bucket. -/
theorem serversBuckets_supported {alg : AlvsSchedulerType} (h : supportedSchedAlg alg = true)
    (l : List DbServer) (n : Nat) : ∃ b, serversBuckets alg l n = some b := by
  unfold serversBuckets
  split
  · exact ⟨_, rfl⟩
  · revert h
    cases alg <;> simp [supportedSchedAlg]

theorem runCp_recalculate (s : Sys) (pick : Nat) (service : DbService)
    (h : supportedSchedAlg service.schedAlg = true) :
    s.runCp pick (alvsDbRecalculateSchedulingInfo service) =
      ((.ok, { service with schedEntriesCount := s.cp.entriesCount service }),
        s.recalculated service) := by
  obtain ⟨b, hb⟩ := serversBuckets_supported h (s.cp.serverList service.tuple ⟨true, true⟩)
    (s.cp.serverList service.tuple ⟨true, true⟩).length
  have hbucket : s.cp.bucket service = b := by simp [Cp.bucket, hb]
  simp [alvsDbRecalculateSchedulingInfo, hb, runCp_populateSchedInfo, Sys.recalculated,
    Cp.entriesCount, hbucket]

theorem schedIndex_toNat {npsIndex : UInt32} {ind : Nat} (hs : npsIndex.toNat < 256)
    (hi : ind < 256) : (schedIndex npsIndex ind).toNat = npsIndex.toNat * 256 + ind := by
  have h256 : (256 : UInt32).toNat = 256 := rfl
  simp only [schedIndex, UInt32.toNat_toUInt16, UInt32.toNat_add, UInt32.toNat_mul,
    UInt32.toNat_ofNat', h256]
  omega

/-- Of a list of entries that are all written, each is read back; other keys keep their
value. -/
theorem populated_apply {npsIndex : UInt32} (hs : npsIndex.toNat < 256) (buckets : List DbServer)
    (k : UInt16) :
    ∀ (inds : List Nat) (t : UInt16 → Option UInt32), (∀ ind ∈ inds, ind < 256) →
    populated npsIndex buckets inds t k =
      if k.toNat / 256 = npsIndex.toNat ∧ k.toNat % 256 ∈ inds
      then buckets[k.toNat % 256]?.map (·.npsIndex) else t k
  | [], t, _ => by simp [populated]
  | ind :: inds, t, h => by
    have hind := h ind List.mem_cons_self
    have hk : k = schedIndex npsIndex ind ↔
        k.toNat / 256 = npsIndex.toNat ∧ k.toNat % 256 = ind := by
      rw [← UInt16.toNat_inj, schedIndex_toNat hs hind]
      omega
    have ih := populated_apply hs buckets k inds
      (Function.update t (schedIndex npsIndex ind) (buckets[ind]?.map (·.npsIndex)))
      fun i hi => h i (List.mem_cons_of_mem _ hi)
    simp only [populated, List.foldl_cons] at ih ⊢
    rw [ih, Function.update_apply]
    simp only [hk, List.mem_cons]
    split_ifs <;> simp_all

/-- A recalculation sets exactly the entries of the service. -/
theorem recalculated_schedInfo {service : DbService} (s : Sys)
    (hs : service.npsIndex.toNat < 256) (k : UInt16) :
    (s.recalculated service).nps.schedInfo k =
      if k.toNat / 256 = service.npsIndex.toNat
      then (s.cp.bucket service)[k.toNat % 256]?.map (·.npsIndex) else s.nps.schedInfo k := by
  have hmem : k.toNat % 256 ∈ List.range alvsSizeOfSchedBucket :=
    List.mem_range.mpr (Nat.mod_lt _ (by decide))
  have happly := populated_apply hs (s.cp.bucket service) k (List.range alvsSizeOfSchedBucket)
    s.nps.schedInfo fun i hi => List.mem_range.mp hi
  simp only [hmem, and_true] at happly
  rw [← happly, Sys.recalculated]

/-- Entry `ind` of the service is that of its bucket. -/
theorem recalculated_schedIndex {service : DbService} (s : Sys)
    (hs : service.npsIndex.toNat < 256) {ind : Nat} (hi : ind < 256) :
    (s.recalculated service).nps.schedInfo (schedIndex service.npsIndex ind) =
      (s.cp.bucket service)[ind]?.map (·.npsIndex) := by
  rw [recalculated_schedInfo s hs, schedIndex_toNat hs hi, if_pos (by omega),
    show (service.npsIndex.toNat * 256 + ind) % 256 = ind by omega]

end Alvs
