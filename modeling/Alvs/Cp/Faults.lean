import Alvs.Cp.Inv
import Alvs.Cp.Daemon
import Alvs.Lib.Local

/-!
# Calls that fail

Every SQL statement and every call that accesses the chip may fail, and then changes
nothing. A `CpAttempt` is a request with what each of its calls is told by its environment,
`Sys.serve` executes it, and returns beside the result and the state the list of the calls
that failed.

Three kinds of calls are `Ignored` : the requests go on when they fail. For each operation
`Outcome` says what it has done for every result it can return, whatever calls fail : one
that is rejected changed nothing, one that returns `ALVS_DB_OK` had its effect on the
database, and one that returns an error had a call fail that is not ignored.
-/

namespace Alvs

open ProgLogic

/-! ## Failed calls -/

/-- The call is one of the database or the chip, and fails. -/
def CpCall.failed : (op : CpCall) → op.Res → Bool
  | .internalDbGetService _, r => Option.isNone r
  | .internalDbAddService _, r => !r
  | .internalDbModifyService _, r => !r
  | .internalDbDeleteService _, r => !r
  | .internalDbGetServiceCount, r => Option.isNone r
  | .internalDbGetServiceList, r => Option.isNone r
  | .internalDbClearAll, r => !r
  | .internalDbGetServerCount _ _, r => Option.isNone r
  | .internalDbGetServerList _ _, r => Option.isNone r
  | .internalDbGetServer _ _ _, r => Option.isNone r
  | .internalDbAddServer _ _, r => !r
  | .internalDbModifyServer _ _, r => !r
  | .internalDbDeleteServer _ _ _, r => !r
  | .internalDbDeactivateServer _ _ _, r => !r
  | .internalDbActivateServer _ _, r => !r
  | .internalDbAddApplicationInfo _, r => !r
  | .internalDbGetApplicationInfo _, r => Option.isNone r
  | .internalDbModifyApplicationInfo _, r => !r
  | .stepInactiveServers, r => Option.isNone r
  | .serviceIndexPoolAlloc, _ => false
  | .serviceIndexPoolRelease _, _ => false
  | .serviceIndexPoolRewind, _ => false
  | .serverIndexPoolAlloc, _ => false
  | .serverIndexPoolRelease _, _ => false
  | .infraAddEntry _, r => !r
  | .infraModifyEntry _, r => !r
  | .infraDeleteEntry _, r => !r
  | .infraDeleteAllEntries _, r => !r
  | .infraGetLongCounter _, r => Option.isNone r
  | .infraClearLongCounters _ _, r => !r
  | .infraClearPostedCounters _ _, r => !r
  | .clearServerFlagsWord _, r => !r

/-- The calls whose failure the requests of the administrator ignore : the count of the
active servers of a service, and the clearing of the counters of a new index. -/
def CpCall.Ignored : CpCall → Prop
  | .internalDbGetServerCount _ flags => flags = ⟨false, true⟩
  | .infraClearLongCounters _ _ => True
  | .infraClearPostedCounters _ _ => True
  | _ => False

instance : DecidablePred CpCall.Ignored := fun op => by
  unfold CpCall.Ignored
  split <;> infer_instance

/-- The state with the calls that have failed, the last one first. -/
structure Faulty where
  sys : Sys
  failed : List CpCall

def faultHandle (e : CpEnv) (op : CpCall) (g : Faulty) : op.Res × Faulty :=
  let (r, s) := cpHandle e op g.sys
  (r, ⟨s, if op.failed r then op :: g.failed else g.failed⟩)

/-! ## Requests -/

/-- An operation on services and servers or a round of the aging thread (`ipvs`), or a command
on the daemons. -/
inductive CpRequest
  | ipvs (op : CpOp)
  | initDaemon (ifaddr : Option (List IfAddr)) (d d' : IpVsDaemonUser)
  | startDaemon (ifaddr : Option (List IfAddr)) (d : IpVsDaemonUser)
  | stopDaemon (d : IpVsDaemonUser)

/-- A round of the aging thread, whose variable `value` holds `value` before. A thread that
exits does so with an error. -/
def agingRound (value : UInt64) : CpProg AlvsDbRc := do
  let l ← serverDbAging ⟨value, false⟩
  return if l.exited then .internalError else .ok

def CpRequest.program (value : UInt64) : CpRequest → CpProg AlvsDbRc
  | .ipvs (.aging _) => agingRound value
  | .ipvs op => adminProgram op
  | .initDaemon ifaddr d d' => alvsDbInitDaemon ifaddr d d'
  | .startDaemon ifaddr d => alvsDbStartDaemon ifaddr d
  | .stopDaemon d => alvsDbStopDaemon d

/-- A request, with what its calls leave open. -/
structure CpAttempt where
  request : CpRequest
  env : Nat → CpEnv
  value : UInt64

/-- Execute a request : its result, the state after it and the calls that failed. -/
def Sys.serve (s : Sys) (a : CpAttempt) : AlvsDbRc × Faulty :=
  (a.request.program a.value).execEnv faultHandle a.env ⟨s, []⟩

/-- The state after a request. -/
def Sys.served (s : Sys) (a : CpAttempt) : Sys := (s.serve a).2.sys

/-- The calls of the control plane, any of which may fail. -/
def faultSpec : Spec CpCall CpCall.Res Faulty := Prog.envSpec faultHandle fun _ _ _ => True

theorem serve_of_wp {a : CpAttempt} {s : Sys} {Q : AlvsDbRc → Faulty → Prop}
    (h : (a.request.program a.value).wp faultSpec Q ⟨s, []⟩) : Q (s.serve a).1 (s.serve a).2 :=
  Prog.execEnv_of_wp _ h (Prog.CallsOk.of_forall (fun _ _ _ => trivial) _ _ _)

/-! ## What a call can do -/

section Calls

variable {Q : Bool → Faulty → Prop} {g : Faulty}

theorem wp_perform_fault {op : CpCall} {Q : op.Res → Faulty → Prop} :
    (Prog.perform op : CpProg op.Res).wp faultSpec Q g ↔
      ∀ e, Q (faultHandle e op g).1 (faultHandle e op g).2 := by
  constructor
  · exact fun h e => h.2 _ _ ⟨e, trivial, rfl⟩
  · rintro h
    refine ⟨trivial, ?_⟩
    rintro r g' ⟨e, -, hr⟩
    rw [show r = (faultHandle e op g).1 from congrArg Prod.fst hr.symm,
      show g' = (faultHandle e op g).2 from congrArg Prod.snd hr.symm]
    exact h e

/-- The state after a call that failed. -/
def Faulty.fail (g : Faulty) (op : CpCall) : Faulty := { g with failed := op :: g.failed }

theorem forall_attempt_fault {c : CpCall} {s : Sys} :
    (∀ e, Q (g.sys.attempt e s).1
      ⟨(g.sys.attempt e s).2, if !(g.sys.attempt e s).1 then c :: g.failed else g.failed⟩) ↔
    Q false (g.fail c) ∧ Q true { g with sys := s } := by
  constructor
  · exact fun h => ⟨h ⟨true, 0⟩, h ⟨false, 0⟩⟩
  · rintro ⟨hfails, hok⟩ ⟨_ | _, pick⟩
    · exact hok
    · exact hfails

theorem forall_answer_fault {α : Type} {Q : Option α → Faulty → Prop} {c : CpCall} {a : α} :
    (∀ e, Q (g.sys.answer e a).1
      ⟨(g.sys.answer e a).2,
        if (g.sys.answer e a).1.isNone then c :: g.failed else g.failed⟩) ↔
    Q none (g.fail c) ∧ Q (some a) g := by
  constructor
  · exact fun h => ⟨h ⟨true, 0⟩, h ⟨false, 0⟩⟩
  · rintro ⟨hfails, hok⟩ ⟨_ | _, pick⟩
    · exact hok
    · exact hfails

@[simp] theorem wp_internalDbGetService {Q : Option (Option DbService) → Faulty → Prop}
    (t : ServiceTuple) :
    (internalDbGetService t).wp faultSpec Q g ↔
      Q none (g.fail (.internalDbGetService t)) ∧
        Q (some (g.sys.cp.findService t)) g :=
  wp_perform_fault.trans forall_answer_fault

@[simp] theorem wp_internalDbGetServiceCount {Q : Option Nat → Faulty → Prop} :
    internalDbGetServiceCount.wp faultSpec Q g ↔
      Q none (g.fail .internalDbGetServiceCount) ∧
        Q (some g.sys.cp.services.length) g :=
  wp_perform_fault.trans forall_answer_fault

@[simp] theorem wp_internalDbGetServiceList {Q : Option (List DbService) → Faulty → Prop} :
    internalDbGetServiceList.wp faultSpec Q g ↔
      Q none (g.fail .internalDbGetServiceList) ∧
        Q (some g.sys.cp.services) g :=
  wp_perform_fault.trans forall_answer_fault

@[simp] theorem wp_internalDbGetServerCount {Q : Option Nat → Faulty → Prop}
    (t : ServiceTuple) (f : Exclude) :
    (internalDbGetServerCount t f).wp faultSpec Q g ↔
      Q none (g.fail (.internalDbGetServerCount t f)) ∧
        Q (some ((g.sys.cp.serverList t f).length)) g :=
  wp_perform_fault.trans forall_answer_fault

@[simp] theorem wp_internalDbGetServerList {Q : Option (List DbServer) → Faulty → Prop}
    (t : ServiceTuple) (f : Exclude) :
    (internalDbGetServerList t f).wp faultSpec Q g ↔
      Q none (g.fail (.internalDbGetServerList t f)) ∧
        Q (some (g.sys.cp.serverList t f)) g :=
  wp_perform_fault.trans forall_answer_fault

@[simp] theorem wp_internalDbGetServer {Q : Option (Option DbServer) → Faulty → Prop}
    (t : ServiceTuple) (ip : UInt32) (port : UInt16) :
    (internalDbGetServer t ip port).wp faultSpec Q g ↔
      Q none (g.fail (.internalDbGetServer t ip port)) ∧
        Q (some ((g.sys.cp.findServer t ip port).map (·.server))) g :=
  wp_perform_fault.trans forall_answer_fault

@[simp] theorem wp_internalDbGetApplicationInfo
    {Q : Option (Option DbApplicationInfo) → Faulty → Prop} (i : UInt8) :
    (internalDbGetApplicationInfo i).wp faultSpec Q g ↔
      Q none (g.fail (.internalDbGetApplicationInfo i)) ∧
        Q (some (g.sys.cp.applicationInfo i)) g :=
  wp_perform_fault.trans forall_answer_fault

@[simp] theorem wp_infraGetLongCounter {Q : Option UInt64 → Faulty → Prop} (a : SumAddr) :
    (infraGetLongCounter a).wp faultSpec Q g ↔
      Q none (g.fail (.infraGetLongCounter a)) ∧
        Q (some (counterValue (g.sys.nps.onDemand a))) g :=
  wp_perform_fault.trans forall_answer_fault

@[simp] theorem wp_internalDbModifyService (v : DbService) :
    (internalDbModifyService v).wp faultSpec Q g ↔
      Q false (g.fail (.internalDbModifyService v)) ∧
        Q true { g with sys := { g.sys with cp := g.sys.cp.modifyService v } } :=
  wp_perform_fault.trans forall_attempt_fault

@[simp] theorem wp_internalDbDeleteService (t : ServiceTuple) :
    (internalDbDeleteService t).wp faultSpec Q g ↔
      Q false (g.fail (.internalDbDeleteService t)) ∧
        Q true { g with sys := { g.sys with cp := g.sys.cp.deleteService t } } :=
  wp_perform_fault.trans forall_attempt_fault

@[simp] theorem wp_internalDbClearAll :
    internalDbClearAll.wp faultSpec Q g ↔
      Q false (g.fail .internalDbClearAll) ∧
        Q true { g with sys := { g.sys with cp := g.sys.cp.clearAll } } :=
  wp_perform_fault.trans forall_attempt_fault

@[simp] theorem wp_internalDbModifyServer (t : ServiceTuple) (v : DbServer) :
    (internalDbModifyServer t v).wp faultSpec Q g ↔
      Q false (g.fail (.internalDbModifyServer t v)) ∧
        Q true { g with sys := { g.sys with
          cp := g.sys.cp.updateServer t v.ip v.port v.modify } } :=
  wp_perform_fault.trans forall_attempt_fault

@[simp] theorem wp_internalDbDeleteServer (t : ServiceTuple) (ip : UInt32) (port : UInt16) :
    (internalDbDeleteServer t ip port).wp faultSpec Q g ↔
      Q false (g.fail (.internalDbDeleteServer t ip port)) ∧
        Q true { g with sys := { g.sys with cp := g.sys.cp.deleteServer t ip port } } :=
  wp_perform_fault.trans forall_attempt_fault

@[simp] theorem wp_internalDbDeactivateServer (t : ServiceTuple) (ip : UInt32) (port : UInt16) :
    (internalDbDeactivateServer t ip port).wp faultSpec Q g ↔
      Q false (g.fail (.internalDbDeactivateServer t ip port)) ∧
        Q true { g with sys := { g.sys with
          cp := g.sys.cp.updateServer t ip port DbServer.deactivated } } :=
  wp_perform_fault.trans forall_attempt_fault

@[simp] theorem wp_internalDbActivateServer (t : ServiceTuple) (v : DbServer) :
    (internalDbActivateServer t v).wp faultSpec Q g ↔
      Q false (g.fail (.internalDbActivateServer t v)) ∧
        Q true { g with sys := { g.sys with
          cp := g.sys.cp.updateServer t v.ip v.port v.activate } } :=
  wp_perform_fault.trans forall_attempt_fault

@[simp] theorem wp_internalDbModifyApplicationInfo (v : DbApplicationInfo) :
    (internalDbModifyApplicationInfo v).wp faultSpec Q g ↔
      Q false (g.fail (.internalDbModifyApplicationInfo v)) ∧
        Q true { g with sys := { g.sys with cp := g.sys.cp.modifyApplicationInfo v } } :=
  wp_perform_fault.trans forall_attempt_fault

@[simp] theorem wp_infraAddEntry (x : SearchEntry) :
    (infraAddEntry x).wp faultSpec Q g ↔
      Q false (g.fail (.infraAddEntry x)) ∧
        Q true { g with sys := { g.sys with nps := g.sys.nps.setEntry x } } :=
  wp_perform_fault.trans forall_attempt_fault

@[simp] theorem wp_infraModifyEntry (x : SearchEntry) :
    (infraModifyEntry x).wp faultSpec Q g ↔
      Q false (g.fail (.infraModifyEntry x)) ∧
        Q true { g with sys := { g.sys with nps := g.sys.nps.setEntry x } } :=
  wp_perform_fault.trans forall_attempt_fault

@[simp] theorem wp_infraDeleteEntry (k : SearchKey) :
    (infraDeleteEntry k).wp faultSpec Q g ↔
      Q false (g.fail (.infraDeleteEntry k)) ∧
        Q true { g with sys := { g.sys with nps := g.sys.nps.eraseEntry k } } :=
  wp_perform_fault.trans forall_attempt_fault

@[simp] theorem wp_infraDeleteAllEntries (i : StructId) :
    (infraDeleteAllEntries i).wp faultSpec Q g ↔
      Q false (g.fail (.infraDeleteAllEntries i)) ∧
        Q true { g with sys := { g.sys with nps := g.sys.nps.eraseAllEntries i } } :=
  wp_perform_fault.trans forall_attempt_fault

@[simp] theorem wp_infraClearLongCounters (a : SumAddr) (n : UInt32) :
    (infraClearLongCounters a n).wp faultSpec Q g ↔
      Q false (g.fail (.infraClearLongCounters a n)) ∧
        Q true { g with sys := { g.sys with nps := g.sys.nps.clearOnDemand a n } } :=
  wp_perform_fault.trans forall_attempt_fault

@[simp] theorem wp_infraClearPostedCounters (a : SumAddr) (n : UInt32) :
    (infraClearPostedCounters a n).wp faultSpec Q g ↔
      Q false (g.fail (.infraClearPostedCounters a n)) ∧
        Q true { g with sys := { g.sys with nps := g.sys.nps.clearPosted a n } } :=
  wp_perform_fault.trans forall_attempt_fault

@[simp] theorem wp_clearServerFlagsWord (a : SumAddr) :
    (clearServerFlagsWord a).wp faultSpec Q g ↔
      Q false (g.fail (.clearServerFlagsWord a)) ∧
        Q true { g with sys := { g.sys with nps := g.sys.nps.clearFlagsWord a } } :=
  wp_perform_fault.trans forall_attempt_fault

@[simp] theorem wp_serviceIndexPoolRelease {Q : Unit → Faulty → Prop} (i : UInt32) :
    (serviceIndexPoolRelease i).wp faultSpec Q g ↔
      Q () { g with sys := { g.sys with cp := { g.sys.cp with
        serviceIndexPool := g.sys.cp.serviceIndexPool.release i.toNat } } } :=
  wp_perform_fault.trans ⟨fun h => h ⟨false, 0⟩, fun h _ => h⟩

@[simp] theorem wp_serviceIndexPoolRewind {Q : Unit → Faulty → Prop} :
    serviceIndexPoolRewind.wp faultSpec Q g ↔
      Q () { g with sys := { g.sys with cp := { g.sys.cp with
        serviceIndexPool := g.sys.cp.serviceIndexPool.rewind } } } :=
  wp_perform_fault.trans ⟨fun h => h ⟨false, 0⟩, fun h _ => h⟩

@[simp] theorem wp_serverIndexPoolRelease {Q : Unit → Faulty → Prop} (i : UInt32) :
    (serverIndexPoolRelease i).wp faultSpec Q g ↔
      Q () { g with sys := { g.sys with cp := { g.sys.cp with
        serverIndexPool := g.sys.cp.serverIndexPool.release i.toNat } } } :=
  wp_perform_fault.trans ⟨fun h => h ⟨false, 0⟩, fun h _ => h⟩

/-- The cursor of the aging thread is at any inactive row, or at the end of them. -/
@[simp] theorem wp_stepInactiveServers {Q : Option (Option ServerRow) → Faulty → Prop} :
    stepInactiveServers.wp faultSpec Q g ↔
      Q none (g.fail .stepInactiveServers) ∧
        ∀ pick : Nat, Q (some (g.sys.cp.servers.filter fun r => !r.server.active)[pick]?) g := by
  refine wp_perform_fault.trans ⟨fun h => ⟨h ⟨true, 0⟩, fun pick => h ⟨false, pick⟩⟩, ?_⟩
  rintro ⟨hfails, hok⟩ ⟨_ | _, pick⟩
  · exact hok pick
  · exact hfails

/-- A row is added where there is none with its key. -/
theorem wp_internalDbAddService {v : DbService} (h : g.sys.cp.findService v.tuple = none) :
    (internalDbAddService v).wp faultSpec Q g ↔
      Q false (g.fail (.internalDbAddService v)) ∧
        Q true { g with sys := { g.sys with
          cp := { g.sys.cp with services := g.sys.cp.services ++ [v] } } } := by
  refine wp_perform_fault.trans (Iff.trans ?_ forall_attempt_fault)
  simp only [faultHandle, cpHandle_addService h]
  rfl

theorem wp_internalDbAddServer {t : ServiceTuple} {v : DbServer}
    (h : g.sys.cp.findServer t v.ip v.port = none) :
    (internalDbAddServer t v).wp faultSpec Q g ↔
      Q false (g.fail (.internalDbAddServer t v)) ∧
        Q true { g with sys := { g.sys with
          cp := { g.sys.cp with servers := g.sys.cp.servers ++ [⟨t, v⟩] } } } := by
  refine wp_perform_fault.trans (Iff.trans ?_ forall_attempt_fault)
  simp only [faultHandle, cpHandle_addServer h]
  rfl

/-- Where there is a row with its key, the call fails. -/
theorem wp_internalDbAddApplicationInfo {v : DbApplicationInfo}
    (hfails : Q false (g.fail (.internalDbAddApplicationInfo v)))
    (hok : Q true { g with sys := { g.sys with cp := g.sys.cp.addApplicationInfo v } }) :
    (internalDbAddApplicationInfo v).wp faultSpec Q g := by
  refine wp_perform_fault.mpr fun e => ?_
  cases hdup : (g.sys.cp.applicationInfo v.applicationIndex).isSome
  · simp only [faultHandle, cpHandle_addApplicationInfo, hdup, Bool.false_eq_true]
    exact forall_attempt_fault.mpr ⟨hfails, hok⟩ e
  · simp only [faultHandle, cpHandle_addApplicationInfo, hdup]
    exact hfails

theorem wp_serviceIndexPoolAlloc_none {Q : Option UInt32 → Faulty → Prop}
    (h : g.sys.cp.serviceIndexPool.alloc = none) :
    serviceIndexPoolAlloc.wp faultSpec Q g ↔ Q none g := by
  refine wp_perform_fault.trans ?_
  simp only [faultHandle, cpHandle_serviceAlloc_none h]
  exact ⟨fun h => h ⟨false, 0⟩, fun h _ => h⟩

theorem wp_serviceIndexPoolAlloc_some {Q : Option UInt32 → Faulty → Prop} {i : Nat}
    {pool : WfPool serviceIndexPoolSize}
    (h : g.sys.cp.serviceIndexPool.alloc = some (i, pool)) :
    serviceIndexPoolAlloc.wp faultSpec Q g ↔
      Q (some (.ofNat i)) { g with sys := { g.sys with
        cp := { g.sys.cp with serviceIndexPool := pool } } } := by
  refine wp_perform_fault.trans ?_
  simp only [faultHandle, cpHandle_serviceAlloc_some h]
  exact ⟨fun h => h ⟨false, 0⟩, fun h _ => h⟩

theorem wp_serverIndexPoolAlloc_none {Q : Option UInt32 → Faulty → Prop}
    (h : g.sys.cp.serverIndexPool.alloc = none) :
    serverIndexPoolAlloc.wp faultSpec Q g ↔ Q none g := by
  refine wp_perform_fault.trans ?_
  simp only [faultHandle, cpHandle_serverAlloc_none h]
  exact ⟨fun h => h ⟨false, 0⟩, fun h _ => h⟩

theorem wp_serverIndexPoolAlloc_some {Q : Option UInt32 → Faulty → Prop} {i : Nat}
    {pool : WfPool serverIndexPoolSize}
    (h : g.sys.cp.serverIndexPool.alloc = some (i, pool)) :
    serverIndexPoolAlloc.wp faultSpec Q g ↔
      Q (some (.ofNat i)) { g with sys := { g.sys with
        cp := { g.sys.cp with serverIndexPool := pool } } } := by
  refine wp_perform_fault.trans ?_
  simp only [faultHandle, cpHandle_serverAlloc_some h]
  exact ⟨fun h => h ⟨false, 0⟩, fun h _ => h⟩

end Calls

end Alvs
