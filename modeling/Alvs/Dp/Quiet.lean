import Alvs.Dp.Packet

/-!
# Quiet functions

The network layer, the sync frames and the searches for a service touch neither the tables
of connections and servers nor the counters of servers, and they keep the keys and results
of a connection in the memory of the thread (`Cmem.Same`). The lemmas of this file say so
with `onlySpec`, and `LProg.wp_of_only` gives them for every specification in which quiet
calls are silent. Scheduling, routing and the counters of servers leave the tables of
connections (`OffConn`).
-/

namespace Alvs

open ProgLogic LProg

/-- A call that touches neither the tables of connections and servers, nor locks, nor
counters of services and servers. -/
def DpCall.Quiet : DpCall → Prop
  | connClassLookup _ _ | connClassAdd _ _ _ | connClassDelete _ _ _ | connInfoLookup _ _
  | connInfoAdd _ _ | connInfoModify _ _ | connInfoDelete _ _ | allocIndex _ | freeIndex _
  | lockConnection _ | unlockConnection _ | serverInfoLookup _ | serverClassLookup _ _
  | readAndIncSingleCtr _ | decSingleCtr _ | readAndDecSingleCtr _
  | dualAddPostedCtr _ _ _ => False
  | addPostedCtr a _ => ∃ errorId, a = alvsErrorStatsAddr errorId
  | _ => True

/-- The key, the results of a connection and of a server, and the scheduled index are the
same. -/
structure Cmem.Same (l l' : Cmem) : Prop where
  key : l'.connClassKey = l.connClassKey
  conn : l'.connInfoResult = l.connInfoResult
  server : l'.serverInfoResult = l.serverInfoResult
  sched : l'.schedServerIndex = l.schedServerIndex

instance : Std.Refl Cmem.Same := ⟨fun _ => ⟨rfl, rfl, rfl, rfl⟩⟩

instance : IsTrans Cmem Cmem.Same :=
  ⟨fun _ _ _ h h' => ⟨h'.key.trans h.key, h'.conn.trans h.conn, h'.server.trans h.server,
    h'.sched.trans h.sched⟩⟩

/-- The relation of any two memories. -/
def AnyCmem (_ _ : Cmem) : Prop := True

instance : Std.Refl AnyCmem := ⟨fun _ => trivial⟩

instance : IsTrans Cmem AnyCmem := ⟨fun _ _ _ _ _ => trivial⟩

/-- From any memory, the program makes quiet calls only and keeps what `Same` lists. -/
abbrev QuietProg {α : Type} (x : Dp α) : Prop := x.Makes DpCall.Quiet Cmem.Same

/-! ## The network layer -/

theorem quiet_nwDiscardFrame : QuietProg nwDiscardFrame := .of_call trivial

theorem quiet_nwInterfaceIncCounter (c : NwIfStats) : QuietProg (nwInterfaceIncCounter c) :=
  .of_call trivial

theorem quiet_nwInterfaceLookup (id : UInt32) : QuietProg (nwInterfaceLookup id) := by
  refine .bind (.of_call trivial) fun r => ?_
  split
  · exact .of_pure _
  · exact .bind (.of_modify fun _ => ⟨rfl, rfl, rfl, rfl⟩) fun _ => .of_pure _

theorem quiet_nwHostDoRoute : QuietProg nwHostDoRoute := by
  refine .bind (.of_call trivial) fun r => ?_
  split
  · exact quiet_nwDiscardFrame
  · exact .of_call trivial

theorem quiet_alvsUpdateDiscardStatistics (e : AlvsErrorStats) :
    QuietProg (alvsUpdateDiscardStatistics e) := .of_call ⟨e, rfl⟩

theorem quiet_alvsDiscardAndStats (e : AlvsErrorStats) : QuietProg (alvsDiscardAndStats e) :=
  .bind (quiet_alvsUpdateDiscardStatistics e) fun _ => .of_call trivial

theorem quiet_nwSendFrameToNetwork (id : UInt32) : QuietProg (nwSendFrameToNetwork id) := by
  refine .bind (.of_call trivial) fun _ => .bind (quiet_nwInterfaceLookup _) fun _ => ?_
  exact .ite (.get_bind fun _ => .of_call trivial) (quiet_alvsDiscardAndStats _)

theorem quiet_nwArpProcessing (destIp : UInt32) : QuietProg (nwArpProcessing destIp) := by
  refine .bind (.of_call trivial) fun r => ?_
  split
  · exact .bind (.of_call trivial) fun _ => quiet_nwSendFrameToNetwork _
  · exact .bind (quiet_nwInterfaceIncCounter _) fun _ => quiet_nwDiscardFrame

theorem quiet_nwFibProcessing (destIp : UInt32) : QuietProg (nwFibProcessing destIp) := by
  refine .bind (.of_call trivial) fun r => ?_
  split
  · exact .bind (quiet_nwInterfaceIncCounter _) fun _ => .of_pure _
  · exact .of_pure _
  · exact .of_pure _
  · exact .bind (quiet_nwInterfaceIncCounter _) fun _ => .of_pure _
  · exact .bind (quiet_nwInterfaceIncCounter _) fun _ => .of_pure _

theorem quiet_nwDoRoute (destIp : UInt32) : QuietProg (nwDoRoute destIp) :=
  .bind (quiet_nwFibProcessing destIp) fun _ =>
    .ite quiet_nwDiscardFrame (quiet_nwArpProcessing _)

theorem quiet_alvsSendToHost (c : NwIfStats) : QuietProg (alvsSendToHost c) :=
  .bind (quiet_nwInterfaceIncCounter c) fun _ => quiet_nwHostDoRoute

/-! ## Sync frames -/

theorem quiet_alvsStateSyncFirst (ip : UInt32) (id : UInt8) :
    QuietProg (alvsStateSyncFirst ip id) :=
  .bind (.of_discard (quiet_nwInterfaceLookup _)) fun _ => .of_modify fun _ => ⟨rfl, rfl, rfl, rfl⟩

theorem quiet_alvsStateSyncSendSingle (ip : UInt32) (id : UInt8) :
    QuietProg (alvsStateSyncSendSingle ip id) :=
  .bind (quiet_alvsStateSyncFirst ip id) fun _ => .get_bind fun _ =>
    .bind (.of_call trivial) fun _ => .bind (.of_call trivial) fun _ =>
    .ite (quiet_nwSendFrameToNetwork _) (.of_pure _)

theorem quiet_alvsStateSyncAddBuffer : QuietProg alvsStateSyncAddBuffer := by
  refine .get_bind fun m => .bind (.of_call trivial) fun _ => .bind (.ite (.of_call trivial) ?_)
    fun _ => .bind (.of_modify fun _ => ⟨rfl, rfl, rfl, rfl⟩) fun _ => .of_pure _
  exact .bind (.of_call trivial) fun _ =>
    .ite (.of_pure _) (.bind (.of_call trivial) fun _ => .of_pure _)

theorem quiet_alvsStateSyncSendFirstBuf : QuietProg alvsStateSyncSendFirstBuf :=
  .get_bind fun _ => .bind (.ite (.of_call trivial) (.of_pure _)) fun _ =>
    quiet_nwSendFrameToNetwork _

theorem quiet_alvsStateSyncSendAggr : QuietProg alvsStateSyncSendAggr := by
  refine .get_bind fun m => .ite ?_ (.of_pure _)
  refine .bind (.ite quiet_alvsStateSyncAddBuffer (.of_pure _)) fun _ => .ite ?_ (.of_pure _)
  refine .get_bind fun _ => .ite ?_ quiet_alvsStateSyncSendFirstBuf
  exact .bind (.of_call trivial) fun _ =>
    .ite quiet_alvsStateSyncSendFirstBuf (.of_call trivial)

theorem quiet_alvsStateSyncNewFrame (ip : UInt32) (id : UInt8) :
    QuietProg (alvsStateSyncNewFrame ip id) :=
  .bind (quiet_alvsStateSyncFirst ip id) fun _ => .of_modify fun _ => ⟨rfl, rfl, rfl, rfl⟩

theorem quiet_alvsStateSyncAddConn : QuietProg alvsStateSyncAddConn :=
  .of_modify fun _ => ⟨rfl, rfl, rfl, rfl⟩

theorem quiet_alvsConnSendSync : QuietProg alvsConnSendSync := by
  refine .get_bind fun m => .ite (.bind (.of_call trivial) fun app => ?_) (.of_pure _)
  split
  · exact .ite (quiet_alvsStateSyncSendSingle _ _) (.of_pure _)
  · exact .of_pure _

/-! ## Services -/

theorem quiet_alvsServiceInfoLookup (i : UInt8) : QuietProg (alvsServiceInfoLookup i) := by
  refine .bind (.of_call trivial) fun r => ?_
  split
  · exact .of_pure _
  · exact .bind (.of_modify fun _ => ⟨rfl, rfl, rfl, rfl⟩) fun _ => .of_pure _

theorem quiet_alvsSchedCheckActiveServers : QuietProg alvsSchedCheckActiveServers :=
  .get_bind fun _ => .ite (.bind (quiet_alvsDiscardAndStats _) fun _ => .of_pure _) (.of_pure _)

theorem quiet_alvsSchedShGetSchedulingIndex (sip : UInt32) (sport : UInt16) :
    QuietProg (alvsSchedShGetSchedulingIndex sip sport) :=
  .bind (.of_call trivial) fun _ => .bind (.of_call trivial) fun _ => .of_call trivial

/-! ## Functions that do not touch the tables of connections -/

/-- A call that touches neither the tables of connections, nor the pool of indexes, nor
locks. -/
def DpCall.OffConn : DpCall → Prop
  | connClassLookup _ _ | connClassAdd _ _ _ | connClassDelete _ _ _ | connInfoLookup _ _
  | connInfoAdd _ _ | connInfoModify _ _ | connInfoDelete _ _ | allocIndex _ | freeIndex _
  | lockConnection _ | unlockConnection _ => False
  | _ => True

theorem DpCall.Quiet.offConn {op : DpCall} (h : op.Quiet) : op.OffConn := by
  cases op <;> first | exact trivial | exact h.elim

/-- The key and the result of a connection are the same. -/
structure Cmem.SameConn (l l' : Cmem) : Prop where
  key : l'.connClassKey = l.connClassKey
  conn : l'.connInfoResult = l.connInfoResult

instance : Std.Refl Cmem.SameConn := ⟨fun _ => ⟨rfl, rfl⟩⟩

instance : IsTrans Cmem Cmem.SameConn :=
  ⟨fun _ _ _ h h' => ⟨h'.key.trans h.key, h'.conn.trans h.conn⟩⟩

/-- From any memory, the program leaves the tables of connections, and the key and result of
a connection. -/
abbrev OffConn {α : Type} (x : Dp α) : Prop := x.Makes DpCall.OffConn Cmem.SameConn

theorem QuietProg.offConn {α : Type} {x : Dp α} (h : QuietProg x) : OffConn x :=
  h.mono (fun _ => DpCall.Quiet.offConn) fun _ _ h => ⟨h.key, h.conn⟩

/-- A call of `OffConn` that does not touch on-demand counters either. -/
def DpCall.OffTotals : DpCall → Prop
  | readAndIncSingleCtr _ | decSingleCtr _ | readAndDecSingleCtr _ => False
  | op => op.OffConn

theorem DpCall.OffTotals.offConn {op : DpCall} (h : op.OffTotals) : op.OffConn := by
  cases op <;> first | exact trivial | exact h.elim

theorem DpCall.Quiet.offTotals {op : DpCall} (h : op.Quiet) : op.OffTotals := by
  cases op <;> first | exact trivial | exact h.elim

/-- From any memory, the program leaves the tables of connections, on-demand counters, and the
key and result of a connection. -/
abbrev OffTotals {α : Type} (x : Dp α) : Prop := x.Makes DpCall.OffTotals Cmem.SameConn

theorem QuietProg.offTotals {α : Type} {x : Dp α} (h : QuietProg x) : OffTotals x :=
  h.mono (fun _ => DpCall.Quiet.offTotals) fun _ _ h => ⟨h.key, h.conn⟩

theorem OffTotals.offConn {α : Type} {x : Dp α} (h : OffTotals x) : OffConn x :=
  h.mono (fun _ => DpCall.OffTotals.offConn) fun _ _ h => h

theorem offTotals_updateConnectionStatistics (s a i : Int) :
    OffTotals (alvsUpdateConnectionStatistics s a i) :=
  .get_bind fun _ => .bind (.of_call trivial) fun _ => .bind (.of_call trivial) fun _ =>
    .bind (.of_call trivial) fun _ => .of_call trivial

theorem offConn_updateConnectionStatistics (s a i : Int) :
    OffConn (alvsUpdateConnectionStatistics s a i) :=
  (offTotals_updateConnectionStatistics s a i).offConn

theorem offTotals_updateIncomingTrafficStats : OffTotals alvsUpdateIncomingTrafficStats :=
  .get_bind fun _ => .bind (.of_call trivial) fun _ => .of_call trivial

theorem offTotals_serverInfoLookup (i : UInt32) : OffTotals (alvsServerInfoLookup i) := by
  refine .bind (.of_call trivial) fun r => ?_
  split
  · exact .of_pure _
  · exact .bind (.of_modify fun _ => ⟨rfl, rfl⟩) fun _ => .of_pure _

theorem offConn_serverInfoLookup (i : UInt32) : OffConn (alvsServerInfoLookup i) :=
  (offTotals_serverInfoLookup i).offConn

theorem offConn_overloadOnCreateConn (i : UInt16) :
    OffConn (alvsServerOverloadOnCreateConn i) := by
  refine .get_bind fun _ => .bind (.of_call trivial) fun _ => .bind (.of_call trivial) fun _ => ?_
  refine .ite (.of_pure _) (.ite (.ite ?_ ?_) (.ite ?_ (.ite ?_ (.ite ?_ (.of_pure _)))))
  all_goals repeat refine .bind (.of_call trivial) fun _ => ?_
  all_goals exact .of_pure _

theorem offConn_overloadOnDeleteConn (i : UInt16) :
    OffConn (alvsServerOverloadOnDeleteConn i) :=
  .get_bind fun _ => .bind (.of_call trivial) fun _ =>
    .ite (.of_call trivial) (.ite (.ite (.of_call trivial) (.of_pure _))
      (.ite (.of_call trivial) (.of_pure _)))

theorem offConn_connReleaseServer (c : ConnInfoResult) : OffConn (alvsConnReleaseServer c) := by
  refine .bind (offConn_serverInfoLookup _) fun _ => .ite ?_ (.of_pure _)
  refine .bind (.ite ?_ ?_) fun _ => offConn_overloadOnDeleteConn _
  all_goals exact offConn_updateConnectionStatistics _ _ _

theorem offTotals_connDoRoute : OffTotals alvsConnDoRoute :=
  .get_bind fun _ => .ite
    (.bind (quiet_nwDoRoute _).offTotals fun _ =>
      .bind offTotals_updateIncomingTrafficStats fun _ => quiet_alvsConnSendSync.offTotals)
    (quiet_alvsDiscardAndStats _).offTotals

theorem offConn_connDoRoute : OffConn alvsConnDoRoute := offTotals_connDoRoute.offConn

theorem offTotals_stateSyncAggr (ip : UInt32) (id : UInt8) :
    OffTotals (alvsStateSyncAggr ip id) := by
  refine .get_bind fun _ => .bind (.ite (offTotals_serverInfoLookup _) (.of_pure _)) fun _ =>
    .ite (.get_bind fun _ => ?_) (.of_pure _)
  have hnew := (quiet_alvsStateSyncNewFrame ip id).offTotals
  refine .ite hnew (.ite (.ite ?_ ?_) quiet_alvsStateSyncAddConn.offTotals)
  · exact .bind quiet_alvsStateSyncSendAggr.offTotals fun _ => hnew
  · exact .bind quiet_alvsStateSyncAddBuffer.offTotals fun _ =>
      .ite quiet_alvsStateSyncAddConn.offTotals (.of_pure _)

theorem offConn_stateSyncAggr (ip : UInt32) (id : UInt8) : OffConn (alvsStateSyncAggr ip id) :=
  (offTotals_stateSyncAggr ip id).offConn

theorem offConn_schedGetServerInfo (i : UInt16) : OffConn (alvsSchedGetServerInfo i) := by
  refine .bind (.bind (.of_call trivial) fun r => ?_) fun r => ?_
  · split
    · exact .bind (.of_modify fun _ => ⟨rfl, rfl⟩) fun _ => .of_pure _
    · exact .of_pure _
    · exact .of_pure _
  · split
    · refine .get_bind fun _ => .bind (offConn_serverInfoLookup _) fun _ => .ite ?_ ?_
      · exact .bind (offConn_overloadOnCreateConn _) fun _ => .ite (.of_pure _) (.of_pure _)
      · exact .bind (quiet_alvsDiscardAndStats _).offConn fun _ => .of_pure _
    · exact .of_pure _
    · exact .bind (quiet_alvsDiscardAndStats _).offConn fun _ => .of_pure _

theorem offConn_schedShFallback (i : UInt8) (hash : UInt32) :
    ∀ offsets, OffConn (alvsSchedShFallback i hash offsets)
  | [] => .of_pure _
  | _ :: offsets => .bind (offConn_schedGetServerInfo _) fun _ =>
    .ite (offConn_schedShFallback i hash offsets) (.of_pure _)

theorem offConn_schedShScheduleConnection (i : UInt8) (sip : UInt32) (sport : UInt16) :
    OffConn (alvsSchedShScheduleConnection i sip sport) := by
  refine .get_bind fun _ => .bind (quiet_alvsSchedShGetSchedulingIndex _ _).offConn fun _ =>
    .bind (offConn_schedGetServerInfo _) fun _ =>
    .bind (.ite (offConn_schedShFallback _ _ _) (.of_pure _)) fun r => ?_
  cases r
  case success | failed => exact .of_pure _
  all_goals exact .bind (quiet_alvsDiscardAndStats _).offConn fun _ => .of_pure _

theorem offConn_schedRrLoop (i : UInt8) : ∀ retries count, OffConn (alvsSchedRrLoop i retries count)
  | 0, _ => .of_pure _
  | retries + 1, count => by
    refine .get_bind fun _ => .bind (offConn_schedGetServerInfo _) fun _ => .ite ?_ (.of_pure _)
    refine .bind (quiet_alvsServiceInfoLookup _).offConn fun _ => .ite ?_ ?_
    · exact .bind quiet_alvsSchedCheckActiveServers.offConn fun _ =>
        .ite (offConn_schedRrLoop i retries _) (.of_pure _)
    · exact .bind (quiet_alvsDiscardAndStats _).offConn fun _ => .of_pure _

theorem offConn_schedRrScheduleConnection (i : UInt8) :
    OffConn (alvsSchedRrScheduleConnection i) := by
  refine .get_bind fun _ => .bind (.of_call trivial) fun _ =>
    .bind (offConn_schedRrLoop _ _ _) fun r => ?_
  split
  case h_2 | h_3 => exact .bind (quiet_alvsDiscardAndStats _).offConn fun _ => .of_pure _
  all_goals exact .of_pure _

theorem offConn_scheduleConnection (i : UInt8) (ip : IpHdr) (tcp : TcpHdr) :
    OffConn (alvsScheduleConnection i ip tcp) := by
  refine .get_bind fun _ => .ite (offConn_schedShScheduleConnection _ _ _)
    (.ite (offConn_schedRrScheduleConnection _) (.ite (offConn_schedRrScheduleConnection _) ?_))
  exact .bind (quiet_alvsDiscardAndStats _).offConn fun _ => .of_pure _

theorem offTotals_stateSyncUpdateStatistics (conn : StateSyncConn) (c : ConnInfoResult) :
    OffTotals (alvsStateSyncUpdateStatistics conn c) := by
  refine .ite (.ite ?_ ?_) (.of_pure _)
  all_goals exact offTotals_updateConnectionStatistics _ _ _

theorem offConn_stateSyncUpdateStatistics (conn : StateSyncConn) (c : ConnInfoResult) :
    OffConn (alvsStateSyncUpdateStatistics conn c) :=
  (offTotals_stateSyncUpdateStatistics conn c).offConn

end Alvs
