import Alvs.Dp.Quiet

/-!
# From sections to jobs

A job of a thread is made of the functions that take a connection lock, of lookups outside
locks and of calls that leave the tables of connections. What each of these keeps of the
ghost state (`Sectionwise`), every job keeps (`Sectionwise.job`). `Jobwise` takes the fast path
of a known connection as one part, and an invariant may speak of the memory of the thread.
-/

namespace Alvs

open ProgLogic LProg

/-- The functions that take a lock, and the lookups outside locks, keep `I`; other calls are
silent. -/
structure Sectionwise {γ : Type} (S : Spec DpCall DpCall.Res γ) (I : γ → Prop) : Prop where
  silent : Silent S DpCall.OffConn
  classLookup (key : ConnClassificationKey) :
    Triple S I (dpCall (.connClassLookup .tcpProcessing key)) I
  dataPathLookup (i : UInt32) : Triple S I (alvsConnInfoLookup .dataPath i) I
  updateState (i : UInt32) (st : UInt8) : Triple S I (alvsConnUpdateState i st) I
  markToDelete (i : UInt32) (reset : Bool) : Triple S I (alvsConnMarkToDelete i reset) I
  refresh (i : UInt32) : Triple S I (alvsConnRefresh i) I
  bind (i server : UInt32) : Triple S I (alvsConnBind i server) I
  schedule (i : UInt8) (ip : IpHdr) (tcp : TcpHdr) :
    Triple S I (alvsTcpScheduleNewConnection i ip tcp) I
  syncConn (conn : StateSyncConn) : Triple S I (alvsStateSyncProcessConn conn) I
  scanEntry (iter : UInt8) (ip : UInt32) (id : UInt8) (i : UInt32) :
    Triple S I (alvsAgingScanEntry iter ip id i) I

/-! ## The fast path -/

/-- What the parts of the fast path keep, calls off the tables and totals included. -/
structure Pathwise {γ : Type} (S : Spec DpCall DpCall.Res γ) (I : γ → Prop) : Prop where
  off {α : Type} {x : Dp α} : OffTotals x → Triple S I x I
  dataPathLookup (i : UInt32) : Triple S I (alvsConnInfoLookup .dataPath i) I
  updateState (i : UInt32) (st : UInt8) : Triple S I (alvsConnUpdateState i st) I
  markToDelete (i : UInt32) (reset : Bool) : Triple S I (alvsConnMarkToDelete i reset) I
  refresh (i : UInt32) : Triple S I (alvsConnRefresh i) I
  tryBind (i : UInt32) : Triple S I (alvsConnTryBind i) I

namespace Pathwise

variable {γ : Type} {S : Spec DpCall DpCall.Res γ} {I : γ → Prop} (h : Pathwise S I)
include h

theorem discardAndStats (e : AlvsErrorStats) : Triple S I (alvsDiscardAndStats e) I :=
  h.off (quiet_alvsDiscardAndStats e).offTotals

theorem connCheckServer (i : UInt32) : Triple S I (alvsConnCheckServer i) I := by
  refine .get_bind fun m => .ite (.bind (h.off (offTotals_serverInfoLookup _)) fun _ =>
    .ite (.get_bind fun _ => .ite (.of_pure _) ?_) ?_) (.of_pure _)
  · exact .bind (h.markToDelete _ _) fun _ => .bind (h.discardAndStats _) fun _ => .of_pure _
  · exact .bind (h.discardAndStats _) fun _ => .of_pure _

theorem connCheckState (tcp : TcpHdr) (i : UInt32) : Triple S I (alvsConnCheckState tcp i) I := by
  have hdrop : Triple S I
      (alvsDiscardAndStats .cantUpdateConnectionState >>= fun _ => pure false) I :=
    .bind (h.discardAndStats _) fun _ => .of_pure _
  refine .get_bind fun m => .ite ?_ (.ite ?_ (.ite ?_ (.of_pure _)))
  · exact .bind (h.markToDelete _ _) fun _ => .of_pure _
  · exact .bind (h.updateState _ _) fun _ => .ite (.of_pure _) hdrop
  · exact .bind (h.refresh _) fun _ => .ite (.of_pure _) hdrop

theorem connDataPath (tcp : TcpHdr) (i : UInt32) : Triple S I (alvsConnDataPath tcp i) I := by
  refine .bind (h.dataPathLookup i) fun _ => .ite ?_ (h.discardAndStats _)
  refine .bind (h.tryBind i) fun _ => .get_bind fun _ => .ite (h.discardAndStats _) ?_
  exact .bind (h.connCheckServer i) fun _ => .ite
    (.bind (h.connCheckState tcp i) fun _ => .ite (h.off offTotals_connDoRoute) (.of_pure _))
    (.of_pure _)

end Pathwise

/-! ## Jobs -/

/-- What the parts of a job keep of the memory of the thread and of the ghost state. -/
structure Jobwise {γ : Type} (S : Spec DpCall DpCall.Res γ) (I : Cmem → γ → Prop) : Prop where
  quiet {α : Type} {x : Dp α} : QuietProg x → Keeps S I x
  modify {f : Cmem → Cmem} :
    (∀ m, (f m).serverInfoResult = m.serverInfoResult) → Keeps S I (modify f)
  classLookup (key : ConnClassificationKey) :
    Keeps S I (dpCall (.connClassLookup .tcpProcessing key))
  connDataPath (tcp : TcpHdr) (i : UInt32) : Keeps S I (alvsConnDataPath tcp i)
  connDoRoute : Keeps S I alvsConnDoRoute
  schedule (i : UInt8) (ip : IpHdr) (tcp : TcpHdr) :
    Keeps S I (alvsTcpScheduleNewConnection i ip tcp)
  syncConn (conn : StateSyncConn) : Keeps S I (alvsStateSyncProcessConn conn)
  scanEntry (iter : UInt8) (ip : UInt32) (id : UInt8) (i : UInt32) :
    Keeps S I (alvsAgingScanEntry iter ip id i)

namespace Jobwise

variable {γ : Type} {S : Spec DpCall DpCall.Res γ} {I : Cmem → γ → Prop} (h : Jobwise S I)
include h

theorem discardAndStats (e : AlvsErrorStats) : Keeps S I (alvsDiscardAndStats e) :=
  h.quiet (quiet_alvsDiscardAndStats e)

theorem stateSyncProcessConns : ∀ n conns, Keeps S I (alvsStateSyncProcessConns n conns)
  | 0, _ => h.quiet (.of_call trivial)
  | _ + 1, [] => h.discardAndStats _
  | n + 1, conn :: conns => .bind (h.syncConn conn) fun _ =>
    .ite (h.discardAndStats _) (stateSyncProcessConns n conns)

theorem stateSyncBackup (message : SyncMessage) : Keeps S I (alvsStateSyncBackup message) := by
  refine .bind (h.quiet (.of_call trivial)) fun app => ?_
  split
  · exact h.discardAndStats _
  · refine .ite (h.discardAndStats _) ?_
    split
    · exact h.discardAndStats _
    · exact .ite (h.discardAndStats _)
        (.ite (h.stateSyncProcessConns _ _) (h.discardAndStats _))

theorem agingScan (iter : UInt8) (ip : UInt32) (id : UInt8) :
    ∀ n i, Keeps S I (alvsAgingScan iter ip id n i)
  | 0, _ => .of_pure _
  | n + 1, i => .bind (h.scanEntry iter ip id i) fun _ => agingScan iter ip id n (i + 1)

theorem handleAgingEvent (eventId : UInt32) : Keeps S I (alvsHandleAgingEvent eventId) :=
  .bind (h.quiet (.of_call trivial)) fun _ => .bind (h.quiet (.of_call trivial)) fun _ =>
    .bind (h.modify fun _ => rfl) fun _ => .bind (h.agingScan _ _ _ _ _) fun _ => .get_bind fun _ =>
    .bind (.ite (h.quiet quiet_alvsStateSyncSendAggr) (.of_pure _)) fun _ => h.modify fun _ => rfl

theorem serviceDataPath (i : UInt8) (ip : IpHdr) (tcp : TcpHdr) :
    Keeps S I (alvsServiceDataPath i ip tcp) := by
  refine .bind (h.quiet (quiet_alvsServiceInfoLookup _)) fun _ =>
    .ite (.ite (h.schedule _ _ _) ?_) ?_
  all_goals exact .bind (h.discardAndStats _) fun _ => .of_pure _

theorem unknownPacketProcessing (ip : IpHdr) (tcp : TcpHdr) :
    Keeps S I (alvsUnknownPacketProcessing ip tcp) := by
  refine .bind (h.quiet (.of_call trivial)) fun r => ?_
  split
  · refine .bind (h.serviceDataPath _ ip tcp) fun res => ?_
    cases res with
    | success => exact h.connDoRoute
    | retry => exact .get_bind fun _ => h.connDataPath tcp _
    | ignore => exact .of_pure _
  · exact .bind (h.quiet (quiet_alvsUpdateDiscardStatistics _)) fun _ =>
      h.quiet quiet_nwHostDoRoute

theorem tcpProcessing (ip : IpHdr) (tcp : TcpHdr) : Keeps S I (alvsTcpProcessing ip tcp) := by
  refine .bind (h.modify fun _ => rfl) fun _ => .bind (h.classLookup _) fun r => ?_
  split
  · exact h.connDataPath _ _
  · exact h.unknownPacketProcessing _ _

theorem packetProcessing (f : Frame) : Keeps S I (alvsPacketProcessing f) := by
  have hhost (c : NwIfStats) := h.quiet (quiet_alvsSendToHost c)
  refine .bind (h.modify fun _ => rfl) fun _ => ?_
  split
  · exact .ite (h.tcpProcessing _ _) (hhost _)
  · exact .ite (hhost _) (.ite (h.stateSyncBackup _) (hhost _))
  · exact hhost _

/-- What the parts of jobs keep, jobs keep. -/
theorem job (j : DpJob) : Keeps S I (Alvs.packetProcessing j) := by
  cases j with
  | frame f => exact .bind (h.modify fun _ => rfl) fun _ => h.packetProcessing f
  | timer eventId => exact h.handleAgingEvent eventId

end Jobwise

/-! ## Sections -/

namespace Sectionwise

variable {γ : Type} {S : Spec DpCall DpCall.Res γ} {I : γ → Prop} (h : Sectionwise S I)
include h

theorem off {α : Type} {x : Dp α} (hx : OffConn x) : Triple S I x I := .of_makes h.silent hx

theorem connTryBind (i : UInt32) : Triple S I (alvsConnTryBind i) I := by
  refine .get_bind fun m => .ite (.bind (h.off (.of_call trivial)) fun r => ?_) (.of_pure _)
  split
  · exact .of_discard (h.bind _ _)
  · exact .of_pure _

theorem pathwise : Pathwise S I where
  off hx := h.off hx.offConn
  dataPathLookup := h.dataPathLookup
  updateState := h.updateState
  markToDelete := h.markToDelete
  refresh := h.refresh
  tryBind := h.connTryBind

theorem jobwise : Jobwise S fun _ => I where
  quiet hx := (h.off hx.offConn).keeps
  modify _ := Triple.of_modify.keeps
  classLookup key := (h.classLookup key).keeps
  connDataPath tcp i := (h.pathwise.connDataPath tcp i).keeps
  connDoRoute := (h.off offConn_connDoRoute).keeps
  schedule i ip tcp := (h.schedule i ip tcp).keeps
  syncConn conn := (h.syncConn conn).keeps
  scanEntry iter ip id i := (h.scanEntry iter ip id i).keeps

/-- What sections keep, jobs keep. -/
theorem job (j : DpJob) : Triple S I (Alvs.packetProcessing j) I := h.jobwise.job j

end Sectionwise

end Alvs
