import Alvs.Dp.FrameDisposal
import Alvs.Dp.SyncPacking

/-!
# Sync frames and the master role

A thread transmits a sync frame only in a job whose lookup of the application information
has found the master bit, and the records that an aging event transmits are of connections
that it has scanned. This needs a condition : `alvs_handle_aging_event` starts a new frame
where it finds the master bit, but leaves `amount_buffers` as it is where it does not, and at
its end sends whatever is counted there. The count survives in the memory of the thread : a
packet whose connection was synchronised leaves it at 1. The next aging event without the
master role transmits that frame (`syncRole_fails`).

The claim holds of the runs in which every aging event without the master role starts with
no buffer counted (`syncRole_run`).
-/

namespace Alvs

open ProgLogic LProg

/-- Paths with any results. -/
abbrev roleSpec : Spec DpCall DpCall.Res SyncWatch :=
  Prog.watchSpec SyncWatch.next fun _ => True

variable {α : Type}

/-! ## Packets -/

/-- A sync frame was started, and transmitted, only after the master bit was found. -/
structure SyncWatch.Privileged (w : SyncWatch) : Prop where
  frame : w.frame ≠ none → w.master = true
  sent : ∀ s ∈ w.sent, s.1 ≠ none → s.2 = true

/-- A call that does not start a sync frame. -/
def DpCall.StartsNoFrame : DpCall → Prop
  | frameNew _ _ _ => False
  | _ => True

namespace SyncWatch

/-- Passing a connection changes only what is pending or passed. -/
theorem same_pass (w : SyncWatch) (c : ConnInfoResult) :
    (w.pass c).master = w.master ∧ (w.pass c).frame = w.frame ∧ (w.pass c).sent = w.sent := by
  unfold pass
  split <;> exact ⟨rfl, rfl, rfl⟩

theorem same_lookup (w : SyncWatch) (info : Option ServerInfoResult) :
    (w.lookup info).master = w.master ∧ (w.lookup info).frame = w.frame ∧
      (w.lookup info).sent = w.sent := by
  unfold lookup
  split <;> exact ⟨rfl, rfl, rfl⟩

theorem Privileged.of_same {w w' : SyncWatch} (h : w.Privileged)
    (hw : w'.master = w.master ∧ w'.frame = w.frame ∧ w'.sent = w.sent) : w'.Privileged := by
  obtain ⟨hm, hf, hs⟩ := hw
  exact ⟨by rw [hm, hf]; exact h.frame, by rw [hs]; exact h.sent⟩

theorem Privileged.next {w : SyncWatch} (h : w.Privileged) {op : DpCall}
    (hop : op.StartsNoFrame ∨ w.master = true) (r : op.Res) : (w.next ⟨op, r⟩).Privileged := by
  obtain ⟨hframe, hsent⟩ := h
  unfold SyncWatch.next
  split
  case h_1 => split <;> exact ⟨by simp_all, hsent⟩
  case h_2 =>
    split
    · exact Privileged.of_same ⟨hframe, hsent⟩ (same_pass _ _)
    · exact ⟨hframe, hsent⟩
  case h_3 => exact Privileged.of_same ⟨hframe, hsent⟩ (same_lookup _ _)
  case h_4 heq =>
    obtain rfl := (Sigma.mk.inj heq).1
    exact ⟨fun _ => hop.resolve_left id, hsent⟩
  case h_5 | h_9 => exact ⟨by simpa using hframe, hsent⟩
  case h_12 =>
    refine ⟨hframe, fun s hs => ?_⟩
    rcases List.mem_append.mp hs with hs | hs
    · exact hsent s hs
    · obtain rfl := List.mem_singleton.mp hs
      exact hframe
  all_goals exact ⟨hframe, hsent⟩

/-- A job does not forget that it has found the master bit. -/
theorem master_next {w : SyncWatch} (h : w.master = true) (ev : DpEvent) :
    (w.next ev).master = true := by
  unfold next
  split
  case h_1 => split <;> first | rfl | exact h
  case h_2 =>
    rw [if_pos h]
    exact (same_pass _ _).1.trans h
  case h_3 => exact (same_lookup _ _).1.trans h
  all_goals exact h

end SyncWatch

/-- The program transmits a sync frame only after the master bit was found. -/
abbrev KeepsRole (x : Dp α) : Prop :=
  Triple roleSpec SyncWatch.Privileged x SyncWatch.Privileged

theorem keepsRole_of_makes {R : Cmem → Cmem → Prop} {x : Dp α}
    (h : x.Makes DpCall.StartsNoFrame R) : KeepsRole x :=
  .of_only (fun _ _ hw hop => ⟨trivial, fun r _ hr => hr.1 ▸ hw.next (.inl hop) r⟩) h

theorem keepsRole_call {op : DpCall} (hop : op.StartsNoFrame) : KeepsRole (dpCall op) :=
  .of_call fun _ hw => ⟨trivial, fun r _ hr => hr.1 ▸ hw.next (.inl hop) r⟩

theorem KeepsFrame.keepsRole {x : Dp α} (h : KeepsFrame x) : KeepsRole x :=
  keepsRole_of_makes (h.mono (fun op hop => by cases op <;> first | exact hop.elim | trivial)
    fun _ _ h => h)

theorem keepsRole_discardAndStats (e : AlvsErrorStats) : KeepsRole (alvsDiscardAndStats e) :=
  .bind (keepsRole_call trivial) fun _ => keepsRole_call trivial

theorem keepsRole_drop {β : Type} (e : AlvsErrorStats) (b : β) :
    KeepsRole (alvsDiscardAndStats e >>= fun _ => pure b) :=
  .bind (keepsRole_discardAndStats e) fun _ => .of_pure _

theorem keepsRole_nwHostDoRoute : KeepsRole nwHostDoRoute := by
  refine Triple.bind (keepsRole_call trivial) fun r => ?_
  split
  all_goals exact keepsRole_call trivial

theorem keepsRole_nwSendFrameToNetwork (id : UInt32) : KeepsRole (nwSendFrameToNetwork id) :=
  .bind (keepsRole_call trivial) fun _ => .bind (keepsFrame_nwInterfaceLookup _).keepsRole fun _ =>
    .ite (.get_bind fun _ => keepsRole_call trivial) (keepsRole_discardAndStats _)

theorem keepsRole_nwDoRoute (destIp : UInt32) : KeepsRole (nwDoRoute destIp) := by
  refine .bind (keepsFrame_nwFibProcessing destIp).keepsRole fun _ =>
    .ite (keepsRole_call trivial) (.bind (keepsRole_call trivial) fun r => ?_)
  split
  · exact .bind (keepsRole_call trivial) fun _ => keepsRole_nwSendFrameToNetwork _
  · exact .bind (keepsRole_call trivial) fun _ => keepsRole_call trivial

theorem keepsRole_sendToHost (c : NwIfStats) : KeepsRole (alvsSendToHost c) :=
  .bind (keepsRole_call trivial) fun _ => keepsRole_nwHostDoRoute

/-- The frame of a connection is sent under the master bit that was found just before. -/
theorem keepsRole_connSendSync : KeepsRole alvsConnSendSync := by
  refine .get_bind fun m => .ite ?_ (.of_pure _)
  intro l w hw
  rw [wp_bind, wp_call]
  refine ⟨trivial, ?_⟩
  have hpriv : ∀ app : Option AppInfoResult, (w.next ⟨.appInfoLookup, app⟩).Privileged :=
    fun app => hw.next (.inl (show DpCall.appInfoLookup.StartsNoFrame from trivial)) app
  rintro (_ | app) w' ⟨rfl, -⟩
  · exact hpriv none
  · refine (wp_ite _ _ _ _).mpr ⟨fun hbit => ?_, fun _ => hpriv _⟩
    -- the master bit is not forgotten, so every call keeps the invariant from here on
    have hmaster : (w.next ⟨.appInfoLookup, some app⟩).master = true := by
      simp [SyncWatch.next, hbit]
    have hkeep : Triple roleSpec (fun w => w.Privileged ∧ w.master = true)
        (alvsStateSyncSendSingle app.sourceIp app.mSyncId)
        (fun w => w.Privileged ∧ w.master = true) := by
      refine .of_invariant (fun w op hw => ⟨trivial, ?_⟩) _
      rintro r _ ⟨rfl, -⟩
      exact ⟨hw.1.next (.inr hw.2) r, SyncWatch.master_next hw.2 _⟩
    exact wp_mono (hkeep l _ ⟨hpriv _, hmaster⟩) fun _ _ _ h => h.1

theorem keepsRole_connDoRoute : KeepsRole alvsConnDoRoute :=
  .get_bind fun _ => .ite (.bind (keepsRole_nwDoRoute _) fun _ => .bind
    (.get_bind fun _ => .bind (keepsRole_call trivial) fun _ => keepsRole_call trivial)
    fun _ => keepsRole_connSendSync) (keepsRole_discardAndStats _)

theorem keepsRole_connCheckServer (i : UInt32) : KeepsRole (alvsConnCheckServer i) :=
  .get_bind fun _ => .ite (.bind (keepsFrame_serverInfoLookup _).keepsRole fun _ => .ite
    (.get_bind fun _ => .ite (.of_pure _) (.bind (keepsFrame_connMarkToDelete _ _).keepsRole
      fun _ => keepsRole_drop _ _)) (keepsRole_drop _ _)) (.of_pure _)

theorem keepsRole_connCheckState (tcp : TcpHdr) (i : UInt32) :
    KeepsRole (alvsConnCheckState tcp i) := by
  refine .get_bind fun _ => .ite ?_ (.ite ?_ (.ite ?_ (.of_pure _)))
  · exact .bind (keepsFrame_connMarkToDelete _ _).keepsRole fun _ => .of_pure _
  · exact .bind (keepsFrame_connUpdateState _ _).keepsRole fun _ =>
      .ite (.of_pure _) (keepsRole_drop _ _)
  · exact .bind (keepsFrame_connRefresh _).keepsRole fun _ => .ite (.of_pure _) (keepsRole_drop _ _)

theorem keepsRole_connDataPath (tcp : TcpHdr) (i : UInt32) :
    KeepsRole (alvsConnDataPath tcp i) := by
  refine .bind (keepsFrame_connInfoLookup _ _).keepsRole fun _ =>
    .ite ?_ (keepsRole_discardAndStats _)
  refine .bind (keepsFrame_connTryBind i).keepsRole fun _ =>
    .get_bind fun _ => .ite (keepsRole_discardAndStats _) ?_
  exact .bind (keepsRole_connCheckServer i) fun _ => .ite
    (.bind (keepsRole_connCheckState tcp i) fun _ => .ite keepsRole_connDoRoute (.of_pure _))
    (.of_pure _)

/-! ## New connections -/

theorem keepsRole_getServerInfo (i : UInt16) : KeepsRole (alvsSchedGetServerInfo i) := by
  refine .bind (keepsFrame_serverSchedLookup i).keepsRole fun r => ?_
  split
  · refine .get_bind fun _ => .bind (keepsFrame_serverInfoLookup _).keepsRole fun _ =>
      .ite ?_ (keepsRole_drop _ _)
    exact .bind (keepsFrame_overloadOnCreateConn _).keepsRole fun _ =>
      .ite (.of_pure _) (.of_pure _)
  · exact .of_pure _
  · exact keepsRole_drop _ _

theorem keepsRole_shFallback (i : UInt8) (hash : UInt32) :
    ∀ offsets, KeepsRole (alvsSchedShFallback i hash offsets)
  | [] => .of_pure _
  | _ :: offsets => .bind (keepsRole_getServerInfo _) fun _ =>
    .ite (keepsRole_shFallback i hash offsets) (.of_pure _)

theorem keepsRole_shScheduleConnection (i : UInt8) (sip : UInt32) (sport : UInt16) :
    KeepsRole (alvsSchedShScheduleConnection i sip sport) := by
  refine .get_bind fun _ => .bind (keepsFrame_shGetSchedulingIndex _ _).keepsRole fun _ =>
    .bind (keepsRole_getServerInfo _) fun _ =>
    .bind (.ite (keepsRole_shFallback _ _ _) (.of_pure _)) fun r => ?_
  cases r
  case success | failed => exact .of_pure _
  all_goals exact keepsRole_drop _ _

theorem keepsRole_rrLoop (i : UInt8) : ∀ retries count,
    KeepsRole (alvsSchedRrLoop i retries count)
  | 0, _ => .of_pure _
  | retries + 1, count => by
    refine .get_bind fun _ => .bind (keepsRole_getServerInfo _) fun _ => .ite ?_ (.of_pure _)
    refine .bind (keepsFrame_serviceInfoLookup _).keepsRole fun _ => .ite ?_ (keepsRole_drop _ _)
    exact .bind (.get_bind fun _ => .ite (keepsRole_drop _ _) (.of_pure _)) fun _ =>
      .ite (keepsRole_rrLoop i retries _) (.of_pure _)

theorem keepsRole_rrScheduleConnection (i : UInt8) :
    KeepsRole (alvsSchedRrScheduleConnection i) := by
  refine .get_bind fun _ => .bind (keepsRole_call trivial) fun _ =>
    .bind (keepsRole_rrLoop _ _ _) fun r => ?_
  split
  case h_2 | h_3 => exact keepsRole_drop _ _
  all_goals exact .of_pure _

theorem keepsRole_scheduleConnection (i : UInt8) (ip : IpHdr) (tcp : TcpHdr) :
    KeepsRole (alvsScheduleConnection i ip tcp) :=
  .get_bind fun _ => .ite (keepsRole_shScheduleConnection _ _ _)
    (.ite (keepsRole_rrScheduleConnection _)
      (.ite (keepsRole_rrScheduleConnection _) (keepsRole_drop _ _)))

theorem keepsRole_connCreateNewEntry (bound : Bool) (server : UInt32) (port st : UInt16)
    (flags : UInt32) (reset : Bool) :
    KeepsRole (alvsConnCreateNewEntry bound server port st flags reset) := by
  have hstats : KeepsRole (if bound then alvsConnCreateStatistics st else pure ()) := by
    refine .ite (.ite ?_ ?_) (.of_pure _)
    all_goals exact (keepsFrame_updateConnectionStatistics _ _ _).keepsRole
  refine Triple.bind (keepsRole_call trivial) fun r => ?_
  obtain _ | i := r
  · exact .bind (keepsFrame_overloadOnDeleteConn _).keepsRole fun _ => keepsRole_drop _ _
  · refine .get_bind fun _ => .bind .of_modify fun _ => .bind (keepsRole_call trivial) fun _ =>
      .bind .of_modify fun _ => .bind (keepsRole_call trivial) fun _ =>
      .ite (.bind hstats fun _ => .of_pure _) (.bind (keepsRole_call trivial) fun _ => ?_)
    exact .bind (keepsFrame_overloadOnDeleteConn _).keepsRole fun _ =>
      .bind (keepsRole_call trivial) fun _ => keepsRole_drop _ _

theorem keepsRole_tcpScheduleNewConnection (i : UInt8) (ip : IpHdr) (tcp : TcpHdr) :
    KeepsRole (alvsTcpScheduleNewConnection i ip tcp) := by
  have hlocked : KeepsRole (alvsTcpScheduleLocked i ip tcp) := by
    refine .get_bind fun _ => .bind (keepsRole_call trivial) fun r => ?_
    split
    · exact .bind .of_modify fun _ => .of_pure _
    · exact keepsRole_drop _ _
    · refine .bind (keepsRole_scheduleConnection i ip tcp) fun _ => .ite ?_ (.of_pure _)
      exact .get_bind fun _ => .bind (keepsRole_connCreateNewEntry _ _ _ _ _ _) fun _ =>
        .bind .of_modify fun _ => .of_pure _
  refine .bind (.get_bind fun _ => .ite (keepsRole_drop _ _) (.of_pure _)) fun _ =>
    .ite ?_ (.of_pure _)
  exact .bind keepsFrame_lockConnection.keepsRole fun h => .bind hlocked fun _ =>
    .bind (keepsRole_call trivial) fun _ => .of_pure _

theorem keepsRole_tcpProcessing (ip : IpHdr) (tcp : TcpHdr) :
    KeepsRole (alvsTcpProcessing ip tcp) := by
  refine .bind .of_modify fun _ => .bind (keepsRole_call trivial) fun r => ?_
  split
  · exact keepsRole_connDataPath _ _
  · refine Triple.bind (keepsRole_call trivial) fun r => ?_
    split
    · refine .bind (.bind (keepsFrame_serviceInfoLookup _).keepsRole fun _ =>
        .ite (.ite (keepsRole_tcpScheduleNewConnection _ ip tcp) (keepsRole_drop _ _))
          (keepsRole_drop _ _)) fun r => ?_
      cases r with
      | success => exact keepsRole_connDoRoute
      | retry => exact .get_bind fun _ => keepsRole_connDataPath _ _
      | ignore => exact .of_pure _
    · exact .bind (keepsRole_call trivial) fun _ => keepsRole_nwHostDoRoute

/-! ## Sync messages -/

theorem keepsRole_stateSyncCreateConn (conn : StateSyncConn) (h : UInt32) :
    KeepsRole (alvsStateSyncCreateConn conn h) := by
  have hcreate (bound : Bool) (server : UInt32) (port : UInt16) : KeepsRole
      (alvsConnCreateNewEntry bound server port conn.state conn.backupFlags false >>= fun res =>
        alvsUnlockConnection h >>= fun _ => pure (if res = .ignore then -1 else 0 : Int)) :=
    .bind (keepsRole_connCreateNewEntry _ _ _ _ _ _) fun _ =>
      .bind (keepsRole_call trivial) fun _ => .of_pure _
  refine Triple.bind (keepsRole_call trivial) fun r => ?_
  obtain _ | server := r
  · exact hcreate _ _ _
  · exact .bind (keepsFrame_serverInfoLookup server).keepsRole fun _ =>
      .ite (hcreate _ _ _) (.bind (keepsRole_call trivial) fun _ => .of_pure _)

theorem keepsRole_stateSyncProcessConn (conn : StateSyncConn) :
    KeepsRole (alvsStateSyncProcessConn conn) := by
  have hexit (h : UInt32) (rc : Int) : KeepsRole (alvsUnlockConnection h >>= fun _ => pure rc) :=
    .bind (keepsRole_call trivial) fun _ => .of_pure _
  have hexisting (i h : UInt32) : KeepsRole (alvsStateSyncExistingConn conn i h) := by
    refine .bind (keepsFrame_connInfoLookup _ _).keepsRole fun _ => .ite ?_ (hexit h _)
    refine .get_bind fun _ => .bind (.ite (keepsFrame_serverInfoLookup _).keepsRole (.of_pure _))
      fun _ => .ite (.get_bind fun _ => Triple.ite (.ite ?_ (hexit h _)) ?_) (hexit h _)
    · exact .bind (keepsFrame_connDeleteWithoutLock _ _).keepsRole fun _ =>
        keepsRole_stateSyncCreateConn conn h
    · exact .get_bind fun _ => .bind (keepsFrame_stateSyncUpdateStatistics _ _).keepsRole fun _ =>
        .bind (keepsFrame_stateSyncBindConn _ _).keepsRole fun _ =>
        .bind (keepsFrame_connInfoModify _ _).keepsRole fun _ => hexit h _
  refine .ite (.of_pure _) (.ite (.of_pure _) (.ite (.of_pure _) ?_))
  refine .bind .of_modify fun _ => .bind keepsFrame_lockConnection.keepsRole fun h =>
    .bind (keepsRole_call trivial) fun r => ?_
  split
  · exact hexisting _ h
  · exact keepsRole_stateSyncCreateConn conn h

theorem keepsRole_stateSyncProcessConns : ∀ n conns,
    KeepsRole (alvsStateSyncProcessConns n conns)
  | 0, _ => keepsRole_call trivial
  | _ + 1, [] => keepsRole_discardAndStats _
  | n + 1, conn :: conns => .bind (keepsRole_stateSyncProcessConn conn) fun _ =>
    .ite (keepsRole_discardAndStats _) (keepsRole_stateSyncProcessConns n conns)

theorem keepsRole_stateSyncBackup (message : SyncMessage) :
    KeepsRole (alvsStateSyncBackup message) := by
  refine Triple.bind (keepsRole_call trivial) fun app => ?_
  split
  · exact keepsRole_discardAndStats _
  · refine .ite (keepsRole_discardAndStats _) ?_
    split
    · exact keepsRole_discardAndStats _
    · exact .ite (keepsRole_discardAndStats _)
        (.ite (keepsRole_stateSyncProcessConns _ _) (keepsRole_discardAndStats _))

theorem keepsRole_packetProcessing (f : Frame) : KeepsRole (packetProcessing (.frame f)) := by
  refine .bind .of_modify fun _ => .bind .of_modify fun _ => ?_
  split
  · exact .ite (keepsRole_tcpProcessing _ _) (keepsRole_sendToHost _)
  · exact .ite (keepsRole_sendToHost _)
      (.ite (keepsRole_stateSyncBackup _) (keepsRole_sendToHost _))
  · exact keepsRole_sendToHost _

/-! ## Aging events of a master -/

/-- The job is an aging event of a master. It has transmitted only records of connections
that were passed, in frames that are measured. -/
structure SyncWatch.Faithful (w : SyncWatch) : Prop where
  master : w.master = true
  settled : w.Settled
  frame : ∀ f ∈ w.frame, ∀ r ∈ f.conns, r ∈ w.passed
  sent : ∀ s ∈ w.sent, s.2 = true ∧ ∃ f, s.1 = some f ∧ ∀ r ∈ f.conns, r ∈ w.passed
  given : ∀ f ∈ w.given, f.Measured ∧ ∀ r ∈ f.conns, r ∈ w.passed

/-- There is a frame to send, and the records `conns` were passed. -/
structure SyncWatch.Carries (conns : List StateSyncConn) (w : SyncWatch) : Prop extends
    w.Faithful where
  carried : ∃ f, w.frame = some f ∧ f.Measured
  conns : ∀ r ∈ conns, r ∈ w.passed

/-- A call that is made to send a frame. -/
def DpCall.Ships : DpCall → Prop
  | hashDestMac | interfaceLookup _ | frameSendToIf _ | addPostedCtr _ _ | frameFree => True
  | _ => False

instance : Std.Refl Cmem.SameRecord := ⟨fun _ => ⟨rfl, rfl⟩⟩

instance : IsTrans Cmem Cmem.SameRecord :=
  ⟨fun _ _ _ h h' => ⟨h'.sync.trans h.sync, h'.record.trans h.record⟩⟩

/-- The program sends a frame. -/
abbrev Ships (x : Dp α) : Prop := x.Makes DpCall.Ships Cmem.SameRecord

section Master

variable {l : Cmem} {w : SyncWatch} {conns : List StateSyncConn} {ip : UInt32} {id : UInt8}
  {done : List SyncBuffer}

theorem SyncWatch.Carries.next (h : w.Carries conns) {op : DpCall} (hop : op.Ships)
    (r : op.Res) : (w.next ⟨op, r⟩).Carries conns := by
  obtain ⟨f, hf, hmeasured⟩ := h.carried
  cases op
  case hashDestMac =>
    have hnext : w.next ⟨.hashDestMac, r⟩ = { w with given := w.given ++ [f] } := by
      simp [SyncWatch.next, hf]
    rw [hnext]
    refine ⟨⟨h.master, h.settled, h.frame, h.sent, fun f' hf' => ?_⟩, h.carried, h.conns⟩
    rcases List.mem_append.mp hf' with hf' | hf'
    · exact h.given f' hf'
    · obtain rfl := List.mem_singleton.mp hf'
      exact ⟨hmeasured, h.frame f' hf⟩
  case interfaceLookup =>
    cases r <;> exact ⟨⟨h.master, h.settled, h.frame, h.sent, h.given⟩, h.carried, h.conns⟩
  case frameSendToIf =>
    refine ⟨⟨h.master, h.settled, h.frame, fun s hs => ?_, h.given⟩, h.carried, h.conns⟩
    rcases List.mem_append.mp hs with hs | hs
    · exact h.sent s hs
    · obtain rfl := List.mem_singleton.mp hs
      exact ⟨h.master, f, hf, h.frame f hf⟩
  case addPostedCtr | frameFree => exact h
  all_goals exact hop.elim

theorem Ships.carries {x : Dp α} (hx : Ships x) (h : w.Carries conns) :
    x.wp roleSpec (fun _ l' w' => l.SameRecord l' ∧ w'.Carries conns) l w :=
  hx.wp_keeps (fun _ _ hw hop => ⟨trivial, fun r _ hr => hr.1 ▸ hw.next hop r⟩) l h

theorem ships_interfaceLookup (id : UInt32) : Ships (nwInterfaceLookup id) := by
  refine .bind (.of_call trivial) fun r => ?_
  split
  · exact .of_pure _
  · exact .bind (.of_modify fun _ => ⟨rfl, rfl⟩) fun _ => .of_pure _

theorem ships_sendFrameToNetwork (id : UInt32) : Ships (nwSendFrameToNetwork id) :=
  .bind (.of_call trivial) fun _ => .bind (ships_interfaceLookup _) fun _ =>
    .ite (.get_bind fun _ => .of_call trivial)
      (.bind (.of_call trivial) fun _ => .of_call trivial)

/-- The records of the buffer that the thread fills were passed, and what it counts of its
buffers, bytes and records is right. -/
structure Fills (st : ConnSyncState) (w : SyncWatch) : Prop extends w.Faithful where
  conns : ∀ r ∈ st.conns, r ∈ w.passed
  filling : st.amountBuffers ≠ 0 → ∃ ip id done, Filling ⟨ip, id, 1⟩ st w.frame done

/-- The memory after the current buffer could not be added to the frame. -/
def Cmem.bufferLost (l : Cmem) : Cmem :=
  { l with connSyncState :=
    { l.connSyncState with amountBuffers := 0, connCount := 0, currentLen := 0, conns := [] } }

theorem Fills.bufferLost (hw : w.Faithful) : Fills l.bufferLost.connSyncState w :=
  ⟨hw, nofun, fun h => absurd rfl h⟩

/-- The records of the frame that is being filled were passed. -/
theorem Fills.passed (h : Fills l.connSyncState w)
    (hf : Filling ⟨ip, id, 1⟩ l.connSyncState w.frame done) :
    ∀ r ∈ done.flatMap (·.conns) ++ l.connSyncState.conns, r ∈ w.passed := by
  intro r hr
  rcases List.mem_append.mp hr with hr | hr
  · have hne : done ≠ [] := fun hnil => by simp [hnil] at hr
    exact h.frame _ (hf.frame hne) r hr
  · exact h.conns r hr

theorem fills_addBuffer (h : Fills l.connSyncState w)
    (hf : Filling ⟨ip, id, 1⟩ l.connSyncState w.frame done) :
    alvsStateSyncAddBuffer.wp roleSpec (fun added l' w' =>
      l' = (if added then l.bufferAdded else l.bufferLost) ∧ w'.Faithful ∧
      w'.passed = w.passed ∧ (added = true →
        w'.frame = some ⟨⟨ip, id, 1⟩, none, done ++ [l.connSyncState.buffer done]⟩)) l w := by
  have hassert : ∀ b : Bool, (w.next ⟨.assertion b, ()⟩).Faithful ∧
      (w.next ⟨.assertion b, ()⟩).frame = w.frame ∧
      (w.next ⟨.assertion b, ()⟩).passed = w.passed := by
    rintro (_ | _) <;> exact ⟨⟨h.master, h.settled, h.frame, h.sent, h.given⟩, rfl, rfl⟩
  simp only [alvsStateSyncAddBuffer, wp_bind, wp_get, wp_call]
  refine ⟨trivial, ?_⟩
  rintro _ w₁ ⟨rfl, -⟩
  have hpassed := h.passed hf
  have hframe := hf.frame
  obtain ⟨hw₁, hframe₁, hpassed₁⟩ := hassert (decide (0 < l.connSyncState.amountBuffers ∧
      l.connSyncState.amountBuffers ≤ alvsStateSyncBuffersLimit))
  generalize w.next _ = w₁ at hw₁ hframe₁ hpassed₁
  rw [← hpassed₁] at hpassed ⊢
  rw [← hframe₁] at hframe
  by_cases hdone : done = []
  · rw [if_pos (hf.amount_eq_one.mpr hdone), wp_call]
    refine ⟨trivial, ?_⟩
    rintro (_ | _) w' ⟨rfl, -⟩
    · exact ⟨rfl, ⟨hw₁.master, hw₁.settled, hw₁.frame, hw₁.sent, hw₁.given⟩, rfl, by simp⟩
    · refine ⟨rfl, ⟨hw₁.master, hw₁.settled, ?_, hw₁.sent, hw₁.given⟩, rfl, fun _ => ?_⟩
      · rintro _ ⟨⟩ r hr
        exact hpassed r (List.mem_append_right _ (by simpa [SyncFrame.conns] using hr))
      · rw [hdone, hf.headers]
        rfl
  · have hone : ¬ l.connSyncState.amountBuffers = 1 := fun h1 => hdone (hf.amount_eq_one.mp h1)
    rw [if_neg hone]
    simp only [alvsStateSyncAppendBuf, wp_bind, wp_call]
    refine ⟨trivial, ?_⟩
    rintro (_ | _) w' ⟨rfl, -⟩
    · refine ⟨trivial, ?_⟩
      rintro _ w' ⟨rfl, -⟩
      exact ⟨rfl, ⟨hw₁.master, hw₁.settled, hw₁.frame, hw₁.sent, hw₁.given⟩, rfl, by simp⟩
    · have hnext : w₁.next ⟨.frameAppendBuf l.connSyncState.conns
          l.connSyncState.currentLen.toUInt32, true⟩ = { w₁ with
            frame := some ⟨⟨ip, id, 1⟩, none, done ++ [l.connSyncState.buffer done]⟩ } := by
        simp only [SyncWatch.next, hframe hdone, Option.map_some, SyncFrame.append,
          ConnSyncState.buffer, if_neg hdone]
      rw [hnext]
      refine ⟨rfl, ⟨hw₁.master, hw₁.settled, ?_, hw₁.sent, hw₁.given⟩, rfl, fun _ => rfl⟩
      rintro _ ⟨⟩ r hr
      exact hpassed r (by simpa [SyncFrame.conns, ConnSyncState.buffer] using hr)

/-- Sending the frame transmits only records that were passed. -/
theorem fills_sendAggr (h : Fills l.connSyncState w) (h0 : l.connSyncState.amountBuffers ≠ 0) :
    alvsStateSyncSendAggr.wp roleSpec (fun _ l' w' =>
      alvsStateSyncSetSyncConn l' = alvsStateSyncSetSyncConn l ∧
      l'.connSyncState.connSyncStatus = l.connSyncState.connSyncStatus ∧ w'.Faithful ∧
      ∀ r ∈ w.passed, r ∈ w'.passed) l w := by
  obtain ⟨ip, id, done, hf⟩ := h.filling h0
  rw [alvsStateSyncSendAggr, wp_bind, wp_get, if_pos h0, wp_bind, if_pos hf.len_pos]
  refine wp_mono (fills_addBuffer h hf) ?_
  rintro (_ | _) l' w' ⟨rfl, hw', hpassed, hframe⟩
  · exact ⟨rfl, rfl, hw', fun r hr => hpassed ▸ hr⟩
  have hfull : ∀ r ∈ (l.connSyncState.fullFrame ⟨ip, id, 1⟩ done).conns, r ∈ w'.passed := by
    rw [fullFrame_conns, hpassed]
    exact h.passed hf
  have hsend : ∀ w'' : SyncWatch, w''.Faithful → w''.passed = w'.passed →
      w''.frame = some (l.connSyncState.fullFrame ⟨ip, id, 1⟩ done) →
      (nwSendFrameToNetwork userBaseLogicalId).wp roleSpec (fun _ l' w' =>
        alvsStateSyncSetSyncConn l' = alvsStateSyncSetSyncConn l ∧
        l'.connSyncState.connSyncStatus = l.connSyncState.connSyncStatus ∧ w'.Faithful ∧
        ∀ r ∈ w.passed, r ∈ w'.passed) l.bufferAdded w'' := by
    intro w'' hw'' hpassed'' hframe''
    have hcarries : w''.Carries w.passed := ⟨hw'', ⟨_, hframe'', hf.good.toMeasured⟩, fun r hr => by
      rw [hpassed'', hpassed]
      exact hr⟩
    refine wp_mono ((ships_sendFrameToNetwork _).carries hcarries) fun _ l' w' hpost =>
      ⟨hpost.1.record, ?_, hpost.2.toFaithful, hpost.2.conns⟩
    rw [hpost.1.sync]
    rfl
  simp only [if_true, wp_bind, wp_get]
  rw [if_pos hf.one_lt_bufferAdded]
  simp only [wp_bind, wp_call]
  refine ⟨trivial, ?_⟩
  rintro (_ | _) w₂ ⟨hw₂, -⟩
  · refine ⟨trivial, ?_⟩
    rintro _ w₃ ⟨rfl, -⟩
    rw [hw₂]
    exact ⟨rfl, rfl, ⟨hw'.master, hw'.settled, hw'.frame, hw'.sent, hw'.given⟩,
      fun r hr => hpassed ▸ hr⟩
  · obtain rfl : w₂ = w' := hw₂
    simp only [if_true, alvsStateSyncSendFirstBuf, wp_bind, wp_get]
    by_cases hcount : 1 < l.connSyncState.connCount
    · rw [if_pos (show 1 < l.bufferAdded.connSyncState.connCount from hcount), wp_call]
      refine ⟨trivial, ?_⟩
      rintro _ w₃ ⟨rfl, -⟩
      have hstored : w₂.frame.map (·.storeHeaders l.connSyncState.connCount) =
          some (l.connSyncState.fullFrame ⟨ip, id, 1⟩ done) := by
        rw [hframe rfl, ConnSyncState.fullFrame, if_pos hcount]
        rfl
      refine hsend _ ⟨hw'.master, hw'.settled, ?_, hw'.sent, hw'.given⟩ rfl hstored
      change ∀ f ∈ w₂.frame.map (·.storeHeaders l.connSyncState.connCount), _
      rw [hstored]
      rintro _ ⟨⟩
      exact hfull
    · rw [if_neg (show ¬ 1 < l.bufferAdded.connSyncState.connCount from hcount), wp_pure]
      refine hsend _ hw' rfl ((hframe rfl).trans ?_)
      rw [ConnSyncState.fullFrame, if_neg hcount]

theorem fills_newFrame (hw : w.Faithful) (hrec : alvsStateSyncSetSyncConn l ∈ w.passed)
    (ip : UInt32) (id : UInt8) :
    (alvsStateSyncNewFrame ip id).wp roleSpec (fun _ l' w' =>
      l'.connSyncState.connSyncStatus = l.connSyncState.connSyncStatus ∧
      Fills l'.connSyncState w') l w := by
  have heth : alvsStateSyncSetEthHdr.wp roleSpec (fun _ l' w' => l.SameRecord l' ∧
      w'.Faithful ∧ w'.passed = w.passed) l w := by
    simp only [alvsStateSyncSetEthHdr, nwInterfaceLookup, discard, Functor.discard]
    refine ⟨trivial, ?_⟩
    rintro (_ | _) w' ⟨rfl, -⟩
    all_goals exact ⟨⟨rfl, rfl⟩, ⟨hw.master, hw.settled, hw.frame, hw.sent, hw.given⟩, rfl⟩
  simp only [alvsStateSyncNewFrame, alvsStateSyncFirst, wp_bind]
  refine wp_mono heth ?_
  rintro _ l' w' ⟨hl, hw', hpassed⟩
  rw [wp_modify, wp_modify]
  refine ⟨congrArg (·.connSyncStatus) hl.sync, ⟨hw', fun r hr => ?_, fun _ =>
    ⟨ip, id, [], filling_frameStarted (l := l') w'.frame⟩⟩⟩
  rw [List.mem_singleton.mp hr, hpassed, hl.record]
  exact hrec

theorem fills_addConn (hw : w.Faithful) (hconns : ∀ r ∈ l.connSyncState.conns, r ∈ w.passed)
    (hf : Room ⟨ip, id, 1⟩ l.connSyncState w.frame done)
    (hrec : alvsStateSyncSetSyncConn l ∈ w.passed)
    (hfit : l.connSyncState.currentLen.toNat + 36 ≤ ezframeBufDataSize) :
    alvsStateSyncAddConn.wp roleSpec (fun _ l' w' =>
      l'.connSyncState.connSyncStatus = l.connSyncState.connSyncStatus ∧
      Fills l'.connSyncState w') l w := by
  rw [alvsStateSyncAddConn, wp_modify]
  refine ⟨rfl, ⟨hw, fun r hr => ?_, fun _ => ⟨ip, id, done, hf.connAdded hfit⟩⟩⟩
  rcases List.mem_append.mp hr with hr | hr
  · exact hconns r hr
  · rwa [List.mem_singleton.mp hr]

theorem fills_aggrConn (h : Fills l.connSyncState w)
    (hrec : alvsStateSyncSetSyncConn l ∈ w.passed) (ip : UInt32) (id : UInt8) :
    (alvsStateSyncAggrConn ip id).wp roleSpec (fun _ l' w' =>
      l'.connSyncState.connSyncStatus = l.connSyncState.connSyncStatus ∧
      Fills l'.connSyncState w') l w := by
  rw [alvsStateSyncAggrConn, wp_bind, wp_get]
  by_cases h0 : l.connSyncState.amountBuffers = 0
  · rw [if_pos h0]
    exact fills_newFrame h.toFaithful hrec ip id
  obtain ⟨ip', id', done, hf⟩ := h.filling h0
  rw [if_neg h0]
  by_cases hfull : ezframeBufDataSize <
      l.connSyncState.currentLen.toNat + sizeofStateSyncConn.toNat
  · rw [if_pos hfull]
    by_cases hlimit : l.connSyncState.amountBuffers = alvsStateSyncBuffersLimit
    · rw [if_pos hlimit]
      refine wp_bind_of (fills_sendAggr h h0) ?_
      rintro _ l' w' ⟨hsame, hst, hw', hpassed⟩
      rw [← hst]
      exact fills_newFrame hw' (hsame ▸ hpassed _ hrec) ip id
    · rw [if_neg hlimit]
      refine wp_bind_of (fills_addBuffer h hf) ?_
      rintro (_ | _) l' w' ⟨rfl, hw', hpassed, hframe⟩
      · exact ⟨rfl, .bufferLost hw'⟩
      · exact fills_addConn hw' (fun _ hr => absurd hr List.not_mem_nil)
          (hf.bufferAdded hfull hlimit (hframe rfl)) (hpassed ▸ hrec) (Nat.le_of_ble_eq_true rfl)
  · rw [if_neg hfull]
    exact fills_addConn h.toFaithful h.conns hf.toRoom hrec (Nat.not_lt.mp hfull)

theorem Fills.pass (h : Fills l.connSyncState w) (rec : StateSyncConn) :
    Fills l.connSyncState { w with pending := none, passed := w.passed ++ [rec] } := by
  have hmore : ∀ conns : List StateSyncConn, (∀ r ∈ conns, r ∈ w.passed) →
      ∀ r ∈ conns, r ∈ w.passed ++ [rec] := fun _ hc r hr => List.mem_append_left _ (hc r hr)
  refine ⟨⟨h.master, rfl, fun f hf => hmore _ (h.frame f hf), fun s hs => ?_,
    fun f hf => ⟨(h.given f hf).1, hmore _ (h.given f hf).2⟩⟩, hmore _ h.conns, h.filling⟩
  obtain ⟨hm, f, hf, hr⟩ := h.sent s hs
  exact ⟨hm, f, hf, hmore _ hr⟩

/-- The job is an aging event of a master that has transmitted and packed only records of
connections that were passed. -/
def Aggregates (l : Cmem) (w : SyncWatch) : Prop :=
  l.connSyncState.connSyncStatus = .need ∧ Fills l.connSyncState w

theorem aggregates_aggr (h : Aggregates l w) (ip : UInt32) (id : UInt8) :
    (alvsStateSyncAggr ip id).wp roleSpec (fun _ l' w' => Aggregates l' w') l
      (w.pass l.connInfoResult) := by
  have hconn : ∀ (m : Cmem) (rec : StateSyncConn), m.connSyncState = l.connSyncState →
      alvsStateSyncSetSyncConn m = rec →
      (alvsStateSyncAggrConn ip id).wp roleSpec (fun _ l' w' => Aggregates l' w') m
        { w with pending := none, passed := w.passed ++ [rec] } := by
    rintro m _ hm rfl
    have hpass := h.2.pass (alvsStateSyncSetSyncConn m)
    rw [← hm] at hpass
    refine wp_mono (fills_aggrConn hpass ?_ ip id) fun _ l' w' hpost => ⟨?_, hpost.2⟩
    · exact List.mem_append_right _ List.mem_cons_self
    · rw [hpost.1, hm, h.1]
  rw [alvsStateSyncAggr_eq, wp_bind, wp_get, wp_bind]
  by_cases hbound : l.connInfoResult.bound = true
  · rw [if_pos hbound]
    simp only [alvsServerInfoLookup, wp_bind, wp_call, SyncWatch.pass, if_pos hbound]
    refine ⟨trivial, ?_⟩
    rintro (_ | info) w' ⟨rfl, -⟩
    · exact ⟨h.1, ⟨⟨h.2.master, rfl, h.2.frame, h.2.sent, h.2.given⟩, h.2.conns, h.2.filling⟩⟩
    · exact hconn { l with serverInfoResult := info } (l.connInfoResult.syncRecord info) rfl rfl
  · rw [if_neg hbound, wp_pure, SyncWatch.pass, if_neg hbound]
    refine hconn l _ rfl ?_
    rw [setSyncConn_eq_syncRecord]
    exact syncRecord_of_unbound (by simpa using hbound) _ _

theorem Aggregates.of_sync (h : Aggregates l w) {l' : Cmem}
    (hl : l'.connSyncState = l.connSyncState) : Aggregates l' w := by
  rw [Aggregates, hl]
  exact h

theorem KeepsSync.aggregates {x : Dp α} (hx : KeepsSync x) (h : Aggregates l w) :
    x.wp roleSpec (fun _ l' w' => Aggregates l' w') l w :=
  wp_mono (hx.wp_on silentOn_keepsSync l h.2.settled) fun _ _ _ hpost =>
    hpost.2 ▸ h.of_sync hpost.1

theorem aggregates_scanEntry (h : Aggregates l w) (iter : UInt8) (ip : UInt32) (id : UInt8)
    (i : UInt32) :
    (alvsAgingScanEntry iter ip id i).wp roleSpec (fun _ l' w' => Aggregates l' w') l w := by
  rw [alvsAgingScanEntry]
  refine wp_bind_of ((keepsSync_connInfoLookup .scan i).aggregates h) fun found l₁ w₁ h₁ => ?_
  refine (wp_ite _ _ _ _).mpr ⟨fun _ => ?_, fun _ => h₁⟩
  rw [wp_bind, wp_get]
  refine (wp_ite _ _ _ _).mpr ⟨fun _ => (keepsSync_agingDelete iter i).aggregates h₁, fun _ => ?_⟩
  refine (wp_ite _ _ _ _).mpr ⟨fun _ => ?_, fun _ => ?_⟩
  · rw [wp_bind, wp_modify]
    refine wp_bind_of (wp_ageOut h₁.2.master i iter) ?_
    rintro (_ | _) l₂ w₂ ⟨hl₂, rfl⟩
    · exact h₁.of_sync hl₂
    · have h₂ : Aggregates l₂ w₁ := h₁.of_sync hl₂
      rw [if_pos rfl, wp_bind, wp_get, if_pos h₂.1]
      exact aggregates_aggr h₂ ip id
  · exact (wp_ite _ _ _ _).mpr ⟨fun _ => (keepsSync_agingDelete iter i).aggregates h₁, fun _ => h₁⟩

theorem aggregates_scan (iter : UInt8) (ip : UInt32) (id : UInt8) : ∀ (n : Nat) (i : UInt32)
    {l : Cmem} {w : SyncWatch}, Aggregates l w →
    (alvsAgingScan iter ip id n i).wp roleSpec (fun _ l' w' => Aggregates l' w') l w
  | 0, _, _, _, h => h
  | n + 1, i, _, _, h => wp_bind_of (aggregates_scanEntry h iter ip id i) fun _ _ _ h' =>
    aggregates_scan iter ip id n _ h'

end Master

/-! ## Aging events without the master role -/

/-- A call that does not transmit a frame. -/
def DpCall.SendsNothing : DpCall → Prop
  | frameSendToIf _ => False
  | _ => True

theorem sent_next {w : SyncWatch} {op : DpCall} (hop : op.SendsNothing) (r : op.Res) :
    (w.next ⟨op, r⟩).sent = w.sent := by
  unfold SyncWatch.next
  split
  case h_1 => split <;> rfl
  case h_2 =>
    split
    · exact (SyncWatch.same_pass _ _).2.2
    · rfl
  case h_3 => exact (SyncWatch.same_lookup _ _).2.2
  case h_12 heq =>
    obtain rfl := (Sigma.mk.inj heq).1
    exact hop.elim
  all_goals rfl

/-- The program transmits nothing, and leaves the state of the sync frame alone. -/
abbrev SendsNothing (x : Dp α) : Prop := x.Makes DpCall.SendsNothing Cmem.SameSync

theorem KeepsSync.sendsNothing {x : Dp α} (h : KeepsSync x) : SendsNothing x :=
  h.mono (fun op hop => by cases op <;> first | exact hop.elim | trivial) fun _ _ h => h

theorem sendsNothing_connAgeOut (i : UInt32) (iter : UInt8) :
    SendsNothing (alvsConnAgeOut i iter) := by
  refine .bind (.get_bind fun _ => .of_call trivial) fun _ =>
    .bind (keepsSync_connInfoLookup _ _).sendsNothing fun _ => .ite (.get_bind fun _ => ?_) ?_
  · exact .bind (.bind (.of_modify fun _ => rfl) fun _ => .of_call trivial) fun _ =>
      .bind (.of_call trivial) fun _ => .of_pure _
  · exact .bind (.of_call trivial) fun _ => .of_pure _

/-- The job is an aging event that has no connection to synchronise, and has transmitted
nothing. -/
def StaysSilent (st : ConnSyncState) (l : Cmem) (w : SyncWatch) : Prop :=
  l.connSyncState = st ∧ w.sent = []

section Silent

variable {st : ConnSyncState} {l : Cmem} {w : SyncWatch}

theorem SendsNothing.staysSilent {x : Dp α} (hx : SendsNothing x) (h : StaysSilent st l w) :
    x.wp roleSpec (fun _ l' w' => StaysSilent st l' w') l w :=
  wp_mono (hx.wp_keeps (I := fun w => w.sent = [])
    (fun _ _ hw hop => ⟨trivial, fun r _ hr => hr.1 ▸ (sent_next hop r).trans hw⟩) l h.2)
    fun _ _ _ hpost => ⟨hpost.1.trans h.1, hpost.2⟩

theorem staysSilent_scanEntry (hst : st.connSyncStatus ≠ .need) (h : StaysSilent st l w)
    (iter : UInt8) (ip : UInt32) (id : UInt8) (i : UInt32) :
    (alvsAgingScanEntry iter ip id i).wp roleSpec (fun _ l' w' => StaysSilent st l' w') l w := by
  have hdelete : SendsNothing (alvsAgingDelete iter i) :=
    (keepsSync_agingDelete iter i).sendsNothing
  rw [alvsAgingScanEntry]
  refine wp_bind_of ((keepsSync_connInfoLookup .scan i).sendsNothing.staysSilent h)
    fun found l₁ w₁ h₁ => ?_
  refine (wp_ite _ _ _ _).mpr ⟨fun _ => ?_, fun _ => h₁⟩
  rw [wp_bind, wp_get]
  refine (wp_ite _ _ _ _).mpr ⟨fun _ => hdelete.staysSilent h₁, fun _ => ?_⟩
  refine (wp_ite _ _ _ _).mpr ⟨fun _ => ?_, fun _ => ?_⟩
  · rw [wp_bind, wp_modify]
    have hage : StaysSilent st { l₁ with connClassKey := l₁.connInfoResult.connClassKey } w₁ := h₁
    refine wp_bind_of ((sendsNothing_connAgeOut i iter).staysSilent hage) fun aged l₂ w₂ h₂ => ?_
    refine (wp_ite _ _ _ _).mpr ⟨fun _ => ?_, fun _ => h₂⟩
    rw [wp_bind, wp_get, if_neg (by rw [h₂.1]; exact hst)]
    exact h₂
  · exact (wp_ite _ _ _ _).mpr ⟨fun _ => hdelete.staysSilent h₁, fun _ => h₁⟩

theorem staysSilent_scan (hst : st.connSyncStatus ≠ .need) (iter : UInt8) (ip : UInt32)
    (id : UInt8) : ∀ (n : Nat) (i : UInt32) {l : Cmem} {w : SyncWatch}, StaysSilent st l w →
    (alvsAgingScan iter ip id n i).wp roleSpec (fun _ l' w' => StaysSilent st l' w') l w
  | 0, _, _, _, h => h
  | n + 1, i, _, _, h => wp_bind_of (staysSilent_scanEntry hst h iter ip id i) fun _ _ _ h' =>
    staysSilent_scan hst iter ip id n _ h'

end Silent

/-! ## Runs of a thread -/

/-- What `alvs_handle_aging_event` does after its lookup of the application information. -/
def alvsHandleAgingFrom (eventId : UInt32) (app : Option AppInfoResult) : Dp Unit := do
  let eventsPerIteration := alvsAgingTimerEventsPerIteration.toUInt32
  let iterationNum := (eventId / eventsPerIteration).toUInt8
  let master := app.filter (·.masterBit)
  modify fun m =>
    { m with connSyncState :=
      if master.isSome then
        { m.connSyncState with
          connSyncStatus := .need
          connCount := 0
          amountBuffers := 0
          currentLen := 0
          conns := [] }
      else { m.connSyncState with connSyncStatus := .noNeed } }
  alvsAgingScan iterationNum ((master.map (·.sourceIp)).getD 0) ((master.map (·.mSyncId)).getD 0)
    alvsAgingTimerScanEntriesPerJob
    (eventId % eventsPerIteration * alvsAgingTimerScanEntriesPerJob.toUInt32)
  let m ← get
  (if 0 < m.connSyncState.amountBuffers then alvsStateSyncSendAggr else pure ())
  modify fun m => { m with connSyncState := { m.connSyncState with connSyncStatus := .noNeed } }

theorem alvsHandleAgingEvent_eq (eventId : UInt32) : alvsHandleAgingEvent eventId = (do
    alvsDiscardFrame
    let app ← dpCall .appInfoLookup
    alvsHandleAgingFrom eventId app) := rfl

/-- A sync frame that is transmitted in an aging event is one that the event has packed, its
master bit was found, and its records are of connections that the event has scanned. -/
def SyncWatch.RespectsRole (w : SyncWatch) : Prop :=
  ∀ s ∈ w.sent, s.2 = true ∧ ∃ f, s.1 = some f ∧ ∀ r ∈ f.conns, r ∈ w.passed

theorem isSome_filter_masterBit (app : Option AppInfoResult) :
    (app.filter (·.masterBit)).isSome = app.any (·.masterBit) := by
  cases app with
  | none => rfl
  | some a => cases ha : a.masterBit <;> simp [ha]

/-- An aging event of a master. -/
theorem faithful_agingFrom (eventId : UInt32) {app : Option AppInfoResult} (m : Cmem)
    (hbit : app.any (·.masterBit) = true) :
    (alvsHandleAgingFrom eventId app).wp roleSpec (fun _ _ w => w.Faithful) m .master₀ := by
  simp only [alvsHandleAgingFrom, wp_bind, wp_modify, wp_get, isSome_filter_masterBit,
    if_pos hbit]
  have hfaithful : SyncWatch.master₀.Faithful :=
    ⟨rfl, rfl, fun f hf => absurd hf (Option.not_mem_none f),
      fun _ hs => absurd hs List.not_mem_nil, fun _ hf => absurd hf List.not_mem_nil⟩
  have hconns : ∀ r ∈ ([] : List StateSyncConn), r ∈ SyncWatch.master₀.passed :=
    fun _ hr => absurd hr List.not_mem_nil
  refine wp_mono (aggregates_scan _ _ _ _ _ ⟨rfl, hfaithful, hconns, fun h => absurd rfl h⟩) ?_
  rintro _ l w ⟨-, h⟩
  by_cases hpos : 0 < l.connSyncState.amountBuffers
  · rw [if_pos hpos]
    refine wp_mono (fills_sendAggr h fun h0 => ?_) fun _ _ w' hpost => hpost.2.2.1
    rw [h0] at hpos
    exact absurd hpos (by decide)
  · rw [if_neg hpos]
    exact h.toFaithful

theorem next_appInfoLookup {app : Option AppInfoResult} (hbit : app.any (·.masterBit) = true) :
    SyncWatch.start.next ⟨.appInfoLookup, app⟩ = .master₀ := by
  change (if app.any (·.masterBit) = true then SyncWatch.master₀ else _) = _
  rw [if_pos hbit]

theorem wp_agingFrom (eventId : UInt32) (app : Option AppInfoResult) (m : Cmem)
    (hclean : app.any (·.masterBit) = false → m.connSyncState.amountBuffers = 0) :
    (alvsHandleAgingFrom eventId app).wp roleSpec (fun _ _ w => w.RespectsRole) m
      (SyncWatch.start.next ⟨.appInfoLookup, app⟩) := by
  by_cases hbit : app.any (·.masterBit) = true
  · rw [next_appInfoLookup hbit]
    exact wp_mono (faithful_agingFrom eventId m hbit) fun _ _ _ h => h.sent
  · have h0 := hclean (by simpa using hbit)
    have hsent : (SyncWatch.start.next ⟨.appInfoLookup, app⟩).sent = [] :=
      sent_next (show DpCall.appInfoLookup.SendsNothing from trivial) app
    simp only [alvsHandleAgingFrom, wp_bind, wp_modify, wp_get, isSome_filter_masterBit,
      if_neg hbit]
    refine wp_mono (staysSilent_scan (by simp) _ _ _ _ _ ⟨rfl, hsent⟩) ?_
    rintro _ l w ⟨hl, hw⟩
    rw [hl, h0, if_neg (by decide)]
    rw [wp_pure, SyncWatch.RespectsRole, hw]
    simp

/-- A job that a thread has received, the memory it started with, and its calls. -/
structure ThreadStep where
  job : DpJob
  before : Cmem
  calls : List DpEvent

/-- Jobs that a thread processes one after the other, each with the memory that the one
before it has left. The calls may have any results. -/
inductive ThreadRun : Cmem → List ThreadStep → Prop
  | nil (m : Cmem) : ThreadRun m []
  | cons {j : DpJob} {m m' : Cmem} {tr : List DpEvent} {steps : List ThreadStep}
      (h : ((packetProcessing j).run m).Path tr ((), m')) (hrest : ThreadRun m' steps) :
      ThreadRun m (⟨j, m, tr⟩ :: steps)

/-- A lookup of the application information that does not find the master bit. -/
def deniesMaster : DpEvent → Bool
  | ⟨.appInfoLookup, app⟩ => !app.any (·.masterBit)
  | _ => false

namespace ThreadStep

/-- The sync frames that are transmitted in a step, each with whether the lookup of the step
had found the master bit. What a packet transmits is a sync frame if it was built by the
step; an aging event has no other frame to transmit. -/
def syncFrames (s : ThreadStep) : List (Option SyncFrame × Bool) :=
  match s.job with
  | .frame _ => (syncWatch s.calls).sent.filter (·.1.isSome)
  | .timer _ => (syncWatch s.calls).sent

/-- Sync frames are transmitted only where the master bit was found, and in an aging event
all their records are of connections that the event has scanned. -/
structure RespectsRole (s : ThreadStep) : Prop where
  role : ∀ x ∈ s.syncFrames, x.2 = true
  scanned : ∀ eventId, s.job = .timer eventId → ∀ x ∈ s.syncFrames,
    ∃ f, x.1 = some f ∧ ∀ r ∈ f.conns, r ∈ (syncWatch s.calls).passed

/-- An aging event that does not find the master bit starts with no buffer counted. -/
def StartsClean (s : ThreadStep) : Prop :=
  ∀ eventId, s.job = .timer eventId → s.calls.any deniesMaster = true →
    s.before.connSyncState.amountBuffers = 0

end ThreadStep

/-- What is seen at the end of a path. -/
theorem of_roleSpec {x : Dp α} {Q : SyncWatch → Prop} {l : Cmem} {w : SyncWatch}
    (h : x.wp roleSpec (fun _ _ w' => Q w') l w) {tr : List DpEvent} {a : α × Cmem}
    (hpath : (x.run l).Path tr a) : Q (tr.foldl SyncWatch.next w) := by
  have hok : ∀ (g : SyncWatch) (ev : DpEvent), (fun _ => True) (g.next ev) →
      (fun _ : SyncWatch => True) g := fun _ _ h => h
  exact Prog.of_wp_watch hok h hpath trivial

/-- One job. -/
theorem respectsRole_of_path {j : DpJob} {m m' : Cmem} {tr : List DpEvent}
    (h : ((packetProcessing j).run m).Path tr ((), m'))
    (hclean : ThreadStep.StartsClean ⟨j, m, tr⟩) : ThreadStep.RespectsRole ⟨j, m, tr⟩ := by
  cases j with
  | frame f =>
    have hpriv : (syncWatch tr).Privileged :=
      of_roleSpec (keepsRole_packetProcessing f m .start ⟨nofun, nofun⟩) h
    refine ⟨fun x hx => ?_, nofun⟩
    obtain ⟨hx, hsome⟩ := List.mem_filter.mp hx
    exact hpriv.sent x hx (Option.isSome_iff_ne_none.mp hsome)
  | timer eventId =>
    rw [packetProcessing, alvsHandleAgingEvent_eq] at h
    obtain ⟨_, tr₁, htr₁, h₁⟩ := Prog.path_call_iff.mp h
    obtain ⟨app, tr₂, htr₂, h₂⟩ := Prog.path_call_iff.mp h₁
    subst htr₂ htr₁
    have hwp := wp_agingFrom eventId app m fun hbit => hclean eventId rfl (by
      simp [deniesMaster, hbit])
    have hrole : (tr₂.foldl SyncWatch.next (SyncWatch.start.next ⟨.appInfoLookup,
      app⟩)).RespectsRole :=
      of_roleSpec hwp h₂
    exact ⟨fun x hx => (hrole x hx).1, fun _ _ x hx => (hrole x hx).2⟩

/-- In every run of a thread in which each aging event that does not find the master bit
starts with no buffer counted, sync frames are transmitted only in jobs that have found the
master bit, and in an aging event all their records are of connections that the event has
scanned. -/
theorem syncRole_run {m : Cmem} {steps : List ThreadStep} (h : ThreadRun m steps)
    (hclean : ∀ s ∈ steps, s.StartsClean) : ∀ s ∈ steps, s.RespectsRole := by
  induction h with
  | nil => exact fun _ hs => absurd hs List.not_mem_nil
  | cons h _ ih =>
    intro s hs
    rcases List.mem_cons.mp hs with rfl | hs
    · exact respectsRole_of_path h (hclean _ List.mem_cons_self)
    · exact ih (fun s hs => hclean s (List.mem_cons_of_mem _ hs)) s hs

/-- A chip with a connection and its server. -/
def knownConnNps : Nps :=
  { Sys.init.nps with
    connClassification := fun key =>
      if key = ⟨0x0a000001, 0x0a0000fe, 4000, 80, 6⟩ then some 0 else none
    connInfo := fun i =>
      if i = 0 then some (newConnInfo ⟨0x0a000001, 0x0a0000fe, 4000, 80, 6⟩ true 0 0 1
        ipVsConnFDroute false)
      else none
    serverInfo := fun i =>
      if i = 0 then
        some { Cmem.zero.serverInfoResult with
          serverFlags := ipVsDestFAvailable.toUInt8
          connFlags := ipVsConnFDroute }
      else none }

/-- The master bit is not set. -/
def standbyEnv : DpEnv := { masterEnv with appInfo := some ⟨false, false, 7, 0, 0x0a000003⟩ }

/-- A packet that ends the connection is processed by a master, which synchronises it. -/
def finOnMaster : Prog DpCall DpCall.Res (Unit × Cmem) :=
  (packetProcessing (examplePacket true false)).run .zero

/-- The chip and the memory that this leaves. -/
def afterFin : (Unit × Cmem) × Nps := finOnMaster.exec (dpHandle masterEnv) knownConnNps

def finStep : ThreadStep :=
  ⟨examplePacket true false, .zero, finOnMaster.trace (dpHandle masterEnv) knownConnNps⟩

/-- The next aging event, with the calls of `env`. -/
def agingAfterFin (env : DpEnv) : ThreadStep :=
  ⟨.timer 0, afterFin.1.2,
    ((packetProcessing (.timer 0)).run afterFin.1.2).trace (dpHandle env) afterFin.2⟩

theorem threadRun_agingAfterFin (env : DpEnv) : ThreadRun .zero [finStep, agingAfterFin env] :=
  .cons (Prog.path_trace _ _ _) (.cons (Prog.path_trace _ _ _) (.nil _))

theorem startsClean_agingAfterFin :
    ∀ s ∈ [finStep, agingAfterFin masterEnv], s.StartsClean := by
  intro s hs eventId hjob hdenies
  simp only [List.mem_cons, List.not_mem_nil, or_false] at hs
  rcases hs with rfl | rfl
  · exact absurd hjob (by simp [finStep, examplePacket])
  · exact absurd hdenies (by decide +kernel)

theorem syncRole_run_master : finStep.RespectsRole ∧ (agingAfterFin masterEnv).RespectsRole := by
  have hrun := syncRole_run (threadRun_agingAfterFin masterEnv) startsClean_agingAfterFin
  exact ⟨hrun _ List.mem_cons_self, hrun _ (List.mem_cons_of_mem _ List.mem_cons_self)⟩

/-- Without the master role, the aging event transmits the frame of the packet. -/
theorem syncRole_fails :
    ¬ ∀ (m : Cmem) (steps : List ThreadStep), ThreadRun m steps → ∀ s ∈ steps, s.RespectsRole := by
  intro h
  have hrole := (h _ _ (threadRun_agingAfterFin standbyEnv) (agingAfterFin standbyEnv)
    (List.mem_cons_of_mem _ List.mem_cons_self)).role
  have hsends : ((agingAfterFin standbyEnv).syncFrames.any (! ·.2)) = true := by decide +kernel
  obtain ⟨x, hx, hfalse⟩ := List.any_eq_true.mp hsends
  rw [hrole x hx] at hfalse
  exact absurd hfalse (by decide)

end Alvs
