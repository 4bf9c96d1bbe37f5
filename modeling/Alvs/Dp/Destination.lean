import Alvs.Dp.Quiet
import Alvs.Lib.Watched

/-!
# Where a packet is sent

The frame of a packet is sent to the address that is looked up in the FIB, or to the host. What
follows is about another frame : that of a sync message. `destination` is where a trace sends the
received frame; one with no destination is freed.

Only `nw_do_route` and `nw_host_do_route` send a packet; the other functions keep the destination
(`KeepsDest`).
-/

namespace Alvs

open ProgLogic LProg

/-- Where a frame is sent : to an address, to the host, or out of a channel that was looked up for
neither. -/
inductive Destination
  | address (destIp : UInt32)
  | host
  | channel (outputChannel : UInt8)
  deriving DecidableEq

/-- The first destination stays. -/
def Destination.next : Option Destination → DpEvent → Option Destination
  | some d, _ => some d
  | none, ⟨.fibLookup destIp, _⟩ => some (.address destIp)
  | none, ⟨.interfaceLookupHost, _⟩ => some .host
  | none, ⟨.frameSendToIf outputChannel, _⟩ => some (.channel outputChannel)
  | none, _ => none

/-- Where a trace sends the frame. -/
def destination (tr : List DpEvent) : Option Destination := tr.foldl Destination.next none

abbrev destSpec : Spec DpCall DpCall.Res (Option Destination) :=
  Prog.monitorSpec Destination.next

/-- A call that does not send the frame. -/
def DpCall.KeepsDest : DpCall → Prop
  | fibLookup _ | interfaceLookupHost | frameSendToIf _ => False
  | _ => True

theorem silent_keepsDest : Silent destSpec DpCall.KeepsDest := by
  rintro d op hop
  refine ⟨trivial, ?_⟩
  rintro r g' rfl
  cases d with
  | some d => rfl
  | none => cases op <;> first | exact hop.elim | rfl

variable {α β : Type}

/-- The program does not send the frame. -/
abbrev KeepsDest (x : Dp α) : Prop := x.Makes DpCall.KeepsDest AnyCmem

/-- The program sends the frame to `d`. -/
abbrev Sends (x : Dp α) (d : Option Destination) : Prop := Triple destSpec (· = none) x (· = d)

theorem KeepsDest.sends {x : Dp α} (h : KeepsDest x) : Sends x none :=
  .of_makes silent_keepsDest h

/-- What follows does not change the destination. -/
theorem sends_after (d : Destination) (x : Dp α) : Triple destSpec (· = some d) x (· = some d) := by
  refine .of_invariant ?_ x
  rintro _ op rfl
  refine ⟨trivial, ?_⟩
  rintro r g' rfl
  rfl

theorem keepsDest_modify (f : Cmem → Cmem) : KeepsDest (modify f) := .of_modify fun _ => trivial

theorem keepsDest_discardAndStats (e : AlvsErrorStats) : KeepsDest (alvsDiscardAndStats e) :=
  .bind (.of_call trivial) fun _ => .of_call trivial

theorem keepsDest_drop (e : AlvsErrorStats) (a : α) :
    KeepsDest (alvsDiscardAndStats e >>= fun _ => pure a) :=
  .bind (keepsDest_discardAndStats e) fun _ => .of_pure _

/-! ## Routing -/

theorem sends_nwDoRoute (destIp : UInt32) : Sends (nwDoRoute destIp) (some (.address destIp)) := by
  refine .bind (J := (· = some (.address destIp))) ?_ fun _ => sends_after _ _
  refine .bind (.of_call ?_) fun _ => sends_after _ _
  rintro _ rfl
  refine ⟨trivial, ?_⟩
  rintro r g' rfl
  rfl

theorem sends_nwHostDoRoute : Sends nwHostDoRoute (some .host) := by
  refine .bind (.of_call ?_) fun _ => sends_after _ _
  rintro _ rfl
  refine ⟨trivial, ?_⟩
  rintro r g' rfl
  rfl

/-- The address that `alvs_conn_do_route` sends a packet to, for a server with these flags. -/
def routeDest (connFlags destIp : UInt32) : Option Destination :=
  if connFlags &&& ipVsConnFFwdMask = ipVsConnFDroute then some (.address destIp) else none

theorem dest_connDoRoute (m : Cmem) : alvsConnDoRoute.wp destSpec
    (fun _ _ d => d = routeDest m.serverInfoResult.connFlags
      (if m.connInfoResult.bound then m.serverInfoResult.serverIp
        else m.connInfoResult.serverAddr)) m none := by
  unfold alvsConnDoRoute routeDest
  refine (wp_bind _ _ _).mpr ((wp_get _).mpr ((wp_ite _ _ _ _).mpr ⟨fun hd => ?_, fun hd => ?_⟩))
  · rw [if_pos hd]
    refine wp_bind_of (sends_nwDoRoute _ m none rfl) ?_
    rintro _ m' _ rfl
    exact sends_after _ _ m' _ rfl
  · rw [if_neg hd]
    exact (keepsDest_discardAndStats _).sends m none rfl

/-! ## Locks and entries -/

theorem keepsDest_lockConnection : KeepsDest alvsLockConnection :=
  .get_bind fun _ => .of_call trivial

theorem keepsDest_updateConnectionStatistics (s a i : Int) :
    KeepsDest (alvsUpdateConnectionStatistics s a i) :=
  .get_bind fun _ => .bind (.of_call trivial) fun _ => .bind (.of_call trivial) fun _ =>
    .bind (.of_call trivial) fun _ => .of_call trivial

theorem keepsDest_serverInfoLookup (i : UInt32) : KeepsDest (alvsServerInfoLookup i) := by
  refine .bind (.of_call trivial) fun r => ?_
  split
  · exact .of_pure _
  · exact .bind (keepsDest_modify _) fun _ => .of_pure _

theorem keepsDest_connInfoLookup (site : ConnSite) (i : UInt32) :
    KeepsDest (alvsConnInfoLookup site i) := by
  refine .bind (.of_call trivial) fun r => ?_
  split
  · exact .of_pure _
  · exact .bind (keepsDest_modify _) fun _ => .of_pure _

theorem keepsDest_connInfoModify (i : UInt32) (c : ConnInfoResult) :
    KeepsDest (alvsConnInfoModify i c) :=
  .bind (keepsDest_modify _) fun _ => .of_call trivial

/-- A section that ends where its lookup finds nothing. -/
theorem keepsDest_section {site : ConnSite} {i : UInt32} {f : UInt32 → Dp Bool}
    (hf : ∀ h, KeepsDest (f h)) :
    KeepsDest (alvsLockConnection >>= fun h => alvsConnInfoLookup site i >>= fun found =>
      if found = true then f h else alvsUnlockConnection h >>= fun _ => pure false) :=
  .bind keepsDest_lockConnection fun _ => .bind (keepsDest_connInfoLookup _ _) fun _ =>
    .ite (hf _) (.bind (.of_call trivial) fun _ => .of_pure _)

theorem keepsDest_modifyUnlock (i : UInt32) (c : ConnInfoResult) (h : UInt32) :
    KeepsDest (alvsConnInfoModify i c >>= fun rc => alvsUnlockConnection h >>= fun _ => pure rc) :=
  .bind (keepsDest_connInfoModify i c) fun _ => .bind (.of_call trivial) fun _ => .of_pure _

theorem keepsDest_connUpdateState (i : UInt32) (st : UInt8) :
    KeepsDest (alvsConnUpdateState i st) := by
  refine keepsDest_section fun h => .get_bind fun _ => .ite ?_ ?_
  · exact .bind (.of_call trivial) fun _ => .of_pure _
  · exact .bind (keepsDest_updateConnectionStatistics _ _ _) fun _ =>
      .bind (keepsDest_connInfoModify _ _) fun _ => .bind (keepsDest_modify _) fun _ =>
      .bind (.of_call trivial) fun _ => .of_pure _

theorem keepsDest_connMarkToDelete (i : UInt32) (reset : Bool) :
    KeepsDest (alvsConnMarkToDelete i reset) := by
  refine keepsDest_section fun h => .get_bind fun _ => .ite ?_ ?_
  · exact .bind (.of_call trivial) fun _ => .of_pure _
  · exact .bind (.ite (keepsDest_updateConnectionStatistics _ _ _) (.of_pure _)) fun _ =>
      keepsDest_modifyUnlock _ _ h

theorem keepsDest_connRefresh (i : UInt32) : KeepsDest (alvsConnRefresh i) :=
  keepsDest_section fun h => .get_bind fun _ => keepsDest_modifyUnlock _ _ h

theorem keepsDest_connBind (i server : UInt32) : KeepsDest (alvsConnBind i server) :=
  keepsDest_section fun h => .get_bind fun _ => .ite (.of_pure _) (keepsDest_modifyUnlock _ _ h)

theorem keepsDest_connTryBind (i : UInt32) : KeepsDest (alvsConnTryBind i) := by
  refine .get_bind fun _ => .ite (.bind (.of_call trivial) fun r => ?_) (.of_pure _)
  split
  · exact .of_discard (keepsDest_connBind _ _)
  · exact .of_pure _

theorem keepsDest_connCheckServer (i : UInt32) : KeepsDest (alvsConnCheckServer i) := by
  refine .get_bind fun _ => .ite (.bind (keepsDest_serverInfoLookup _) fun _ => .ite
    (.get_bind fun _ => .ite (.of_pure _) ?_) (keepsDest_drop _ _)) (.of_pure _)
  exact .bind (keepsDest_connMarkToDelete _ _) fun _ => keepsDest_drop _ _

theorem keepsDest_connCheckState (tcp : TcpHdr) (i : UInt32) :
    KeepsDest (alvsConnCheckState tcp i) := by
  refine .get_bind fun _ => .ite (.bind (keepsDest_connMarkToDelete _ _) fun _ => .of_pure _)
    (.ite (.bind (keepsDest_connUpdateState _ _) fun _ => .ite (.of_pure _) (keepsDest_drop _ _))
      (.ite (.bind (keepsDest_connRefresh _) fun _ => .ite (.of_pure _) (keepsDest_drop _ _))
        (.of_pure _)))

/-! ## New connections -/

theorem keepsDest_serviceInfoLookup (i : UInt8) : KeepsDest (alvsServiceInfoLookup i) := by
  refine .bind (.of_call trivial) fun r => ?_
  split
  · exact .of_pure _
  · exact .bind (keepsDest_modify _) fun _ => .of_pure _

theorem keepsDest_overloadOnCreateConn (i : UInt16) :
    KeepsDest (alvsServerOverloadOnCreateConn i) := by
  refine .get_bind fun _ => .bind (.of_call trivial) fun _ => .bind (.of_call trivial) fun _ => ?_
  refine .ite (.of_pure _) (.ite (.ite ?_ ?_) (.ite ?_ (.ite ?_ (.ite ?_ (.of_pure _)))))
  all_goals repeat refine .bind (.of_call trivial) fun _ => ?_
  all_goals exact .of_pure _

theorem keepsDest_overloadOnDeleteConn (i : UInt16) :
    KeepsDest (alvsServerOverloadOnDeleteConn i) :=
  .get_bind fun _ => .bind (.of_call trivial) fun _ =>
    .ite (.of_call trivial) (.ite (.ite (.of_call trivial) (.of_pure _))
      (.ite (.of_call trivial) (.of_pure _)))

theorem keepsDest_schedCheckActiveServers : KeepsDest alvsSchedCheckActiveServers :=
  .get_bind fun _ => .ite (keepsDest_drop _ _) (.of_pure _)

theorem keepsDest_schedGetServerInfo (i : UInt16) : KeepsDest (alvsSchedGetServerInfo i) := by
  refine .bind (.bind (.of_call trivial) fun r => ?_) fun r => ?_
  · split
    · exact .bind (keepsDest_modify _) fun _ => .of_pure _
    · exact .of_pure _
    · exact .of_pure _
  · split
    · refine .get_bind fun _ => .bind (keepsDest_serverInfoLookup _) fun _ =>
        .ite ?_ (keepsDest_drop _ _)
      exact .bind (keepsDest_overloadOnCreateConn _) fun _ => .ite (.of_pure _) (.of_pure _)
    · exact .of_pure _
    · exact keepsDest_drop _ _

theorem keepsDest_schedShFallback (i : UInt8) (hash : UInt32) :
    ∀ offsets, KeepsDest (alvsSchedShFallback i hash offsets)
  | [] => .of_pure _
  | _ :: offsets => .bind (keepsDest_schedGetServerInfo _) fun _ =>
    .ite (keepsDest_schedShFallback i hash offsets) (.of_pure _)

theorem keepsDest_schedShScheduleConnection (i : UInt8) (sip : UInt32) (sport : UInt16) :
    KeepsDest (alvsSchedShScheduleConnection i sip sport) := by
  have hindex (sip : UInt32) (sport : UInt16) :
      KeepsDest (alvsSchedShGetSchedulingIndex sip sport) :=
    .bind (.of_call trivial) fun _ => .bind (.of_call trivial) fun _ => .of_call trivial
  refine .get_bind fun _ => .bind (hindex _ _) fun _ => .bind (keepsDest_schedGetServerInfo _)
    fun _ => .bind (.ite (keepsDest_schedShFallback _ _ _) (.of_pure _)) fun r => ?_
  cases r
  case success | failed => exact .of_pure _
  all_goals exact keepsDest_drop _ _

theorem keepsDest_schedRrLoop (i : UInt8) :
    ∀ retries count, KeepsDest (alvsSchedRrLoop i retries count)
  | 0, _ => .of_pure _
  | retries + 1, count => by
    refine .get_bind fun _ => .bind (keepsDest_schedGetServerInfo _) fun _ => .ite ?_ (.of_pure _)
    exact .bind (keepsDest_serviceInfoLookup _) fun _ => .ite
      (.bind keepsDest_schedCheckActiveServers fun _ =>
        .ite (keepsDest_schedRrLoop i retries _) (.of_pure _)) (keepsDest_drop _ _)

theorem keepsDest_schedRrScheduleConnection (i : UInt8) :
    KeepsDest (alvsSchedRrScheduleConnection i) := by
  refine .get_bind fun _ => .bind (.of_call trivial) fun _ =>
    .bind (keepsDest_schedRrLoop _ _ _) fun r => ?_
  split
  case h_2 | h_3 => exact keepsDest_drop _ _
  all_goals exact .of_pure _

theorem keepsDest_scheduleConnection (i : UInt8) (ip : IpHdr) (tcp : TcpHdr) :
    KeepsDest (alvsScheduleConnection i ip tcp) :=
  .get_bind fun _ => .ite (keepsDest_schedShScheduleConnection _ _ _)
    (.ite (keepsDest_schedRrScheduleConnection _) (.ite (keepsDest_schedRrScheduleConnection _)
      (keepsDest_drop _ _)))

theorem keepsDest_connCreateNewEntry (b : Bool) (server : UInt32) (port st : UInt16)
    (flags : UInt32) (reset : Bool) :
    KeepsDest (alvsConnCreateNewEntry b server port st flags reset) := by
  refine .bind (.of_call trivial) fun r => ?_
  split
  · exact .bind (keepsDest_overloadOnDeleteConn _) fun _ => keepsDest_drop _ _
  · refine .get_bind fun _ => .bind (keepsDest_modify _) fun _ => .bind (.of_call trivial) fun _ =>
      .bind (keepsDest_modify _) fun _ => .bind (.of_call trivial) fun _ => .ite ?_ ?_
    · refine .bind (.ite (.ite ?_ ?_) (.of_pure _)) fun _ => .of_pure _
      all_goals exact keepsDest_updateConnectionStatistics _ _ _
    · exact .bind (.of_call trivial) fun _ => .bind (keepsDest_overloadOnDeleteConn _) fun _ =>
        .bind (.of_call trivial) fun _ => keepsDest_drop _ _

theorem keepsDest_tcpScheduleNewConnection (i : UInt8) (ip : IpHdr) (tcp : TcpHdr) :
    KeepsDest (alvsTcpScheduleNewConnection i ip tcp) := by
  have hlocked : KeepsDest (alvsTcpScheduleLocked i ip tcp) := by
    refine .get_bind fun _ => .bind (.of_call trivial) fun r => ?_
    split
    · exact .bind (keepsDest_modify _) fun _ => .of_pure _
    · exact keepsDest_drop _ _
    · refine .bind (keepsDest_scheduleConnection _ _ _) fun _ => .ite ?_ (.of_pure _)
      exact .get_bind fun _ => .bind (keepsDest_connCreateNewEntry _ _ _ _ _ _) fun _ =>
        .bind (keepsDest_modify _) fun _ => .of_pure _
  exact .bind keepsDest_schedCheckActiveServers fun _ => .ite
    (.bind keepsDest_lockConnection fun _ => .bind hlocked fun _ =>
      .bind (.of_call trivial) fun _ => .of_pure _) (.of_pure _)

theorem keepsDest_serviceDataPath (i : UInt8) (ip : IpHdr) (tcp : TcpHdr) :
    KeepsDest (alvsServiceDataPath i ip tcp) :=
  .bind (keepsDest_serviceInfoLookup i) fun _ => .ite
    (.ite (keepsDest_tcpScheduleNewConnection i ip tcp) (keepsDest_drop _ _)) (keepsDest_drop _ _)

end Alvs
