import Alvs.Dp.Quiet

/-!
# Frames are disposed exactly once

The descriptor of a thread holds the received frame until it is freed or sent; a sync frame
that is built afterwards takes its place. `disposals` counts how often a path disposes of
the received frame.

`disposedOnce_iff` : on every path through `alvs_packet_processing` the received frame is
disposed of exactly once, if and only if it is not a frame in which the creation of a
connection of a sync record fails. `alvs_conn_create_new_entry` discards the frame there,
and `alvs_state_sync_backup` discards it again (`disposedOnce_fails`).
-/

namespace Alvs

open ProgLogic LProg

/-! ## Watching the frame of a path -/

/-- How often the received frame was disposed of, whether a new frame has taken its place,
and whether the creation of a connection has failed. -/
structure FrameWatch where
  disposals : Nat
  replaced : Bool
  createFailed : Bool
  deriving DecidableEq

/-- The descriptor is freed or sent. -/
def FrameWatch.dispose (w : FrameWatch) : FrameWatch :=
  { w with disposals := if w.replaced then w.disposals else w.disposals + 1 }

/-- The pool has no index, or the classification of a connection cannot be added. -/
def createFails : DpEvent → Bool
  | ⟨.allocIndex _, none⟩ => true
  | ⟨.connClassAdd _ _ _, false⟩ => true
  | _ => false

def FrameWatch.next (w : FrameWatch) (ev : DpEvent) : FrameWatch :=
  let w := { w with createFailed := w.createFailed || createFails ev }
  match ev with
  | ⟨.frameFree, _⟩ | ⟨.frameSendToIf _, _⟩ => w.dispose
  | ⟨.frameNew _ _ _, true⟩ => { w with replaced := true }
  | _ => w

/-- A frame was received. -/
def FrameWatch.received : FrameWatch := ⟨0, false, false⟩

/-- How often the received frame is disposed of on a path. -/
def disposals (tr : List DpEvent) : Nat := (tr.foldl FrameWatch.next .received).disposals

/-- The creation of a connection fails on the path. -/
def CreateFails (tr : List DpEvent) : Prop := ∃ ev ∈ tr, createFails ev = true

theorem foldl_frameWatch_createFailed : ∀ (tr : List DpEvent) (w : FrameWatch),
    (tr.foldl FrameWatch.next w).createFailed = (w.createFailed || tr.any createFails)
  | [], w => by simp
  | ev :: tr, w => by
    have hnext : (w.next ev).createFailed = (w.createFailed || createFails ev) := by
      unfold FrameWatch.next
      split <;> rfl
    rw [List.foldl_cons, foldl_frameWatch_createFailed tr, hnext, List.any_cons, Bool.or_assoc]

/-- The frame is processed as a sync message. -/
def Frame.IsSync (f : Frame) : Prop :=
  match f.payload with
  | .udp dest _ => f.myMac = false ∧ dest = udpDest
  | _ => False

instance (f : Frame) : Decidable f.IsSync := by
  unfold Frame.IsSync
  split <;> infer_instance

abbrev frameSpec : Spec DpCall DpCall.Res FrameWatch := Prog.monitorSpec FrameWatch.next

variable {α β : Type} {I : FrameWatch → Prop}

/-! ## Functions that do not touch the frame -/

/-- A call that neither disposes of the frame, nor replaces it, nor creates a connection. -/
def DpCall.KeepsFrame : DpCall → Prop
  | frameFree | frameSendToIf _ | frameNew _ _ _ | allocIndex _ | connClassAdd _ _ _ => False
  | _ => True

theorem silent_keepsFrame : Silent frameSpec DpCall.KeepsFrame := by
  rintro w op hop
  refine ⟨trivial, ?_⟩
  rintro r g' rfl
  cases op <;> first | exact hop.elim | simp [FrameWatch.next, createFails]

/-- The program does not touch the frame. -/
abbrev KeepsFrame {α : Type} (x : Dp α) : Prop := x.Makes DpCall.KeepsFrame AnyCmem

theorem KeepsFrame.triple {x : Dp α} (h : KeepsFrame x) : Triple frameSpec I x I :=
  .of_makes silent_keepsFrame h

theorem keepsFrame_bind {x : Dp α} (h : KeepsFrame x) {f : α → Dp β} {J : β → FrameWatch → Prop}
    (hf : ∀ a, Yields frameSpec I (f a) J) : Yields frameSpec I (x >>= f) J :=
  .bind h.triple.yields hf

theorem keepsFrame_modify (f : Cmem → Cmem) : KeepsFrame (modify f) := .of_modify fun _ => trivial

theorem keepsFrame_lockConnection : KeepsFrame alvsLockConnection :=
  .get_bind fun _ => .of_call trivial

theorem keepsFrame_unlockConnection (h : UInt32) : KeepsFrame (alvsUnlockConnection h) :=
  .of_call trivial

theorem keepsFrame_updateConnectionStatistics (s a i : Int) :
    KeepsFrame (alvsUpdateConnectionStatistics s a i) :=
  .get_bind fun _ => .bind (.of_call trivial) fun _ => .bind (.of_call trivial) fun _ =>
    .bind (.of_call trivial) fun _ => .of_call trivial

theorem keepsFrame_serverInfoLookup (i : UInt32) : KeepsFrame (alvsServerInfoLookup i) := by
  refine .bind (.of_call trivial) fun r => ?_
  split
  · exact .of_pure _
  · exact .bind (keepsFrame_modify _) fun _ => .of_pure _

theorem keepsFrame_connInfoLookup (site : ConnSite) (i : UInt32) :
    KeepsFrame (alvsConnInfoLookup site i) := by
  refine .bind (.of_call trivial) fun r => ?_
  split
  · exact .of_pure _
  · exact .bind (keepsFrame_modify _) fun _ => .of_pure _

theorem keepsFrame_connInfoModify (i : UInt32) (c : ConnInfoResult) :
    KeepsFrame (alvsConnInfoModify i c) :=
  .bind (keepsFrame_modify _) fun _ => .of_call trivial

theorem keepsFrame_overloadOnCreateConn (i : UInt16) :
    KeepsFrame (alvsServerOverloadOnCreateConn i) := by
  refine .get_bind fun _ => .bind (.of_call trivial) fun _ => .bind (.of_call trivial) fun _ => ?_
  refine .ite (.of_pure _) (.ite (.ite ?_ ?_) (.ite ?_ (.ite ?_ (.ite ?_ (.of_pure _)))))
  all_goals repeat refine .bind (.of_call trivial) fun _ => ?_
  all_goals exact .of_pure _

theorem keepsFrame_overloadOnDeleteConn (i : UInt16) :
    KeepsFrame (alvsServerOverloadOnDeleteConn i) :=
  .get_bind fun _ => .bind (.of_call trivial) fun _ =>
    .ite (.of_call trivial) (.ite (.ite (.of_call trivial) (.of_pure _))
      (.ite (.of_call trivial) (.of_pure _)))

/-- A section that ends where its lookup finds nothing. -/
theorem keepsFrame_section {site : ConnSite} {i : UInt32} {f : UInt32 → Dp Bool}
    (hf : ∀ h, KeepsFrame (f h)) :
    KeepsFrame (alvsLockConnection >>= fun h => alvsConnInfoLookup site i >>= fun found =>
      if found = true then f h else alvsUnlockConnection h >>= fun _ => pure false) :=
  .bind keepsFrame_lockConnection fun h => .bind (keepsFrame_connInfoLookup _ _) fun _ =>
    .ite (hf h) (.bind (keepsFrame_unlockConnection h) fun _ => .of_pure _)

theorem keepsFrame_modifyUnlock (i : UInt32) (c : ConnInfoResult) (h : UInt32) :
    KeepsFrame (alvsConnInfoModify i c >>= fun rc => alvsUnlockConnection h >>= fun _ => pure rc) :=
  .bind (keepsFrame_connInfoModify i c) fun _ => .bind (keepsFrame_unlockConnection h) fun _ =>
    .of_pure _

theorem keepsFrame_connUpdateState (i : UInt32) (st : UInt8) :
    KeepsFrame (alvsConnUpdateState i st) := by
  refine keepsFrame_section fun h => .get_bind fun _ => .ite ?_ ?_
  · exact .bind (keepsFrame_unlockConnection h) fun _ => .of_pure _
  · exact .bind (keepsFrame_updateConnectionStatistics _ _ _) fun _ =>
      .bind (keepsFrame_connInfoModify _ _) fun _ => .bind (keepsFrame_modify _) fun _ =>
      .bind (keepsFrame_unlockConnection h) fun _ => .of_pure _

theorem keepsFrame_connMarkToDelete (i : UInt32) (reset : Bool) :
    KeepsFrame (alvsConnMarkToDelete i reset) := by
  refine keepsFrame_section fun h => .get_bind fun _ => .ite ?_ ?_
  · exact .bind (keepsFrame_unlockConnection h) fun _ => .of_pure _
  · exact .bind (.ite (keepsFrame_updateConnectionStatistics _ _ _) (.of_pure _)) fun _ =>
      keepsFrame_modifyUnlock _ _ h

theorem keepsFrame_connRefresh (i : UInt32) : KeepsFrame (alvsConnRefresh i) :=
  keepsFrame_section fun h => .get_bind fun _ => keepsFrame_modifyUnlock _ _ h

theorem keepsFrame_connBind (i server : UInt32) : KeepsFrame (alvsConnBind i server) :=
  keepsFrame_section fun h => .get_bind fun _ => .ite (.of_pure _) (keepsFrame_modifyUnlock _ _ h)

theorem keepsFrame_connTryBind (i : UInt32) : KeepsFrame (alvsConnTryBind i) := by
  refine .get_bind fun _ => .ite (.bind (.of_call trivial) fun r => ?_) (.of_pure _)
  split
  · exact .of_discard (keepsFrame_connBind _ _)
  · exact .of_pure _

theorem keepsFrame_connDeleteWithoutLock (site : DeleteSite) (i : UInt32) :
    KeepsFrame (alvsConnDeleteWithoutLock site i) := by
  refine .get_bind fun _ => .bind (.of_call trivial) fun _ =>
    .ite (.bind (.of_call trivial) fun _ =>
    .ite (.bind (.bind (keepsFrame_serverInfoLookup _) fun _ => .ite ?_ (.of_pure _)) fun _ =>
      .of_call trivial) (.of_pure _)) (.of_pure _)
  refine .bind (.ite ?_ ?_) fun _ => keepsFrame_overloadOnDeleteConn _
  all_goals exact keepsFrame_updateConnectionStatistics _ _ _

theorem keepsFrame_serviceInfoLookup (i : UInt8) : KeepsFrame (alvsServiceInfoLookup i) := by
  refine .bind (.of_call trivial) fun r => ?_
  split
  · exact .of_pure _
  · exact .bind (keepsFrame_modify _) fun _ => .of_pure _

theorem keepsFrame_serverSchedLookup (i : UInt16) : KeepsFrame (alvsServerSchedLookup i) := by
  refine .bind (.of_call trivial) fun r => ?_
  split
  · exact .bind (keepsFrame_modify _) fun _ => .of_pure _
  · exact .of_pure _
  · exact .of_pure _

/-! ## Functions that dispose of the frame -/

/-- The thread has the received frame, and no creation has failed. -/
def HasFrame (w : FrameWatch) : Prop := w = ⟨0, false, false⟩

/-- The received frame was disposed of once, and no creation has failed. -/
def Disposed (w : FrameWatch) : Prop := w = ⟨1, false, false⟩

/-- The program disposes of the received frame. -/
abbrev Disposes {α : Type} (x : Dp α) : Prop := Triple frameSpec HasFrame x Disposed

/-- The program disposes of the received frame where it returns `false`, and keeps it where
it returns `true`. -/
abbrev DisposesOnFail (x : Dp Bool) : Prop :=
  Yields frameSpec HasFrame x fun ok w => if ok then HasFrame w else Disposed w

theorem disposes_frameFree : Disposes (dpCall .frameFree) :=
  .of_call fun w hw => ⟨trivial, fun _ _ h => by rw [h, hw]; rfl⟩

theorem disposes_frameSendToIf (channel : UInt8) : Disposes (dpCall (.frameSendToIf channel)) :=
  .of_call fun w hw => ⟨trivial, fun _ _ h => by rw [h, hw]; rfl⟩

theorem disposes_discardAndStats (e : AlvsErrorStats) : Disposes (alvsDiscardAndStats e) :=
  .bind (KeepsFrame.triple (.of_call trivial)) fun _ => disposes_frameFree

theorem disposesOnFail_discard (e : AlvsErrorStats) :
    DisposesOnFail (alvsDiscardAndStats e >>= fun _ => pure false) :=
  .bind (disposes_discardAndStats e).yields fun _ => .of_pure fun _ hw => hw

/-- A program that disposes of the frame where it fails does so exactly once. -/
theorem disposals_of_fails {x : Dp Bool} (hx : DisposesOnFail x) {m m' : Cmem} {tr : List DpEvent}
    (hp : (x.run m).Path tr (false, m')) : disposals tr = 1 := by
  have hw : tr.foldl FrameWatch.next .received = ⟨1, false, false⟩ :=
    (Prog.wp_monitor_iff _ _ _ _).mp (hx m .received rfl) tr _ hp
  rw [disposals, hw]

theorem disposes_nwHostDoRoute : Disposes nwHostDoRoute := by
  refine Triple.bind (KeepsFrame.triple (.of_call trivial)) fun r => ?_
  split
  · exact disposes_frameFree
  · exact disposes_frameSendToIf _

theorem keepsFrame_nwInterfaceLookup (id : UInt32) : KeepsFrame (nwInterfaceLookup id) := by
  refine .bind (.of_call trivial) fun r => ?_
  split
  · exact .of_pure _
  · exact .bind (keepsFrame_modify _) fun _ => .of_pure _

theorem disposes_nwSendFrameToNetwork (id : UInt32) : Disposes (nwSendFrameToNetwork id) :=
  .bind (KeepsFrame.triple (.of_call trivial)) fun _ =>
    .bind (keepsFrame_nwInterfaceLookup _).triple fun _ =>
    .ite (.get_bind fun _ => disposes_frameSendToIf _) (disposes_discardAndStats _)

theorem disposes_nwArpProcessing (destIp : UInt32) : Disposes (nwArpProcessing destIp) := by
  refine Triple.bind (KeepsFrame.triple (.of_call trivial)) fun r => ?_
  split
  · exact .bind (KeepsFrame.triple (.of_call trivial)) fun _ => disposes_nwSendFrameToNetwork _
  · exact .bind (KeepsFrame.triple (.of_call trivial)) fun _ => disposes_frameFree

theorem keepsFrame_nwFibProcessing (destIp : UInt32) : KeepsFrame (nwFibProcessing destIp) := by
  refine .bind (.of_call trivial) fun r => ?_
  split
  all_goals first
    | exact .of_pure _
    | exact .bind (.of_call trivial) fun _ => .of_pure _

theorem disposes_nwDoRoute (destIp : UInt32) : Disposes (nwDoRoute destIp) :=
  .bind (keepsFrame_nwFibProcessing destIp).triple fun _ =>
    .ite disposes_frameFree (disposes_nwArpProcessing _)

theorem disposes_sendToHost (c : NwIfStats) : Disposes (alvsSendToHost c) :=
  .bind (KeepsFrame.triple (.of_call trivial)) fun _ => disposes_nwHostDoRoute

/-! ## The fast path -/

/-- The received frame was disposed of once. -/
def DisposedOnce (w : FrameWatch) : Prop := w.disposals = 1

theorem Disposed.once {w : FrameWatch} (h : Disposed w) : DisposedOnce w := by
  rw [h]
  rfl

/-- Once a new frame has taken its place, the received frame is not touched. -/
theorem disposedOnce_of_replaced (x : Dp α) :
    Triple frameSpec (fun w => w.disposals = 1 ∧ w.replaced = true) x DisposedOnce := by
  refine Triple.mono (Triple.of_invariant ?_ x) fun w hw => hw.1
  rintro w op ⟨hd, hr⟩
  refine ⟨trivial, ?_⟩
  rintro r w' rfl
  unfold FrameWatch.next FrameWatch.dispose
  split <;> simp [hd, hr]

/-- A sync message of one connection is a new frame. -/
theorem disposedOnce_connSendSync : Triple frameSpec Disposed alvsConnSendSync DisposedOnce := by
  have hpure {a : Unit} : Triple frameSpec Disposed (pure a : Dp Unit) DisposedOnce :=
    fun _ _ hw => Disposed.once hw
  refine .get_bind fun m => .ite (.bind (KeepsFrame.triple (.of_call trivial)) fun app => ?_) hpure
  split
  · refine .ite ?_ hpure
    have hfirst (ip : UInt32) (id : UInt8) : KeepsFrame (alvsStateSyncFirst ip id) :=
      .bind (.of_discard (keepsFrame_nwInterfaceLookup _)) fun _ => keepsFrame_modify _
    refine .bind (hfirst _ _).triple fun _ => .get_bind fun m =>
      .bind (KeepsFrame.triple (.of_call trivial)) fun _ => ?_
    intro l w hw
    rw [wp_bind, wp_call]
    refine ⟨trivial, ?_⟩
    rintro (_ | _) w' rfl
    · rw [hw]
      rfl
    · exact disposedOnce_of_replaced _ l _ (by rw [hw]; exact ⟨rfl, rfl⟩)
  · exact hpure

theorem disposedOnce_connDoRoute : Triple frameSpec HasFrame alvsConnDoRoute DisposedOnce := by
  refine .get_bind fun _ => .ite (.bind (disposes_nwDoRoute _) fun _ => .bind ?_ fun _ =>
    disposedOnce_connSendSync) ((disposes_discardAndStats _).mono fun _ => Disposed.once)
  exact KeepsFrame.triple (.get_bind fun _ => .bind (.of_call trivial) fun _ => .of_call trivial)

theorem disposesOnFail_connCheckServer (i : UInt32) : DisposesOnFail (alvsConnCheckServer i) := by
  have hpure : DisposesOnFail (pure true) := .of_pure fun _ hw => hw
  refine .get_bind fun _ => .ite (keepsFrame_bind (keepsFrame_serverInfoLookup _) fun _ => .ite
    (.get_bind fun _ => .ite hpure ?_) (disposesOnFail_discard _)) hpure
  exact keepsFrame_bind (keepsFrame_connMarkToDelete _ _) fun _ => disposesOnFail_discard _

theorem disposesOnFail_connCheckState (tcp : TcpHdr) (i : UInt32) :
    DisposesOnFail (alvsConnCheckState tcp i) := by
  have hpure : DisposesOnFail (pure true) := .of_pure fun _ hw => hw
  refine .get_bind fun _ => .ite ?_ (.ite ?_ (.ite ?_ hpure))
  · exact keepsFrame_bind (keepsFrame_connMarkToDelete _ _) fun _ => hpure
  · exact keepsFrame_bind (keepsFrame_connUpdateState _ _) fun _ =>
      .ite hpure (disposesOnFail_discard _)
  · exact keepsFrame_bind (keepsFrame_connRefresh _) fun _ =>
      .ite hpure (disposesOnFail_discard _)

theorem disposedOnce_connDataPath (tcp : TcpHdr) (i : UInt32) :
    Triple frameSpec HasFrame (alvsConnDataPath tcp i) DisposedOnce := by
  have hdrop (e : AlvsErrorStats) : Triple frameSpec HasFrame (alvsDiscardAndStats e)
    DisposedOnce :=
    (disposes_discardAndStats e).mono fun _ => Disposed.once
  have hif {f : Dp Unit} (ok : Bool) (hf : Triple frameSpec HasFrame f DisposedOnce) :
      Triple frameSpec (fun w => if ok then HasFrame w else Disposed w)
        (if ok = true then f else pure ()) DisposedOnce := by
    cases ok with
    | true => exact hf
    | false => exact fun _ _ hw => Disposed.once hw
  refine .bind (keepsFrame_connInfoLookup _ _).triple fun _ => .ite ?_ (hdrop _)
  refine .bind (keepsFrame_connTryBind i).triple fun _ => .get_bind fun _ => .ite (hdrop _) ?_
  refine Yields.bind (disposesOnFail_connCheckServer i) fun ok => hif ok ?_
  exact Yields.bind (disposesOnFail_connCheckState tcp i) fun ok => hif ok disposedOnce_connDoRoute

/-! ## Scheduling -/

/-- The frame was disposed of where the server of an index could not be found. -/
def SchedDisposes (r : AlvsSchedServerResult) (w : FrameWatch) : Prop :=
  if r = .failed then Disposed w else HasFrame w

theorem sched_getServerInfo (i : UInt16) :
    Yields frameSpec HasFrame (alvsSchedGetServerInfo i) SchedDisposes := by
  have hpure {r : AlvsSchedServerResult} (hr : r ≠ .failed) :
      Yields frameSpec HasFrame (pure r : Dp AlvsSchedServerResult) SchedDisposes :=
    .of_pure fun w hw => by rwa [SchedDisposes, if_neg hr]
  have hfail (e : AlvsErrorStats) : Yields frameSpec HasFrame
      (alvsDiscardAndStats e >>= fun _ => pure AlvsSchedServerResult.failed) SchedDisposes :=
    .bind (disposes_discardAndStats e).yields fun _ => .of_pure fun _ hw => hw
  refine keepsFrame_bind (keepsFrame_serverSchedLookup i) fun r => ?_
  split
  · refine .get_bind fun _ => keepsFrame_bind (keepsFrame_serverInfoLookup _) fun _ =>
      .ite ?_ (hfail _)
    exact keepsFrame_bind (keepsFrame_overloadOnCreateConn _) fun _ =>
      .ite (hpure (by simp)) (hpure (by simp))
  · exact hpure (by simp)
  · exact hfail _

theorem sched_shFallback (i : UInt8) (hash : UInt32) :
    ∀ offsets, Yields frameSpec HasFrame (alvsSchedShFallback i hash offsets) SchedDisposes
  | [] => .of_pure fun _ hw => hw
  | _ :: offsets => by
    refine .bind (sched_getServerInfo _) fun r => ?_
    by_cases hr : r = .unavailable
    · subst hr
      exact sched_shFallback i hash offsets
    · rw [if_neg hr]
      exact .of_pure fun _ hw => hw

theorem keepsFrame_shGetSchedulingIndex (sip : UInt32) (sport : UInt16) :
    KeepsFrame (alvsSchedShGetSchedulingIndex sip sport) :=
  .bind (.of_call trivial) fun _ => .bind (.of_call trivial) fun _ => .of_call trivial

theorem sched_shScheduleConnection (i : UInt8) (sip : UInt32) (sport : UInt16) :
    DisposesOnFail (alvsSchedShScheduleConnection i sip sport) := by
  refine .get_bind fun _ => keepsFrame_bind (keepsFrame_shGetSchedulingIndex _ _) fun _ =>
    .bind (sched_getServerInfo _) fun first => .bind (J := SchedDisposes) ?_ fun r => ?_
  · split
    next hr =>
      rw [hr.1]
      exact sched_shFallback _ _ _
    next => exact .of_pure fun _ hw => hw
  · cases r with
    | success => exact .of_pure fun _ hw => hw
    | failed => exact .of_pure fun _ hw => hw
    | empty => exact disposesOnFail_discard _
    | unavailable => exact disposesOnFail_discard _

theorem sched_checkActiveServers : DisposesOnFail alvsSchedCheckActiveServers :=
  .get_bind fun _ => .ite (disposesOnFail_discard _) (.of_pure fun _ hw => hw)

theorem sched_rrLoop (i : UInt8) : ∀ retries count,
    Yields frameSpec HasFrame (alvsSchedRrLoop i retries count) fun r w =>
      r.elim (Disposed w) (SchedDisposes · w)
  | 0, _ => .of_pure fun _ hw => hw
  | retries + 1, count => by
    refine .get_bind fun _ => .bind (sched_getServerInfo _) fun r => ?_
    by_cases hr : r = .empty
    · subst hr
      refine keepsFrame_bind (keepsFrame_serviceInfoLookup i) fun _ => .ite ?_ ?_
      · refine .bind sched_checkActiveServers fun ok => ?_
        cases ok with
        | true => exact sched_rrLoop i retries _
        | false => exact .of_pure fun _ hw => hw
      · exact .bind (disposes_discardAndStats _).yields fun _ => .of_pure fun _ hw => hw
    · rw [if_neg hr]
      exact .of_pure fun _ hw => hw

theorem sched_rrScheduleConnection (i : UInt8) :
    DisposesOnFail (alvsSchedRrScheduleConnection i) := by
  refine .get_bind fun _ => keepsFrame_bind (.of_call (by trivial)) fun _ =>
    .bind (sched_rrLoop _ _ _) fun r => ?_
  obtain _ | r := r
  · exact .of_pure fun _ hw => hw
  · cases r with
    | success => exact .of_pure fun _ hw => hw
    | failed => exact .of_pure fun _ hw => hw
    | empty => exact disposesOnFail_discard _
    | unavailable => exact disposesOnFail_discard _

theorem sched_scheduleConnection (i : UInt8) (ip : IpHdr) (tcp : TcpHdr) :
    DisposesOnFail (alvsScheduleConnection i ip tcp) :=
  .get_bind fun _ => .ite (sched_shScheduleConnection _ _ _) (.ite (sched_rrScheduleConnection _)
    (.ite (sched_rrScheduleConnection _) (disposesOnFail_discard _)))

/-! ## New connections -/

/-- The creation has failed, and the frame was disposed of once. -/
def CreationFailed (w : FrameWatch) : Prop := w = ⟨1, false, true⟩

theorem create_connCreateNewEntry (bound : Bool) (server : UInt32) (port st : UInt16)
    (flags : UInt32) (reset : Bool) :
    Yields frameSpec HasFrame (alvsConnCreateNewEntry bound server port st flags reset) fun r w =>
      if r = .ignore then CreationFailed w else HasFrame w := by
  have hfail (e : AlvsErrorStats) : Yields frameSpec (fun w => w = ⟨0, false, true⟩)
      (alvsDiscardAndStats e >>= fun _ => pure AlvsServiceOutputResult.ignore) fun r w =>
        if r = .ignore then CreationFailed w else HasFrame w := by
    refine .bind (J := fun _ => CreationFailed) ?_ fun _ => .of_pure fun _ hw => hw
    refine keepsFrame_bind (.of_call (by trivial)) fun _ => .of_call fun w hw => ?_
    exact ⟨trivial, fun _ _ h => by rw [h, hw]; rfl⟩
  refine .bind (J := fun r w => if r = none then w = ⟨0, false, true⟩ else HasFrame w)
    (.of_call fun w hw => ⟨trivial, ?_⟩) fun r => ?_
  · rintro (_ | i) w' rfl
    all_goals rw [hw]; rfl
  · obtain _ | i := r
    · exact keepsFrame_bind (keepsFrame_overloadOnDeleteConn _) fun _ => hfail _
    · refine .get_bind fun _ => keepsFrame_bind (keepsFrame_modify _) fun _ =>
        keepsFrame_bind (.of_call (by trivial)) fun _ => keepsFrame_bind (keepsFrame_modify _)
          fun _ => ?_
      refine .bind (J := fun r w => if r = true then HasFrame w else w = ⟨0, false, true⟩)
        (.of_call fun w hw => ⟨trivial, ?_⟩) fun r => ?_
      · rintro (_ | _) w' rfl
        all_goals rw [hw]; rfl
      · cases r with
        | true =>
          have hstats : KeepsFrame (if bound then alvsConnCreateStatistics st else pure ()) := by
            refine .ite (.ite ?_ ?_) (.of_pure _)
            all_goals exact keepsFrame_updateConnectionStatistics _ _ _
          exact keepsFrame_bind hstats fun _ => .of_pure fun _ hw => hw
        | false =>
          exact keepsFrame_bind (.of_call (by trivial)) fun _ =>
            keepsFrame_bind (keepsFrame_overloadOnDeleteConn _) fun _ =>
            keepsFrame_bind (.of_call (by trivial)) fun _ => hfail _

/-- Where no connection results, the frame was disposed of once. -/
def ServiceDisposes (r : AlvsServiceOutputResult) (w : FrameWatch) : Prop :=
  if r = .ignore then DisposedOnce w else HasFrame w

theorem service_discard (e : AlvsErrorStats) : Yields frameSpec HasFrame
    (alvsDiscardAndStats e >>= fun _ => pure AlvsServiceOutputResult.ignore) ServiceDisposes :=
  .bind (disposes_discardAndStats e).yields fun _ => .of_pure fun _ hw => Disposed.once hw

theorem service_tcpScheduleLocked (i : UInt8) (ip : IpHdr) (tcp : TcpHdr) :
    Yields frameSpec HasFrame (alvsTcpScheduleLocked i ip tcp) ServiceDisposes := by
  refine .get_bind fun _ => keepsFrame_bind (.of_call (by trivial)) fun r => ?_
  split
  · exact keepsFrame_bind (keepsFrame_modify _) fun _ => .of_pure fun _ hw => hw
  · exact service_discard _
  · refine .bind (sched_scheduleConnection i ip tcp) fun ok => ?_
    cases ok with
    | false => exact .of_pure fun _ hw => Disposed.once hw
    | true =>
      refine .get_bind fun _ => .bind (create_connCreateNewEntry _ _ _ _ _ _) fun r => ?_
      refine keepsFrame_bind (keepsFrame_modify _) fun _ => .of_pure fun w hw => ?_
      unfold ServiceDisposes
      split
      next hr =>
        rw [if_pos hr] at hw
        rw [hw]
        rfl
      next hr => rwa [if_neg hr] at hw

theorem service_tcpScheduleNewConnection (i : UInt8) (ip : IpHdr) (tcp : TcpHdr) :
    Yields frameSpec HasFrame (alvsTcpScheduleNewConnection i ip tcp) ServiceDisposes := by
  refine .bind sched_checkActiveServers fun ok => ?_
  cases ok with
  | false => exact .of_pure fun _ hw => Disposed.once hw
  | true =>
    refine keepsFrame_bind keepsFrame_lockConnection fun h =>
      .bind (service_tcpScheduleLocked i ip tcp) fun r => ?_
    exact keepsFrame_bind (keepsFrame_unlockConnection h) fun _ => .of_pure fun _ hw => hw

theorem service_serviceDataPath (i : UInt8) (ip : IpHdr) (tcp : TcpHdr) :
    Yields frameSpec HasFrame (alvsServiceDataPath i ip tcp) ServiceDisposes :=
  keepsFrame_bind (keepsFrame_serviceInfoLookup i) fun _ =>
    .ite (.ite (service_tcpScheduleNewConnection i ip tcp) (service_discard _)) (service_discard _)

theorem disposedOnce_tcpProcessing (ip : IpHdr) (tcp : TcpHdr) :
    Triple frameSpec HasFrame (alvsTcpProcessing ip tcp) DisposedOnce := by
  refine .bind .of_modify fun _ => .bind (KeepsFrame.triple (.of_call trivial)) fun r => ?_
  split
  · exact disposedOnce_connDataPath _ _
  · refine Triple.bind (KeepsFrame.triple (.of_call trivial)) fun r => ?_
    split
    · refine Yields.bind (service_serviceDataPath _ ip tcp) fun r => ?_
      cases r with
      | success => exact disposedOnce_connDoRoute
      | retry => exact Yields.get_bind fun _ => disposedOnce_connDataPath _ _
      | ignore => exact fun _ _ hw => hw
    · exact .bind (KeepsFrame.triple (.of_call trivial)) fun _ =>
        disposes_nwHostDoRoute.mono fun _ => Disposed.once

/-! ## Sync messages -/

/-- After a record : the frame is still held, or the creation of a connection has failed and
the message is to be dropped. -/
def RecordDisposes (rc : Int) (w : FrameWatch) : Prop := HasFrame w ∨ rc < 0 ∧ CreationFailed w

theorem record_exit (h : UInt32) (rc : Int) : Yields frameSpec HasFrame
    (alvsUnlockConnection h >>= fun _ => pure rc) RecordDisposes :=
  keepsFrame_bind (keepsFrame_unlockConnection h) fun _ => .of_pure fun _ hw => .inl hw

theorem record_stateSyncCreateConn (conn : StateSyncConn) (h : UInt32) :
    Yields frameSpec HasFrame (alvsStateSyncCreateConn conn h) RecordDisposes := by
  have hcreate (bound : Bool) (server : UInt32) (port : UInt16) : Yields frameSpec HasFrame
      (alvsConnCreateNewEntry bound server port conn.state conn.backupFlags false >>= fun res =>
        alvsUnlockConnection h >>= fun _ => pure (if res = .ignore then -1 else 0 : Int))
      RecordDisposes := by
    refine .bind (create_connCreateNewEntry _ _ _ _ _ _) fun r =>
      keepsFrame_bind (keepsFrame_unlockConnection h) fun _ => .of_pure fun w hw => ?_
    split at hw
    next hr => exact .inr ⟨by simp [hr], hw⟩
    next => exact .inl hw
  refine keepsFrame_bind (.of_call (by trivial)) fun r => ?_
  obtain _ | server := r
  · exact hcreate _ _ _
  · exact keepsFrame_bind (keepsFrame_serverInfoLookup server) fun _ =>
      .ite (hcreate _ _ _) (record_exit h _)

theorem keepsFrame_stateSyncUpdateStatistics (conn : StateSyncConn) (c : ConnInfoResult) :
    KeepsFrame (alvsStateSyncUpdateStatistics conn c) := by
  refine .ite (.ite ?_ ?_) (.of_pure _)
  all_goals exact keepsFrame_updateConnectionStatistics _ _ _

theorem keepsFrame_stateSyncBindConn (conn : StateSyncConn) (c : ConnInfoResult) :
    KeepsFrame (alvsStateSyncBindConn conn c) := by
  refine .ite (.of_pure _) (.bind (.of_call trivial) fun r => ?_)
  split
  all_goals exact .of_pure _

theorem record_stateSyncExistingConn (conn : StateSyncConn) (i h : UInt32) :
    Yields frameSpec HasFrame (alvsStateSyncExistingConn conn i h) RecordDisposes := by
  refine keepsFrame_bind (keepsFrame_connInfoLookup _ _) fun _ => .ite ?_ (record_exit h _)
  refine .get_bind fun m => keepsFrame_bind (.ite (keepsFrame_serverInfoLookup _) (.of_pure _))
    fun _ => .ite ?_ (record_exit h _)
  refine .get_bind fun m' => ?_
  refine Yields.ite (.ite ?_ (record_exit h _)) ?_
  · exact keepsFrame_bind (keepsFrame_connDeleteWithoutLock _ _) fun _ =>
      record_stateSyncCreateConn conn h
  · exact .get_bind fun _ => keepsFrame_bind (keepsFrame_stateSyncUpdateStatistics _ _) fun _ =>
      keepsFrame_bind (keepsFrame_stateSyncBindConn _ _) fun _ =>
      keepsFrame_bind (keepsFrame_connInfoModify _ _) fun _ => record_exit h _

theorem record_stateSyncProcessConn (conn : StateSyncConn) :
    Yields frameSpec HasFrame (alvsStateSyncProcessConn conn) RecordDisposes := by
  have hpure (rc : Int) : Yields frameSpec HasFrame (pure rc : Dp Int) RecordDisposes :=
    .of_pure fun _ hw => .inl hw
  refine .ite (hpure _) (.ite (hpure _) (.ite (hpure _) ?_))
  refine keepsFrame_bind (keepsFrame_modify _) fun _ => keepsFrame_bind keepsFrame_lockConnection
    fun h => keepsFrame_bind (.of_call (by trivial)) fun r => ?_
  split
  · exact record_stateSyncExistingConn _ _ _
  · exact record_stateSyncCreateConn _ _

/-- After a sync message : the frame was disposed of twice where a creation has failed. -/
def MessageDisposes (w : FrameWatch) : Prop :=
  w = ⟨1, false, false⟩ ∨ w = ⟨2, false, true⟩

theorem message_discardAndStats (e : AlvsErrorStats) :
    Triple frameSpec HasFrame (alvsDiscardAndStats e) MessageDisposes :=
  (disposes_discardAndStats e).mono fun _ => .inl

theorem message_stateSyncProcessConns : ∀ n conns,
    Triple frameSpec HasFrame (alvsStateSyncProcessConns n conns) MessageDisposes
  | 0, _ => disposes_frameFree.mono fun _ => .inl
  | _ + 1, [] => message_discardAndStats _
  | n + 1, conn :: conns => by
    refine Yields.bind (record_stateSyncProcessConn conn) fun rc => ?_
    by_cases hrc : rc < 0
    · rw [if_pos hrc]
      rintro l w (hw | ⟨-, hw⟩)
      · exact message_discardAndStats _ l w hw
      · refine ⟨trivial, ?_⟩
        rintro - w' rfl
        refine ⟨trivial, ?_⟩
        rintro - w' rfl
        exact .inr (by rw [hw]; rfl)
    · rw [if_neg hrc]
      rintro l w (hw | ⟨hneg, -⟩)
      · exact message_stateSyncProcessConns n conns l w hw
      · exact absurd hneg hrc

theorem message_stateSyncBackup (message : SyncMessage) :
    Triple frameSpec HasFrame (alvsStateSyncBackup message) MessageDisposes := by
  refine .bind (KeepsFrame.triple (.of_call trivial)) fun app => ?_
  split
  · exact message_discardAndStats _
  · refine .ite (message_discardAndStats _) ?_
    split
    · exact message_discardAndStats _
    · exact .ite (message_discardAndStats _)
        (.ite (message_stateSyncProcessConns _ _) (message_discardAndStats _))

/-! ## Packets -/

theorem packet_disposes (f : Frame) : Triple frameSpec HasFrame (packetProcessing (.frame f))
    fun w => DisposedOnce w ∧ ¬ f.IsSync ∨ MessageDisposes w ∧ f.IsSync := by
  have hhost (hf : ¬ f.IsSync) (c : NwIfStats) : Triple frameSpec HasFrame (alvsSendToHost c)
      fun w => DisposedOnce w ∧ ¬ f.IsSync ∨ MessageDisposes w ∧ f.IsSync :=
    (disposes_sendToHost c).mono fun _ hw => .inl ⟨hw.once, hf⟩
  refine .bind .of_modify fun _ => .bind .of_modify fun _ => ?_
  split
  next hdr hp =>
    have hf : ¬ f.IsSync := by simp [Frame.IsSync, hp]
    exact .ite ((disposedOnce_tcpProcessing _ _).mono fun _ hw => .inl ⟨hw, hf⟩) (hhost hf _)
  next dest message hp =>
    split
    next hmac => exact hhost (by simp [Frame.IsSync, hp, hmac]) _
    next hmac =>
      split
      next hdest =>
        have hf : f.IsSync := by simp [Frame.IsSync, hp, hmac, hdest]
        exact (message_stateSyncBackup message).mono fun _ hw => .inr ⟨hw, hf⟩
      next hdest => exact hhost (by simp [Frame.IsSync, hp, hdest]) _
  next hp => exact hhost (by simp [Frame.IsSync, hp]) _

/-- On every path, with any content of the tables and any result of a call, the received
frame is disposed of exactly once, if and only if it is not a sync message in which the
creation of a connection fails. -/
theorem disposedOnce_iff (f : Frame) (l : Cmem) (tr : List DpEvent) (a : Unit × Cmem)
    (h : ((packetProcessing (.frame f)).run l).Path tr a) :
    disposals tr = 1 ↔ ¬ (f.IsSync ∧ CreateFails tr) := by
  have hwp := (Prog.wp_monitor_iff _ _ _ _).mp (packet_disposes f l .received rfl) tr a h
  have hfails : CreateFails tr ↔ (tr.foldl FrameWatch.next .received).createFailed = true := by
    simp [foldl_frameWatch_createFailed, CreateFails, FrameWatch.received]
  rw [hfails, disposals]
  obtain ⟨hw, hf⟩ | ⟨hw | hw, hf⟩ := hwp
  · exact iff_of_true hw fun hboth => hf hboth.1
  · rw [hw]
    simp
  · rw [hw]
    simp [hf]

/-- A packet that is for no service is handed to the host. -/
def unknownServicePath : List DpEvent :=
  [⟨.connClassLookup .tcpProcessing ⟨0x0a000001, 0x0a0000fe, 4000, 80, 6⟩, .notFound⟩,
    ⟨.serviceClassLookup ⟨0x0a0000fe, 80, 6⟩, none⟩,
    ⟨.addPostedCtr (alvsErrorStatsAddr .serviceClassLookup) 1, ()⟩,
    ⟨.interfaceLookupHost, some ⟨0⟩⟩, ⟨.frameSendToIf 0, ()⟩]

theorem disposedOnce_iff_unknownService : disposals unknownServicePath = 1 :=
  (disposedOnce_iff _ .zero unknownServicePath _
    (show ((packetProcessing (examplePacket false false)).run .zero).Path unknownServicePath _ from
      .call _ (.call _ (.call _ (.call _ (.call _ (.ret _))))))).mpr fun h => h.1

/-- The pool has no index for the connection of a sync record. -/
def poolEmptyPath : List DpEvent :=
  [⟨.appInfoLookup, some ⟨false, true, 0, 0, 0⟩⟩,
    ⟨.lockConnection ⟨0x0a000001, 0x0a0000fe, 4000, 80, 6⟩, (77 : UInt32)⟩,
    ⟨.connClassLookup .syncConn ⟨0x0a000001, 0x0a0000fe, 4000, 80, 6⟩, .notFound⟩,
    ⟨.serverClassLookup (.syncConn (exampleRecord 0 1 0x0a000002 80))
      ⟨0x0a000002, 0x0a0000fe, 80, 80, 6⟩, none⟩,
    ⟨.allocIndex false, none⟩, ⟨.readAndDecSingleCtr .zero, (0 : UInt64)⟩,
    ⟨.atomicAnd32 .zero (~~~ipVsDestFOverload), ()⟩,
    ⟨.addPostedCtr (alvsErrorStatsAddr .connIndexAllocFail) 1, ()⟩, ⟨.frameFree, ()⟩,
    ⟨.unlockConnection 77, ()⟩,
    ⟨.addPostedCtr (alvsErrorStatsAddr .stateSyncDecodeConn) 1, ()⟩, ⟨.frameFree, ()⟩]

/-- The frame is freed twice. -/
theorem disposedOnce_fails :
    (∃ a, ((packetProcessing (exampleSync (exampleRecord 0 1 0x0a000002 80))).run .zero).Path
      poolEmptyPath a) ∧ disposals poolEmptyPath = 2 :=
  ⟨⟨_, .call _ (.call _ (.call _ (.call _ (.call _ (.call _ (.call _ (.call _ (.call _ (.call _
    (.call _ (.call _ (.ret _))))))))))))⟩, by decide⟩

end Alvs
