import Alvs.Dp.Quiet
import Alvs.Lib.Lockstep

/-!
# Memory left by earlier packets

What `alvs_conn_data_path` does with a packet should depend on the packet, its connection
and the tables, and not on what earlier packets left in the memory of the thread.
`dataPathOutcome` is the chip after it and every call it made : the changes of tables and
counters, the next hop, the blocks of statistics and the reason of a drop.

`scratchFree_iff` : the outcome is the same for any two memories with the same data of the
packet, if and only if the packet is not forwarded on an unbound connection. There
`alvs_conn_do_route` and the statistics read `server_info_result`, which only the lookup of
a bound connection fills (`scratchFree_fails`).
-/

namespace Alvs

open ProgLogic LProg

/-! ## The outcome of a packet -/

/-- What is set for the packet before the fast path. -/
structure PacketData where
  connClassKey : ConnClassificationKey
  connSyncStatus : AlvsConnSyncStatus
  frameLength : UInt32

def Cmem.packetData (m : Cmem) : PacketData :=
  ⟨m.connClassKey, m.connSyncState.connSyncStatus, m.frameLength⟩

/-- The chip, and the calls made on it, the last one first. -/
abbrev Record := Nps × List DpEvent

/-- Perform a call, the `n`-th with environment `es n`, and record it. -/
def recHandle (es : Nat → DpEnv) (op : DpCall) (s : Record) : op.Res × Record :=
  let (r, nps) := dpHandle (es s.2.length) op s.1
  (r, nps, ⟨op, r⟩ :: s.2)

/-- The chip after a packet of the connection `connIndex`, and the calls that were made. -/
def dataPathOutcome (es : Nat → DpEnv) (nps : Nps) (tcpHdr : TcpHdr) (connIndex : UInt32)
    (m : Cmem) : Record :=
  (((alvsConnDataPath tcpHdr connIndex).run m).exec (recHandle es) (nps, [])).2

/-- The connection is not bound, `alvs_conn_data_path` finds no server for it, and the
packet is not dropped for its reset bit. The search for the server is the second call. -/
def RoutesUnbound (es : Nat → DpEnv) (nps : Nps) (key : ConnClassificationKey)
    (connIndex : UInt32) : Prop :=
  ∃ c, nps.connInfo connIndex = some c ∧ c.bound = false ∧ c.resetBit = false ∧
    ((es 1).fails = true ∨ nps.serverClassification
      ⟨c.serverAddr, key.virtualIp, c.serverPort, key.virtualPort, key.protocol⟩ = none)

/-! ## What the functions read of the memory -/

/-- The data of the packet are the same. -/
def SamePacket (l₁ l₂ : Cmem) : Prop := l₁.packetData = l₂.packetData

/-- So is the entry of the connection. -/
structure SameConn (l₁ l₂ : Cmem) : Prop where
  packet : l₁.packetData = l₂.packetData
  conn : l₁.connInfoResult = l₂.connInfoResult

/-- And so is the entry of the server. -/
structure SameServer (l₁ l₂ : Cmem) : Prop extends SameConn l₁ l₂ where
  server : l₁.serverInfoResult = l₂.serverInfoResult

theorem SameConn.key {l₁ l₂ : Cmem} (h : SameConn l₁ l₂) : l₁.connClassKey = l₂.connClassKey :=
  congrArg (·.connClassKey) h.packet

theorem SameConn.status {l₁ l₂ : Cmem} (h : SameConn l₁ l₂) :
    l₁.connSyncState.connSyncStatus = l₂.connSyncState.connSyncStatus :=
  congrArg (·.connSyncStatus) h.packet

theorem SameConn.frameLength {l₁ l₂ : Cmem} (h : SameConn l₁ l₂) :
    l₁.frameLength = l₂.frameLength :=
  congrArg (·.frameLength) h.packet

theorem SameConn.withConn {l₁ l₂ : Cmem} (h : SameConn l₁ l₂) (c : ConnInfoResult) :
    SameConn { l₁ with connInfoResult := c } { l₂ with connInfoResult := c } :=
  ⟨h.packet, rfl⟩

theorem SameServer.withConn {l₁ l₂ : Cmem} (h : SameServer l₁ l₂) (c : ConnInfoResult) :
    SameServer { l₁ with connInfoResult := c } { l₂ with connInfoResult := c } :=
  ⟨h.toSameConn.withConn c, h.server⟩

section AnyRelation

variable {I : Cmem → Cmem → Prop}

theorem steady_discardAndStats (e : AlvsErrorStats) : Steady I (alvsDiscardAndStats e) :=
  .bind (.of_call _) fun _ => .of_call _

theorem steady_drop (e : AlvsErrorStats) :
    Steady I (alvsDiscardAndStats e >>= fun _ => pure false) :=
  .bind (steady_discardAndStats e) fun _ => .of_pure fun _ _ => id

theorem steady_exit (h : UInt32) (rc : Bool) :
    Steady I (alvsUnlockConnection h >>= fun _ => pure rc) :=
  .bind (.of_call _) fun _ => .of_pure fun _ _ => id

theorem steady_lockConnection (hI : ∀ l₁ l₂, I l₁ l₂ → l₁.connClassKey = l₂.connClassKey) :
    Steady I alvsLockConnection :=
  .get_bind (fun l₁ l₂ hl => by rw [hI l₁ l₂ hl]) fun _ => .of_call _

theorem coupled_connInfoLookup {J : Cmem → Cmem → Prop} (site : ConnSite) (i : UInt32)
    (hI : ∀ l₁ l₂ c, I l₁ l₂ →
      J { l₁ with connInfoResult := c } { l₂ with connInfoResult := c }) :
    Coupled I (alvsConnInfoLookup site i) fun ok => if ok then J else I := by
  refine .bind (.of_call _) fun r => ?_
  split
  next => exact .of_pure fun _ _ => id
  next c => exact .bind (.of_modify fun l₁ l₂ => hI l₁ l₂ c) fun _ => .of_pure fun _ _ => id

theorem steady_connInfoModify (i : UInt32) (c : ConnInfoResult)
    (hI : ∀ l₁ l₂, I l₁ l₂ →
      I { l₁ with connInfoResult := c } { l₂ with connInfoResult := c }) :
    Steady I (alvsConnInfoModify i c) :=
  .bind (.of_modify hI) fun _ => .of_call _

/-- A section that ends where its lookup finds nothing. -/
theorem steady_section (hkey : ∀ l₁ l₂, I l₁ l₂ → l₁.connClassKey = l₂.connClassKey)
    (hI : ∀ l₁ l₂ c, I l₁ l₂ →
      I { l₁ with connInfoResult := c } { l₂ with connInfoResult := c })
    {site : ConnSite} {i : UInt32} {f : UInt32 → Dp Bool} (hf : ∀ h, Steady I (f h)) :
    Steady I (alvsLockConnection >>= fun h => alvsConnInfoLookup site i >>= fun found =>
      if found = true then f h else alvsUnlockConnection h >>= fun _ => pure false) := by
  refine .bind (steady_lockConnection hkey) fun h =>
    .bind (coupled_connInfoLookup site i hI) fun found => ?_
  simp only [ite_self]
  exact .ite (fun _ => hf h) fun _ => steady_exit h _

end AnyRelation

/-! ## Binding -/

theorem steady_connBind (i server : UInt32) : Steady SameConn (alvsConnBind i server) := by
  refine steady_section (fun _ _ h => h.key) (fun _ _ c h => h.withConn c) fun h =>
    .get_bind (fun l₁ l₂ hl => by rw [hl.conn]) fun m => .ite ?_ ?_
  · exact fun _ => .of_pure fun _ _ => id
  · exact fun _ => .bind (steady_connInfoModify i _ fun _ _ hl => hl.withConn _) fun _ =>
      steady_exit h _

theorem steady_connTryBind (i : UInt32) : Steady SameConn (alvsConnTryBind i) := by
  refine .get_bind (fun l₁ l₂ hl => by rw [hl.conn, hl.key]) fun m => .ite (fun _ => ?_) ?_
  · refine .bind (.of_call _) fun r => ?_
    split
    · exact .of_discard (steady_connBind i _)
    · exact .of_pure fun _ _ => id
  · exact fun _ => .of_pure fun _ _ => id

/-! ## Changes of an entry -/

theorem steady_updateConnectionStatistics (s a i : Int) :
    Steady SameServer (alvsUpdateConnectionStatistics s a i) :=
  .get_bind (fun l₁ l₂ hl => by rw [hl.server]) fun _ => .bind (.of_call _) fun _ =>
    .bind (.of_call _) fun _ => .bind (.of_call _) fun _ => .of_call _

theorem steady_connMarkToDelete (i : UInt32) (reset : Bool) :
    Steady SameServer (alvsConnMarkToDelete i reset) := by
  refine steady_section (fun _ _ h => h.key) (fun _ _ c h => h.withConn c) fun h =>
    .get_bind (fun l₁ l₂ hl => by rw [hl.conn]) fun m => .ite (fun _ => steady_exit h _) fun _ =>
    .bind (.ite (fun _ => steady_updateConnectionStatistics _ _ _)
      fun _ => .of_pure fun _ _ => id) fun _ => ?_
  exact .bind (steady_connInfoModify i _ fun _ _ hl => hl.withConn _) fun _ => steady_exit h _

theorem steady_connUpdateState (i : UInt32) (st : UInt8) :
    Steady SameServer (alvsConnUpdateState i st) := by
  refine steady_section (fun _ _ h => h.key) (fun _ _ c h => h.withConn c) fun h =>
    .get_bind (fun l₁ l₂ hl => by rw [hl.conn]) fun m => .ite (fun _ => steady_exit h _) fun _ =>
    .bind (steady_updateConnectionStatistics _ _ _) fun _ =>
    .bind (steady_connInfoModify i _ fun _ _ hl => hl.withConn _) fun _ =>
    .bind (.of_modify fun l₁ l₂ hl => ?_) fun _ => steady_exit h _
  refine ⟨⟨?_, hl.conn⟩, hl.server⟩
  simp only [Cmem.packetData, hl.key, hl.frameLength]

theorem steady_connRefresh (i : UInt32) : Steady SameServer (alvsConnRefresh i) :=
  steady_section (fun _ _ h => h.key) (fun _ _ c h => h.withConn c) fun h =>
    .get_bind (fun l₁ l₂ hl => by rw [hl.conn]) fun _ =>
    .bind (steady_connInfoModify i _ fun _ _ hl => hl.withConn _) fun _ => steady_exit h _

theorem steady_connCheckState (tcp : TcpHdr) (i : UInt32) :
    Steady SameServer (alvsConnCheckState tcp i) := by
  have hchange {x : Dp Bool} (hx : Steady SameServer x) : Steady SameServer
      (x >>= fun ok => if ok = true then pure true
        else alvsDiscardAndStats .cantUpdateConnectionState >>= fun _ => pure false) :=
    .bind hx fun _ => .ite (fun _ => .of_pure fun _ _ => id) fun _ => steady_drop _
  refine .get_bind (fun l₁ l₂ hl => by rw [hl.conn]) fun m => .ite (fun _ => ?_) fun _ =>
    .ite (fun _ => hchange (steady_connUpdateState i _)) fun _ =>
    .ite (fun _ => hchange (steady_connRefresh i)) fun _ => .of_pure fun _ _ => id
  exact .bind (steady_connMarkToDelete i true) fun _ => .of_pure fun _ _ => id

/-! ## Routing -/

section Interface

variable {I : Cmem → Cmem → Prop}
  (hI : ∀ l₁ l₂ r, I l₁ l₂ → I { l₁ with interfaceResult := r } { l₂ with interfaceResult := r })
include hI

/-- After a lookup that succeeds, the entry of the interface is the same. -/
theorem coupled_nwInterfaceLookup (id : UInt32) : Coupled I (nwInterfaceLookup id)
    fun ok l₁ l₂ => I l₁ l₂ ∧ (ok = true → l₁.interfaceResult = l₂.interfaceResult) := by
  refine .bind (.of_call _) fun r => ?_
  split
  next => exact .of_pure fun _ _ hl => ⟨hl, nofun⟩
  next r =>
    refine .bind (.of_modify (J := fun l₁ l₂ => I l₁ l₂ ∧ l₁.interfaceResult = l₂.interfaceResult)
      fun l₁ l₂ hl => ⟨hI l₁ l₂ r hl, rfl⟩) fun _ => ?_
    exact .of_pure fun _ _ hl => ⟨hl.1, fun _ => hl.2⟩

theorem steady_nwSendFrameToNetwork (id : UInt32) : Steady I (nwSendFrameToNetwork id) := by
  refine .bind (.of_call _) fun _ => .bind (coupled_nwInterfaceLookup hI _) fun ok => ?_
  cases ok with
  | true =>
    refine .get_bind (fun l₁ l₂ hl => by rw [hl.2 rfl]) fun m => ?_
    exact (Coupled.of_call _).mono fun _ _ _ hl => hl.1
  | false => exact (steady_discardAndStats _).mono fun _ _ _ hl => hl.1

theorem steady_nwDoRoute (destIp : UInt32) : Steady I (nwDoRoute destIp) := by
  refine .bind (J := fun _ => I) (.bind (.of_call _) fun r => ?_) fun _ =>
    .ite (fun _ => .of_call _) fun _ => .bind (.of_call _) fun r => ?_
  · split
    all_goals first
      | exact .of_pure fun _ _ => id
      | exact .bind (.of_call _) fun _ => .of_pure fun _ _ => id
  · split
    · exact .bind (.of_call _) fun _ => steady_nwSendFrameToNetwork hI _
    · exact .bind (.of_call _) fun _ => .of_call _

end Interface

theorem SameServer.withInterface (l₁ l₂ : Cmem) (r : NwIfResult) (h : SameServer l₁ l₂) :
    SameServer { l₁ with interfaceResult := r } { l₂ with interfaceResult := r } :=
  ⟨⟨h.packet, h.conn⟩, h.server⟩

/-- The sync frame is filled anew. -/
theorem coupled_stateSyncSendSingle (ip : UInt32) (id : UInt8) :
    Coupled SameServer (alvsStateSyncSendSingle ip id)
      fun _ l₁ l₂ => l₁.connSyncState = l₂.connSyncState := by
  refine .bind (J := fun _ l₁ l₂ => l₁.connSyncState = l₂.connSyncState) ?_ fun _ =>
    .get_bind (fun l₁ l₂ hl => by rw [hl]) fun _ => .bind (.of_call _) fun _ =>
    .bind (.of_call _) fun _ => .ite (fun _ => steady_nwSendFrameToNetwork (fun _ _ _ hl => hl) _)
      fun _ => .of_pure fun _ _ hl => hl
  have heth : Coupled SameServer alvsStateSyncSetEthHdr fun _ => SameServer :=
    .of_discard ((coupled_nwInterfaceLookup SameServer.withInterface _).mono fun _ _ _ hl => hl.1)
  refine .bind heth fun _ => .of_modify fun l₁ l₂ hl => ?_
  simp only [alvsStateSyncSetSyncConn, hl.conn, hl.server, hl.status]

theorem coupled_connSendSync : Coupled SameServer alvsConnSendSync fun _ _ _ => True := by
  refine .get_bind (fun l₁ l₂ hl => by rw [hl.status]) fun m => .ite (fun _ => ?_) fun _ =>
    .of_pure fun _ _ _ => trivial
  refine .bind (.of_call _) fun app => ?_
  split
  · refine .ite (fun _ => ?_) fun _ => .of_pure fun _ _ _ => trivial
    exact (coupled_stateSyncSendSingle _ _).mono fun _ _ _ _ => trivial
  · exact .of_pure fun _ _ _ => trivial

theorem coupled_connDoRoute : Coupled SameServer alvsConnDoRoute fun _ _ _ => True := by
  refine .get_bind (fun l₁ l₂ hl => by rw [hl.server, hl.conn]) fun m => .ite (fun _ => ?_) fun _ =>
    (steady_discardAndStats _).mono fun _ _ _ _ => trivial
  refine .bind (steady_nwDoRoute SameServer.withInterface _) fun _ =>
    .bind (J := fun _ => SameServer) ?_ fun _ => coupled_connSendSync
  exact .get_bind (fun l₁ l₂ hl => by rw [hl.server, hl.frameLength]) fun _ =>
    .bind (.of_call _) fun _ => .of_call _

/-! ## The fast path -/

/-- The memories agree on a connection that is bound, or that is dropped for its reset bit. -/
structure SameBound (l₁ l₂ : Cmem) : Prop extends SameConn l₁ l₂ where
  bound : l₁.connInfoResult.bound = true ∨ l₁.connInfoResult.resetBit = true

/-- The part of the fast path after the attempt to bind the connection. -/
def alvsConnRouteBound (tcpHdr : TcpHdr) (connIndex : UInt32) : Dp Unit := do
  if (← get).connInfoResult.resetBit then
    alvsDiscardAndStats .connMarkToDelete
  else if ← alvsConnCheckServer connIndex then
    if ← alvsConnCheckState tcpHdr connIndex then
      alvsConnDoRoute

/-- The lookup of a bound connection's server fills the memory that is read afterwards. -/
theorem coupled_connCheckServer (i : UInt32) :
    Coupled (fun l₁ l₂ => SameConn l₁ l₂ ∧ l₁.connInfoResult.bound = true) (alvsConnCheckServer i)
      fun ok l₁ l₂ => ok = true → SameServer l₁ l₂ := by
  have hdrop {I : Cmem → Cmem → Prop} (e : AlvsErrorStats) :
      Coupled I (alvsDiscardAndStats e >>= fun _ => pure false)
        fun ok l₁ l₂ => ok = true → SameServer l₁ l₂ :=
    .bind (steady_discardAndStats e) fun _ => .of_pure fun _ _ _ => nofun
  refine .get_bind_eq (fun l₁ l₂ hl => by rw [hl.1.conn]) fun m => .ite (fun _ => ?_) fun hb =>
    .of_pure fun l₁ l₂ hl => (hb (hl.2 ▸ hl.1.2)).elim
  refine .bind (J := fun ok l₁ l₂ => ok = true → SameServer l₁ l₂) (.bind (.of_call _) fun r => ?_)
    fun ok => ?_
  · split
    next => exact .of_pure fun _ _ _ => nofun
    next r =>
      refine .bind (.of_modify (J := SameServer) fun l₁ l₂ hl => ⟨⟨hl.1.1.packet, hl.1.1.conn⟩,
        rfl⟩)
        fun _ => .of_pure fun _ _ hl _ => hl
  · cases ok with
    | false => exact hdrop _
    | true =>
      refine .get_bind (fun l₁ l₂ hl => by rw [(hl rfl).server]) fun m => .ite ?_ fun _ => ?_
      · exact fun _ => .of_pure fun _ _ hl _ => hl rfl
      · exact .of_imp (.bind (steady_connMarkToDelete i false) fun _ => hdrop _) fun _ _ hl =>
          hl rfl

theorem coupled_connRouteBound (tcp : TcpHdr) (i : UInt32) :
    Coupled SameBound (alvsConnRouteBound tcp i) fun _ _ _ => True := by
  refine .get_bind_eq (fun l₁ l₂ hl => by rw [hl.conn]) fun m => .ite (fun _ => ?_) fun hr => ?_
  · exact (steady_discardAndStats _).mono fun _ _ _ _ => trivial
  · refine .bind (.of_imp (coupled_connCheckServer i) fun l₁ l₂ hl => ?_) fun ok => ?_
    · exact ⟨hl.1.toSameConn, hl.1.bound.resolve_right fun h => hr (hl.2 ▸ h)⟩
    · cases ok with
      | false => exact .of_pure fun _ _ _ => trivial
      | true =>
        refine .of_imp (.bind (steady_connCheckState tcp i) fun ok => ?_) fun _ _ hl => hl rfl
        exact .ite (fun _ => coupled_connDoRoute) fun _ => .of_pure fun _ _ _ => trivial

/-! ## The attempt to bind -/

/-- The specification of one thread whose calls are recorded. -/
abbrev recSpec (es : Nat → DpEnv) : Spec DpCall DpCall.Res Record :=
  Prog.handlerSpec (recHandle es) fun _ _ => True

theorem wp_rec {es : Nat → DpEnv} {op : DpCall} {Q : op.Res → Cmem → Record → Prop} {m : Cmem}
    {s : Record} : (dpCall op).wp (recSpec es) Q m s ↔
      Q (recHandle es op s).1 m (recHandle es op s).2 := by
  constructor
  · exact fun h => h.2 _ _ rfl
  · refine fun h => ⟨trivial, fun r g' hr => ?_⟩
    obtain ⟨rfl, rfl⟩ := Prod.mk.inj hr
    exact h

/-- A call that routes the packet. -/
def DpEvent.isRoute (ev : DpEvent) : Bool :=
  match ev.1 with
  | .fibLookup _ => true
  | _ => false

/-- The packet was not routed yet. -/
def NotRouted (log : List DpEvent) : Prop := ∀ ev ∈ log, DpEvent.isRoute ev = false

/-- The chip, the memory and the calls when the entry of the connection was found. -/
structure ConnFound (nps : Nps) (i : UInt32) (c : ConnInfoResult) (m : Cmem) (s : Record) :
    Prop where
  nps_eq : s.1 = nps
  calls : s.2.length = 1
  notRouted : NotRouted s.2
  entry : nps.connInfo i = some c
  conn : m.connInfoResult = c

theorem NotRouted.cons {log : List DpEvent} (h : NotRouted log) {ev : DpEvent}
    (hev : ev.isRoute = false) : NotRouted (ev :: log) :=
  List.forall_mem_cons.mpr ⟨hev, h⟩

/-- The calls made in between neither route the packet nor change an entry. -/
structure Unrouted (s s' : Record) : Prop where
  entries : s'.1.connInfo = s.1.connInfo
  notRouted : NotRouted s.2 → NotRouted s'.2

section Execution

variable {es : Nat → DpEnv} {nps : Nps} {i : UInt32} {c : ConnInfoResult} {m : Cmem} {s : Record}

/-- A section up to its lookup, which finds the entry. -/
theorem wp_section {site : ConnSite} {f : UInt32 → Dp Bool} {Q : Bool → Cmem → Record → Prop}
    (hentry : s.1.connInfo i = some c)
    (hf : ∀ h s', Unrouted s s' → (f h).wp (recSpec es) Q { m with connInfoResult := c } s') :
    (alvsLockConnection >>= fun h => alvsConnInfoLookup site i >>= fun found =>
      if found = true then f h else alvsUnlockConnection h >>= fun _ => pure false).wp
      (recSpec es) Q m s := by
  simp only [alvsLockConnection, alvsConnInfoLookup, wp_bind, wp_get]
  refine wp_rec.mpr (wp_rec.mpr ?_)
  simp only [recHandle, dpHandle, hentry, wp_bind, wp_modify, wp_pure, if_true]
  exact hf _ _ ⟨rfl, fun h => (h.cons rfl).cons rfl⟩

/-- The end of a section that modifies the entry. -/
theorem wp_modifyUnlock (hentry : s.1.connInfo i ≠ none) (c' : ConnInfoResult) (h : UInt32) :
    (alvsConnInfoModify i c' >>= fun rc => alvsUnlockConnection h >>= fun _ => pure rc).wp
      (recSpec es) (fun ok m' s' => ok = true ∧ m' = { m with connInfoResult := c' } ∧
        (NotRouted s.2 → NotRouted s'.2)) m s := by
  simp only [alvsConnInfoModify, alvsUnlockConnection, wp_bind, wp_modify]
  refine wp_rec.mpr (wp_rec.mpr ?_)
  simp only [recHandle, dpHandle, if_neg hentry, wp_pure]
  exact ⟨trivial, trivial, fun hnr => (hnr.cons rfl).cons rfl⟩

theorem wp_connBind (hentry : s.1.connInfo i = some c) (hb : c.bound = false) (server : UInt32) :
    (alvsConnBind i server).wp (recSpec es) (fun _ m' _ => m'.connInfoResult.bound = true) m s := by
  refine wp_section hentry fun h s' hs => ?_
  have hentry' : s'.1.connInfo i ≠ none := by simp [hs.entries, hentry]
  simp only [wp_bind, wp_get, hb]
  refine wp_mono (wp_modifyUnlock hentry' _ h) fun _ _ _ hr => ?_
  rw [hr.2.1]

theorem wp_connTryBind_unbound (h : ConnFound nps i c m s)
    (hu : RoutesUnbound es nps m.connClassKey i) : (alvsConnTryBind i).wp (recSpec es)
      (fun _ m' s' => m' = m ∧ s'.1 = nps ∧ NotRouted s'.2) m s := by
  obtain ⟨rfl, hlen, hnr, hentry, rfl⟩ := h
  obtain ⟨c, hc, hb, -, hnone⟩ := hu
  obtain rfl : m.connInfoResult = c := Option.some.inj (hentry.symm.trans hc)
  simp only [alvsConnTryBind, wp_bind, wp_get, alvsFindServerIndex, if_pos hb]
  refine wp_rec.mpr ?_
  have hr : (if (es 1).fails = true then none else s.1.serverClassification
      ⟨m.connInfoResult.serverAddr, m.connClassKey.virtualIp, m.connInfoResult.serverPort,
        m.connClassKey.virtualPort, m.connClassKey.protocol⟩) = none := by
    obtain h | h := hnone <;> simp only [h, if_true, ite_self]
  simp only [recHandle, hlen, dpHandle, hr, wp_pure]
  exact ⟨trivial, trivial, hnr.cons rfl⟩

theorem wp_connTryBind_bound (h : ConnFound nps i c m s)
    (hu : ¬ RoutesUnbound es nps m.connClassKey i) : (alvsConnTryBind i).wp (recSpec es)
      (fun _ m' _ => m'.connInfoResult.bound = true ∨ m'.connInfoResult.resetBit = true) m s := by
  obtain ⟨rfl, hlen, -, hentry, rfl⟩ := h
  simp only [alvsConnTryBind, wp_bind, wp_get, alvsFindServerIndex]
  refine (wp_ite _ _ _ _).mpr ⟨fun hb => ?_, fun hb => .inl (by simpa using hb)⟩
  simp only [wp_bind]
  refine wp_rec.mpr ?_
  simp only [recHandle, hlen, dpHandle]
  split
  next server hr =>
    refine wp_bind_of (f := fun _ => pure ()) (Q := fun _ m' _ => m'.connInfoResult.bound = true)
      ?_ fun _ _ _ h => .inl h
    refine wp_connBind ?_ hb server
    exact hentry
  next hr =>
    refine .inr ?_
    by_contra hreset
    refine hu ⟨_, hentry, hb, by simpa using hreset, ?_⟩
    by_cases hf : (es 1).fails = true
    · exact .inl hf
    · exact .inr (by simpa [hf] using hr)

/-! ## Unbound connections -/

theorem wp_updateConnectionStatistics (sched active inactive : Int) :
    (alvsUpdateConnectionStatistics sched active inactive).wp (recSpec es)
      (fun _ m' s' => m' = m ∧ Unrouted s s') m s := by
  simp only [alvsUpdateConnectionStatistics, wp_bind, wp_get]
  refine wp_rec.mpr (wp_rec.mpr (wp_rec.mpr (wp_rec.mpr ?_)))
  exact ⟨rfl, rfl, fun h => (((h.cons rfl).cons rfl).cons rfl).cons rfl⟩

/-- A change of the entry succeeds, and leaves the server in the memory. -/
def ChangesEntry (m : Cmem) (s : Record) (ok : Bool) (m' : Cmem) (s' : Record) : Prop :=
  ok = true ∧ m'.serverInfoResult = m.serverInfoResult ∧ (NotRouted s.2 → NotRouted s'.2)

/-- A section whose lookup finds the entry, and that changes it. -/
theorem wp_changeSection {site : ConnSite} {f : UInt32 → Dp Bool} (hentry : s.1.connInfo i = some c)
    (hf : ∀ h s', s'.1.connInfo i ≠ none → (f h).wp (recSpec es)
      (ChangesEntry { m with connInfoResult := c } s') { m with connInfoResult := c } s') :
    (alvsLockConnection >>= fun h => alvsConnInfoLookup site i >>= fun found =>
      if found = true then f h else alvsUnlockConnection h >>= fun _ => pure false).wp
      (recSpec es) (ChangesEntry m s) m s := by
  refine wp_section hentry fun h s' hs => wp_mono (hf h s' ?_) fun _ _ _ hr => ?_
  · simp only [hs.entries, hentry, ne_eq, reduceCtorEq, not_false_eq_true]
  · exact ⟨hr.1, hr.2.1, fun hnr => hr.2.2 (hs.notRouted hnr)⟩

theorem wp_exit (h : UInt32) : (alvsUnlockConnection h >>= fun _ => pure true).wp (recSpec es)
    (ChangesEntry m s) m s := by
  rw [wp_bind]
  exact wp_rec.mpr ⟨rfl, rfl, fun hnr => hnr.cons rfl⟩

/-- A section that counts, if `b`, and modifies the entry. -/
theorem wp_countModify (hentry : s.1.connInfo i ≠ none) (b : Prop) [Decidable b]
    (c' : ConnInfoResult) (h : UInt32) :
    ((if b then alvsUpdateConnectionStatistics 0 (-1) 1 else pure ()) >>= fun _ =>
      alvsConnInfoModify i c' >>= fun rc => alvsUnlockConnection h >>= fun _ => pure rc).wp
      (recSpec es) (ChangesEntry m s) m s := by
  have hcount : (if b then alvsUpdateConnectionStatistics 0 (-1) 1 else pure ()).wp (recSpec es)
      (fun _ m' s' => m' = m ∧ Unrouted s s') m s :=
    (wp_ite _ _ _ _).mpr ⟨fun _ => wp_updateConnectionStatistics 0 (-1) 1,
      fun _ => ⟨rfl, rfl, id⟩⟩
  refine wp_bind_of hcount ?_
  rintro - _ s' ⟨rfl, hs⟩
  have hentry' : s'.1.connInfo i ≠ none := by rwa [hs.entries]
  refine wp_mono (wp_modifyUnlock hentry' c' h) ?_
  rintro ok m' s'' ⟨hok, rfl, hnr⟩
  exact ⟨hok, rfl, fun h => hnr (hs.notRouted h)⟩

theorem wp_connMarkToDelete (hentry : s.1.connInfo i = some c) (reset : Bool) :
    (alvsConnMarkToDelete i reset).wp (recSpec es) (ChangesEntry m s) m s := by
  refine wp_changeSection hentry fun h s' hentry' => ?_
  rw [wp_bind, wp_get]
  exact (wp_ite _ _ _ _).mpr ⟨fun _ => wp_exit h, fun _ => wp_countModify hentry' _ _ h⟩

theorem wp_connRefresh (hentry : s.1.connInfo i = some c) :
    (alvsConnRefresh i).wp (recSpec es) (ChangesEntry m s) m s := by
  refine wp_changeSection hentry fun h s' hentry' => ?_
  rw [wp_bind, wp_get]
  refine wp_mono (wp_modifyUnlock hentry' _ h) ?_
  rintro ok m' s'' ⟨hok, rfl, hnr⟩
  exact ⟨hok, rfl, hnr⟩

theorem wp_connUpdateState (hentry : s.1.connInfo i = some c) (st : UInt8) :
    (alvsConnUpdateState i st).wp (recSpec es) (ChangesEntry m s) m s := by
  refine wp_changeSection hentry fun h s' hentry' => ?_
  rw [wp_bind, wp_get]
  refine (wp_ite _ _ _ _).mpr ⟨fun _ => wp_exit h, fun _ => ?_⟩
  refine wp_bind_of (wp_updateConnectionStatistics 0 (-1) 1) ?_
  rintro - _ s'' ⟨rfl, hs'⟩
  have hentry'' : s''.1.connInfo i ≠ none := by rwa [hs'.entries]
  simp only [alvsConnInfoModify, alvsUnlockConnection, wp_bind, wp_modify]
  refine wp_rec.mpr (wp_rec.mpr ?_)
  simp only [recHandle, dpHandle, if_neg hentry'', wp_pure]
  exact ⟨rfl, rfl, fun hnr => ((hs'.notRouted hnr).cons rfl).cons rfl⟩

theorem wp_connCheckState (tcp : TcpHdr) (hentry : s.1.connInfo i = some c) :
    (alvsConnCheckState tcp i).wp (recSpec es) (ChangesEntry m s) m s := by
  have hchange {x : Dp Bool} (hx : x.wp (recSpec es) (ChangesEntry m s) m s) :
      (x >>= fun ok => if ok = true then pure true
        else alvsDiscardAndStats .cantUpdateConnectionState >>= fun _ => pure false).wp
        (recSpec es) (ChangesEntry m s) m s := by
    refine wp_bind_of hx fun ok m' s' hr => ?_
    rw [hr.1, if_pos rfl]
    exact ⟨rfl, hr.2⟩
  simp only [alvsConnCheckState, wp_bind, wp_get]
  refine (wp_ite _ _ _ _).mpr ⟨fun _ => ?_, fun _ => (wp_ite _ _ _ _).mpr ⟨fun _ => ?_, fun _ =>
    (wp_ite _ _ _ _).mpr ⟨fun _ => ?_, fun _ => ⟨rfl, rfl, id⟩⟩⟩⟩
  · exact wp_bind_of (wp_connMarkToDelete hentry true) fun _ _ _ hr => ⟨rfl, hr.2⟩
  · exact hchange (wp_connUpdateState hentry _)
  · exact hchange (wp_connRefresh hentry)

/-- The packet was routed. -/
def Routed (s : Record) : Prop := ∃ ev ∈ s.2, DpEvent.isRoute ev = true

theorem NotRouted.not_routed {s : Record} (h : NotRouted s.2) : ¬ Routed s := by
  rintro ⟨ev, hev, hr⟩
  rw [h ev hev] at hr
  exact Bool.false_ne_true hr

/-- Whether a packet of an unbound connection is routed depends on the server that is left
in the memory. -/
theorem wp_connDoRoute (hnr : NotRouted s.2) : alvsConnDoRoute.wp (recSpec es) (fun _ _ s' =>
    Routed s' ↔ m.serverInfoResult.connFlags &&& ipVsConnFFwdMask = ipVsConnFDroute) m s := by
  have hany {α : Type} (x : Dp α) : Triple (recSpec es) Routed x Routed := by
    refine .of_invariant (fun s op hs => ⟨trivial, ?_⟩) x
    rintro _ _ ⟨⟩
    exact hs.imp fun _ hev => ⟨List.mem_cons_of_mem _ hev.1, hev.2⟩
  have hroute (destIp : UInt32) :
      Triple (recSpec es) (fun _ => True) (nwDoRoute destIp) Routed := by
    refine .bind (.bind (.of_call fun s _ => ⟨trivial, ?_⟩) fun _ => hany _) fun _ => hany _
    rintro _ _ ⟨⟩
    exact ⟨_, List.mem_cons_self, rfl⟩
  rw [alvsConnDoRoute, wp_bind, wp_get]
  split
  next hd =>
    have hwp := Triple.bind (hroute (if m.connInfoResult.bound then m.serverInfoResult.serverIp
      else m.connInfoResult.serverAddr)) (fun _ => hany (alvsUpdateIncomingTrafficStats >>=
      fun _ => alvsConnSendSync)) m s trivial
    exact wp_mono hwp fun _ _ _ h => iff_of_true h hd
  next hd =>
    simp only [alvsDiscardAndStats, alvsUpdateDiscardStatistics, alvsDiscardFrame, wp_bind]
    exact wp_rec.mpr (wp_rec.mpr (iff_of_false (NotRouted.not_routed ((hnr.cons rfl).cons rfl)) hd))

theorem wp_connRouteBound (tcp : TcpHdr) (hentry : s.1.connInfo i = some c) (hnr : NotRouted s.2)
    (hb : m.connInfoResult.bound = false) (hr : m.connInfoResult.resetBit = false) :
    (alvsConnRouteBound tcp i).wp (recSpec es) (fun _ _ s' => Routed s' ↔
      m.serverInfoResult.connFlags &&& ipVsConnFFwdMask = ipVsConnFDroute) m s := by
  simp only [alvsConnRouteBound, alvsConnCheckServer, wp_bind, wp_get, hb, hr, Bool.false_eq_true,
    if_false, wp_pure, if_true]
  refine wp_mono (wp_connCheckState tcp hentry) ?_
  rintro _ m' s' ⟨rfl, hserver, hnr'⟩
  rw [if_pos rfl, ← hserver]
  exact wp_connDoRoute (hnr' hnr)

end Execution

/-! ## The outcome -/

theorem wp_dataPathLookup {es : Nat → DpEnv} (nps : Nps) (i : UInt32) (m : Cmem) :
    (alvsConnInfoLookup .dataPath i).wp (recSpec es) (fun found m' s' =>
      found = (nps.connInfo i).isSome ∧ (found = true →
        m'.packetData = m.packetData ∧ m'.serverInfoResult = m.serverInfoResult ∧
        ∃ c, ConnFound nps i c m' s')) m (nps, []) := by
  simp only [alvsConnInfoLookup, wp_bind]
  refine wp_rec.mpr ?_
  simp only [recHandle, dpHandle]
  split
  next h => exact ⟨by rw [h]; rfl, by simp⟩
  next c h =>
    refine ⟨by rw [h]; rfl, fun _ => ⟨rfl, rfl, c, rfl, rfl, ?_, h, rfl⟩⟩
    exact List.forall_mem_cons.mpr ⟨rfl, fun _ hev => (List.not_mem_nil hev).elim⟩

/-- On a connection that is not bound and not reset, the packet is routed if and only if the
server that is left in the memory is one of direct routing. -/
theorem dataPathOutcome_unbound {es : Nat → DpEnv} {nps : Nps} {i : UInt32} {m : Cmem}
    (tcp : TcpHdr) (hu : RoutesUnbound es nps m.connClassKey i) :
    Routed (dataPathOutcome es nps tcp i m) ↔
      m.serverInfoResult.connFlags &&& ipVsConnFFwdMask = ipVsConnFDroute := by
  refine Prog.exec_of_wp (recHandle es) (fun _ _ => True) _ (Q := fun _ s' => Routed s' ↔
    m.serverInfoResult.connFlags &&& ipVsConnFFwdMask = ipVsConnFDroute) ?_
  change (alvsConnDataPath tcp i).wp (recSpec es) (fun _ _ s' => Routed s' ↔
    m.serverInfoResult.connFlags &&& ipVsConnFFwdMask = ipVsConnFDroute) m (nps, [])
  have hu' := hu
  obtain ⟨c, hentry, hb, hr, -⟩ := hu
  refine wp_bind_of (wp_dataPathLookup nps i m) ?_
  rintro _ m' s ⟨rfl, h⟩
  rw [if_pos (by rw [hentry]; rfl)]
  obtain ⟨hpacket, hserver, c', hfound⟩ := h (by rw [hentry]; rfl)
  obtain rfl : c' = c := Option.some.inj (hfound.entry.symm.trans hentry)
  have hkey : m'.connClassKey = m.connClassKey := congrArg (·.connClassKey) hpacket
  refine wp_bind_of (wp_connTryBind_unbound hfound (hkey ▸ hu')) ?_
  rintro - _ ⟨_, log⟩ ⟨rfl, rfl, hnr⟩
  rw [← hserver]
  exact wp_connRouteBound tcp hentry hnr (hfound.conn ▸ hb) (hfound.conn ▸ hr)

/-- A memory with the data of a packet, and a server with the given flags. -/
def Cmem.leftOver (p : PacketData) (connFlags : UInt32) : Cmem :=
  { Cmem.zero with
    connClassKey := p.connClassKey
    connSyncState := { Cmem.zero.connSyncState with connSyncStatus := p.connSyncStatus }
    frameLength := p.frameLength
    serverInfoResult := { Cmem.zero.serverInfoResult with connFlags := connFlags } }

/-- For every packet, connection, chip and result of the calls : the outcome does not depend
on what earlier packets left in the memory, if and only if the packet is not forwarded on an
unbound connection. -/
theorem scratchFree_iff (p : PacketData) (tcp : TcpHdr) (i : UInt32) (nps : Nps)
    (es : Nat → DpEnv) :
    (∀ m₁ m₂ : Cmem, m₁.packetData = p → m₂.packetData = p →
      dataPathOutcome es nps tcp i m₁ = dataPathOutcome es nps tcp i m₂) ↔
    ¬ RoutesUnbound es nps p.connClassKey i := by
  constructor
  · intro h hu
    have hrouted := (dataPathOutcome_unbound (m := .leftOver p ipVsConnFDroute) tcp hu).mpr
      (show ipVsConnFDroute &&& ipVsConnFFwdMask = ipVsConnFDroute by decide)
    rw [h (.leftOver p ipVsConnFDroute) (.leftOver p 0) rfl rfl] at hrouted
    have hzero : 0 &&& ipVsConnFFwdMask = ipVsConnFDroute :=
      (dataPathOutcome_unbound (m := .leftOver p 0) tcp hu).mp hrouted
    exact absurd hzero (by decide)
  · rintro hu m₁ m₂ rfl h₂
    refine Coupled.exec_bind (coupled_connInfoLookup (I := SamePacket) (J := SameConn) _ i
      fun l₁ l₂ c hl => ⟨hl, rfl⟩) _ h₂.symm ?_
    rintro found m₁' m₂' s hlookup hsame
    cases found with
    | false => exact ((steady_discardAndStats _ _ _ hsame).exec _ _).2
    | true =>
      have hfound := Prog.exec_of_wp (recHandle es) (fun _ _ => True) _
        (wp_dataPathLookup nps i m₁)
      rw [hlookup] at hfound
      obtain ⟨hpacket, -, c, hfound⟩ := hfound.2 rfl
      have hkey : m₁'.connClassKey = m₁.connClassKey := congrArg (·.connClassKey) hpacket
      refine (steady_connTryBind i).exec_bind _ hsame ?_
      rintro ⟨⟩ m₁'' m₂'' s' hbind hsame'
      refine ((coupled_connRouteBound tcp i _ _ ⟨hsame', ?_⟩).exec _ _).2
      have hbound := Prog.exec_of_wp _ _ _ (wp_connTryBind_bound hfound (by rwa [hkey]))
      rwa [hbind] at hbound

/-- A chip with an unbound connection at index 0 whose server is not known. -/
def unboundNps : Nps :=
  { Sys.init.nps with
    connInfo := fun i =>
      if i = 0 then some (newConnInfo ⟨0x0a000001, 0x0a0000fe, 4000, 80, 6⟩ false 0x0a000002 80 1
        ipVsConnFDroute false)
      else none }

/-- A packet of the connection is routed if the last server was one of direct routing, and
dropped otherwise. -/
theorem scratchFree_fails :
    ¬ ∀ m₁ m₂ : Cmem, m₁.packetData = m₂.packetData →
      dataPathOutcome (fun _ => exampleEnv) unboundNps ⟨4000, 80, false, false⟩ 0 m₁ =
      dataPathOutcome (fun _ => exampleEnv) unboundNps ⟨4000, 80, false, false⟩ 0 m₂ := by
  intro h
  have hout (flags : UInt32) : ((dataPathOutcome (fun _ => exampleEnv) unboundNps
      ⟨4000, 80, false, false⟩ 0 (.leftOver Cmem.zero.packetData flags)).2.any DpEvent.isRoute) =
      ((dataPathOutcome (fun _ => exampleEnv) unboundNps
      ⟨4000, 80, false, false⟩ 0 (.leftOver Cmem.zero.packetData 0)).2.any DpEvent.isRoute) :=
    congrArg (fun s : Record => s.2.any DpEvent.isRoute) (h _ _ rfl)
  exact absurd (hout ipVsConnFDroute) (by decide +kernel)

end Alvs
