import Alvs.Dp.Flow

/-!
# One server for each flow

What a thread does with a packet meets `flowSpec` : where its first lookup has missed and it
schedules the connection, where the scheduler refuses it, where it finds the entry of another
thread under the lock, and on the fast path. So in every run of threads that handle packets
of one connection, one server gets them all (`oneServer_run`).
-/

namespace Alvs

open ProgLogic LProg

/-! ## Functions that route no packet -/

/-- A call that touches neither the tables of connections nor the FIB. -/
def DpCall.OffRoute : DpCall → Prop
  | fibLookup _ => False
  | op => op.OffConn

/-- From any memory, the program routes no packet and leaves the connection and its server. -/
abbrev OffRoute {α : Type} (x : Dp α) : Prop := x.Makes DpCall.OffRoute Cmem.Same

theorem offRoute_discardAndStats (e : AlvsErrorStats) : OffRoute (alvsDiscardAndStats e) :=
  .bind (.of_call trivial) fun _ => .of_call trivial

theorem offRoute_interfaceLookup (id : UInt32) : OffRoute (nwInterfaceLookup id) := by
  refine .bind (.of_call trivial) fun r => ?_
  split
  · exact .of_pure _
  · exact .bind (.of_modify fun _ => ⟨rfl, rfl, rfl, rfl⟩) fun _ => .of_pure _

theorem offRoute_sendFrameToNetwork (id : UInt32) : OffRoute (nwSendFrameToNetwork id) := by
  refine .bind (.of_call trivial) fun _ => .bind (offRoute_interfaceLookup _) fun _ => ?_
  exact .ite (.get_bind fun _ => .of_call trivial) (offRoute_discardAndStats _)

theorem offRoute_arpProcessing (destIp : UInt32) : OffRoute (nwArpProcessing destIp) := by
  refine .bind (.of_call trivial) fun r => ?_
  split
  · exact .bind (.of_call trivial) fun _ => offRoute_sendFrameToNetwork _
  · exact .bind (.of_call trivial) fun _ => .of_call trivial

theorem offRoute_hostDoRoute : OffRoute nwHostDoRoute := by
  refine .bind (.of_call trivial) fun r => ?_
  split
  all_goals exact .of_call trivial

theorem offRoute_sendToHost (c : NwIfStats) : OffRoute (alvsSendToHost c) :=
  .bind (.of_call trivial) fun _ => offRoute_hostDoRoute

theorem offRoute_updateConnectionStatistics (s a i : Int) :
    OffRoute (alvsUpdateConnectionStatistics s a i) :=
  .get_bind fun _ => .bind (.of_call trivial) fun _ => .bind (.of_call trivial) fun _ =>
    .bind (.of_call trivial) fun _ => .of_call trivial

theorem offRoute_updateIncomingTrafficStats : OffRoute alvsUpdateIncomingTrafficStats :=
  .get_bind fun _ => .bind (.of_call trivial) fun _ => .of_call trivial

theorem offRoute_connSendSync : OffRoute alvsConnSendSync := by
  refine .get_bind fun m => .ite (.bind (.of_call trivial) fun app => ?_) (.of_pure _)
  split
  · refine .ite (.bind ?_ fun _ => .get_bind fun _ => .bind (.of_call trivial) fun _ =>
      .bind (.of_call trivial) fun _ => .ite (offRoute_sendFrameToNetwork _) (.of_pure _))
      (.of_pure _)
    exact .bind (.of_discard (offRoute_interfaceLookup _)) fun _ =>
      .of_modify fun _ => ⟨rfl, rfl, rfl, rfl⟩
  · exact .of_pure _

theorem offRoute_serviceInfoLookup (i : UInt8) : OffRoute (alvsServiceInfoLookup i) := by
  refine .bind (.of_call trivial) fun r => ?_
  split
  · exact .of_pure _
  · exact .bind (.of_modify fun _ => ⟨rfl, rfl, rfl, rfl⟩) fun _ => .of_pure _

theorem offRoute_checkActiveServers : OffRoute alvsSchedCheckActiveServers :=
  .get_bind fun _ => .ite (.bind (offRoute_discardAndStats _) fun _ => .of_pure _) (.of_pure _)

theorem offRoute_shGetSchedulingIndex (sip : UInt32) (sport : UInt16) :
    OffRoute (alvsSchedShGetSchedulingIndex sip sport) :=
  .bind (.of_call trivial) fun _ => .bind (.of_call trivial) fun _ => .of_call trivial

theorem offRoute_overloadOnCreateConn (i : UInt16) :
    OffRoute (alvsServerOverloadOnCreateConn i) := by
  refine .get_bind fun _ => .bind (.of_call trivial) fun _ => .bind (.of_call trivial) fun _ => ?_
  refine .ite (.of_pure _) (.ite (.ite ?_ ?_) (.ite ?_ (.ite ?_ (.ite ?_ (.of_pure _)))))
  all_goals repeat refine .bind (.of_call trivial) fun _ => ?_
  all_goals exact .of_pure _

theorem offRoute_overloadOnDeleteConn (i : UInt16) :
    OffRoute (alvsServerOverloadOnDeleteConn i) :=
  .get_bind fun _ => .bind (.of_call trivial) fun _ =>
    .ite (.of_call trivial) (.ite (.ite (.of_call trivial) (.of_pure _))
      (.ite (.of_call trivial) (.of_pure _)))

section Programs

variable {bulkHash : ConnClassificationKey → UInt32} {key : ConnClassificationKey}
  {servers : UInt32 → Option ServerInfoResult} {m : Cmem} {g : FlowView} {i server : UInt32}

theorem silent_offRoute : Silent (flowSpec bulkHash key servers) DpCall.OffRoute := by
  intro g op hop
  cases op <;> first | exact hop.elim | exact ⟨trivial, fun _ _ h => h⟩ | skip
  exact ⟨trivial, fun _ _ h => h.1⟩

theorem OffRoute.wp {α : Type} {x : Dp α} (hx : OffRoute x) :
    x.wp (flowSpec bulkHash key servers) (fun _ m' g' => m.Same m' ∧ g' = g) m g :=
  Makes.wp silent_offRoute hx m g

/-! ## Routing -/

/-- The server of the entry that the thread has found is in `server_info_result`. -/
def FlowView.Serves (servers : UInt32 → Option ServerInfoResult) (g : FlowView) (m : Cmem) : Prop :=
  ∃ i server, g.known = some (i, server) ∧ servers server = some m.serverInfoResult

theorem wp_flowDoRoute (hserves : g.Serves servers m) (hbound : m.connInfoResult.bound = true) :
    alvsConnDoRoute.wp (flowSpec bulkHash key servers) (fun _ _ g' => g' = g) m g := by
  obtain ⟨i, server, hknown, hserver⟩ := hserves
  rw [alvsConnDoRoute, wp_bind, wp_get]
  refine (wp_ite _ _ _ _).mpr ⟨fun _ => ?_, fun _ => ?_⟩
  · have hfib : (nwFibProcessing m.serverInfoResult.serverIp).wp (flowSpec bulkHash key servers)
        (fun _ _ g' => g' = g) m g := by
      rw [nwFibProcessing, wp_bind, wp_call]
      refine ⟨⟨i, server, _, hknown, hserver, rfl⟩, ?_⟩
      rintro r g' rfl
      split
      case h_1 | h_4 | h_5 => exact ⟨trivial, fun _ _ h => h⟩
      all_goals rfl
    have hroute : (nwDoRoute m.serverInfoResult.serverIp).wp (flowSpec bulkHash key servers)
        (fun _ _ g' => g' = g) m g := by
      refine wp_bind_of hfib ?_
      rintro destIp m₁ g₁ rfl
      refine (wp_ite _ _ _ _).mpr ⟨fun _ => ⟨trivial, fun _ _ h => h⟩, fun _ => ?_⟩
      exact wp_mono (offRoute_arpProcessing destIp).wp fun _ _ _ h => h.2
    rw [if_pos hbound]
    refine wp_bind_of hroute ?_
    rintro _ m₁ g₁ rfl
    refine wp_bind_of offRoute_updateIncomingTrafficStats.wp ?_
    rintro _ m₂ g₂ ⟨-, rfl⟩
    exact wp_mono offRoute_connSendSync.wp fun _ _ _ h => h.2
  · exact wp_mono (offRoute_discardAndStats _).wp fun _ _ _ h => h.2

/-- The information of a server is that of the table. -/
theorem wp_flowServerInfoLookup (j : UInt32) :
    (alvsServerInfoLookup j).wp (flowSpec bulkHash key servers) (fun found m' g' => g' = g ∧
      m'.connClassKey = m.connClassKey ∧ m'.connInfoResult = m.connInfoResult ∧
      m'.schedServerIndex = m.schedServerIndex ∧
      (found = true → servers j = some m'.serverInfoResult)) m g := by
  rw [alvsServerInfoLookup, wp_bind, wp_call]
  refine ⟨trivial, ?_⟩
  rintro r g' ⟨rfl, hr⟩
  cases r with
  | none => exact ⟨rfl, rfl, rfl, rfl, nofun⟩
  | some info => exact ⟨rfl, rfl, rfl, rfl, fun _ => hr.symm⟩

/-! ## Changes of the entry -/

theorem wp_flowLock (hkey : m.connClassKey = key) (hg : g.phase = .outside) :
    alvsLockConnection.wp (flowSpec bulkHash key servers) (fun h m' g' =>
      h = bulkHash key ∧ m' = m ∧ g' = { g with phase := .locked }) m g := by
  rw [alvsLockConnection, wp_bind, wp_get, wp_call]
  refine ⟨⟨hkey, hg⟩, ?_⟩
  rintro h g' ⟨rfl, rfl⟩
  exact ⟨rfl, rfl, rfl⟩

theorem wp_flowUnlock (hg : g.phase = .locked ∨ g.phase = .absent) :
    (alvsUnlockConnection (bulkHash key)).wp (flowSpec bulkHash key servers) (fun _ m' g' =>
      m' = m ∧ g' = { g with phase := .outside }) m g := by
  refine ⟨⟨rfl, hg⟩, ?_⟩
  rintro _ g' rfl
  exact ⟨rfl, rfl⟩

/-- The entry that the thread has found is there. -/
theorem wp_flowInfoLookup (site : ConnSite) (hknown : g.known = some (i, server)) :
    (alvsConnInfoLookup site i).wp (flowSpec bulkHash key servers) (fun found m' g' =>
      found = true ∧ g' = g ∧ ∃ c, c.Of key server ∧ m' = { m with connInfoResult := c }) m g := by
  rw [alvsConnInfoLookup, wp_bind, wp_call]
  refine ⟨⟨server, hknown⟩, ?_⟩
  rintro r g' ⟨rfl, hr⟩
  obtain ⟨c, rfl, hc⟩ := hr server hknown
  exact ⟨rfl, rfl, c, hc, rfl⟩

/-- The memory of a thread on the fast path has the key, the entry and its server. -/
structure Cmem.OnPath (key : ConnClassificationKey) (server : UInt32) (info : ServerInfoResult)
    (m : Cmem) : Prop where
  connKey : m.connClassKey = key
  entry : m.connInfoResult.Of key server
  serverInfo : m.serverInfoResult = info

variable {info : ServerInfoResult}

theorem Cmem.OnPath.of_same {m' : Cmem} (hm : m.OnPath key server info) (h : m.Same m') :
    m'.OnPath key server info :=
  ⟨h.key.trans hm.connKey, h.conn ▸ hm.entry, h.server.trans hm.serverInfo⟩

theorem wp_flowInfoModify {c : ConnInfoResult} (hm : m.OnPath key server info)
    (hg : g.phase = .locked) (hknown : g.known = some (i, server)) (hc : c.Of key server) :
    (alvsConnInfoModify i c).wp (flowSpec bulkHash key servers) (fun _ m' g' =>
      g' = g ∧ m'.OnPath key server info) m g := by
  rw [alvsConnInfoModify, wp_bind, wp_modify, wp_call]
  refine ⟨⟨hg, server, hknown, hc⟩, ?_⟩
  rintro r g' rfl
  exact ⟨rfl, hm.connKey, hc, hm.serverInfo⟩

/-- The section of a thread on the fast path : the lock, and the entry again. -/
theorem wp_flowSection {β : Type} (site : ConnSite) {f : UInt32 → Bool → Dp β}
    (hm : m.OnPath key server info) (hg : g.phase = .outside)
    (hknown : g.known = some (i, server)) {Q : β → Cmem → FlowView → Prop}
    (hf : ∀ m', m'.OnPath key server info → (f (bulkHash key) true).wp
      (flowSpec bulkHash key servers) Q m' { g with phase := .locked }) :
    (do
      let hashValue ← alvsLockConnection
      let found ← alvsConnInfoLookup site i
      f hashValue found).wp (flowSpec bulkHash key servers) Q m g := by
  refine wp_bind_of (wp_flowLock hm.connKey hg) ?_
  rintro h m₁ g₁ ⟨rfl, rfl, rfl⟩
  refine wp_bind_of (wp_flowInfoLookup site hknown) ?_
  rintro found m₂ g₂ ⟨rfl, rfl, c, hc, rfl⟩
  exact hf _ ⟨hm.connKey, hc, hm.serverInfo⟩

/-- A section ends, with a result. -/
theorem wp_flowEnd {β : Type} {b : β} (hm : m.OnPath key server info) (hg : g.phase = .outside) :
    (do
      alvsUnlockConnection (bulkHash key)
      pure b).wp (flowSpec bulkHash key servers) (fun _ m' g' => g' = g ∧ m'.OnPath key server info)
      m { g with phase := .locked } := by
  refine wp_bind_of (wp_flowUnlock (.inl rfl)) ?_
  rintro _ m' g' ⟨rfl, rfl⟩
  exact ⟨by rw [← hg], hm⟩

variable (hm : m.OnPath key server info) (hg : g.phase = .outside)
  (hknown : g.known = some (i, server))
include hm hg hknown

theorem wp_flowRefresh : (alvsConnRefresh i).wp (flowSpec bulkHash key servers)
    (fun _ m' g' => g' = g ∧ m'.OnPath key server info) m g := by
  refine wp_flowSection .refresh hm hg hknown fun m₁ hm₁ => ?_
  rw [if_pos rfl, wp_bind, wp_get]
  refine wp_bind_of (wp_flowInfoModify hm₁ rfl hknown ⟨hm₁.entry.key, hm₁.entry.bound,
    hm₁.entry.server⟩) ?_
  rintro rc m₂ g₂ ⟨rfl, hm₂⟩
  exact wp_flowEnd hm₂ hg

theorem wp_flowMarkToDelete (reset : Bool) :
    (alvsConnMarkToDelete i reset).wp (flowSpec bulkHash key servers)
      (fun _ m' g' => g' = g ∧ m'.OnPath key server info) m g := by
  refine wp_flowSection (.markToDelete reset) hm hg hknown fun m₁ hm₁ => ?_
  rw [if_pos rfl, wp_bind, wp_get]
  refine (wp_ite _ _ _ _).mpr ⟨fun _ => wp_flowEnd hm₁ hg, fun _ => ?_⟩
  have hstats : OffRoute (if m₁.connInfoResult.closesOnReset reset then
      alvsUpdateConnectionStatistics 0 (-1) 1 else pure ()) :=
    .ite (offRoute_updateConnectionStatistics _ _ _) (.of_pure _)
  refine wp_bind_of hstats.wp ?_
  rintro _ m₂ g₂ ⟨hsame, rfl⟩
  refine wp_bind_of (wp_flowInfoModify (hm₁.of_same hsame) rfl hknown ⟨hm₁.entry.key,
    hm₁.entry.bound, hm₁.entry.server⟩) ?_
  rintro rc m₃ g₃ ⟨rfl, hm₃⟩
  exact wp_flowEnd hm₃ hg

theorem wp_flowUpdateState (st : UInt8) :
    (alvsConnUpdateState i st).wp (flowSpec bulkHash key servers)
      (fun _ m' g' => g' = g ∧ m'.OnPath key server info) m g := by
  refine wp_flowSection .updateState hm hg hknown fun m₁ hm₁ => ?_
  rw [if_pos rfl, wp_bind, wp_get]
  refine (wp_ite _ _ _ _).mpr ⟨fun _ => wp_flowEnd hm₁ hg, fun _ => ?_⟩
  refine wp_bind_of (offRoute_updateConnectionStatistics _ _ _).wp ?_
  rintro _ m₂ g₂ ⟨hsame, rfl⟩
  refine wp_bind_of (wp_flowInfoModify (hm₁.of_same hsame) rfl hknown ⟨hm₁.entry.key,
    hm₁.entry.bound, hm₁.entry.server⟩) ?_
  rintro rc m₃ g₃ ⟨rfl, hm₃⟩
  rw [wp_bind, wp_modify]
  exact wp_flowEnd ⟨hm₃.connKey, hm₃.entry, hm₃.serverInfo⟩ hg

theorem wp_flowCheckState (tcp : TcpHdr) :
    (alvsConnCheckState tcp i).wp (flowSpec bulkHash key servers)
      (fun _ m' g' => g' = g ∧ m'.OnPath key server info) m g := by
  rw [alvsConnCheckState, wp_bind, wp_get]
  have hdrop : ∀ m₁, m₁.OnPath key server info →
      (alvsDiscardAndStats .cantUpdateConnectionState >>= fun _ => pure false).wp
        (flowSpec bulkHash key servers) (fun _ m' g' => g' = g ∧ m'.OnPath key server info) m₁ g :=
    fun m₁ hm₁ => by
      refine wp_bind_of (offRoute_discardAndStats _).wp ?_
      rintro _ m₂ g₂ ⟨hsame, rfl⟩
      exact ⟨rfl, hm₁.of_same hsame⟩
  refine (wp_ite _ _ _ _).mpr ⟨fun _ => ?_, fun _ => (wp_ite _ _ _ _).mpr ⟨fun _ => ?_, fun _ =>
    (wp_ite _ _ _ _).mpr ⟨fun _ => ?_, fun _ => ⟨rfl, hm⟩⟩⟩⟩
  · exact wp_bind_of (wp_flowMarkToDelete hm hg hknown true) fun _ _ _ h => h
  · refine wp_bind_of (wp_flowUpdateState hm hg hknown _) ?_
    rintro rc m₁ g₁ ⟨rfl, hm₁⟩
    exact (wp_ite _ _ _ _).mpr ⟨fun _ => ⟨rfl, hm₁⟩, fun _ => hdrop m₁ hm₁⟩
  · refine wp_bind_of (wp_flowRefresh hm hg hknown) ?_
    rintro rc m₁ g₁ ⟨rfl, hm₁⟩
    exact (wp_ite _ _ _ _).mpr ⟨fun _ => ⟨rfl, hm₁⟩, fun _ => hdrop m₁ hm₁⟩

omit hm in
/-- The server of the entry is looked up, and the packet goes on only if it is there. -/
theorem wp_flowCheckServer (hkey : m.connClassKey = key) (hentry : m.connInfoResult.Of key server) :
    (alvsConnCheckServer i).wp (flowSpec bulkHash key servers) (fun found m' g' => g' = g ∧
      (found = true → ∃ info, servers server = some info ∧ m'.OnPath key server info)) m g := by
  rw [alvsConnCheckServer, wp_bind, wp_get, if_pos hentry.bound, hentry.server]
  refine wp_bind_of (wp_flowServerInfoLookup server) ?_
  rintro found m₁ g₁ ⟨rfl, hkey₁, hconn₁, -, hfound⟩
  refine (wp_ite _ _ _ _).mpr ⟨fun hf => ?_, fun _ => ?_⟩
  · have hm₁ : m₁.OnPath key server m₁.serverInfoResult :=
      ⟨hkey₁.trans hkey, hconn₁ ▸ hentry, rfl⟩
    rw [wp_bind, wp_get]
    refine (wp_ite _ _ _ _).mpr ⟨fun _ => ⟨rfl, fun _ => ⟨_, hfound hf, hm₁⟩⟩, fun _ => ?_⟩
    refine wp_bind_of (wp_flowMarkToDelete hm₁ hg hknown false) ?_
    rintro marked m₂ g₂ ⟨rfl, -⟩
    refine wp_bind_of (offRoute_discardAndStats _).wp ?_
    rintro _ m₃ g₃ ⟨-, rfl⟩
    exact ⟨rfl, nofun⟩
  · refine wp_bind_of (offRoute_discardAndStats _).wp ?_
    rintro _ m₂ g₂ ⟨-, rfl⟩
    exact ⟨rfl, nofun⟩

omit hm in
/-- The fast path. The entry is bound, so there is nothing to bind. -/
theorem wp_flowDataPath (tcp : TcpHdr) (hkey : m.connClassKey = key) :
    (alvsConnDataPath tcp i).wp (flowSpec bulkHash key servers) (fun _ _ g' => g' = g) m g := by
  have hdrop (e : AlvsErrorStats) (m₁ : Cmem) : (alvsDiscardAndStats e).wp
      (flowSpec bulkHash key servers) (fun _ _ g' => g' = g) m₁ g :=
    wp_mono (offRoute_discardAndStats e).wp fun _ _ _ h => h.2
  refine wp_bind_of (wp_flowInfoLookup .dataPath hknown) ?_
  rintro found m₁ g₁ ⟨rfl, rfl, c, hc, rfl⟩
  rw [if_pos rfl, wp_bind, alvsConnTryBind, wp_bind, wp_get]
  rw [if_neg (by rw [hc.bound]; exact Bool.noConfusion), wp_pure, wp_bind, wp_get]
  refine (wp_ite _ _ _ _).mpr ⟨fun _ => hdrop _ _, fun _ => ?_⟩
  refine wp_bind_of (wp_flowCheckServer hg hknown hkey hc) ?_
  rintro found m₂ g₂ ⟨rfl, hfound⟩
  refine (wp_ite _ _ _ _).mpr ⟨fun hf => ?_, fun _ => rfl⟩
  obtain ⟨info, hinfo, hm₂⟩ := hfound hf
  refine wp_bind_of (wp_flowCheckState hm₂ hg hknown tcp) ?_
  rintro ok m₃ g₃ ⟨rfl, hm₃⟩
  refine (wp_ite _ _ _ _).mpr ⟨fun _ => ?_, fun _ => rfl⟩
  exact wp_flowDoRoute ⟨i, server, hknown, hm₃.serverInfo ▸ hinfo⟩ hm₃.entry.bound

end Programs

/-! ## Scheduling -/

/-- The information of the scheduled server is in `server_info_result`. -/
def Cmem.Chose (servers : UInt32 → Option ServerInfoResult) (m : Cmem) : Prop :=
  servers m.schedServerIndex = some m.serverInfoResult

/-- The program keeps the key, and where its result meets `p`, a server was chosen. -/
def Chooses {α : Type} (bulkHash : ConnClassificationKey → UInt32) (key : ConnClassificationKey)
    (servers : UInt32 → Option ServerInfoResult) (x : Dp α) (p : α → Prop) : Prop :=
  ∀ m g, m.connClassKey = key → x.wp (flowSpec bulkHash key servers) (fun r m' g' =>
    g' = g ∧ m'.connClassKey = key ∧ (p r → m'.Chose servers)) m g

section Scheduling

variable {bulkHash : ConnClassificationKey → UInt32} {key : ConnClassificationKey}
  {servers : UInt32 → Option ServerInfoResult} {α β : Type}

theorem OffRoute.chooses {x : Dp α} (hx : OffRoute x) :
    Chooses bulkHash key servers x fun _ => False := fun m g hkey => by
  refine wp_mono (OffRoute.wp hx) ?_
  rintro r m' g' ⟨hsame, rfl⟩
  exact ⟨rfl, hsame.key.trans hkey, False.elim⟩

/-- A program with a result that goes on with a choice, or keeps the one that was made. -/
theorem Chooses.bind {x : Dp α} {f : α → Dp β} {p : α → Prop} {q : β → Prop}
    (hx : Chooses bulkHash key servers x p)
    (hf : ∀ a m g, m.connClassKey = key → (p a → m.Chose servers) →
      (f a).wp (flowSpec bulkHash key servers) (fun r m' g' =>
        g' = g ∧ m'.connClassKey = key ∧ (q r → m'.Chose servers)) m g) :
    Chooses bulkHash key servers (x >>= f) q := fun m g hkey => by
  refine wp_bind_of (hx m g hkey) ?_
  rintro a m₁ g₁ ⟨rfl, hkey₁, hp⟩
  exact hf a m₁ g₁ hkey₁ hp

theorem Chooses.get_bind {f : Cmem → Dp β} {q : β → Prop}
    (hf : ∀ m, Chooses bulkHash key servers (f m) q) :
    Chooses bulkHash key servers (get >>= f) q := fun m g hkey => hf m m g hkey

theorem Chooses.ite {c : Prop} [Decidable c] {x y : Dp α} {p : α → Prop}
    (hx : Chooses bulkHash key servers x p) (hy : Chooses bulkHash key servers y p) :
    Chooses bulkHash key servers (if c then x else y) p := by
  split
  · exact hx
  · exact hy

/-- A result that is not a choice. -/
theorem Chooses.of_pure {a : α} {p : α → Prop} (h : ¬ p a) :
    Chooses bulkHash key servers (pure a) p := fun _ _ hkey => ⟨rfl, hkey, fun hp => absurd hp h⟩

/-- The packet is dropped. -/
theorem chooses_drop (e : AlvsErrorStats) {a : α} {p : α → Prop} (h : ¬ p a) :
    Chooses bulkHash key servers (alvsDiscardAndStats e >>= fun _ => pure a) p :=
  (offRoute_discardAndStats e).chooses.bind fun _ m g hkey _ => Chooses.of_pure h m g hkey

theorem chooses_schedGetServerInfo (i : UInt16) :
    Chooses bulkHash key servers (alvsSchedGetServerInfo i) (· = .success) := by
  have hfound : Chooses bulkHash key servers (α := AlvsSchedServerResult) (do
      let serverIndex := (← get).schedServerIndex
      if ← alvsServerInfoLookup serverIndex then
        let flags ← alvsServerOverloadOnCreateConn serverIndex.toUInt16
        if flags &&& ipVsDestFOverload ≠ 0 then pure .unavailable else pure .success
      else
        alvsDiscardAndStats .serverInfoLkupFail
        pure .failed) (· = .success) := fun m g hkey => by
    rw [wp_bind, wp_get]
    refine wp_bind_of (wp_flowServerInfoLookup _) ?_
    rintro found m₁ g₁ ⟨rfl, hkey₁, -, hsched, hfound⟩
    refine (wp_ite _ _ _ _).mpr ⟨fun hf => ?_, fun _ => ?_⟩
    · refine wp_bind_of (offRoute_overloadOnCreateConn _).wp ?_
      rintro flags m₂ g₂ ⟨hsame, rfl⟩
      have hkey₂ : m₂.connClassKey = key := hsame.key.trans (hkey₁.trans hkey)
      refine (wp_ite _ _ _ _).mpr ⟨fun _ => ⟨rfl, hkey₂, nofun⟩, fun _ => ⟨rfl, hkey₂, fun _ => ?_⟩⟩
      rw [Cmem.Chose, hsame.sched, hsame.server, hsched]
      exact hfound hf
    · exact chooses_drop _ (by simp) m₁ g₁ (hkey₁.trans hkey)
  intro m g hkey
  rw [alvsSchedGetServerInfo, alvsServerSchedLookup, wp_bind, wp_bind, wp_call]
  refine ⟨trivial, ?_⟩
  rintro (_ | _ | _) g₁ rfl
  · exact hfound _ g₁ hkey
  · exact ⟨rfl, hkey, nofun⟩
  · exact chooses_drop _ (show ¬ AlvsSchedServerResult.failed = .success by decide) m g₁ hkey

theorem chooses_shFallback (i : UInt8) (hash : UInt32) : ∀ offsets,
    Chooses bulkHash key servers (alvsSchedShFallback i hash offsets) (· = .success)
  | [] => .of_pure nofun
  | _ :: offsets => (chooses_schedGetServerInfo _).bind fun _ m g hkey hres =>
    (wp_ite _ _ _ _).mpr ⟨fun _ => chooses_shFallback i hash offsets m g hkey,
      fun _ => ⟨rfl, hkey, hres⟩⟩

theorem chooses_shScheduleConnection (i : UInt8) (sip : UInt32) (sport : UInt16) :
    Chooses bulkHash key servers (alvsSchedShScheduleConnection i sip sport) (· = true) := by
  refine .get_bind fun m₀ => (offRoute_shGetSchedulingIndex _ _).chooses.bind
    fun hash m g hkey _ => ?_
  refine (chooses_schedGetServerInfo _).bind (q := fun r => r = true)
    (fun first m g hkey hfirst => ?_) m g hkey
  have hres : (if first = .unavailable ∧
      m₀.serviceInfoResult.serviceFlags &&& ipVsSvcFSchedShFallback ≠ 0 then
        alvsSchedShFallback i hash (List.range alvsSizeOfSchedBucket)
      else pure first).wp (flowSpec bulkHash key servers) (fun res m' g' => g' = g ∧
        m'.connClassKey = key ∧ (res = .success → m'.Chose servers)) m g :=
    (wp_ite _ _ _ _).mpr ⟨fun _ => chooses_shFallback _ _ _ m g hkey, fun _ => ⟨rfl, hkey, hfirst⟩⟩
  refine wp_bind_of hres ?_
  rintro res m₁ g₁ ⟨rfl, hkey₁, hchose⟩
  cases res with
  | success => exact ⟨rfl, hkey₁, fun _ => hchose rfl⟩
  | unavailable | empty => exact chooses_drop _ (by simp) m₁ g₁ hkey₁
  | failed => exact ⟨rfl, hkey₁, nofun⟩

theorem chooses_rrLoop (i : UInt8) : ∀ retries count,
    Chooses bulkHash key servers (alvsSchedRrLoop i retries count) (· = some .success)
  | 0, _ => .of_pure (by simp)
  | retries + 1, count => by
    refine .get_bind fun _ => (chooses_schedGetServerInfo _).bind fun res m g hkey hres =>
      (wp_ite _ _ _ _).mpr ⟨fun _ => ?_, fun _ => ⟨rfl, hkey, fun h => hres (Option.some.inj h)⟩⟩
    refine (offRoute_serviceInfoLookup _).chooses.bind
      (q := fun r => r = some AlvsSchedServerResult.success) (fun found m g hkey _ =>
        (wp_ite _ _ _ _).mpr ⟨fun _ => ?_, fun _ => ?_⟩) m g hkey
    · refine offRoute_checkActiveServers.chooses.bind
        (q := fun r => r = some AlvsSchedServerResult.success) (fun active m g hkey _ =>
          (wp_ite _ _ _ _).mpr ⟨fun _ => ?_, fun _ => ?_⟩) m g hkey
      · exact chooses_rrLoop i retries _ m g hkey
      · exact ⟨rfl, hkey, nofun⟩
    · exact chooses_drop _ (by simp) m g hkey

theorem chooses_rrScheduleConnection (i : UInt8) :
    Chooses bulkHash key servers (alvsSchedRrScheduleConnection i) (· = true) := by
  refine .get_bind fun m₀ m g hkey => ?_
  rw [wp_bind, wp_call]
  refine ⟨trivial, ?_⟩
  rintro count g₁ rfl
  refine wp_bind_of (chooses_rrLoop _ _ _ m g₁ hkey) ?_
  rintro res m₁ g₁ ⟨rfl, hkey₁, hchose⟩
  split
  · exact ⟨rfl, hkey₁, fun _ => hchose rfl⟩
  case h_2 | h_3 => exact chooses_drop _ (by simp) m₁ g₁ hkey₁
  all_goals exact ⟨rfl, hkey₁, nofun⟩

theorem chooses_scheduleConnection (i : UInt8) (ip : IpHdr) (tcp : TcpHdr) :
    Chooses bulkHash key servers (alvsScheduleConnection i ip tcp) (· = true) :=
  .get_bind fun _ => .ite (chooses_shScheduleConnection _ _ _)
    (.ite (chooses_rrScheduleConnection _) (.ite (chooses_rrScheduleConnection _)
      (chooses_drop _ (by simp))))

/-! ## Creating the connection -/

/-- How a packet goes on after a section that was to create the connection : with the entry
it has created, or with the one it has found. -/
structure SectionResult (servers : UInt32 → Option ServerInfoResult) (key : ConnClassificationKey)
    (res : AlvsServiceOutputResult) (m : Cmem) (g : FlowView) : Prop where
  connKey : m.connClassKey = key
  success : res = .success → g.Serves servers m ∧ m.connInfoResult.bound = true
  retry : res = .retry → ∃ server, g.known = some (m.connResultIndex, server)

variable {m : Cmem} {g : FlowView}

theorem wp_flowCreateNewEntry (hkey : m.connClassKey = key) (hg : g.phase = .absent)
    (hchose : m.Chose servers) (st : UInt16) (flags : UInt32) (reset : Bool) :
    (alvsConnCreateNewEntry true m.schedServerIndex 0 st flags reset).wp
      (flowSpec bulkHash key servers) (fun res m' g' =>
        (g'.phase = .locked ∨ g'.phase = .absent) ∧ SectionResult servers key res m' g') m g := by
  have hignore : ∀ {m' : Cmem} {g' : FlowView}, m'.connClassKey = key →
      SectionResult servers key .ignore m' g' := fun hkey' => ⟨hkey', by simp, by simp⟩
  rw [alvsConnCreateNewEntry, wp_bind, wp_call]
  refine ⟨hg, ?_⟩
  rintro (_ | i) g₁ rfl
  · refine wp_bind_of (offRoute_overloadOnDeleteConn _).wp ?_
    rintro _ m₁ g₁ ⟨hsame, rfl⟩
    refine wp_bind_of (offRoute_discardAndStats _).wp ?_
    rintro _ m₂ g₂ ⟨hsame', rfl⟩
    exact ⟨.inr hg, hignore (hsame'.key.trans (hsame.key.trans hkey))⟩
  · simp only [wp_bind, wp_get, wp_modify, wp_call]
    refine ⟨⟨rfl, hkey, rfl, rfl⟩, ?_⟩
    rintro _ g₂ rfl
    refine ⟨⟨hkey, _, rfl⟩, ?_⟩
    rintro (_ | _) g₃ hg₃
    · -- the classification is not added, and the entry is deleted again
      obtain rfl := hg₃
      rw [if_neg Bool.false_ne_true]
      simp only [wp_bind, wp_call]
      refine ⟨⟨_, rfl⟩, ?_⟩
      rintro _ g₄ rfl
      refine wp_mono (offRoute_overloadOnDeleteConn _).wp ?_
      rintro _ m₄ g₄ ⟨hsame, rfl⟩
      refine ⟨rfl, ?_⟩
      rintro _ g₅ rfl
      refine wp_mono (offRoute_discardAndStats _).wp ?_
      rintro _ m₅ g₅ ⟨hsame', rfl⟩
      exact ⟨.inr rfl, hignore (hsame'.key.trans (hsame.key.trans hkey))⟩
    · obtain ⟨server, hserver, rfl⟩ := hg₃
      obtain ⟨-, rfl⟩ := FlowPhase.stored.inj hserver
      rw [if_pos rfl, if_pos True.intro]
      have hstats : OffRoute (alvsConnCreateStatistics st) := by
        refine .ite ?_ ?_
        all_goals exact offRoute_updateConnectionStatistics _ _ _
      refine wp_bind_of hstats.wp ?_
      rintro _ m₄ g₄ ⟨hsame, rfl⟩
      refine ⟨.inl rfl, hsame.key.trans hkey, fun _ => ⟨⟨i, _, rfl, ?_⟩, ?_⟩, by simp⟩
      · rw [hsame.server]
        exact hchose
      · rw [hsame.conn]
        rfl

theorem wp_flowCreateConnection (hkey : m.connClassKey = key) (hg : g.phase = .absent)
    (hchose : m.Chose servers) (tcp : TcpHdr) :
    (alvsTcpCreateConnection tcp).wp (flowSpec bulkHash key servers) (fun res m' g' =>
      (g'.phase = .locked ∨ g'.phase = .absent) ∧ SectionResult servers key res m' g') m g := by
  rw [alvsTcpCreateConnection, wp_bind, wp_get]
  refine wp_bind_of (wp_flowCreateNewEntry hkey hg hchose _ _ _) ?_
  rintro res m₁ g₁ ⟨hphase, hres⟩
  exact ⟨hphase, hres.connKey, hres.success, hres.retry⟩

/-- Under the lock, the entry of another thread is found, or one is created. -/
theorem wp_flowScheduleLocked (hkey : m.connClassKey = key) (hg : g.phase = .locked) (i : UInt8)
    (ip : IpHdr) (tcp : TcpHdr) :
    (alvsTcpScheduleLocked i ip tcp).wp (flowSpec bulkHash key servers) (fun res m' g' =>
      (g'.phase = .locked ∨ g'.phase = .absent) ∧ SectionResult servers key res m' g') m g := by
  have hignore : ∀ {m' : Cmem} {g' : FlowView}, m'.connClassKey = key →
      SectionResult servers key .ignore m' g' := fun hkey' => ⟨hkey', nofun, nofun⟩
  rw [alvsTcpScheduleLocked, wp_bind, wp_get, wp_bind, wp_call]
  refine ⟨⟨hkey, hg⟩, ?_⟩
  rintro (i | _ | _) g₁ hg₁
  · obtain ⟨server, rfl⟩ := hg₁
    exact ⟨.inl hg, hkey, nofun, fun _ => ⟨server, rfl⟩⟩
  · obtain rfl := hg₁
    refine wp_bind_of (chooses_scheduleConnection _ ip tcp m _ hkey) ?_
    rintro chosen m₁ g₁ ⟨rfl, hkey₁, hchose⟩
    refine (wp_ite _ _ _ _).mpr ⟨fun h => ?_, fun _ => ⟨.inr rfl, hignore hkey₁⟩⟩
    exact wp_flowCreateConnection hkey₁ rfl (hchose h) tcp
  · obtain rfl := hg₁
    refine wp_bind_of (offRoute_discardAndStats _).wp ?_
    rintro _ m₁ g₁ ⟨hsame, rfl⟩
    exact ⟨.inl hg, hignore (hsame.key.trans hkey)⟩

theorem wp_flowScheduleNewConnection (hkey : m.connClassKey = key) (hg : g.phase = .outside)
    (i : UInt8) (ip : IpHdr) (tcp : TcpHdr) :
    (alvsTcpScheduleNewConnection i ip tcp).wp (flowSpec bulkHash key servers) (fun res m' g' =>
      g'.phase = .outside ∧ SectionResult servers key res m' g') m g := by
  refine wp_bind_of offRoute_checkActiveServers.wp ?_
  rintro active m₁ g₁ ⟨hsame, rfl⟩
  have hkey₁ : m₁.connClassKey = key := hsame.key.trans hkey
  refine (wp_ite _ _ _ _).mpr ⟨fun _ => ?_, fun _ => ⟨hg, hkey₁, nofun, nofun⟩⟩
  refine wp_bind_of (wp_flowLock hkey₁ hg) ?_
  rintro h m₂ g₂ ⟨rfl, rfl, rfl⟩
  refine wp_bind_of (wp_flowScheduleLocked hkey₁ rfl i ip tcp) ?_
  rintro res m₃ g₃ ⟨hphase, hres⟩
  refine wp_bind_of (wp_flowUnlock hphase) ?_
  rintro _ m₄ g₄ ⟨rfl, rfl⟩
  exact ⟨rfl, hres.connKey, hres.success, hres.retry⟩

/-! ## Packets -/

theorem wp_flowServiceDataPath (hkey : m.connClassKey = key) (hg : g.phase = .outside) (i : UInt8)
    (ip : IpHdr) (tcp : TcpHdr) :
    (alvsServiceDataPath i ip tcp).wp (flowSpec bulkHash key servers) (fun res m' g' =>
      g'.phase = .outside ∧ SectionResult servers key res m' g') m g := by
  have hdrop : ∀ (e : AlvsErrorStats) (m₁ : Cmem), m₁.connClassKey = key →
      (alvsDiscardAndStats e >>= fun _ => pure .ignore).wp (flowSpec bulkHash key servers)
        (fun res m' g' => g'.phase = .outside ∧ SectionResult servers key res m' g') m₁ g :=
    fun e m₁ hkey₁ => by
      refine wp_bind_of (offRoute_discardAndStats _).wp ?_
      rintro _ m₂ g₂ ⟨hsame, rfl⟩
      exact ⟨hg, hsame.key.trans hkey₁, nofun, nofun⟩
  refine wp_bind_of (offRoute_serviceInfoLookup _).wp ?_
  rintro found m₁ g₁ ⟨hsame, rfl⟩
  have hkey₁ : m₁.connClassKey = key := hsame.key.trans hkey
  exact (wp_ite _ _ _ _).mpr ⟨fun _ => (wp_ite _ _ _ _).mpr
    ⟨fun _ => wp_flowScheduleNewConnection hkey₁ hg i ip tcp, fun _ => hdrop _ m₁ hkey₁⟩,
    fun _ => hdrop _ m₁ hkey₁⟩

theorem wp_flowUnknownPacket (hkey : m.connClassKey = key) (hg : g.phase = .outside) (ip : IpHdr)
    (tcp : TcpHdr) : (alvsUnknownPacketProcessing ip tcp).wp (flowSpec bulkHash key servers)
      (fun _ _ g' => g'.phase = .outside) m g := by
  rw [alvsUnknownPacketProcessing, wp_bind, wp_call]
  refine ⟨trivial, ?_⟩
  rintro r g₁ rfl
  cases r with
  | some serviceIndex =>
    refine wp_bind_of (wp_flowServiceDataPath hkey hg serviceIndex ip tcp) ?_
    rintro res m₁ g₁ ⟨hphase, hres⟩
    cases res with
    | success =>
      obtain ⟨hserves, hbound⟩ := hres.success rfl
      exact wp_mono (wp_flowDoRoute hserves hbound) fun _ _ _ h => h ▸ hphase
    | retry =>
      obtain ⟨server, hknown⟩ := hres.retry rfl
      rw [wp_bind, wp_get]
      exact wp_mono (wp_flowDataPath hphase hknown tcp hres.connKey) fun _ _ _ h => h ▸ hphase
    | ignore => exact hphase
  | none =>
    have hoff : OffRoute (alvsUpdateDiscardStatistics .serviceClassLookup) := .of_call trivial
    refine wp_bind_of hoff.wp ?_
    rintro _ m₁ g₁ ⟨-, rfl⟩
    exact wp_mono offRoute_hostDoRoute.wp fun _ _ _ h => h.2 ▸ hg

theorem wp_flowTcpProcessing (hg : g.phase = .outside) (ip : IpHdr) (tcp : TcpHdr)
    (hkey : (⟨ip.saddr, ip.daddr, tcp.source, tcp.dest, ip.protocol.toUInt16⟩ :
      ConnClassificationKey) = key) :
    (alvsTcpProcessing ip tcp).wp (flowSpec bulkHash key servers)
      (fun _ _ g' => g'.phase = .outside) m g := by
  rw [alvsTcpProcessing, wp_bind, wp_modify, wp_bind, wp_call, hkey]
  refine ⟨⟨rfl, hg⟩, ?_⟩
  rintro (i | _ | _) g₁ hg₁
  · obtain ⟨server, hg₁⟩ := hg₁
    have hphase : g₁.phase = .outside := hg₁ ▸ hg
    have hknown : g₁.known = some (i, server) := hg₁ ▸ rfl
    refine wp_mono (wp_flowDataPath hphase hknown tcp ?_) fun _ _ _ h => ?_
    · rfl
    · rw [h]
      exact hphase
  all_goals
    obtain rfl := hg₁
    refine wp_flowUnknownPacket ?_ hg ip tcp
    rfl

/-- A packet of the connection. -/
theorem wp_flowPacket (p : PacketOf key) (hg : g.phase = .outside) :
    (packetProcessing (.frame p.frame)).wp (flowSpec bulkHash key servers)
      (fun _ _ g' => g'.phase = .outside) m g := by
  rw [packetProcessing, wp_bind, wp_modify, alvsPacketProcessing, wp_bind, wp_modify, p.payload]
  exact (wp_ite _ _ _ _).mpr ⟨fun _ => wp_flowTcpProcessing hg _ _ p.connKey,
    fun _ => wp_mono (offRoute_sendToHost _).wp fun _ _ _ h => h.2 ▸ hg⟩

end Scheduling

/-! ## Runs -/

section Run

variable {Tid : Type}

theorem flowInv_start (bulkHash : ConnClassificationKey → UInt32) {key : ConnClassificationKey}
    {s : Chip Tid} (hnone : s.nps.connClassification key = none) (hlog : s.log = []) :
    FlowInv bulkHash key s.nps.serverInfo s (fun _ => ⟨.outside, none⟩) where
  one := by simp [hlog]
  created := by simp [hlog]
  routed := by simp [hlog]
  servers := rfl
  locked _ h := absurd rfl h
  entry i hi := by
    rw [hnone] at hi
    cases hi
  known := nofun
  phase _ := trivial

variable [DecidableEq Tid]

/-- In every run of threads that handle packets of one connection, from a chip where it has no
entry, at most one entry is created for it, and every packet that is routed goes to the server
of that entry. -/
theorem oneServer_run (bulkHash : ConnClassificationKey → UInt32) {key : ConnClassificationKey}
    {s : Chip Tid} (hnone : s.nps.connClassification key = none) (hlog : s.log = [])
    (mem : Tid → Cmem) (as : List (PoolAct Tid (PacketOf key) DpEnv)) :
    OneServer key (as.foldl (packetMachine bulkHash key).act (idlePool s mem)).shared := by
  have hstart := flowInv_start bulkHash hnone hlog
  have hact : Always (fun _ _ => True) (packetMachine bulkHash key).act (idlePool s mem) as :=
    .of_forall (fun _ _ => trivial) _ _
  have hinv : Machine.Inv (fun _ => flowSpec bulkHash key s.nps.serverInfo)
      (fun _ _ g => g.phase = .outside) (FlowInv bulkHash key s.nps.serverInfo)
      (as.foldl (packetMachine bulkHash key).act (idlePool s mem)) :=
    Machine.inv_run_of (fun _ p _ _ hg => wp_job.mpr (wp_flowPacket p hg))
      (fun c t e Γ op _ r s' _ h _ _ hpre hs => flowInv_step e t op c.shared Γ r s' h hpre hs)
      ⟨_, hstart, fun _ => rfl⟩ hact
  obtain ⟨Γ, h, -⟩ := hinv
  exact h.toOneServer

end Run

/-! ## A race -/

/-- A packet of an example connection. -/
def examplePacketOf (fin : Bool) : PacketOf ⟨0x0a000001, 0x0a0000fe, 4000, 80, 6⟩ where
  frame := ⟨60, true, ⟨0x0a000001, 0x0a0000fe, ipprotoTcp⟩, .tcp ⟨4000, 80, fin, false⟩⟩
  tcpHdr := ⟨4000, 80, fin, false⟩
  payload := rfl
  connKey := rfl

/-- A chip with one service, that has one server. -/
def oneServiceNps : Nps :=
  { Sys.init.nps with
    serviceClassification := fun _ => some 0
    serviceInfo := fun _ => some { Cmem.zero.serviceInfoResult with schedEntriesCount := 1 }
    schedInfo := fun _ => some 0
    serverInfo := fun _ => some { Cmem.zero.serverInfoResult with
      serverFlags := 1
      serverIp := 0x0a000002
      connFlags := ipVsConnFDroute } }

abbrev RaceAct := PoolAct (Fin 2) (PacketOf ⟨0x0a000001, 0x0a0000fe, 4000, 80, 6⟩) DpEnv

def raceStep (t : Fin 2) : RaceAct := .step t { exampleEnv with fib := some (.neighbor, 0) }

/-- Two threads miss the connection. The first creates it while the second waits for its
lock. -/
def raceActs : List RaceAct :=
  [.start (tid 0) (examplePacketOf false), .start (tid 1) (examplePacketOf true)] ++
    (List.replicate 4 [raceStep (tid 0), raceStep (tid 1)]).flatten ++
      List.replicate 40 (raceStep (tid 0)) ++ List.replicate 40 (raceStep (tid 1))

def exampleRace : Pool (Fin 2) (Chip (Fin 2)) DpCall DpCall.Res Cmem :=
  raceActs.foldl (packetMachine (fun _ => 0) _).act (idlePool (.init oneServiceNps) fun _ => .zero)

theorem oneServer_run_race :
    OneServer ⟨0x0a000001, 0x0a0000fe, 4000, 80, 6⟩ exampleRace.shared ∧
      exampleRace.shared.log.filterMap (·.routesTo) = [0x0a000002, 0x0a000002] :=
  ⟨oneServer_run (fun _ => 0) rfl rfl _ _, by decide +kernel⟩

end Alvs
