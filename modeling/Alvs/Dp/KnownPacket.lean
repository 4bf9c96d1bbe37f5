import Alvs.Dp.ConnMap
import Alvs.Dp.Destination

/-!
# Packets of known connections

What a packet makes of the entry of its connection, and where it is sent, as functions of the entry
and the tables of servers (`Nps.knownPacket`).

`maps_connDataPath` : the fast path does so where it runs alone and no call fails.
-/

namespace Alvs

open ProgLogic LProg

namespace ConnInfoResult

/-- Marked to be deleted, unless it is already. -/
def markedOnce (c : ConnInfoResult) (reset : Bool) : ConnInfoResult :=
  if c.deleteBit then c else c.marked reset

/-- Closed by the end of the connection, unless it is marked to be deleted. -/
def closedOnce (c : ConnInfoResult) : ConnInfoResult :=
  if c.deleteBit then c else c.updated ipVsTcpSCloseWait

def refreshed (c : ConnInfoResult) : ConnInfoResult :=
  { c with agingBit := true, deleteBit := false }

/-- The entry after a packet that is let through. -/
def afterPacket (c : ConnInfoResult) (tcp : TcpHdr) : ConnInfoResult :=
  if tcp.rst then c.markedOnce true
  else if c.connState = ipVsTcpSEstablished ∧ tcp.fin = true then c.closedOnce
  else if c.agingBit then c
  else c.refreshed

theorem markedOnce_key (c : ConnInfoResult) (reset : Bool) :
    (c.markedOnce reset).connClassKey = c.connClassKey := by
  unfold markedOnce
  split <;> rfl

theorem afterPacket_key (c : ConnInfoResult) (tcp : TcpHdr) :
    (c.afterPacket tcp).connClassKey = c.connClassKey := by
  unfold afterPacket closedOnce
  split
  · exact c.markedOnce_key true
  · split
    · split <;> rfl
    · split <;> rfl

theorem afterPacket_bound (c : ConnInfoResult) (tcp : TcpHdr) :
    (c.afterPacket tcp).bound = c.bound ∧ (c.afterPacket tcp).serverIndex = c.serverIndex := by
  unfold afterPacket markedOnce closedOnce
  split
  · split <;> exact ⟨rfl, rfl⟩
  · split
    · split <;> exact ⟨rfl, rfl⟩
    · split <;> exact ⟨rfl, rfl⟩

end ConnInfoResult

namespace Nps

/-- The entry bound to its server, if it was unbound and the server is found. -/
def bindConn (s : Nps) (c : ConnInfoResult) : ConnInfoResult :=
  if c.bound then c
  else match s.serverClassification (c.connClassKey.serverKey (c.serverAddr, c.serverPort)) with
    | some j => { c with serverIndex := j, bound := true }
    | none => c

/-- The entry after a packet, and where the packet is sent. Of a connection whose server is not
known here, `flags` are those of some other server. -/
def knownPacket (s : Nps) (tcp : TcpHdr) (flags : UInt32) (c : ConnInfoResult) :
    ConnInfoResult × Option Destination :=
  let b := s.bindConn c
  if b.resetBit then (b, none)
  else if b.bound then
    match s.serverInfo b.serverIndex with
    | none => (b, none)
    | some info =>
      if info.available then (b.afterPacket tcp, routeDest info.connFlags info.serverIp)
      else (b.markedOnce false, none)
  else (b.afterPacket tcp, routeDest flags b.serverAddr)

theorem bindConn_key (s : Nps) (c : ConnInfoResult) :
    (s.bindConn c).connClassKey = c.connClassKey := by
  unfold bindConn
  split
  · rfl
  · split <;> rfl

/-- The chip with entry `i` replaced by one of the same connection, and other statistics. -/
def Replaces (s : Nps) (i : UInt32) (c : ConnInfoResult) (s' : Nps) : Prop :=
  ∃ posted, s' = { s with connInfo := Function.update s.connInfo i (some c), posted := posted }

theorem Replaces.refl {s : Nps} {i : UInt32} {c : ConnInfoResult} (hinfo : s.connInfo i = some c) :
    s.Replaces i c s := by
  refine ⟨s.posted, ?_⟩
  rw [← hinfo, Function.update_eq_self]

theorem Replaces.trans {s s' s'' : Nps} {i : UInt32} {c c' : ConnInfoResult}
    (h : s.Replaces i c s') (h' : s'.Replaces i c' s'') : s.Replaces i c' s'' := by
  obtain ⟨posted, rfl⟩ := h
  obtain ⟨posted', rfl⟩ := h'
  exact ⟨posted', by simp⟩

theorem Replaces.info {s s' : Nps} {i : UInt32} {c : ConnInfoResult} (h : s.Replaces i c s') :
    s'.connInfo i = some c := by
  obtain ⟨posted, rfl⟩ := h
  exact Function.update_self ..

theorem Replaces.maps {s s' : Nps} {i : UInt32} {c c' : ConnInfoResult} (h : s.Replaces i c' s')
    (hagree : TablesAgree s) (hinfo : s.connInfo i = some c)
    (hkey : c'.connClassKey = c.connClassKey) :
    s.Maps s' (Function.update s.conns c.connClassKey (some c')) := by
  obtain ⟨posted, rfl⟩ := h
  exact maps_setConn hagree hinfo hkey posted

end Nps

/-! ## The sections -/

section Sections

variable {ok : DpEnv → DpCall → Nps → Prop} {m : Cmem} {s : Nps} {i : UInt32} {c : ConnInfoResult}

/-- A section whose lookup finds the entry. -/
theorem env_section {α : Type} {site : ConnSite} {f : UInt32 → Dp α} {g : UInt32 → Dp α}
    {Q : α → Cmem → Nps → Prop} (hinfo : s.connInfo i = some c)
    (hf : ∀ h, (f h).wp (Prog.envSpec dpHandle ok) Q { m with connInfoResult := c } s) :
    (alvsLockConnection >>= fun h => alvsConnInfoLookup site i >>= fun found =>
      if found = true then f h else g h).wp (Prog.envSpec dpHandle ok) Q m s := by
  refine wp_bind_of env_lock ?_
  rintro h _ _ ⟨rfl, rfl⟩
  refine wp_bind_of (env_connInfoLookup_found site hinfo) ?_
  rintro _ _ _ ⟨rfl, rfl, rfl⟩
  exact hf h

/-- The entry is modified and the lock released. -/
theorem env_modifyUnlock (hinfo : s.connInfo i = some c) (c' : ConnInfoResult) (h : UInt32) :
    (alvsConnInfoModify i c' >>= fun rc => alvsUnlockConnection h >>= fun _ => pure rc).wp
      (Prog.envSpec dpHandle ok) (fun done m' s' => done = true ∧
        m' = { m with connInfoResult := c' } ∧ s' = s.setConn i c') m s := by
  refine wp_bind_of (env_connInfoModify hinfo) ?_
  rintro _ _ _ ⟨rfl, rfl, rfl⟩
  refine wp_bind_of (env_unlock_mem h) ?_
  rintro _ _ _ ⟨rfl, rfl⟩
  exact ⟨rfl, rfl, rfl⟩

/-- What a section of `alvs_conn.h` leaves : the entry `c`, in the table and in the memory. -/
structure LeavesConn (m : Cmem) (s : Nps) (i : UInt32) (c : ConnInfoResult) (m' : Cmem) (s' : Nps) :
    Prop where
  conn : m'.connInfoResult = c
  server : m'.serverInfoResult = m.serverInfoResult
  table : s.Replaces i c s'

theorem leavesConn_setConn : LeavesConn m s i c { m with connInfoResult := c } (s.setConn i c) :=
  ⟨rfl, rfl, s.posted, rfl⟩

theorem leaves_markToDelete (hinfo : s.connInfo i = some c) (reset : Bool) :
    (alvsConnMarkToDelete i reset).wp (Prog.envSpec dpHandle ok)
      (fun done m' s' => done = true ∧ LeavesConn m s i (c.markedOnce reset) m' s') m s := by
  refine env_section hinfo fun h => (wp_bind _ _ _).mpr ((wp_get _).mpr
    ((wp_ite _ _ _ _).mpr ⟨fun hdelete => ?_, fun hdelete => ?_⟩))
  · rw [ConnInfoResult.markedOnce, if_pos hdelete]
    refine wp_bind_of (env_unlock_mem h) ?_
    rintro _ _ _ ⟨rfl, rfl⟩
    exact ⟨rfl, rfl, rfl, .refl hinfo⟩
  · rw [ConnInfoResult.markedOnce, if_neg hdelete]
    have hstats : (if c.closesOnReset reset then alvsUpdateConnectionStatistics 0 (-1) 1
        else pure ()).wp (Prog.envSpec dpHandle ok) (fun _ m' s' =>
          m' = { m with connInfoResult := c } ∧ s.Replaces i c s') { m with connInfoResult := c }
          s := by
      refine (wp_ite _ _ _ _).mpr ⟨fun _ => ?_, fun _ => ⟨rfl, .refl hinfo⟩⟩
      refine wp_mono env_updateConnectionStatistics ?_
      rintro _ _ _ ⟨rfl, posted, rfl⟩
      refine ⟨rfl, posted, ?_⟩
      rw [← hinfo, Function.update_eq_self]
    refine wp_bind_of hstats ?_
    rintro _ _ s₁ ⟨rfl, htable⟩
    refine wp_mono (env_modifyUnlock htable.info _ h) ?_
    rintro _ _ _ ⟨rfl, rfl, rfl⟩
    exact ⟨rfl, rfl, rfl, htable.trans ⟨s₁.posted, rfl⟩⟩

theorem leaves_updateState (hinfo : s.connInfo i = some c)
    (hstate : c.connState = ipVsTcpSEstablished) :
    (alvsConnUpdateState i ipVsTcpSCloseWait).wp (Prog.envSpec dpHandle ok)
      (fun done m' s' => done = true ∧ LeavesConn m s i c.closedOnce m' s') m s := by
  have hstate' : c.connState ≠ ipVsTcpSCloseWait := by
    rw [hstate]
    decide
  refine env_section hinfo fun h => (wp_bind _ _ _).mpr ((wp_get _).mpr
    ((wp_ite _ _ _ _).mpr ⟨fun hskip => ?_, fun hskip => ?_⟩))
  · rw [ConnInfoResult.closedOnce, if_pos (hskip.resolve_left hstate')]
    refine wp_bind_of (env_unlock_mem h) ?_
    rintro _ _ _ ⟨rfl, rfl⟩
    exact ⟨rfl, rfl, rfl, .refl hinfo⟩
  · rw [ConnInfoResult.closedOnce, if_neg fun hdelete => hskip (.inr hdelete)]
    refine wp_bind_of env_updateConnectionStatistics ?_
    rintro _ _ _ ⟨rfl, posted, rfl⟩
    refine wp_bind_of (env_connInfoModify (c := c) hinfo) ?_
    rintro _ _ _ ⟨rfl, rfl, rfl⟩
    refine (wp_bind _ _ _).mpr ((wp_modify _ _).mpr ?_)
    refine wp_bind_of (env_unlock_mem h) ?_
    rintro _ _ _ ⟨rfl, rfl⟩
    exact ⟨rfl, rfl, rfl, posted, rfl⟩

theorem leaves_refresh (hinfo : s.connInfo i = some c) :
    (alvsConnRefresh i).wp (Prog.envSpec dpHandle ok)
      (fun done m' s' => done = true ∧ LeavesConn m s i c.refreshed m' s') m s := by
  refine env_section hinfo fun h => (wp_bind _ _ _).mpr ((wp_get _).mpr ?_)
  refine wp_mono (env_modifyUnlock hinfo _ h) ?_
  rintro _ _ _ ⟨rfl, rfl, rfl⟩
  exact ⟨rfl, leavesConn_setConn⟩

theorem leaves_connBind (hinfo : s.connInfo i = some c) (hbound : c.bound = false) (j : UInt32) :
    (alvsConnBind i j).wp (Prog.envSpec dpHandle ok) (fun _ m' s' =>
      LeavesConn m s i { c with serverIndex := j, bound := true } m' s') m s := by
  refine env_section hinfo fun h => (wp_bind _ _ _).mpr ((wp_get _).mpr
    ((wp_ite _ _ _ _).mpr ⟨fun hb => ?_, fun _ => ?_⟩))
  · cases hbound.symm.trans hb
  · refine wp_mono (env_modifyUnlock hinfo _ h) ?_
    rintro _ _ _ ⟨-, rfl, rfl⟩
    exact leavesConn_setConn

end Sections

/-! ## The fast path -/

section FastPath

variable {m : Cmem} {s : Nps} {i : UInt32} {c : ConnInfoResult}

theorem leaves_connTryBind (hinfo : s.connInfo i = some c) (hres : m.connInfoResult = c)
    (hkey : c.connClassKey = m.connClassKey) :
    (alvsConnTryBind i).wp noFailureSpec
      (fun _ m' s' => LeavesConn m s i (s.bindConn c) m' s') m s := by
  subst hres
  have hsame : LeavesConn m s i m.connInfoResult m s := ⟨rfl, rfl, .refl hinfo⟩
  unfold alvsConnTryBind Nps.bindConn
  refine (wp_bind _ _ _).mpr ((wp_get _).mpr ((wp_ite _ _ _ _).mpr
    ⟨fun hbound => ?_, fun hbound => ?_⟩))
  · simp only [hbound, Bool.false_eq_true, if_false, alvsFindServerIndex, wp_bind, wp_call_env,
      dpHandle, ConnClassificationKey.serverKey, hkey]
    intro e he
    have hfails : e.fails = false := he
    rw [hfails, if_neg Bool.false_ne_true]
    cases hclass : s.serverClassification ⟨m.connInfoResult.serverAddr, m.connClassKey.virtualIp,
      m.connInfoResult.serverPort, m.connClassKey.virtualPort, m.connClassKey.protocol⟩ with
    | none => exact hsame
    | some j =>
      refine (wp_map _ _ _).mpr (wp_mono (leaves_connBind hinfo hbound j) ?_)
      rw [hkey]
      exact fun _ _ _ hleaves => hleaves
  · rw [if_pos (Bool.eq_true_of_not_eq_false hbound)]
    exact hsame

theorem env_discardAndStats_mem {ok : DpEnv → DpCall → Nps → Prop} (e : AlvsErrorStats) :
    (alvsDiscardAndStats e).wp (Prog.envSpec dpHandle ok)
      (fun _ m' s' => m' = m ∧ ∃ posted, s' = { s with posted := posted }) m s := by
  simp only [alvsDiscardAndStats, alvsUpdateDiscardStatistics, alvsDiscardFrame, wp_bind,
    wp_call_env, dpHandle]
  exact fun _ _ _ _ => ⟨trivial, _, rfl⟩

/-- A frame that is dropped leaves the entry as it is. -/
theorem leaves_discard {ok : DpEnv → DpCall → Nps → Prop} (hinfo : s.connInfo i = some c)
    (e : AlvsErrorStats) : (alvsDiscardAndStats e).wp (Prog.envSpec dpHandle ok)
      (fun _ m' s' => m' = m ∧ s.Replaces i c s') m s := by
  refine wp_mono (env_discardAndStats_mem e) ?_
  rintro _ _ _ ⟨rfl, posted, rfl⟩
  refine ⟨rfl, posted, ?_⟩
  rw [← hinfo, Function.update_eq_self]

/-- The server of the connection, and the entry where the packet is dropped for it. -/
theorem leaves_connCheckServer (hinfo : s.connInfo i = some c) (hres : m.connInfoResult = c) :
    (alvsConnCheckServer i).wp noFailureSpec (fun found m' s' =>
      (found = true ∧ m'.connInfoResult = c ∧ s' = s ∧
        (c.bound = false ∧ m' = m ∨
          c.bound = true ∧ ∃ info, s.serverInfo c.serverIndex = some info ∧ info.available ∧
            m'.serverInfoResult = info)) ∨
      (found = false ∧ c.bound = true ∧
        (s.serverInfo c.serverIndex = none ∧ s.Replaces i c s' ∨
          ∃ info, s.serverInfo c.serverIndex = some info ∧ ¬ info.available ∧
            s.Replaces i (c.markedOnce false) s'))) m s := by
  subst hres
  unfold alvsConnCheckServer
  refine (wp_bind _ _ _).mpr ((wp_get _).mpr ((wp_ite _ _ _ _).mpr
    ⟨fun hbound => ?_, fun hbound => ?_⟩))
  · refine wp_bind_of (env_serverInfoLookup_mem _) ?_
    rintro _ _ _ ⟨rfl, ⟨rfl, hnone, rfl⟩ | ⟨info, rfl, hserver, rfl⟩⟩
    · refine wp_bind_of (leaves_discard hinfo _) ?_
      rintro _ _ _ ⟨-, htable⟩
      exact .inr ⟨rfl, hbound, .inl ⟨hnone, htable⟩⟩
    · refine (wp_bind _ _ _).mpr ((wp_get _).mpr ((wp_ite _ _ _ _).mpr
        ⟨fun havailable => ?_, fun havailable => ?_⟩))
      · exact .inl ⟨rfl, rfl, rfl, .inr ⟨hbound, info, hserver, havailable, rfl⟩⟩
      · refine wp_bind_of (leaves_markToDelete hinfo false) ?_
        rintro _ _ s₁ ⟨-, hleaves⟩
        refine wp_bind_of (leaves_discard hleaves.table.info _) ?_
        rintro _ _ _ ⟨-, htable⟩
        exact .inr ⟨rfl, hbound, .inr ⟨info, hserver, havailable, hleaves.table.trans htable⟩⟩
  · exact .inl ⟨rfl, rfl, rfl, .inl ⟨Bool.eq_false_of_not_eq_true hbound, rfl⟩⟩

/-- The change of the entry that is let through. -/
theorem leaves_connCheckState (tcp : TcpHdr) (hinfo : s.connInfo i = some c)
    (hres : m.connInfoResult = c) :
    (alvsConnCheckState tcp i).wp noFailureSpec
      (fun done m' s' => done = true ∧ LeavesConn m s i (c.afterPacket tcp) m' s') m s := by
  subst hres
  unfold alvsConnCheckState ConnInfoResult.afterPacket
  refine (wp_bind _ _ _).mpr ((wp_get _).mpr ((wp_ite _ _ _ _).mpr ⟨fun hrst => ?_, fun hrst =>
    (wp_ite _ _ _ _).mpr ⟨fun hfin => ?_, fun hfin => (wp_ite _ _ _ _).mpr
      ⟨fun haging => ?_, fun haging => ?_⟩⟩⟩))
  · rw [if_pos hrst]
    refine wp_bind_of (leaves_markToDelete hinfo true) ?_
    rintro _ _ _ ⟨-, hleaves⟩
    exact ⟨rfl, hleaves⟩
  · rw [if_neg hrst, if_pos hfin]
    refine wp_bind_of (leaves_updateState hinfo hfin.1) ?_
    rintro _ _ _ ⟨rfl, hleaves⟩
    exact ⟨rfl, hleaves⟩
  · rw [if_neg hrst, if_neg hfin, haging, if_neg Bool.false_ne_true]
    refine wp_bind_of (leaves_refresh hinfo) ?_
    rintro _ _ _ ⟨rfl, hleaves⟩
    exact ⟨rfl, hleaves⟩
  · rw [if_neg hrst, if_neg hfin, if_pos (Bool.eq_true_of_not_eq_false haging)]
    exact ⟨rfl, rfl, rfl, .refl hinfo⟩

/-- A packet of a connection that is there, with no call that fails. -/
theorem maps_connDataPath (tcp : TcpHdr) (h : TablesAgree s) (hinfo : s.connInfo i = some c)
    (hkey : c.connClassKey = m.connClassKey) :
    (alvsConnDataPath tcp i).wp (Prog.watchedSpec dpHandle noFailure Destination.next)
      (fun _ _ x => s.Maps x.1 (Function.update s.conns c.connClassKey
          (some (s.knownPacket tcp m.serverInfoResult.connFlags c).1)) ∧
        x.2 = (s.knownPacket tcp m.serverInfoResult.connFlags c).2) m (s, none) := by
  have hmaps {s' : Nps} {c' : ConnInfoResult} (htable : s.Replaces i c' s')
      (hkey' : c'.connClassKey = (s.bindConn c).connClassKey) :
      s.Maps s' (Function.update s.conns c.connClassKey (some c')) :=
    htable.maps h hinfo (hkey'.trans (s.bindConn_key c))
  unfold alvsConnDataPath
  refine wp_bind_of ((keepsDest_connInfoLookup .dataPath i).wp_prod silent_keepsDest
    (env_connInfoLookup_found .dataPath hinfo)) ?_
  rintro _ _ ⟨s₀, _⟩ ⟨⟨rfl, rfl, hs₀⟩, rfl⟩
  obtain rfl : s = s₀ := hs₀.symm
  refine wp_bind_of ((keepsDest_connTryBind i).wp_prod silent_keepsDest
    (leaves_connTryBind hinfo rfl hkey)) ?_
  rintro _ m₁ ⟨s₁, _⟩ ⟨hleaves, rfl⟩
  have htable₁ := hleaves.table
  refine (wp_bind _ _ _).mpr ((wp_get _).mpr ((wp_ite _ _ _ _).mpr
    ⟨fun hreset => ?_, fun hreset => ?_⟩))
  · rw [hleaves.conn] at hreset
    simp only [Nps.knownPacket, if_pos hreset]
    refine wp_mono ((keepsDest_discardAndStats _).wp_prod silent_keepsDest
      (leaves_discard htable₁.info _)) ?_
    rintro _ _ ⟨s₂, _⟩ ⟨⟨-, htable⟩, rfl⟩
    exact ⟨hmaps (htable₁.trans htable) rfl, rfl⟩
  rw [hleaves.conn] at hreset
  have hserver : s₁.serverInfo = s.serverInfo := by
    obtain ⟨posted, rfl⟩ := htable₁
    rfl
  refine wp_bind_of ((keepsDest_connCheckServer i).wp_prod silent_keepsDest
    (leaves_connCheckServer htable₁.info hleaves.conn)) ?_
  rintro found m₂ ⟨s₂, _⟩ ⟨hfound, rfl⟩
  simp only at hfound
  rw [hserver] at hfound
  obtain ⟨rfl, hconn₂, rfl, hfound⟩ | ⟨rfl, hbound, hfound⟩ := hfound
  swap
  -- the server of the connection is not there, or not available
  · obtain ⟨hnone, htable⟩ | ⟨info, hsome, havailable, htable⟩ := hfound
    · simp only [Nps.knownPacket, if_neg hreset, if_pos hbound, hnone]
      exact ⟨hmaps (htable₁.trans htable) rfl, rfl⟩
    · simp only [Nps.knownPacket, if_neg hreset, if_pos hbound, hsome, if_neg havailable]
      exact ⟨hmaps (htable₁.trans htable) (ConnInfoResult.markedOnce_key _ _), rfl⟩
  refine wp_bind_of ((keepsDest_connCheckState tcp i).wp_prod silent_keepsDest
    (leaves_connCheckState tcp htable₁.info hconn₂)) ?_
  rintro _ m₃ ⟨s₃, _⟩ ⟨⟨rfl, hleaves₃⟩, rfl⟩
  have hmaps₃ := hmaps (htable₁.trans hleaves₃.table) (ConnInfoResult.afterPacket_key _ _)
  obtain ⟨hbound₃, hindex₃⟩ := (s.bindConn c).afterPacket_bound tcp
  refine wp_mono (wp_watched (OffConn.wp_maps offConn_connDoRoute hmaps₃.agree)
    (dest_connDoRoute m₃)) ?_
  rintro _ _ ⟨s₄, _⟩ ⟨⟨-, hmaps₄⟩, rfl⟩
  rw [hmaps₃.conns] at hmaps₄
  rw [hleaves₃.conn, hleaves₃.server, hbound₃, ConnInfoResult.serverAddr, hindex₃]
  obtain ⟨hbound, rfl⟩ | ⟨hbound, info, hsome, havailable, hinfo₂⟩ := hfound
  · simp only [Nps.knownPacket, if_neg hreset, hbound, Bool.false_eq_true, if_false]
    rw [hleaves.server]
    exact ⟨hmaps₃.trans hmaps₄, rfl⟩
  · simp only [Nps.knownPacket, if_neg hreset, if_pos hbound, hsome, if_pos havailable]
    rw [hinfo₂]
    exact ⟨hmaps₃.trans hmaps₄, rfl⟩

end FastPath

end Alvs
