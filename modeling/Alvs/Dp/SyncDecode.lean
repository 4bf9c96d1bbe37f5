import Alvs.Dp.Alone
import Alvs.Dp.SyncReceive
import Alvs.Dp.SyncRole
import Alvs.Lib.Words

/-!
# What a backup makes of a sync frame

A frame that a master has built (`Built`), in an aging event or for one packet, is restored
by a backup if all its checks pass and each record creates the connection of the master's
entry where it was unknown (`Restored`).

`set_sync_hdr` never writes the byte `reserved` of the header, which a backup wants to be 0 :
`frame_data` keeps there what the thread has left in it. `syncFrame_restored` : a frame is
restored exactly when that byte was 0, the Ethernet header could be written (or the one that
was left is that of an IPv4 multicast frame), and all its connections are of TCP or UDP.
-/

namespace Alvs

open ProgLogic LProg

/-! ## The server and the flags of a connection -/

/-- The address and the port of the server of a connection : those in `info` if it is bound. -/
def ConnInfoResult.syncServer (c : ConnInfoResult) (info : ServerInfoResult) : UInt32 × UInt16 :=
  if c.bound then (info.serverIp, info.serverPort) else (c.serverAddr, c.serverPort)

/-- The key that a server has for the service of a connection. -/
def ConnClassificationKey.serverKey (key : ConnClassificationKey) (server : UInt32 × UInt16) :
    ServerClassificationKey :=
  ⟨server.1, key.virtualIp, server.2, key.virtualPort, key.protocol⟩

/-- The entry `e` restores the entry `c` of a master on a chip whose server classification is
that of `s` : the key, the state and the server are the same, the flags are those that the
backup keeps, and INACTIVE is set where the state is not ESTABLISHED. -/
structure ConnInfoResult.Restores (e c : ConnInfoResult) (info : ServerInfoResult) (s : Nps) :
    Prop where
  key : e.connClassKey = c.connClassKey
  state : e.connState = c.connState
  bound : ∀ j, s.serverClassification (c.connClassKey.serverKey (c.syncServer info)) = some j →
    e.bound = true ∧ e.serverIndex = j
  unbound : s.serverClassification (c.connClassKey.serverKey (c.syncServer info)) = none →
    e.bound = false ∧ (e.serverAddr, e.serverPort) = c.syncServer info
  flags : e.connFlags &&& ~~~ipVsConnFInactive =
    (c.connFlags &&& ipVsConnFBackupMask ||| ipVsConnFSync) &&& ~~~ipVsConnFInactive
  inactive : e.connFlags &&& ipVsConnFInactive ≠ 0 ↔ c.connState ≠ ipVsTcpSEstablished

/-- The creation of an entry succeeds : there is an index for it, its classification can be
added, and the server that is found for it has its information. -/
def creationOk (e : DpEnv) : DpCall → Nps → Prop
  | .allocIndex _, s => s.IndexFree e.value
  | .connClassAdd _ _ _, _ => e.fails = false
  | .serverClassLookup _ _, _ => e.fails = false
  | .serverInfoLookup i, s => s.serverInfo i ≠ none
  | _, _ => True

/-- A backup processes the record `r` of the entry `c` : it passes the checks and its
connection is locked, it does not end the frame, and it creates the connection where it was
unknown. -/
structure StateSyncConn.Restored (r : StateSyncConn) (c : ConnInfoResult)
    (info : ServerInfoResult) : Prop where
  decoded : ∀ m, ∃ k, (alvsStateSyncProcessConn r).run m = .call (.lockConnection c.connClassKey) k
  goesOn : ∀ (m : Cmem) (es : Nat → DpEnv) (s : Nps),
    ((alvsStateSyncProcessConn r).run m).CallsOk creationOk dpHandle es s →
    0 ≤ (((alvsStateSyncProcessConn r).run m).execEnv dpHandle es s).1.1
  created : ∀ (m : Cmem) (es : Nat → DpEnv) (s : Nps),
    s.connClassification c.connClassKey = none →
    ((alvsStateSyncProcessConn r).run m).CallsOk creationOk dpHandle es s →
    ∃ i e, (((alvsStateSyncProcessConn r).run m).execEnv dpHandle es s).2.connClassification
        c.connClassKey = some i ∧
      (((alvsStateSyncProcessConn r).run m).execEnv dpHandle es s).2.connInfo i = some e ∧
      e.Restores c info s

/-- A backup whose sync id is 0 or that of the frame goes through all the checks of the
headers, and processes the records of the frame. -/
def AcceptsFrame (ez : Ezdp) (buffers : List (List UInt8)) (syncId : UInt8)
    (conns : List StateSyncConn) : Prop :=
  ∀ (m : Cmem) (app : AppInfoResult), app.backupBit = true →
    app.bSyncId = 0 ∨ app.bSyncId = syncId →
    ∃ k m', (nwRecieveAndParseFrame ez buffers).run m = .call .appInfoLookup k ∧
      k (some app) = (alvsStateSyncProcessConns conns.length conns).run m'

/-- The record of an entry of a master. -/
def entryRecord (e : ConnInfoResult × ServerInfoResult) : StateSyncConn := e.1.syncRecord e.2

/-- A backup accepts the frame and restores the connections of the entries. -/
structure FrameRestored (ez : Ezdp) (buffers : List (List UInt8)) (syncId : UInt8)
    (entries : List (ConnInfoResult × ServerInfoResult)) : Prop where
  accepted : AcceptsFrame ez buffers syncId (entries.map entryRecord)
  records : ∀ e ∈ entries, (entryRecord e).Restored e.1 e.2

/-! ## The flags -/

theorem toUInt16_eq_iff {a b : UInt8} : a.toUInt16 = b.toUInt16 ↔ a = b := by
  refine ⟨fun h => ?_, fun h => h ▸ rfl⟩
  have h' := congrArg UInt16.toUInt8 h
  simpa using h'

/-- The entry that is created from a record of `c`. -/
theorem restores_newConnInfo {c : ConnInfoResult} {info : ServerInfoResult} {s : Nps} {b : Bool}
    {server : UInt32} {port : UInt16}
    (hbound : ∀ j, s.serverClassification (c.connClassKey.serverKey (c.syncServer info)) = some j →
      b = true ∧ server = j)
    (hunbound : s.serverClassification (c.connClassKey.serverKey (c.syncServer info)) = none →
      b = false ∧ (server, port) = c.syncServer info) :
    (newConnInfo c.connClassKey b server port (c.syncRecord info).state
      (c.syncRecord info).backupFlags false).Restores c info s where
  key := rfl
  state := by simp [newConnInfo, ConnInfoResult.syncRecord, alvsStateSyncSetSyncConn]
  bound := hbound
  unbound := hunbound
  flags := by
    simp only [newConnInfo]
    split
    · exact Word.and_not_and_not _ _
    · exact Word.or_and_not _ _
  inactive := by
    have hstate : (c.syncRecord info).state = ipVsTcpSEstablished.toUInt16 ↔
        c.connState = ipVsTcpSEstablished := toUInt16_eq_iff
    simp only [newConnInfo]
    split
    · next h => rw [Word.and_not_and]; simp [hstate.mp h]
    · next h =>
      rw [Word.or_and_self]
      exact ⟨fun _ h' => h (hstate.mpr h'), fun _ => by decide⟩

/-! ## Processing a record -/

/-- Runs in which creation succeeds. -/
abbrev creationSpec : Spec DpCall DpCall.Res Nps := Prog.envSpec dpHandle creationOk

/-- The chip has the entry `e` for the connection `key`. -/
def Nps.HasConn (s : Nps) (key : ConnClassificationKey) (e : ConnInfoResult) : Prop :=
  ∃ i, s.connClassification key = some i ∧ s.connInfo i = some e

/-- The server tables and the counters of connections in total are the same. -/
structure Nps.SameServers (s s' : Nps) : Prop where
  classification : s'.serverClassification = s.serverClassification
  info : s'.serverInfo = s.serverInfo
  total : s'.onDemand = s.onDemand

/-- Calls in which the creation of an entry succeeds. -/
structure CreatesEntry (ok : DpEnv → DpCall → Nps → Prop) : Prop where
  alloc : ∀ {e b s}, ok e (.allocIndex b) s → s.IndexFree e.value
  add : ∀ {e b key i s}, ok e (.connClassAdd b key i) s → e.fails = false

theorem creationOk_creates : CreatesEntry creationOk := ⟨id, id⟩

theorem env_updateConnectionStatistics {ok : DpEnv → DpCall → Nps → Prop} {a b c : Int} {m : Cmem}
    {s : Nps} : (alvsUpdateConnectionStatistics a b c).wp (Prog.envSpec dpHandle ok)
      (fun _ m' s' => m' = m ∧ ∃ posted, s' = { s with posted := posted }) m s :=
  wp_mono (env_updateConnectionStatistics_eq a b c) fun _ _ _ h => ⟨h.1, _, h.2⟩

theorem wp_createNewEntry {ok : DpEnv → DpCall → Nps → Prop} (hcreates : CreatesEntry ok) {b : Bool}
    {server : UInt32} {port st : UInt16} {flags : UInt32} {m : Cmem} {s : Nps} :
    (alvsConnCreateNewEntry b server port st flags false).wp (Prog.envSpec dpHandle ok)
      (fun res _ s' => res = .success ∧ s'.HasConn m.connClassKey
        (newConnInfo m.connClassKey b server port st flags false) ∧ s.SameServers s') m s := by
  simp only [alvsConnCreateNewEntry, wp_bind, wp_call_env]
  intro env halloc
  simp only [dpHandle, if_pos (hcreates.alloc halloc), wp_bind, wp_get, wp_modify, wp_call_env]
  intro _ _ env₃ hadd
  simp only [hcreates.add hadd, Bool.false_eq_true, if_false, if_true, wp_bind, wp_pure]
  have hconn : ∀ posted, Nps.HasConn { s with
      connIndexAllocated := Function.update s.connIndexAllocated env.value true
      connInfo := Function.update s.connInfo env.value
        (some (newConnInfo m.connClassKey b server port st flags false))
      connClassification := Function.update s.connClassification m.connClassKey (some env.value)
      posted := posted } m.connClassKey
      (newConnInfo m.connClassKey b server port st flags false) := fun _ =>
    ⟨env.value, Function.update_self _ _ _, Function.update_self _ _ _⟩
  refine (wp_ite _ _ _ _).mpr ⟨fun _ => ?_, fun _ => ⟨trivial, hconn _, rfl, rfl, rfl⟩⟩
  unfold alvsConnCreateStatistics
  split
  all_goals
    refine wp_mono env_updateConnectionStatistics ?_
    rintro _ m' s' ⟨-, posted, rfl⟩
    exact ⟨trivial, hconn posted, rfl, rfl, rfl⟩

/-- Every run ends. -/
theorem wp_creationSpec {α : Type} (x : Dp α) (m : Cmem) (s : Nps) :
    x.wp creationSpec (fun _ _ _ => True) m s :=
  Prog.wp_invariant (fun _ _ _ => ⟨trivial, fun _ _ _ => trivial⟩) (x.run m) trivial

theorem wp_serverInfoLookup_creation {i : UInt32} {m : Cmem} {s : Nps} :
    (alvsServerInfoLookup i).wp creationSpec
      (fun found m' s' => found = true ∧ m'.connClassKey = m.connClassKey ∧ s' = s) m s := by
  simp only [alvsServerInfoLookup, wp_bind, wp_call]
  refine ⟨trivial, ?_⟩
  rintro r s₁ ⟨env, hsome, h⟩
  simp only [dpHandle, Prod.mk.injEq] at h
  obtain ⟨rfl, rfl⟩ := h
  cases hinfo : s.serverInfo i with
  | none => exact absurd hinfo hsome
  | some info => exact ⟨rfl, rfl, rfl⟩

theorem wp_unlock_creation {h : UInt32} {m : Cmem} {s : Nps} :
    (alvsUnlockConnection h).wp creationSpec (fun _ _ s' => s' = s) m s := by
  refine ⟨trivial, ?_⟩
  rintro _ _ ⟨env, -, h⟩
  exact (congrArg Prod.snd h).symm

/-- The server that a new entry gets. -/
structure ServerChosen (s : Nps) (key : ServerClassificationKey) (b : Bool) (server : UInt32)
    (port : UInt16) : Prop where
  bound : ∀ j, s.serverClassification key = some j → b = true ∧ server = j
  unbound : s.serverClassification key = none →
    b = false ∧ server = key.serverIp ∧ port = key.serverPort

theorem wp_stateSyncCreateConn {r : StateSyncConn} {hash : UInt32} {m : Cmem} {s : Nps} :
    (alvsStateSyncCreateConn r hash).wp creationSpec
      (fun rc _ s' => 0 ≤ rc ∧ ∃ b server port,
        ServerChosen s (r.classKey.serverKey (r.serverAddr, r.serverPort)) b server port ∧
        s'.HasConn m.connClassKey
          (newConnInfo m.connClassKey b server port r.state r.backupFlags false)) m s := by
  simp only [alvsStateSyncCreateConn, wp_bind, wp_call]
  refine ⟨trivial, ?_⟩
  rintro j s₁ ⟨env, hok, h⟩
  have hok : env.fails = false := hok
  simp only [dpHandle, hok, Bool.false_eq_true, if_false, Prod.mk.injEq] at h
  obtain ⟨rfl, rfl⟩ := h
  have hkey : s.serverClassification (r.classKey.serverKey (r.serverAddr, r.serverPort)) =
    s.serverClassification ⟨r.serverAddr, r.virtualAddr, r.serverPort, r.virtualPort,
      r.protocol.toUInt16⟩ := rfl
  cases hclass : s.serverClassification ⟨r.serverAddr, r.virtualAddr, r.serverPort,
    r.virtualPort, r.protocol.toUInt16⟩ with
  | some j =>
    refine wp_bind_of wp_serverInfoLookup_creation ?_
    rintro found m₁ s₁ ⟨rfl, hmem, rfl⟩
    refine wp_bind_of (wp_createNewEntry creationOk_creates) ?_
    rintro res m₂ s₂ ⟨rfl, hconn, -⟩
    refine wp_bind_of wp_unlock_creation ?_
    rintro _ m₃ s₃ rfl
    rw [hmem] at hconn
    refine ⟨by simp, true, j, 0, ⟨fun j' hj' => ⟨rfl, ?_⟩, fun hnone => ?_⟩, hconn⟩
    · rw [hkey, hclass] at hj'
      exact Option.some.inj hj'
    · rw [hkey, hclass] at hnone
      cases hnone
  | none =>
    refine wp_bind_of (wp_createNewEntry creationOk_creates) ?_
    rintro res m₂ s₂ ⟨rfl, hconn, -⟩
    refine wp_bind_of wp_unlock_creation ?_
    rintro _ m₃ s₃ rfl
    refine ⟨by simp, false, r.serverAddr, r.serverPort,
      ⟨fun j' hj' => ?_, fun _ => ⟨rfl, rfl, rfl⟩⟩, hconn⟩
    rw [hkey, hclass] at hj'
    cases hj'

/-- A known connection does not end the frame. -/
theorem wp_stateSyncExistingConn {r : StateSyncConn} {i hash : UInt32} {m : Cmem} {s : Nps} :
    (alvsStateSyncExistingConn r i hash).wp creationSpec (fun rc _ _ => 0 ≤ rc) m s := by
  refine wp_bind_of (wp_creationSpec _ _ _) ?_
  rintro found m₁ s₁ -
  refine (wp_ite _ _ _ _).mpr ⟨fun _ => ?_, fun _ => ?_⟩
  · rw [wp_bind, wp_get]
    refine wp_bind_of (wp_creationSpec _ _ _) ?_
    rintro found m₂ s₂ -
    refine (wp_ite _ _ _ _).mpr ⟨fun _ => ?_, fun _ => ?_⟩
    · rw [wp_bind, wp_get]
      refine (wp_ite _ _ _ _).mpr
        ⟨fun _ => (wp_ite _ _ _ _).mpr ⟨fun _ => ?_, fun _ => ?_⟩, fun _ => ?_⟩
      · refine wp_bind_of (wp_creationSpec _ _ _) ?_
        rintro _ m₃ s₃ -
        exact wp_mono wp_stateSyncCreateConn fun _ _ _ h => h.1
      · exact wp_bind_of (wp_creationSpec _ _ _) fun _ _ _ _ => Int.le_refl 0
      · rw [alvsStateSyncUpdateConn, wp_bind, wp_get]
        refine wp_bind_of (wp_creationSpec _ _ _) fun _ _ _ _ => ?_
        refine wp_bind_of (wp_creationSpec _ _ _) fun _ _ _ _ => ?_
        refine wp_bind_of (wp_creationSpec _ _ _) fun _ _ _ _ => ?_
        exact wp_bind_of (wp_creationSpec _ _ _) fun _ _ _ _ => Int.le_refl 0
    · exact wp_bind_of (wp_creationSpec _ _ _) fun _ _ _ _ => Int.one_nonneg
  · exact wp_bind_of (wp_creationSpec _ _ _) fun _ _ _ _ => Int.one_nonneg

/-- The record passes the checks of its version, type and protocol. -/
structure StateSyncConn.Supported (r : StateSyncConn) : Prop where
  version : r.version = 0
  type : r.type = 0
  protocol : r.protocol = ipprotoTcp ∨ r.protocol = ipprotoUdp

section Record

variable {r : StateSyncConn}

/-- A record that passes the checks : the connection is locked and looked up. -/
theorem stateSyncProcessConn_eq (hr : r.Supported) : alvsStateSyncProcessConn r = (do
    modify fun m => { m with connClassKey := r.classKey }
    let hashValue ← alvsLockConnection
    match ← dpCall (.connClassLookup .syncConn r.classKey) with
    | .found connIndex => alvsStateSyncExistingConn r connIndex hashValue
    | _ => alvsStateSyncCreateConn r hashValue) := by
  have hproto : ¬ (r.protocol ≠ ipprotoTcp ∧ r.protocol ≠ ipprotoUdp) := fun h =>
    hr.protocol.elim h.1 h.2
  unfold alvsStateSyncProcessConn
  exact (if_neg (not_not.mpr hr.version)).trans
    ((if_neg (not_not.mpr hr.type)).trans (if_neg hproto))

theorem wp_stateSyncProcessConn (hr : r.Supported) {m : Cmem} {s : Nps} :
    (alvsStateSyncProcessConn r).wp creationSpec
      (fun rc _ s' => 0 ≤ rc ∧ (s.connClassification r.classKey = none → ∃ b server port,
        ServerChosen s (r.classKey.serverKey (r.serverAddr, r.serverPort)) b server port ∧
        s'.HasConn r.classKey (newConnInfo r.classKey b server port r.state r.backupFlags false)))
      m s := by
  rw [stateSyncProcessConn_eq hr]
  simp only [wp_bind, wp_modify, alvsLockConnection, wp_get, wp_call]
  refine ⟨trivial, ?_⟩
  rintro hash s₁ ⟨env, -, h⟩
  simp only [dpHandle, Prod.mk.injEq] at h
  obtain ⟨-, rfl⟩ := h
  refine ⟨trivial, ?_⟩
  rintro res s₂ ⟨env₂, -, h⟩
  simp only [dpHandle, Prod.mk.injEq] at h
  obtain ⟨hres, rfl⟩ := h
  cases res with
  | found i =>
    refine wp_mono wp_stateSyncExistingConn fun rc _ _ h => ⟨h, fun hnone => ?_⟩
    rw [hnone] at hres
    split at hres <;> cases hres
  | notFound | error => exact wp_mono wp_stateSyncCreateConn fun rc _ _ h => ⟨h.1, fun _ => h.2⟩

end Record

/-! ## The record of an entry -/

/-- The connection is of a protocol that a sync message can have. -/
def ConnClassificationKey.Syncable (key : ConnClassificationKey) : Prop :=
  key.protocol = ipprotoTcp.toUInt16 ∨ key.protocol = ipprotoUdp.toUInt16

instance (key : ConnClassificationKey) : Decidable key.Syncable :=
  inferInstanceAs (Decidable (_ ∨ _))

section Entry

variable {c : ConnInfoResult} {info : ServerInfoResult}

theorem syncRecord_server :
    ((c.syncRecord info).serverAddr, (c.syncRecord info).serverPort) = c.syncServer info := by
  unfold ConnInfoResult.syncRecord alvsStateSyncSetSyncConn ConnInfoResult.syncServer
  cases hb : c.bound <;> simp [hb]

/-- The record has the key of the connection if its protocol fits. -/
theorem syncRecord_classKey (h : c.connClassKey.Syncable) :
    (c.syncRecord info).classKey = c.connClassKey := by
  have hproto : c.connClassKey.protocol.toUInt8.toUInt16 = c.connClassKey.protocol := by
    rcases h with h | h
    · rw [h]
      rfl
    · rw [h]
      rfl
  change ConnClassificationKey.mk _ _ _ _ c.connClassKey.protocol.toUInt8.toUInt16 = _
  rw [hproto]
  rfl

theorem supported_syncRecord (h : c.connClassKey.Syncable) : (c.syncRecord info).Supported where
  version := rfl
  type := rfl
  protocol := by
    change c.connClassKey.protocol.toUInt8 = _ ∨ c.connClassKey.protocol.toUInt8 = _
    rcases h with h | h
    · rw [h]
      exact .inl rfl
    · rw [h]
      exact .inr rfl

/-- The record of a connection is restored exactly if it is of TCP or UDP. -/
theorem restored_syncRecord_iff :
    (c.syncRecord info).Restored c info ↔ c.connClassKey.Syncable := by
  constructor
  · intro h
    by_contra hnot
    obtain ⟨k, hk⟩ := h.decoded .zero
    by_cases hproto : (c.syncRecord info).protocol ≠ ipprotoTcp ∧
        (c.syncRecord info).protocol ≠ ipprotoUdp
    · rw [alvsStateSyncProcessConn, if_neg (by exact not_not.mpr rfl),
        if_neg (by exact not_not.mpr rfl), if_pos hproto] at hk
      cases hk
    · -- the protocol of the record is that of the connection cut to 8 bits
      have hr : (c.syncRecord info).Supported := ⟨rfl, rfl, by
        rw [not_and_or, not_not, not_not] at hproto
        exact hproto⟩
      rw [stateSyncProcessConn_eq hr] at hk
      have hkey : (c.syncRecord info).classKey = c.connClassKey := by
        injection hk with hop
        injection hop
      have hp := congrArg ConnClassificationKey.protocol hkey
      refine hnot ?_
      rw [ConnClassificationKey.Syncable, ← hp]
      exact hr.protocol.imp (congrArg UInt8.toUInt16) (congrArg UInt8.toUInt16)
  · intro h
    have hr : (c.syncRecord info).Supported := supported_syncRecord h
    have hkey : (c.syncRecord info).classKey = c.connClassKey := syncRecord_classKey h
    refine ⟨fun m => ?_, fun m es s hok => ?_, fun m es s hnone hok => ?_⟩
    · rw [stateSyncProcessConn_eq hr, ← hkey]
      exact ⟨_, rfl⟩
    · exact (Prog.execEnv_of_wp _ (wp_stateSyncProcessConn hr) hok).1
    · rw [← hkey] at hnone
      obtain ⟨b, server, port, hserver, i, hclass, hconn⟩ :=
        (Prog.execEnv_of_wp _ (wp_stateSyncProcessConn hr) hok).2 hnone
      rw [hkey] at hclass hconn hserver
      rw [syncRecord_server] at hserver
      refine ⟨i, _, hclass, hconn, restores_newConnInfo hserver.bound fun hnone => ?_⟩
      obtain ⟨hb, hserver, hport⟩ := hserver.unbound hnone
      exact ⟨hb, Prod.ext hserver hport⟩

end Entry

/-! ## Accepting a frame -/

section Accept

variable {ez : Ezdp} {eth buffer : List UInt8} {rest : List (List UInt8)} {ip : UInt32}
  {res id n : UInt8} {conns : List StateSyncConn}

/-- A backup whose sync id is that of the frame checks the rest of the sync header. -/
theorem stateSyncBackup_run (hn : n.toNat = conns.length) (m : Cmem) :
    ∃ k, (alvsStateSyncBackup (syncMessage res id n conns)).run m = .call .appInfoLookup k ∧
      ∀ app : AppInfoResult, app.backupBit = true → app.bSyncId = 0 ∨ app.bSyncId = id →
        k (some app) = (if res = 0 then alvsStateSyncProcessConns conns.length conns
          else alvsDiscardAndStats .stateSyncBadMessageVersion).run m := by
  refine ⟨_, rfl, fun app hbackup hid => ?_⟩
  have hsync : ¬ (app.bSyncId ≠ 0 ∧ id ≠ app.bSyncId) := fun h =>
    hid.elim h.1 fun h' => h.2 h'.symm
  change (if app.backupBit = false then alvsDiscardAndStats .stateSyncBackupDown
    else if app.bSyncId ≠ 0 ∧ id ≠ app.bSyncId then alvsDiscardAndStats .stateSyncBackupNotMySyncid
    else if alvsStateSyncProtoVer = alvsStateSyncProtoVer ∧ res = 0 ∧ (0 : UInt16) = 0 then
      alvsStateSyncProcessConns n.toNat conns
    else alvsDiscardAndStats .stateSyncBadMessageVersion).run m = _
  rw [hbackup, if_neg (by decide), if_neg hsync, hn]
  simp only [true_and, and_true]

/-- The processing of a frame by a backup whose sync id is that of the frame. -/
theorem nwRecieve_run (hez : ez.Documented)
    (hb : SyncFrameBytes ez eth ip res id n conns buffer rest)
    (hmac : (ez.decodeMac buffer).ForBackup) (m : Cmem) :
    ∃ k m', (nwRecieveAndParseFrame ez (buffer :: rest)).run m = .call .appInfoLookup k ∧
      ∀ app : AppInfoResult, app.backupBit = true → app.bSyncId = 0 ∨ app.bSyncId = id →
        k (some app) = (if res = 0 then alvsStateSyncProcessConns conns.length conns
          else alvsDiscardAndStats .stateSyncBadMessageVersion).run m' := by
  rw [hb.nwRecieve_eq hez hmac]
  obtain ⟨k, hk, happ⟩ := stateSyncBackup_run hb.count { m with
    frameLength := .ofNat (buffer :: rest).flatten.length
    connSyncState := { m.connSyncState with connSyncStatus := .noNeed } }
  exact ⟨k, _, hk, happ⟩

/-- The records of a frame are processed, and not counted as an error of its header. -/
theorem processConns_ne_badVersion (hconns : ∀ r ∈ conns, ∀ m, ∃ key k,
    (alvsStateSyncProcessConn r).run m = .call (.lockConnection key) k) (m m' : Cmem) :
    (alvsStateSyncProcessConns conns.length conns).run m ≠
      (alvsDiscardAndStats .stateSyncBadMessageVersion).run m' := by
  intro h
  cases conns with
  | nil => cases h
  | cons r conns =>
    obtain ⟨key, k, hk⟩ := hconns r List.mem_cons_self m
    rw [List.length_cons, alvsStateSyncProcessConns, StateT.run_bind, hk] at h
    cases h

/-- A backup restores a frame exactly if it is one for a backup, its byte `reserved` is 0, and
all its connections are of TCP or UDP. -/
theorem frameRestored_iff {entries : List (ConnInfoResult × ServerInfoResult)}
    (hez : ez.Documented)
    (hb : SyncFrameBytes ez eth ip res id n (entries.map entryRecord) buffer rest) :
    FrameRestored ez (buffer :: rest) id entries ↔
      res = 0 ∧ (ez.decodeMac buffer).ForBackup ∧ ∀ e ∈ entries, e.1.connClassKey.Syncable := by
  have hrecords : (∀ e ∈ entries, (entryRecord e).Restored e.1 e.2) ↔
      ∀ e ∈ entries, e.1.connClassKey.Syncable :=
    forall₂_congr fun _ _ => restored_syncRecord_iff
  constructor
  · rintro ⟨haccepted, hrestored⟩
    have hmac : (ez.decodeMac buffer).ForBackup := by
      by_contra hmac
      obtain ⟨counter, k, hk⟩ := hb.nwRecieve_host hez hmac .zero
      obtain ⟨k', m', hk', -⟩ := haccepted .zero ⟨false, true, 0, 0, 0⟩ rfl (.inl rfl)
      rw [hk] at hk'
      cases hk'
    refine ⟨?_, hmac, hrecords.mp hrestored⟩
    by_contra hres
    obtain ⟨k, m', hk, happ⟩ := nwRecieve_run hez hb hmac .zero
    obtain ⟨k', m'', hk', happ'⟩ := haccepted .zero ⟨false, true, 0, 0, 0⟩ rfl (.inl rfl)
    have hkk : k = k' := by
      rw [hk] at hk'
      injection hk'
    rw [← hkk, happ _ rfl (.inl rfl), if_neg hres] at happ'
    refine processConns_ne_badVersion (fun r hr m => ?_) _ _ happ'.symm
    obtain ⟨e, he, rfl⟩ := List.mem_map.mp hr
    exact ⟨_, (hrestored e he).decoded m⟩
  · rintro ⟨hres, hmac, hkeys⟩
    refine ⟨fun m app hbackup hid => ?_, hrecords.mpr hkeys⟩
    obtain ⟨k, m', hk, happ⟩ := nwRecieve_run hez hb hmac m
    refine ⟨k, m', hk, ?_⟩
    rw [happ app hbackup hid, if_pos hres]

end Accept

/-! ## Frames that a master builds -/

/-- A sync frame that a master builds for the connections of `entries`, each with the server
information that it had at hand : in `alvs_state_sync_send_single` for the connection in the
memory of the thread, or in an aging event, with the records of the connections it has
scanned. -/
inductive SyncFrame.Built : SyncFrame → List (ConnInfoResult × ServerInfoResult) → Prop
  | single {f : SyncFrame} {sourceIp : UInt32} {syncId : UInt8} {m m' : Cmem} {tr : List DpEvent}
      (h : ((alvsStateSyncSendSingle sourceIp syncId).run m).Path tr ((), m'))
      (hf : f ∈ (syncWatch tr).given) : Built f [(m.connInfoResult, m.serverInfoResult)]
  | aggregated {f : SyncFrame} {eventId : UInt32} {m m' : Cmem} {tr : List DpEvent}
      {entries : List (ConnInfoResult × ServerInfoResult)}
      (h : ((alvsHandleAgingEvent eventId).run m).Path tr ((), m'))
      (hmaster : tr.any deniesMaster = false) (hf : f ∈ (syncWatch tr).given)
      (hentries : f.conns = entries.map entryRecord) : Built f entries

/-- The frame of one connection. -/
def Cmem.singleFrame (m : Cmem) (sourceIp : UInt32) (syncId : UInt8) : SyncFrame :=
  ⟨⟨sourceIp, syncId, 1⟩, none, [⟨[alvsStateSyncSetSyncConn m], 86⟩]⟩

theorem measured_singleFrame (m : Cmem) (ip : UInt32) (id : UInt8) :
    (m.singleFrame ip id).Measured where
  nonempty := List.cons_ne_nil _ _
  first b hb := by
    obtain rfl := Option.some.inj hb
    rfl
  later b hb := absurd hb List.not_mem_nil
  count := rfl

/-- Only `f` is given to the network. -/
structure SyncWatch.GivesOnly (f : SyncFrame) (w : SyncWatch) : Prop where
  frame : ∀ f' ∈ w.frame, f' = f
  given : ∀ f' ∈ w.given, f' = f

theorem SyncWatch.GivesOnly.next {f : SyncFrame} {w : SyncWatch} (h : w.GivesOnly f) {op : DpCall}
    (hop : op.Ships) (r : op.Res) : (w.next ⟨op, r⟩).GivesOnly f := by
  cases op
  case hashDestMac =>
    refine ⟨h.frame, fun f' hf' => ?_⟩
    rcases List.mem_append.mp hf' with hf' | hf'
    · exact h.given f' hf'
    · exact h.frame f' (Option.mem_toList.mp hf')
  case interfaceLookup => cases r <;> exact ⟨h.frame, h.given⟩
  case frameSendToIf => exact ⟨h.frame, h.given⟩
  case addPostedCtr | frameFree => exact h
  all_goals exact hop.elim

theorem SyncWatch.GivesOnly.assertion {f : SyncFrame} {w : SyncWatch} (h : w.GivesOnly f)
    (b : Bool) (r : Unit) : (w.next ⟨.assertion b, r⟩).GivesOnly f := by
  cases b
  all_goals exact ⟨h.frame, h.given⟩

theorem Ships.givesOnly {α : Type} {x : Dp α} (hx : Ships x) {f : SyncFrame} {w : SyncWatch}
    (h : w.GivesOnly f) (m : Cmem) :
    x.wp roleSpec (fun _ m' w' => m.SameRecord m' ∧ w'.GivesOnly f) m w :=
  hx.wp_keeps (fun _ _ hw hop => ⟨trivial, fun r _ hr => hr.1 ▸ hw.next hop r⟩) m h

theorem wp_sendSingle (ip : UInt32) (id : UInt8) (m : Cmem) :
    (alvsStateSyncSendSingle ip id).wp roleSpec (fun _ _ w => w.GivesOnly (m.singleFrame ip id))
      m .start := by
  have hstart : SyncWatch.start.GivesOnly (m.singleFrame ip id) := ⟨nofun, nofun⟩
  rw [alvsStateSyncSendSingle, wp_bind, alvsStateSyncFirst, wp_bind]
  refine wp_mono (Ships.givesOnly (.of_discard (ships_interfaceLookup _)) hstart m) ?_
  rintro _ l w ⟨hl, hw⟩
  simp only [wp_modify, wp_bind, wp_get, wp_call]
  refine ⟨trivial, ?_⟩
  rintro r w₁ ⟨hw₁, -⟩
  have hw₁ : w₁.GivesOnly (m.singleFrame ip id) := hw₁ ▸ hw.assertion _ r
  refine ⟨trivial, ?_⟩
  rintro (_ | _) w₂ ⟨rfl, -⟩
  · exact ⟨hw₁.frame, hw₁.given⟩
  · rw [if_pos rfl]
    have hframe : m.singleFrame ip id = ⟨⟨ip, id, 1⟩, none, [⟨[alvsStateSyncSetSyncConn l],
        (sizeofEtherHeader + sizeofNetHdr + sizeofStateSyncHeader +
          sizeofStateSyncConn).toUInt32⟩]⟩ := by
      rw [Cmem.singleFrame, ← hl.record]
      rfl
    rw [hframe] at hw₁ ⊢
    have hnew : (w₁.next ⟨.frameNew ⟨ip, id, 1⟩ [alvsStateSyncSetSyncConn l]
        (sizeofEtherHeader + sizeofNetHdr + sizeofStateSyncHeader + sizeofStateSyncConn).toUInt32,
        true⟩).GivesOnly _ := ⟨fun f' hf' => (Option.some.inj hf').symm, hw₁.given⟩
    exact wp_mono ((ships_sendFrameToNetwork _).givesOnly hnew _) fun _ _ _ h => h.2

/-- Every record that was passed is that of an entry. -/
def SyncWatch.OfEntries (w : SyncWatch) : Prop := ∀ r ∈ w.passed, ∃ e, entryRecord e = r

theorem SyncWatch.OfEntries.next {w : SyncWatch} (h : w.OfEntries) (ev : DpEvent) :
    (w.next ev).OfEntries := by
  have hsnoc : ∀ e, ∀ r ∈ w.passed ++ [entryRecord e], ∃ e, entryRecord e = r := fun e r hr => by
    rcases List.mem_append.mp hr with hr | hr
    · exact h r hr
    · exact ⟨e, (List.mem_singleton.mp hr).symm⟩
  unfold SyncWatch.next
  split
  case h_1 => split <;> exact h
  case h_2 =>
    split
    · unfold SyncWatch.pass
      split
      · exact h
      · exact hsnoc (_, _)
    · exact h
  case h_3 =>
    unfold SyncWatch.lookup
    split
    · exact hsnoc (_, _)
    all_goals exact h
  all_goals exact h

/-- The calls after the lookup of the application information, on a path of an aging event that
has found the master bit. -/
theorem agingFrom_of_path {eventId : UInt32} {m m' : Cmem} {tr : List DpEvent}
    (h : ((alvsHandleAgingEvent eventId).run m).Path tr ((), m'))
    (hmaster : tr.any deniesMaster = false) : ∃ app tr', app.any (·.masterBit) = true ∧
      ((alvsHandleAgingFrom eventId app).run m).Path tr' ((), m') ∧
      syncWatch tr = tr'.foldl SyncWatch.next .master₀ := by
  rw [alvsHandleAgingEvent_eq] at h
  obtain ⟨_, tr₁, htr₁, h₁⟩ := Prog.path_call_iff.mp h
  obtain ⟨app, tr₂, htr₂, h₂⟩ := Prog.path_call_iff.mp h₁
  subst htr₂ htr₁
  have hbit : app.any (·.masterBit) = true := by
    by_contra hbit
    simp [deniesMaster, hbit] at hmaster
  refine ⟨app, tr₂, hbit, h₂, ?_⟩
  change tr₂.foldl SyncWatch.next (SyncWatch.start.next ⟨.appInfoLookup, app⟩) = _
  rw [next_appInfoLookup hbit]

/-- The frames of an aging event are built for entries that the event has scanned. -/
theorem exists_built {eventId : UInt32} {m m' : Cmem} {tr : List DpEvent}
    (h : ((alvsHandleAgingEvent eventId).run m).Path tr ((), m'))
    (hmaster : tr.any deniesMaster = false) {f : SyncFrame} (hf : f ∈ (syncWatch tr).given) :
    ∃ entries, f.Built entries := by
  obtain ⟨app, tr', hbit, hpath, hwatch⟩ := agingFrom_of_path h hmaster
  have hfaithful : (tr'.foldl SyncWatch.next .master₀).Faithful :=
    of_roleSpec (faithful_agingFrom eventId m hbit) hpath
  have hentries : (tr'.foldl SyncWatch.next .master₀).OfEntries :=
    of_roleSpec (Prog.wp_invariant (fun w op hw => ⟨trivial, fun r w' hr => hr.1 ▸ hw.next _⟩)
      ((alvsHandleAgingFrom eventId app).run m) (fun _ hr => absurd hr List.not_mem_nil)) hpath
  have hrecords : ∀ r ∈ f.conns, r ∈ Set.range entryRecord := fun r hr =>
    hentries r ((hfaithful.given f (hwatch ▸ hf)).2 r hr)
  have hmap : f.conns ∈ Set.range (List.map entryRecord) := by
    rw [Set.range_list_map]
    exact hrecords
  obtain ⟨entries, hentries⟩ := hmap
  exact ⟨entries, .aggregated h hmaster hf hentries.symm⟩

/-- A frame that is built is measured, and its records are those of the entries. -/
theorem SyncFrame.Built.spec {f : SyncFrame} {entries : List (ConnInfoResult × ServerInfoResult)}
    (h : f.Built entries) : f.Measured ∧ f.conns = entries.map entryRecord := by
  cases h with
  | @single ip id m m' tr h hf =>
    have hgives : (syncWatch tr).GivesOnly (m.singleFrame ip id) :=
      of_roleSpec (wp_sendSingle ip id m) h
    rw [hgives.given f hf]
    exact ⟨measured_singleFrame m ip id, congrArg (fun r => [r]) (setSyncConn_eq_syncRecord m)⟩
  | @aggregated eventId m m' tr _ h hmaster hf hentries =>
    obtain ⟨app, tr', hbit, hpath, hwatch⟩ := agingFrom_of_path h hmaster
    have hfaithful : (tr'.foldl SyncWatch.next .master₀).Faithful :=
      of_roleSpec (faithful_agingFrom eventId m hbit) hpath
    exact ⟨(hfaithful.given f (hwatch ▸ hf)).1, hentries⟩

/-- The bytes of a frame that is built. -/
theorem SyncFrame.Built.frameBytes {f : SyncFrame}
    {entries : List (ConnInfoResult × ServerInfoResult)} (h : f.Built entries) {ez : Ezdp}
    {mac : Option MacAddr} {d : Nat → FrameData} {first : List UInt8} {rest : List (List UInt8)}
    (hfirst : 42 ≤ first.length)
    (hbytes : (first :: rest).flatten = (f.bytes ez.ipv4Checksum mac d).flatten) :
    SyncFrameBytes ez (ethHdrOf (d 0) mac) f.headers.sourceIp (d 0 42) f.headers.syncId f.connCount
      (entries.map entryRecord) first rest := by
  obtain ⟨hmeasured, hconns⟩ := h.spec
  obtain ⟨check, hcheck, hflat⟩ := f.flatten_bytes ez.ipv4Checksum hmeasured mac d
  refine ⟨length_ethHdrOf _ _, hfirst, fun r hr => ?_, ?_, check, hcheck, ?_⟩
  · obtain ⟨e, -, rfl⟩ := List.mem_map.mp hr
    exact ⟨Nat.lt_of_sub_eq_succ rfl, Nat.lt_of_sub_eq_succ rfl⟩
  · rw [← hconns, hmeasured.count]
  · rw [hbytes, hflat, hconns]

/-- When a backup restores a frame that is built. -/
theorem SyncFrame.Built.restored_iff {f : SyncFrame}
    {entries : List (ConnInfoResult × ServerInfoResult)} (h : f.Built entries) {ez : Ezdp}
    (hez : ez.Documented) {mac : Option MacAddr} (hmac : ∀ a ∈ mac, a[0] &&& 1 = 0)
    {d : Nat → FrameData} {first : List UInt8} {rest : List (List UInt8)}
    (hfirst : 42 ≤ first.length)
    (hbytes : (first :: rest).flatten = (f.bytes ez.ipv4Checksum mac d).flatten) :
    FrameRestored ez (first :: rest) f.headers.syncId entries ↔
      d 0 42 = 0 ∧ (mac = none → (ez.decodeMac first).ForBackup) ∧
        ∀ e ∈ entries, e.1.connClassKey.Syncable := by
  have hb := h.frameBytes hfirst hbytes
  rw [frameRestored_iff hez hb]
  have hfor : (ez.decodeMac first).ForBackup ↔ (mac = none → (ez.decodeMac first).ForBackup) := by
    refine ⟨fun h _ => h, fun h => ?_⟩
    cases mac with
    | none => exact h rfl
    | some a =>
      obtain ⟨check, -, hflat⟩ := hb.bytes
      rw [List.flatten_cons, headerBytes, List.append_assoc, List.append_assoc] at hflat
      obtain ⟨heth, -⟩ := split_of_append hflat (length_ethHdrOf _ _) (by omega)
      have hdecode := hez.mac a (first.drop 14) (hmac a rfl)
      have hsplit : ethHdrBytes a ++ first.drop 14 = first := by
        rw [show ethHdrBytes a = first.take 14 from heth.symm, List.take_append_drop]
      rw [hsplit] at hdecode
      rw [hdecode]
      exact ⟨rfl, rfl, rfl, rfl⟩
  rw [← hfor]

/-- A sync frame that a master has built, for any entries, from any content of `frame_data`, is
restored by a backup exactly when the byte that becomes `reserved` was 0, the Ethernet header
was written (the interface was found) or is that of an IPv4 multicast frame all the same, and
all the connections are of TCP or UDP. The frames of an aging event of a master are built for
the entries it has scanned. -/
theorem syncFrame_restored {ez : Ezdp} (hez : ez.Documented) :
    (∀ (eventId : UInt32) (m m' : Cmem) (tr : List DpEvent),
      ((alvsHandleAgingEvent eventId).run m).Path tr ((), m') → tr.any deniesMaster = false →
      ∀ f ∈ (syncWatch tr).given, ∃ entries, f.Built entries) ∧
    ∀ (f : SyncFrame) (entries : List (ConnInfoResult × ServerInfoResult))
      (mac : Option MacAddr) (d : Nat → FrameData) (first : List UInt8) (rest : List (List UInt8)),
      f.Built entries → (∀ a ∈ mac, a[0] &&& 1 = 0) → 42 ≤ first.length →
      (first :: rest).flatten = (f.bytes ez.ipv4Checksum mac d).flatten →
      (FrameRestored ez (first :: rest) f.headers.syncId entries ↔
        d 0 42 = 0 ∧ (mac = none → (ez.decodeMac first).ForBackup) ∧
          ∀ e ∈ entries, e.1.connClassKey.Syncable) :=
  ⟨fun _ _ _ _ h hmaster _ hf => exists_built h hmaster hf,
    fun _ _ _ _ _ _ hf hmac hfirst hbytes => hf.restored_iff hez hmac hfirst hbytes⟩

/-! ## An implementation of the SDK -/

theorem halfwordSum_append : ∀ {a : List UInt8} (b : List UInt8), a.length % 2 = 0 →
    halfwordSum (a ++ b) = halfwordSum a + halfwordSum b
  | [], b, _ => (Nat.zero_add _).symm
  | [_], _, h => absurd h Nat.one_ne_zero
  | x :: y :: a, b, h => by
    have heven : a.length % 2 = 0 := by
      simp only [List.length_cons] at h
      omega
    rw [List.cons_append, List.cons_append, halfwordSum, halfwordSum, halfwordSum_append b heven,
      Nat.add_assoc]

/-- The checksum that makes the sum of the halfwords a multiple of 65535. -/
def completingChecksum (hdr : List UInt8) : UInt16 :=
  .ofNat (65535 - halfwordSum (withChecksum hdr 0) % 65535)

theorem checksumValid_completing {hdr : List UInt8} (h : hdr.length = 20) :
    ChecksumValid (withChecksum hdr (completingChecksum hdr)) := by
  have hsum : ∀ c : UInt16, halfwordSum (withChecksum hdr c) =
      halfwordSum (hdr.take 10) + c.toNat + halfwordSum (hdr.drop 12) := fun c => by
    have hc : halfwordSum (bigEndian 2 c.toNat) = c.toNat := by
      change value (bigEndian 2 c.toNat) + 0 = _
      rw [value_bigEndian c.toNat_lt, Nat.add_zero]
    rw [withChecksum, halfwordSum_append, halfwordSum_append, hc]
    all_goals simp [h]
  have hzero := hsum 0
  have hc : (completingChecksum hdr).toNat = 65535 - halfwordSum (withChecksum hdr 0) % 65535 := by
    rw [completingChecksum, UInt16.toNat_ofNat']
    exact Nat.mod_eq_of_lt (by omega)
  rw [ChecksumValid, hsum, hc]
  rw [UInt16.toNat_zero] at hzero
  omega

/-- Decoders for frames without tags and IPv4 headers without options. -/
def exampleEzdp : Ezdp where
  decodeMac bs := ⟨false, false, (field bs 0 1).testBit 0, field bs 12 2 = ethertypeIp, 14⟩
  decodeIpv4 hdr frameLength :=
    ⟨!decide (hdr.length = 20 ∧ field hdr 0 1 = 0x45 ∧ 20 ≤ field hdr 2 2 ∧
      field hdr 2 2 ≤ frameLength ∧ halfwordSum hdr % 0xffff = 0),
      field hdr 9 1 = 6, field hdr 9 1 = 17⟩
  ipv4Checksum := completingChecksum

theorem exampleEzdp_documented : exampleEzdp.Documented where
  mac src bs _ := by
    have htype : field (ethHdrBytes src ++ bs) 12 2 = ethertypeIp := by
      have hlen : (ethHdrBytes src).length = 12 + 2 := length_ethHdrOf (fun _ => 0) (some src)
      have hhead : (alvsStateSyncDstMac ++ src.toList).length = 12 := by
        rw [List.length_append, Vector.length_toList]
        rfl
      rw [field_append_left (Nat.le_of_eq hlen.symm), ethHdrBytes,
        field_append_of_le (Nat.le_of_eq hhead), hhead]
      rfl
    have hdst : field (ethHdrBytes src ++ bs) 0 1 = 1 := rfl
    change MacDecodeResult.mk false false _ _ 14 = _
    rw [htype, hdst]
    rfl
  layer2 bs _ hip := ⟨0, rfl, of_decide_eq_true hip, nofun⟩
  checksum _ h := checksumValid_completing h
  ipv4 hdr frameLength h hv hlen hle hcheck := by
    have hok : hdr.length = 20 ∧ field hdr 0 1 = 0x45 ∧ 20 ≤ field hdr 2 2 ∧
        field hdr 2 2 ≤ frameLength ∧ halfwordSum hdr % 0xffff = 0 := ⟨h, hv, hlen, hle, hcheck⟩
    change Ipv4DecodeResult.mk (!decide _) _ _ = _
    rw [decide_eq_true hok]
    rfl

/-! ## Frames of one and of two connections -/

/-- An established connection of a TCP service, with its server. -/
def exampleEntry : ConnInfoResult × ServerInfoResult :=
  (newConnInfo ⟨0x0a000001, 0x0a0000fe, 4000, 80, 6⟩ true 0 0 1 3 false, Cmem.zero.serverInfoResult)

/-- The memory of a thread that sends the connection. -/
def exampleSender : Cmem := { Cmem.zero with connInfoResult := exampleEntry.1 }

def exampleFrame : SyncFrame := exampleSender.singleFrame 0x0a000003 7

def exampleMac : MacAddr := ⟨#[0x02, 0, 0, 0, 0, 1], rfl⟩

theorem exampleMac_unicast : ∀ a ∈ some exampleMac, a[0] &&& 1 = 0 := fun a ha => by
  obtain rfl := Option.some.inj ha
  rfl

/-- The frame of an aging event that has scanned two connections. -/
def agingFrame : SyncFrame :=
  ⟨⟨0x0a000003, 7, 1⟩, some 2, [⟨[entryRecord exampleEntry, (newConnInfo ⟨0x0a000002, 0x0a0000fe,
    4000, 80, 6⟩ false 0x0a000005 80 1 3 false).syncRecord Cmem.zero.serverInfoResult], 122⟩]⟩

theorem exampleFrame_built : exampleFrame.Built [exampleEntry] := by
  have hpath := Prog.path_trace (dpHandle masterEnv) ((alvsStateSyncSendSingle 0x0a000003 7).run
    exampleSender) Sys.init.nps
  exact .single hpath (by decide +kernel)

/-- A thread whose `frame_data` is zero. -/
theorem syncFrame_restored_zero :
    FrameRestored exampleEzdp
      [exampleFrame.firstBytes completingChecksum (some exampleMac) (fun _ => 0)
        ⟨[alvsStateSyncSetSyncConn exampleSender], 86⟩] 7 [exampleEntry] ∧
      ∃ entries, agingFrame.Built entries :=
  ⟨((syncFrame_restored exampleEzdp_documented).2 exampleFrame [exampleEntry] (some exampleMac)
      (fun _ _ => 0) _ [] exampleFrame_built exampleMac_unicast
      (Nat.le_of_ble_eq_true (by rfl)) rfl).mpr ⟨rfl, nofun, by decide⟩,
    (syncFrame_restored exampleEzdp_documented).1 0 .zero _ _
      (Prog.path_trace (dpHandle masterEnv) _ twoConnNps) (by decide +kernel) agingFrame
      (by decide +kernel)⟩

/-- The byte that becomes `reserved` was 1. -/
theorem syncFrame_restored_fails :
    exampleEzdp.Documented ∧ exampleFrame.Built [exampleEntry] ∧
      ¬ FrameRestored exampleEzdp
        [exampleFrame.firstBytes completingChecksum (some exampleMac) (fun _ => 1)
          ⟨[alvsStateSyncSetSyncConn exampleSender], 86⟩] 7 [exampleEntry] := by
  refine ⟨exampleEzdp_documented, exampleFrame_built, fun h => ?_⟩
  have hiff := @SyncFrame.Built.restored_iff _ _ exampleFrame_built _ exampleEzdp_documented _
    exampleMac_unicast (fun _ _ => 1) _ [] (Nat.le_of_ble_eq_true (by rfl)) rfl
  exact absurd (hiff.mp h).1 (by decide)

end Alvs
