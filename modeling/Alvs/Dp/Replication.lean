import Alvs.Dp.ConnMap
import Mathlib.Data.List.TakeWhile

/-!
# Replication of the connections

A backup keeps a map from 5-tuples to entries (`Nps.conns`). A record of a sync message changes it
at the 5-tuple of the record, by `Nps.syncedEntry`, and a message by its records in order
(`Nps.syncMessage`). `stateSyncBackup_maps` : this is what the code does, where no call fails.

`replication_run` : the frames of any aging event of a master, cut into buffers in any way, make
the backup's map the one that the records of the connections the master has aged out make of it,
in the order in which it has scanned them.
-/

namespace Alvs

open ProgLogic LProg

/-! ## The map of a backup -/

section Definitions

/-- The record is of a protocol that is balanced. -/
def StateSyncConn.Carried (r : StateSyncConn) : Prop :=
  r.protocol = ipprotoTcp ∨ r.protocol = ipprotoUdp

instance (r : StateSyncConn) : Decidable r.Carried := inferInstanceAs (Decidable (_ ∨ _))

/-- The record is of the version and the type that are understood. -/
def StateSyncConn.Readable (r : StateSyncConn) : Prop := r.version = 0 ∧ r.type = 0

instance (r : StateSyncConn) : Decidable r.Readable := inferInstanceAs (Decidable (_ ∧ _))

namespace Nps

variable (s : Nps)

/-- The entry that a record makes, bound where its server is found; none if the server that is
found has no info entry. -/
def freshEntry (r : StateSyncConn) : Option ConnInfoResult :=
  match s.serverClassification r.serverKey with
  | some j => (s.serverInfo j).map fun _ =>
      newConnInfo r.classKey true j 0 r.state r.backupFlags false
  | none => some (newConnInfo r.classKey false r.serverAddr r.serverPort r.state r.backupFlags
      false)

/-- The entry of a connection after a record of it. An entry of the same server is updated, and one
of another server makes room for a new entry, unless the record is INACTIVE. -/
def syncedEntry (r : StateSyncConn) (entry : Option ConnInfoResult) : Option ConnInfoResult :=
  if r.Carried then
    match entry with
    | none => s.freshEntry r
    | some c =>
      match s.connServer c with
      | none => some c
      | some server =>
        if server = r.server then some ((s.rebound r c).synced r)
        else if r.Inactive then some c
        else s.freshEntry r
  else entry

/-- The map after the records that are read : those before the first one that is not readable. -/
def syncRecords (rs : List StateSyncConn) :
    (ConnClassificationKey → Option ConnInfoResult) →
      ConnClassificationKey → Option ConnInfoResult :=
  updates (·.classKey) s.syncedEntry (rs.takeWhile (·.Readable))

/-- A backup reads the records of the message. -/
def Reads (app : AppInfoResult) (hdr : StateSyncHeader) : Prop :=
  app.backupBit = true ∧ (app.bSyncId = 0 ∨ hdr.syncid = app.bSyncId) ∧
    hdr.version = alvsStateSyncProtoVer ∧ hdr.reserved = 0 ∧ hdr.spare = 0

instance (app : AppInfoResult) (hdr : StateSyncHeader) : Decidable (Reads app hdr) :=
  inferInstanceAs (Decidable (_ ∧ _))

/-- The map after a message. -/
def syncMessage (app : Option AppInfoResult) (message : SyncMessage)
    (conns : ConnClassificationKey → Option ConnInfoResult) :
    ConnClassificationKey → Option ConnInfoResult :=
  match app, message.header with
  | some app, some hdr =>
    if Reads app hdr then s.syncRecords (message.conns.take hdr.connCount.toNat) conns else conns
  | _, _ => conns

end Nps

end Definitions

/-! ## A record -/

section Record

variable {r : StateSyncConn} {m : Cmem} {s s' : Nps}

theorem freshEntry_unbound (hclass : s.serverClassification r.serverKey = none) :
    s.freshEntry r =
      some (newConnInfo r.classKey false r.serverAddr r.serverPort r.state r.backupFlags
        false) := by
  rw [Nps.freshEntry, hclass]

theorem freshEntry_bound {j : UInt32} {info : ServerInfoResult}
    (hclass : s.serverClassification r.serverKey = some j) (hinfo : s.serverInfo j = some info) :
    s.freshEntry r = some (newConnInfo r.classKey true j 0 r.state r.backupFlags false) := by
  rw [Nps.freshEntry, hclass]
  exact congrArg (Option.map _) hinfo

theorem freshEntry_none {j : UInt32} (hclass : s.serverClassification r.serverKey = some j)
    (hinfo : s.serverInfo j = none) : s.freshEntry r = none := by
  rw [Nps.freshEntry, hclass]
  exact congrArg (Option.map _) hinfo

theorem syncedEntry_none (hr : r.Carried) : s.syncedEntry r none = s.freshEntry r := if_pos hr

theorem syncedEntry_some (hr : r.Carried) {c : ConnInfoResult} {server : UInt32 × UInt16}
    (hserver : s.connServer c = some server) : s.syncedEntry r (some c) =
      if server = r.server then some ((s.rebound r c).synced r)
      else if r.Inactive then some c
      else s.freshEntry r := by
  rw [Nps.syncedEntry, if_pos hr]
  simp only [hserver]

theorem syncedEntry_noServer {c : ConnInfoResult} (hserver : s.connServer c = none) :
    s.syncedEntry r (some c) = some c := by
  unfold Nps.syncedEntry
  simp only [hserver, ite_self]

theorem rebound_key (r : StateSyncConn) (c : ConnInfoResult) :
    (s.rebound r c).connClassKey = c.connClassKey := by
  unfold Nps.rebound
  split
  · rfl
  · split <;> rfl

/-- What the records do goes by the tables of servers alone. -/
theorem Nps.SameServerTables.freshEntry (h : s.SameServerTables s') :
    s'.freshEntry = s.freshEntry := by
  funext r
  rw [Nps.freshEntry, h.classification, h.info, Nps.freshEntry]

theorem Nps.SameServerTables.syncedEntry (h : s.SameServerTables s') :
    s'.syncedEntry = s.syncedEntry := by
  funext r entry
  unfold Nps.syncedEntry Nps.connServer Nps.rebound
  rw [h.freshEntry, h.classification, h.info]

/-- Every run ends. -/
theorem wp_noFailure {α : Type} (x : Dp α) (m : Cmem) (s : Nps) :
    x.wp noFailureSpec (fun _ _ _ => True) m s :=
  Prog.wp_invariant (fun _ _ _ => ⟨trivial, fun _ _ _ => trivial⟩) (x.run m) trivial

theorem maps_stateSyncCreateConn (h : TablesAgree s) (hash : UInt32)
    (hkey : m.connClassKey = r.classKey) (hnone : s.conns r.classKey = none) :
    (alvsStateSyncCreateConn r hash).wp noFailureSpec (fun rc _ s' =>
      0 ≤ rc ∧ s.Maps s' (Function.update s.conns r.classKey (s.freshEntry r))) m s := by
  have hserver : s.serverClassification ⟨r.serverAddr, r.virtualAddr, r.serverPort, r.virtualPort,
    r.protocol.toUInt16⟩ = s.serverClassification r.serverKey := rfl
  simp only [alvsStateSyncCreateConn, wp_bind, wp_call_env]
  intro e he
  have hfails : e.fails = false := he
  simp only [dpHandle, hfails, Bool.false_eq_true, if_false, hserver]
  cases hclass : s.serverClassification r.serverKey with
  | some j =>
    refine wp_bind_of (env_serverInfoLookup j) ?_
    rintro found m₁ s₁ ⟨rfl, hkey₁, -, ⟨rfl, hnoInfo⟩ | ⟨info, rfl, hinfo, -⟩⟩
    · refine wp_bind_of (env_unlock hash) ?_
      rintro _ _ s₂ rfl
      rw [freshEntry_none hclass hnoInfo, ← hnone, Function.update_eq_self]
      exact ⟨Int.one_nonneg, .refl h⟩
    · refine wp_bind_of (maps_createNewEntry h (by rw [hkey₁, hkey, hnone]) _ _ _ _ _ _) ?_
      rintro _ m₂ s₂ ⟨rfl, -, hmaps⟩
      refine wp_bind_of (env_unlock hash) ?_
      rintro _ _ _ rfl
      rw [hkey₁, hkey, ← freshEntry_bound hclass hinfo] at hmaps
      exact ⟨by simp, hmaps⟩
  | none =>
    refine wp_bind_of (maps_createNewEntry h (by rw [hkey, hnone]) _ _ _ _ _ _) ?_
    rintro _ m₂ s₂ ⟨rfl, -, hmaps⟩
    refine wp_bind_of (env_unlock hash) ?_
    rintro _ _ _ rfl
    rw [hkey, ← freshEntry_unbound hclass] at hmaps
    exact ⟨by simp, hmaps⟩

theorem maps_stateSyncUpdateConn (h : TablesAgree s) {i : UInt32} {c : ConnInfoResult}
    (hash : UInt32) (hres : m.connInfoResult = c) (hinfo : s.connInfo i = some c) :
    (alvsStateSyncUpdateConn r i hash).wp noFailureSpec (fun rc _ s' => 0 ≤ rc ∧
      s.Maps s' (Function.update s.conns c.connClassKey
        (some ((s.rebound r c).synced r)))) m s := by
  have hrc : (alvsStateSyncUpdateConn r i hash).wp noFailureSpec (fun rc _ _ => 0 ≤ rc) m s := by
    unfold alvsStateSyncUpdateConn
    refine (wp_bind _ _ _).mpr ((wp_get _).mpr ?_)
    refine wp_bind_of (wp_noFailure _ _ _) fun _ _ _ _ => ?_
    refine wp_bind_of (wp_noFailure _ _ _) fun _ _ _ _ => ?_
    refine wp_bind_of (wp_noFailure _ _ _) fun _ _ _ _ => ?_
    exact wp_bind_of (wp_noFailure _ _ _) fun _ _ _ _ => Int.le_refl 0
  refine Prog.wp_mono (Prog.wp_and hrc (env_stateSyncUpdateConn hash hres hinfo)) ?_
  rintro _ _ ⟨hrc, posted, -, rfl⟩
  have hkey : ((s.rebound r c).synced r).connClassKey = c.connClassKey := rebound_key r c
  exact ⟨hrc, maps_setConn h hinfo hkey posted⟩

/-- The record of a connection that has an entry. -/
theorem maps_stateSyncExistingConn (h : TablesAgree s) (hr : r.Carried) {i : UInt32} (hash : UInt32)
    (hkey : m.connClassKey = r.classKey) (hclass : s.connClassification r.classKey = some i) :
    (alvsStateSyncExistingConn r i hash).wp noFailureSpec (fun rc _ s' => 0 ≤ rc ∧
      s.Maps s' (Function.update s.conns r.classKey
        (s.syncedEntry r (s.conns r.classKey)))) m s := by
  obtain ⟨c, hinfo, hckey, hconns⟩ := h.info_of_class hclass
  have hkept : s.syncedEntry r (s.conns r.classKey) = s.conns r.classKey →
      s.Maps s (Function.update s.conns r.classKey (s.syncedEntry r (s.conns r.classKey))) := by
    intro hentry
    rw [hentry, Function.update_eq_self]
    exact .refl h
  unfold alvsStateSyncExistingConn
  refine wp_bind_of (env_connInfoLookup _ i) ?_
  rintro found m₁ s₁ ⟨rfl, hkey₁, ⟨rfl, hnone⟩ | ⟨c', rfl, hinfo', hres⟩⟩
  · rw [hinfo] at hnone
    cases hnone
  obtain rfl := Option.some.inj (hinfo'.symm.trans hinfo)
  simp only [if_true, wp_bind, wp_get, hres]
  refine wp_mono (env_connServer c') ?_
  rintro found m₂ s₂ ⟨rfl, hkey₂, hres₂, ⟨rfl, hserver⟩ | ⟨rfl, hserver⟩⟩
  · refine wp_bind_of (env_unlock hash) ?_
    rintro _ _ _ rfl
    exact ⟨Int.one_nonneg, hkept (by rw [hconns, syncedEntry_noServer hserver])⟩
  rw [if_pos rfl, wp_bind, wp_get]
  generalize (if c'.bound then m₂.serverInfoResult.serverIp else c'.serverAddr) = addr at hserver
  generalize (if c'.bound then m₂.serverInfoResult.serverPort else c'.serverPort) = port at hserver
  have hsynced := syncedEntry_some hr hserver
  rw [← hconns] at hsynced
  refine (wp_ite _ _ _ _).mpr ⟨fun hchanged => ?_, fun hsameServer => ?_⟩
  · have hne : (addr, port) ≠ r.server := fun heq =>
      hchanged.elim (fun h => h (congrArg Prod.snd heq).symm)
        fun h => h (congrArg Prod.fst heq).symm
    rw [if_neg hne] at hsynced
    refine (wp_ite _ _ _ _).mpr ⟨fun hactive => ?_, fun hinactive => ?_⟩
    · rw [if_neg (show ¬ r.Inactive from fun h => h hactive)] at hsynced
      refine wp_bind_of (maps_deleteWithoutLock h .syncConn (hres₂.trans hres) hinfo) ?_
      rintro _ m₃ s₃ ⟨hkey₃, hdeleted⟩
      have hnone : s₃.conns r.classKey = none := by
        rw [hdeleted.conns, hckey, Function.update_self]
      refine wp_mono (maps_stateSyncCreateConn hdeleted.agree hash
        (((hkey₃.trans hkey₂).trans hkey₁).trans hkey) hnone) ?_
      rintro rc _ s₄ ⟨hrc, hmaps⟩
      rw [hdeleted.conns, hckey, Function.update_idem, hdeleted.servers.freshEntry,
        ← hsynced] at hmaps
      exact ⟨hrc, hdeleted.trans hmaps⟩
    · rw [if_pos (show r.Inactive from hinactive)] at hsynced
      refine wp_bind_of (env_unlock hash) ?_
      rintro _ _ _ rfl
      exact ⟨Int.le_refl 0, hkept hsynced⟩
  · have hserver' : (addr, port) = r.server := by
      rw [not_or, not_not, not_not] at hsameServer
      exact Prod.ext hsameServer.2.symm hsameServer.1.symm
    rw [if_pos hserver'] at hsynced
    refine wp_mono (maps_stateSyncUpdateConn h hash (hres₂.trans hres) hinfo) ?_
    rintro rc _ _ ⟨hrc, hmaps⟩
    rw [hckey, ← hsynced] at hmaps
    exact ⟨hrc, hmaps⟩

/-- A record changes the map at its 5-tuple. -/
theorem maps_stateSyncProcessConn (h : TablesAgree s) (hr : r.Readable) :
    (alvsStateSyncProcessConn r).wp noFailureSpec (fun rc _ s' => 0 ≤ rc ∧
      s.Maps s' (Function.update s.conns r.classKey
        (s.syncedEntry r (s.conns r.classKey)))) m s := by
  by_cases hcarried : r.Carried
  · rw [stateSyncProcessConn_eq ⟨hr.1, hr.2, hcarried⟩]
    simp only [wp_bind, wp_modify, alvsLockConnection, wp_get, wp_call_env, dpHandle]
    intro _ _ e he
    have hfails : e.fails = false := he
    simp only [hfails, Bool.false_eq_true, if_false]
    cases hclass : s.connClassification r.classKey with
    | some i => exact maps_stateSyncExistingConn h hcarried _ rfl hclass
    | none =>
      have hnone := h.conns_none.mpr hclass
      rw [hnone, syncedEntry_none hcarried]
      exact maps_stateSyncCreateConn h _ rfl hnone
  · have hsynced : s.syncedEntry r (s.conns r.classKey) = s.conns r.classKey := if_neg hcarried
    rw [hsynced, Function.update_eq_self, alvsStateSyncProcessConn, if_neg (not_not.mpr hr.1),
      if_neg (not_not.mpr hr.2), if_pos (not_or.mp hcarried)]
    exact ⟨Int.one_nonneg, .refl h⟩

/-- A record that is not readable ends the message. -/
theorem processConn_of_unreadable (hr : ¬ r.Readable) : alvsStateSyncProcessConn r = pure (-1) := by
  unfold alvsStateSyncProcessConn
  split
  next => rfl
  next hversion => exact if_pos fun htype => hr ⟨not_not.mp hversion, htype⟩

end Record

/-! ## A message -/

section Message

variable {m : Cmem} {s : Nps}

theorem Nps.syncRecords_cons {r : StateSyncConn} (hr : r.Readable) (rs : List StateSyncConn)
    (conns : ConnClassificationKey → Option ConnInfoResult) : s.syncRecords (r :: rs) conns =
      s.syncRecords rs (Function.update conns r.classKey
        (s.syncedEntry r (conns r.classKey))) := by
  rw [syncRecords, List.takeWhile_cons_of_pos (by simpa using hr)]
  rfl

theorem offConn_discardFrame : OffConn alvsDiscardFrame := .of_call trivial

theorem maps_discardAndStats (h : TablesAgree s) (error : AlvsErrorStats) :
    (alvsDiscardAndStats error).wp noFailureSpec (fun _ _ s' => s.Maps s' s.conns) m s :=
  wp_mono ((quiet_alvsDiscardAndStats error).offConn.wp_maps h) fun _ _ _ h => h.2

/-- The records of a message, one after the other. -/
theorem maps_stateSyncProcessConns : ∀ (n : Nat) (rs : List StateSyncConn) {m : Cmem} {s : Nps},
    TablesAgree s → (alvsStateSyncProcessConns n rs).wp noFailureSpec
      (fun _ _ s' => s.Maps s' (s.syncRecords (rs.take n) s.conns)) m s
  | 0, rs, m, s, h => wp_mono (offConn_discardFrame.wp_maps h) fun _ _ _ h => h.2
  | n + 1, [], m, s, h => maps_discardAndStats h _
  | n + 1, r :: rs, m, s, h => by
    rw [alvsStateSyncProcessConns, List.take_succ_cons]
    by_cases hr : r.Readable
    · refine wp_bind_of (maps_stateSyncProcessConn h hr) ?_
      rintro rc m₁ s₁ ⟨hrc, hmaps⟩
      rw [if_neg (not_lt.mpr hrc), Nps.syncRecords_cons hr]
      refine wp_mono (maps_stateSyncProcessConns n rs hmaps.agree) ?_
      rintro _ _ s₂ hrest
      rw [hmaps.conns, Nps.syncRecords, hmaps.servers.syncedEntry] at hrest
      exact hmaps.trans hrest
    · rw [processConn_of_unreadable hr, Nps.syncRecords,
        List.takeWhile_cons_of_neg (by simpa using hr)]
      exact maps_discardAndStats h _

/-- A message changes the map as its records do, if the backup reads them. -/
theorem stateSyncBackup_maps (message : SyncMessage) (h : TablesAgree s) {es : Nat → DpEnv}
    (hok : ((alvsStateSyncBackup message).run m).CallsOk noFailure dpHandle es s) :
    s.Maps (((alvsStateSyncBackup message).run m).execEnv dpHandle es s).2
      (s.syncMessage (es 0).appInfo message s.conns) := by
  obtain ⟨header, rs⟩ := message
  -- what follows the lookup of the application information
  obtain ⟨k, hk, hrest⟩ : ∃ k,
      (alvsStateSyncBackup ⟨header, rs⟩).run m = .call .appInfoLookup k ∧ ∀ app,
        (k app).wp noFailureSpec (fun _ s' => s.Maps s' (s.syncMessage app ⟨header, rs⟩ s.conns))
          s := by
    refine ⟨_, rfl, fun app => ?_⟩
    clear hok
    cases app with
    | none => exact maps_discardAndStats h .stateSyncLookupFail
    | some app =>
      cases header with
      | none =>
        change (if app.backupBit = false then alvsDiscardAndStats .stateSyncBackupDown
          else alvsDiscardAndStats .stateSyncBadHeaderSize).wp noFailureSpec
            (fun _ _ s' => s.Maps s' s.conns) m s
        exact (wp_ite _ _ _ _).mpr
          ⟨fun _ => maps_discardAndStats h _, fun _ => maps_discardAndStats h _⟩
      | some hdr =>
        change (if app.backupBit = false then alvsDiscardAndStats .stateSyncBackupDown
          else if app.bSyncId ≠ 0 ∧ hdr.syncid ≠ app.bSyncId then
            alvsDiscardAndStats .stateSyncBackupNotMySyncid
          else if hdr.version = alvsStateSyncProtoVer ∧ hdr.reserved = 0 ∧ hdr.spare = 0 then
            alvsStateSyncProcessConns hdr.connCount.toNat rs
          else alvsDiscardAndStats .stateSyncBadMessageVersion).wp noFailureSpec
            (fun _ _ s' => s.Maps s' (s.syncMessage (some app) ⟨some hdr, rs⟩ s.conns)) m s
        have hreads : s.syncMessage (some app) ⟨some hdr, rs⟩ s.conns =
          if Nps.Reads app hdr then s.syncRecords (rs.take hdr.connCount.toNat) s.conns
          else s.conns := rfl
        rw [hreads]
        have hskipped : ¬ Nps.Reads app hdr → ∀ error, (alvsDiscardAndStats error).wp noFailureSpec
            (fun _ _ s' => s.Maps s' (if Nps.Reads app hdr then
              s.syncRecords (rs.take hdr.connCount.toNat) s.conns else s.conns)) m s := by
          intro hnot error
          rw [if_neg hnot]
          exact maps_discardAndStats h error
        refine (wp_ite _ _ _ _).mpr ⟨fun hbackup => ?_, fun hbackup => (wp_ite _ _ _ _).mpr
          ⟨fun hid => ?_, fun hid => (wp_ite _ _ _ _).mpr ⟨fun hheader => ?_, fun hheader => ?_⟩⟩⟩
        · refine hskipped (fun hr => ?_) _
          rw [hr.1] at hbackup
          cases hbackup
        · exact hskipped (fun hr => hr.2.1.elim hid.1 hid.2) _
        · have hr : Nps.Reads app hdr := by
            refine ⟨Bool.not_eq_false _ ▸ hbackup, ?_, hheader⟩
            by_contra hne
            exact hid (not_or.mp hne)
          rw [if_pos hr]
          exact maps_stateSyncProcessConns _ _ h
        · exact hskipped (fun hr => hheader hr.2.2) _
  rw [hk] at hok ⊢
  exact Prog.execEnv_of_wp (k (es 0).appInfo) (hrest _) hok.2

/-- A message that a thread receives, with the memory of the thread and the environments of the
calls that it makes. -/
structure MessageRun where
  message : SyncMessage
  mem : Cmem
  env : Nat → DpEnv

/-- The chip after the message. -/
def MessageRun.exec (x : MessageRun) (s : Nps) : Nps :=
  (((alvsStateSyncBackup x.message).run x.mem).execEnv dpHandle x.env s).2

/-- No call fails in the processing of the messages, one after the other. -/
def MessagesOk : List MessageRun → Nps → Prop
  | [], _ => True
  | x :: xs, s =>
    ((alvsStateSyncBackup x.message).run x.mem).CallsOk noFailure dpHandle x.env s ∧
      MessagesOk xs (x.exec s)

instance decidableMessagesOk : (xs : List MessageRun) → (s : Nps) → Decidable (MessagesOk xs s)
  | [], _ => .isTrue trivial
  | x :: xs, s => by
    have := decidableMessagesOk xs (x.exec s)
    exact inferInstanceAs (Decidable (_ ∧ _))

theorem Nps.SameServerTables.syncMessage {s s' : Nps} (h : s.SameServerTables s') :
    s'.syncMessage = s.syncMessage := by
  unfold Nps.syncMessage Nps.syncRecords
  rw [h.syncedEntry]

/-- A backup is a map from 5-tuples to entries, whatever messages come : where no call fails, the
tables keep a map, each message changes it by the records that are read of it, in order, and the
tables of servers stay. -/
theorem syncMessages_run (xs : List MessageRun) (h : TablesAgree s) (hok : MessagesOk xs s) :
    s.Maps (xs.foldl (fun s x => x.exec s) s)
      (xs.foldl (fun conns x => s.syncMessage (x.env 0).appInfo x.message conns) s.conns) := by
  induction xs generalizing s with
  | nil => exact .refl h
  | cons x xs ih =>
    have hmaps := stateSyncBackup_maps x.message h hok.1
    have hrest := ih hmaps.agree hok.2
    rw [hmaps.conns, hmaps.servers.syncMessage] at hrest
    exact hmaps.trans hrest

theorem tablesAgree_init : TablesAgree Sys.init.nps where
  class_iff _ _ := iff_of_false (fun h => Option.some_ne_none _ h.symm) (by
    rintro ⟨c, hc, -⟩
    cases hc)
  alloc_iff _ := iff_of_false Bool.false_ne_true (by
    rintro ⟨c, hc⟩
    cases hc)

/-- The calls of a backup, whose pool gives other indexes from `n` on. -/
def backupEnv (n : Nat) : Nat → DpEnv := fun k =>
  ⟨false, (n + k).toUInt32, some ⟨false, true, 0, 7, 0⟩, none, none, none⟩

/-- The record of a connection, one of the same connection that closes it with another one after
it, and a message with another sync id. -/
def exampleMessages : List MessageRun :=
  let r := exampleRecord ipVsConnFDroute ipVsTcpSEstablished.toUInt16 0x0a000002 80
  let closed := exampleRecord (ipVsConnFDroute ||| ipVsConnFInactive) ipVsTcpSCloseWait.toUInt16
    0x0a000002 80
  [⟨syncMessage 0 7 1 [r], .zero, backupEnv 0⟩,
    ⟨syncMessage 0 7 2 [closed, { r with clientPort := 5000 }], .zero, backupEnv 8⟩,
    ⟨syncMessage 0 9 1 [r], .zero, backupEnv 0⟩]

theorem syncMessages_run_example : Sys.init.nps.Maps
    (exampleMessages.foldl (fun s x => x.exec s) Sys.init.nps)
    (exampleMessages.foldl (fun conns x =>
      Sys.init.nps.syncMessage (x.env 0).appInfo x.message conns) Sys.init.nps.conns) :=
  syncMessages_run exampleMessages tablesAgree_init (by decide +kernel)

end Message

/-! ## The frames of a master -/

/-- The frame comes as these buffers, and goes through the checks that a backup makes of its
headers : the thread that built it had left 0 in the byte that becomes `reserved`, and its Ethernet
header was written, or is that of an IPv4 multicast frame all the same. -/
inductive SyncFrame.ReceivedAs (ez : Ezdp) (f : SyncFrame) : List (List UInt8) → Prop
  | intro {mac : Option MacAddr} {d : Nat → FrameData} {first : List UInt8}
      {rest : List (List UInt8)} (hmac : ∀ a ∈ mac, a.get ⟨0, Nat.zero_lt_succ 5⟩ &&& 1 = 0)
      (hfirst : 42 ≤ first.length)
      (hbytes : (first :: rest).flatten = (f.bytes ez.ipv4Checksum mac d).flatten)
      (hreserved : d 0 42 = 0) (hmulticast : mac = none → (ez.decodeMac first).ForBackup) :
      f.ReceivedAs ez (first :: rest)

/-- The chip is a backup for the frames with this sync id. -/
def AppInfoResult.BackupFor (app : AppInfoResult) (syncId : UInt8) : Prop :=
  app.backupBit = true ∧ (app.bSyncId = 0 ∨ app.bSyncId = syncId)

/-- A backup processes the frames one after the other, and no call fails. -/
inductive BackupRun (ez : Ezdp) : Nps → List SyncFrame → Nps → Prop
  | nil {s : Nps} : BackupRun ez s [] s
  | cons {s s' : Nps} {f : SyncFrame} {fs : List SyncFrame} {buffers : List (List UInt8)} {m : Cmem}
      {es : Nat → DpEnv} (hframe : f.ReceivedAs ez buffers)
      (hrole : ∃ app ∈ (es 0).appInfo, app.BackupFor f.headers.syncId)
      (hok : ((nwRecieveAndParseFrame ez buffers).run m).CallsOk noFailure dpHandle es s)
      (hrest : BackupRun ez (((nwRecieveAndParseFrame ez buffers).run m).execEnv dpHandle es s).2
        fs s') : BackupRun ez s (f :: fs) s'

section Frames

variable {ez : Ezdp} {f : SyncFrame} {entries : List (ConnInfoResult × ServerInfoResult)}
  {buffers : List (List UInt8)} {s s' : Nps}

theorem readable_entryRecord (e : ConnInfoResult × ServerInfoResult) : (entryRecord e).Readable :=
  ⟨rfl, rfl⟩

/-- Records of entries are all read. -/
theorem syncRecords_entries (s : Nps) (entries : List (ConnInfoResult × ServerInfoResult)) :
    s.syncRecords (entries.map entryRecord) =
      updates (·.classKey) s.syncedEntry (entries.map entryRecord) := by
  have hall : (entries.map entryRecord).takeWhile (·.Readable) = entries.map entryRecord := by
    rw [List.takeWhile_eq_self_iff]
    intro r hr
    obtain ⟨e, -, rfl⟩ := List.mem_map.mp hr
    exact decide_eq_true (readable_entryRecord e)
  rw [Nps.syncRecords, hall]

/-- A received frame is processed as its sync message. -/
theorem SyncFrame.ReceivedAs.run_eq (hez : ez.Documented) (hbuilt : f.Built entries)
    (hf : f.ReceivedAs ez buffers) (m : Cmem) : ∃ m', (nwRecieveAndParseFrame ez buffers).run m =
      (alvsStateSyncBackup (syncMessage 0 f.headers.syncId f.connCount
        (entries.map entryRecord))).run m' := by
  obtain @⟨mac, d, first, rest, hmac, hfirst, hbytes, hreserved, hmulticast⟩ := hf
  have hb := hbuilt.frameBytes hfirst hbytes
  have hfor : (ez.decodeMac first).ForBackup := by
    cases mac with
    | none => exact hmulticast rfl
    | some a =>
      obtain ⟨check, -, hflat⟩ := hb.bytes
      rw [List.flatten_cons, headerBytes, List.append_assoc, List.append_assoc] at hflat
      obtain ⟨heth, -⟩ := split_of_append hflat (length_ethHdrOf _ _) (by omega)
      have hsplit : ethHdrBytes a ++ first.drop 14 = first := by
        rw [show ethHdrBytes a = first.take 14 from heth.symm, List.take_append_drop]
      rw [← hsplit, hez.mac a (first.drop 14) (hmac a rfl)]
      exact ⟨rfl, rfl, rfl, rfl⟩
  refine ⟨{ m with
    frameLength := .ofNat (first :: rest).flatten.length
    connSyncState := { m.connSyncState with connSyncStatus := .noNeed } }, ?_⟩
  rw [hb.nwRecieve_eq hez hfor, ← hreserved]
  rfl

/-- A frame of a master changes the map as the records of its entries do. -/
theorem receivedFrame_maps (hez : ez.Documented) (h : TablesAgree s) (hbuilt : f.Built entries)
    (hf : f.ReceivedAs ez buffers) {m : Cmem} {es : Nat → DpEnv}
    (hrole : ∃ app ∈ (es 0).appInfo, app.BackupFor f.headers.syncId)
    (hok : ((nwRecieveAndParseFrame ez buffers).run m).CallsOk noFailure dpHandle es s) :
    s.Maps (((nwRecieveAndParseFrame ez buffers).run m).execEnv dpHandle es s).2
      (updates (·.classKey) s.syncedEntry (entries.map entryRecord) s.conns) := by
  obtain ⟨m', hrun⟩ := hf.run_eq hez hbuilt m
  obtain ⟨app, happ, hbackup, hid⟩ := hrole
  rw [hrun] at hok ⊢
  have hmaps := stateSyncBackup_maps _ h hok
  have hreads : Nps.Reads app ⟨0, f.headers.syncId, f.connCount, alvsStateSyncProtoVer, 0⟩ :=
    ⟨hbackup, hid.imp_right Eq.symm, rfl, rfl, rfl⟩
  have hcount : f.connCount.toNat = (entries.map entryRecord).length := by
    obtain ⟨hmeasured, hconns⟩ := hbuilt.spec
    rw [← hconns, hmeasured.count]
  have hmessage : s.syncMessage (es 0).appInfo (syncMessage 0 f.headers.syncId f.connCount
      (entries.map entryRecord)) s.conns =
      s.syncRecords ((entries.map entryRecord).take f.connCount.toNat) s.conns := by
    rw [Option.mem_def.mp happ]
    exact if_pos hreads
  rw [hmessage, hcount, List.take_length, syncRecords_entries] at hmaps
  exact hmaps

/-- Frames of a master, one after the other. -/
theorem backupRun_maps (hez : ez.Documented) :
    ∀ (frames : List (SyncFrame × List (ConnInfoResult × ServerInfoResult))) {s : Nps},
      (∀ x ∈ frames, x.1.Built x.2) → TablesAgree s → BackupRun ez s (frames.map Prod.fst) s' →
      s.Maps s' (updates (·.classKey) s.syncedEntry ((frames.flatMap Prod.snd).map entryRecord)
        s.conns)
  | [], s, _, h, hrun => by
    cases hrun
    exact .refl h
  | (f, entries) :: frames, s, hbuilt, h, hrun => by
    obtain _ | @⟨_, _, _, _, buffers, m, es, hframe, hrole, hok, hrest⟩ := hrun
    have hmaps := receivedFrame_maps hez h (hbuilt _ List.mem_cons_self) hframe hrole hok
    have htail := backupRun_maps hez frames (fun x hx => hbuilt x (List.mem_cons_of_mem _ hx))
      hmaps.agree hrest
    rw [hmaps.conns, hmaps.servers.syncedEntry, ← updates_append, ← List.map_append] at htail
    exact hmaps.trans htail

end Frames

/-! ## Replicas -/

/-- The server that is found for the record has its address and its port. -/
def Nps.KnowsServer (s : Nps) (r : StateSyncConn) : Prop :=
  ∀ j ∈ s.serverClassification r.serverKey, ∃ info ∈ s.serverInfo j, info.server = r.server

/-- The INACTIVE flag of the record says what its state does. -/
def StateSyncConn.Consistent (r : StateSyncConn) : Prop :=
  r.Inactive ↔ r.state ≠ ipVsTcpSEstablished.toUInt16

/-- An entry of the connection makes room for the record : it is of the same server, or the record
is of an active connection. -/
def Nps.MakesRoom (s : Nps) (r : StateSyncConn) : Prop :=
  ∀ c, s.conns r.classKey = some c →
    ∃ server ∈ s.connServer c, server = r.server ∨ ¬ r.Inactive

/-- The entry has the key, the server, the state and the INACTIVE flag of the record. -/
structure Nps.Replicates (s : Nps) (r : StateSyncConn) (e : ConnInfoResult) : Prop where
  key : e.connClassKey = r.classKey
  server : s.connServer e = some r.server
  state : e.connState = r.state.toUInt8
  inactive : e.connFlags &&& ipVsConnFInactive ≠ 0 ↔ r.Inactive

section Replicas

variable {s : Nps} {r : StateSyncConn}

theorem inactive_newConnInfo (hr : r.Consistent) (b : Bool) (server : UInt32) (port : UInt16) :
    (newConnInfo r.classKey b server port r.state r.backupFlags false).connFlags &&&
      ipVsConnFInactive ≠ 0 ↔ r.Inactive := by
  rw [StateSyncConn.Consistent] at hr
  rw [hr]
  simp only [newConnInfo]
  split
  next h => rw [Word.and_not_and]; simp [h]
  next h =>
    rw [Word.or_and_self]
    exact ⟨fun _ => h, fun _ => by decide⟩

/-- A new entry replicates the record. -/
theorem replicates_freshEntry (hr : r.Consistent) (hserver : s.KnowsServer r) :
    ∃ e, s.freshEntry r = some e ∧ s.Replicates r e := by
  cases hclass : s.serverClassification r.serverKey with
  | none =>
    exact ⟨_, freshEntry_unbound hclass, rfl, rfl, rfl, inactive_newConnInfo hr _ _ _⟩
  | some j =>
    obtain ⟨info, hinfo, hsame⟩ := hserver j hclass
    refine ⟨_, freshEntry_bound hclass hinfo, rfl, ?_, rfl, inactive_newConnInfo hr _ _ _⟩
    exact (connServer_bound rfl hinfo).trans (congrArg some hsame)

/-- An entry of the server of the record stays with it when it is bound. -/
theorem connServer_rebound (hserver : s.KnowsServer r) {c : ConnInfoResult}
    (hc : s.connServer c = some r.server) : s.connServer (s.rebound r c) = some r.server := by
  unfold Nps.rebound
  split
  · exact hc
  · cases hclass : s.serverClassification r.serverKey with
    | none => exact hc
    | some j =>
      obtain ⟨info, hinfo, hsame⟩ := hserver j hclass
      exact (connServer_bound rfl hinfo).trans (congrArg some hsame)

/-- The entry of a connection replicates the record that made or updated it. -/
theorem replicates_syncedEntry (hcarried : r.Carried) (hr : r.Consistent)
    (hserver : s.KnowsServer r) (hroom : s.MakesRoom r)
    (hkey : ∀ c, s.conns r.classKey = some c → c.connClassKey = r.classKey) :
    ∃ e, s.syncedEntry r (s.conns r.classKey) = some e ∧ s.Replicates r e := by
  cases hentry : s.conns r.classKey with
  | none =>
    rw [syncedEntry_none hcarried]
    exact replicates_freshEntry hr hserver
  | some c =>
    obtain ⟨server, hc, hsame⟩ := hroom c hentry
    rw [syncedEntry_some hcarried hc]
    by_cases hserverEq : server = r.server
    · subst hserverEq
      rw [if_pos rfl]
      refine ⟨_, rfl, (rebound_key r c).trans (hkey c hentry), connServer_rebound hserver hc,
        rfl, ?_⟩
      rw [StateSyncConn.Inactive, ← backupFlags_inactive, ConnInfoResult.synced]
      dsimp only
      rw [merge_and inactive_updMask]
    · rw [if_neg hserverEq, if_neg (hsame.resolve_left hserverEq)]
      exact replicates_freshEntry hr hserver

end Replicas

/-! ## An aging event of a master and a backup -/

section Master

variable {s s' : Nps}

/-- An event whose calls succeed has found the master bit. -/
theorem any_deniesMaster : ∀ {tr : List DpEvent} {w : SyncWatch},
    (tr.foldl SyncWatch.next w).Ok → tr.any deniesMaster = false
  | [], _, _ => rfl
  | ⟨op, r⟩ :: tr, w, h => by
    have htail : (tr.foldl SyncWatch.next (w.next ⟨op, r⟩)).Ok := h
    have hnext : (w.next ⟨op, r⟩).Ok := Prog.foldl_ok (fun _ _ => SyncWatch.Ok.of_next) htail
    rw [List.any_cons, any_deniesMaster htail, Bool.or_false]
    cases op
    case appInfoLookup =>
      by_contra hbit
      have hdenied : ¬ r.any (·.masterBit) = true := by simpa [deniesMaster] using hbit
      rw [SyncWatch.next, if_neg hdenied] at hnext
      cases hnext
    all_goals rfl

/-- The frames of an aging event are built for entries whose records are those that were passed. -/
theorem exists_builtFrames {eventId : UInt32} {m m' : Cmem} {tr : List DpEvent}
    (hpath : ((alvsHandleAgingEvent eventId).run m).Path tr ((), m'))
    (hok : (syncWatch tr).refused = false) :
    ∃ frames : List (SyncFrame × List (ConnInfoResult × ServerInfoResult)),
      frames.map Prod.fst = (syncWatch tr).given ∧ (∀ x ∈ frames, x.1.Built x.2) ∧
      (frames.flatMap Prod.snd).map entryRecord = (syncWatch tr).passed := by
  have hmaster : tr.any deniesMaster = false := any_deniesMaster hok
  have hbuilt : ∀ fs : List SyncFrame, (∀ f ∈ fs, f ∈ (syncWatch tr).given) →
      ∃ frames : List (SyncFrame × List (ConnInfoResult × ServerInfoResult)),
        frames.map Prod.fst = fs ∧ (∀ x ∈ frames, x.1.Built x.2) ∧
        (frames.flatMap Prod.snd).map entryRecord = frameConns fs := by
    intro fs hfs
    induction fs with
    | nil => exact ⟨[], rfl, fun _ h => absurd h List.not_mem_nil, rfl⟩
    | cons f fs ih =>
      obtain ⟨frames, hfst, hall, hrecords⟩ := ih fun f' hf' => hfs f' (List.mem_cons_of_mem _ hf')
      obtain ⟨entries, hf⟩ := exists_built hpath hmaster (hfs f List.mem_cons_self)
      refine ⟨(f, entries) :: frames, by rw [List.map_cons, hfst], ?_, ?_⟩
      · rintro x hx
        rcases List.mem_cons.mp hx with rfl | hx
        · exact hf
        · exact hall x hx
      · rw [List.flatMap_cons, List.map_append, hrecords, frameConns, frameConns,
          List.flatMap_cons, hf.spec.2]
  obtain ⟨frames, hfst, hall, hrecords⟩ := hbuilt _ fun _ h => h
  have hlossless : (syncWatch tr).Lossless :=
    Prog.of_wp_watch (fun _ _ => SyncWatch.Ok.of_next) (wp_agingEvent eventId m) hpath hok
  rw [hlossless.records] at hrecords
  exact ⟨frames, hfst, hall, hrecords⟩

/-- The frame of two connections in one buffer, from a thread whose `frame_data` is zero. -/
def agingBuffers : List (List UInt8) :=
  [agingFrame.firstBytes completingChecksum (some exampleMac) (fun _ => 0) ⟨agingFrame.conns, 122⟩]

theorem agingBuffers_received : agingFrame.ReceivedAs exampleEzdp agingBuffers :=
  .intro (d := fun _ _ => 0) exampleMac_unicast (by decide +kernel) (by decide +kernel) rfl
    fun h => absurd h (Option.some_ne_none exampleMac)

/-- A backup that knows no connection has received the frame. -/
theorem agingBuffers_run : BackupRun exampleEzdp Sys.init.nps [agingFrame]
    (((nwRecieveAndParseFrame exampleEzdp agingBuffers).run .zero).execEnv dpHandle (backupEnv 0)
      Sys.init.nps).2 :=
  .cons agingBuffers_received ⟨_, rfl, rfl, .inr rfl⟩ (by decide +kernel) .nil

end Master

end Alvs
