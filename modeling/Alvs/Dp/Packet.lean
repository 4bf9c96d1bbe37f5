import Alvs.Dp.Service

/-!
# Sync messages, aging and packets

The functions of `alvs_state_sync_backup.h`, `alvs_aging.h` and
`alvs_packet_processing.c`, and the jobs of a data plane thread : a frame, or an event of
the aging timer.
-/

namespace Alvs

open ProgLogic

/-! ## State synchronisation, backup -/

/-- The flags of a record that are kept, marked as received by synchronisation. -/
def StateSyncConn.backupFlags (conn : StateSyncConn) : UInt32 :=
  conn.flags &&& ipVsConnFBackupMask ||| ipVsConnFSync

/-- The key of the connection of a record. -/
def StateSyncConn.classKey (conn : StateSyncConn) : ConnClassificationKey :=
  ⟨conn.clientAddr, conn.virtualAddr, conn.clientPort, conn.virtualPort, conn.protocol.toUInt16⟩

/-- The entry of a connection after a record of it. -/
def ConnInfoResult.synced (c : ConnInfoResult) (conn : StateSyncConn) : ConnInfoResult :=
  { c with
    connFlags := (conn.backupFlags &&& ipVsConnFBackupUpdMask) |||
      (c.connFlags &&& ~~~ipVsConnFBackupUpdMask)
    connState := conn.state.toUInt8
    agingBit := true
    ageIteration := 0 }

/-- Count a bound connection whose INACTIVE flag the record changes. -/
def alvsStateSyncUpdateStatistics (conn : StateSyncConn) (c : ConnInfoResult) : Dp Unit :=
  if (c.connFlags ^^^ conn.backupFlags) &&& ipVsConnFInactive ≠ 0 ∧ c.bound = true then
    if conn.backupFlags &&& ipVsConnFInactive ≠ 0 then alvsUpdateConnectionStatistics 0 (-1) 1
    else alvsUpdateConnectionStatistics 0 1 (-1)
  else pure ()

/-- The entry bound to its server, if it was unbound and the server is found. -/
def alvsStateSyncBindConn (conn : StateSyncConn) (c : ConnInfoResult) : Dp ConnInfoResult := do
  if c.bound then
    pure c
  else
    match ← alvsFindServerIndex conn.serverAddr conn.virtualAddr conn.serverPort
      conn.virtualPort conn.protocol.toUInt16 with
    | some serverIndex => pure { c with serverIndex := serverIndex, bound := true }
    | none => pure c

/-- A known connection of the same server. -/
def alvsStateSyncUpdateConn (conn : StateSyncConn) (connIndex hashValue : UInt32) : Dp Int := do
  let c := (← get).connInfoResult
  alvsStateSyncUpdateStatistics conn c
  let c ← alvsStateSyncBindConn conn c
  let _ ← alvsConnInfoModify connIndex (c.synced conn)
  alvsUnlockConnection hashValue
  pure 0

/-- A connection that is new here. -/
def alvsStateSyncCreateConn (conn : StateSyncConn) (hashValue : UInt32) : Dp Int := do
  match ← dpCall (.serverClassLookup (.syncConn conn) ⟨conn.serverAddr, conn.virtualAddr,
    conn.serverPort, conn.virtualPort, conn.protocol.toUInt16⟩) with
  | some serverIndex =>
    if ← alvsServerInfoLookup serverIndex then
      let res ← alvsConnCreateNewEntry true serverIndex 0 conn.state conn.backupFlags false
      alvsUnlockConnection hashValue
      pure (if res = .ignore then -1 else 0)
    else
      alvsUnlockConnection hashValue
      pure 1
  | none =>
    let res ← alvsConnCreateNewEntry false conn.serverAddr conn.serverPort conn.state
      conn.backupFlags false
    alvsUnlockConnection hashValue
    pure (if res = .ignore then -1 else 0)

/-- A connection with an entry. One of another server is expired unless the record is of an
inactive connection. -/
def alvsStateSyncExistingConn (conn : StateSyncConn) (connIndex hashValue : UInt32) : Dp Int := do
  if ← alvsConnInfoLookup (.syncConn conn) connIndex then
    let c := (← get).connInfoResult
    let found ← (if c.bound then alvsServerInfoLookup c.serverIndex else pure true)
    if found then
      let info := (← get).serverInfoResult
      let serverAddr := if c.bound then info.serverIp else c.serverAddr
      let serverPort := if c.bound then info.serverPort else c.serverPort
      if conn.serverPort ≠ serverPort ∨ conn.serverAddr ≠ serverAddr then
        if conn.flags &&& ipVsConnFInactive = 0 then
          alvsConnDeleteWithoutLock .syncConn connIndex
          alvsStateSyncCreateConn conn hashValue
        else
          alvsUnlockConnection hashValue
          pure 0
      else
        alvsStateSyncUpdateConn conn connIndex hashValue
    else
      alvsUnlockConnection hashValue
      pure 1
  else
    alvsUnlockConnection hashValue
    pure 1

/-- It returns -1 to drop the message, 1 to skip the record and 0 otherwise. -/
def alvsStateSyncProcessConn (conn : StateSyncConn) : Dp Int := do
  if conn.version ≠ 0 then
    pure (-1)
  else if conn.type ≠ 0 then
    pure (-1)
  else if conn.protocol ≠ ipprotoTcp ∧ conn.protocol ≠ ipprotoUdp then
    pure 1
  else
    modify fun m => { m with connClassKey := conn.classKey }
    let hashValue ← alvsLockConnection
    match ← dpCall (.connClassLookup .syncConn conn.classKey) with
    | .found connIndex => alvsStateSyncExistingConn conn connIndex hashValue
    | _ => alvsStateSyncCreateConn conn hashValue

/-- The header of a sync message, if the frame is long enough, and the records that can be
read from it. -/
structure SyncMessage where
  header : Option StateSyncHeader
  conns : List StateSyncConn
  deriving DecidableEq

/-- Process the records that the header announces. -/
def alvsStateSyncProcessConns : Nat → List StateSyncConn → Dp Unit
  | 0, _ => alvsDiscardFrame
  | _ + 1, [] => alvsDiscardAndStats .stateSyncBadBuffer
  | connCount + 1, conn :: conns => do
    let rc ← alvsStateSyncProcessConn conn
    if rc < 0 then
      alvsDiscardAndStats .stateSyncDecodeConn
    else
      alvsStateSyncProcessConns connCount conns

def alvsStateSyncBackup (message : SyncMessage) : Dp Unit := do
  match ← dpCall .appInfoLookup with
  | none => alvsDiscardAndStats .stateSyncLookupFail
  | some app =>
    if app.backupBit = false then
      alvsDiscardAndStats .stateSyncBackupDown
    else
      match message.header with
      | none => alvsDiscardAndStats .stateSyncBadHeaderSize
      | some hdr =>
        if app.bSyncId ≠ 0 ∧ hdr.syncid ≠ app.bSyncId then
          alvsDiscardAndStats .stateSyncBackupNotMySyncid
        else if hdr.version = alvsStateSyncProtoVer ∧ hdr.reserved = 0 ∧ hdr.spare = 0 then
          alvsStateSyncProcessConns hdr.connCount.toNat message.conns
        else
          alvsDiscardAndStats .stateSyncBadMessageVersion

/-! ## Aging -/

/-- The scan of iteration `iterationNum` deletes the entry : its delete bit is set, or its
aging bit is clear and the iteration is that of the entry. -/
def ConnInfoResult.Expired (c : ConnInfoResult) (iterationNum : UInt8) : Prop :=
  c.deleteBit = true ∨
    c.agingBit = false ∧ c.ageIteration = connAgeIteration iterationNum c.connState

instance (c : ConnInfoResult) (iterationNum : UInt8) : Decidable (c.Expired iterationNum) :=
  inferInstanceAs (Decidable (_ ∨ _))

/-- Delete the connection of `conn_info_result`, whose key is locked. -/
def alvsAgingDelete (iterationNum : UInt8) (connIndex : UInt32) : Dp Unit := do
  modify fun m => { m with connClassKey := m.connInfoResult.connClassKey }
  alvsConnDelete iterationNum connIndex

/-- The scan of one entry. -/
def alvsAgingScanEntry (iterationNum : UInt8) (sourceIp : UInt32) (syncId : UInt8)
    (connIndex : UInt32) : Dp Unit := do
  if ← alvsConnInfoLookup .scan connIndex then
    let c := (← get).connInfoResult
    if c.deleteBit then
      alvsAgingDelete iterationNum connIndex
    else if c.agingBit then
      modify fun m => { m with connClassKey := c.connClassKey }
      if ← alvsConnAgeOut connIndex iterationNum then
        let m ← get
        if m.connSyncState.connSyncStatus = .need then
          alvsStateSyncAggr sourceIp syncId
    else if c.ageIteration = connAgeIteration iterationNum c.connState then
      alvsAgingDelete iterationNum connIndex

/-- The scan of `n` entries from `connIndex` on. -/
def alvsAgingScan (iterationNum : UInt8) (sourceIp : UInt32) (syncId : UInt8) :
    Nat → UInt32 → Dp Unit
  | 0, _ => pure ()
  | n + 1, connIndex => do
    alvsAgingScanEntry iterationNum sourceIp syncId connIndex
    alvsAgingScan iterationNum sourceIp syncId n (connIndex + 1)

def alvsHandleAgingEvent (eventId : UInt32) : Dp Unit := do
  let eventsPerIteration := alvsAgingTimerEventsPerIteration.toUInt32
  let iterationNum := (eventId / eventsPerIteration).toUInt8
  alvsDiscardFrame
  let app ← dpCall .appInfoLookup
  let master := app.filter (·.masterBit)
  modify fun m =>
    { m with connSyncState :=
      if master.isSome then
        { m.connSyncState with
          connSyncStatus := .need
          connCount := 0
          amountBuffers := 0
          currentLen := 0
          conns := [] }
      else { m.connSyncState with connSyncStatus := .noNeed } }
  alvsAgingScan iterationNum ((master.map (·.sourceIp)).getD 0) ((master.map (·.mSyncId)).getD 0)
    alvsAgingTimerScanEntriesPerJob
    (eventId % eventsPerIteration * alvsAgingTimerScanEntriesPerJob.toUInt32)
  let m ← get
  (if 0 < m.connSyncState.amountBuffers then alvsStateSyncSendAggr else pure ())
  modify fun m => { m with connSyncState := { m.connSyncState with connSyncStatus := .noNeed } }

/-! ## Packets -/

/-- What follows the IPv4 header of a frame. -/
inductive Payload
  | tcp (hdr : TcpHdr)
  | udp (dest : UInt16) (message : SyncMessage)
  | other
  deriving DecidableEq

structure Frame where
  length : UInt32
  myMac : Bool
  ipHdr : IpHdr
  payload : Payload
  deriving DecidableEq

def alvsUnknownPacketProcessing (ipHdr : IpHdr) (tcpHdr : TcpHdr) : Dp Unit := do
  match ← dpCall (.serviceClassLookup ⟨ipHdr.daddr, tcpHdr.dest, ipHdr.protocol.toUInt16⟩) with
  | some serviceIndex =>
    match ← alvsServiceDataPath serviceIndex ipHdr tcpHdr with
    | .success => alvsConnDoRoute
    | .retry =>
      let m ← get
      alvsConnDataPath tcpHdr m.connResultIndex
    | .ignore => pure ()
  | none =>
    alvsUpdateDiscardStatistics .serviceClassLookup
    nwHostDoRoute

def alvsTcpProcessing (ipHdr : IpHdr) (tcpHdr : TcpHdr) : Dp Unit := do
  let key : ConnClassificationKey :=
    ⟨ipHdr.saddr, ipHdr.daddr, tcpHdr.source, tcpHdr.dest, ipHdr.protocol.toUInt16⟩
  modify fun m => { m with connClassKey := key }
  match ← dpCall (.connClassLookup .tcpProcessing key) with
  | .found connIndex => alvsConnDataPath tcpHdr connIndex
  | _ => alvsUnknownPacketProcessing ipHdr tcpHdr

def udpDest : UInt16 := 8848

/-- Count a frame that is not for the load balancer and send it to the host. -/
def alvsSendToHost (counter : NwIfStats) : Dp Unit := do
  nwInterfaceIncCounter counter
  nwHostDoRoute

def alvsPacketProcessing (frame : Frame) : Dp Unit := do
  modify fun m => { m with connSyncState := { m.connSyncState with connSyncStatus := .noNeed } }
  match frame.payload with
  | .tcp hdr => if frame.myMac then alvsTcpProcessing frame.ipHdr hdr else alvsSendToHost .notMyMac
  | .udp dest message =>
    if frame.myMac then alvsSendToHost .notTcp
    else if dest = udpDest then alvsStateSyncBackup message
    else alvsSendToHost .notTcp
  | .other => alvsSendToHost .notTcp

/-! ## Jobs -/

/-- What a thread receives : a frame, or an event of the aging timer. -/
inductive DpJob
  | frame (f : Frame)
  | timer (eventId : UInt32)
  deriving DecidableEq

/-- Process what was received. -/
def packetProcessing : DpJob → Dp Unit
  | .frame f => do
    modify fun m => { m with frameLength := f.length }
    alvsPacketProcessing f
  | .timer eventId => alvsHandleAgingEvent eventId

/-! ## Example frames -/

/-- A packet of one connection. -/
def examplePacket (fin rst : Bool) : DpJob :=
  .frame ⟨60, true, ⟨0x0a000001, 0x0a0000fe, ipprotoTcp⟩, .tcp ⟨4000, 80, fin, rst⟩⟩

/-- A record of that connection. -/
def exampleRecord (flags : UInt32) (state : UInt16) (serverAddr : UInt32) (serverPort : UInt16) :
    StateSyncConn :=
  ⟨0, ipprotoTcp, 0, 36, flags, state, 4000, 80, serverPort, 0, 960, 0x0a000001, 0x0a0000fe,
    serverAddr⟩

/-- A sync message with one record. -/
def exampleSync (conn : StateSyncConn) : DpJob :=
  .frame ⟨86, false, ⟨0x0a000003, 0x0a000004, ipprotoUdp⟩,
    .udp udpDest ⟨some ⟨0, 0, 1, alvsStateSyncProtoVer, 0⟩, [conn]⟩⟩

/-- The threads of an example, counted from zero. -/
def tid {n : Nat} (i : Nat) : Fin (n + 1) := .ofNat (n + 1) i

/-- Calls do not fail, and the load balancer is a backup. -/
def exampleEnv : DpEnv :=
  ⟨false, 0, some ⟨false, true, 0, 0, 0⟩, some ⟨0⟩, none, none⟩

end Alvs
