import Alvs.Dp.Server

/-!
# State synchronisation, master

The functions of `alvs_state_sync_master.h`. The buffer of the sync frame holds the
headers and the records of connections; `current_len` counts its bytes.
-/

namespace Alvs

open ProgLogic

/-! ## Sizes -/

def sizeofEtherHeader : UInt8 := 14

/-- The sizes of the IPv4 and UDP headers. -/
def sizeofNetHdr : UInt8 := 28

def sizeofStateSyncHeader : UInt8 := 8

def sizeofStateSyncConn : UInt8 := 36

def ezframeBufDataSize : Nat := 256

def alvsStateSyncHeadroom : UInt8 := 64

def alvsStateSyncBuffersLimit : UInt8 := 5

def alvsStateSyncProtoVer : UInt8 := 1

def alvsTimerIntervalSec : UInt32 := 16

/-! ## Records -/

/-- The record of the connection of `conn_info_result`. -/
def alvsStateSyncSetSyncConn (m : Cmem) : StateSyncConn :=
  let c := m.connInfoResult
  { type := 0
    protocol := c.connClassKey.protocol.toUInt8
    version := 0
    size := sizeofStateSyncConn.toUInt16
    flags := c.connFlags
    state := c.connState.toUInt16
    clientPort := c.connClassKey.clientPort
    virtualPort := c.connClassKey.virtualPort
    serverPort := if c.bound then m.serverInfoResult.serverPort else c.serverPort
    fwmark := 0
    timeout := (alvsUtilGetConnIterations c.connState).toUInt32 * alvsTimerIntervalSec
    clientAddr := c.connClassKey.clientIp
    virtualAddr := c.connClassKey.virtualIp
    serverAddr := if c.bound then m.serverInfoResult.serverIp else c.serverAddr }

/-! ## Frames -/

/-- The source MAC address of the frame is that of the interface; nothing depends on it. -/
def alvsStateSyncSetEthHdr : Dp Unit := discard (nwInterfaceLookup userBaseLogicalId)

def alvsStateSyncFirst (sourceIp : UInt32) (syncId : UInt8) : Dp Unit := do
  alvsStateSyncSetEthHdr
  modify fun m =>
    { m with connSyncState :=
      { m.connSyncState with
        amountBuffers := 1
        connCount := 1
        currentLen :=
          sizeofEtherHeader + sizeofNetHdr + sizeofStateSyncHeader + sizeofStateSyncConn
        headers := ⟨sourceIp, syncId, 1⟩
        conns := [alvsStateSyncSetSyncConn m] } }

def alvsStateSyncSendSingle (sourceIp : UInt32) (syncId : UInt8) : Dp Unit := do
  alvsStateSyncFirst sourceIp syncId
  let st := (← get).connSyncState
  dpCall (.assertion
    (st.currentLen.toNat ≤ ezframeBufDataSize - alvsStateSyncHeadroom.toNat))
  if ← dpCall (.frameNew st.headers st.conns st.currentLen.toUInt32) then
    nwSendFrameToNetwork userBaseLogicalId

/-- Append the current buffer to the frame, or free the frame. -/
def alvsStateSyncAppendBuf (st : ConnSyncState) : Dp Bool := do
  if ← dpCall (.frameAppendBuf st.conns st.currentLen.toUInt32) then
    pure true
  else
    dpCall .frameFree
    pure false

def alvsStateSyncAddBuffer : Dp Bool := do
  let st := (← get).connSyncState
  dpCall (.assertion (0 < st.amountBuffers ∧ st.amountBuffers ≤ alvsStateSyncBuffersLimit))
  let added ← (if st.amountBuffers = 1 then
      dpCall (.frameNew st.headers st.conns (st.currentLen - alvsStateSyncHeadroom).toUInt32)
    else alvsStateSyncAppendBuf st)
  modify fun m =>
    { m with connSyncState :=
      { m.connSyncState with
        amountBuffers := if added then m.connSyncState.amountBuffers + 1 else 0
        connCount := if added then m.connSyncState.connCount else 0
        currentLen := 0
        conns := [] } }
  pure added

/-- The length fields of the headers are rewritten when there is more than one record. -/
def alvsStateSyncSendFirstBuf : Dp Unit := do
  let st := (← get).connSyncState
  (if 1 < st.connCount then dpCall (.frameStoreHeaders st.connCount) else pure ())
  nwSendFrameToNetwork userBaseLogicalId

def alvsStateSyncSendAggr : Dp Unit := do
  let st := (← get).connSyncState
  if st.amountBuffers ≠ 0 then
    let added ← (if 0 < st.currentLen then alvsStateSyncAddBuffer else pure true)
    if added then
      let m ← get
      if 1 < m.connSyncState.amountBuffers then
        if ← dpCall .frameFirstBuf then
          alvsStateSyncSendFirstBuf
        else
          dpCall .frameFree
      else
        alvsStateSyncSendFirstBuf

/-- Start a new frame with the current connection. -/
def alvsStateSyncNewFrame (sourceIp : UInt32) (syncId : UInt8) : Dp Unit := do
  alvsStateSyncFirst sourceIp syncId
  modify fun m =>
    { m with connSyncState :=
      { m.connSyncState with currentLen := m.connSyncState.currentLen + alvsStateSyncHeadroom } }

/-- Add the current connection to the current buffer. -/
def alvsStateSyncAddConn : Dp Unit :=
  modify fun m =>
    { m with connSyncState :=
      { m.connSyncState with
        currentLen := m.connSyncState.currentLen + sizeofStateSyncConn
        connCount := m.connSyncState.connCount + 1
        conns := m.connSyncState.conns ++ [alvsStateSyncSetSyncConn m] } }

def alvsStateSyncAggr (sourceIp : UInt32) (syncId : UInt8) : Dp Unit := do
  let conn := (← get).connInfoResult
  let found ← (if conn.bound then alvsServerInfoLookup conn.serverIndex else pure true)
  if found then
    let st := (← get).connSyncState
    if st.amountBuffers = 0 then
      alvsStateSyncNewFrame sourceIp syncId
    else if ezframeBufDataSize < st.currentLen.toNat + sizeofStateSyncConn.toNat then
      if st.amountBuffers = alvsStateSyncBuffersLimit then
        alvsStateSyncSendAggr
        alvsStateSyncNewFrame sourceIp syncId
      else if ← alvsStateSyncAddBuffer then
        alvsStateSyncAddConn
    else
      alvsStateSyncAddConn

end Alvs
