import Alvs.Dp.Packet
import Alvs.Lib.Bytes

/-!
# The bytes of a sync frame

What `alvs_state_sync_master.h` writes into `frame_data`, byte by byte : each field of the
Ethernet, IPv4, UDP and sync headers and of the records of connections is a store at the
offset of the field. A byte that no function stores keeps what `frame_data` held before.
-/

namespace Alvs

open ProgLogic

/-! ## Constants -/

def sizeofIphdr : Nat := 20

def sizeofUdphdr : Nat := 8

def alvsStateSyncDstPort : Nat := 8848

def alvsStateSyncDstIp : Nat := 0xe0000051

def alvsStateSyncDstMac : List UInt8 := [0x01, 0x00, 0x5e, 0x00, 0x00, 0x51]

def ethertypeIp : Nat := 0x0800

def ipDf : Nat := 0x4000

/-- A MAC address. -/
abbrev MacAddr := Vector UInt8 6

/-- The content of `frame_data`. -/
abbrev FrameData := ByteMem

namespace FrameData

/-! ## Headers

The offsets are those of the fields in `struct iphdr`, `struct udphdr` and
`struct alvs_state_sync_header`, all in network byte order. -/

/-- The lengths of a frame with `connCount` records; `checksum` is the checksum that
`ezframe_update_ipv4_checksum` computes of an IPv4 header. -/
def alvsStateSyncUpdateNetHdrLen (checksum : List UInt8 → UInt16) (d : FrameData) (netHdr : Nat)
    (connCount : UInt8) : FrameData :=
  let udpLen := sizeofUdphdr + sizeofStateSyncHeader.toNat +
    connCount.toNat * sizeofStateSyncConn.toNat
  let d := d.store (netHdr + 24) (bigEndian 2 udpLen)
  let d := d.store (netHdr + 2) (bigEndian 2 (sizeofIphdr + udpLen % 2 ^ 16))
  d.store (netHdr + 10) (bigEndian 2 (checksum (d.load netHdr sizeofIphdr)).toNat)

/-- The version and the header length are halves of one byte, written one after the other. -/
def alvsStateSyncSetNetHdr (checksum : List UInt8 → UInt16) (d : FrameData) (netHdr : Nat)
    (connCount : UInt8) (sourceIp : UInt32) : FrameData :=
  let d := d.store (netHdr + 20) (bigEndian 2 alvsStateSyncDstPort)
  let d := d.store (netHdr + 22) (bigEndian 2 alvsStateSyncDstPort)
  let d := d.store (netHdr + 26) (bigEndian 2 0)
  let d := d.store netHdr [d netHdr &&& 0x0f ||| 0x40]
  let d := d.store netHdr [d netHdr &&& 0xf0 ||| 0x05]
  let d := d.store (netHdr + 1) [0]
  let d := d.store (netHdr + 4) (bigEndian 2 0)
  let d := d.store (netHdr + 6) (bigEndian 2 ipDf)
  let d := d.store (netHdr + 8) [1]
  let d := d.store (netHdr + 9) [ipprotoUdp]
  let d := d.store (netHdr + 10) (bigEndian 2 0)
  let d := d.store (netHdr + 12) (bigEndian 4 sourceIp.toNat)
  let d := d.store (netHdr + 16) (bigEndian 4 alvsStateSyncDstIp)
  alvsStateSyncUpdateNetHdrLen checksum d netHdr connCount

/-- Nothing is written if the interface was not found. -/
def alvsStateSyncSetEthHdr (d : FrameData) : Option MacAddr → FrameData
  | none => d
  | some mac =>
    let d := d.store 6 mac.toList
    let d := d.store 12 (bigEndian 2 ethertypeIp)
    d.store 0 alvsStateSyncDstMac

def alvsStateSyncUpdateSyncHdrLen (d : FrameData) (hdr : Nat) (connCount : UInt8) : FrameData :=
  let size := sizeofStateSyncHeader.toNat + connCount.toNat * sizeofStateSyncConn.toNat
  let d := d.store (hdr + 2) (bigEndian 2 size)
  d.store (hdr + 4) [connCount]

/-- The field `reserved`, at offset 0, is not written. -/
def alvsStateSyncSetSyncHdr (d : FrameData) (hdr : Nat) (connCount syncId : UInt8) : FrameData :=
  let d := d.store (hdr + 1) [syncId]
  let d := d.store (hdr + 5) [alvsStateSyncProtoVer]
  let d := d.store (hdr + 6) (bigEndian 2 0)
  alvsStateSyncUpdateSyncHdrLen d hdr connCount

/-! ## Records -/

/-- The bits of `version` in its halfword. -/
def versionMask : UInt16 := 0xf000

/-- The bits of `size` in its halfword. -/
def sizeMask : UInt16 := 0x0fff

/-- A record at address `conn`. The version and the size are parts of one halfword, written
one after the other. -/
def alvsStateSyncSetSyncConn (d : FrameData) (conn : Nat) (r : StateSyncConn) : FrameData :=
  let d := d.store conn [r.type]
  let d := d.store (conn + 1) [r.protocol]
  let d := d.store (conn + 2)
    (bigEndian 2 (d.halfword (conn + 2) &&& sizeMask ||| r.version.toUInt16 <<< 12).toNat)
  let d := d.store (conn + 2)
    (bigEndian 2 (d.halfword (conn + 2) &&& versionMask ||| r.size &&& sizeMask).toNat)
  let d := d.store (conn + 4) (bigEndian 4 r.flags.toNat)
  let d := d.store (conn + 8) (bigEndian 2 r.state.toNat)
  let d := d.store (conn + 20) (bigEndian 4 r.timeout.toNat)
  let d := d.store (conn + 16) (bigEndian 4 r.fwmark.toNat)
  let d := d.store (conn + 10) (bigEndian 2 r.clientPort.toNat)
  let d := d.store (conn + 12) (bigEndian 2 r.virtualPort.toNat)
  let d := d.store (conn + 24) (bigEndian 4 r.clientAddr.toNat)
  let d := d.store (conn + 28) (bigEndian 4 r.virtualAddr.toNat)
  let d := d.store (conn + 32) (bigEndian 4 r.serverAddr.toNat)
  d.store (conn + 14) (bigEndian 2 r.serverPort.toNat)

/-- Records one after the other, as `current_base` moves on. -/
def setSyncConns (d : FrameData) (base : Nat) : List StateSyncConn → FrameData
  | [] => d
  | r :: rs =>
    (d.alvsStateSyncSetSyncConn base r).setSyncConns (base + sizeofStateSyncConn.toNat) rs

end FrameData

/-! ## What the headers hold -/

/-- The Ethernet header of the sync frames of an interface. -/
def ethHdrBytes (mac : MacAddr) : List UInt8 :=
  alvsStateSyncDstMac ++ mac.toList ++ bigEndian 2 ethertypeIp

/-- The IPv4 header of a sync frame. -/
def ipHdrBytes (totLen check : Nat) (sourceIp : UInt32) : List UInt8 :=
  [0x45, 0] ++ bigEndian 2 totLen ++ bigEndian 2 0 ++ bigEndian 2 ipDf ++ [1] ++ [ipprotoUdp] ++
    bigEndian 2 check ++ bigEndian 4 sourceIp.toNat ++ bigEndian 4 alvsStateSyncDstIp

/-- The UDP header of a sync frame. -/
def udpHdrBytes (udpLen : Nat) : List UInt8 :=
  bigEndian 2 alvsStateSyncDstPort ++ bigEndian 2 alvsStateSyncDstPort ++ bigEndian 2 udpLen ++
    bigEndian 2 0

/-- The sync header. -/
def syncHdrBytes (reserved syncId : UInt8) (size : Nat) (connCount : UInt8) : List UInt8 :=
  [reserved] ++ [syncId] ++ bigEndian 2 size ++ [connCount] ++ [alvsStateSyncProtoVer] ++
    bigEndian 2 0

/-- A record. -/
def StateSyncConn.bytes (r : StateSyncConn) : List UInt8 :=
  [r.type] ++ [r.protocol] ++
    bigEndian 2 (r.version.toUInt16 <<< 12 &&& FrameData.versionMask |||
      r.size &&& FrameData.sizeMask).toNat ++
    bigEndian 4 r.flags.toNat ++ bigEndian 2 r.state.toNat ++ bigEndian 2 r.clientPort.toNat ++
    bigEndian 2 r.virtualPort.toNat ++ bigEndian 2 r.serverPort.toNat ++
    bigEndian 4 r.fwmark.toNat ++ bigEndian 4 r.timeout.toNat ++ bigEndian 4 r.clientAddr.toNat ++
    bigEndian 4 r.virtualAddr.toNat ++ bigEndian 4 r.serverAddr.toNat

/-! ## What is written -/

section Written

variable (checksum : List UInt8 → UInt16) (d : FrameData)

theorem version_byte (x : UInt8) : ((x &&& 0x0f ||| 0x40) &&& 0xf0 ||| 0x05) = 0x45 := by
  have h : ∀ y : BitVec 8, ((y &&& 0x0f ||| 0x40) &&& 0xf0 ||| 0x05) = 0x45 := by decide
  exact UInt8.toBitVec_inj.mp (h x.toBitVec)

/-- What the halfword of the version and the size held before does not matter. -/
theorem version_halfword (x v s : UInt16) :
    ((x &&& FrameData.sizeMask ||| v) &&& FrameData.versionMask ||| s) =
      (v &&& FrameData.versionMask ||| s) := by
  have hmask : (0x0fff : BitVec 16) &&& 0xf000 = 0 := by decide
  apply UInt16.toBitVec_inj.mp
  change ((x.toBitVec &&& 0x0fff ||| v.toBitVec) &&& 0xf000 ||| s.toBitVec) =
    (v.toBitVec &&& 0xf000 ||| s.toBitVec)
  rw [BitVec.and_or_distrib_right, BitVec.and_assoc, hmask]
  simp

theorem load_setSyncConn (a : Nat) (r : StateSyncConn) :
    (d.alvsStateSyncSetSyncConn a r).load a 36 = r.bytes := by
  unfold FrameData.alvsStateSyncSetSyncConn
  simp only
  rw [show 36 = 1 + 1 + 2 + 4 + 2 + 2 + 2 + 2 + 4 + 4 + 4 + 4 + 4 from rfl]
  simp only [ByteMem.load_add]
  simp (disch := simp only [length_bigEndian, List.length_cons,
    List.length_nil]; first | done | omega) only
    [ByteMem.load_store_of_disjoint, ByteMem.load_store_of_length, Nat.reduceAdd]
  rw [ByteMem.halfword_store, version_halfword]
  rfl

/-- A record is written in its 36 bytes only. -/
theorem setSyncConn_of_outside {a i : Nat} (h : i < a ∨ a + 36 ≤ i) (r : StateSyncConn) :
    d.alvsStateSyncSetSyncConn a r i = d i := by
  unfold FrameData.alvsStateSyncSetSyncConn
  rcases h with h | h
  · simp (disch := omega) only [ByteMem.store_of_lt]
  · simp (disch := simp only [length_bigEndian, List.length_cons, List.length_nil]; omega) only
      [ByteMem.store_of_ge]

theorem setSyncConns_of_lt : ∀ (rs : List StateSyncConn) {a i : Nat} (d : FrameData), i < a →
    d.setSyncConns a rs i = d i
  | [], _, _, _, _ => rfl
  | r :: rs, a, i, d, h => by
    rw [FrameData.setSyncConns, setSyncConns_of_lt rs _ (Nat.lt_add_right _ h),
      setSyncConn_of_outside d (.inl h)]

/-- The records are written one after the other. -/
theorem load_setSyncConns : ∀ (rs : List StateSyncConn) (a : Nat) (d : FrameData),
    (d.setSyncConns a rs).load a (36 * rs.length) = rs.flatMap StateSyncConn.bytes
  | [], _, _ => rfl
  | r :: rs, a, d => by
    have hfirst : ((d.alvsStateSyncSetSyncConn a r).setSyncConns (a + 36) rs).load a 36 =
      r.bytes := by
      rw [← load_setSyncConn d a r]
      exact ByteMem.load_congr fun i _ hi => setSyncConns_of_lt rs _ hi
    have hlen : 36 * (r :: rs).length = 36 + 36 * rs.length := by
      rw [List.length_cons]
      omega
    rw [hlen, ByteMem.load_add, List.flatMap_cons]
    exact congrArg₂ (· ++ ·) hfirst (load_setSyncConns rs (a + 36) _)

/-- An IPv4 and a UDP header, field by field. -/
theorem load_netHdr (m : ByteMem) (a : Nat) : m.load a 28 =
    m.load a 1 ++ m.load (a + 1) 1 ++ m.load (a + 2) 2 ++ m.load (a + 4) 2 ++ m.load (a + 6) 2 ++
      m.load (a + 8) 1 ++ m.load (a + 9) 1 ++ m.load (a + 10) 2 ++ m.load (a + 12) 4 ++
      m.load (a + 16) 4 ++ (m.load (a + 20) 2 ++ m.load (a + 22) 2 ++ m.load (a + 24) 2 ++
      m.load (a + 26) 2) := by
  rw [show 28 = 1 + 1 + 2 + 2 + 2 + 1 + 1 + 2 + 4 + 4 + (2 + 2 + 2 + 2) from rfl]
  simp only [ByteMem.load_add]

/-- An IPv4 header, field by field. -/
theorem load_iphdr (m : ByteMem) (a : Nat) : m.load a 20 =
    m.load a 1 ++ m.load (a + 1) 1 ++ m.load (a + 2) 2 ++ m.load (a + 4) 2 ++ m.load (a + 6) 2 ++
      m.load (a + 8) 1 ++ m.load (a + 9) 1 ++ m.load (a + 10) 2 ++ m.load (a + 12) 4 ++
      m.load (a + 16) 4 := by
  rw [show 20 = 1 + 1 + 2 + 2 + 2 + 1 + 1 + 2 + 4 + 4 from rfl]
  simp only [ByteMem.load_add]

/-- The lengths in the headers of a frame with `connCount` records. -/
def udpLenOf (connCount : UInt8) : Nat := 16 + connCount.toNat * 36

def totLenOf (connCount : UInt8) : Nat := 20 + udpLenOf connCount

theorem udpLenOf_mod (connCount : UInt8) : udpLenOf connCount % 2 ^ 16 = udpLenOf connCount := by
  have h := connCount.toNat_lt
  unfold udpLenOf
  omega

/-- The lengths and the checksum are rewritten; the rest of the headers stays. -/
theorem load_updateNetHdrLen {a t c l : Nat} {ip : UInt32} (n : UInt8)
    (h : d.load a 28 = ipHdrBytes t c ip ++ udpHdrBytes l) :
    (d.alvsStateSyncUpdateNetHdrLen checksum a n).load a 28 =
      ipHdrBytes (totLenOf n) (checksum (ipHdrBytes (totLenOf n) c ip)).toNat ip ++
        udpHdrBytes (udpLenOf n) := by
  have hlen : sizeofUdphdr + sizeofStateSyncHeader.toNat + n.toNat * sizeofStateSyncConn.toNat =
      udpLenOf n := rfl
  have hpart : ∀ k j, k + j ≤ 28 →
      d.load (a + k) j = ((ipHdrBytes t c ip ++ udpHdrBytes l).drop k).take j :=
    fun k j hk => by rw [ByteMem.load_of_load d hk, h]
  have h0 : d.load a 1 = [0x45] := hpart 0 1 (by omega)
  unfold FrameData.alvsStateSyncUpdateNetHdrLen
  simp only [hlen, udpLenOf_mod]
  rw [load_netHdr, sizeofIphdr, load_iphdr]
  simp (disch := simp only [length_bigEndian, List.length_cons,
    List.length_nil]; first | done | omega)
    only [ByteMem.load_store_of_disjoint, ByteMem.load_store_of_length]
  rw [h0, hpart 1 1 (by omega), hpart 4 2 (by omega), hpart 6 2 (by omega), hpart 8 1 (by omega),
    hpart 9 1 (by omega), hpart 10 2 (by omega), hpart 12 4 (by omega), hpart 16 4 (by omega),
    hpart 20 2 (by omega), hpart 22 2 (by omega), hpart 26 2 (by omega)]
  rfl

/-- The headers before their lengths are written. -/
theorem load_setNetHdr (a : Nat) (n : UInt8) (ip : UInt32) :
    ∃ c, (d.alvsStateSyncSetNetHdr checksum a n ip).load a 28 =
      ipHdrBytes (totLenOf n) (checksum (ipHdrBytes (totLenOf n) c ip)).toNat ip ++
        udpHdrBytes (udpLenOf n) := by
  unfold FrameData.alvsStateSyncSetNetHdr
  simp only
  refine ⟨0, load_updateNetHdrLen checksum _ (t := value (d.load (a + 2) 2))
    (l := value (d.load (a + 24) 2)) n ?_⟩
  rw [load_netHdr]
  simp (disch := simp only [length_bigEndian, List.length_cons,
    List.length_nil]; first | done | omega)
    only [ByteMem.load_store_of_disjoint, ByteMem.load_store_of_length, ByteMem.store_self,
      version_byte]
  rw [ipHdrBytes, udpHdrBytes, bigEndian_value (ByteMem.length_load _ _ _),
    bigEndian_value (ByteMem.length_load _ _ _)]
  rfl

theorem updateNetHdrLen_of_outside {a i : Nat} (h : i < a ∨ a + 28 ≤ i) (n : UInt8) :
    d.alvsStateSyncUpdateNetHdrLen checksum a n i = d i := by
  unfold FrameData.alvsStateSyncUpdateNetHdrLen
  rcases h with h | h
  · simp (disch := omega) only [ByteMem.store_of_lt]
  · simp (disch := simp only [length_bigEndian]; omega) only [ByteMem.store_of_ge]

theorem setNetHdr_of_outside {a i : Nat} (h : i < a ∨ a + 28 ≤ i) (n : UInt8) (ip : UInt32) :
    d.alvsStateSyncSetNetHdr checksum a n ip i = d i := by
  refine (updateNetHdrLen_of_outside checksum _ h n).trans ?_
  rcases h with h | h
  · simp (disch := omega) only [ByteMem.store_of_lt]
  · simp (disch := simp only [length_bigEndian, List.length_cons, List.length_nil]; omega) only
      [ByteMem.store_of_ge]

theorem load_setEthHdr (mac : MacAddr) :
    (d.alvsStateSyncSetEthHdr (some mac)).load 0 14 = ethHdrBytes mac := by
  have hmac : mac.toList.length = 6 := mac.length_toList
  have hdst : alvsStateSyncDstMac.length = 6 := rfl
  rw [show 14 = 6 + 6 + 2 from rfl, ByteMem.load_add, ByteMem.load_add]
  unfold FrameData.alvsStateSyncSetEthHdr
  simp (disch := simp only [length_bigEndian, hmac, hdst]; first | done | decide)
    only [ByteMem.load_store_of_disjoint, ByteMem.load_store_of_length]
  rfl

theorem setEthHdr_of_ge {i : Nat} (h : 14 ≤ i) (mac : Option MacAddr) :
    d.alvsStateSyncSetEthHdr mac i = d i := by
  cases mac with
  | none => rfl
  | some mac =>
    have hmac : mac.toList.length = 6 := mac.length_toList
    have hdst : alvsStateSyncDstMac.length = 6 := rfl
    unfold FrameData.alvsStateSyncSetEthHdr
    simp (disch := simp only [length_bigEndian, hmac, hdst]; omega) only [ByteMem.store_of_ge]

/-- A sync header, field by field. -/
theorem load_syncHdr (m : ByteMem) (a : Nat) : m.load a 8 =
    m.load a 1 ++ m.load (a + 1) 1 ++ m.load (a + 2) 2 ++ m.load (a + 4) 1 ++ m.load (a + 5) 1 ++
      m.load (a + 6) 2 := by
  rw [show 8 = 1 + 1 + 2 + 1 + 1 + 2 from rfl]
  simp only [ByteMem.load_add]

/-- The size of a sync message with `connCount` records. -/
def syncSizeOf (connCount : UInt8) : Nat := 8 + connCount.toNat * 36

/-- The lengths are rewritten; the rest of the header stays. -/
theorem load_updateSyncHdrLen {a s : Nat} {res id m : UInt8} (n : UInt8)
    (h : d.load a 8 = syncHdrBytes res id s m) :
    (d.alvsStateSyncUpdateSyncHdrLen a n).load a 8 = syncHdrBytes res id (syncSizeOf n) n := by
  have hpart : ∀ k j, k + j ≤ 8 → d.load (a + k) j = ((syncHdrBytes res id s m).drop k).take j :=
    fun k j hk => by rw [ByteMem.load_of_load d hk, h]
  have h0 : d.load a 1 = [res] := hpart 0 1 (by omega)
  unfold FrameData.alvsStateSyncUpdateSyncHdrLen
  rw [load_syncHdr]
  simp (disch := simp only [length_bigEndian, List.length_cons,
    List.length_nil]; first | done | omega)
    only [ByteMem.load_store_of_disjoint, ByteMem.load_store_of_length]
  rw [h0, hpart 1 1 (by omega), hpart 5 1 (by omega), hpart 6 2 (by omega)]
  rfl

/-- The byte `reserved` is what it was. -/
theorem load_setSyncHdr (a : Nat) (n id : UInt8) :
    (d.alvsStateSyncSetSyncHdr a n id).load a 8 = syncHdrBytes (d a) id (syncSizeOf n) n := by
  refine load_updateSyncHdrLen _ (s := value (d.load (a + 2) 2)) (m := d (a + 4)) n ?_
  rw [load_syncHdr]
  simp (disch := simp only [length_bigEndian, List.length_cons,
    List.length_nil]; first | done | omega)
    only [ByteMem.load_store_of_disjoint, ByteMem.load_store_of_length]
  rw [syncHdrBytes, bigEndian_value (ByteMem.length_load _ _ _)]
  rfl

theorem updateSyncHdrLen_of_outside {a i : Nat} (h : i < a ∨ a + 8 ≤ i) (n : UInt8) :
    d.alvsStateSyncUpdateSyncHdrLen a n i = d i := by
  unfold FrameData.alvsStateSyncUpdateSyncHdrLen
  rcases h with h | h
  · simp (disch := omega) only [ByteMem.store_of_lt]
  · simp (disch := simp only [length_bigEndian, List.length_cons, List.length_nil]; omega) only
      [ByteMem.store_of_ge]

theorem setSyncHdr_of_outside {a i : Nat} (h : i < a ∨ a + 8 ≤ i) (n id : UInt8) :
    d.alvsStateSyncSetSyncHdr a n id i = d i := by
  refine (updateSyncHdrLen_of_outside _ h n).trans ?_
  rcases h with h | h
  · simp (disch := omega) only [ByteMem.store_of_lt]
  · simp (disch := simp only [length_bigEndian, List.length_cons, List.length_nil]; omega) only
      [ByteMem.store_of_ge]

end Written

/-! ## Frames -/

/-- A buffer of a frame : the records in it and its length in bytes. -/
structure SyncBuffer where
  conns : List StateSyncConn
  len : UInt32
  deriving DecidableEq

/-- A sync frame : what its headers were filled with, the number of records for which their
lengths were written again, and its buffers. -/
structure SyncFrame where
  headers : SyncFrameHeaders
  stored : Option UInt8
  buffers : List SyncBuffer
  deriving DecidableEq

namespace SyncFrame

/-- The records of the frame, in order. -/
def conns (f : SyncFrame) : List StateSyncConn := f.buffers.flatMap (·.conns)

/-- The number of records that the headers were last written for. -/
def connCount (f : SyncFrame) : UInt8 := f.stored.getD f.headers.connCount

variable (checksum : List UInt8 → UInt16) (mac : Option MacAddr)

/-- `frame_data` with the headers and the records of the first buffer. -/
def fillFirst (d : FrameData) (h : SyncFrameHeaders) (conns : List StateSyncConn) : FrameData :=
  let d := d.alvsStateSyncSetEthHdr mac
  let d := d.alvsStateSyncSetNetHdr checksum 14 h.connCount h.sourceIp
  let d := d.alvsStateSyncSetSyncHdr 42 h.connCount h.syncId
  d.setSyncConns 50 conns

/-- The first buffer. To write the lengths again, it is loaded into `frame_data` and stored. -/
def firstBytes (f : SyncFrame) (d : FrameData) (b : SyncBuffer) : List UInt8 :=
  let bytes := (fillFirst checksum mac d f.headers b.conns).load 0 b.len.toNat
  match f.stored with
  | none => bytes
  | some n =>
    let d : FrameData := d.store 0 bytes
    let d := d.alvsStateSyncUpdateNetHdrLen checksum 14 n
    let d := d.alvsStateSyncUpdateSyncHdrLen 42 n
    d.load 0 b.len.toNat

/-- The buffers after the first. -/
def laterBytes (d : Nat → FrameData) : List SyncBuffer → List (List UInt8)
  | [] => []
  | b :: bs => ((d 0).setSyncConns 0 b.conns).load 0 b.len.toNat :: laterBytes (fun i => d (i + 1))
      bs

/-- The bytes of the buffers; `d i` is what `frame_data` holds before buffer `i` is filled. -/
def bytes (f : SyncFrame) (d : Nat → FrameData) : List (List UInt8) :=
  match f.buffers with
  | [] => []
  | b :: bs => f.firstBytes checksum mac (d 0) b :: laterBytes (fun i => d (i + 1)) bs

/-- The lengths of the buffers and the number of records are right. -/
structure Measured (f : SyncFrame) : Prop where
  nonempty : f.buffers ≠ []
  first : ∀ b ∈ f.buffers.head?, b.len.toNat = 50 + 36 * b.conns.length
  later : ∀ b ∈ f.buffers.tail, b.len.toNat = 36 * b.conns.length
  count : f.connCount.toNat = f.conns.length

end SyncFrame

section FrameBytes

variable (checksum : List UInt8 → UInt16)

/-- The Ethernet header of a frame that is built where `frame_data` holds `d`. -/
def ethHdrOf (d : FrameData) : Option MacAddr → List UInt8
  | none => d.load 0 14
  | some mac => ethHdrBytes mac

theorem length_ethHdrOf (d : FrameData) (mac : Option MacAddr) : (ethHdrOf d mac).length = 14 := by
  cases mac with
  | none => exact ByteMem.length_load d 0 14
  | some mac =>
    have hmac : mac.toList.length = 6 := mac.length_toList
    simp [ethHdrOf, ethHdrBytes, alvsStateSyncDstMac]

/-- The headers of a frame with `n` records, where `res` is in the byte `reserved`. -/
def headerBytes (eth : List UInt8) (check : Nat) (sourceIp : UInt32) (res syncId n : UInt8) :
    List UInt8 :=
  eth ++ (ipHdrBytes (totLenOf n) check sourceIp ++ udpHdrBytes (udpLenOf n)) ++
    syncHdrBytes res syncId (syncSizeOf n) n

/-- The checksum in an IPv4 header was updated last. -/
def ChecksumOk (check : Nat) (n : UInt8) (sourceIp : UInt32) : Prop :=
  ∃ c, check = (checksum (ipHdrBytes (totLenOf n) c sourceIp)).toNat

theorem load_headers {m : ByteMem} {eth net sync : List UInt8} (he : m.load 0 14 = eth)
    (hn : m.load 14 28 = net) (hs : m.load 42 8 = sync) : m.load 0 50 = eth ++ net ++ sync := by
  rw [show 50 = 14 + 28 + 8 from rfl, ByteMem.load_add, ByteMem.load_add, he]
  exact congrArg₂ (· ++ ·) (congrArg (eth ++ ·) hn) hs

theorem load_fillFirst (mac : Option MacAddr) (d : FrameData) (h : SyncFrameHeaders)
    (conns : List StateSyncConn) : ∃ check, ChecksumOk checksum check h.connCount h.sourceIp ∧
      (SyncFrame.fillFirst checksum mac d h conns).load 0 (50 + 36 * conns.length) =
        headerBytes (ethHdrOf d mac) check h.sourceIp (d 42) h.syncId h.connCount ++
          conns.flatMap StateSyncConn.bytes := by
  set d₁ := d.alvsStateSyncSetEthHdr mac with hd₁
  set d₂ := FrameData.alvsStateSyncSetNetHdr checksum d₁ 14 h.connCount h.sourceIp with hd₂
  set d₃ := FrameData.alvsStateSyncSetSyncHdr d₂ 42 h.connCount h.syncId with hd₃
  have h₂ : ∀ i, i < 14 ∨ 42 ≤ i → d₂ i = d₁ i := fun i hi =>
    setNetHdr_of_outside checksum d₁ hi h.connCount h.sourceIp
  have h₃ : ∀ i, i < 42 ∨ 50 ≤ i → d₃ i = d₂ i := fun i hi =>
    setSyncHdr_of_outside d₂ hi h.connCount h.syncId
  have heth : d₃.load 0 14 = ethHdrOf d mac := by
    have hload : d₃.load 0 14 = d₁.load 0 14 := ByteMem.load_congr fun i _ hi => by
      rw [h₃ i (by omega), h₂ i (by omega)]
    rw [hload, hd₁]
    cases mac with
    | none => rfl
    | some mac => exact load_setEthHdr d mac
  have hres : d₂ 42 = d 42 := by
    rw [h₂ 42 (by omega), hd₁, setEthHdr_of_ge d (by omega)]
  obtain ⟨c, hnet⟩ := load_setNetHdr checksum d₁ 14 h.connCount h.sourceIp
  have hnet' : d₃.load 14 28 = d₂.load 14 28 := ByteMem.load_congr fun i _ hi => h₃ i (by omega)
  have hsync : d₃.load 42 8 = syncHdrBytes (d 42) h.syncId (syncSizeOf h.connCount)
    h.connCount := by
    rw [hd₃, load_setSyncHdr, hres]
  refine ⟨_, ⟨c, rfl⟩, ?_⟩
  have hhead : (d₃.setSyncConns 50 conns).load 0 50 = d₃.load 0 50 :=
    ByteMem.load_congr fun i _ hi => setSyncConns_of_lt conns d₃ (by omega)
  rw [ByteMem.load_add]
  refine congrArg₂ (· ++ ·) ?_ (load_setSyncConns conns 50 d₃)
  exact hhead.trans (load_headers heth (hnet'.trans hnet) hsync)

@[simp] theorem length_ipHdrBytes (t c : Nat) (ip : UInt32) : (ipHdrBytes t c ip).length = 20 := by
  simp [ipHdrBytes]

@[simp] theorem length_udpHdrBytes (l : Nat) : (udpHdrBytes l).length = 8 := by simp [udpHdrBytes]

@[simp] theorem length_syncHdrBytes (res id : UInt8) (s : Nat) (n : UInt8) :
    (syncHdrBytes res id s n).length = 8 := by simp [syncHdrBytes]

@[simp] theorem StateSyncConn.length_bytes (r : StateSyncConn) : r.bytes.length = 36 := by
  simp [StateSyncConn.bytes]

/-- The parts of a first buffer. -/
theorem load_parts {m : ByteMem} {eth recs : List UInt8} {check k : Nat} {ip : UInt32}
    {res id n : UInt8} (heth : eth.length = 14)
    (h : m.load 0 (50 + k) = headerBytes eth check ip res id n ++ recs) :
    m.load 0 14 = eth ∧ m.load 14 28 = ipHdrBytes (totLenOf n) check ip ++ udpHdrBytes
      (udpLenOf n) ∧
      m.load 42 8 = syncHdrBytes res id (syncSizeOf n) n ∧ m.load 50 k = recs := by
  rw [show 50 + k = 14 + 28 + 8 + k from rfl, ByteMem.load_add, ByteMem.load_add, ByteMem.load_add,
    headerBytes] at h
  simp only [Nat.zero_add] at h
  have hlen₁ : (m.load 0 14 ++ m.load 14 28 ++ m.load 42 8).length =
      (eth ++ (ipHdrBytes (totLenOf n) check ip ++ udpHdrBytes (udpLenOf n)) ++
        syncHdrBytes res id (syncSizeOf n) n).length := by simp [heth]
  obtain ⟨h₁, hrecs⟩ := List.append_inj h hlen₁
  have hlen₂ : (m.load 0 14 ++ m.load 14 28).length =
      (eth ++ (ipHdrBytes (totLenOf n) check ip ++ udpHdrBytes (udpLenOf n))).length := by
    simp [heth]
  obtain ⟨h₂, hsync⟩ := List.append_inj h₁ hlen₂
  obtain ⟨h₃, hnet⟩ := List.append_inj h₂ (by simp [heth])
  exact ⟨h₃, hnet, hsync, hrecs⟩

/-- The lengths of the first buffer, written again. -/
theorem load_rewritten {m : FrameData} {eth recs : List UInt8} {check k : Nat} {ip : UInt32}
    {res id n₀ : UInt8} (n : UInt8) (heth : eth.length = 14)
    (h : m.load 0 (50 + k) = headerBytes eth check ip res id n₀ ++ recs) :
    ∃ check', ChecksumOk checksum check' n ip ∧
      ((m.alvsStateSyncUpdateNetHdrLen checksum 14 n).alvsStateSyncUpdateSyncHdrLen 42 n).load 0
        (50 + k) = headerBytes eth check' ip res id n ++ recs := by
  obtain ⟨h₁, h₂, h₃, h₄⟩ := load_parts heth h
  set m₁ := m.alvsStateSyncUpdateNetHdrLen checksum 14 n with hm₁
  set m₂ := m₁.alvsStateSyncUpdateSyncHdrLen 42 n with hm₂
  have hout₁ : ∀ i, i < 14 ∨ 42 ≤ i → m₁ i = m i := fun i hi =>
    updateNetHdrLen_of_outside checksum m hi n
  have hout₂ : ∀ i, i < 42 ∨ 50 ≤ i → m₂ i = m₁ i := fun i hi =>
    updateSyncHdrLen_of_outside m₁ hi n
  have heth' : m₂.load 0 14 = eth := by
    rw [← h₁]
    exact ByteMem.load_congr fun i _ hi => by rw [hout₂ i (by omega), hout₁ i (by omega)]
  have hnet : m₂.load 14 28 = m₁.load 14 28 := ByteMem.load_congr fun i _ hi => hout₂ i (by omega)
  have hsync : m₁.load 42 8 = syncHdrBytes res id (syncSizeOf n₀) n₀ := by
    rw [← h₃]
    exact ByteMem.load_congr fun i hi _ => hout₁ i (by omega)
  have hrecs : m₂.load 50 k = recs := by
    rw [← h₄]
    exact ByteMem.load_congr fun i hi _ => by rw [hout₂ i (by omega), hout₁ i (by omega)]
  refine ⟨_, ⟨check, rfl⟩, ?_⟩
  rw [ByteMem.load_add]
  exact congrArg₂ (· ++ ·) (load_headers heth'
    (hnet.trans (load_updateNetHdrLen checksum m n h₂)) (load_updateSyncHdrLen m₁ n hsync)) hrecs

/-- The first buffer of a frame with `n` records : its headers and its records. -/
theorem firstBytes_eq {f : SyncFrame} (mac : Option MacAddr) (d : FrameData) {b : SyncBuffer}
    (hb : b.len.toNat = 50 + 36 * b.conns.length) :
    ∃ check, ChecksumOk checksum check f.connCount f.headers.sourceIp ∧
      f.firstBytes checksum mac d b =
        headerBytes (ethHdrOf d mac) check f.headers.sourceIp (d 42) f.headers.syncId f.connCount ++
          b.conns.flatMap StateSyncConn.bytes := by
  obtain ⟨check, hcheck, hload⟩ := load_fillFirst checksum mac d f.headers b.conns
  unfold SyncFrame.firstBytes SyncFrame.connCount
  rw [hb]
  cases f.stored with
  | none => exact ⟨check, hcheck, hload⟩
  | some n =>
    have hloaded : (d.store 0 ((SyncFrame.fillFirst checksum mac d f.headers b.conns).load 0
        (50 + 36 * b.conns.length))).load 0 (50 + 36 * b.conns.length) =
          (SyncFrame.fillFirst checksum mac d f.headers b.conns).load 0
            (50 + 36 * b.conns.length) := ByteMem.load_store_of_length (ByteMem.length_load _ _ _)
    exact load_rewritten checksum n (length_ethHdrOf d mac) (hloaded.trans hload)

theorem laterBytes_eq : ∀ {bs : List SyncBuffer} (d : Nat → FrameData),
    (∀ b ∈ bs, b.len.toNat = 36 * b.conns.length) →
    (SyncFrame.laterBytes d bs).flatten = (bs.flatMap (·.conns)).flatMap StateSyncConn.bytes
  | [], _, _ => rfl
  | b :: bs, d, h => by
    have hlater := laterBytes_eq (fun i => d (i + 1)) (List.forall_mem_cons.mp h).2
    rw [SyncFrame.laterBytes, List.flatten_cons, hlater, h b List.mem_cons_self,
      load_setSyncConns, List.flatMap_cons, List.flatMap_append]

/-- The bytes of a frame : its headers and its records, one after the other. -/
theorem SyncFrame.flatten_bytes {f : SyncFrame} (hf : f.Measured) (mac : Option MacAddr)
    (d : Nat → FrameData) : ∃ check, ChecksumOk checksum check f.connCount f.headers.sourceIp ∧
      (f.bytes checksum mac d).flatten =
        headerBytes (ethHdrOf (d 0) mac) check f.headers.sourceIp (d 0 42) f.headers.syncId
          f.connCount ++ f.conns.flatMap StateSyncConn.bytes := by
  obtain ⟨hne, hfirst, hlater, -⟩ := hf
  cases hbs : f.buffers with
  | nil => exact absurd hbs hne
  | cons b bs =>
    rw [hbs] at hfirst hlater
    have hrest : ∀ b' ∈ bs, b'.len.toNat = 36 * b'.conns.length := hlater
    obtain ⟨check, hcheck, hb⟩ := firstBytes_eq checksum mac (d 0) (f := f) (hfirst b rfl)
    refine ⟨check, hcheck, ?_⟩
    rw [SyncFrame.bytes, SyncFrame.conns, hbs, List.flatten_cons, hb,
      laterBytes_eq _ hrest, List.flatMap_cons, List.flatMap_append, List.append_assoc]

end FrameBytes

end Alvs
