import Alvs.Dp.SyncBytes

/-!
# Receiving a sync frame

The bytes of a received frame, as `nw_recieve.h`, `alvs_packet_processing.c` and
`alvs_state_sync_backup.h` read them : the fields of the headers, and the records of a sync
message, which may begin in one buffer and end in another. The headers are decoded by
functions of the SDK (`Ezdp`), of which only the documented behaviour is used.

`SyncMessage.read_eq` : the message that is read from a sync frame has the header and the
records that were written, however the frame is cut into buffers.
-/

namespace Alvs

open ProgLogic

/-! ## Decoding headers -/

/-- What is read of the result of `ezdp_decode_mac`. -/
structure MacDecodeResult where
  decodeError : Bool
  myMac : Bool
  ipv4Multicast : Bool
  ipv4 : Bool
  layer2Size : Nat
  deriving DecidableEq

/-- What is read of the result of `ezdp_decode_ipv4`. -/
structure Ipv4DecodeResult where
  decodeError : Bool
  tcp : Bool
  udp : Bool
  deriving DecidableEq

/-- The functions of the SDK that decode headers : `ezdp_decode_mac` of the first buffer,
`ezdp_decode_ipv4` of an IPv4 header in a frame of a given length, and the checksum that
`ezframe_update_ipv4_checksum` writes into a header. -/
structure Ezdp where
  decodeMac : List UInt8 → MacDecodeResult
  decodeIpv4 : List UInt8 → Nat → Ipv4DecodeResult
  ipv4Checksum : List UInt8 → UInt16

/-- The sum of the halfwords of a header. -/
def halfwordSum : List UInt8 → Nat
  | a :: b :: bs => value [a, b] + halfwordSum bs
  | _ => 0

/-- An IPv4 header with the checksum `check`. -/
def withChecksum (hdr : List UInt8) (check : UInt16) : List UInt8 :=
  hdr.take 10 ++ bigEndian 2 check.toNat ++ hdr.drop 12

/-- The checksum of an IPv4 header is right : in ones' complement, its halfwords sum up to
zero. -/
def ChecksumValid (hdr : List UInt8) : Prop := halfwordSum hdr % 0xffff = 0

/-- The types that announce a VLAN tag. -/
def vlanTypes : List Nat := [0x8100, 0x88a8, 0x9100]

/-- The documented behaviour of these functions. -/
structure Ezdp.Documented (ez : Ezdp) : Prop where
  /-- An IPv4 frame without tags, from a unicast address to a multicast address. -/
  mac : ∀ (src : MacAddr) (bs : List UInt8), src.head &&& 1 = 0 →
    ez.decodeMac (ethHdrBytes src ++ bs) = ⟨false, false, true, true, 14⟩
  /-- The Ethernet header of an IPv4 frame ends with the type of IPv4, after its tags. -/
  layer2 : ∀ bs, (ez.decodeMac bs).decodeError = false → (ez.decodeMac bs).ipv4 = true →
    ∃ k, (ez.decodeMac bs).layer2Size = 14 + 4 * k ∧ field bs (12 + 4 * k) 2 = ethertypeIp ∧
      ∀ j < k, field bs (12 + 4 * j) 2 ∈ vlanTypes
  /-- The checksum that is written is right. -/
  checksum : ∀ hdr, hdr.length = 20 → ChecksumValid (withChecksum hdr (ez.ipv4Checksum hdr))
  /-- A header of version 4 without options, whose length and checksum are right. -/
  ipv4 : ∀ (hdr : List UInt8) (frameLength : Nat), hdr.length = 20 → field hdr 0 1 = 0x45 →
    20 ≤ field hdr 2 2 → field hdr 2 2 ≤ frameLength → ChecksumValid hdr →
    ez.decodeIpv4 hdr frameLength = ⟨false, field hdr 9 1 = 6, field hdr 9 1 = 17⟩

/-! ## Reading a sync message -/

namespace StateSyncConn

/-- The record at the beginning of `bs`. -/
def read (bs : List UInt8) : StateSyncConn where
  type := .ofNat (field bs 0 1)
  protocol := .ofNat (field bs 1 1)
  version := .ofNat (field bs 2 2 / 2 ^ 12)
  size := .ofNat (field bs 2 2 % 2 ^ 12)
  flags := .ofNat (field bs 4 4)
  state := .ofNat (field bs 8 2)
  clientPort := .ofNat (field bs 10 2)
  virtualPort := .ofNat (field bs 12 2)
  serverPort := .ofNat (field bs 14 2)
  fwmark := .ofNat (field bs 16 4)
  timeout := .ofNat (field bs 20 4)
  clientAddr := .ofNat (field bs 24 4)
  virtualAddr := .ofNat (field bs 28 4)
  serverAddr := .ofNat (field bs 32 4)

end StateSyncConn

/-- The sync header at the beginning of `bs`. -/
def StateSyncHeader.read (bs : List UInt8) : StateSyncHeader where
  reserved := .ofNat (field bs 0 1)
  syncid := .ofNat (field bs 1 1)
  connCount := .ofNat (field bs 4 1)
  version := .ofNat (field bs 5 1)
  spare := .ofNat (field bs 6 2)

/-- At most `n` records, as long as there are enough bytes. -/
def readConns : Nat → List UInt8 → List (List UInt8) → List StateSyncConn
  | 0, _, _ => []
  | n + 1, buffer, rest =>
    match cutBytes sizeofStateSyncConn.toNat [] buffer rest with
    | none => []
    | some (bs, buffer, rest) => .read bs :: readConns n buffer rest

/-- The sync message whose header begins in `buffer`. -/
def SyncMessage.read (buffer : List UInt8) (rest : List (List UInt8)) : SyncMessage :=
  match cutBytes sizeofStateSyncHeader.toNat [] buffer rest with
  | none => ⟨none, []⟩
  | some (bs, buffer, rest) =>
    let hdr := StateSyncHeader.read bs
    ⟨some hdr, readConns hdr.connCount.toNat buffer rest⟩

/-! ## Receiving a frame -/

/-- The TCP header at the beginning of `bs`. -/
def TcpHdr.read (bs : List UInt8) : TcpHdr where
  source := .ofNat (field bs 0 2)
  dest := .ofNat (field bs 2 2)
  fin := (field bs 13 1).testBit 0
  rst := (field bs 13 1).testBit 2

/-- A frame whose IPv4 header begins in `ip`. -/
def Frame.read (myMac : Bool) (decoded : Ipv4DecodeResult) (frameLength : Nat) (ip : List UInt8)
    (rest : List (List UInt8)) : Frame where
  length := .ofNat frameLength
  myMac := myMac
  ipHdr := ⟨.ofNat (field ip 12 4), .ofNat (field ip 16 4), .ofNat (field ip 9 1)⟩
  payload :=
    let l4 := ip.drop (field ip 0 1 % 16 * 4)
    if decoded.tcp then .tcp (.read l4)
    else if decoded.udp then .udp (.ofNat (field l4 2 2)) (.read (l4.drop sizeofUdphdr) rest)
    else .other

/-- `nw_recieve_and_parse_frame` of a valid frame from the network. -/
def nwRecieveAndParseFrame (ez : Ezdp) (buffers : List (List UInt8)) : Dp Unit :=
  let frameBase := buffers.headD []
  let mac := ez.decodeMac frameBase
  if mac.decodeError then
    alvsSendToHost .macError
  else if mac.myMac = false ∧ mac.ipv4Multicast = false then
    alvsSendToHost .notMyMac
  else if mac.ipv4 = false then
    alvsSendToHost .notIpv4
  else
    let ip := frameBase.drop mac.layer2Size
    let frameLength := buffers.flatten.length
    let decoded := ez.decodeIpv4 (ip.take sizeofIphdr) frameLength
    if decoded.decodeError then
      alvsSendToHost .ipv4Error
    else
      packetProcessing (.frame (.read mac.myMac decoded frameLength ip buffers.tail))

/-! ## What is read is what was written -/

/-- The version and the size in one halfword. -/
theorem versionSize_toNat {v : UInt8} {s : UInt16} (hv : v.toNat < 16) (hs : s.toNat < 2 ^ 12) :
    (v.toUInt16 <<< 12 &&& FrameData.versionMask ||| s &&& FrameData.sizeMask).toNat =
      2 ^ 12 * v.toNat + s.toNat := by
  have hversion : ∀ n < 16, n <<< 12 % 65536 &&& 0xf000 = 2 ^ 12 * n := by decide
  have hsize : s.toNat &&& 0xfff = s.toNat :=
    (Nat.and_two_pow_sub_one_eq_mod s.toNat 12).trans (Nat.mod_eq_of_lt hs)
  rw [UInt16.toNat_or, UInt16.toNat_and, UInt16.toNat_and, UInt16.toNat_shiftLeft,
    UInt8.toNat_toUInt16]
  change v.toNat <<< 12 % 65536 &&& 0xf000 ||| s.toNat &&& 0xfff = _
  rw [hversion _ hv, hsize, Nat.two_pow_add_eq_or_of_lt hs]

section Fields

/-- A number of `n` bytes is read as it was written. -/
theorem ofNat_value8 (x : UInt8) : UInt8.ofNat (value [x]) = x := by simp [value]

theorem ofNat_value16 (x : UInt16) : UInt16.ofNat (value (bigEndian 2 x.toNat)) = x := by
  rw [value_bigEndian x.toNat_lt, UInt16.ofNat_toNat]

theorem ofNat_value32 (x : UInt32) : UInt32.ofNat (value (bigEndian 4 x.toNat)) = x := by
  rw [value_bigEndian x.toNat_lt, UInt32.ofNat_toNat]

end Fields

/-- The fields of a record are where they were written. -/
theorem StateSyncConn.field_bytes (r : StateSyncConn) :
    field r.bytes 0 1 = value [r.type] ∧ field r.bytes 1 1 = value [r.protocol] ∧
      field r.bytes 2 2 = value (bigEndian 2 (r.version.toUInt16 <<< 12 &&&
        FrameData.versionMask ||| r.size &&& FrameData.sizeMask).toNat) ∧
      field r.bytes 4 4 = value (bigEndian 4 r.flags.toNat) ∧
      field r.bytes 8 2 = value (bigEndian 2 r.state.toNat) ∧
      field r.bytes 10 2 = value (bigEndian 2 r.clientPort.toNat) ∧
      field r.bytes 12 2 = value (bigEndian 2 r.virtualPort.toNat) ∧
      field r.bytes 14 2 = value (bigEndian 2 r.serverPort.toNat) ∧
      field r.bytes 16 4 = value (bigEndian 4 r.fwmark.toNat) ∧
      field r.bytes 20 4 = value (bigEndian 4 r.timeout.toNat) ∧
      field r.bytes 24 4 = value (bigEndian 4 r.clientAddr.toNat) ∧
      field r.bytes 28 4 = value (bigEndian 4 r.virtualAddr.toNat) ∧
      field r.bytes 32 4 = value (bigEndian 4 r.serverAddr.toNat) := by
  unfold StateSyncConn.bytes
  refine ⟨?_, ?_, ?_, ?_, ?_, ?_, ?_, ?_, ?_, ?_, ?_, ?_, ?_⟩
  all_goals
    simp (disch := simp only [length_bigEndian, List.length_append, List.length_cons,
      List.length_nil]; first | done | omega) only [field_append_left, field_append_of_le,
      field_self, length_bigEndian, List.length_append, List.length_cons, List.length_nil,
      Nat.reduceAdd, Nat.reduceSub]

theorem StateSyncConn.read_bytes {r : StateSyncConn} (hv : r.version.toNat < 16)
    (hs : r.size.toNat < 2 ^ 12) : StateSyncConn.read r.bytes = r := by
  obtain ⟨h₀, h₁, h₂, h₃, h₄, h₅, h₆, h₇, h₈, h₉, h₁₀, h₁₁, h₁₂⟩ := r.field_bytes
  rw [value_bigEndian (UInt16.toNat_lt _), versionSize_toNat hv hs] at h₂
  have hversion : UInt8.ofNat (field r.bytes 2 2 / 2 ^ 12) = r.version := by
    rw [h₂, Nat.mul_add_div (by decide), Nat.div_eq_of_lt hs, Nat.add_zero, UInt8.ofNat_toNat]
  have hsize : UInt16.ofNat (field r.bytes 2 2 % 2 ^ 12) = r.size := by
    rw [h₂, Nat.mul_add_mod, Nat.mod_eq_of_lt hs, UInt16.ofNat_toNat]
  rw [read, hversion, hsize, h₀, h₁, h₃, h₄, h₅, h₆, h₇, h₈, h₉, h₁₀, h₁₁, h₁₂]
  simp only [ofNat_value8, ofNat_value16, ofNat_value32]

/-- The records are read one after the other, wherever a buffer ends. -/
theorem readConns_eq : ∀ {conns : List StateSyncConn} {buffer : List UInt8}
    {rest : List (List UInt8)},
    (∀ r ∈ conns, r.version.toNat < 16 ∧ r.size.toNat < 2 ^ 12) →
    buffer ++ rest.flatten = conns.flatMap StateSyncConn.bytes →
    readConns conns.length buffer rest = conns
  | [], _, _, _, _ => rfl
  | r :: conns, buffer, rest, hr, h => by
    rw [List.flatMap_cons] at h
    have hlen : 36 ≤ ([] ++ buffer ++ rest.flatten).length := by simp [h]
    obtain ⟨buffer', rest', hcut, hrest⟩ := cutBytes_eq_some (Nat.zero_le 36) hlen
    rw [List.nil_append, h] at hcut hrest
    rw [List.take_left' r.length_bytes] at hcut
    rw [List.drop_left' r.length_bytes] at hrest
    obtain ⟨⟨hv, hs⟩, hconns⟩ := List.forall_mem_cons.mp hr
    change readConns (conns.length + 1) buffer rest = _
    rw [readConns]
    change (match cutBytes 36 [] buffer rest with
      | none => []
      | some (bs, buffer, rest) => StateSyncConn.read bs :: readConns conns.length buffer rest) = _
    rw [hcut]
    simp only
    rw [StateSyncConn.read_bytes hv hs, readConns_eq hconns hrest]

theorem StateSyncHeader.read_syncHdrBytes (res id n : UInt8) (size : Nat) (bs : List UInt8) :
    StateSyncHeader.read (syncHdrBytes res id size n ++ bs) =
      ⟨res, id, n, alvsStateSyncProtoVer, 0⟩ := by
  rw [read]
  congr 1
  · exact ofNat_value8 res
  · exact ofNat_value8 id
  · exact ofNat_value8 n

/-- The message that is read has the header and the records that were written. -/
theorem SyncMessage.read_eq {conns : List StateSyncConn} {buffer : List UInt8}
    {rest : List (List UInt8)} {res id n : UInt8} {size : Nat}
    (hconns : ∀ r ∈ conns, r.version.toNat < 16 ∧ r.size.toNat < 2 ^ 12)
    (hn : n.toNat = conns.length)
    (h : buffer ++ rest.flatten =
      syncHdrBytes res id size n ++ conns.flatMap StateSyncConn.bytes) :
    SyncMessage.read buffer rest = ⟨some ⟨res, id, n, alvsStateSyncProtoVer, 0⟩, conns⟩ := by
  have hlen : (syncHdrBytes res id size n).length = 8 := length_syncHdrBytes _ _ _ _
  have hsize : 8 ≤ ([] ++ buffer ++ rest.flatten).length := by simp [h]
  obtain ⟨buffer', rest', hcut, hrest⟩ := cutBytes_eq_some (Nat.zero_le 8) hsize
  rw [List.nil_append, h] at hcut hrest
  rw [List.take_left' hlen] at hcut
  rw [List.drop_left' hlen] at hrest
  have hhdr := StateSyncHeader.read_syncHdrBytes res id n size []
  rw [List.append_nil] at hhdr
  rw [read]
  change (match cutBytes 8 [] buffer rest with
    | none => (⟨none, []⟩ : SyncMessage)
    | some (bs, buffer, rest) => ⟨some (.read bs),
        readConns (StateSyncHeader.read bs).connCount.toNat buffer rest⟩) = _
  rw [hcut]
  simp only
  rw [hhdr, hn, readConns_eq hconns hrest]

/-! ## Receiving a sync frame -/

/-- The sync message of a frame from a master. -/
def syncMessage (res id n : UInt8) (conns : List StateSyncConn) : SyncMessage :=
  ⟨some ⟨res, id, n, alvsStateSyncProtoVer, 0⟩, conns⟩

/-- The fields of the IPv4 header of a sync frame. -/
theorem field_ipHdrBytes (t c : Nat) (ip : UInt32) :
    field (ipHdrBytes t c ip) 0 1 = 0x45 ∧ field (ipHdrBytes t c ip) 2 2 = value (bigEndian 2 t) ∧
      field (ipHdrBytes t c ip) 9 1 = 17 ∧
      field (ipHdrBytes t c ip) 12 4 = value (bigEndian 4 ip.toNat) ∧
      field (ipHdrBytes t c ip) 16 4 = alvsStateSyncDstIp := ⟨rfl, rfl, rfl, rfl, rfl⟩

section Receive

variable {ez : Ezdp} {eth buffer : List UInt8} {rest : List (List UInt8)} {check : Nat}
  {ip : UInt32} {res id n : UInt8} {conns : List StateSyncConn}

/-- The headers are in the first buffer. -/
theorem Frame.read_eq (myMac : Bool) (len : Nat) (hbuffer : 28 ≤ buffer.length)
    (hconns : ∀ r ∈ conns, r.version.toNat < 16 ∧ r.size.toNat < 2 ^ 12)
    (hn : n.toNat = conns.length)
    (h : buffer ++ rest.flatten = ipHdrBytes (totLenOf n) check ip ++ (udpHdrBytes (udpLenOf n) ++
      (syncHdrBytes res id (syncSizeOf n) n ++ conns.flatMap StateSyncConn.bytes))) :
    Frame.read myMac ⟨false, false, true⟩ len buffer rest =
      ⟨.ofNat len, myMac, ⟨ip, .ofNat alvsStateSyncDstIp, ipprotoUdp⟩,
        .udp udpDest (syncMessage res id n conns)⟩ := by
  obtain ⟨hip, hudp⟩ := split_of_append h (length_ipHdrBytes _ _ _) (by omega)
  obtain ⟨hport, hsync⟩ := split_of_append hudp (length_udpHdrBytes _)
    (by rw [List.length_drop]; omega)
  obtain ⟨hv, -, hproto, hsaddr, hdaddr⟩ := field_ipHdrBytes (totLenOf n) check ip
  have hfield : ∀ off k, off + k ≤ 20 →
      field buffer off k = field (ipHdrBytes (totLenOf n) check ip) off k := fun off k hle => by
    rw [← hip, field_take hle]
  have hdest : field (buffer.drop 20) 2 2 = 8848 := by
    rw [← field_take (k := 8) (by omega), hport]
    rfl
  rw [Frame.read, hfield 0 1 (by omega), hfield 9 1 (by omega), hfield 12 4 (by omega),
    hfield 16 4 (by omega), hv, hproto, hsaddr, hdaddr, ofNat_value32]
  simp only [Bool.false_eq_true, if_false, if_true]
  change Frame.mk _ _ _ (.udp (.ofNat (field (buffer.drop 20) 2 2))
    (.read ((buffer.drop 20).drop 8) rest)) = _
  rw [hdest, SyncMessage.read_eq hconns hn hsync]
  rfl

/-- The frame is decoded as an IPv4 multicast frame that is not for the receiver itself. -/
def MacDecodeResult.ForBackup (r : MacDecodeResult) : Prop :=
  r.decodeError = false ∧ r.myMac = false ∧ r.ipv4Multicast = true ∧ r.ipv4 = true

instance (r : MacDecodeResult) : Decidable r.ForBackup := inferInstanceAs (Decidable (_ ∧ _))

theorem totLenOf_lt (n : UInt8) : totLenOf n ≤ 9216 := by
  have hn := n.toNat_lt
  unfold totLenOf udpLenOf
  omega

/-- The bytes of a sync frame, cut into buffers of which the first has the headers up to that
of UDP. -/
structure SyncFrameBytes (ez : Ezdp) (eth : List UInt8) (ip : UInt32) (res id n : UInt8)
    (conns : List StateSyncConn) (buffer : List UInt8) (rest : List (List UInt8)) : Prop where
  ethLen : eth.length = 14
  headers : 42 ≤ buffer.length
  records : ∀ r ∈ conns, r.version.toNat < 16 ∧ r.size.toNat < 2 ^ 12
  count : n.toNat = conns.length
  bytes : ∃ check, ChecksumOk ez.ipv4Checksum check n ip ∧
    (buffer :: rest).flatten =
      headerBytes eth check ip res id n ++ conns.flatMap StateSyncConn.bytes

namespace SyncFrameBytes

variable (hb : SyncFrameBytes ez eth ip res id n conns buffer rest)
include hb

/-- What follows the Ethernet header. -/
theorem network : ∃ check, ChecksumOk ez.ipv4Checksum check n ip ∧
    buffer.drop 14 ++ rest.flatten = ipHdrBytes (totLenOf n) check ip ++
      (udpHdrBytes (udpLenOf n) ++
        (syncHdrBytes res id (syncSizeOf n) n ++ conns.flatMap StateSyncConn.bytes)) := by
  obtain ⟨check, hcheck, h⟩ := hb.bytes
  have hlen := hb.headers
  refine ⟨check, hcheck, ?_⟩
  rw [List.flatten_cons, headerBytes] at h
  simp only [List.append_assoc] at h
  exact (split_of_append h hb.ethLen (by omega)).2

/-- The frame is as long as its IPv4 header says. -/
theorem totLen_le : totLenOf n ≤ (buffer :: rest).flatten.length := by
  obtain ⟨check, -, h⟩ := hb.bytes
  have hconns : (conns.flatMap StateSyncConn.bytes).length = 36 * conns.length := by
    simp [List.length_flatMap, Nat.mul_comm]
  have hcount := hb.count
  rw [h, List.length_append, hconns, headerBytes, List.length_append, List.length_append,
    List.length_append, hb.ethLen, length_ipHdrBytes, length_udpHdrBytes, length_syncHdrBytes]
  unfold totLenOf udpLenOf
  omega

/-- The IPv4 header is decoded without an error. -/
theorem decodeIpv4 (hez : ez.Documented) :
    ez.decodeIpv4 ((buffer.drop 14).take sizeofIphdr) (buffer :: rest).flatten.length =
      ⟨false, false, true⟩ := by
  obtain ⟨check, ⟨c, rfl⟩, h⟩ := hb.network
  have hlen := hb.headers
  have hframe := hb.totLen_le
  obtain ⟨hip, -⟩ := split_of_append h (length_ipHdrBytes _ _ _) (by rw [List.length_drop]; omega)
  obtain ⟨hv, htotLen, hproto, -⟩ := field_ipHdrBytes (totLenOf n)
    (ez.ipv4Checksum (ipHdrBytes (totLenOf n) c ip)).toNat ip
  rw [value_bigEndian (Nat.lt_of_le_of_lt (totLenOf_lt n) (Nat.le_of_ble_eq_true rfl))] at htotLen
  have hshort : 20 ≤ totLenOf n := Nat.le_add_right _ _
  have hcheck := hez.checksum (ipHdrBytes (totLenOf n) c ip) (length_ipHdrBytes _ _ _)
  rw [sizeofIphdr, hip, hez.ipv4 _ _ (length_ipHdrBytes _ _ _) hv (by rw [htotLen]; exact hshort)
    (by rw [htotLen]; exact hframe) hcheck, hproto]
  rfl

/-- The Ethernet header of a frame that is decoded as IPv4 has no tags : where a tag would
be followed by a type, there is the length of the IPv4 packet. -/
theorem layer2Size (hez : ez.Documented) (herr : (ez.decodeMac buffer).decodeError = false)
    (hipv4 : (ez.decodeMac buffer).ipv4 = true) : (ez.decodeMac buffer).layer2Size = 14 := by
  obtain ⟨check, -, h⟩ := hb.network
  have hlen := hb.headers
  have htot := totLenOf_lt n
  obtain ⟨hip, -⟩ := split_of_append h (length_ipHdrBytes _ _ _) (by rw [List.length_drop]; omega)
  have htype : field buffer 16 2 = totLenOf n := by
    have hdrop : buffer = buffer.take 14 ++ buffer.drop 14 := (List.take_append_drop 14 buffer).symm
    have htake : (buffer.take 14).length = 14 := by
      rw [List.length_take]
      omega
    have htot' : totLenOf n < 256 ^ 2 := Nat.lt_of_le_of_lt htot (Nat.le_of_ble_eq_true rfl)
    rw [hdrop, field_append htake 2 2, ← field_take (show 2 + 2 ≤ 20 by decide), hip,
      (field_ipHdrBytes _ _ _).2.1, value_bigEndian htot']
  have hmod : totLenOf n % 36 = 0 := by
    unfold totLenOf udpLenOf
    omega
  obtain ⟨k, hsize, hip, htags⟩ := hez.layer2 buffer herr hipv4
  obtain _ | _ | k := k
  · exact hsize
  · rw [htype, ethertypeIp] at hip
    omega
  · have htag := htags 1 (by omega)
    rw [htype] at htag
    simp only [vlanTypes, List.mem_cons, List.not_mem_nil, or_false] at htag
    omega

/-- A sync frame is processed with the header and the records that were written. -/
theorem nwRecieve_eq (hez : ez.Documented) (hmac : (ez.decodeMac buffer).ForBackup) :
    nwRecieveAndParseFrame ez (buffer :: rest) = packetProcessing (.frame
      ⟨.ofNat (buffer :: rest).flatten.length, false, ⟨ip, .ofNat alvsStateSyncDstIp, ipprotoUdp⟩,
        .udp udpDest (syncMessage res id n conns)⟩) := by
  obtain ⟨herr, hmine, hmulti, hipv4⟩ := hmac
  obtain ⟨check, -, h⟩ := hb.network
  have hlen := hb.headers
  have hread := Frame.read_eq false (buffer :: rest).flatten.length
    (by rw [List.length_drop]; omega) hb.records hb.count h
  simp only [nwRecieveAndParseFrame, List.headD_cons, List.tail_cons, herr, hmine, hmulti, hipv4,
    hb.layer2Size hez herr hipv4, hb.decodeIpv4 hez, hread, Bool.false_eq_true, Bool.true_eq_false,
    and_false, if_false]

/-- A frame that is not decoded so is counted and sent to the host. -/
theorem nwRecieve_host (hez : ez.Documented) (hmac : ¬ (ez.decodeMac buffer).ForBackup) (m : Cmem) :
    ∃ counter k, (nwRecieveAndParseFrame ez (buffer :: rest)).run m =
      .call (.nwInterfaceIncCounter counter) k := by
  obtain ⟨check, -, h⟩ := hb.network
  have hlen := hb.headers
  rw [nwRecieveAndParseFrame, List.headD_cons]
  split_ifs with herr hmine hipv4
  · exact ⟨_, _, rfl⟩
  · exact ⟨_, _, rfl⟩
  · exact ⟨_, _, rfl⟩
  · simp only [Bool.not_eq_true, Bool.not_eq_false] at herr hipv4
    have hread := Frame.read_eq (ez.decodeMac buffer).myMac (buffer :: rest).flatten.length
      (by rw [List.length_drop]; omega) hb.records hb.count h
    have hmy : (ez.decodeMac buffer).myMac = true := by
      by_contra hmy
      rw [Bool.not_eq_true] at hmy
      refine hmac ⟨herr, hmy, ?_, hipv4⟩
      by_contra hmulti
      exact hmine ⟨hmy, Bool.eq_false_of_not_eq_true hmulti⟩
    rw [hmy] at hread
    simp only [List.tail_cons, hb.layer2Size hez herr hipv4, hb.decodeIpv4 hez, hmy, hread,
      Bool.false_eq_true, if_false]
    exact ⟨_, _, rfl⟩

end SyncFrameBytes

end Receive

end Alvs
