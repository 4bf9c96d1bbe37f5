import Alvs.Dp.SyncBuffers

/-!
# The lengths of a received sync frame

`nw_recieve_and_parse_frame`, `alvs_packet_processing` and `alvs_state_sync_backup` once more,
with what becomes of `buflen`. Every byte of a frame is read with its place in the frame. A
run stops at its first fault (`LengthFault`) : a length is reduced by more than it is,
a header or a record is read beyond the data of the current buffer, or a record is decoded
from bytes that are not in the UDP payload. What the lookup of the application info gives and
what `alvs_state_sync_process_conn` returns for each record are inputs.

The code compares `buflen` with the size of a sync header and of a record, but not with the
sizes of the headers before, and it does not read the length of the UDP payload.
`receiveLengths_safe_iff` : a frame that is passed on is received without a fault exactly if
its headers are in the first buffer and the records that are decoded end in the payload
(`LengthsAgree`). The records then are the first ones of `payloadRecords`
(`processRecordLengths_prefix`).
-/

namespace Alvs

open ProgLogic

/-! ## Checked steps -/

/-- A byte of a frame with its place. -/
abbrev FrameByte := UInt8 × Nat

def values (bs : List FrameByte) : List UInt8 := bs.map Prod.fst

inductive LengthFault
  | underflow
  | beyondBuffer
  | outsidePayload
  deriving DecidableEq

abbrev Checked := Except LengthFault

/-- `buflen -= n`. -/
def subLen (buflen : UInt32) (n : Nat) : Checked UInt32 :=
  if n ≤ buflen.toNat then .ok (buflen - .ofNat n) else .error .underflow

/-- Read `n` bytes at a pointer, behind which there are the bytes `buffer` of data. -/
def readData (buffer : List FrameByte) (n : Nat) : Checked (List FrameByte) :=
  if n ≤ buffer.length then .ok (buffer.take n) else .error .beyondBuffer

/-- The places from `start` on before `stop`. -/
structure PlaceRange where
  start : Nat
  stop : Nat

def PlaceRange.Holds (range : PlaceRange) (bs : List FrameByte) : Prop :=
  ∀ b ∈ bs, range.start ≤ b.2 ∧ b.2 < range.stop

instance (range : PlaceRange) (bs : List FrameByte) : Decidable (range.Holds bs) :=
  inferInstanceAs (Decidable (∀ b ∈ bs, _))

/-- Decode a record from these bytes. -/
def decodeConn (payload : PlaceRange) (conn : List FrameByte) : Checked Unit :=
  if payload.Holds conn then .ok () else .error .outsidePayload

/-! ## The reader -/

/-- The data at the pointer `buffer`, the length that the code has of it, and the first
`tail_len` bytes of `tail`. -/
structure LengthReader where
  buffer : List FrameByte
  buflen : UInt32
  tail : List FrameByte
  tailLen : UInt8

namespace LengthReader

/-- `while (buflen + tail_len < size)`, with the buffers that follow. -/
def load (size : Nat) : List (List FrameByte) → LengthReader →
    Checked (Option (LengthReader × List (List FrameByte)))
  | rest, r =>
    if r.buflen + r.tailLen.toUInt32 < .ofNat size then
      match rest with
      | [] => .ok none
      | next :: rest => do
        let bs ← readData r.buffer r.buflen.toNat
        load size rest
          { buffer := next
            buflen := .ofNat next.length
            tail := r.tail ++ bs
            tailLen := r.tailLen + r.buflen.toUInt8 }
    else .ok (some (r, rest))

/-- The bytes of a header or a record, in `tail` if a part of them is there. -/
def take (size : Nat) (r : LengthReader) : Checked (List FrameByte × LengthReader) := do
  let n ← subLen (.ofNat size) r.tailLen.toNat
  let bs ← readData r.buffer n.toNat
  let buflen ← subLen r.buflen n.toNat
  return (if 0 < r.tailLen then r.tail ++ bs else bs,
    { r with buffer := r.buffer.drop n.toNat, buflen := buflen })

end LengthReader

/-! ## The functions -/

/-- The loop over the records, with the records that are decoded. -/
def processRecordLengths (payload : PlaceRange) (rc : Nat → Int) : (connCount ind : Nat) →
    List (List FrameByte) → LengthReader → Checked (List (List FrameByte))
  | 0, _, _, _ => .ok []
  | connCount + 1, ind, rest, r => do
    match ← { r with tail := [], tailLen := 0 }.load sizeofStateSyncConn.toNat rest with
    | none => .ok []
    | some (r, rest) =>
      let (conn, r) ← r.take sizeofStateSyncConn.toNat
      decodeConn payload conn
      if rc ind < 0 then .ok [conn]
      else
        let conns ← processRecordLengths payload rc connCount (ind + 1) rest r
        .ok (conn :: conns)

/-- `alvs_state_sync_backup`. -/
def alvsStateSyncBackupLengths (app : Option AppInfoResult) (rc : Nat → Int)
    (payload : PlaceRange) (buffer : List FrameByte) (buflen : UInt32)
    (rest : List (List FrameByte)) : Checked (List (List FrameByte)) :=
  match app with
  | none => .ok []
  | some app =>
    if app.backupBit = false then .ok []
    else do
      match ← (LengthReader.mk buffer buflen [] 0).load sizeofStateSyncHeader.toNat rest with
      | none => .ok []
      | some (r, rest) =>
        let (bs, r) ← r.take sizeofStateSyncHeader.toNat
        let hdr := StateSyncHeader.read (values bs)
        if app.bSyncId ≠ 0 ∧ hdr.syncid ≠ app.bSyncId then .ok []
        else if hdr.version = alvsStateSyncProtoVer ∧ hdr.reserved = 0 ∧ hdr.spare = 0 then
          processRecordLengths payload rc hdr.connCount.toNat 0 rest r
        else .ok []

/-- `alvs_packet_processing` of an IPv4 header at `ip`. `alvs_tcp_processing` is given no
length. The destination port is in the first four bytes of the UDP header. -/
def alvsPacketProcessingLengths (app : Option AppInfoResult) (rc : Nat → Int)
    (payload : PlaceRange) (decoded : Ipv4DecodeResult) (myMac : Bool) (ip : List FrameByte)
    (buflen : UInt32) (rest : List (List FrameByte)) : Checked (List (List FrameByte)) :=
  if decoded.tcp then .ok []
  else if decoded.udp then
    if myMac then .ok []
    else do
      let ihl := field (values ip) 0 1 % 16
      let udpHdr := ip.drop (ihl * 4)
      let hdr ← readData udpHdr 4
      if .ofNat (field (values hdr) 2 2) = udpDest then
        let buflen ← subLen buflen (ihl * 4 + sizeofUdphdr)
        alvsStateSyncBackupLengths app rc payload (udpHdr.drop sizeofUdphdr) buflen rest
      else .ok []
  else .ok []

/-- The buffers of a frame that is received. -/
structure ReceivedFrame where
  first : List UInt8
  rest : List (List UInt8)
  first_fits : first.length ≤ ezframeBufDataSize
  rest_fits : ∀ b ∈ rest, b.length ≤ ezframeBufDataSize

/-- The bytes of the buffers with their places, the first of which is `place`. -/
def placed : Nat → List (List UInt8) → List (List FrameByte)
  | _, [] => []
  | place, b :: bs => b.zipIdx place :: placed (place + b.length) bs

/-- Where the UDP payload of a frame is, by the lengths in the IPv4 and the UDP header. -/
def udpPayload (bytes : List UInt8) (layer2Size : Nat) : PlaceRange :=
  let ip := bytes.drop layer2Size
  let ihl := field ip 0 1 % 16 * 4
  { start := layer2Size + ihl + sizeofUdphdr
    stop := layer2Size + min (field ip 2 2) (ihl + field (ip.drop ihl) 4 2) }

namespace ReceivedFrame

variable (ez : Ezdp) (frame : ReceivedFrame)

def bytes : List UInt8 := frame.first ++ frame.rest.flatten

def layer2Size : Nat := (ez.decodeMac frame.first).layer2Size

def payload : PlaceRange := udpPayload frame.bytes (frame.layer2Size ez)

def decodeIpv4 : Ipv4DecodeResult :=
  ez.decodeIpv4 ((frame.first.drop (frame.layer2Size ez)).take sizeofIphdr) frame.bytes.length

end ReceivedFrame

/-- The bytes that `ezdp_decode_mac` may read. -/
def maxDecodeSize : Nat := 28

/-- `nw_recieve_and_parse_frame` of a valid frame from the network, with the records that
are decoded. -/
def nwRecieveAndParseFrameLengths (ez : Ezdp) (app : Option AppInfoResult) (rc : Nat → Int)
    (frame : ReceivedFrame) : Checked (List (List FrameByte)) := do
  let frameBase := frame.first.zipIdx
  let buflen := UInt32.ofNat frame.first.length
  let _ ← readData frameBase maxDecodeSize
  let mac := ez.decodeMac frame.first
  if mac.decodeError then .ok []
  else if mac.myMac = false ∧ mac.ipv4Multicast = false then .ok []
  else if mac.ipv4 = false then .ok []
  else
    let ip := frameBase.drop mac.layer2Size
    let buflen ← subLen buflen mac.layer2Size
    let hdr ← readData ip sizeofIphdr
    let decoded := ez.decodeIpv4 (values hdr) frame.bytes.length
    if decoded.decodeError then .ok []
    else
      alvsPacketProcessingLengths app rc (frame.payload ez) decoded mac.myMac ip buflen
        (placed frame.first.length frame.rest)

/-! ## Reading a header or a record -/

theorem subLen_ok {buflen : UInt32} {n : Nat} (h : n ≤ buflen.toNat) :
    subLen buflen n = .ok (buflen - .ofNat n) := if_pos h

theorem readData_ok {buffer : List FrameByte} {n : Nat} (h : n ≤ buffer.length) :
    readData buffer n = .ok (buffer.take n) := if_pos h

theorem toNat_ofNat_of_lt {n : Nat} (h : n < 2 ^ 32) : (UInt32.ofNat n).toNat = n :=
  UInt32.toNat_ofNat_of_lt' h

theorem toNat_sub_ofNat {buflen : UInt32} {n : Nat} (h : n ≤ buflen.toNat) :
    (buflen - .ofNat n).toNat = buflen.toNat - n := by
  have hlt := buflen.toNat_lt
  have hn : (UInt32.ofNat n).toNat = n := toNat_ofNat_of_lt (by omega)
  rw [UInt32.toNat_sub_of_le _ _ (by rw [UInt32.le_iff_toNat_le]; omega), hn]

/-- The buffers are no larger than what a buffer holds. -/
def BuffersFit (rest : List (List FrameByte)) : Prop := ∀ b ∈ rest, b.length ≤ ezframeBufDataSize

namespace LengthReader

/-- The lengths of a reader are right. -/
structure Good (r : LengthReader) : Prop where
  buflen : r.buflen.toNat = r.buffer.length
  tailLen : r.tailLen.toNat = r.tail.length
  fits : r.buffer.length ≤ ezframeBufDataSize

variable {size : Nat}

theorem Good.lt_iff {r : LengthReader} (hr : r.Good) (hsize : size < 256) :
    r.buflen + r.tailLen.toUInt32 < .ofNat size ↔ r.tail.length + r.buffer.length < size := by
  have hfits : r.buffer.length ≤ 256 := hr.fits
  have htail := r.tailLen.toNat_lt
  have hs : (UInt32.ofNat size).toNat = size := toNat_ofNat_of_lt (by omega)
  rw [UInt32.lt_iff_toNat_lt, UInt32.toNat_add, UInt8.toNat_toUInt32, hs, hr.buflen, hr.tailLen,
    Nat.mod_eq_of_lt (by rw [← hr.tailLen]; omega), Nat.add_comm]

/-- The loop ends with the buffers used up, or with the bytes of the header or the record in
`tail` and the current buffer. -/
theorem load_cases (hsize : size < 256) : ∀ {rest : List (List FrameByte)} {r : LengthReader},
    r.Good → BuffersFit rest → r.tail.length ≤ size →
    ((r.tail ++ r.buffer ++ rest.flatten).length < size ∧ r.load size rest = .ok none) ∨
    ∃ r' rest', r.load size rest = .ok (some (r', rest')) ∧ r'.Good ∧ BuffersFit rest' ∧
      r'.tail ++ r'.buffer ++ rest'.flatten = r.tail ++ r.buffer ++ rest.flatten ∧
      r'.tail.length ≤ size ∧ size ≤ r'.tail.length + r'.buffer.length
  | rest, r, hr, hrest, htail => by
    by_cases hlt : r.tail.length + r.buffer.length < size
    · have hcond := (hr.lt_iff hsize).mpr hlt
      cases rest with
      | nil =>
        left
        refine ⟨by simpa using hlt, ?_⟩
        rw [load, if_pos hcond]
      | cons next rest =>
        obtain ⟨hnext, hrest'⟩ := List.forall_mem_cons.mp hrest
        have hnext256 : next.length ≤ 256 := hnext
        have hread : readData r.buffer r.buflen.toNat = .ok r.buffer := by
          rw [hr.buflen, readData_ok le_rfl, List.take_length]
        have hgood : LengthReader.Good ⟨next, .ofNat next.length, r.tail ++ r.buffer,
            r.tailLen + r.buflen.toUInt8⟩ := by
          refine ⟨toNat_ofNat_of_lt (by omega), ?_, hnext⟩
          have hbuflen := hr.buflen
          have htailLen := hr.tailLen
          rw [UInt8.toNat_add, UInt32.toNat_toUInt8, List.length_append, hbuflen, htailLen,
            Nat.mod_eq_of_lt (by omega : r.buffer.length < 2 ^ 8), Nat.mod_eq_of_lt (by omega)]
        have hstep : r.load size (next :: rest) = load size rest ⟨next, .ofNat next.length,
            r.tail ++ r.buffer, r.tailLen + r.buflen.toUInt8⟩ := by
          rw [load, if_pos hcond, hread]
          rfl
        have htail' : (r.tail ++ r.buffer).length ≤ size := by
          rw [List.length_append]
          omega
        have hall : r.tail ++ r.buffer ++ (next :: rest).flatten =
            r.tail ++ r.buffer ++ next ++ rest.flatten := by
          rw [List.flatten_cons, List.append_assoc, List.append_assoc, List.append_assoc]
        rw [hstep, hall]
        exact load_cases hsize hgood hrest' htail'
    · right
      refine ⟨r, rest, ?_, hr, hrest, rfl, htail, by omega⟩
      have hcond := fun h => hlt ((hr.lt_iff hsize).mp h)
      cases rest with
      | nil => rw [load, if_neg hcond]
      | cons next rest => rw [load, if_neg hcond]

theorem take_ok (hsize : size < 256) {r : LengthReader} (hr : r.Good)
    (htail : r.tail.length ≤ size) (hle : size ≤ r.tail.length + r.buffer.length) :
    ∃ r', r.take size = .ok ((r.tail ++ r.buffer).take size, r') ∧ r'.Good ∧
      r'.buffer = (r.tail ++ r.buffer).drop size := by
  have hbuflen := hr.buflen
  have htailLen := hr.tailLen
  have hfits : r.buffer.length ≤ 256 := hr.fits
  have hs : (UInt32.ofNat size).toNat = size := toNat_ofNat_of_lt (by omega)
  have hsub : r.tailLen.toNat ≤ (UInt32.ofNat size).toNat := by omega
  have hn : (UInt32.ofNat size - .ofNat r.tailLen.toNat).toNat = size - r.tail.length := by
    rw [toNat_sub_ofNat hsub, hs, htailLen]
  refine ⟨{ r with
    buffer := r.buffer.drop (size - r.tail.length)
    buflen := r.buflen - .ofNat (size - r.tail.length) }, ?_, ⟨?_, hr.tailLen, ?_⟩, ?_⟩
  · rw [take, subLen_ok hsub]
    simp only [bind, Except.bind, pure, Except.pure, hn]
    rw [readData_ok (by omega), subLen_ok (by omega)]
    simp only
    have hbytes : (if 0 < r.tailLen then r.tail ++ r.buffer.take (size - r.tail.length)
        else r.buffer.take (size - r.tail.length)) = (r.tail ++ r.buffer).take size := by
      rw [List.take_append, List.take_of_length_le htail]
      split
      next => rfl
      next hzero =>
        rw [UInt8.lt_iff_toNat_lt, htailLen, UInt8.toNat_zero, Nat.not_lt] at hzero
        rw [List.length_eq_zero_iff.mp (Nat.le_zero.mp hzero)]
        rfl
    rw [hbytes]
  · simp only [List.length_drop]
    rw [toNat_sub_ofNat (by omega), hbuflen]
  · simp only [List.length_drop]
    exact (Nat.sub_le _ _).trans hr.fits
  · rw [List.drop_append, List.drop_of_length_le htail, List.nil_append]

/-- A header or a record is read from the bytes of the buffers together. -/
theorem load_take (hsize : size < 256) {r : LengthReader} (hr : r.Good) (htail : r.tail = [])
    {rest : List (List FrameByte)} (hrest : BuffersFit rest) :
    ((r.buffer ++ rest.flatten).length < size ∧ r.load size rest = .ok none) ∨
    ∃ r₁ rest' r', size ≤ (r.buffer ++ rest.flatten).length ∧
      r.load size rest = .ok (some (r₁, rest')) ∧
      r₁.take size = .ok ((r.buffer ++ rest.flatten).take size, r') ∧ r'.Good ∧
      BuffersFit rest' ∧ r'.buffer ++ rest'.flatten = (r.buffer ++ rest.flatten).drop size := by
  have hcases := load_cases hsize hr hrest (by rw [htail]; exact Nat.zero_le size)
  rw [htail, List.nil_append] at hcases
  refine hcases.imp_right ?_
  rintro ⟨r₁, rest', hload, hr₁, hrest', hall, htail₁, hle⟩
  obtain ⟨r', htake, hr', hbuffer⟩ := take_ok hsize hr₁ htail₁ hle
  have hlen : size ≤ (r₁.tail ++ r₁.buffer).length := by
    rw [List.length_append]
    exact hle
  refine ⟨r₁, rest', r', ?_, hload, ?_, hr', hrest', ?_⟩
  · rw [← hall, List.length_append]
    omega
  · rw [htake, ← hall, List.take_append_of_le_length hlen]
  · rw [hbuffer, ← hall, List.drop_append_of_le_length hlen]

end LengthReader

/-! ## The records -/

/-- The run comes to its end. -/
def Faultless {α : Type} (run : Checked α) : Prop := ∃ a, run = .ok a

section Records

variable (payload : PlaceRange) (rc : Nat → Int)

/-- One round of the loop over the records. -/
theorem processRecordLengths_succ (n ind : Nat) {rest : List (List FrameByte)} {r : LengthReader}
    (hr : r.Good) (hrest : BuffersFit rest) :
    ((r.buffer ++ rest.flatten).length < 36 ∧
      processRecordLengths payload rc (n + 1) ind rest r = .ok []) ∨
    ∃ rest' r', 36 ≤ (r.buffer ++ rest.flatten).length ∧ r'.Good ∧ BuffersFit rest' ∧
      r'.buffer ++ rest'.flatten = (r.buffer ++ rest.flatten).drop 36 ∧
      processRecordLengths payload rc (n + 1) ind rest r = (do
        decodeConn payload ((r.buffer ++ rest.flatten).take 36)
        if rc ind < 0 then .ok [(r.buffer ++ rest.flatten).take 36]
        else
          let conns ← processRecordLengths payload rc n (ind + 1) rest' r'
          .ok ((r.buffer ++ rest.flatten).take 36 :: conns)) := by
  have hsize : sizeofStateSyncConn.toNat = 36 := rfl
  have hgood : ({ r with tail := [], tailLen := 0 } : LengthReader).Good :=
    ⟨hr.buflen, rfl, hr.fits⟩
  have h36 : 36 < 256 := by decide
  obtain ⟨hshort, hload⟩ | ⟨r₁, rest', r', hle, hload, htake, hr', hrest', hdrop⟩ :=
    LengthReader.load_take h36 hgood rfl hrest
  · left
    refine ⟨hshort, ?_⟩
    rw [processRecordLengths, hsize, hload]
    rfl
  · right
    refine ⟨rest', r', hle, hr', hrest', hdrop, ?_⟩
    rw [processRecordLengths, hsize, hload]
    simp only [bind, Except.bind]
    rw [htake]

/-- A record has no fault if it is in the payload, and then the records after it unless it is
refused. -/
theorem faultless_record_iff {conn : List FrameByte} {ind : Nat}
    {conns : Checked (List (List FrameByte))} :
    Faultless (do
      decodeConn payload conn
      if rc ind < 0 then .ok [conn]
      else
        let conns ← conns
        .ok (conn :: conns)) ↔ payload.Holds conn ∧ (0 ≤ rc ind → Faultless conns) := by
  by_cases hconn : payload.Holds conn
  · rw [decodeConn, if_pos hconn, and_iff_right hconn]
    change Faultless (if rc ind < 0 then _ else _) ↔ _
    by_cases hrc : rc ind < 0
    · rw [if_pos hrc]
      exact ⟨fun _ hle => absurd hrc (Int.not_lt.mpr hle), fun _ => ⟨_, rfl⟩⟩
    · rw [if_neg hrc]
      cases conns with
      | error e => exact ⟨nofun, fun h => nomatch h (Int.not_lt.mp hrc)⟩
      | ok conns => exact ⟨fun _ _ => ⟨_, rfl⟩, fun _ => ⟨_, rfl⟩⟩
  · rw [decodeConn, if_neg hconn]
    exact ⟨nofun, fun h => absurd h.1 hconn⟩

/-- The loop has no fault exactly if every record it comes to is in the payload. -/
theorem processRecordLengths_faultless_iff : ∀ (n ind : Nat) {rest : List (List FrameByte)}
    {r : LengthReader}, r.Good → BuffersFit rest →
    (Faultless (processRecordLengths payload rc n ind rest r) ↔
      ∀ k < n, (∀ j < k, 0 ≤ rc (ind + j)) → 36 * (k + 1) ≤ (r.buffer ++ rest.flatten).length →
        payload.Holds (((r.buffer ++ rest.flatten).drop (36 * k)).take 36))
  | 0, _, _, _, _, _ => ⟨fun _ k hk => absurd hk (Nat.not_lt_zero k), fun _ => ⟨[], rfl⟩⟩
  | n + 1, ind, rest, r, hr, hrest => by
    obtain ⟨hshort, hrun⟩ | ⟨rest', r', hle, hr', hrest', hdrop, hrun⟩ :=
      processRecordLengths_succ payload rc n ind hr hrest
    · rw [hrun]
      refine ⟨fun _ k _ _ hk => ?_, fun _ => ⟨[], rfl⟩⟩
      omega
    · rw [hrun, faultless_record_iff, processRecordLengths_faultless_iff n (ind + 1) hr' hrest',
        hdrop, Nat.forall_lt_succ_left]
      -- the records after the first one are those of the bytes behind it
      have hprev : ∀ k, (∀ j < k + 1, 0 ≤ rc (ind + j)) ↔
          0 ≤ rc ind ∧ ∀ j < k, 0 ≤ rc (ind + 1 + j) := fun k => by
        rw [Nat.forall_lt_succ_left, Nat.add_zero]
        simp only [Nat.add_assoc, Nat.add_comm 1]
      have hbehind : ∀ k, ((r.buffer ++ rest.flatten).drop 36).drop (36 * k) =
          (r.buffer ++ rest.flatten).drop (36 * (k + 1)) := fun k => by
        rw [List.drop_drop, Nat.mul_succ, Nat.add_comm]
      simp only [hprev, hbehind, List.length_drop]
      constructor
      · rintro ⟨hfirst, h⟩
        exact ⟨fun _ _ => hfirst, fun k hk hrc hlen => h hrc.1 k hk hrc.2 (by omega)⟩
      · rintro ⟨hfirst, h⟩
        exact ⟨hfirst nofun hle, fun hrc k hk hrcs hlen => h k hk ⟨hrc, hrcs⟩ (by omega)⟩

/-- The records that are decoded are the first ones of the bytes behind the header. -/
theorem processRecordLengths_prefix : ∀ (n ind : Nat) {rest : List (List FrameByte)}
    {r : LengthReader}, r.Good → BuffersFit rest → ∀ {conns},
    processRecordLengths payload rc n ind rest r = .ok conns →
    conns.map values <+: payloadRecords n (values (r.buffer ++ rest.flatten))
  | 0, _, _, _, _, _, conns, h => by
    cases h
    exact List.prefix_rfl
  | n + 1, ind, rest, r, hr, hrest, conns, h => by
    obtain ⟨hshort, hrun⟩ | ⟨rest', r', hle, hr', hrest', hdrop, hrun⟩ :=
      processRecordLengths_succ payload rc n ind hr hrest
    · rw [hrun] at h
      cases h
      exact List.nil_prefix
    · have hsize : sizeofStateSyncConn.toNat = 36 := rfl
      have hlen : (values (r.buffer ++ rest.flatten)).length = (r.buffer ++ rest.flatten).length :=
        List.length_map _
      have hrest36 : (values (r.buffer ++ rest.flatten)).drop 36 =
          values (r'.buffer ++ rest'.flatten) := by
        rw [hdrop, values, values, List.map_drop]
      have hconn : values ((r.buffer ++ rest.flatten).take 36) =
          (values (r.buffer ++ rest.flatten)).take 36 := List.map_take
      rw [payloadRecords, hsize, if_neg (by omega), hrest36, ← hconn]
      rw [hrun, decodeConn] at h
      split at h
      next =>
        by_cases hrc : rc ind < 0
        · simp only [bind, Except.bind, if_pos hrc] at h
          cases h
          exact List.cons_prefix_cons.mpr ⟨rfl, List.nil_prefix⟩
        · simp only [bind, Except.bind, if_neg hrc] at h
          split at h
          next => cases h
          next heq =>
            cases h
            exact List.cons_prefix_cons.mpr
              ⟨rfl, processRecordLengths_prefix n (ind + 1) hr' hrest' heq⟩
      next => cases h

end Records

/-! ## Places -/

theorem drop_zipIdx : ∀ (k : Nat) (bs : List UInt8) (place : Nat),
    (bs.zipIdx place).drop k = (bs.drop k).zipIdx (place + k)
  | 0, _, _ => rfl
  | _ + 1, [], _ => rfl
  | k + 1, b :: bs, place => by
    rw [List.zipIdx_cons, List.drop_succ_cons, List.drop_succ_cons, drop_zipIdx k bs,
      Nat.add_assoc, Nat.add_comm 1]

theorem take_zipIdx : ∀ (k : Nat) (bs : List UInt8) (place : Nat),
    (bs.zipIdx place).take k = (bs.take k).zipIdx place
  | 0, _, _ => rfl
  | _ + 1, [], _ => rfl
  | k + 1, b :: bs, place => by
    rw [List.zipIdx_cons, List.take_succ_cons, List.take_succ_cons, List.zipIdx_cons,
      take_zipIdx k bs]

@[simp] theorem values_zipIdx (bs : List UInt8) (place : Nat) : values (bs.zipIdx place) = bs :=
  List.zipIdx_map_fst place bs

/-- A range holds bytes that follow each other if it holds the last of them. -/
theorem PlaceRange.holds_zipIdx_iff {range : PlaceRange} {bs : List UInt8} {place : Nat}
    (hstart : range.start ≤ place) (hpos : 0 < bs.length) :
    range.Holds (bs.zipIdx place) ↔ place + bs.length ≤ range.stop := by
  constructor
  · intro h
    have hlast : (bs[bs.length - 1], place + (bs.length - 1)) ∈ bs.zipIdx place :=
      List.mk_add_mem_zipIdx_iff_getElem?.mpr (List.getElem?_eq_getElem (by omega))
    have := (h _ hlast).2
    omega
  · intro hstop b hb
    obtain ⟨hle, hget⟩ := List.mem_zipIdx_iff_le_and_getElem?_sub.mp hb
    obtain ⟨hlt, -⟩ := List.getElem?_eq_some_iff.mp hget
    omega

theorem flatten_placed : ∀ (place : Nat) (bs : List (List UInt8)),
    (placed place bs).flatten = bs.flatten.zipIdx place
  | _, [] => rfl
  | place, b :: bs => by
    rw [placed, List.flatten_cons, flatten_placed, List.flatten_cons, List.zipIdx_append,
      Nat.add_comm]

theorem placed_fit : ∀ (place : Nat) {bs : List (List UInt8)},
    (∀ b ∈ bs, b.length ≤ ezframeBufDataSize) → BuffersFit (placed place bs)
  | _, [], _ => nofun
  | place, b :: bs, h => by
    obtain ⟨hb, hbs⟩ := List.forall_mem_cons.mp h
    refine List.forall_mem_cons.mpr ⟨?_, placed_fit _ hbs⟩
    rwa [List.length_zipIdx]

/-! ## The sync message -/

/-- The header passes the checks of the code. -/
def SyncHeaderAccepted (app : Option AppInfoResult) (hdr : StateSyncHeader) : Prop :=
  ∃ a, app = some a ∧ a.backupBit = true ∧ (a.bSyncId = 0 ∨ hdr.syncid = a.bSyncId) ∧
    hdr.version = alvsStateSyncProtoVer ∧ hdr.reserved = 0 ∧ hdr.spare = 0

theorem alvsStateSyncBackupLengths_faultless_iff {app : Option AppInfoResult} {rc : Nat → Int}
    {payload : PlaceRange} {buffer : List FrameByte} {buflen : UInt32}
    {rest : List (List FrameByte)} {bs : List UInt8}
    (hr : (LengthReader.mk buffer buflen [] 0).Good) (hrest : BuffersFit rest)
    (hbytes : buffer ++ rest.flatten = bs.zipIdx payload.start) :
    Faultless (alvsStateSyncBackupLengths app rc payload buffer buflen rest) ↔
      (SyncHeaderAccepted app (.read (bs.take 8)) →
        ∀ k < (StateSyncHeader.read (bs.take 8)).connCount.toNat, (∀ j < k, 0 ≤ rc j) →
          8 + 36 * (k + 1) ≤ bs.length → payload.start + 8 + 36 * (k + 1) ≤ payload.stop) := by
  rcases app with _ | app
  · exact ⟨fun _ h => (by obtain ⟨_, h, -⟩ := h; cases h), fun _ => ⟨[], rfl⟩⟩
  have hlen : (buffer ++ rest.flatten).length = bs.length := by rw [hbytes, List.length_zipIdx]
  have hsize : sizeofStateSyncHeader.toNat = 8 := rfl
  have h8 : 8 < 256 := by decide
  rw [alvsStateSyncBackupLengths, hsize]
  by_cases hbackup : app.backupBit = false
  · rw [if_pos hbackup]
    refine ⟨fun _ h => ?_, fun _ => ⟨[], rfl⟩⟩
    obtain ⟨_, ⟨⟩, htrue, -⟩ := h
    rw [hbackup] at htrue
    cases htrue
  rw [if_neg hbackup]
  obtain ⟨hshort, hload⟩ | ⟨r₁, rest', r', hle, hload, htake, hr', hrest', hdrop⟩ :=
    LengthReader.load_take h8 hr rfl hrest
  · rw [hload]
    refine ⟨fun _ _ k _ _ hk => ?_, fun _ => ⟨[], rfl⟩⟩
    simp only at hshort
    omega
  rw [hload]
  simp only [bind, Except.bind]
  rw [htake]
  simp only at hle hdrop ⊢
  have hhdr : values ((buffer ++ rest.flatten).take 8) = bs.take 8 := by
    rw [hbytes, take_zipIdx, values_zipIdx]
  rw [hhdr]
  generalize StateSyncHeader.read (bs.take 8) = hdr
  by_cases hid : app.bSyncId ≠ 0 ∧ hdr.syncid ≠ app.bSyncId
  · rw [if_pos hid]
    refine ⟨fun _ h => ?_, fun _ => ⟨[], rfl⟩⟩
    obtain ⟨_, ⟨⟩, -, hid', -⟩ := h
    exact absurd hid' (by simpa using hid)
  rw [if_neg hid]
  by_cases hversion : hdr.version = alvsStateSyncProtoVer ∧ hdr.reserved = 0 ∧ hdr.spare = 0
  · have haccept : SyncHeaderAccepted (some app) hdr := by
      refine ⟨app, rfl, by simpa using hbackup, ?_, hversion⟩
      by_cases hzero : app.bSyncId = 0
      · exact .inl hzero
      · exact .inr (by_contra fun hne => hid ⟨hzero, hne⟩)
    rw [if_pos hversion, processRecordLengths_faultless_iff payload rc _ 0 hr' hrest',
      hdrop, hbytes]
    simp only [haccept, true_imp_iff, Nat.zero_add, drop_zipIdx, take_zipIdx,
      List.length_zipIdx, List.length_drop]
    refine forall₃_congr fun k _ _ => ?_
    by_cases hk : 8 + 36 * (k + 1) ≤ bs.length
    · have hconn : (((bs.drop 8).drop (36 * k)).take 36).length = 36 := by
        rw [List.length_take, List.length_drop, List.length_drop]
        omega
      have hplace : payload.start + 8 + 36 * (k + 1) = payload.start + 8 + 36 * k + 36 := by omega
      rw [PlaceRange.holds_zipIdx_iff (by omega) (by omega), hconn, hplace]
      exact ⟨fun h _ => h (by omega), fun h _ => h hk⟩
    · exact ⟨fun _ h => absurd h hk, fun _ h => absurd h (by omega)⟩
  · rw [if_neg hversion]
    refine ⟨fun _ h => ?_, fun _ => ⟨[], rfl⟩⟩
    obtain ⟨_, -, -, -, h⟩ := h
    exact absurd h hversion

/-! ## The frame -/

namespace ReceivedFrame

variable (ez : Ezdp) (frame : ReceivedFrame)

/-- `nw_recieve_and_parse_frame` passes the frame on. -/
structure PassedOn : Prop where
  mac : (ez.decodeMac frame.first).decodeError = false
  dest : (ez.decodeMac frame.first).myMac = true ∨ (ez.decodeMac frame.first).ipv4Multicast = true
  ipv4 : (ez.decodeMac frame.first).ipv4 = true
  decode : (frame.decodeIpv4 ez).decodeError = false

/-- The length of the IPv4 header. -/
def ipHdrLength : Nat := field (frame.bytes.drop (frame.layer2Size ez)) 0 1 % 16 * 4

/-- The frame is an UDP frame that is not for the receiver itself. -/
def MulticastUdp : Prop :=
  (frame.decodeIpv4 ez).tcp = false ∧ (frame.decodeIpv4 ez).udp = true ∧
    (ez.decodeMac frame.first).myMac = false

def ForSync : Prop :=
  frame.MulticastUdp ez ∧ UInt16.ofNat
    (field (frame.bytes.drop (frame.layer2Size ez + frame.ipHdrLength ez)) 2 2) = udpDest

def syncHeader : StateSyncHeader := .read ((frame.bytes.drop (frame.payload ez).start).take 8)

/-- Every record that the code comes to ends in the UDP payload : of the number of records in
the sync header, those that are in the frame, as long as none before is refused. -/
def RecordsInPayload (app : Option AppInfoResult) (rc : Nat → Int) : Prop :=
  SyncHeaderAccepted app (frame.syncHeader ez) →
    ∀ k < (frame.syncHeader ez).connCount.toNat, (∀ j < k, 0 ≤ rc j) →
      (frame.payload ez).start + 8 + 36 * (k + 1) ≤ frame.bytes.length →
      (frame.payload ez).start + 8 + 36 * (k + 1) ≤ (frame.payload ez).stop

/-- The headers are in the first buffer, and the records in the UDP payload. -/
structure LengthsAgree (app : Option AppInfoResult) (rc : Nat → Int) : Prop where
  mac : maxDecodeSize ≤ frame.first.length
  ip : frame.layer2Size ez + sizeofIphdr ≤ frame.first.length
  udp : frame.MulticastUdp ez →
    frame.layer2Size ez + frame.ipHdrLength ez + 4 ≤ frame.first.length
  sync : frame.ForSync ez → (frame.payload ez).start ≤ frame.first.length
  records : frame.ForSync ez → frame.RecordsInPayload ez app rc

/-- No length underflows, nothing is read beyond the data of a buffer, and no record is
decoded from bytes outside the UDP payload. -/
def LengthSafe (app : Option AppInfoResult) (rc : Nat → Int) : Prop :=
  Faultless (nwRecieveAndParseFrameLengths ez app rc frame)

variable {ez frame}

/-- Bytes of the first buffer. -/
theorem field_first {off a n : Nat} (h : off + a + n ≤ frame.first.length) :
    field (frame.first.drop off) a n = field (frame.bytes.drop off) a n := by
  rw [bytes, List.drop_append_of_le_length (by omega), field_append_left]
  rw [List.length_drop]
  omega

theorem payload_start : (frame.payload ez).start =
    frame.layer2Size ez + frame.ipHdrLength ez + sizeofUdphdr := rfl

end ReceivedFrame

theorem faultless_readData_iff {α : Type} {buffer : List FrameByte} {n : Nat}
    {f : List FrameByte → Checked α} :
    Faultless (readData buffer n >>= f) ↔ n ≤ buffer.length ∧ Faultless (f (buffer.take n)) := by
  by_cases h : n ≤ buffer.length
  · rw [readData_ok h, and_iff_right h]
    rfl
  · rw [readData, if_neg h]
    exact ⟨nofun, fun hle => absurd hle.1 h⟩

theorem faultless_subLen_iff {α : Type} {buflen : UInt32} {n : Nat} {f : UInt32 → Checked α} :
    Faultless (subLen buflen n >>= f) ↔ n ≤ buflen.toNat ∧ Faultless (f (buflen - .ofNat n)) := by
  by_cases h : n ≤ buflen.toNat
  · rw [subLen_ok h, and_iff_right h]
    rfl
  · rw [subLen, if_neg h]
    exact ⟨nofun, fun hle => absurd hle.1 h⟩

section Frame

variable {ez : Ezdp} {app : Option AppInfoResult} {rc : Nat → Int} {frame : ReceivedFrame}

/-- The length of what is left of the first buffer. -/
theorem toNat_buflen {off : Nat} (h : off ≤ frame.first.length) :
    (UInt32.ofNat frame.first.length - .ofNat off).toNat = frame.first.length - off := by
  have hfits : frame.first.length ≤ 256 := frame.first_fits
  have hlen : (UInt32.ofNat frame.first.length).toNat = frame.first.length :=
    toNat_ofNat_of_lt (by omega)
  rw [toNat_sub_ofNat (by omega), hlen]

/-- The message behind the UDP header. -/
theorem syncMessage_faultless_iff (hstart : (frame.payload ez).start ≤ frame.first.length)
    {buflen : UInt32} (hbuflen : buflen.toNat = frame.first.length - (frame.payload ez).start) :
    Faultless (alvsStateSyncBackupLengths app rc (frame.payload ez)
      (frame.first.zipIdx.drop (frame.payload ez).start) buflen
      (placed frame.first.length frame.rest)) ↔ frame.RecordsInPayload ez app rc := by
  generalize hp : (frame.payload ez).start = start at hstart hbuflen ⊢
  have hgood : (LengthReader.mk (frame.first.zipIdx.drop start) buflen [] 0).Good := by
    refine ⟨?_, rfl, ?_⟩
    · rw [hbuflen, List.length_drop, List.length_zipIdx]
    · rw [List.length_drop, List.length_zipIdx]
      exact (Nat.sub_le _ _).trans frame.first_fits
  have hbytes : frame.first.zipIdx.drop start ++ (placed frame.first.length frame.rest).flatten =
      (frame.bytes.drop start).zipIdx (frame.payload ez).start := by
    rw [hp, ReceivedFrame.bytes, List.drop_append_of_le_length hstart, List.zipIdx_append,
      flatten_placed, drop_zipIdx, Nat.zero_add, List.length_drop, Nat.add_sub_cancel' hstart]
  have hlen : frame.first.length ≤ frame.bytes.length := by
    rw [ReceivedFrame.bytes, List.length_append]
    exact Nat.le_add_right _ _
  rw [alvsStateSyncBackupLengths_faultless_iff hgood (placed_fit _ frame.rest_fits) hbytes,
    ReceivedFrame.RecordsInPayload, ReceivedFrame.syncHeader, hp]
  refine forall_congr' fun _ => forall₃_congr fun k _ _ => ?_
  rw [List.length_drop]
  by_cases hk : start + 8 + 36 * (k + 1) ≤ frame.bytes.length
  · exact ⟨fun h _ => h (by omega), fun h _ => h hk⟩
  · exact ⟨fun _ h => absurd h hk, fun _ h => absurd h (by omega)⟩

/-- The steps of `alvs_packet_processing` behind an IPv4 header in the first buffer. -/
theorem packetProcessing_faultless_iff
    (hip : frame.layer2Size ez + sizeofIphdr ≤ frame.first.length) :
    Faultless (alvsPacketProcessingLengths app rc (frame.payload ez) (frame.decodeIpv4 ez)
      (ez.decodeMac frame.first).myMac (frame.first.zipIdx.drop (frame.layer2Size ez))
      (UInt32.ofNat frame.first.length - .ofNat (frame.layer2Size ez))
      (placed frame.first.length frame.rest)) ↔
    (frame.MulticastUdp ez → frame.layer2Size ez + frame.ipHdrLength ez + 4 ≤ frame.first.length ∧
      (frame.ForSync ez → (frame.payload ez).start ≤ frame.first.length ∧
        frame.RecordsInPayload ez app rc)) := by
  have hiphdr : sizeofIphdr = 20 := rfl
  rw [alvsPacketProcessingLengths]
  by_cases htcp : (frame.decodeIpv4 ez).tcp = true
  · rw [if_pos htcp]
    refine ⟨fun _ h => ?_, fun _ => ⟨[], rfl⟩⟩
    rw [h.1] at htcp
    cases htcp
  rw [if_neg htcp]
  by_cases hudp : (frame.decodeIpv4 ez).udp = true
  swap
  · rw [if_neg hudp]
    exact ⟨fun _ h => absurd h.2.1 hudp, fun _ => ⟨[], rfl⟩⟩
  rw [if_pos hudp]
  by_cases hmine : (ez.decodeMac frame.first).myMac = true
  · rw [if_pos hmine]
    refine ⟨fun _ h => ?_, fun _ => ⟨[], rfl⟩⟩
    rw [h.2.2] at hmine
    cases hmine
  rw [if_neg hmine]
  have hmulti : frame.MulticastUdp ez := ⟨by simpa using htcp, hudp, by simpa using hmine⟩
  have hihl : field (values (frame.first.zipIdx.drop (frame.layer2Size ez))) 0 1 % 16 * 4 =
      frame.ipHdrLength ez := by
    rw [drop_zipIdx, values_zipIdx, ReceivedFrame.ipHdrLength, ReceivedFrame.field_first (by omega)]
  simp only [hihl]
  have hport : 4 ≤ frame.first.length - (frame.layer2Size ez + frame.ipHdrLength ez) ↔
      frame.layer2Size ez + frame.ipHdrLength ez + 4 ≤ frame.first.length := by omega
  rw [faultless_readData_iff, List.drop_drop, List.length_drop, List.length_zipIdx, hport,
    forall_prop_of_true hmulti]
  refine and_congr_right fun hle => ?_
  have hdest : field (values ((frame.first.zipIdx.drop
      (frame.layer2Size ez + frame.ipHdrLength ez)).take 4)) 2 2 =
      field (frame.bytes.drop (frame.layer2Size ez + frame.ipHdrLength ez)) 2 2 := by
    rw [drop_zipIdx, take_zipIdx, values_zipIdx, field_take (by omega),
      ReceivedFrame.field_first (by omega)]
  rw [hdest]
  by_cases hdport : UInt16.ofNat
      (field (frame.bytes.drop (frame.layer2Size ez + frame.ipHdrLength ez)) 2 2) = udpDest
  · have hsync : frame.ForSync ez := ⟨hmulti, hdport⟩
    have hbuflen : (UInt32.ofNat frame.first.length - .ofNat (frame.layer2Size ez)).toNat =
        frame.first.length - frame.layer2Size ez := toNat_buflen (by omega)
    have hstart : frame.ipHdrLength ez + sizeofUdphdr ≤
        frame.first.length - frame.layer2Size ez ↔
        (frame.payload ez).start ≤ frame.first.length := by
      rw [ReceivedFrame.payload_start]
      omega
    rw [if_pos hdport, faultless_subLen_iff, hbuflen, hstart, forall_prop_of_true hsync]
    refine and_congr_right fun hpayload => ?_
    rw [List.drop_drop]
    refine syncMessage_faultless_iff hpayload ?_
    rw [toNat_sub_ofNat (by omega), hbuflen, Nat.sub_sub, ReceivedFrame.payload_start,
      Nat.add_assoc]
  · rw [if_neg hdport]
    exact ⟨fun _ h => absurd h.2 hdport, fun _ => ⟨[], rfl⟩⟩

end Frame

/-- A well-formed IPv4 header whose total length fits a frame. -/
def Ipv4WellFormed (hdr : List UInt8) (frameLength : Nat) : Prop :=
  field hdr 0 1 / 16 = 4 ∧ 5 ≤ field hdr 0 1 % 16 ∧ field hdr 0 1 % 16 * 4 ≤ field hdr 2 2 ∧
    field hdr 2 2 ≤ frameLength ∧ ChecksumValid hdr

instance (hdr : List UInt8) (frameLength : Nat) : Decidable (Ipv4WellFormed hdr frameLength) :=
  inferInstanceAs (Decidable (_ ∧ _ ∧ _ ∧ _ ∧ halfwordSum hdr % 0xffff = 0))

/-- `ezdp_decode_ipv4` accepts well-formed headers only. -/
def Ezdp.AcceptsWellFormed (ez : Ezdp) : Prop :=
  ∀ hdr frameLength, (ez.decodeIpv4 hdr frameLength).decodeError = false →
    Ipv4WellFormed hdr frameLength

/-- The SDK on a multicast frame without tags. -/
def multicastEzdp : Ezdp where
  decodeMac _ := ⟨false, false, true, true, 14⟩
  decodeIpv4 hdr frameLength :=
    ⟨!decide (Ipv4WellFormed hdr frameLength), field hdr 9 1 = 6, field hdr 9 1 = 17⟩
  ipv4Checksum _ := 0

theorem multicastEzdp_acceptsWellFormed : multicastEzdp.AcceptsWellFormed := by
  intro hdr frameLength h
  simpa [multicastEzdp] using h

/-- A sync frame in one buffer, with 36 bytes behind a header that announces one record. -/
def oneRecordFrame (totLen check udpLen : Nat) : ReceivedFrame where
  first := ethHdrBytes (.replicate 6 0) ++ ipHdrBytes totLen check 0x0a000001 ++
    udpHdrBytes udpLen ++ syncHdrBytes 0 0 44 1 ++ List.replicate 36 0
  rest := []
  first_fits := by simp [ethHdrBytes, ipHdrBytes, udpHdrBytes, syncHdrBytes, alvsStateSyncDstMac,
    ezframeBufDataSize]
  rest_fits := by simp

end Alvs
