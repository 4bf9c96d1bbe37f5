import Alvs.Dp.SyncBytes

/-!
# The frames of the system log

`write_log` of the data plane cuts a message over the buffers of a frame : the first holds
the IPv4 and UDP headers, the second begins with the priority, the name of the application
and the cpu, and the message goes on in further ones while there are fewer than
`SYSLOG_MAX_NUM_OF_BUF`. The lengths in the headers are computed beforehand by a loop of
their own (`userStringLength`), the buffers are filled by another (`appendUserString`).

A copy or a buffer that goes beyond its memory stops the run (`LogError.overflow`), which
a negative size always does : as an unsigned size it is 2³¹ or more. `openLog` accepts the
sizes of an application name that its own copy can take (`openLog_accepts_iff`), and with them
every frame of `writeLog` is as its headers say (`syslogFrame_carries`).
-/

namespace Alvs

open ProgLogic

def syslogPriFacilityStringSize : Int := 4

def syslogApplicNameStringSize : Int := 10

def syslogCpuStringSize : Int := 6

def syslogBufDataSize : Int := 64

def syslogFirstBufferSize : Int := 32

def syslogMaxNumOfBuf : Nat := 3

/-- `struct syslog_info`, where `send_cb` is a null pointer or is not. -/
structure SyslogInfo where
  applicName : ByteMem
  applicNameSize : Int
  sendCb : Bool
  destPort : UInt16
  destIp : UInt32
  srcIp : UInt32
  remainedLengthForUserString : Int

/-- Why a function stops before its end. -/
inductive LogError
  | nullSendCb
  | assertion
  | overflow
  | frame
  deriving DecidableEq

/-- `ezdp_mem_copy` to a memory of `capacity` bytes, from its byte `off` on. -/
def memCopy (capacity : Int) (dst : ByteMem) (off : Int) (src : ByteMem) (size : Int) :
    Except LogError ByteMem :=
  if 0 ≤ off ∧ 0 ≤ size ∧ off + size ≤ capacity then
    .ok (dst.store off.toNat (src.load 0 size.toNat))
  else .error .overflow

def openLog (user : SyslogInfo) : Except LogError SyslogInfo := do
  if user.sendCb = false then
    throw .nullSendCb
  let applicNameSize := min user.applicNameSize syslogApplicNameStringSize
  let applicName ← memCopy syslogApplicNameStringSize (fun _ => 0) 0 user.applicName applicNameSize
  if syslogBufDataSize < syslogPriFacilityStringSize + applicNameSize + syslogCpuStringSize then
    throw .assertion
  if syslogFirstBufferSize < sizeofIphdr + sizeofUdphdr then
    throw .assertion
  return { user with
    applicName := applicName
    applicNameSize := applicNameSize
    remainedLengthForUserString := syslogBufDataSize - syslogPriFacilityStringSize -
      applicNameSize - syslogCpuStringSize }

/-! ## Frames -/

/-- The buffers of a frame. -/
structure SyslogFrame where
  buffers : List (List UInt8)

/-- Which calls on a frame succeed; an append is known by the buffers before it. -/
structure FrameEnv where
  new : Bool
  appendBuf : Nat → Bool
  firstBuf : Bool
  sendCb : Bool

def ezframeNew (env : FrameEnv) (d : ByteMem) (size : Nat) : Except LogError SyslogFrame :=
  if syslogBufDataSize < size then .error .overflow
  else if env.new then .ok ⟨[d.load 0 size]⟩
  else .error .frame

def ezframeAppendBuf (env : FrameEnv) (frame : SyslogFrame) (d : ByteMem) (size : Int) :
    Except LogError SyslogFrame :=
  if size < 0 ∨ syslogBufDataSize < size then .error .overflow
  else if env.appendBuf frame.buffers.length then
    .ok ⟨frame.buffers ++ [d.load 0 size.toNat]⟩
  else .error .frame

/-- `ezframe_first_buf` and the call of `send_cb`. -/
def sendSyslogFrame (env : FrameEnv) (frame : SyslogFrame) : Except LogError SyslogFrame :=
  if env.firstBuf && env.sendCb then .ok frame else .error .frame

/-- The texts of a message : its priority and the cpu. -/
structure SyslogTexts where
  priFacility : ByteMem
  cpu : ByteMem

/-- The low 16 bits of an `int`. -/
def asHalfword (i : Int) : List UInt8 := bigEndian 2 (i % 2 ^ 16).toNat

section

variable (checksum : List UInt8 → UInt16) (info : SyslogInfo)

def setSyslogTemplate (d : ByteMem) (totalFrameLength : Int) : ByteMem :=
  let d := d.store 0 [d 0 &&& 0x0f ||| 0x40]
  let d := d.store 0 [d 0 &&& 0xf0 ||| 0x05]
  let d := d.store 1 [0]
  let d := d.store 2 (asHalfword (sizeofIphdr + sizeofUdphdr + totalFrameLength))
  let d := d.store 4 (bigEndian 2 0x6dad)
  let d := d.store 6 (bigEndian 2 ipDf)
  let d := d.store 8 [255]
  let d := d.store 9 [ipprotoUdp]
  let d := d.store 10 (bigEndian 2 0)
  let d := d.store 12 (bigEndian 4 info.srcIp.toNat)
  let d := d.store 16 (bigEndian 4 info.destIp.toNat)
  let d := d.store 20 (bigEndian 2 info.destPort.toNat)
  let d := d.store 22 (bigEndian 2 info.destPort.toNat)
  let d := d.store 24 (asHalfword (sizeofUdphdr + totalFrameLength))
  let d := d.store 26 (bigEndian 2 0)
  d.store 10 (bigEndian 2 (checksum (d.load 0 sizeofIphdr)).toNat)

/-- The bytes of a message before the user's string. -/
def syslogPrefixLength : Int :=
  syslogPriFacilityStringSize + info.applicNameSize + syslogCpuStringSize

/-- The four copies that fill the second buffer, and the part of the user's string that
they take. -/
def fillMixedBuffer (texts : SyslogTexts) (d : ByteMem) (str : ByteMem) (length : Int) :
    Except LogError (ByteMem × Int) := do
  let d ← memCopy syslogBufDataSize d 0 texts.priFacility syslogPriFacilityStringSize
  let d ← memCopy syslogBufDataSize d syslogPriFacilityStringSize info.applicName
    info.applicNameSize
  let d ← memCopy syslogBufDataSize d (syslogPriFacilityStringSize + info.applicNameSize) texts.cpu
    syslogCpuStringSize
  let bufLen := min length info.remainedLengthForUserString
  let d ← memCopy syslogBufDataSize d (syslogPrefixLength info) str bufLen
  return (d, bufLen)

/-- `send_special_message`, with the memory it leaves behind. -/
def sendSpecialMessage (env : FrameEnv) (texts : SyslogTexts) (d : ByteMem) (str : ByteMem)
    (length : Int) : Except LogError (SyslogFrame × ByteMem) := do
  let frame ← ezframeNew env d (sizeofIphdr + sizeofUdphdr)
  if info.remainedLengthForUserString < length then
    throw .assertion
  let (d, bufLen) ← fillMixedBuffer info texts d str length
  let frame ← ezframeAppendBuf env frame d
    (syslogBufDataSize - info.remainedLengthForUserString + bufLen)
  let frame ← sendSyslogFrame env frame
  return (frame, d)

/-- What a call of `write_log` finds : the color of the token bucket, the counter of dropped
messages, the texts of the special messages with their sizes, and the calls on frames that
succeed. -/
structure SyslogEnv where
  green : Bool
  colorFlagCounter : UInt64
  texts : SyslogTexts
  notice : SyslogTexts
  backToNormalStr : ByteMem
  noticeStr : ByteMem
  special : FrameEnv
  frame : FrameEnv

/-- `"LOG_MSG: Back to normal logging"` with its NUL. -/
def sizeofBackToNormalStr : Int := 32

/-- `"LOG_MSG: Logging overloaded-logs are dropped"` with its NUL. -/
def sizeofNoticeStr : Int := 45

/-- The special frame that is sent, if any, and the memory that the message goes on with;
`none` where it is dropped, which it is in an overload and where a special frame cannot be
sent after one. -/
def tokenBucket (env : SyslogEnv) (d : ByteMem) :
    Except LogError (List SyslogFrame × Option ByteMem) :=
  if env.green then
    if env.colorFlagCounter = 0 then .ok ([], some d)
    else
      let d := setSyslogTemplate checksum info d (syslogPrefixLength info + sizeofBackToNormalStr)
      match sendSpecialMessage info env.special env.notice d env.backToNormalStr
        sizeofBackToNormalStr with
      | .ok (frame, d) => .ok ([frame], some d)
      | .error .frame => .ok ([], none)
      | .error e => .error e
  else if env.colorFlagCounter = 0 then
    let d := setSyslogTemplate checksum info d (syslogPrefixLength info + sizeofNoticeStr)
    match sendSpecialMessage info env.special env.notice d env.noticeStr sizeofNoticeStr with
    | .ok (frame, _) => .ok ([frame], none)
    | .error .frame => .ok ([], none)
    | .error e => .error e
  else .ok ([], none)

/-- The loop that counts the bytes of the user's string that the buffers can take. -/
def userStringLength (length userLength : Int) (numOfBufs : Nat) : Int :=
  if _h : length - userLength > 0 ∧ numOfBufs < syslogMaxNumOfBuf then
    userStringLength length (userLength + min (length - userLength) syslogBufDataSize)
      (numOfBufs + 1)
  else userLength
termination_by syslogMaxNumOfBuf - numOfBufs

/-- The loop that appends the rest of the user's string, `str` being what is left of it. -/
def appendUserString (env : FrameEnv) (frame : SyslogFrame) (d : ByteMem) (str : ByteMem)
    (length : Int) (numOfBufs : Nat) : Except LogError SyslogFrame :=
  if _h : length > 0 ∧ numOfBufs < syslogMaxNumOfBuf then do
    let bufLen := min length syslogBufDataSize
    let d ← memCopy syslogBufDataSize d 0 str bufLen
    let frame ← ezframeAppendBuf env frame d bufLen
    appendUserString env frame d (fun i => str (i + bufLen.toNat)) (length - bufLen) (numOfBufs + 1)
  else .ok frame
termination_by syslogMaxNumOfBuf - numOfBufs

/-- The part of `write_log` behind the token bucket, with the frame it sends. -/
def writeLogFrame (env : FrameEnv) (texts : SyslogTexts) (d : ByteMem) (str : ByteMem)
    (length : Int) : Except LogError SyslogFrame := do
  let userLength := userStringLength length (min info.remainedLengthForUserString length) 2
  let d := setSyslogTemplate checksum info d (syslogPrefixLength info + userLength)
  let frame ← ezframeNew env d (sizeofIphdr + sizeofUdphdr)
  let (d, bufLen) ← fillMixedBuffer info texts d str length
  let frame ← ezframeAppendBuf env frame d
    (syslogBufDataSize - info.remainedLengthForUserString + bufLen)
  let frame ← appendUserString env frame d (fun i => str (i + bufLen.toNat)) (length - bufLen) 2
  sendSyslogFrame env frame

/-- The frames that `write_log` sends. -/
def writeLog (env : SyslogEnv) (d : ByteMem) (str : ByteMem) (length : Int) :
    Except LogError (List SyslogFrame) :=
  match tokenBucket checksum info env d with
  | .error e => .error e
  | .ok (special, none) => .ok special
  | .ok (special, some d) =>
    match writeLogFrame checksum info env.frame env.texts d str length with
    | .ok frame => .ok (special ++ [frame])
    | .error .frame => .ok special
    | .error e => .error e

end

/-! ## What `open_log` accepts -/

/-- The application's name has `n` bytes, which leave the rest of a buffer to the user. -/
structure SyslogInfo.Accepted (info : SyslogInfo) (n : Nat) : Prop where
  size : info.applicNameSize = n
  le : n ≤ 10
  remained : info.remainedLengthForUserString = 54 - n

theorem memCopy_ok {capacity off size : Int} (h : 0 ≤ off ∧ 0 ≤ size ∧ off + size ≤ capacity)
    (dst src : ByteMem) :
    memCopy capacity dst off src size = .ok (dst.store off.toNat (src.load 0 size.toNat)) :=
  if_pos h

theorem memCopy_eq_ok {capacity off size : Int} {dst src d : ByteMem}
    (h : memCopy capacity dst off src size = .ok d) :
    0 ≤ off ∧ 0 ≤ size ∧ off + size ≤ capacity := by
  unfold memCopy at h
  split at h
  next hfits => exact hfits
  next => cases h

theorem openLog_accepts {user info : SyslogInfo} (h : openLog user = .ok info) :
    (user.sendCb = true ∧ 0 ≤ user.applicNameSize) ∧ ∃ n, info.Accepted n := by
  unfold openLog at h
  by_cases hcb : user.sendCb = false
  · rw [if_pos hcb] at h
    cases h
  rw [if_neg hcb] at h
  cases hcopy : memCopy syslogApplicNameStringSize (fun _ => 0) 0 user.applicName
    (min user.applicNameSize syslogApplicNameStringSize) with
  | error e =>
    simp only [hcopy] at h
    cases h
  | ok name =>
    simp only [hcopy] at h
    obtain ⟨-, hpos, hle⟩ := memCopy_eq_ok hcopy
    obtain ⟨n, hn⟩ := Int.eq_ofNat_of_zero_le hpos
    rw [hn] at h hle
    have hle10 : n ≤ 10 := by
      simp only [syslogApplicNameStringSize] at hle
      omega
    have hspace : ¬syslogBufDataSize < syslogPriFacilityStringSize + (n : Int) +
        syslogCpuStringSize := by
      simp only [syslogBufDataSize, syslogPriFacilityStringSize, syslogCpuStringSize]
      omega
    have hfirst : ¬syslogFirstBufferSize < (sizeofIphdr : Int) + sizeofUdphdr := by decide
    simp only [bind, Except.bind, if_neg hspace, if_neg hfirst] at h
    cases h
    have hsize : 0 ≤ user.applicNameSize := by
      simp only [syslogApplicNameStringSize] at hn
      omega
    refine ⟨⟨by simpa using hcb, hsize⟩, n, rfl, hle10, ?_⟩
    simp only [syslogBufDataSize, syslogPriFacilityStringSize, syslogCpuStringSize]
    omega

/-- Every size is accepted that is not negative : a larger one is cut. -/
theorem openLog_accepts_iff {user : SyslogInfo} :
    (∃ info, openLog user = .ok info) ↔ user.sendCb = true ∧ 0 ≤ user.applicNameSize := by
  constructor
  · rintro ⟨info, h⟩
    exact (openLog_accepts h).1
  · rintro ⟨hcb, hpos⟩
    have hcopy := @memCopy_ok syslogApplicNameStringSize 0
      (min user.applicNameSize syslogApplicNameStringSize)
      (by simp only [syslogApplicNameStringSize]; omega) (fun _ => 0) user.applicName
    have hspace : ¬syslogBufDataSize < syslogPriFacilityStringSize +
        min user.applicNameSize syslogApplicNameStringSize + syslogCpuStringSize := by
      simp only [syslogBufDataSize, syslogPriFacilityStringSize, syslogApplicNameStringSize,
        syslogCpuStringSize]
      omega
    have hfirst : ¬syslogFirstBufferSize < (sizeofIphdr : Int) + sizeofUdphdr := by decide
    simp only [openLog, hcb, Bool.true_eq_false, if_false, bind, Except.bind, hcopy,
      if_neg hspace, if_neg hfirst]
    exact ⟨_, rfl⟩

/-! ## The headers -/

section Headers

variable (checksum : List UInt8 → UInt16) (info : SyslogInfo) (d : ByteMem)

theorem value_asHalfword {i : Int} {n : Nat} (hi : i = n) (hn : n < 2 ^ 16) :
    value (asHalfword i) = n := by
  have hmod : (i % 2 ^ 16).toNat = n := by omega
  rw [asHalfword, hmod, value_bigEndian hn]

theorem load_template_totLen (total : Int) :
    (setSyslogTemplate checksum info d total).load 2 2 =
      asHalfword (sizeofIphdr + sizeofUdphdr + total) := by
  unfold setSyslogTemplate
  simp (disch := simp only [length_bigEndian, asHalfword, List.length_cons,
    List.length_nil]; first | done | omega)
    only [ByteMem.load_store_of_disjoint, ByteMem.load_store_of_length]

theorem load_template_udpLen (total : Int) :
    (setSyslogTemplate checksum info d total).load 24 2 = asHalfword (sizeofUdphdr + total) := by
  unfold setSyslogTemplate
  simp (disch := simp only [length_bigEndian, asHalfword, List.length_cons,
    List.length_nil]; first | done | omega)
    only [ByteMem.load_store_of_disjoint, ByteMem.load_store_of_length]

/-- The lengths that a frame begins with. -/
theorem field_template (total : Nat) (htotal : total < 2 ^ 15) (rest : List UInt8) :
    field ((setSyslogTemplate checksum info d total).load 0 28 ++ rest) 2 2 = 28 + total ∧
      field ((setSyslogTemplate checksum info d total).load 0 28 ++ rest) 24 2 = 8 + total := by
  have hread : ∀ off, off + 2 ≤ 28 → field ((setSyslogTemplate checksum info d total).load 0 28 ++
      rest) off 2 = value ((setSyslogTemplate checksum info d total).load off 2) := by
    intro off hoff
    rw [field_append_left (by rw [ByteMem.length_load]; exact hoff), field,
      ← ByteMem.load_of_load _ hoff, Nat.zero_add]
  constructor
  · rw [hread 2 (by decide), load_template_totLen]
    exact value_asHalfword (by simp [sizeofIphdr, sizeofUdphdr]) (by omega)
  · rw [hread 24 (by decide), load_template_udpLen]
    exact value_asHalfword (by simp [sizeofUdphdr]) (by omega)

end Headers

/-! ## The buffers -/

/-- All calls on a frame succeed. -/
structure FrameEnv.Succeeds (env : FrameEnv) : Prop where
  new : env.new = true
  appendBuf : ∀ n, env.appendBuf n = true
  firstBuf : env.firstBuf = true
  sendCb : env.sendCb = true

section Buffers

variable {info : SyslogInfo} {n : Nat} {env : FrameEnv}

theorem syslogPrefixLength_eq (hinfo : info.Accepted n) : syslogPrefixLength info = 10 + n := by
  simp only [syslogPrefixLength, hinfo.size, syslogPriFacilityStringSize, syslogCpuStringSize]
  omega

/-- The bytes that a message begins with. -/
def SyslogInfo.prefixBytes (info : SyslogInfo) (n : Nat) (texts : SyslogTexts) : List UInt8 :=
  texts.priFacility.load 0 4 ++ info.applicName.load 0 n ++ texts.cpu.load 0 6

theorem length_prefixBytes (texts : SyslogTexts) : (info.prefixBytes n texts).length = 10 + n := by
  simp only [SyslogInfo.prefixBytes, List.length_append, ByteMem.length_load]
  omega

/-- The second buffer holds the prefix and the first bytes of the user's string. -/
theorem fillMixedBuffer_ok (hinfo : info.Accepted n) (texts : SyslogTexts) (d str : ByteMem)
    (length : Nat) :
    ∃ d', fillMixedBuffer info texts d str length = .ok (d', (min length (54 - n) : Nat)) ∧
      d'.load 0 (10 + n + min length (54 - n)) =
        info.prefixBytes n texts ++ str.load 0 (min length (54 - n)) := by
  obtain ⟨hsize, hle, hremained⟩ := hinfo
  have hmin : min (length : Int) info.remainedLengthForUserString =
    (min length (54 - n) : Nat) := by
    omega
  have hprefix := syslogPrefixLength_eq ⟨hsize, hle, hremained⟩
  have hfour : (4 + (n : Int)).toNat = 4 + n := by omega
  have hten : (10 + (n : Int)).toNat = 10 + n := by omega
  have hread : ∀ m : ByteMem, m.load 0 (10 + n + min length (54 - n)) =
      m.load 0 4 ++ m.load 4 n ++ m.load (4 + n) 6 ++ m.load (10 + n) (min length (54 - n)) := by
    intro m
    have hsix : 10 + n = 4 + n + 6 := by omega
    rw [ByteMem.load_add m 0 (10 + n), hsix, ByteMem.load_add m 0 (4 + n), ByteMem.load_add m 0 4]
    simp only [Nat.zero_add]
  simp only [fillMixedBuffer, bind, Except.bind, hmin, hprefix, hsize, syslogBufDataSize,
    syslogPriFacilityStringSize, syslogCpuStringSize]
  simp (disch := omega) only [memCopy_ok]
  refine ⟨_, rfl, ?_⟩
  rw [hread, SyslogInfo.prefixBytes, hfour, hten]
  simp (disch := simp only [ByteMem.length_load, Int.toNat_natCast,
    Int.reduceToNat]; first | done | omega)
    only [ByteMem.load_store_of_disjoint, ByteMem.load_store_of_length, Int.toNat_natCast,
      Int.reduceToNat]

theorem ezframeAppendBuf_ok (henv : env.Succeeds) (frame : SyslogFrame) (d : ByteMem) {size : Nat}
    (hsize : size ≤ 64) :
    ezframeAppendBuf env frame d size = .ok ⟨frame.buffers ++ [d.load 0 size]⟩ := by
  have hfits : ¬((size : Int) < 0 ∨ syslogBufDataSize < size) := by
    simp only [syslogBufDataSize]
    omega
  rw [ezframeAppendBuf, if_neg hfits, if_pos (henv.appendBuf _), Int.toNat_natCast]

/-- The loop that counts comes to what the remaining buffers can take. -/
theorem userStringLength_eq (length : Nat) : ∀ (room userLength numOfBufs : Nat),
    numOfBufs + room = syslogMaxNumOfBuf → userLength ≤ length →
    userStringLength length userLength numOfBufs = (min length (userLength + room * 64) : Nat)
  | 0, userLength, numOfBufs, hroom, hle => by
    rw [userStringLength, dif_neg (by omega)]
    omega
  | room + 1, userLength, numOfBufs, hroom, hle => by
    rw [userStringLength]
    split
    next h =>
      have hmin : (userLength : Int) + min ((length : Int) - userLength) syslogBufDataSize =
          (min length (userLength + 64) : Nat) := by
        simp only [syslogBufDataSize]
        omega
      rw [hmin, userStringLength_eq length room _ (numOfBufs + 1) (by omega) (by omega)]
      omega
    next h => omega

/-- What the remaining buffers take of the user's string. -/
structure Appended (str : ByteMem) (length room : Nat) (bs : List (List UInt8)) : Prop where
  bytes : bs.flatten = str.load 0 (min length (room * 64))
  count : bs.length ≤ room
  sizes : ∀ b ∈ bs, b.length ≤ 64

theorem ByteMem.load_shift (m : ByteMem) (k : Nat) : ∀ a n : Nat,
    ByteMem.load (fun i => m (i + k)) a n = m.load (a + k) n
  | _, 0 => rfl
  | a, n + 1 => by
    rw [ByteMem.load, ByteMem.load, ByteMem.load_shift m k (a + 1) n, Nat.add_right_comm]

/-- The loop that appends takes as many bytes. -/
theorem appendUserString_ok (henv : env.Succeeds) : ∀ (room : Nat) (frame : SyslogFrame)
    (d str : ByteMem) (length numOfBufs : Nat), numOfBufs + room = syslogMaxNumOfBuf →
    ∃ bs, appendUserString env frame d str length numOfBufs = .ok ⟨frame.buffers ++ bs⟩ ∧
      Appended str length room bs
  | 0, frame, d, str, length, numOfBufs, hroom => by
    rw [appendUserString, dif_neg (by omega)]
    refine ⟨[], by rw [List.append_nil], ⟨?_, le_rfl, by simp⟩⟩
    rw [Nat.zero_mul, Nat.min_zero]
    rfl
  | room + 1, frame, d, str, length, numOfBufs, hroom => by
    rw [appendUserString]
    split
    next h =>
      have hmin : min (length : Int) syslogBufDataSize = (min length 64 : Nat) := by
        simp only [syslogBufDataSize]
        omega
      have hrest : (length : Int) - (min length 64 : Nat) = (length - min length 64 : Nat) := by
        omega
      have hcopy : memCopy syslogBufDataSize d 0 str (min length 64 : Nat) =
          .ok (d.store 0 (str.load 0 (min length 64))) :=
        memCopy_ok (by simp only [syslogBufDataSize]; omega) d str
      have happend : ezframeAppendBuf env frame (d.store 0 (str.load 0 (min length 64)))
          (min length 64 : Nat) = .ok ⟨frame.buffers ++ [str.load 0 (min length 64)]⟩ := by
        rw [ezframeAppendBuf_ok henv _ _ (by omega),
          ByteMem.load_store_of_length (ByteMem.length_load _ _ _)]
      simp only [hmin, hrest, Int.toNat_natCast, bind, Except.bind, hcopy, happend]
      obtain ⟨bs, hbs, hbytes, hcount, hsizes⟩ := appendUserString_ok henv room
        ⟨frame.buffers ++ [str.load 0 (min length 64)]⟩
        (d.store 0 (str.load 0 (min length 64))) (fun i => str (i + min length 64))
        (length - min length 64) (numOfBufs + 1) (by omega)
      refine ⟨str.load 0 (min length 64) :: bs, ?_, ?_, ?_, ?_⟩
      · rw [hbs, List.append_assoc, List.singleton_append]
      · rw [List.flatten_cons, hbytes, ByteMem.load_shift, ← ByteMem.load_add]
        congr 1
        omega
      · rw [List.length_cons]
        omega
      · rw [List.forall_mem_cons]
        exact ⟨by rw [ByteMem.length_load]; omega, hsizes⟩
    next h =>
      have hzero : length = 0 := by omega
      refine ⟨[], by rw [List.append_nil], ⟨?_, Nat.zero_le _, by simp⟩⟩
      rw [hzero, Nat.zero_min]
      rfl

end Buffers

/-! ## The frames -/

def SyslogFrame.bytes (f : SyslogFrame) : List UInt8 := f.buffers.flatten

/-- The lengths in the headers are those of the bytes from the header on, and the frame has
no more and no larger buffers than it may. -/
structure SyslogFrame.Measured (f : SyslogFrame) : Prop where
  totLen : field f.bytes 2 2 = f.bytes.length
  udpLen : field f.bytes 24 2 = f.bytes.length - sizeofIphdr
  count : f.buffers.length ≤ syslogMaxNumOfBuf
  sizes : ∀ b ∈ f.buffers, (b.length : Int) ≤ syslogBufDataSize

/-- The bytes that the supported buffers have left for the user : the rest of the second
buffer and the whole of those behind it. -/
def syslogRoom (info : SyslogInfo) : Int :=
  (syslogBufDataSize - syslogPrefixLength info) + (syslogMaxNumOfBuf - 2 : Nat) * syslogBufDataSize

/-- Behind the headers there is the prefix of the message, and as much of the user's string
as there is room for. -/
structure SyslogFrame.Carries (f : SyslogFrame) (info : SyslogInfo) (texts : SyslogTexts)
    (str : ByteMem) (length : Int) : Prop extends f.Measured where
  message : f.bytes.drop (sizeofIphdr + sizeofUdphdr) =
    info.prefixBytes info.applicNameSize.toNat texts ++
      str.load 0 (min length (syslogRoom info)).toNat

section Frames

variable (checksum : List UInt8 → UInt16) {info : SyslogInfo} {n : Nat} {env : FrameEnv}

/-- The first buffer holds the headers with the lengths of what follows. -/
theorem Measured.of_template (d : ByteMem) {total : Nat} (htotal : total < 2 ^ 15)
    {rest : List (List UInt8)} (hrest : rest.flatten.length = total) (hcount : rest.length ≤ 2)
    (hsizes : ∀ b ∈ rest, b.length ≤ 64) :
    (⟨(setSyslogTemplate checksum info d total).load 0 28 :: rest⟩ : SyslogFrame).Measured := by
  have hlen : (⟨(setSyslogTemplate checksum info d total).load 0 28 :: rest⟩ :
    SyslogFrame).bytes.length =
      28 + total := by
    rw [SyslogFrame.bytes, List.flatten_cons, List.length_append, ByteMem.length_load, hrest]
  obtain ⟨htot, hudp⟩ := field_template checksum info d total htotal rest.flatten
  refine ⟨?_, ?_, ?_, ?_⟩
  · rw [hlen, SyslogFrame.bytes, List.flatten_cons, htot]
  · rw [hlen, SyslogFrame.bytes, List.flatten_cons, hudp, sizeofIphdr]
    omega
  · rw [List.length_cons, syslogMaxNumOfBuf]
    omega
  · rw [List.forall_mem_cons, ByteMem.length_load, syslogBufDataSize]
    exact ⟨by decide, fun b hb => by have := hsizes b hb; omega⟩

theorem ezframeNew_ok (henv : env.Succeeds) (d : ByteMem) :
    ezframeNew env d (sizeofIphdr + sizeofUdphdr) = .ok ⟨[d.load 0 28]⟩ := by
  have hfits : ¬syslogBufDataSize < (sizeofIphdr + sizeofUdphdr : Nat) := by decide
  rw [ezframeNew, if_neg hfits, if_pos henv.new]
  rfl

theorem sendSyslogFrame_ok (henv : env.Succeeds) (frame : SyslogFrame) :
    sendSyslogFrame env frame = .ok frame := by
  rw [sendSyslogFrame, henv.firstBuf, henv.sendCb]
  rfl

/-- The second buffer of a frame, with what it takes of the user's string. -/
theorem appendMixedBuffer_ok (hinfo : info.Accepted n) (henv : env.Succeeds) (frame : SyslogFrame)
    {d : ByteMem} {k : Nat} (hk : k ≤ 54 - n) :
    ezframeAppendBuf env frame d (syslogBufDataSize - info.remainedLengthForUserString + k) =
      .ok ⟨frame.buffers ++ [d.load 0 (10 + n + k)]⟩ := by
  have hle := hinfo.le
  have hsize : syslogBufDataSize - info.remainedLengthForUserString + k = (10 + n + k : Nat) := by
    rw [syslogBufDataSize, hinfo.remained]
    omega
  rw [hsize, ezframeAppendBuf_ok henv frame d (by omega)]

theorem writeLogFrame_ok (hinfo : info.Accepted n) (henv : env.Succeeds) (texts : SyslogTexts)
    (d str : ByteMem) (length : Nat) :
    ∃ f, writeLogFrame checksum info env texts d str length = .ok f ∧
      f.Carries info texts str length := by
  have hle := hinfo.le
  have huser : userStringLength length (min info.remainedLengthForUserString length) 2 =
      (min length (118 - n) : Nat) := by
    have hmin : min info.remainedLengthForUserString (length : Int) =
      (min (54 - n) length : Nat) := by
      rw [hinfo.remained]
      omega
    rw [hmin, userStringLength_eq length 1 _ 2 rfl (by omega)]
    omega
  have htotal : syslogPrefixLength info + (min length (118 - n) : Nat) =
      (10 + n + min length (118 - n) : Nat) := by
    rw [syslogPrefixLength_eq hinfo]
    omega
  obtain ⟨d', hfill, hmixed⟩ := fillMixedBuffer_ok hinfo texts
    (setSyslogTemplate checksum info d (10 + n + min length (118 - n) : Nat)) str length
  have hleft : (length : Int) - (min length (54 - n) : Nat) =
    (length - min length (54 - n) : Nat) := by
    omega
  have happend := appendMixedBuffer_ok hinfo henv
    ⟨[(setSyslogTemplate checksum info d (10 + n + min length (118 - n) : Nat)).load 0 28]⟩
    (d := d') (k := min length (54 - n)) (by omega)
  obtain ⟨bs, hbs, hbytes, hcount, hsizes⟩ := appendUserString_ok henv 1
    ⟨[(setSyslogTemplate checksum info d (10 + n + min length (118 - n) : Nat)).load 0 28] ++
      [d'.load 0 (10 + n + min length (54 - n))]⟩ d'
    (fun i => str (i + min length (54 - n))) (length - min length (54 - n)) 2 rfl
  -- the user's bytes of the second buffer and of those behind it
  have hstr : str.load 0 (min length (54 - n)) ++ bs.flatten =
    str.load 0 (min length (118 - n)) := by
    rw [hbytes, ByteMem.load_shift, ← ByteMem.load_add]
    congr 1
    omega
  have hrest : ([d'.load 0 (10 + n + min length (54 - n))] ++ bs).flatten =
      info.prefixBytes n texts ++ str.load 0 (min length (118 - n)) := by
    rw [List.flatten_append, List.flatten_singleton, hmixed, List.append_assoc, hstr]
  refine ⟨⟨(setSyslogTemplate checksum info d (10 + n + min length (118 - n) : Nat)).load 0 28 ::
    ([d'.load 0 (10 + n + min length (54 - n))] ++ bs)⟩, ?_, ?_, ?_⟩
  · simp only [writeLogFrame, huser, htotal, ezframeNew_ok henv, bind, Except.bind, hfill, happend,
      hleft, Int.toNat_natCast, hbs, sendSyslogFrame_ok henv]
    rfl
  · refine Measured.of_template checksum d (by omega) ?_ ?_ ?_
    · rw [hrest, List.length_append, length_prefixBytes, ByteMem.length_load]
    · rw [List.length_append, List.length_singleton]
      omega
    · rw [List.singleton_append, List.forall_mem_cons, ByteMem.length_load]
      exact ⟨by omega, hsizes⟩
  · have hroom : (min (length : Int) (syslogRoom info)).toNat = min length (118 - n) := by
      simp only [syslogRoom, syslogPrefixLength_eq hinfo, syslogBufDataSize, syslogMaxNumOfBuf]
      omega
    have hname : info.applicNameSize.toNat = n := by
      rw [hinfo.size, Int.toNat_natCast]
    rw [hroom, hname, ← hrest]
    exact List.drop_left' (ByteMem.length_load _ _ _)

theorem sendSpecialMessage_ok (hinfo : info.Accepted n) (henv : env.Succeeds) (texts : SyslogTexts)
    (d str : ByteMem) {length : Nat} (hlength : length ≤ 54 - n) :
    ∃ f d', sendSpecialMessage info env texts
      (setSyslogTemplate checksum info d (syslogPrefixLength info + length)) str length =
        .ok (f, d') ∧ f.Measured := by
  have hle := hinfo.le
  have htotal : syslogPrefixLength info + length = (10 + n + length : Nat) := by
    rw [syslogPrefixLength_eq hinfo]
    omega
  have hassert : ¬info.remainedLengthForUserString < (length : Int) := by
    rw [hinfo.remained]
    omega
  rw [htotal]
  obtain ⟨d', hfill, hmixed⟩ := fillMixedBuffer_ok hinfo texts
    (setSyslogTemplate checksum info d (10 + n + length : Nat)) str length
  rw [Nat.min_eq_left hlength] at hfill hmixed
  have happend := appendMixedBuffer_ok hinfo henv
    ⟨[(setSyslogTemplate checksum info d (10 + n + length : Nat)).load 0 28]⟩ (d := d') hlength
  refine ⟨⟨(setSyslogTemplate checksum info d (10 + n + length : Nat)).load 0 28 ::
    [d'.load 0 (10 + n + length)]⟩, d', ?_, ?_⟩
  · simp only [sendSpecialMessage, ezframeNew_ok henv, bind, Except.bind, if_neg hassert, hfill,
      happend, sendSyslogFrame_ok henv]
    rfl
  · refine Measured.of_template checksum d (by omega) ?_ (by simp) ?_
    · rw [List.flatten_singleton, ByteMem.length_load]
    · simp only [List.mem_singleton, forall_eq, ByteMem.length_load]
      omega

end Frames

/-- The token bucket admits the message, and the calls on its frame and on the special one
succeed. -/
structure SyslogEnv.Admits (env : SyslogEnv) : Prop where
  green : env.green = true
  special : env.special.Succeeds
  frame : env.frame.Succeeds

/-- A message that is admitted is sent in a frame that carries as much of it as there is
room for; a special frame before it has the lengths of its headers too. -/
theorem syslogFrame_carries (checksum : List UInt8 → UInt16) {user info : SyslogInfo}
    (hopen : openLog user = .ok info) {env : SyslogEnv} (henv : env.Admits) (d str : ByteMem)
    {length : Int} (hlength : 0 ≤ length) :
    ∃ special f, writeLog checksum info env d str length = .ok (special ++ [f]) ∧
      (∀ g ∈ special, g.Measured) ∧ f.Carries info env.texts str length := by
  obtain ⟨-, n, hinfo⟩ := openLog_accepts hopen
  obtain ⟨hgreen, hspecial, hframe⟩ := henv
  obtain ⟨length, rfl⟩ := Int.eq_ofNat_of_zero_le hlength
  by_cases hcounter : env.colorFlagCounter = 0
  · obtain ⟨f, hf, hcarries⟩ := writeLogFrame_ok checksum hinfo hframe env.texts d str length
    refine ⟨[], f, ?_, by simp, hcarries⟩
    simp only [writeLog, tokenBucket, hgreen, if_true, hcounter, hf]
  · have hroom : (32 : Nat) ≤ 54 - n := by
      have := hinfo.le
      omega
    obtain ⟨g, d', hg, hmeasured⟩ := sendSpecialMessage_ok checksum hinfo hspecial env.notice d
      env.backToNormalStr hroom
    obtain ⟨f, hf, hcarries⟩ := writeLogFrame_ok checksum hinfo hframe env.texts d' str length
    refine ⟨[g], f, ?_, by simpa using hmeasured, hcarries⟩
    have hsize : sizeofBackToNormalStr = (32 : Nat) := rfl
    simp only [writeLog, tokenBucket, hgreen, if_true, if_neg hcounter, hsize, hg, hf]

/-- The name that `alvs_open_log` gives, and a message that is longer than the room. -/
theorem syslogFrame_carries_long :
    let user : SyslogInfo := ⟨fun _ => 0x61, 9, true, 514, 0xa9fe2a29, 0xa9fe2a2a, 0⟩
    let texts : SyslogTexts := ⟨fun _ => 0x3c, fun _ => 0x3e⟩
    let succeeds : FrameEnv := ⟨true, fun _ => true, true, true⟩
    let env : SyslogEnv := ⟨true, 1, texts, texts, fun _ => 0x62, fun _ => 0x6c, succeeds, succeeds⟩
    ∃ info special f, openLog user = .ok info ∧
      writeLog (fun _ => 0) info env (fun _ => 0) (fun _ => 0x6d) 200 = .ok (special ++ [f]) ∧
      f.Carries info texts (fun _ => 0x6d) 200 := by
  intro user texts succeeds env
  have henv : env.Admits := ⟨rfl, ⟨rfl, fun _ => rfl, rfl, rfl⟩, ⟨rfl, fun _ => rfl, rfl, rfl⟩⟩
  have hlength : (0 : Int) ≤ 200 := by decide
  obtain ⟨special, f, hlog, -, hcarries⟩ := @syslogFrame_carries (fun _ => 0) user _ rfl env henv
    (fun _ => 0) (fun _ => 0x6d) 200 hlength
  exact ⟨_, special, f, rfl, hlog, hcarries⟩

end Alvs
