import Alvs.Dp.SyncReceive

/-!
# A sync message in several buffers

`alvs_state_sync_backup` on the bytes of a frame. A header or a record that goes past the end
of a buffer is copied to the array `tail`, piece by piece, and read there; one that does not is
read in the buffer. The loops that load buffers are executed for a number of rounds.

`alvsStateSyncBackupBuffers_eq` : where the buffers are cut makes no difference. The records
are those of the payload (`payloadRecords`), and no loop needs more rounds than there are
buffers. `alvsStateSyncBackup_read` : the model of a message that was read before is this one.
-/

namespace Alvs

open ProgLogic

/-! ## The reader -/

/-- What is left of the current buffer, the buffers of the frame after it, and the array `tail`
with the number of bytes stored in it. -/
structure SyncReader where
  buffer : List UInt8
  rest : List (List UInt8)
  tail : ByteMem
  tailLen : UInt8

/-- How a loop that loads buffers ends within its rounds, if it does. -/
inductive LoadEnd
  | running
  | noBuffer
  | loaded (r : SyncReader)

namespace SyncReader

/-- The body of the loops : `ezframe_next_buf`, which fails after the last buffer, the copy of
the current buffer to `tail`, and `ezframe_load_buf`. -/
def nextBuf (r : SyncReader) : Option SyncReader :=
  match r.rest with
  | [] => none
  | next :: rest => some
    { buffer := next
      rest := rest
      tail := r.tail.store r.tailLen.toNat r.buffer
      tailLen := r.tailLen + .ofNat r.buffer.length }

/-- `while (buflen + tail_len < size)`, for a number of rounds. -/
def load (size : Nat) : Nat → SyncReader → LoadEnd
  | 0, _ => .running
  | rounds + 1, r =>
    if r.buffer.length + r.tailLen.toNat < size then
      match r.nextBuf with
      | none => .noBuffer
      | some r => load size rounds r
    else .loaded r

/-- The `size` bytes of a header or a record, in `tail` if a part of them is there, and the
reader after them. -/
def take (size : Nat) (r : SyncReader) : List UInt8 × SyncReader :=
  let n := size - r.tailLen.toNat
  if 0 < r.tailLen then
    let tail := r.tail.store r.tailLen.toNat (r.buffer.take n)
    (tail.load 0 size, { r with buffer := r.buffer.drop n, tail := tail })
  else
    (r.buffer.take n, { r with buffer := r.buffer.drop n })

end SyncReader

/-! ## The function -/

/-- The loop over the records. It returns whether the loops that load buffers end. -/
def processRecords (processConn : List UInt8 → Dp Int) (rounds : Nat) : Nat → SyncReader → Dp Bool
  | 0, _ => do
    alvsDiscardFrame
    pure true
  | connCount + 1, r =>
    match { r with tailLen := 0 }.load sizeofStateSyncConn.toNat rounds with
    | .running => pure false
    | .noBuffer => do
      alvsDiscardAndStats .stateSyncBadBuffer
      pure true
    | .loaded r => do
      let (conn, r) := r.take sizeofStateSyncConn.toNat
      let rc ← processConn conn
      if rc < 0 then
        alvsDiscardAndStats .stateSyncDecodeConn
        pure true
      else
        processRecords processConn rounds connCount r

/-- `alvs_state_sync_backup` of a message that begins in `buffer`, with `processConn` on the
bytes of each record. -/
def alvsStateSyncBackupBuffers (processConn : List UInt8 → Dp Int) (rounds : Nat)
    (buffer : List UInt8) (rest : List (List UInt8)) (tail : ByteMem) : Dp Bool := do
  match ← dpCall .appInfoLookup with
  | none =>
    alvsDiscardAndStats .stateSyncLookupFail
    pure true
  | some app =>
    if app.backupBit = false then
      alvsDiscardAndStats .stateSyncBackupDown
      pure true
    else
      match (SyncReader.mk buffer rest tail 0).load sizeofStateSyncHeader.toNat rounds with
      | .running => pure false
      | .noBuffer =>
        alvsDiscardAndStats .stateSyncBadHeaderSize
        pure true
      | .loaded r =>
        let (bs, r) := r.take sizeofStateSyncHeader.toNat
        let hdr := StateSyncHeader.read bs
        if app.bSyncId ≠ 0 ∧ hdr.syncid ≠ app.bSyncId then
          alvsDiscardAndStats .stateSyncBackupNotMySyncid
          pure true
        else if hdr.version = alvsStateSyncProtoVer ∧ hdr.reserved = 0 ∧ hdr.spare = 0 then
          processRecords processConn rounds hdr.connCount.toNat r
        else
          alvsDiscardAndStats .stateSyncBadMessageVersion
          pure true

/-! ## What it does with a payload -/

/-- The first `n` records that are complete in the bytes after the header. -/
def payloadRecords : Nat → List UInt8 → List (List UInt8)
  | 0, _ => []
  | n + 1, bs =>
    if bs.length < sizeofStateSyncConn.toNat then []
    else bs.take sizeofStateSyncConn.toNat ::
      payloadRecords n (bs.drop sizeofStateSyncConn.toNat)

/-- Process the records of a payload, of which the header announces `connCount`. -/
def processPayloadRecords (processConn : List UInt8 → Dp Int) : Nat → List (List UInt8) → Dp Unit
  | 0, _ => alvsDiscardFrame
  | _ + 1, [] => alvsDiscardAndStats .stateSyncBadBuffer
  | connCount + 1, conn :: conns => do
    let rc ← processConn conn
    if rc < 0 then
      alvsDiscardAndStats .stateSyncDecodeConn
    else
      processPayloadRecords processConn connCount conns

/-- The abstract behaviour : check the header of a payload and process its records. -/
def processPayload (processConn : List UInt8 → Dp Int) (payload : List UInt8) : Dp Unit := do
  match ← dpCall .appInfoLookup with
  | none => alvsDiscardAndStats .stateSyncLookupFail
  | some app =>
    if app.backupBit = false then
      alvsDiscardAndStats .stateSyncBackupDown
    else if payload.length < sizeofStateSyncHeader.toNat then
      alvsDiscardAndStats .stateSyncBadHeaderSize
    else
      let hdr := StateSyncHeader.read (payload.take sizeofStateSyncHeader.toNat)
      if app.bSyncId ≠ 0 ∧ hdr.syncid ≠ app.bSyncId then
        alvsDiscardAndStats .stateSyncBackupNotMySyncid
      else if hdr.version = alvsStateSyncProtoVer ∧ hdr.reserved = 0 ∧ hdr.spare = 0 then
        processPayloadRecords processConn hdr.connCount.toNat (payloadRecords hdr.connCount.toNat
          (payload.drop sizeofStateSyncHeader.toNat))
      else
        alvsDiscardAndStats .stateSyncBadMessageVersion

/-! ## The reader takes the bytes of the buffers joined -/

namespace SyncReader

variable {size : Nat}

/-- What was stored in `tail` so far. -/
def stored (r : SyncReader) : List UInt8 := r.tail.load 0 r.tailLen.toNat

theorem length_stored (r : SyncReader) : r.stored.length = r.tailLen.toNat :=
  ByteMem.length_load _ _ _

theorem load_store_append (m : ByteMem) (n : Nat) (bs : List UInt8) :
    (m.store n bs).load 0 (n + bs.length) = m.load 0 n ++ bs := by
  rw [ByteMem.load_add, Nat.zero_add, ByteMem.load_store_self,
    ByteMem.load_store_of_disjoint (.inl (Nat.le_of_eq (Nat.zero_add n)))]

/-- A buffer stored before the next one is loaded. The length of `tail` does not overflow. -/
theorem stored_nextBuf {r r' : SyncReader} (h : r.nextBuf = some r')
    (hlen : r.buffer.length + r.tailLen.toNat < 256) :
    r'.stored = r.stored ++ r.buffer ∧ r.rest = r'.buffer :: r'.rest := by
  obtain ⟨buffer, rest, tail, tailLen⟩ := r
  rcases rest with _ | ⟨next, rest⟩
  · cases h
  · obtain rfl := Option.some.inj h
    refine ⟨?_, rfl⟩
    have hnat : (tailLen + UInt8.ofNat buffer.length).toNat = tailLen.toNat + buffer.length := by
      dsimp only at hlen
      rw [UInt8.toNat_add, UInt8.toNat_ofNat', Nat.mod_eq_of_lt (by omega : buffer.length < 2 ^ 8),
        Nat.mod_eq_of_lt (by omega)]
    rw [stored, hnat, load_store_append]
    rfl

/-- The bytes that are taken once there are enough. -/
theorem take_eq {r : SyncReader} (htail : r.tailLen.toNat ≤ size)
    (hlen : ¬ r.buffer.length + r.tailLen.toNat < size) :
    (r.take size).1 = r.stored ++ r.buffer.take (size - r.tailLen.toNat) ∧
      (r.take size).2.buffer = r.buffer.drop (size - r.tailLen.toNat) ∧
      (r.take size).2.rest = r.rest := by
  unfold take
  split
  next =>
    have hstored : (r.buffer.take (size - r.tailLen.toNat)).length = size - r.tailLen.toNat := by
      rw [List.length_take]
      omega
    refine ⟨?_, rfl, rfl⟩
    have hload := load_store_append r.tail r.tailLen.toNat
      (r.buffer.take (size - r.tailLen.toNat))
    rw [hstored, Nat.add_sub_cancel' htail] at hload
    exact hload
  next hzero =>
    have hnil : r.stored = [] := by
      rw [← List.length_eq_zero_iff, length_stored]
      exact Nat.eq_zero_of_not_pos hzero
    exact ⟨by rw [hnil, List.nil_append], rfl, rfl⟩

/-- A loop ends within as many rounds as there are buffers, and what it takes is what
`cutBytes` takes. -/
theorem load_eq (hsize : size < 256) : ∀ {rounds : Nat} {r : SyncReader},
    r.rest.length < rounds → r.tailLen.toNat ≤ size →
    (cutBytes size r.stored r.buffer r.rest = none → r.load size rounds = .noBuffer) ∧
    ∀ {bs buffer rest}, cutBytes size r.stored r.buffer r.rest = some (bs, buffer, rest) →
      ∃ r', r.load size rounds = .loaded r' ∧ (r'.take size).1 = bs ∧
        (r'.take size).2.buffer = buffer ∧ (r'.take size).2.rest = rest
  | 0, r, hrounds, _ => absurd hrounds (Nat.not_lt_zero _)
  | rounds + 1, r, hrounds, htail => by
    by_cases hlen : r.buffer.length + r.tailLen.toNat < size
    · rw [load, if_pos hlen]
      cases hnext : r.nextBuf with
      | none =>
        have hrest : r.rest = [] := by
          rw [nextBuf] at hnext
          split at hnext
          next h => exact h
          next => cases hnext
        rw [hrest, cutBytes, length_stored, if_pos hlen]
        exact ⟨fun _ => rfl, by simp⟩
      | some r' =>
        obtain ⟨hstored, hrest⟩ := stored_nextBuf hnext (hlen.trans hsize)
        have hcut : cutBytes size r.stored r.buffer r.rest =
            cutBytes size r'.stored r'.buffer r'.rest := by
          rw [hrest, cutBytes, length_stored, if_pos hlen, hstored]
        rw [hcut]
        refine load_eq hsize ?_ ?_
        · rw [hrest, List.length_cons] at hrounds
          exact Nat.lt_of_succ_lt_succ hrounds
        · have hlength := congrArg List.length hstored
          rw [length_stored, List.length_append, length_stored] at hlength
          omega
    · rw [load, if_neg hlen]
      obtain ⟨hbs, hbuffer, hrest⟩ := take_eq htail hlen
      have hcut : cutBytes size r.stored r.buffer r.rest =
          some ((r.take size).1, (r.take size).2.buffer, (r.take size).2.rest) := by
        rw [hbs, hbuffer, hrest, ← length_stored]
        rw [← length_stored] at hlen
        cases r.rest with
        | nil => rw [cutBytes, if_neg hlen]
        | cons next rest => rw [cutBytes, if_neg hlen]
      rw [hcut]
      refine ⟨by simp, fun h => ?_⟩
      cases h
      exact ⟨r, rfl, rfl, rfl, rfl⟩

/-- What is read with `tail` empty, from the bytes of all buffers together. -/
theorem load_payload (hsize : size < 256) {rounds : Nat} (buffer : List UInt8)
    {rest : List (List UInt8)} (tail : ByteMem) (hrounds : rest.length < rounds) :
    ((buffer ++ rest.flatten).length < size →
      (mk buffer rest tail 0).load size rounds = .noBuffer) ∧
    (size ≤ (buffer ++ rest.flatten).length → ∃ r,
      (mk buffer rest tail 0).load size rounds = .loaded r ∧
      (r.take size).1 = (buffer ++ rest.flatten).take size ∧
      (r.take size).2.buffer ++ (r.take size).2.rest.flatten = (buffer ++ rest.flatten).drop size ∧
      (r.take size).2.rest.length < rounds) := by
  obtain ⟨hnone, hsome⟩ := load_eq (r := mk buffer rest tail 0) hsize hrounds (Nat.zero_le size)
  refine ⟨fun h => hnone (cutBytes_nil_eq_none h), fun h => ?_⟩
  obtain ⟨buffer', rest', hcut, hdrop⟩ := cutBytes_nil_eq_some h
  obtain ⟨r, hload, hbs, hbuffer, hrest⟩ := hsome hcut
  refine ⟨r, hload, hbs, ?_, ?_⟩
  · rw [hbuffer, hrest]
    exact hdrop
  · rw [hrest]
    exact (length_of_cutBytes hcut).trans_lt hrounds

end SyncReader

/-! ## The records of the payload -/

section Payload

variable (processConn : List UInt8 → Dp Int)

/-- The records are those of the payload. -/
theorem processRecords_eq {rounds : Nat} : ∀ (connCount : Nat) (r : SyncReader),
    r.rest.length < rounds →
    processRecords processConn rounds connCount r = (do
      processPayloadRecords processConn connCount
        (payloadRecords connCount (r.buffer ++ r.rest.flatten))
      pure true)
  | 0, _, _ => rfl
  | connCount + 1, r, hrounds => by
    have hsize : sizeofStateSyncConn.toNat = 36 := rfl
    have h36 : 36 < 256 := by decide
    obtain ⟨hshort, henough⟩ := SyncReader.load_payload h36 r.buffer r.tail hrounds
    rw [processRecords, payloadRecords, hsize]
    by_cases hlen : (r.buffer ++ r.rest.flatten).length < 36
    · rw [if_pos hlen, hshort hlen]
      rfl
    · obtain ⟨r', hload, hbs, hdrop, hrest⟩ := henough (Nat.not_lt.mp hlen)
      rw [if_neg hlen, hload, ← hbs, ← hdrop, processPayloadRecords]
      simp only [bind_assoc]
      congr 1
      funext rc
      split
      · rfl
      · exact processRecords_eq connCount _ hrest

/-- The whole function, on the bytes of all buffers together. -/
theorem alvsStateSyncBackupBuffers_eq {rounds : Nat} {buffer : List UInt8}
    {rest : List (List UInt8)} (tail : ByteMem) (hrounds : rest.length < rounds) :
    alvsStateSyncBackupBuffers processConn rounds buffer rest tail = (do
      processPayload processConn (buffer ++ rest.flatten)
      pure true) := by
  have hsize : sizeofStateSyncHeader.toNat = 8 := rfl
  have h8 : 8 < 256 := by decide
  obtain ⟨hshort, henough⟩ := SyncReader.load_payload h8 buffer tail hrounds
  rw [alvsStateSyncBackupBuffers, processPayload, bind_assoc]
  congr 1
  funext app
  rcases app with _ | app
  · rfl
  dsimp only
  split
  · rfl
  by_cases hlen : (buffer ++ rest.flatten).length < 8
  · rw [hsize, if_pos hlen, hshort hlen]
  · obtain ⟨r, hload, hbs, hdrop, hrest⟩ := henough (Nat.not_lt.mp hlen)
    rw [hsize, if_neg hlen, hload, ← hbs, ← hdrop]
    dsimp only
    split
    · rfl
    split
    · exact processRecords_eq processConn _ _ hrest
    · rfl

/-- However a payload is cut into buffers, the records are processed with the same bytes as in
one buffer and the message ends the same way. No loop runs on when there are no more buffers,
whatever number of records the header announces. -/
theorem stateSyncBackup_split (buffer : List UInt8) (rest : List (List UInt8))
    (tail tail' : ByteMem) :
    ∃ p : Dp Unit,
      (∀ rounds, rest.length < rounds →
        alvsStateSyncBackupBuffers processConn rounds buffer rest tail = (do p; pure true)) ∧
      ∀ rounds, 0 < rounds →
        alvsStateSyncBackupBuffers processConn rounds (buffer ++ rest.flatten) [] tail' =
          (do p; pure true) := by
  refine ⟨processPayload processConn (buffer ++ rest.flatten), ?_, ?_⟩
  · exact fun rounds hrounds => alvsStateSyncBackupBuffers_eq processConn tail hrounds
  · intro rounds hrounds
    have hone : alvsStateSyncBackupBuffers processConn rounds (buffer ++ rest.flatten) [] tail' =
        (do processPayload processConn (buffer ++ rest.flatten ++ [].flatten); pure true) :=
      alvsStateSyncBackupBuffers_eq processConn tail' hrounds
    rwa [List.flatten_nil, List.append_nil] at hone

end Payload

/-! ## The message that is read first -/

theorem readConns_eq_payload : ∀ (n : Nat) (buffer : List UInt8) (rest : List (List UInt8)),
    readConns n buffer rest = (payloadRecords n (buffer ++ rest.flatten)).map StateSyncConn.read
  | 0, _, _ => rfl
  | n + 1, buffer, rest => by
    have hsize : sizeofStateSyncConn.toNat = 36 := rfl
    rw [readConns, payloadRecords, hsize]
    by_cases hlen : (buffer ++ rest.flatten).length < 36
    · rw [if_pos hlen, cutBytes_nil_eq_none hlen]
      rfl
    · obtain ⟨buffer', rest', hcut, hdrop⟩ := cutBytes_nil_eq_some (Nat.not_lt.mp hlen)
      rw [if_neg hlen, hcut]
      dsimp only
      rw [readConns_eq_payload n buffer' rest', hdrop]
      rfl

theorem processConns_map_read : ∀ (n : Nat) (l : List (List UInt8)),
    alvsStateSyncProcessConns n (l.map StateSyncConn.read) =
      processPayloadRecords (fun bs => alvsStateSyncProcessConn (.read bs)) n l
  | 0, _ => rfl
  | _ + 1, [] => rfl
  | n + 1, bs :: l => by
    rw [List.map_cons, alvsStateSyncProcessConns, processPayloadRecords,
      processConns_map_read n l]

/-- The model that reads the whole message first does what the function does on the bytes. -/
theorem alvsStateSyncBackup_read {rounds : Nat} {buffer : List UInt8} {rest : List (List UInt8)}
    (tail : ByteMem) (hrounds : rest.length < rounds) :
    alvsStateSyncBackupBuffers (fun bs => alvsStateSyncProcessConn (.read bs)) rounds buffer rest
      tail = (do
        alvsStateSyncBackup (.read buffer rest)
        pure true) := by
  rw [alvsStateSyncBackupBuffers_eq _ tail hrounds]
  congr 1
  have hsize : sizeofStateSyncHeader.toNat = 8 := rfl
  rw [processPayload, alvsStateSyncBackup, SyncMessage.read, hsize]
  congr 1
  funext app
  rcases app with _ | app
  · rfl
  dsimp only
  split
  · rfl
  by_cases hlen : (buffer ++ rest.flatten).length < 8
  · rw [if_pos hlen, cutBytes_nil_eq_none hlen]
  · obtain ⟨buffer', rest', hcut, hdrop⟩ := cutBytes_nil_eq_some (Nat.not_lt.mp hlen)
    rw [if_neg hlen, hcut]
    dsimp only
    rw [readConns_eq_payload, hdrop, processConns_map_read]

end Alvs
