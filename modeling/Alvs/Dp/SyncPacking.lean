import Alvs.Dp.Quiet
import Alvs.Dp.SyncBytes

/-!
# The sync frames of an aging event

An aging event of a master packs the records of connections into buffers, the buffers into
frames and gives the frames to the network. `syncWatch` follows a path : the records that
were passed to `alvs_state_sync_aggr`, the frame that is built and the frames that were
given. `Packing` relates this to the state that the thread keeps in its memory, and each
function of `alvs_state_sync_master.h` keeps it.

`syncAggregation_lossless` : the frames of an event have the records that were passed, each
once and in order; the fields of their headers are right, no buffer is too long, no frame
has more than five buffers, no `assert` fails, and the counters of the thread do not wrap.
-/

namespace Alvs

open ProgLogic LProg

/-! ## Watching the sync frames -/

/-- The record of a connection whose server is `info`. -/
def ConnInfoResult.syncRecord (c : ConnInfoResult) (info : ServerInfoResult) : StateSyncConn :=
  alvsStateSyncSetSyncConn { Cmem.zero with connInfoResult := c, serverInfoResult := info }

theorem setSyncConn_eq_syncRecord (m : Cmem) :
    alvsStateSyncSetSyncConn m = m.connInfoResult.syncRecord m.serverInfoResult := rfl

theorem syncRecord_of_unbound {c : ConnInfoResult} (h : c.bound = false)
    (info info' : ServerInfoResult) : c.syncRecord info = c.syncRecord info' := by
  simp [ConnInfoResult.syncRecord, alvsStateSyncSetSyncConn, h]

/-- Append a buffer. -/
def SyncFrame.append (f : SyncFrame) (b : SyncBuffer) : SyncFrame :=
  { f with buffers := f.buffers ++ [b] }

/-- Write the lengths of the headers for `n` records. -/
def SyncFrame.storeHeaders (f : SyncFrame) (n : UInt8) : SyncFrame := { f with stored := some n }

/-- What is seen of the sync frames of a job. `master` : its lookup of the application
information found the master bit. `passed` : the records of the connections that were aged
out by a master and whose server, if they are bound, was found; `pending` is one whose
server has not been looked up yet. `frame` is the frame that the job builds, `given` the
frames given to `nw_send_frame_to_network`, and `sent` what was transmitted, with `master`
then. `refused` : a call that synchronisation needs has failed; `dropped` : an interface was
not found. -/
structure SyncWatch where
  master : Bool
  pending : Option ConnInfoResult
  passed : List StateSyncConn
  frame : Option SyncFrame
  given : List SyncFrame
  sent : List (Option SyncFrame × Bool)
  refused : Bool
  dropped : Bool
  assertFailed : Bool
  deriving DecidableEq

namespace SyncWatch

/-- The job has just started. -/
def start : SyncWatch := ⟨false, none, [], none, [], [], false, false, false⟩

/-- A master has aged out a connection. The record of an unbound one needs no server. -/
def pass (w : SyncWatch) (c : ConnInfoResult) : SyncWatch :=
  if c.bound then { w with pending := some c }
  else { w with pending := none, passed := w.passed ++ [c.syncRecord Cmem.zero.serverInfoResult] }

/-- The result of a lookup of a server. -/
def lookup (w : SyncWatch) (info : Option ServerInfoResult) : SyncWatch :=
  match w.pending, info with
  | some c, some info => { w with pending := none, passed := w.passed ++ [c.syncRecord info] }
  | some _, none => { w with pending := none, refused := true }
  | none, _ => w

def next (w : SyncWatch) : DpEvent → SyncWatch
  | ⟨.appInfoLookup, app⟩ =>
    if app.any (·.masterBit) then { w with master := true } else { w with refused := true }
  | ⟨.connInfoModify _ c, true⟩ => if w.master then w.pass c else w
  | ⟨.serverInfoLookup _, info⟩ => w.lookup info
  | ⟨.frameNew headers conns len, true⟩ =>
    { w with frame := some ⟨headers, none, [⟨conns, len⟩]⟩ }
  | ⟨.frameAppendBuf conns len, true⟩ => { w with frame := w.frame.map (·.append ⟨conns, len⟩) }
  | ⟨.frameNew _ _ _, false⟩ | ⟨.frameAppendBuf _ _, false⟩ | ⟨.frameFirstBuf, false⟩ =>
    { w with refused := true }
  | ⟨.frameStoreHeaders n, _⟩ => { w with frame := w.frame.map (·.storeHeaders n) }
  | ⟨.hashDestMac, _⟩ => { w with given := w.given ++ w.frame.toList }
  | ⟨.interfaceLookup _, none⟩ => { w with dropped := true }
  | ⟨.frameSendToIf _, _⟩ => { w with sent := w.sent ++ [(w.frame, w.master)] }
  | ⟨.assertion false, _⟩ => { w with assertFailed := true }
  | _ => w

/-- Every call that synchronisation needs has succeeded so far. -/
def Ok (w : SyncWatch) : Prop := w.refused = false

theorem Ok.of_next {w : SyncWatch} {ev : DpEvent} (h : (w.next ev).Ok) : w.Ok := by
  unfold Ok next at *
  split at h
  case h_1 => split at h <;> simp_all
  case h_2 =>
    unfold pass at h
    split at h
    · split at h <;> exact h
    · exact h
  case h_3 =>
    unfold lookup at h
    split at h <;> simp_all
  all_goals simp_all

end SyncWatch

/-- What is seen of a path. -/
def syncWatch (tr : List DpEvent) : SyncWatch := tr.foldl SyncWatch.next .start

/-- Paths on which the calls that synchronisation needs succeed. -/
abbrev syncSpec : Spec DpCall DpCall.Res SyncWatch := Prog.watchSpec SyncWatch.next SyncWatch.Ok

/-! ## Functions that leave the sync frames alone -/

/-- A call that does not change what is seen, as long as no server is to be looked up. -/
def DpCall.KeepsSync : DpCall → Prop
  | appInfoLookup | connInfoModify _ _ | frameNew _ _ _ | frameAppendBuf _ _ | frameFirstBuf
  | frameStoreHeaders _ | hashDestMac | interfaceLookup _ | frameSendToIf _ | assertion _ => False
  | _ => True

/-- No server is to be looked up. -/
def SyncWatch.Settled (w : SyncWatch) : Prop := w.pending = none

theorem next_of_keepsSync {w : SyncWatch} (hw : w.Settled) {op : DpCall} (hop : op.KeepsSync)
    (r : op.Res) : w.next ⟨op, r⟩ = w := by
  cases op <;>
    first
    | exact hop.elim
    | simp [SyncWatch.next, SyncWatch.lookup, show w.pending = none from hw]

theorem silentOn_keepsSync {ok : SyncWatch → Prop} :
    SilentOn (Prog.watchSpec SyncWatch.next ok) SyncWatch.Settled DpCall.KeepsSync := by
  rintro w op hw hop
  refine ⟨trivial, ?_⟩
  rintro r w' ⟨rfl, -⟩
  exact next_of_keepsSync hw hop r

/-- The state of the sync frame is the same. -/
def Cmem.SameSync (l l' : Cmem) : Prop := l'.connSyncState = l.connSyncState

instance : Std.Refl Cmem.SameSync := ⟨fun _ => rfl⟩

instance : IsTrans Cmem Cmem.SameSync := ⟨fun _ _ _ h h' => h'.trans h⟩

/-- From any memory, the program leaves the sync frames alone. -/
abbrev KeepsSync {α : Type} (x : Dp α) : Prop := x.Makes DpCall.KeepsSync Cmem.SameSync

theorem keepsSync_serverInfoLookup (i : UInt32) : KeepsSync (alvsServerInfoLookup i) := by
  refine .bind (.of_call trivial) fun r => ?_
  split
  · exact .of_pure _
  · exact .bind (.of_modify fun _ => rfl) fun _ => .of_pure _

theorem keepsSync_connInfoLookup (site : ConnSite) (i : UInt32) :
    KeepsSync (alvsConnInfoLookup site i) := by
  refine .bind (.of_call trivial) fun r => ?_
  split
  · exact .of_pure _
  · exact .bind (.of_modify fun _ => rfl) fun _ => .of_pure _

theorem keepsSync_connReleaseServer (c : ConnInfoResult) : KeepsSync (alvsConnReleaseServer c) := by
  have hstats : ∀ s a i, KeepsSync (alvsUpdateConnectionStatistics s a i) := fun _ _ _ =>
    .get_bind fun _ => .bind (.of_call trivial) fun _ => .bind (.of_call trivial) fun _ =>
      .bind (.of_call trivial) fun _ => .of_call trivial
  refine .bind (keepsSync_serverInfoLookup _) fun _ => .ite (.bind (.ite ?_ ?_) fun _ =>
    .get_bind fun _ => .bind (.of_call trivial) fun _ => .ite (.of_call trivial) ?_) (.of_pure _)
  · exact hstats _ _ _
  · exact hstats _ _ _
  · exact .ite (.ite (.of_call trivial) (.of_pure _)) (.ite (.of_call trivial) (.of_pure _))

theorem keepsSync_agingDelete (iter : UInt8) (i : UInt32) : KeepsSync (alvsAgingDelete iter i) := by
  refine .bind (.of_modify fun _ => rfl) fun _ => .bind (.get_bind fun _ => .of_call trivial)
    fun _ => .bind ?_ fun _ => .of_call trivial
  exact .get_bind fun _ => .bind (.of_call trivial) fun _ => .ite (.bind (.of_call trivial) fun _ =>
    .ite (.bind (keepsSync_connReleaseServer _) fun _ => .of_call trivial) (.of_pure _))
      (.of_pure _)

/-! ## A frame that is being filled -/

/-- The buffers are full : three records in the first, seven in each other one. -/
structure FullBuffers (bs : List SyncBuffer) : Prop where
  first : ∀ b ∈ bs.head?, b.conns.length = 3 ∧ b.len.toNat = 158
  later : ∀ b ∈ bs.tail, b.conns.length = 7 ∧ b.len.toNat = 252

/-- The thread has a frame whose full buffers are `done`, and a buffer that it fills. The
length that the thread counts for the first buffer includes the headroom. -/
structure Room (h : SyncFrameHeaders) (st : ConnSyncState) (frame : Option SyncFrame)
    (done : List SyncBuffer) : Prop where
  frame : done ≠ [] → frame = some ⟨h, none, done⟩
  headers : st.headers = h
  amount : st.amountBuffers.toNat = done.length + 1
  limit : done.length < 5
  full : FullBuffers done
  count : st.connCount.toNat = (done.flatMap (·.conns)).length + st.conns.length
  len : st.currentLen.toNat = (if done = [] then 114 else 0) + 36 * st.conns.length
  fits : st.currentLen.toNat ≤ ezframeBufDataSize

/-- The buffer has a record. -/
structure Filling (h : SyncFrameHeaders) (st : ConnSyncState) (frame : Option SyncFrame)
    (done : List SyncBuffer) : Prop extends Room h st frame done where
  nonempty : st.conns ≠ []

/-- The frame is well formed : it has at most five buffers, none longer than a buffer can be,
and the lengths and the number of records are right. -/
structure SyncFrame.Good (f : SyncFrame) (sourceIp : UInt32) (syncId : UInt8) : Prop extends
    f.Measured where
  sourceIp : f.headers.sourceIp = sourceIp
  syncId : f.headers.syncId = syncId
  limit : f.buffers.length ≤ alvsStateSyncBuffersLimit.toNat
  first_fits : ∀ b ∈ f.buffers.head?, b.len.toNat + alvsStateSyncHeadroom.toNat ≤ ezframeBufDataSize
  fits : ∀ b ∈ f.buffers, b.len.toNat ≤ ezframeBufDataSize

/-- The records of frames, in order. -/
def frameConns (fs : List SyncFrame) : List StateSyncConn := fs.flatMap (·.conns)

/-- The frames given to the network have the records `recs`. They are well formed, and
transmitted unless an interface was not found. -/
structure Given (sourceIp : UInt32) (syncId : UInt8) (passed recs : List StateSyncConn)
    (w : SyncWatch) : Prop where
  master : w.master = true
  settled : w.Settled
  passed : w.passed = passed
  good : ∀ f ∈ w.given, f.Good sourceIp syncId
  asserts : w.assertFailed = false
  sent : w.dropped = true ∨ w.sent.map Prod.fst = w.given.map some
  conns : frameConns w.given = recs

/-- The frames given to the network and the one that is being filled have the records
`recs`. -/
inductive Packing (sourceIp : UInt32) (syncId : UInt8) (passed recs : List StateSyncConn)
    (st : ConnSyncState) (w : SyncWatch) : Prop
  | closed (h : st.amountBuffers = 0) (hw : Given sourceIp syncId passed recs w)
  | filling (recs' : List StateSyncConn) (done : List SyncBuffer)
      (hw : Given sourceIp syncId passed recs' w)
      (h : Filling ⟨sourceIp, syncId, 1⟩ st w.frame done)
      (hrecs : recs' ++ (done.flatMap (·.conns) ++ st.conns) = recs)

/-- The number of records in full buffers. -/
theorem FullBuffers.length_conns {bs : List SyncBuffer} (h : FullBuffers bs) (hne : bs ≠ []) :
    (bs.flatMap (·.conns)).length + 4 = 7 * bs.length := by
  cases bs with
  | nil => exact absurd rfl hne
  | cons b bs =>
    have hb : b.conns.length = 3 := (h.first b rfl).1
    have hlater : ∀ bs' : List SyncBuffer, (∀ b' ∈ bs', b'.conns.length = 7) →
        (bs'.flatMap (·.conns)).length = 7 * bs'.length := fun bs' hbs' => by
      induction bs' with
      | nil => rfl
      | cons b' bs' ih =>
        rw [List.flatMap_cons, List.length_append, hbs' b' List.mem_cons_self,
          ih (List.forall_mem_cons.mp hbs').2, List.length_cons]
        omega
    rw [List.flatMap_cons, List.length_append, hb, hlater bs fun b' hb' => (h.later b' hb').1,
      List.length_cons]
    omega

section Steps

variable {ip : UInt32} {id : UInt8} {passed recs : List StateSyncConn} {h : SyncFrameHeaders}
  {done : List SyncBuffer} {l : Cmem} {w : SyncWatch}

theorem Given.withFrame (hw : Given ip id passed recs w) (f : Option SyncFrame) :
    Given ip id passed recs { w with frame := f } :=
  ⟨hw.master, hw.settled, hw.passed, hw.good, hw.asserts, hw.sent, hw.conns⟩

theorem Given.drop (hw : Given ip id passed recs w) :
    Given ip id passed recs { w with dropped := true } :=
  ⟨hw.master, hw.settled, hw.passed, hw.good, hw.asserts, .inl rfl, hw.conns⟩

/-- The memory after the current buffer was added to the frame. -/
def Cmem.bufferAdded (l : Cmem) : Cmem :=
  { l with connSyncState :=
    { l.connSyncState with
      amountBuffers := l.connSyncState.amountBuffers + 1
      currentLen := 0
      conns := [] } }

/-- The current buffer, without the headroom. -/
def ConnSyncState.buffer (st : ConnSyncState) (done : List SyncBuffer) : SyncBuffer :=
  ⟨st.conns, (if done = [] then st.currentLen - alvsStateSyncHeadroom else st.currentLen).toUInt32⟩

theorem Room.amount_eq_one (hf : Room h l.connSyncState w.frame done) :
    l.connSyncState.amountBuffers = 1 ↔ done = [] := by
  rw [← UInt8.toNat_inj, hf.amount, ← List.length_eq_zero_iff]
  simp

theorem Room.amount_ne_zero (hf : Room h l.connSyncState w.frame done) :
    l.connSyncState.amountBuffers ≠ 0 := fun h0 => by
  have hamount := hf.amount
  rw [h0] at hamount
  exact absurd hamount (Nat.succ_ne_zero _).symm

/-- The count of buffers does not wrap. -/
theorem Room.one_lt_bufferAdded (hf : Room h l.connSyncState w.frame done) :
    1 < l.bufferAdded.connSyncState.amountBuffers := by
  have hlimit := hf.limit
  rw [UInt8.lt_iff_toNat_lt]
  change 1 < (l.connSyncState.amountBuffers + 1).toNat
  rw [UInt8.toNat_add, hf.amount]
  change 1 < (done.length + 1 + 1) % 256
  omega

theorem Filling.len_pos (hf : Filling h l.connSyncState w.frame done) :
    0 < l.connSyncState.currentLen := by
  have hpos : 0 < l.connSyncState.conns.length := List.length_pos_iff.mpr hf.nonempty
  rw [UInt8.lt_iff_toNat_lt, hf.len]
  exact Nat.lt_add_left _ (Nat.mul_pos (by decide) hpos)

theorem wp_addBuffer (hf : Filling h l.connSyncState w.frame done)
    (hw : Given ip id passed recs w) :
    alvsStateSyncAddBuffer.wp syncSpec (fun added l' w' => added = true ∧ l' = l.bufferAdded ∧
      Given ip id passed recs w' ∧
      w'.frame = some ⟨h, none, done ++ [l.connSyncState.buffer done]⟩) l w := by
  have hamount := hf.amount
  have hlimit := hf.limit
  have hassert : (0 < l.connSyncState.amountBuffers ∧
      l.connSyncState.amountBuffers ≤ alvsStateSyncBuffersLimit) := by
    constructor
    · rw [UInt8.lt_iff_toNat_lt, hamount]
      exact Nat.succ_pos _
    · rw [UInt8.le_iff_toNat_le, hamount]
      exact hlimit
  simp only [alvsStateSyncAddBuffer, wp_bind, wp_get, wp_call]
  refine ⟨trivial, ?_⟩
  rintro _ w' ⟨rfl, -⟩
  have hnext : w.next ⟨.assertion (decide (0 < l.connSyncState.amountBuffers ∧
      l.connSyncState.amountBuffers ≤ alvsStateSyncBuffersLimit)), ()⟩ = w := by
    rw [decide_eq_true hassert]
    rfl
  rw [hnext]
  by_cases hdone : done = []
  · rw [if_pos (hf.amount_eq_one.mpr hdone), wp_call]
    refine ⟨trivial, ?_⟩
    rintro (_ | _) w' ⟨rfl, hok⟩
    · exact absurd hok (by simp [SyncWatch.Ok, SyncWatch.next])
    · refine ⟨rfl, rfl, hw.withFrame _, ?_⟩
      rw [hf.headers, hdone]
      rfl
  · have hone : ¬ l.connSyncState.amountBuffers = 1 := fun h1 => hdone (hf.amount_eq_one.mp h1)
    rw [if_neg hone]
    simp only [alvsStateSyncAppendBuf, wp_bind, wp_call]
    refine ⟨trivial, ?_⟩
    rintro (_ | _) w' ⟨rfl, hok⟩
    · exact absurd hok (by simp [SyncWatch.Ok, SyncWatch.next])
    · refine ⟨rfl, rfl, hw.withFrame _, ?_⟩
      simp only [SyncWatch.next, hf.frame hdone, Option.map_some, SyncFrame.append,
        ConnSyncState.buffer, if_neg hdone]

/-- The length of the current buffer in its frame. -/
theorem Room.buffer_len (hf : Room h l.connSyncState w.frame done) :
    (l.connSyncState.buffer done).len.toNat =
      (if done = [] then 50 else 0) + 36 * l.connSyncState.conns.length := by
  have hlen := hf.len
  have hfits := hf.fits
  unfold ConnSyncState.buffer
  rw [UInt8.toNat_toUInt32]
  by_cases hdone : done = []
  · rw [if_pos hdone] at hlen
    have hle : alvsStateSyncHeadroom ≤ l.connSyncState.currentLen := by
      rw [UInt8.le_iff_toNat_le, hlen]
      exact Nat.le_add_right_of_le (by decide)
    rw [if_pos hdone, if_pos hdone, UInt8.toNat_sub_of_le _ _ hle, hlen]
    change 114 + 36 * l.connSyncState.conns.length - 64 = _
    omega
  · rw [if_neg hdone] at hlen
    rw [if_neg hdone, if_neg hdone, hlen]

/-- The frame that is given to the network. -/
def ConnSyncState.fullFrame (st : ConnSyncState) (h : SyncFrameHeaders) (done : List SyncBuffer) :
    SyncFrame :=
  ⟨h, if 1 < st.connCount then some st.connCount else none, done ++ [st.buffer done]⟩

theorem fullFrame_conns (st : ConnSyncState) : (st.fullFrame h done).conns =
    done.flatMap (·.conns) ++ st.conns := by
  simp [SyncFrame.conns, ConnSyncState.fullFrame, ConnSyncState.buffer]

/-- The headers of the frame are for the number of its records. -/
theorem Filling.connCount_eq (hf : Filling ⟨ip, id, 1⟩ l.connSyncState w.frame done) :
    (l.connSyncState.fullFrame ⟨ip, id, 1⟩ done).connCount = l.connSyncState.connCount := by
  have hpos : 0 < l.connSyncState.conns.length := List.length_pos_iff.mpr hf.nonempty
  have hcount := hf.count
  unfold SyncFrame.connCount ConnSyncState.fullFrame
  simp only
  split
  · rfl
  next hle =>
    have hle' : l.connSyncState.connCount.toNat ≤ 1 := by
      rw [UInt8.lt_iff_toNat_lt] at hle
      exact Nat.not_lt.mp hle
    apply UInt8.toNat_inj.mp
    rw [Option.getD_none]
    change 1 = _
    omega

theorem Filling.good (hf : Filling ⟨ip, id, 1⟩ l.connSyncState w.frame done) :
    (l.connSyncState.fullFrame ⟨ip, id, 1⟩ done).Good ip id := by
  have hbuf := hf.buffer_len
  have hlen := hf.len
  have hfits : l.connSyncState.currentLen.toNat ≤ 256 := hf.fits
  have hlimit := hf.limit
  have hcount : (l.connSyncState.fullFrame ⟨ip, id, 1⟩ done).connCount.toNat =
      (l.connSyncState.fullFrame ⟨ip, id, 1⟩ done).conns.length := by
    rw [hf.connCount_eq, hf.count, fullFrame_conns, List.length_append]
  have hbuffers : (l.connSyncState.fullFrame ⟨ip, id, 1⟩ done).buffers.length ≤ 5 := by
    simp only [ConnSyncState.fullFrame, List.length_append, List.length_singleton]
    omega
  have hnonempty : (l.connSyncState.fullFrame ⟨ip, id, 1⟩ done).buffers ≠ [] := by
    simp [ConnSyncState.fullFrame]
  cases hdone : done with
  | nil =>
    subst hdone
    rw [if_pos rfl] at hbuf hlen
    have hfirst : (l.connSyncState.buffer []).len.toNat + 64 ≤ 256 := by omega
    refine ⟨⟨hnonempty, ?_, nofun, hcount⟩, rfl, rfl, hbuffers, ?_, ?_⟩
    · rintro b ⟨⟩
      exact hbuf
    · rintro b ⟨⟩
      exact hfirst
    · intro b hb
      rw [List.mem_singleton.mp hb]
      exact Nat.le_of_add_right_le hfirst
  | cons b₀ bs =>
    subst hdone
    rw [if_neg (List.cons_ne_nil b₀ bs)] at hbuf hlen
    obtain ⟨h₀, h₀'⟩ := hf.full.first b₀ rfl
    have hlater : ∀ b ∈ bs ++ [l.connSyncState.buffer (b₀ :: bs)],
        b.len.toNat = 36 * b.conns.length ∧ b.len.toNat ≤ 256 := by
      intro b hb
      rcases List.mem_append.mp hb with hb | hb
      · obtain ⟨hb₁, hb₂⟩ := hf.full.later b hb
        omega
      · rw [List.mem_singleton.mp hb]
        refine ⟨?_, by omega⟩
        change _ = 36 * l.connSyncState.conns.length
        omega
    refine ⟨⟨hnonempty, ?_, fun b hb => (hlater b hb).1, hcount⟩, rfl, rfl, hbuffers, ?_, ?_⟩
    · rintro b ⟨⟩
      omega
    · rintro b ⟨⟩
      change b₀.len.toNat + 64 ≤ 256
      omega
    · intro b hb
      change b.len.toNat ≤ 256
      rcases List.mem_cons.mp hb with rfl | hb
      · omega
      · exact (hlater b hb).2

/-! ## Sending a frame -/

/-- The program keeps the state of the sync frame and the record of the connection. -/
structure Cmem.SameRecord (l l' : Cmem) : Prop where
  sync : l'.connSyncState = l.connSyncState
  record : alvsStateSyncSetSyncConn l' = alvsStateSyncSetSyncConn l

theorem wp_interfaceLookup (logicalId : UInt32) (l : Cmem) (w : SyncWatch) :
    (nwInterfaceLookup logicalId).wp syncSpec (fun found l' w' => l.SameRecord l' ∧
      w' = if found then w else { w with dropped := true }) l w := by
  simp only [nwInterfaceLookup, wp_bind, wp_call]
  refine ⟨trivial, ?_⟩
  rintro (_ | r) w' ⟨rfl, -⟩
  · exact ⟨⟨rfl, rfl⟩, rfl⟩
  · exact ⟨⟨rfl, rfl⟩, rfl⟩

/-- The frame is transmitted unless its interface is not found. -/
theorem wp_sendFrame (logicalId : UInt32) {f : SyncFrame} (hw : Given ip id passed recs w)
    (hf : w.frame = some f) (hgood : f.Good ip id) :
    (nwSendFrameToNetwork logicalId).wp syncSpec (fun _ l' w' =>
      l.SameRecord l' ∧ Given ip id passed (recs ++ f.conns) w') l w := by
  have hgiven : ∀ f' ∈ w.given ++ [f], f'.Good ip id := fun f' hf' => by
    rcases List.mem_append.mp hf' with hf' | hf'
    · exact hw.good f' hf'
    · exact List.mem_singleton.mp hf' ▸ hgood
  have hconns : frameConns (w.given ++ [f]) = recs ++ f.conns := by
    rw [frameConns, List.flatMap_append, ← hw.conns, List.flatMap_singleton]
    rfl
  have hnext : ∀ r, w.next ⟨.hashDestMac, r⟩ = { w with given := w.given ++ [f] } := fun r => by
    simp only [SyncWatch.next, hf, Option.toList_some]
  simp only [nwSendFrameToNetwork, wp_bind, wp_call]
  refine ⟨trivial, ?_⟩
  rintro r w' ⟨rfl, -⟩
  rw [hnext]
  refine wp_mono (wp_interfaceLookup _ l _) ?_
  rintro (_ | _) l' w' ⟨hl, rfl⟩
  · simp only [Bool.false_eq_true, if_false, alvsDiscardAndStats, alvsUpdateDiscardStatistics,
      alvsDiscardFrame, wp_bind, wp_call]
    refine ⟨trivial, ?_⟩
    rintro _ w' ⟨rfl, -⟩
    refine ⟨trivial, ?_⟩
    rintro _ w' ⟨rfl, -⟩
    exact ⟨hl, hw.master, hw.settled, hw.passed, hgiven, hw.asserts, .inl rfl, hconns⟩
  · simp only [if_true, wp_bind, wp_get, wp_call]
    refine ⟨trivial, ?_⟩
    rintro _ w' ⟨rfl, -⟩
    refine ⟨hl, hw.master, hw.settled, hw.passed, hgiven, hw.asserts, ?_, hconns⟩
    rcases hw.sent with hdrop | hsent
    · exact .inl hdrop
    · right
      simp only [SyncWatch.next, List.map_append, List.map_cons, List.map_nil, hsent, hf]

/-- `alvs_state_sync_send_aggr` gives the frame that is being filled to the network. -/
theorem wp_sendAggr (hw : Given ip id passed recs w)
    (hf : Filling ⟨ip, id, 1⟩ l.connSyncState w.frame done) :
    alvsStateSyncSendAggr.wp syncSpec (fun _ l' w' =>
      alvsStateSyncSetSyncConn l' = alvsStateSyncSetSyncConn l ∧
      l'.connSyncState.connSyncStatus = l.connSyncState.connSyncStatus ∧
      Given ip id passed (recs ++ (done.flatMap (·.conns) ++ l.connSyncState.conns)) w') l w := by
  simp only [alvsStateSyncSendAggr, wp_bind, wp_get]
  rw [if_pos hf.amount_ne_zero, wp_bind, if_pos hf.len_pos]
  refine wp_mono (wp_addBuffer hf hw) ?_
  rintro _ l' w' ⟨rfl, rfl, hw', hframe⟩
  simp only [if_true, wp_bind, wp_get]
  rw [if_pos hf.one_lt_bufferAdded]
  simp only [wp_bind, wp_call]
  refine ⟨trivial, ?_⟩
  rintro (_ | _) w'' ⟨rfl, hok⟩
  · exact absurd hok (by simp [SyncWatch.Ok, SyncWatch.next])
  · have hgood := hf.good
    rw [← fullFrame_conns (h := ⟨ip, id, 1⟩)]
    simp only [if_true, alvsStateSyncSendFirstBuf, wp_bind, wp_get]
    by_cases hcount : 1 < l.connSyncState.connCount
    · rw [if_pos (show 1 < l.bufferAdded.connSyncState.connCount from hcount), wp_call]
      refine ⟨trivial, ?_⟩
      rintro _ w'' ⟨rfl, -⟩
      refine wp_mono (wp_sendFrame _ (hw'.withFrame _) (f := l.connSyncState.fullFrame _ _) ?_
        hgood) fun _ l' w'' hpost => ⟨hpost.1.record, ?_, hpost.2⟩
      · simp [SyncWatch.next, hframe, SyncFrame.storeHeaders, ConnSyncState.fullFrame, hcount,
          Cmem.bufferAdded]
      · rw [hpost.1.sync]
        rfl
    · rw [if_neg (show ¬ 1 < l.bufferAdded.connSyncState.connCount from hcount), wp_pure]
      refine wp_mono (wp_sendFrame _ hw' (f := l.connSyncState.fullFrame _ _) ?_ hgood)
        fun _ l' w'' hpost => ⟨hpost.1.record, ?_, hpost.2⟩
      · simp [hframe, ConnSyncState.fullFrame, hcount]
      · rw [hpost.1.sync]
        rfl

/-! ## Adding a connection -/

/-- The memory after a new frame was started, with the headroom in the length. -/
def Cmem.frameStarted (l : Cmem) (ip : UInt32) (id : UInt8) : Cmem :=
  { l with connSyncState :=
    { l.connSyncState with
      amountBuffers := 1
      connCount := 1
      currentLen := sizeofEtherHeader + sizeofNetHdr + sizeofStateSyncHeader +
        sizeofStateSyncConn + alvsStateSyncHeadroom
      headers := ⟨ip, id, 1⟩
      conns := [alvsStateSyncSetSyncConn l] } }

theorem filling_frameStarted (frame : Option SyncFrame) :
    Filling ⟨ip, id, 1⟩ (l.frameStarted ip id).connSyncState frame [] :=
  ⟨⟨fun h => absurd rfl h, rfl, rfl, by decide, ⟨nofun, nofun⟩, rfl, rfl,
    Nat.le_of_ble_eq_true rfl⟩, List.cons_ne_nil _ _⟩

theorem wp_newFrame (hw : Given ip id passed recs w) :
    (alvsStateSyncNewFrame ip id).wp syncSpec (fun _ l' w' =>
      l'.connSyncState.connSyncStatus = l.connSyncState.connSyncStatus ∧
      Packing ip id passed (recs ++ [alvsStateSyncSetSyncConn l]) l'.connSyncState w') l w := by
  have heth : alvsStateSyncSetEthHdr.wp syncSpec (fun _ l' w' => l.SameRecord l' ∧
      Given ip id passed recs w') l w := by
    refine wp_bind_of (f := fun _ => pure ()) (wp_interfaceLookup userBaseLogicalId l w) ?_
    rintro (_ | _) l' w' ⟨hl, rfl⟩
    · exact ⟨hl, hw.drop⟩
    · exact ⟨hl, hw⟩
  simp only [alvsStateSyncNewFrame, alvsStateSyncFirst, wp_bind]
  refine wp_mono heth ?_
  rintro _ l' w' ⟨hl, hw'⟩
  rw [wp_modify, wp_modify, ← hl.record]
  exact ⟨congrArg (·.connSyncStatus) hl.sync,
    .filling recs [] hw' (filling_frameStarted (l := l') w'.frame) rfl⟩

theorem Room.length_conns_le (hf : Room h l.connSyncState w.frame done) :
    (done.flatMap (·.conns)).length ≤ 24 := by
  have hlimit := hf.limit
  by_cases hdone : done = []
  · rw [hdone]
    exact Nat.zero_le _
  · have hlen := hf.full.length_conns hdone
    omega

/-- The memory after the current connection was added to the buffer. -/
def Cmem.connAdded (l : Cmem) : Cmem :=
  { l with connSyncState :=
    { l.connSyncState with
      currentLen := l.connSyncState.currentLen + sizeofStateSyncConn
      connCount := l.connSyncState.connCount + 1
      conns := l.connSyncState.conns ++ [alvsStateSyncSetSyncConn l] } }

/-- A record that fits into the buffer is counted. -/
theorem Room.connAdded (hf : Room h l.connSyncState w.frame done)
    (hfit : l.connSyncState.currentLen.toNat + 36 ≤ ezframeBufDataSize) :
    Filling h l.connAdded.connSyncState w.frame done := by
  have hbound := hf.length_conns_le
  have hcount := hf.count
  have hlen := hf.len
  have hfit' : l.connSyncState.currentLen.toNat + 36 ≤ 256 := hfit
  refine ⟨⟨hf.frame, hf.headers, hf.amount, hf.limit, hf.full, ?_, ?_, ?_⟩,
    List.append_ne_nil_of_right_ne_nil _ (List.cons_ne_nil _ _)⟩
  · change (l.connSyncState.connCount + 1).toNat =
      _ + (l.connSyncState.conns ++ [alvsStateSyncSetSyncConn l]).length
    have hconns : l.connSyncState.conns.length ≤ 7 := by
      split at hlen <;> omega
    have hone : (1 : UInt8).toNat = 1 := rfl
    rw [UInt8.toNat_add, hcount, hone, List.length_append, List.length_singleton]
    omega
  · change (l.connSyncState.currentLen + sizeofStateSyncConn).toNat =
      _ + 36 * (l.connSyncState.conns ++ [alvsStateSyncSetSyncConn l]).length
    rw [UInt8.toNat_add, List.length_append, List.length_singleton]
    change (l.connSyncState.currentLen.toNat + 36) % 256 = _
    split <;> split at hlen <;> first | omega | contradiction
  · change (l.connSyncState.currentLen + sizeofStateSyncConn).toNat ≤ 256
    exact Nat.le_of_lt (UInt8.toNat_lt _)

theorem wp_addConn (hw : Given ip id passed recs w)
    (hf : Room ⟨ip, id, 1⟩ l.connSyncState w.frame done)
    (hfit : l.connSyncState.currentLen.toNat + 36 ≤ ezframeBufDataSize) :
    alvsStateSyncAddConn.wp syncSpec (fun _ l' w' =>
      l'.connSyncState.connSyncStatus = l.connSyncState.connSyncStatus ∧
      Packing ip id passed (recs ++ (done.flatMap (·.conns) ++
        (l.connSyncState.conns ++ [alvsStateSyncSetSyncConn l]))) l'.connSyncState w') l w := by
  rw [alvsStateSyncAddConn, wp_modify]
  exact ⟨rfl, .filling recs done hw (hf.connAdded hfit) rfl⟩

/-- A buffer with no room for another record is full. -/
theorem Filling.bufferAdded (hf : Filling h l.connSyncState w.frame done)
    (hfull : ezframeBufDataSize < l.connSyncState.currentLen.toNat + 36)
    (hlimit : l.connSyncState.amountBuffers ≠ alvsStateSyncBuffersLimit) {f : Option SyncFrame}
    (hframe : f = some ⟨h, none, done ++ [l.connSyncState.buffer done]⟩) :
    Room h l.bufferAdded.connSyncState f (done ++ [l.connSyncState.buffer done]) := by
  have hamount := hf.amount
  have hlen := hf.len
  have hbuf := hf.buffer_len
  have hfits : l.connSyncState.currentLen.toNat ≤ 256 := hf.fits
  have hfull' : 256 < l.connSyncState.currentLen.toNat + 36 := hfull
  have hlimit' : done.length + 1 < 5 := by
    have hne : l.connSyncState.amountBuffers.toNat ≠ 5 := fun h5 => hlimit (UInt8.toNat_inj.mp h5)
    have hlt := hf.limit
    omega
  refine ⟨fun _ => hframe, hf.headers, ?_, ?_, ⟨?_, ?_⟩, ?_, ?_, Nat.zero_le _⟩
  · change (l.connSyncState.amountBuffers + 1).toNat = _
    have hone : (1 : UInt8).toNat = 1 := rfl
    rw [UInt8.toNat_add, hamount, hone, List.length_append, List.length_singleton]
    omega
  · rw [List.length_append]
    exact hlimit'
  · cases hdone : done with
    | nil =>
      rw [if_pos hdone] at hbuf hlen
      rintro b ⟨⟩
      have hthree : l.connSyncState.conns.length = 3 := by omega
      rw [hdone, hthree] at hbuf
      exact ⟨hthree, hbuf⟩
    | cons b₀ bs =>
      rintro b ⟨⟩
      exact hf.full.first b₀ (by rw [hdone]; rfl)
  · cases hdone : done with
    | nil => nofun
    | cons b₀ bs =>
      rw [if_neg (hdone ▸ List.cons_ne_nil b₀ bs)] at hbuf hlen
      have hseven : l.connSyncState.conns.length = 7 := by omega
      rw [hdone, hseven] at hbuf
      intro b hb
      rcases List.mem_append.mp hb with hb | hb
      · exact hf.full.later b (by rw [hdone]; exact hb)
      · rw [List.mem_singleton.mp hb]
        exact ⟨hseven, hbuf⟩
  · change l.connSyncState.connCount.toNat = _
    rw [hf.count, List.flatMap_append, List.length_append]
    simp [ConnSyncState.buffer, Cmem.bufferAdded]
  · rw [if_neg (List.append_ne_nil_of_right_ne_nil _ (List.cons_ne_nil _ _))]
    rfl

/-- What `alvs_state_sync_aggr` does where the server was found. -/
def alvsStateSyncAggrConn (sourceIp : UInt32) (syncId : UInt8) : Dp Unit := do
  let st := (← get).connSyncState
  if st.amountBuffers = 0 then
    alvsStateSyncNewFrame sourceIp syncId
  else if ezframeBufDataSize < st.currentLen.toNat + sizeofStateSyncConn.toNat then
    if st.amountBuffers = alvsStateSyncBuffersLimit then
      alvsStateSyncSendAggr
      alvsStateSyncNewFrame sourceIp syncId
    else if ← alvsStateSyncAddBuffer then
      alvsStateSyncAddConn
  else
    alvsStateSyncAddConn

theorem alvsStateSyncAggr_eq (sourceIp : UInt32) (syncId : UInt8) :
    alvsStateSyncAggr sourceIp syncId = (do
      let conn := (← get).connInfoResult
      let found ← (if conn.bound then alvsServerInfoLookup conn.serverIndex else pure true)
      if found then
        alvsStateSyncAggrConn sourceIp syncId) := rfl

theorem wp_aggrConn (hp : Packing ip id passed recs l.connSyncState w) :
    (alvsStateSyncAggrConn ip id).wp syncSpec (fun _ l' w' =>
      l'.connSyncState.connSyncStatus = l.connSyncState.connSyncStatus ∧
      Packing ip id passed (recs ++ [alvsStateSyncSetSyncConn l]) l'.connSyncState w') l w := by
  simp only [alvsStateSyncAggrConn, wp_bind, wp_get]
  cases hp with
  | closed h0 hw =>
    rw [if_pos h0]
    exact wp_newFrame hw
  | filling recs' done hw hf hrecs =>
    rw [if_neg hf.amount_ne_zero, ← hrecs]
    by_cases hfull : ezframeBufDataSize < l.connSyncState.currentLen.toNat +
      sizeofStateSyncConn.toNat
    · rw [if_pos hfull]
      by_cases hlimit : l.connSyncState.amountBuffers = alvsStateSyncBuffersLimit
      · rw [if_pos hlimit]
        refine wp_bind_of (wp_sendAggr hw hf) ?_
        rintro _ l' w' ⟨hrec, hst, hw'⟩
        refine wp_mono (wp_newFrame hw') fun _ l'' w'' hpost => ?_
        rw [hrec, hst] at hpost
        exact hpost
      · rw [if_neg hlimit]
        refine wp_bind_of (wp_addBuffer hf hw) ?_
        rintro _ l' w' ⟨rfl, rfl, hw', hframe⟩
        rw [if_pos rfl]
        have hempty : l.bufferAdded.connSyncState.currentLen.toNat + 36 ≤ ezframeBufDataSize :=
          Nat.le_of_ble_eq_true rfl
        refine wp_mono (wp_addConn hw' (hf.bufferAdded hfull hlimit hframe) hempty)
          fun _ l'' w'' hpost => ⟨hpost.1, ?_⟩
        simpa [ConnSyncState.buffer, Cmem.bufferAdded, setSyncConn_eq_syncRecord] using hpost.2
    · rw [if_neg hfull]
      refine wp_mono (wp_addConn hw hf.toRoom (Nat.not_lt.mp hfull)) fun _ l'' w'' hpost => ?_
      simpa only [List.append_assoc] using hpost

theorem Given.pass (hw : Given ip id passed recs w) (passed' : List StateSyncConn) :
    Given ip id passed' recs { w with pending := none, passed := passed' } :=
  ⟨hw.master, rfl, rfl, hw.good, hw.asserts, hw.sent, hw.conns⟩

theorem Packing.given (hp : Packing ip id passed recs l.connSyncState w) :
    ∃ recs', Given ip id passed recs' w := by
  cases hp with
  | closed _ hw => exact ⟨recs, hw⟩
  | filling recs' _ hw _ _ => exact ⟨recs', hw⟩

theorem Packing.pass (hp : Packing ip id passed recs l.connSyncState w)
    (passed' : List StateSyncConn) : Packing ip id passed' recs l.connSyncState
      { w with pending := none, passed := passed' } := by
  cases hp with
  | closed h hw => exact .closed h (hw.pass passed')
  | filling recs' done hw hf hrecs => exact .filling recs' done (hw.pass passed') hf hrecs

/-- The records passed so far are those packed. -/
def Packed (ip : UInt32) (id : UInt8) (l : Cmem) (w : SyncWatch) : Prop :=
  l.connSyncState.connSyncStatus = .need ∧ Packing ip id w.passed w.passed l.connSyncState w

theorem Packed.settled (hp : Packed ip id l w) : w.Settled := by
  obtain ⟨_, hw⟩ := hp.2.given
  exact hw.settled

/-- `alvs_state_sync_aggr` packs the record of the connection that was passed. -/
theorem wp_aggr (hp : Packed ip id l w) :
    (alvsStateSyncAggr ip id).wp syncSpec (fun _ l' w' => Packed ip id l' w') l
      (w.pass l.connInfoResult) := by
  -- the record of `m` is the last one passed, and the others are packed
  have hconn : ∀ (m : Cmem) (info : ServerInfoResult), m.connSyncState = l.connSyncState →
      alvsStateSyncSetSyncConn m = l.connInfoResult.syncRecord info →
      (alvsStateSyncAggrConn ip id).wp syncSpec (fun _ l' w' => Packed ip id l' w') m
        { w with
          pending := none
          passed := w.passed ++ [l.connInfoResult.syncRecord info] } := by
    intro m info hm hrec
    have hpass := hp.2.pass (w.passed ++ [l.connInfoResult.syncRecord info])
    rw [← hm] at hpass
    refine wp_mono (wp_aggrConn hpass) fun _ l' w' hpost => ?_
    obtain ⟨hst, hpost⟩ := hpost
    have hpassed : w'.passed = w.passed ++ [l.connInfoResult.syncRecord info] := by
      obtain ⟨_, hw'⟩ := hpost.given
      exact hw'.passed
    refine ⟨by rw [hst, hm, hp.1], ?_⟩
    rw [hrec] at hpost
    rw [hpassed]
    exact hpost
  rw [alvsStateSyncAggr_eq, wp_bind, wp_get, wp_bind]
  by_cases hbound : l.connInfoResult.bound = true
  · rw [if_pos hbound]
    simp only [alvsServerInfoLookup, wp_bind, wp_call, SyncWatch.pass, if_pos hbound]
    refine ⟨trivial, ?_⟩
    rintro (_ | info) w' ⟨rfl, hok⟩
    · exact absurd hok (by simp [SyncWatch.Ok, SyncWatch.next, SyncWatch.lookup])
    · exact hconn { l with serverInfoResult := info } info rfl rfl
  · rw [if_neg hbound, wp_pure, SyncWatch.pass, if_neg hbound]
    have hrec : alvsStateSyncSetSyncConn l =
        l.connInfoResult.syncRecord Cmem.zero.serverInfoResult := by
      rw [setSyncConn_eq_syncRecord]
      exact syncRecord_of_unbound (by simpa using hbound) _ _
    exact hconn l _ rfl hrec

/-- A connection that is aged out by a master is passed. -/
theorem wp_ageOut {ok : SyncWatch → Prop} (hmaster : w.master = true) (i : UInt32)
    (iter : UInt8) : (alvsConnAgeOut i iter).wp (Prog.watchSpec SyncWatch.next ok)
      (fun aged l' w' =>
      l'.connSyncState = l.connSyncState ∧
        w' = if aged then w.pass l'.connInfoResult else w) l w := by
  simp only [alvsConnAgeOut, alvsLockConnection, alvsConnInfoLookup, wp_bind, wp_get, wp_call]
  refine ⟨trivial, ?_⟩
  rintro hash _ ⟨rfl, -⟩
  refine ⟨trivial, ?_⟩
  rintro (_ | c) w ⟨rfl, -⟩
  · simp only [wp_pure, Bool.false_eq_true, if_false, alvsUnlockConnection, wp_bind, wp_call]
    refine ⟨trivial, ?_⟩
    rintro _ _ ⟨rfl, -⟩
    exact ⟨trivial, rfl⟩
  · simp only [wp_bind, wp_modify, wp_pure, if_true, wp_get, alvsConnInfoModify, wp_call,
      alvsUnlockConnection]
    refine ⟨trivial, ?_⟩
    rintro (_ | _) _ ⟨rfl, -⟩
    · refine ⟨trivial, ?_⟩
      rintro _ _ ⟨rfl, -⟩
      exact ⟨trivial, rfl⟩
    · refine ⟨trivial, ?_⟩
      rintro _ _ ⟨rfl, -⟩
      refine ⟨trivial, ?_⟩
      change (if w.master = true then w.pass _ else w) = w.pass _
      rw [if_pos hmaster]

theorem Packed.of_sync (hp : Packed ip id l w) {l' : Cmem}
    (hl : l'.connSyncState = l.connSyncState) : Packed ip id l' w := by
  rw [Packed, hl]
  exact hp

theorem KeepsSync.packed {α : Type} {x : Dp α} (hx : KeepsSync x) (hp : Packed ip id l w) :
    x.wp syncSpec (fun _ l' w' => Packed ip id l' w') l w :=
  wp_mono (hx.wp_on silentOn_keepsSync l hp.settled) fun _ _ _ hpost =>
    hpost.2 ▸ hp.of_sync hpost.1

theorem wp_scanEntry (hp : Packed ip id l w) (iter : UInt8) (i : UInt32) :
    (alvsAgingScanEntry iter ip id i).wp syncSpec (fun _ l' w' => Packed ip id l' w') l w := by
  rw [alvsAgingScanEntry]
  refine wp_bind_of ((keepsSync_connInfoLookup .scan i).packed hp) fun found l₁ w₁ hp₁ => ?_
  refine (wp_ite _ _ _ _).mpr ⟨fun _ => ?_, fun _ => hp₁⟩
  rw [wp_bind, wp_get]
  refine (wp_ite _ _ _ _).mpr ⟨fun _ => (keepsSync_agingDelete iter i).packed hp₁, fun _ => ?_⟩
  refine (wp_ite _ _ _ _).mpr ⟨fun _ => ?_, fun _ => ?_⟩
  · obtain ⟨_, hw₁⟩ := hp₁.2.given
    rw [wp_bind, wp_modify]
    refine wp_bind_of (wp_ageOut hw₁.master i iter) ?_
    rintro (_ | _) l₂ w₂ ⟨hl₂, rfl⟩
    · exact hp₁.of_sync hl₂
    · have hp₂ : Packed ip id l₂ w₁ := hp₁.of_sync hl₂
      rw [if_pos rfl, wp_bind, wp_get, if_pos hp₂.1]
      exact wp_aggr hp₂
  · exact (wp_ite _ _ _ _).mpr ⟨fun _ => (keepsSync_agingDelete iter i).packed hp₁, fun _ => hp₁⟩

/-- Any number of entries. -/
theorem wp_scan (iter : UInt8) : ∀ (n : Nat) (i : UInt32) {l : Cmem} {w : SyncWatch},
    Packed ip id l w →
    (alvsAgingScan iter ip id n i).wp syncSpec (fun _ l' w' => Packed ip id l' w') l w
  | 0, _, _, _, hp => hp
  | n + 1, i, _, _, hp => wp_bind_of (wp_scanEntry hp iter i) fun _ _ _ hp' => wp_scan iter n _ hp'

end Steps

/-! ## The fields of the headers -/

/-- In the bytes of the frame, the lengths of the IPv4 and UDP headers, and the size and the
number of records of the sync header are those of its records. -/
def SyncFrame.HeadersMatch (f : SyncFrame) : Prop :=
  ∀ (checksum : List UInt8 → UInt16) (mac : Option MacAddr) (d : Nat → FrameData),
    field (f.bytes checksum mac d).flatten 16 2 = 36 + 36 * f.conns.length ∧
    field (f.bytes checksum mac d).flatten 38 2 = 16 + 36 * f.conns.length ∧
    field (f.bytes checksum mac d).flatten 44 2 = 8 + 36 * f.conns.length ∧
    field (f.bytes checksum mac d).flatten 46 1 = f.conns.length

/-- The lengths and the number of records, after the Ethernet header. -/
theorem field_headers (t c l s : Nat) (ip : UInt32) (res id n : UInt8) (rest : List UInt8) :
    field (ipHdrBytes t c ip ++ udpHdrBytes l ++ (syncHdrBytes res id s n ++ rest)) 2 2 =
        value (bigEndian 2 t) ∧
      field (ipHdrBytes t c ip ++ udpHdrBytes l ++ (syncHdrBytes res id s n ++ rest)) 24 2 =
        value (bigEndian 2 l) ∧
      field (ipHdrBytes t c ip ++ udpHdrBytes l ++ (syncHdrBytes res id s n ++ rest)) 30 2 =
        value (bigEndian 2 s) ∧
      field (ipHdrBytes t c ip ++ udpHdrBytes l ++ (syncHdrBytes res id s n ++ rest)) 32 1 =
        value [n] := ⟨rfl, rfl, rfl, rfl⟩

theorem SyncFrame.Measured.headersMatch {f : SyncFrame} (hf : f.Measured) : f.HeadersMatch := by
  intro checksum mac d
  obtain ⟨check, -, hbytes⟩ := f.flatten_bytes checksum hf mac d
  have hcount := hf.count
  have hlt := f.connCount.toNat_lt
  have heth := length_ethHdrOf (d 0) mac
  obtain ⟨h₁, h₂, h₃, h₄⟩ := field_headers (totLenOf f.connCount) check (udpLenOf f.connCount)
    (syncSizeOf f.connCount) f.headers.sourceIp (d 0 42) f.headers.syncId f.connCount
    (f.conns.flatMap StateSyncConn.bytes)
  rw [hbytes, headerBytes, List.append_assoc, List.append_assoc]
  refine ⟨(field_append heth 2 2).trans (h₁.trans ?_),
    (field_append heth 24 2).trans (h₂.trans ?_), (field_append heth 30 2).trans (h₃.trans ?_),
    (field_append heth 32 1).trans (h₄.trans ?_)⟩
  · rw [value_bigEndian] <;> unfold totLenOf udpLenOf <;> omega
  · rw [value_bigEndian] <;> unfold udpLenOf <;> omega
  · rw [value_bigEndian] <;> unfold syncSizeOf <;> omega
  · change 256 * 0 + f.connCount.toNat = _
    omega

/-! ## Aging events -/

/-- The frames given to the network have the records that were passed, each once and in
order. They are well formed, and transmitted unless an interface was not found. -/
structure SyncWatch.Lossless (w : SyncWatch) : Prop where
  records : frameConns w.given = w.passed
  transmitted : w.dropped = true ∨ w.sent.map Prod.fst = w.given.map some
  headers : ∀ f ∈ w.given, f.HeadersMatch
  limit : ∀ f ∈ w.given, f.buffers.length ≤ alvsStateSyncBuffersLimit.toNat
  firstFits : ∀ f ∈ w.given, ∀ b ∈ f.buffers.head?,
    b.len.toNat + alvsStateSyncHeadroom.toNat ≤ ezframeBufDataSize
  fits : ∀ f ∈ w.given, ∀ b ∈ f.buffers, b.len.toNat ≤ ezframeBufDataSize
  asserts : w.assertFailed = false

theorem Given.lossless {ip : UInt32} {id : UInt8} {recs : List StateSyncConn} {w : SyncWatch}
    (hw : Given ip id recs recs w) : w.Lossless where
  records := hw.conns.trans hw.passed.symm
  transmitted := hw.sent
  headers f hf := (hw.good f hf).toMeasured.headersMatch
  limit f hf := (hw.good f hf).limit
  firstFits f hf := (hw.good f hf).first_fits
  fits f hf := (hw.good f hf).fits
  asserts := hw.asserts

/-- The job is an aging event of a master. -/
def SyncWatch.master₀ : SyncWatch := { SyncWatch.start with master := true }

theorem wp_agingEvent (eventId : UInt32) (m : Cmem) :
    (alvsHandleAgingEvent eventId).wp syncSpec (fun _ _ w => w.Lossless) m .start := by
  simp only [alvsHandleAgingEvent, alvsDiscardFrame, wp_bind, wp_call, wp_modify, wp_get]
  refine ⟨trivial, ?_⟩
  rintro r _ ⟨rfl, -⟩
  refine ⟨trivial, ?_⟩
  rintro app w ⟨rfl, hok⟩
  have hbit : app.any (·.masterBit) = true := by
    by_contra hbit
    have hnext : (SyncWatch.start.next ⟨.appInfoLookup, app⟩).Ok := hok
    rw [SyncWatch.next, if_neg hbit] at hnext
    exact absurd hnext (by simp [SyncWatch.Ok])
  have hstart : (SyncWatch.start.next ⟨.frameFree, r⟩).next ⟨.appInfoLookup, app⟩ = .master₀ := by
    change (if app.any (·.masterBit) = true then SyncWatch.master₀ else _) = _
    rw [if_pos hbit]
  have hsome : (app.filter (·.masterBit)).isSome = true := by
    cases app with
    | none => exact absurd hbit (by decide)
    | some a => simpa using hbit
  have hgiven : ∀ ip id, Given ip id [] [] .master₀ := fun _ _ =>
    ⟨rfl, rfl, rfl, fun _ hf => absurd hf List.not_mem_nil, rfl, .inr rfl, rfl⟩
  rw [hstart, if_pos hsome]
  refine wp_mono (wp_scan _ _ _ ⟨rfl, .closed rfl (hgiven _ _)⟩) ?_
  rintro _ l w ⟨-, hp⟩
  cases hp with
  | closed h0 hw =>
    have hpos : ¬ 0 < l.connSyncState.amountBuffers := by
      rw [h0]
      decide
    rw [if_neg hpos]
    exact hw.lossless
  | filling recs' done hw hf hrecs =>
    have hpos : 0 < l.connSyncState.amountBuffers := by
      rw [UInt8.lt_iff_toNat_lt, hf.amount]
      exact Nat.succ_pos _
    rw [if_pos hpos]
    refine wp_mono (wp_sendAggr hw hf) fun _ l' w' hpost => ?_
    rw [hrecs] at hpost
    have hpassed : w'.passed = w.passed := hpost.2.2.passed
    rw [← hpassed] at hpost
    exact hpost.2.2.lossless

/-- Aggregation loses nothing. On every path through an aging event of a master where the
calls that synchronisation needs succeed, the frames given to the network have the records
of the connections passed to `alvs_state_sync_aggr`, each once and in order, and they are
well formed (`SyncWatch.Lossless`). After any number of entries of the scan, the counters of
the thread are the numbers of its buffers, bytes and records (`Packed`) : none has wrapped. -/
theorem syncAggregation_lossless :
    (∀ (eventId : UInt32) (m m' : Cmem) (tr : List DpEvent),
      ((alvsHandleAgingEvent eventId).run m).Path tr ((), m') → (syncWatch tr).refused = false →
      (syncWatch tr).Lossless) ∧
    ∀ (iterationNum : UInt8) (sourceIp : UInt32) (syncId : UInt8) (n : Nat) (i : UInt32)
      (m m' : Cmem) (tr : List DpEvent), m.connSyncState.connSyncStatus = .need →
      m.connSyncState.amountBuffers = 0 →
      ((alvsAgingScan iterationNum sourceIp syncId n i).run m).Path tr ((), m') →
      (tr.foldl SyncWatch.next .master₀).refused = false →
      Packed sourceIp syncId m' (tr.foldl SyncWatch.next .master₀) := by
  refine ⟨fun eventId m m' tr hpath hok => ?_, ?_⟩
  · exact Prog.of_wp_watch (fun _ _ => SyncWatch.Ok.of_next) (wp_agingEvent eventId m) hpath hok
  · intro iterationNum sourceIp syncId n i m m' tr hneed h0 hpath hok
    have hp : Packed sourceIp syncId m .master₀ :=
      ⟨hneed, .closed h0 ⟨rfl, rfl, rfl, nofun, rfl, .inr rfl, rfl⟩⟩
    exact Prog.of_wp_watch (fun _ _ => SyncWatch.Ok.of_next) (wp_scan iterationNum n i hp) hpath hok

/-- The load balancer is a master, and calls do not fail. -/
def masterEnv : DpEnv := ⟨false, 0, some ⟨true, false, 7, 0, 0x0a000003⟩, some ⟨0⟩, none, none⟩

/-- A chip with a bound and an unbound connection, and a server at index 0. -/
def twoConnNps : Nps :=
  { Sys.init.nps with
    connInfo := fun i =>
      if i = 0 then some (newConnInfo ⟨0x0a000001, 0x0a0000fe, 4000, 80, 6⟩ true 0 0 1 3 false)
      else if i = 1 then
        some (newConnInfo ⟨0x0a000002, 0x0a0000fe, 4000, 80, 6⟩ false 0x0a000005 80 1 3 false)
      else none
    serverInfo := fun i => if i = 0 then some Cmem.zero.serverInfoResult else none }

/-- The memory of a thread in an aging event of a master. -/
def needMem : Cmem :=
  { Cmem.zero with connSyncState := { Cmem.zero.connSyncState with connSyncStatus := .need } }

theorem syncAggregation_lossless_twoConns :
    (syncWatch (((alvsHandleAgingEvent 0).run .zero).trace (dpHandle masterEnv)
      twoConnNps)).Lossless ∧
    Packed 0x0a000003 7
      (((alvsAgingScan 0 0x0a000003 7 2 0).run needMem).exec (dpHandle masterEnv) twoConnNps).1.2
      ((((alvsAgingScan 0 0x0a000003 7 2 0).run needMem).trace (dpHandle masterEnv)
        twoConnNps).foldl SyncWatch.next .master₀) :=
  ⟨syncAggregation_lossless.1 0 .zero _ _ (Prog.path_trace _ _ _) (by decide +kernel),
    syncAggregation_lossless.2 0 _ _ 2 0 needMem _ _ rfl rfl (Prog.path_trace _ _ _)
      (by decide +kernel)⟩

end Alvs
