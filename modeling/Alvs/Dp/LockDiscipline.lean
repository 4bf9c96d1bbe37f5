import Alvs.Dp.Sections

/-!
# Lock discipline of the data plane

A path through a function is a sequence of calls with their results, and the results are
free : the re-lookup under a lock can find anything. `LocksReleased` says that a path
releases each lock that it takes, once, before it takes another, and ends with none.

`locksReleased_iff` : of the eight functions that take a connection lock, and of the jobs
of a thread, a path releases its locks if and only if no re-lookup of `alvs_conn_bind`
finds the connection bound. `alvs_conn_bind` returns there without releasing the lock
(`locksReleased_fails`).
-/

namespace Alvs

open ProgLogic LProg

/-! ## Watching the locks of a path -/

/-- What a thread has done with locks : it holds none, it holds the one of a hash value, or
it has taken a second one or released one that it did not hold. -/
inductive LockState
  | free
  | held (hashValue : UInt32)
  | broken
  deriving DecidableEq

def LockState.next : LockState → DpEvent → LockState
  | .free, ⟨.lockConnection _, hashValue⟩ => .held hashValue
  | .held h, ⟨.unlockConnection hashValue, _⟩ => if hashValue = h then .free else .broken
  | _, ⟨.lockConnection _, _⟩ => .broken
  | _, ⟨.unlockConnection _, _⟩ => .broken
  | st, _ => st

/-- The path releases each lock that it takes, once, before it takes another, and ends with
none. -/
def LocksReleased (tr : List DpEvent) : Prop := tr.foldl LockState.next .free = .free

instance (tr : List DpEvent) : Decidable (LocksReleased tr) := inferInstanceAs (Decidable (_ = _))

/-- The re-lookup of `alvs_conn_bind` finds the connection bound. -/
def findsBound : DpEvent → Bool
  | ⟨.connInfoLookup .bind _, some c⟩ => c.bound
  | _ => false

/-- Some re-lookup of `alvs_conn_bind` on the path finds the connection bound. -/
def BindFindsBound (tr : List DpEvent) : Prop := ∃ ev ∈ tr, findsBound ev = true

/-- The state of the locks, and whether `alvs_conn_bind` has found a connection bound. -/
abbrev LockWatch := LockState × Bool

def LockWatch.next (w : LockWatch) (ev : DpEvent) : LockWatch := (w.1.next ev, w.2 || findsBound ev)

theorem foldl_lockWatch : ∀ (tr : List DpEvent) (st : LockState) (b : Bool),
    tr.foldl LockWatch.next (st, b) = (tr.foldl LockState.next st, b || tr.any findsBound)
  | [], st, b => by simp
  | ev :: tr, st, b => by
    rw [List.foldl_cons, LockWatch.next, foldl_lockWatch tr, List.foldl_cons, List.any_cons,
      Bool.or_assoc]

abbrev lockSpec : Spec DpCall DpCall.Res LockWatch := Prog.monitorSpec LockWatch.next

/-- Outside a section : no lock is held, or `alvs_conn_bind` has left one. -/
def LockWatch.Idle (w : LockWatch) : Prop := w = (.free, false) ∨ w.1 ≠ .free ∧ w.2 = true

/-- In the section of a hash value, or in one entered while a left lock was held. -/
def LockWatch.InSection (h : UInt32) (w : LockWatch) : Prop :=
  w = (.held h, false) ∨ w.1 = .broken ∧ w.2 = true

/-- `Triple` outside sections. -/
abbrev Disciplined {α : Type} (x : Dp α) : Prop := Triple lockSpec LockWatch.Idle x LockWatch.Idle

/-- The rest of a section releases the lock. -/
abbrev Releases {α : Type} (h : UInt32) (x : Dp α) : Prop :=
  Triple lockSpec (LockWatch.InSection h) x LockWatch.Idle

/-- A call that neither takes nor releases a lock, nor is the re-lookup of
`alvs_conn_bind`. -/
def DpCall.NotLocking : DpCall → Prop
  | lockConnection _ | unlockConnection _ | connInfoLookup .bind _ => False
  | _ => True

theorem DpCall.OffConn.notLocking {op : DpCall} (h : op.OffConn) : op.NotLocking := by
  cases op <;> first | exact trivial | exact h.elim

theorem silent_notLocking : Silent lockSpec DpCall.NotLocking := by
  rintro ⟨st, b⟩ op hop
  refine ⟨trivial, fun r g' hg => ?_⟩
  subst hg
  cases op with
  | lockConnection | unlockConnection => exact hop.elim
  | connInfoLookup site i => cases site <;> first | exact hop.elim | simp [LockWatch.next,
      LockState.next, findsBound]
  | _ => simp [LockWatch.next, LockState.next, findsBound]

/-- The program does nothing with locks. -/
abbrev LockFree {α : Type} (x : Dp α) : Prop := x.Makes DpCall.NotLocking AnyCmem

variable {α β : Type}

theorem OffConn.lockFree {x : Dp α} (h : OffConn x) : LockFree x :=
  h.mono (fun _ => DpCall.OffConn.notLocking) fun _ _ _ => trivial

theorem QuietProg.lockFree {x : Dp α} (h : QuietProg x) : LockFree x := h.offConn.lockFree

theorem LockFree.disciplined {x : Dp α} (h : LockFree x) : Disciplined x :=
  .of_makes silent_notLocking h

theorem OffConn.disciplined {x : Dp α} (h : OffConn x) : Disciplined x := h.lockFree.disciplined

theorem QuietProg.disciplined {x : Dp α} (h : QuietProg x) : Disciplined x := h.lockFree.disciplined

/-- A section whose rest releases the lock. -/
theorem disciplined_locked {f : UInt32 → Dp β} (hf : ∀ h, Releases h (f h)) :
    Disciplined (alvsLockConnection >>= f) := by
  rintro l ⟨st, b⟩ hw
  refine wp_bind_of (Q := fun h _ w => LockWatch.InSection h w) ⟨trivial, ?_⟩ fun h l' w =>
    hf h l' w
  rintro h w rfl
  rcases hw with hw | ⟨hst, hb⟩
  · obtain ⟨rfl, rfl⟩ := Prod.mk.inj hw
    exact .inl rfl
  · refine .inr ⟨?_, by simp_all [LockWatch.next]⟩
    cases st <;> first | exact absurd rfl hst | rfl

theorem releases_unlock (h : UInt32) : Releases h (alvsUnlockConnection h) := by
  refine .of_call fun w hw => ⟨trivial, ?_⟩
  rintro - w' rfl
  rcases hw with rfl | ⟨hst, hb⟩
  · exact .inl (by simp [LockWatch.next, LockState.next, findsBound])
  · refine .inr ⟨?_, by simp [LockWatch.next, hb]⟩
    simp [LockWatch.next, LockState.next, hst]

theorem releases_pure (h : UInt32) (a : α) :
    Releases h (alvsUnlockConnection h >>= fun _ => pure a) :=
  .bind (releases_unlock h) fun _ => .of_pure _

theorem releases_bind {h : UInt32} {x : Dp α} {f : α → Dp β} (hx : LockFree x)
    (hf : ∀ a, Releases h (f a)) : Releases h (x >>= f) :=
  .bind (.of_makes silent_notLocking hx) hf

/-! ## Functions without locks -/

theorem lockFree_connInfoLookup {site : ConnSite} (hsite : site ≠ .bind) (i : UInt32) :
    LockFree (alvsConnInfoLookup site i) := by
  refine .bind (.of_call ?_) fun r => ?_
  · cases site <;> first | exact absurd rfl hsite | trivial
  · split
    · exact .of_pure _
    · exact .bind (.of_modify fun _ => trivial) fun _ => .of_pure _

theorem lockFree_connInfoModify (i : UInt32) (c : ConnInfoResult) :
    LockFree (alvsConnInfoModify i c) :=
  .bind (.of_modify fun _ => trivial) fun _ => .of_call trivial

theorem lockFree_connCreateNewEntry (bound : Bool) (server : UInt32) (port state : UInt16)
    (flags : UInt32) (reset : Bool) :
    LockFree (alvsConnCreateNewEntry bound server port state flags reset) := by
  refine .bind (.of_call trivial) fun r => ?_
  split
  · exact .bind (offConn_overloadOnDeleteConn _).lockFree fun _ =>
      .bind (quiet_alvsDiscardAndStats _).lockFree fun _ => .of_pure _
  · refine .get_bind fun _ => .bind (.of_modify fun _ => trivial) fun _ =>
      .bind (.of_call trivial) fun _ => .bind (.of_modify fun _ => trivial) fun _ =>
      .bind (.of_call trivial) fun _ => .ite ?_ ?_
    · refine .bind (.ite (.ite ?_ ?_) (.of_pure _)) fun _ => .of_pure _
      all_goals exact (offConn_updateConnectionStatistics _ _ _).lockFree
    · exact .bind (.of_call trivial) fun _ => .bind (offConn_overloadOnDeleteConn _).lockFree
        fun _ =>
        .bind (.of_call trivial) fun _ =>
        .bind (quiet_alvsDiscardAndStats _).lockFree fun _ => .of_pure _

theorem lockFree_connDeleteWithoutLock (site : DeleteSite) (i : UInt32) :
    LockFree (alvsConnDeleteWithoutLock site i) :=
  .get_bind fun _ => .bind (.of_call trivial) fun _ => .ite
    (.bind (.of_call trivial) fun _ => .ite
      (.bind (offConn_connReleaseServer _).lockFree fun _ => .of_call trivial) (.of_pure _))
        (.of_pure _)

theorem lockFree_tcpScheduleLocked (i : UInt8) (ip : IpHdr) (tcp : TcpHdr) :
    LockFree (alvsTcpScheduleLocked i ip tcp) := by
  refine .get_bind fun _ => .bind (.of_call trivial) fun r => ?_
  split
  · exact .bind (.of_modify fun _ => trivial) fun _ => .of_pure _
  · exact .bind (quiet_alvsDiscardAndStats _).lockFree fun _ => .of_pure _
  · refine .bind (offConn_scheduleConnection _ _ _).lockFree fun _ => .ite ?_ (.of_pure _)
    exact .get_bind fun _ => .bind (lockFree_connCreateNewEntry _ _ _ _ _ _) fun _ =>
      .bind (.of_modify fun _ => trivial) fun _ => .of_pure _

/-! ## Functions that take a lock -/

theorem disciplined_connUpdateState (i : UInt32) (st : UInt8) :
    Disciplined (alvsConnUpdateState i st) := by
  refine disciplined_locked fun h => releases_bind (lockFree_connInfoLookup (by simp) i) fun _ =>
    .ite (.get_bind fun _ => .ite (releases_pure _ _) ?_) (releases_pure _ _)
  exact releases_bind (offConn_updateConnectionStatistics _ _ _).lockFree fun _ =>
    releases_bind (lockFree_connInfoModify _ _) fun _ =>
    releases_bind (.of_modify fun _ => trivial) fun _ => releases_pure _ _

theorem disciplined_connMarkToDelete (i : UInt32) (reset : Bool) :
    Disciplined (alvsConnMarkToDelete i reset) := by
  refine disciplined_locked fun h => releases_bind (lockFree_connInfoLookup (by simp) i) fun _ =>
    .ite (.get_bind fun _ => .ite (releases_pure _ _) ?_) (releases_pure _ _)
  exact releases_bind (.ite (offConn_updateConnectionStatistics _ _ _).lockFree (.of_pure _))
    fun _ =>
    releases_bind (lockFree_connInfoModify _ _) fun _ => releases_pure _ _

theorem disciplined_connDelete (iter : UInt8) (i : UInt32) : Disciplined (alvsConnDelete iter i) :=
  disciplined_locked fun _ => releases_bind (lockFree_connDeleteWithoutLock _ _) fun _ =>
    releases_unlock _

theorem disciplined_connRefresh (i : UInt32) : Disciplined (alvsConnRefresh i) :=
  disciplined_locked fun _ => releases_bind (lockFree_connInfoLookup (by simp) i) fun _ =>
    .ite (.get_bind fun _ => releases_bind (lockFree_connInfoModify _ _) fun _ => releases_pure _ _)
      (releases_pure _ _)

theorem disciplined_connAgeOut (i : UInt32) (iter : UInt8) : Disciplined (alvsConnAgeOut i iter) :=
  disciplined_locked fun _ => releases_bind (lockFree_connInfoLookup (by simp) i) fun _ =>
    .ite (.get_bind fun _ => releases_bind (lockFree_connInfoModify _ _) fun _ => releases_pure _ _)
      (releases_pure _ _)

/-- The early exit of `alvs_conn_bind` is the one that `findsBound` reports. -/
theorem disciplined_connBind (i server : UInt32) : Disciplined (alvsConnBind i server) := by
  refine disciplined_locked fun h l w hw => ?_
  simp only [alvsConnInfoLookup, wp_bind, wp_call]
  refine ⟨trivial, ?_⟩
  rintro (_ | c) w' rfl
  · refine releases_pure h false _ _ ?_
    simpa [LockWatch.next, LockState.next, findsBound] using hw
  · simp only [wp_bind, wp_modify, wp_pure, if_true, wp_get]
    split
    next hb =>
      refine .inr ⟨?_, by simp [LockWatch.next, findsBound, hb]⟩
      obtain rfl | ⟨hst, -⟩ := hw
      · simp [LockWatch.next, LockState.next]
      · simp [LockWatch.next, LockState.next, hst]
    next hb =>
      refine releases_bind (lockFree_connInfoModify _ _) (fun a => releases_pure _ a) _ _ ?_
      simpa [LockWatch.next, LockState.next, findsBound, hb] using hw

theorem disciplined_tcpScheduleNewConnection (i : UInt8) (ip : IpHdr) (tcp : TcpHdr) :
    Disciplined (alvsTcpScheduleNewConnection i ip tcp) := by
  refine .bind quiet_alvsSchedCheckActiveServers.disciplined fun _ => .ite ?_ (.of_pure _)
  exact disciplined_locked fun _ => releases_bind (lockFree_tcpScheduleLocked _ _ _) fun _ =>
    releases_pure _ _

theorem releases_stateSyncCreateConn (conn : StateSyncConn) (h : UInt32) :
    Releases h (alvsStateSyncCreateConn conn h) := by
  refine releases_bind (.of_call trivial) fun r => ?_
  split
  · refine releases_bind (offConn_serverInfoLookup _).lockFree fun _ => .ite ?_ (releases_pure _ _)
    exact releases_bind (lockFree_connCreateNewEntry _ _ _ _ _ _) fun _ => releases_pure _ _
  · exact releases_bind (lockFree_connCreateNewEntry _ _ _ _ _ _) fun _ => releases_pure _ _

theorem releases_stateSyncUpdateConn (conn : StateSyncConn) (i h : UInt32) :
    Releases h (alvsStateSyncUpdateConn conn i h) := by
  refine .get_bind fun m => releases_bind (offConn_stateSyncUpdateStatistics _ _).lockFree fun _ =>
    releases_bind ?_ fun _ => releases_bind (lockFree_connInfoModify _ _) fun _ => releases_pure _ _
  refine .ite (.of_pure _) (.bind (.of_call trivial) fun r => ?_)
  split <;> exact .of_pure _

theorem releases_stateSyncExistingConn (conn : StateSyncConn) (i h : UInt32) :
    Releases h (alvsStateSyncExistingConn conn i h) := by
  refine releases_bind (lockFree_connInfoLookup (by simp) i) fun _ => .ite ?_ (releases_pure _ _)
  refine .get_bind fun m => releases_bind (.ite (offConn_serverInfoLookup _).lockFree (.of_pure _))
    fun _ => .ite (.get_bind fun _ => .ite (.ite ?_ (releases_pure _ _)) ?_) (releases_pure _ _)
  · exact releases_bind (lockFree_connDeleteWithoutLock _ _) fun _ =>
      releases_stateSyncCreateConn conn h
  · exact releases_stateSyncUpdateConn conn i h

theorem disciplined_stateSyncProcessConn (conn : StateSyncConn) :
    Disciplined (alvsStateSyncProcessConn conn) := by
  refine .ite (.of_pure _) (.ite (.of_pure _) (.ite (.of_pure _) (.bind .of_modify fun _ => ?_)))
  refine disciplined_locked fun h => releases_bind (.of_call trivial) fun r => ?_
  split
  · exact releases_stateSyncExistingConn conn _ h
  · exact releases_stateSyncCreateConn conn h

theorem disciplined_agingScanEntry (iter : UInt8) (ip : UInt32) (id : UInt8) (i : UInt32) :
    Disciplined (alvsAgingScanEntry iter ip id i) := by
  have hdelete : Disciplined (alvsAgingDelete iter i) :=
    .bind .of_modify fun _ => disciplined_connDelete iter i
  refine .bind (lockFree_connInfoLookup (by simp) i).disciplined fun _ => .ite
    (.get_bind fun _ => .ite hdelete (.ite ?_ (.ite hdelete (.of_pure _)))) (.of_pure _)
  exact .bind .of_modify fun _ => .bind (disciplined_connAgeOut i iter) fun _ => .ite
    (.get_bind fun _ => .ite (offConn_stateSyncAggr _ _).lockFree.disciplined (.of_pure _))
      (.of_pure _)

theorem disciplined_sections : Sectionwise lockSpec LockWatch.Idle where
  silent := fun g op hop => silent_notLocking g op hop.notLocking
  classLookup _ := LockFree.disciplined (.of_call trivial)
  dataPathLookup i := (lockFree_connInfoLookup (by simp) i).disciplined
  updateState := disciplined_connUpdateState
  markToDelete := disciplined_connMarkToDelete
  refresh := disciplined_connRefresh
  bind := disciplined_connBind
  schedule := disciplined_tcpScheduleNewConnection
  syncConn := disciplined_stateSyncProcessConn
  scanEntry := disciplined_agingScanEntry

/-- The functions that take a connection lock, and the jobs of a thread. -/
inductive LockingFunction
  | connUpdateState (connIndex : UInt32) (newState : UInt8)
  | connMarkToDelete (connIndex : UInt32) (reset : Bool)
  | connDelete (iterationNum : UInt8) (connIndex : UInt32)
  | connRefresh (connIndex : UInt32)
  | connBind (connIndex serverIndex : UInt32)
  | connAgeOut (connIndex : UInt32) (iterationNum : UInt8)
  | tcpScheduleNewConnection (serviceIndex : UInt8) (ipHdr : IpHdr) (tcpHdr : TcpHdr)
  | stateSyncProcessConn (conn : StateSyncConn)
  | job (j : DpJob)

def LockingFunction.prog : LockingFunction → Dp Unit
  | connUpdateState i st => discard (alvsConnUpdateState i st)
  | connMarkToDelete i reset => discard (alvsConnMarkToDelete i reset)
  | connDelete iter i => alvsConnDelete iter i
  | connRefresh i => discard (alvsConnRefresh i)
  | connBind i server => discard (alvsConnBind i server)
  | connAgeOut i iter => discard (alvsConnAgeOut i iter)
  | tcpScheduleNewConnection i ip tcp => discard (alvsTcpScheduleNewConnection i ip tcp)
  | stateSyncProcessConn conn => discard (alvsStateSyncProcessConn conn)
  | job j => packetProcessing j

theorem disciplined_lockingFunction (f : LockingFunction) : Disciplined f.prog := by
  cases f with
  | connUpdateState i st => exact .of_discard (disciplined_connUpdateState i st)
  | connMarkToDelete i reset => exact .of_discard (disciplined_connMarkToDelete i reset)
  | connDelete iter i => exact disciplined_connDelete iter i
  | connRefresh i => exact .of_discard (disciplined_connRefresh i)
  | connBind i server => exact .of_discard (disciplined_connBind i server)
  | connAgeOut i iter => exact .of_discard (disciplined_connAgeOut i iter)
  | tcpScheduleNewConnection i ip tcp =>
    exact .of_discard (disciplined_tcpScheduleNewConnection i ip tcp)
  | stateSyncProcessConn conn => exact .of_discard (disciplined_stateSyncProcessConn conn)
  | job j => exact disciplined_sections.job j

/-- On every path, with any content of the tables and any result of a call, the function
releases the lock that it takes exactly once, if and only if no re-lookup of
`alvs_conn_bind` finds the connection bound. -/
theorem locksReleased_iff (f : LockingFunction) (l : Cmem) (tr : List DpEvent) (a : Unit × Cmem)
    (h : (f.prog.run l).Path tr a) : LocksReleased tr ↔ ¬ BindFindsBound tr := by
  have hwp := (Prog.wp_monitor_iff _ _ _ _).mp
    (disciplined_lockingFunction f l (.free, false) (.inl rfl)) tr a h
  rw [foldl_lockWatch, Bool.false_or] at hwp
  have hfinds : BindFindsBound tr ↔ tr.any findsBound = true := by
    simp [BindFindsBound, List.any_eq_true]
  rw [hfinds]
  obtain heq | ⟨hst, hb⟩ := hwp
  · obtain ⟨hst, hb⟩ := Prod.mk.inj heq
    simp [LocksReleased, hst, hb]
  · exact iff_of_false hst (not_not_intro hb)

/-- An entry, bound or not. -/
def exampleConn (bound : Bool) : ConnInfoResult :=
  ⟨true, false, false, bound, 0x50, 0x0a000002, ⟨0x0a000001, 0x0a0000fe, 4000, 0x50, 6⟩,
    ipVsTcpSEstablished, 0, ipVsConnFDroute⟩

/-- A path through `alvs_conn_bind` of an entry that is still unbound under the lock. -/
def bindPath : List DpEvent :=
  [⟨.lockConnection Cmem.zero.connClassKey, (77 : UInt32)⟩,
    ⟨.connInfoLookup .bind 5, some (exampleConn false)⟩,
    ⟨.connInfoModify 5 { exampleConn false with serverIndex := 3, bound := true }, true⟩,
    ⟨.unlockConnection 77, ()⟩]

theorem locksReleased_iff_bindPath : LocksReleased bindPath :=
  (locksReleased_iff (.connBind 5 3) .zero bindPath _
    (.call _ (.call _ (.call _ (.call _ (.ret _)))))).mpr (by simp [BindFindsBound, bindPath,
      findsBound, exampleConn])

/-- The path on which another thread has bound the entry first. -/
def lostBindPath : List DpEvent :=
  [⟨.lockConnection Cmem.zero.connClassKey, (77 : UInt32)⟩,
    ⟨.connInfoLookup .bind 5, some (exampleConn true)⟩]

/-- The lock is still held at the end of that path. -/
theorem locksReleased_fails :
    (∃ a, ((LockingFunction.connBind 5 3).prog.run .zero).Path lostBindPath a) ∧
      ¬ LocksReleased lostBindPath :=
  ⟨⟨_, .call _ (.call _ (.ret _))⟩, by decide⟩

end Alvs
