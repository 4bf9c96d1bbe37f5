import Alvs.Dp.Threads

/-!
# Packets of one connection

Any number of threads that handle packets of one connection, whose calls are interleaved.
`OneServer` : at most one entry is created for the connection, and every packet is routed to
the server of that entry.

`flowSpec` is what a thread may call, and what it learns. Its ghost state is how far the
thread is with the creation of the entry under the lock, and the entry that it has found.
Entries are neither deleted nor moved to another server, so what a thread has found stays so
(`flowInv_step`).
-/

namespace Alvs

open ProgLogic LProg

variable {Tid : Type}

/-! ## Packets of one connection -/

/-- The key of a TCP packet. -/
def Frame.connKey (f : Frame) (hdr : TcpHdr) : ConnClassificationKey :=
  ⟨f.ipHdr.saddr, f.ipHdr.daddr, hdr.source, hdr.dest, f.ipHdr.protocol.toUInt16⟩

/-- A packet of the connection `key`. -/
structure PacketOf (key : ConnClassificationKey) where
  frame : Frame
  tcpHdr : TcpHdr
  payload : frame.payload = .tcp tcpHdr
  connKey : frame.connKey tcpHdr = key

/-- Threads that handle packets of the connection `key`, and take turns at any call. -/
def packetMachine [DecidableEq Tid] (bulkHash : ConnClassificationKey → UInt32)
    (key : ConnClassificationKey) :
    Machine Tid (Chip Tid) DpCall DpCall.Res Cmem (PacketOf key) DpEnv where
  handle := threadHandle bulkHash
  job _ p l := (packetProcessing (.frame p.frame)).job l

/-- Idle threads on the chip `s`. -/
def idlePool (s : Chip Tid) (mem : Tid → Cmem) : Pool Tid (Chip Tid) DpCall DpCall.Res Cmem where
  shared := s
  thread t := .ret (mem t)

/-- The entry is that of the connection `key`, bound to the server `server`. -/
structure ConnInfoResult.Of (key : ConnClassificationKey) (server : UInt32) (c : ConnInfoResult) :
    Prop where
  key : c.connClassKey = key
  bound : c.bound = true
  server : c.serverIndex = server

/-- The entry with index `i` is that of `key`, bound to `server`. -/
def Nps.HasEntry (s : Nps) (key : ConnClassificationKey) (i server : UInt32) : Prop :=
  ∃ c, s.connInfo i = some c ∧ c.Of key server

/-- The index of the entry that a call creates for `key`, by adding it to the classification. -/
def DpStep.creates (key : ConnClassificationKey) : DpStep Tid → Option UInt32
  | ⟨_, _, .connClassAdd _ key' i, added⟩ => if added = true ∧ key' = key then some i else none
  | _ => none

/-- The address that a call routes a packet to. -/
def DpStep.routesTo : DpStep Tid → Option UInt32
  | ⟨_, _, .fibLookup destIp, _⟩ => some destIp
  | _ => none

/-- At most one entry was created for `key`, it is the entry of `key` now, and every packet
was routed to its server. -/
structure OneServer (key : ConnClassificationKey) (s : Chip Tid) : Prop where
  one : (s.log.filterMap (·.creates key)).length ≤ 1
  created : ∀ i ∈ s.log.filterMap (·.creates key), s.nps.connClassification key = some i
  routed : ∀ destIp ∈ s.log.filterMap (·.routesTo), ∃ i server info,
    s.nps.connClassification key = some i ∧ s.nps.HasEntry key i server ∧
      s.nps.serverInfo server = some info ∧ info.serverIp = destIp

/-! ## The specification of the calls -/

/-- How far a thread is with the creation of the entry : it does not have the lock, or it
knows nothing under the lock, or that there is no entry; it has reserved an index, or stored
an entry with a server, which is not in the classification yet. -/
inductive FlowPhase
  | outside
  | locked
  | absent
  | reserved (i : UInt32)
  | stored (i server : UInt32)

/-- The phase of a thread, and the index and the server of the entry that it has found. -/
structure FlowView where
  phase : FlowPhase
  known : Option (UInt32 × UInt32)

section Spec

variable (bulkHash : ConnClassificationKey → UInt32) (key : ConnClassificationKey)
  (servers : UInt32 → Option ServerInfoResult)

/-- The calls of a thread that handles packets of `key`, where `servers` is the table of
servers. -/
def flowSpec : Spec DpCall DpCall.Res FlowView where
  pre g op :=
    match op with
    | .lockConnection key' => key' = key ∧ g.phase = .outside
    | .unlockConnection h => h = bulkHash key ∧ (g.phase = .locked ∨ g.phase = .absent)
    | .connClassLookup .tcpProcessing key' => key' = key ∧ g.phase = .outside
    | .connClassLookup .schedule key' => key' = key ∧ g.phase = .locked
    | .connClassLookup .syncConn _ | .connClassDelete _ _ _ => False
    | .connInfoLookup _ i => ∃ server, g.known = some (i, server)
    | .connInfoModify i c => g.phase = .locked ∧
        ∃ server, g.known = some (i, server) ∧ c.Of key server
    | .allocIndex _ => g.phase = .absent
    | .connInfoAdd i c => g.phase = .reserved i ∧ c.Of key c.serverIndex
    | .connClassAdd _ key' i => key' = key ∧ ∃ server, g.phase = .stored i server
    | .connInfoDelete _ i => ∃ server, g.phase = .stored i server
    | .freeIndex i => g.phase = .reserved i
    | .fibLookup destIp => ∃ i server info, g.known = some (i, server) ∧
        servers server = some info ∧ info.serverIp = destIp
    | _ => True
  post g op r g' :=
    match op, r with
    | .lockConnection _, h => h = bulkHash key ∧ g' = { g with phase := .locked }
    | .unlockConnection _, _ => g' = { g with phase := .outside }
    | .connClassLookup _ _, .found i => ∃ server, g' = { g with known := some (i, server) }
    | .connClassLookup .schedule _, .notFound => g' = { g with phase := .absent }
    | .connInfoLookup _ i, r => g' = g ∧ ∀ server, g.known = some (i, server) →
        ∃ c, r = some c ∧ c.Of key server
    | .connInfoAdd i c, _ => g' = { g with phase := .stored i c.serverIndex }
    | .connClassAdd _ _ i, added =>
      if added then ∃ server, g.phase = .stored i server ∧ g' = ⟨.locked, some (i, server)⟩
      else g' = g
    | .connInfoDelete _ i, _ => g' = { g with phase := .reserved i }
    | .allocIndex _, some i => g' = { g with phase := .reserved i }
    | .freeIndex _, _ => g' = { g with phase := .absent }
    | .serverInfoLookup i, r => g' = g ∧ r = servers i
    | _, _ => g' = g

end Spec

/-! ## The invariant -/

/-- What a thread knows in a phase is so. -/
def FlowPhase.Holds (key : ConnClassificationKey) (s : Nps) : FlowPhase → Prop
  | outside | locked => True
  | absent | reserved _ => s.connClassification key = none
  | stored i server => s.connClassification key = none ∧ s.HasEntry key i server

structure FlowInv (bulkHash : ConnClassificationKey → UInt32) (key : ConnClassificationKey)
    (servers : UInt32 → Option ServerInfoResult) (s : Chip Tid) (Γ : Tid → FlowView) : Prop
    extends OneServer key s where
  servers : s.nps.serverInfo = servers
  locked : ∀ t, (Γ t).phase ≠ .outside →
    s.spinlock (connSpinlockAddr (bulkHash key)) = some t
  entry : ∀ i, s.nps.connClassification key = some i → ∃ server, s.nps.HasEntry key i server
  known : ∀ t i server, (Γ t).known = some (i, server) →
    s.nps.connClassification key = some i ∧ s.nps.HasEntry key i server
  phase : ∀ t, (Γ t).phase.Holds key s.nps

/-- The tables of connections and servers are the same. -/
structure Nps.SameConns (s s' : Nps) : Prop where
  classification : s'.connClassification = s.connClassification
  info : s'.connInfo = s.connInfo
  servers : s'.serverInfo = s.serverInfo

theorem Nps.HasEntry.of_info {s s' : Nps} {key : ConnClassificationKey} {i server : UInt32}
    (h : s.HasEntry key i server) (hi : s'.connInfo i = s.connInfo i) :
    s'.HasEntry key i server := by
  rw [HasEntry, hi]
  exact h

theorem FlowPhase.Holds.of_same {s s' : Nps} {key : ConnClassificationKey} {ph : FlowPhase}
    (h : ph.Holds key s) (hs : s.SameConns s') : ph.Holds key s' := by
  cases ph with
  | outside | locked => trivial
  | absent | reserved => rwa [Holds, hs.classification]
  | stored i server =>
    obtain ⟨hnone, hentry⟩ := h
    exact ⟨by rwa [hs.classification], hentry.of_info (by rw [hs.info])⟩

/-- A call on other tables. -/
theorem sameConns_offConn (e : DpEnv) {op : DpCall} (hop : op.OffConn) (s : Nps) :
    s.SameConns (dpHandle e op s).2 := by
  cases op <;> first | exact hop.elim | exact ⟨rfl, rfl, rfl⟩

section Step

variable {bulkHash : ConnClassificationKey → UInt32} {key : ConnClassificationKey}
  {servers : UInt32 → Option ServerInfoResult} {s s' : Chip Tid} {Γ : Tid → FlowView} {t : Tid}
  {e : DpEnv}

namespace FlowInv

variable (h : FlowInv bulkHash key servers s Γ)
include h

/-- The entry that a thread has found is the one of the key. -/
theorem known_unique {i j server server' : UInt32} (hknown : (Γ t).known = some (i, server))
    (hclass : s.nps.connClassification key = some j) (hentry : s.nps.HasEntry key j server') :
    j = i ∧ server' = server := by
  obtain ⟨hi, c, hc, hof⟩ := h.known t i server hknown
  rw [hclass] at hi
  obtain rfl := Option.some.inj hi
  obtain ⟨c', hc', hof'⟩ := hentry
  rw [hc] at hc'
  obtain rfl := Option.some.inj hc'
  exact ⟨rfl, hof'.server.symm.trans hof.server⟩

/-- Two threads do not have the lock. -/
theorem outside {t' : Tid} (ht : (Γ t).phase ≠ .outside) (htt : t' ≠ t) :
    (Γ t').phase = .outside := by
  by_contra ht'
  exact htt (Option.some.inj ((h.locked t' ht').symm.trans (h.locked t ht)))

variable [DecidableEq Tid]

/-- A call after which the connection has the same entry. -/
theorem next {g' : FlowView}
    (hclass : s'.nps.connClassification key = s.nps.connClassification key)
    (hentry : ∀ i server, s.nps.connClassification key = some i → s.nps.HasEntry key i server →
      s'.nps.HasEntry key i server)
    (hservers : s'.nps.serverInfo = s.nps.serverInfo)
    (hspin : ∀ t', (Function.update Γ t g' t').phase ≠ .outside →
      s'.spinlock (connSpinlockAddr (bulkHash key)) = some t')
    (hknown : ∀ i server, g'.known = some (i, server) →
      s.nps.connClassification key = some i ∧ s.nps.HasEntry key i server)
    (hphase : ∀ t', (Function.update Γ t g' t').phase.Holds key s'.nps)
    (hcreates : s'.log.filterMap (·.creates key) = s.log.filterMap (·.creates key))
    (hroutes : ∀ destIp ∈ s'.log.filterMap (·.routesTo), destIp ∈ s.log.filterMap (·.routesTo) ∨
      ∃ i server info, s.nps.connClassification key = some i ∧ s.nps.HasEntry key i server ∧
        servers server = some info ∧ info.serverIp = destIp) :
    FlowInv bulkHash key servers s' (Function.update Γ t g') := by
  refine ⟨⟨by rw [hcreates]; exact h.one, fun i hi => ?_, fun destIp hip => ?_⟩,
    hservers.trans h.servers, hspin, fun i hi => ?_, fun t' i server hk => ?_, hphase⟩
  · rw [hcreates] at hi
    exact hclass.trans (h.created i hi)
  · have hrouted : ∃ i server info, s.nps.connClassification key = some i ∧
        s.nps.HasEntry key i server ∧ servers server = some info ∧ info.serverIp = destIp := by
      rcases hroutes destIp hip with hip | hip
      · rw [← h.servers]
        exact h.routed destIp hip
      · exact hip
    obtain ⟨i, server, info, hi, he, hinfo, hdest⟩ := hrouted
    refine ⟨i, server, info, hclass.trans hi, hentry i server hi he, ?_, hdest⟩
    rw [hservers, h.servers]
    exact hinfo
  · rw [hclass] at hi
    obtain ⟨server, he⟩ := h.entry i hi
    exact ⟨server, hentry i server hi he⟩
  · have hk' : s.nps.connClassification key = some i ∧ s.nps.HasEntry key i server := by
      by_cases htt : t' = t
      · subst htt
        rw [Function.update_self] at hk
        exact hknown i server hk
      · rw [Function.update_of_ne htt] at hk
        exact h.known t' i server hk
    exact ⟨hclass.trans hk'.1, hentry i server hk'.1 hk'.2⟩

/-- A call that leaves the tables and the lock, creates nothing and routes to the server of
the connection only. -/
theorem keep {g' : FlowView} {op : DpCall} (hsame : s.nps.SameConns (dpHandle e op s.nps).2)
    (hphase : g'.phase ≠ .outside → (Γ t).phase ≠ .outside)
    (hknown : ∀ i server, g'.known = some (i, server) →
      s.nps.connClassification key = some i ∧ s.nps.HasEntry key i server)
    (hholds : g'.phase.Holds key s.nps)
    (hcreates : (⟨t, s.nps, op, (s.call e t op).1⟩ : DpStep Tid).creates key = none)
    (hroutes : ∀ destIp ∈ (⟨t, s.nps, op, (s.call e t op).1⟩ : DpStep Tid).routesTo,
      ∃ i server info, s.nps.connClassification key = some i ∧ s.nps.HasEntry key i server ∧
        servers server = some info ∧ info.serverIp = destIp) :
    FlowInv bulkHash key servers (s.call e t op).2 (Function.update Γ t g') := by
  have hupdate : ∀ {P : FlowView → Prop}, P g' → (∀ t', P (Γ t')) → ∀ t',
      P (Function.update Γ t g' t') := fun hg hΓ t' => by
    by_cases htt : t' = t
    · subst htt
      rwa [Function.update_self]
    · rw [Function.update_of_ne htt]
      exact hΓ t'
  refine h.next (congrFun hsame.classification key) (fun i server _ he => he.of_info
    (congrFun hsame.info i)) hsame.servers (fun t' ht' => ?_) hknown (fun t' => ?_) ?_ ?_
  · by_cases htt : t' = t
    · subst htt
      rw [Function.update_self] at ht'
      exact h.locked t' (hphase ht')
    · rw [Function.update_of_ne htt] at ht'
      exact h.locked t' ht'
  · have hphases := hupdate (P := fun g => g.phase.Holds key s.nps) hholds h.phase t'
    exact hphases.of_same hsame
  · exact List.filterMap_cons_none hcreates
  · intro destIp hip
    rw [Chip.call, List.filterMap_cons] at hip
    split at hip
    · exact .inl hip
    · next ip heq =>
      rcases List.mem_cons.mp hip with rfl | hip
      · exact .inr (hroutes destIp heq)
      · exact .inl hip

/-- A call of the thread that has the lock, before the connection has an entry. -/
theorem creating {g' : FlowView} {op : DpCall} (hlocked : (Γ t).phase ≠ .outside)
    (hnone : s.nps.connClassification key = none)
    (hnone' : (dpHandle e op s.nps).2.connClassification key = none)
    (hservers : (dpHandle e op s.nps).2.serverInfo = s.nps.serverInfo)
    (hknown : g'.known = (Γ t).known) (hholds : g'.phase.Holds key (dpHandle e op s.nps).2)
    (hcreates : (⟨t, s.nps, op, (s.call e t op).1⟩ : DpStep Tid).creates key = none)
    (hroutes : (⟨t, s.nps, op, (s.call e t op).1⟩ : DpStep Tid).routesTo = none) :
    FlowInv bulkHash key servers (s.call e t op).2 (Function.update Γ t g') := by
  refine h.next (hnone'.trans hnone.symm) (fun i server hi _ => ?_) hservers (fun t' ht' => ?_)
    (fun i server hk => h.known t i server (hknown ▸ hk)) (fun t' => ?_)
    (List.filterMap_cons_none hcreates) (fun destIp hip => .inl ?_)
  · rw [hnone] at hi
    cases hi
  · by_cases htt : t' = t
    · subst htt
      exact h.locked t' hlocked
    · rw [Function.update_of_ne htt] at ht'
      exact h.locked t' ht'
  · by_cases htt : t' = t
    · subst htt
      rw [Function.update_self]
      exact hholds
    · rw [Function.update_of_ne htt, h.outside hlocked htt]
      trivial
  · exact (List.filterMap_cons_none hroutes) ▸ hip

end FlowInv

variable [DecidableEq Tid]

/-- A call with result `r`, after which the chip is `s'`, is as the specification says, and
keeps the invariant. -/
def FlowNext (bulkHash : ConnClassificationKey → UInt32) (key : ConnClassificationKey)
    (servers : UInt32 → Option ServerInfoResult) (Γ : Tid → FlowView) (t : Tid) (op : DpCall)
    (r : op.Res) (s' : Chip Tid) : Prop :=
  ∃ g', (flowSpec bulkHash key servers).post (Γ t) op r g' ∧
    FlowInv bulkHash key servers s' (Function.update Γ t g')

theorem flow_lock (h : FlowInv bulkHash key servers s Γ)
    (hfree : s.spinlock (connSpinlockAddr (bulkHash key)) = none) :
    FlowNext bulkHash key servers Γ t (.lockConnection key) (bulkHash key)
      { s with
        spinlock := Function.update s.spinlock (connSpinlockAddr (bulkHash key)) (some t)
        lockedKey := Function.update s.lockedKey t (some key) } := by
  refine ⟨{ Γ t with phase := .locked }, ⟨rfl, rfl⟩, h.next rfl (fun _ _ _ he => he) rfl
    (fun t' ht' => ?_) (h.known t) (fun t' => ?_) rfl (fun _ hip => .inl hip)⟩
  · by_cases htt : t' = t
    · subst htt
      exact Function.update_self _ _ _
    · rw [Function.update_of_ne htt] at ht'
      rw [h.locked t' ht'] at hfree
      cases hfree
  · by_cases htt : t' = t
    · subst htt
      rw [Function.update_self]
      trivial
    · rw [Function.update_of_ne htt]
      exact h.phase t'

theorem flow_unlock (h : FlowInv bulkHash key servers s Γ)
    (ht : (Γ t).phase = .locked ∨ (Γ t).phase = .absent) :
    FlowNext bulkHash key servers Γ t (.unlockConnection (bulkHash key)) ()
      { s with
        spinlock := Function.update s.spinlock (connSpinlockAddr (bulkHash key)) none } := by
  have hinside : (Γ t).phase ≠ .outside := by
    rcases ht with ht | ht
    all_goals
      rw [ht]
      nofun
  refine ⟨{ Γ t with phase := .outside }, rfl, h.next rfl (fun _ _ _ he => he) rfl
    (fun t' ht' => ?_) (h.known t) (fun t' => ?_) rfl (fun _ hip => .inl hip)⟩
  · by_cases htt : t' = t
    · subst htt
      rw [Function.update_self] at ht'
      exact absurd rfl ht'
    · rw [Function.update_of_ne htt, h.outside hinside htt] at ht'
      exact absurd rfl ht'
  · by_cases htt : t' = t
    · subst htt
      rw [Function.update_self]
      trivial
    · rw [Function.update_of_ne htt]
      exact h.phase t'

theorem flow_connClassLookup (h : FlowInv bulkHash key servers s Γ) {site : ClassSite}
    (hsite : site = .tcpProcessing ∧ (Γ t).phase = .outside ∨
      site = .schedule ∧ (Γ t).phase = .locked) :
    FlowNext bulkHash key servers Γ t (.connClassLookup site key)
      (s.call e t (.connClassLookup site key)).1 (s.call e t (.connClassLookup site key)).2 := by
  have hsame : s.nps.SameConns (dpHandle e (.connClassLookup site key) s.nps).2 := ⟨rfl, rfl, rfl⟩
  have hres : (s.call e t (.connClassLookup site key)).1 = if e.fails then .error
    else (s.nps.connClassification key).elim .notFound .found := by
    change (if e.fails then LookupRes.error else _) = _
    cases h : s.nps.connClassification key <;> rfl
  have hphase : (Γ t).phase.Holds key s.nps := h.phase t
  have hsilent (g' : FlowView) (hpost : (flowSpec bulkHash key servers).post (Γ t)
      (.connClassLookup site key) (s.call e t (.connClassLookup site key)).1 g')
      (hin : g'.phase ≠ .outside → (Γ t).phase ≠ .outside)
      (hknown : ∀ i server, g'.known = some (i, server) →
        s.nps.connClassification key = some i ∧ s.nps.HasEntry key i server)
      (hholds : g'.phase.Holds key s.nps) : FlowNext bulkHash key servers Γ t
        (.connClassLookup site key) (s.call e t (.connClassLookup site key)).1
        (s.call e t (.connClassLookup site key)).2 :=
    ⟨g', hpost, h.keep hsame hin hknown hholds rfl fun ip hip =>
      absurd hip (Option.not_mem_none ip)⟩
  by_cases hfails : e.fails = true
  · rw [if_pos hfails] at hres
    refine hsilent (Γ t) ?_ id (h.known t) hphase
    rw [hres]
    rcases hsite with ⟨rfl, -⟩ | ⟨rfl, -⟩
    all_goals rfl
  · rw [if_neg hfails] at hres
    cases hclass : s.nps.connClassification key with
    | some i =>
      rw [hclass] at hres
      obtain ⟨server, hentry⟩ := h.entry i hclass
      refine hsilent { Γ t with known := some (i, server) } ?_ id (fun j server' hk => ?_) hphase
      · rw [hres]
        exact ⟨server, rfl⟩
      · obtain ⟨rfl, rfl⟩ := Prod.mk.inj (Option.some.inj hk)
        exact ⟨hclass, hentry⟩
    | none =>
      rw [hclass] at hres
      rcases hsite with ⟨rfl, -⟩ | ⟨rfl, hlocked⟩
      · refine hsilent (Γ t) ?_ id (h.known t) hphase
        rw [hres]
        rfl
      · refine hsilent { Γ t with phase := .absent } ?_ (fun _ => ?_) (h.known t) hclass
        · rw [hres]
          rfl
        · rw [hlocked]
          simp

theorem flow_connInfoLookup (h : FlowInv bulkHash key servers s Γ) {site : ConnSite}
    {i : UInt32} :
    FlowNext bulkHash key servers Γ t (.connInfoLookup site i)
      (s.call e t (.connInfoLookup site i)).1 (s.call e t (.connInfoLookup site i)).2 := by
  refine ⟨Γ t, ⟨rfl, fun server' hk => ?_⟩, h.keep ⟨rfl, rfl, rfl⟩ id (h.known t) (h.phase t) rfl
    nofun⟩
  exact (h.known t i server' hk).2

theorem flow_allocIndex (h : FlowInv bulkHash key servers s Γ) {bound : Bool}
    (ht : (Γ t).phase = .absent) :
    FlowNext bulkHash key servers Γ t (.allocIndex bound) (s.call e t (.allocIndex bound)).1
      (s.call e t (.allocIndex bound)).2 := by
  have hlocked : (Γ t).phase ≠ .outside := by
    rw [ht]
    nofun
  have hnone : s.nps.connClassification key = none := by
    have hholds := h.phase t
    rwa [ht] at hholds
  by_cases hfree : s.nps.IndexFree e.value
  · have hcall : dpHandle e (.allocIndex bound) s.nps = (some e.value, { s.nps with
        connIndexAllocated := Function.update s.nps.connIndexAllocated e.value true }) := by
      simp [dpHandle, hfree]
    refine ⟨{ Γ t with phase := .reserved e.value }, ?_, h.creating hlocked hnone ?_ ?_ rfl ?_ rfl
      rfl⟩
    · rw [Chip.call, hcall]
      rfl
    · rw [hcall]
      exact hnone
    · rw [hcall]
    · rw [hcall]
      exact hnone
  · have hcall : dpHandle e (.allocIndex bound) s.nps = (none, s.nps) := by simp [dpHandle, hfree]
    refine ⟨Γ t, ?_, h.creating hlocked hnone ?_ ?_ rfl ?_ rfl rfl⟩
    · rw [Chip.call, hcall]
      rfl
    · rw [hcall]
      exact hnone
    · rw [hcall]
    · rw [hcall]
      exact h.phase t

theorem flow_connInfoAdd (h : FlowInv bulkHash key servers s Γ) {i : UInt32} {c : ConnInfoResult}
    (ht : (Γ t).phase = .reserved i) (hc : c.Of key c.serverIndex) :
    FlowNext bulkHash key servers Γ t (.connInfoAdd i c) (s.call e t (.connInfoAdd i c)).1
      (s.call e t (.connInfoAdd i c)).2 := by
  have hlocked : (Γ t).phase ≠ .outside := by
    rw [ht]
    nofun
  have hnone : s.nps.connClassification key = none := by
    have hholds := h.phase t
    rwa [ht] at hholds
  exact ⟨{ Γ t with phase := .stored i c.serverIndex }, rfl, h.creating hlocked hnone hnone rfl rfl
    ⟨hnone, c, Function.update_self _ _ _, hc⟩ rfl rfl⟩

theorem flow_connInfoDelete (h : FlowInv bulkHash key servers s Γ) {site : DeleteSite}
    {i server : UInt32} (ht : (Γ t).phase = .stored i server) :
    FlowNext bulkHash key servers Γ t (.connInfoDelete site i)
      (s.call e t (.connInfoDelete site i)).1 (s.call e t (.connInfoDelete site i)).2 := by
  have hlocked : (Γ t).phase ≠ .outside := by
    rw [ht]
    nofun
  obtain ⟨hnone, c, hc, -⟩ : s.nps.connClassification key = none ∧ s.nps.HasEntry key i server := by
    have hholds := h.phase t
    rwa [ht] at hholds
  have hcall : dpHandle e (.connInfoDelete site i) s.nps = (true, { s.nps with
      connInfo := Function.update s.nps.connInfo i none }) := by
    simp [dpHandle, hc]
  refine ⟨{ Γ t with phase := .reserved i }, rfl, h.creating hlocked hnone ?_ ?_ rfl ?_ rfl rfl⟩
  · rw [hcall]
    exact hnone
  · rw [hcall]
  · rw [hcall]
    exact hnone

theorem flow_freeIndex (h : FlowInv bulkHash key servers s Γ) {i : UInt32}
    (ht : (Γ t).phase = .reserved i) :
    FlowNext bulkHash key servers Γ t (.freeIndex i) (s.call e t (.freeIndex i)).1
      (s.call e t (.freeIndex i)).2 := by
  have hlocked : (Γ t).phase ≠ .outside := by
    rw [ht]
    nofun
  have hnone : s.nps.connClassification key = none := by
    have hholds := h.phase t
    rwa [ht] at hholds
  exact ⟨{ Γ t with phase := .absent }, rfl, h.creating hlocked hnone hnone rfl rfl hnone rfl rfl⟩

/-- The entry that is added to the classification is the only one. -/
theorem flow_connClassAdd (h : FlowInv bulkHash key servers s Γ) {bound : Bool} {i server : UInt32}
    (ht : (Γ t).phase = .stored i server) :
    FlowNext bulkHash key servers Γ t (.connClassAdd bound key i)
      (s.call e t (.connClassAdd bound key i)).1 (s.call e t (.connClassAdd bound key i)).2 := by
  have hlocked : (Γ t).phase ≠ .outside := by
    rw [ht]
    nofun
  obtain ⟨hnone, hentry⟩ : s.nps.connClassification key = none ∧ s.nps.HasEntry key i server := by
    have hholds := h.phase t
    rwa [ht] at hholds
  by_cases hfails : e.fails = true
  · have hcall : dpHandle e (.connClassAdd bound key i) s.nps = (false, s.nps) := by
      simp [dpHandle, hfails]
    refine ⟨Γ t, ?_, h.creating hlocked hnone ?_ ?_ rfl ?_ ?_ rfl⟩
    · rw [Chip.call, hcall]
      rfl
    · rw [hcall]
      exact hnone
    · rw [hcall]
    · rw [hcall]
      exact h.phase t
    · rw [Chip.call, hcall]
      rfl
  · have hcall : dpHandle e (.connClassAdd bound key i) s.nps = (true, { s.nps with
        connClassification := Function.update s.nps.connClassification key (some i) }) := by
      simp [dpHandle, hfails]
    have hempty : s.log.filterMap (·.creates key) = [] := by
      refine List.eq_nil_iff_forall_not_mem.mpr fun j hj => ?_
      have hj := h.created j hj
      rw [hnone] at hj
      cases hj
    have hclass : (s.call e t (.connClassAdd bound key i)).2.nps.connClassification key =
        some i := by
      rw [Chip.call, hcall]
      exact Function.update_self _ _ _
    have hinfo : (s.call e t (.connClassAdd bound key i)).2.nps.connInfo = s.nps.connInfo := by
      rw [Chip.call, hcall]
    have hcreates : (s.call e t (.connClassAdd bound key i)).2.log.filterMap (·.creates key) =
        [i] := by
      rw [Chip.call, hcall, List.filterMap_cons, hempty]
      simp [DpStep.creates]
    have hentry' : (s.call e t (.connClassAdd bound key i)).2.nps.HasEntry key i server :=
      hentry.of_info (congrFun hinfo i)
    have hother : ∀ t' j server', (Γ t').known ≠ some (j, server') := fun t' j server' hk => by
      have hj := (h.known t' j server' hk).1
      rw [hnone] at hj
      cases hj
    refine ⟨⟨.locked, some (i, server)⟩, ?_, ⟨⟨?_, ?_, ?_⟩, ?_, ?_, ?_, ?_, ?_⟩⟩
    · rw [Chip.call, hcall]
      exact ⟨server, ht, rfl⟩
    · rw [hcreates]
      exact Nat.le_refl 1
    · intro j hj
      rw [hcreates] at hj
      rw [hclass, List.mem_singleton.mp hj]
    · -- no packet was routed before there was an entry
      intro destIp hip
      obtain ⟨j, -, -, hj, -⟩ := h.routed destIp hip
      rw [hnone] at hj
      cases hj
    · rw [Chip.call, hcall]
      exact h.servers
    · intro t' ht'
      by_cases htt : t' = t
      · subst htt
        exact h.locked t' hlocked
      · rw [Function.update_of_ne htt] at ht'
        exact h.locked t' ht'
    · intro j hj
      rw [hclass] at hj
      obtain rfl := Option.some.inj hj
      exact ⟨server, hentry'⟩
    · intro t' j server' hk
      by_cases htt : t' = t
      · subst htt
        rw [Function.update_self] at hk
        obtain ⟨rfl, rfl⟩ := Prod.mk.inj (Option.some.inj hk)
        exact ⟨hclass, hentry'⟩
      · rw [Function.update_of_ne htt] at hk
        exact absurd hk (hother t' j server')
    · intro t'
      by_cases htt : t' = t
      · subst htt
        rw [Function.update_self]
        trivial
      · rw [Function.update_of_ne htt, h.outside hlocked htt]
        trivial

/-- An entry that is modified keeps its server. -/
theorem flow_connInfoModify (h : FlowInv bulkHash key servers s Γ) {i server : UInt32}
    {c : ConnInfoResult} (ht : (Γ t).phase = .locked) (hk : (Γ t).known = some (i, server))
    (hc : c.Of key server) :
    FlowNext bulkHash key servers Γ t (.connInfoModify i c) (s.call e t (.connInfoModify i c)).1
      (s.call e t (.connInfoModify i c)).2 := by
  have hlocked : (Γ t).phase ≠ .outside := by
    rw [ht]
    nofun
  obtain ⟨hclass, c₀, hc₀, -⟩ := h.known t i server hk
  have hcall : dpHandle e (.connInfoModify i c) s.nps = (true, { s.nps with
      connInfo := Function.update s.nps.connInfo i (some c) }) := by
    simp [dpHandle, hc₀]
  have hnps : (s.call e t (.connInfoModify i c)).2.nps = { s.nps with
      connInfo := Function.update s.nps.connInfo i (some c) } := by
    rw [Chip.call, hcall]
  refine ⟨Γ t, rfl, h.next ?_ (fun j server' hj he => ?_) ?_ (fun t' ht' => ?_) (h.known t)
    (fun t' => ?_) rfl (fun _ hip => .inl hip)⟩
  · rw [hnps]
  · obtain ⟨rfl, rfl⟩ := h.known_unique hk hj he
    rw [hnps]
    exact ⟨c, Function.update_self _ _ _, hc⟩
  · rw [hnps]
  · rw [Function.update_eq_self] at ht'
    exact h.locked t' ht'
  · rw [Function.update_eq_self]
    by_cases htt : t' = t
    · subst htt
      rw [ht]
      trivial
    · rw [h.outside hlocked htt]
      trivial

/-- A call on other tables that routes no packet. -/
theorem flow_silent (h : FlowInv bulkHash key servers s Γ) {op : DpCall} (hop : op.OffConn)
    (hpost : (flowSpec bulkHash key servers).post (Γ t) op (s.call e t op).1 (Γ t))
    (hroutes : ∀ destIp ∈ (⟨t, s.nps, op, (s.call e t op).1⟩ : DpStep Tid).routesTo,
      ∃ i server info, s.nps.connClassification key = some i ∧ s.nps.HasEntry key i server ∧
        servers server = some info ∧ info.serverIp = destIp) :
    FlowNext bulkHash key servers Γ t op (s.call e t op).1 (s.call e t op).2 := by
  refine ⟨Γ t, hpost, h.keep (sameConns_offConn e hop s.nps) id (h.known t) (h.phase t) ?_ hroutes⟩
  cases op <;> first | rfl | exact hop.elim

theorem flowInv_step (e : DpEnv) (t : Tid) (op : DpCall) (s : Chip Tid) (Γ : Tid → FlowView)
    (r : op.Res) (s' : Chip Tid) (h : FlowInv bulkHash key servers s Γ)
    (hpre : (flowSpec bulkHash key servers).pre (Γ t) op)
    (hs : threadHandle bulkHash e t op s = some (r, s')) :
    FlowNext bulkHash key servers Γ t op r s' := by
  cases op with
  | lockConnection key' =>
    obtain ⟨rfl, -⟩ := hpre
    simp only [threadHandle] at hs
    split at hs
    next hfree =>
      obtain ⟨rfl, rfl⟩ := Prod.mk.inj (Option.some.inj hs)
      exact flow_lock h hfree
    next => nomatch hs
  | unlockConnection hv =>
    obtain ⟨rfl, ht⟩ := hpre
    obtain ⟨rfl, rfl⟩ := Prod.mk.inj (Option.some.inj hs)
    exact flow_unlock h ht
  | connClassLookup site key' =>
    obtain ⟨rfl, rfl⟩ := Prod.mk.inj (Option.some.inj hs)
    cases site with
    | tcpProcessing =>
      obtain ⟨rfl, ht⟩ := hpre
      exact flow_connClassLookup h (.inl ⟨rfl, ht⟩)
    | schedule =>
      obtain ⟨rfl, ht⟩ := hpre
      exact flow_connClassLookup h (.inr ⟨rfl, ht⟩)
    | syncConn => exact hpre.elim
  | connClassDelete site key' i => exact hpre.elim
  | connInfoLookup site i =>
    obtain ⟨rfl, rfl⟩ := Prod.mk.inj (Option.some.inj hs)
    exact flow_connInfoLookup h
  | connInfoModify i c =>
    obtain ⟨rfl, rfl⟩ := Prod.mk.inj (Option.some.inj hs)
    obtain ⟨ht, server, hk, hc⟩ := hpre
    exact flow_connInfoModify h ht hk hc
  | allocIndex bound =>
    obtain ⟨rfl, rfl⟩ := Prod.mk.inj (Option.some.inj hs)
    exact flow_allocIndex h hpre
  | connInfoAdd i c =>
    obtain ⟨rfl, rfl⟩ := Prod.mk.inj (Option.some.inj hs)
    exact flow_connInfoAdd h hpre.1 hpre.2
  | connClassAdd bound key' i =>
    obtain ⟨rfl, rfl⟩ := Prod.mk.inj (Option.some.inj hs)
    obtain ⟨rfl, server, ht⟩ := hpre
    exact flow_connClassAdd h ht
  | connInfoDelete site i =>
    obtain ⟨rfl, rfl⟩ := Prod.mk.inj (Option.some.inj hs)
    obtain ⟨server, ht⟩ := hpre
    exact flow_connInfoDelete h ht
  | freeIndex i =>
    obtain ⟨rfl, rfl⟩ := Prod.mk.inj (Option.some.inj hs)
    exact flow_freeIndex h hpre
  | fibLookup destIp =>
    obtain ⟨rfl, rfl⟩ := Prod.mk.inj (Option.some.inj hs)
    refine flow_silent h trivial rfl fun destIp' hip => ?_
    obtain ⟨i, server, info, hk, hinfo, hdest⟩ := hpre
    obtain rfl := Option.some.inj hip
    obtain ⟨hclass, hentry⟩ := h.known t i server hk
    exact ⟨i, server, info, hclass, hentry, hinfo, hdest⟩
  | serverInfoLookup i =>
    obtain ⟨rfl, rfl⟩ := Prod.mk.inj (Option.some.inj hs)
    exact flow_silent h trivial ⟨rfl, congrFun h.servers i⟩ nofun
  | _ =>
    obtain ⟨rfl, rfl⟩ := Prod.mk.inj (Option.some.inj hs)
    exact flow_silent h trivial rfl nofun

end Step

end Alvs
