import Alvs.Nw.Routing

/-!
# Forwarding follows the kernel

A frame that is routed with the tables of the network thread goes where the kernel's routes and
neighbours send it : to a valid neighbour that is the next hop of a route with the longest prefix
of the address (`forwarding_run`). While the FIB follows a change of a route, frames go where the
routes before or the routes after the change send them (`forwarding_hitless`).
-/

namespace Alvs

open ProgLogic Prog

/-! ## What the kernel asks for -/

/-- The address has the prefix. Both are in network order. -/
def NlAddr.Covers (dst : NlAddr) (addr : UInt32) : Prop :=
  (bswap32 addr).toNat / 2 ^ (32 - dst.prefixlen) =
    (bswap32 dst.addr).toNat / 2 ^ (32 - dst.prefixlen)

/-- The address to which a route sends frames for `destIp`, if it is unicast with one next hop at
most. -/
def RtnlRoute.nextHop (r : RtnlRoute) (destIp : UInt32) : Option UInt32 :=
  if r.type = rtnUnicast then
    match r.gateway with
    | none => some destIp
    | some gateway => if 1 < r.nnexthops then none else some gateway
  else none

/-- A route of the kernel with the longest prefix of the address. -/
structure RouteTable.Longest (t : RouteTable) (addr : UInt32) (r : RtnlRoute) : Prop where
  has : t.Has r
  covers : r.dst.Covers addr
  longest : ∀ r', t.Has r' → r'.dst.Covers addr → r'.dst.prefixlen ≤ r.dst.prefixlen

/-- Where frames for `destIp` go : to the link layer address of a neighbour, or nowhere. The address
0 is no next hop. -/
inductive Forwards (routes : RouteTable) (neighs : NeighTable) (destIp : UInt32) :
    Option EtherAddr → Prop
  | neighbor {r : RtnlRoute} {hop : UInt32} {n : RtnlNeigh} (hr : routes.Longest destIp r)
      (hhop : r.nextHop destIp = some hop) (hzero : hop ≠ 0) (hn : neighs.Valid hop n) :
      Forwards routes neighs destIp (some n.lladdr)
  | noRoute (h : ∀ r, routes.Has r → ¬ r.dst.Covers destIp) : Forwards routes neighs destIp none
  | noHop {r : RtnlRoute} (hr : routes.Longest destIp r)
      (h : ∀ hop, r.nextHop destIp = some hop → hop ≠ 0 → ∀ n, ¬ neighs.Valid hop n) :
      Forwards routes neighs destIp none

/-! ## Routing with the tables -/

/-- The tables that the functions search. -/
structure NetTables where
  fib : NwState
  arp : ArpTable
  interfaces : InterfaceTable

/-- `ezdp_hash` of a link layer address to the bits of `NUM_OF_LAG_MEMBERS`. -/
structure LagHash where
  hash : EtherAddr → UInt32
  lt : ∀ mac, hash mac < numOfLagMembers

/-- A frame on its way : its header, where it was sent, how often it was freed, and the posted
counters. -/
structure Wire where
  header : EtherHeader
  sent : List (UInt8 × EtherHeader)
  freed : Nat
  posted : SumAddr → Int

def Wire.addPosted (w : Wire) (addr : SumAddr) (d : Int) : Wire :=
  { w with posted := Function.update w.posted addr (w.posted addr + d) }

/-- The calls on the tables, where no search meets a memory error. -/
def routeHandle (t : NetTables) (hash : LagHash) : (op : RouteCall) → Wire → op.Res × Wire
  | .lookupIntTcam d, w => (t.fib.tcamLookup d, w)
  | .lookupArpEntry d, w => (t.arp d, w)
  | .lookupInterface l, w => (if l < 256 then t.interfaces l.toUInt8 else none, w)
  | .hash mac, w => (hash.hash mac, w)
  | .addIfCtr base counter, w => ((), w.addPosted (base.add counter.offset) 1)
  | .addPostedCtr addr value, w => ((), w.addPosted addr value)
  | .frameStoreBuf header, w => ((), { w with header := header })
  | .frameSendToIf outputChannel, w =>
    ((), { w with sent := w.sent ++ [(outputChannel, w.header)] })
  | .frameFree, w => ((), { w with freed := w.freed + 1 })

/-- The frame is sent to the link layer address, from the own one, on the network interface that
the hash selects, or it is freed. -/
def Wire.Outcome (myMac : EtherAddr) (hash : LagHash) (w w' : Wire) : Option EtherAddr → Prop
  | some mac => w'.sent = w.sent ++ [((nwIfEntry myMac (hash.hash mac).toNat).outputChannel,
      ⟨mac, myMac⟩)] ∧ w'.freed = w.freed
  | none => w'.sent = w.sent ∧ w'.freed = w.freed + 1

/-- The address that an answer of the TCAM sends to, or 0. -/
def NwFibResult.hop (destIp : UInt32) : NwFibResult → UInt32
  | ⟨.neighbor, _⟩ => destIp
  | ⟨.gw, resDestIp⟩ => resDestIp
  | ⟨.drop, _⟩ | ⟨.unknown, _⟩ => 0

section Exec

variable {t : NetTables} {hash : LagHash} {myMac : EtherAddr} {w : Wire} {m : RouteMem}
  {destIp : UInt32}

variable (hash) in
/-- Every member of the link aggregation is a network interface. -/
theorem interface_lagMember (mac : EtherAddr) (ht : t.interfaces = interfacesOf myMac) :
    (if hash.hash mac < 256 then t.interfaces (hash.hash mac).toUInt8 else none) =
      some (nwIfEntry myMac (hash.hash mac).toNat) := by
  have hlt : (hash.hash mac).toNat < userNwIfNum.toNat := hash.lt mac
  have hid : (hash.hash mac).toUInt8 = ifLogicalId (hash.hash mac).toNat := by
    rw [ifLogicalId, userBaseLogicalId, UInt32.zero_add]
    congr 1
    exact (UInt32.ofNat_toNat).symm
  have h256 : hash.hash mac < 256 := Nat.lt_trans (hash.lt mac) (by decide)
  rw [if_pos h256, hid, ht, interfacesOf_nw myMac hlt]

/-- The address that the FIB sends to, or 0. -/
def NetTables.hop (t : NetTables) (destIp : UInt32) : UInt32 :=
  ((t.fib.tcamLookup destIp).map (·.hop destIp)).getD 0

variable (t hash w m destIp) in
/-- What `nw_fib_processing` returns, with the counter of a frame that it refuses. -/
theorem exec_nwFibProcessing : ∃ posted, ((Routing.nwFibProcessing destIp).run m).exec
    (routeHandle t hash) w = ((t.hop destIp, m), { w with posted := posted }) := by
  have hcount (counter : NwIfStats) : ∃ posted,
      ((do Routing.nwInterfaceIncCounter counter; pure (0 : UInt32) : RouteProg UInt32).run m).exec
        (routeHandle t hash) w = ((0, m), { w with posted := posted }) :=
    ⟨_, rfl⟩
  unfold NetTables.hop Routing.nwFibProcessing
  simp only [StateT.run_bind, exec_bind, LProg.call, StateT.run_lift, routeHandle, exec_perform,
    exec_pure]
  cases t.fib.tcamLookup destIp with
  | none => exact hcount .failFibLookup
  | some r =>
    obtain ⟨type, hop⟩ := r
    cases type with
    | neighbor => exact ⟨w.posted, rfl⟩
    | gw => exact ⟨w.posted, rfl⟩
    | drop => exact hcount .rejectByFib
    | unknown => exact hcount .unknownFibResult

/-- The frame after `nw_do_route`. -/
def routed (t : NetTables) (hash : LagHash) (destIp : UInt32) (m : RouteMem) (w : Wire) : Wire :=
  (((Routing.nwDoRoute destIp).run m).exec (routeHandle t hash) w).2

variable (t hash w m destIp) in
theorem routed_eq : ∃ posted, routed t hash destIp m w =
    if t.hop destIp = 0 then { w with posted := posted, freed := w.freed + 1 }
    else (((Routing.nwArpProcessing (t.hop destIp)).run m).exec (routeHandle t hash)
      { w with posted := posted }).2 := by
  obtain ⟨posted, hfib⟩ := exec_nwFibProcessing t hash w m destIp
  refine ⟨posted, ?_⟩
  rw [routed, Routing.nwDoRoute, StateT.run_bind, exec_bind, hfib]
  split
  next => simp [Routing.nwDiscardFrame, LProg.call, routeHandle]
  next => simp

theorem outcome_drop {w w' : Wire} (hsent : w'.sent = w.sent) (hfreed : w'.freed = w.freed + 1) :
    w.Outcome myMac hash w' none := ⟨hsent, hfreed⟩

/-- A frame without a next hop, or whose next hop has no entry. -/
theorem routed_dropped (h : t.hop destIp = 0 ∨ t.arp (t.hop destIp) = none) :
    w.Outcome myMac hash (routed t hash destIp m w) none := by
  obtain ⟨posted, hrouted⟩ := routed_eq t hash w m destIp
  rw [hrouted]
  split
  next => exact outcome_drop rfl rfl
  next hzero =>
    have harp := h.resolve_left hzero
    simp [Routing.nwArpProcessing, Routing.nwInterfaceIncCounter, Routing.nwDiscardFrame,
      LProg.call, routeHandle, harp, Wire.addPosted, Wire.Outcome]

variable (hash w) in
/-- A frame whose next hop has an entry. -/
theorem routed_sent {r : NwArpResult} (hzero : t.hop destIp ≠ 0)
    (harp : t.arp (t.hop destIp) = some r) (hbase : r.baseLogicalId = 0)
    (ht : t.interfaces = interfacesOf myMac) (hm : m.interfaceResult.macAddress = myMac) :
    w.Outcome myMac hash (routed t hash destIp m w) (some r.destMacAddr) := by
  obtain ⟨posted, hrouted⟩ := routed_eq t hash w m destIp
  have hif := interface_lagMember hash r.destMacAddr ht
  rw [hrouted, if_neg hzero]
  simp [Routing.nwArpProcessing, Routing.nwSendFrameToNetwork, Routing.nwInterfaceLookup,
    LProg.call, routeHandle, harp, Wire.Outcome, RouteMem.addressed, hif, hbase, hm]

end Exec

/-! ## The routes of the FIB -/

section Mirror

variable {routes : RouteTable} {neighs : NeighTable} {fib : NwState} {t : NetTables}
  {hash : LagHash} {myMac : EtherAddr} {w : Wire} {m : RouteMem} {destIp : UInt32}
  {r : RtnlRoute} {e : FibRoute}

/-- An entry with the prefix of a route covers the same addresses. -/
theorem covers_of_key (h : e.key = r.key) : e.Covers destIp ↔ r.dst.Covers destIp := by
  have hkey : e.key = r.fibRoute.key := h.trans (fibRoute_key r).symm
  obtain ⟨hip, hmask⟩ := Prod.mk.inj hkey
  have haddr : r.fibRoute.destIp = r.dst.addr := (Prod.mk.inj (fibRoute_key r)).1
  rw [FibRoute.Covers, NlAddr.Covers, hmask, fibRoute_maskLength, hip, haddr]

theorem maskLength_of_key (h : e.key = r.key) : e.maskLength.toNat = r.dst.prefixlen := by
  have hkey : e.key = r.fibRoute.key := h.trans (fibRoute_key r).symm
  rw [(Prod.mk.inj hkey).2, fibRoute_maskLength]

/-- The entry of a route sends to the next hop of the route. -/
theorem hop_fibRoute (r : RtnlRoute) (destIp : UInt32) :
    r.fibRoute.result.hop destIp = (r.nextHop destIp).getD 0 := by
  unfold RtnlRoute.fibRoute setFibParams RtnlRoute.nextHop
  split
  · cases r.gateway with
    | none => rfl
    | some gateway =>
      simp only
      split <;> rfl
  · rfl

/-- No entry matches an address that no route of the kernel covers, and the entry that is found for
another one is that of a route with the longest prefix. -/
theorem longest_of_match {answer : Option NwFibResult} (hfib : FibMirror routes fib)
    (hmatch : LongestPrefixMatch fib.HasRoute destIp answer) :
    answer = none ∧ (∀ r, routes.Has r → ¬ r.dst.Covers destIp) ∨
      ∃ r, routes.Longest destIp r ∧ answer = some r.fibRoute.result := by
  obtain ⟨found, hlongest, rfl⟩ := hmatch
  cases found with
  | none =>
    refine .inl ⟨rfl, fun r hr hcovers => ?_⟩
    obtain ⟨e, he, hkey⟩ := hfib.present r hr
    exact of_decide_eq_false (hlongest e he) ((covers_of_key hkey).mpr hcovers)
  | some e =>
    obtain ⟨he, hcovers, hmax⟩ := hlongest
    obtain ⟨r, hr, rfl⟩ := hfib.entry e he
    refine .inr ⟨r, ⟨hr, (covers_of_key (fibRoute_key r)).mp (of_decide_eq_true hcovers), ?_⟩, rfl⟩
    intro r' hr' hcovers'
    obtain ⟨e', he', hkey'⟩ := hfib.present r' hr'
    have hle : e'.maskLength.toNat ≤ r.fibRoute.maskLength.toNat :=
      hmax e' he' (decide_eq_true ((covers_of_key hkey').mpr hcovers'))
    rwa [maskLength_of_key hkey', fibRoute_maskLength] at hle

/-- All neighbours are sent to by the same link aggregation. -/
def BaseIds (arp : ArpTable) : Prop := ∀ addr r, arp addr = some r → r.baseLogicalId = 0

variable (hash w) in
/-- A frame goes where the kernel sends it, if the TCAM answers for the routes of the kernel. -/
theorem forwards_of_match (hfib : FibMirror routes fib)
    (hmatch : LongestPrefixMatch fib.HasRoute destIp (t.fib.tcamLookup destIp))
    (harp : ArpMirror neighs t.arp) (hbase : BaseIds t.arp)
    (ht : t.interfaces = interfacesOf myMac) (hm : m.interfaceResult.macAddress = myMac) :
    ∃ dest, Forwards routes neighs destIp dest ∧
      w.Outcome myMac hash (routed t hash destIp m w) dest := by
  rcases longest_of_match hfib hmatch with ⟨hnone, hcovers⟩ | ⟨r, hr, hsome⟩
  · refine ⟨none, .noRoute hcovers, routed_dropped (.inl ?_)⟩
    rw [NetTables.hop, hnone]
    rfl
  · have hhop : t.hop destIp = (r.nextHop destIp).getD 0 := by
      rw [NetTables.hop, hsome, Option.map_some, Option.getD_some, hop_fibRoute]
    by_cases hzero : t.hop destIp = 0
    · refine ⟨none, .noHop hr fun hop hsome' hne => ?_, routed_dropped (.inl hzero)⟩
      rw [hsome', Option.getD_some, hzero] at hhop
      exact absurd hhop.symm hne
    · have hnext : r.nextHop destIp = some (t.hop destIp) := by
        cases hn : r.nextHop destIp with
        | none => exact absurd (by rw [hhop, hn]; rfl) hzero
        | some hop => rw [hhop, hn, Option.getD_some]
      cases hentry : t.arp (t.hop destIp) with
      | none =>
        refine ⟨none, .noHop hr fun hop hsome' _ n hn => ?_, routed_dropped (.inr hentry)⟩
        obtain rfl : t.hop destIp = hop := Option.some.inj (hnext.symm.trans hsome')
        exact harp.present _ n hn hentry
      | some a =>
        obtain ⟨n, hn, hmac⟩ := harp.entry _ a hentry
        have hsent := routed_sent hash w hzero hentry (hbase _ a hentry) ht hm
        rw [hmac] at hsent
        exact ⟨some n.lladdr, .neighbor hr hnext hzero hn, hsent⟩

end Mirror

/-! ## Runs -/

section Runs

variable {routes : List RtnlRoute} {neighs : List RtnlNeigh} {myMac : EtherAddr}
  {s : NetSystem} {l : UInt8} {m : RouteMem}

/-- What holds of all entries holds after one is written or removed. -/
theorem entries_update {ι α : Type} [DecidableEq ι] {P : α → Prop} {t : ι → Option α} {i : ι}
    {v : Option α} (h : ∀ j a, t j = some a → P a) (hv : ∀ a, v = some a → P a) :
    ∀ j a, Function.update t i v j = some a → P a := by
  intro j a ha
  by_cases hj : j = i
  · rw [hj, Function.update_self] at ha
    exact hv a ha
  · rw [Function.update_of_ne hj] at ha
    exact h j a ha

theorem baseIds_add {arp : ArpTable} (h : BaseIds arp) (addr : UInt32) (n : RtnlNeigh) :
    BaseIds (Function.update arp addr (some n.arpResult)) :=
  entries_update h fun _ ha => Option.some.inj ha ▸ rfl

theorem baseIds_remove {arp : ArpTable} (h : BaseIds arp) (addr : UInt32) :
    BaseIds (Function.update arp addr none) :=
  entries_update h fun _ ha => (Option.some_ne_none _ ha.symm).elim

theorem baseIds_arpCb {arp : ArpTable} (h : BaseIds arp) (n : RtnlNeigh) (action : NlAct) :
    BaseIds ((nwDbManagerArpCb n action).exec arpHandle arp).2 := by
  unfold nwDbManagerArpCb
  cases n.dst with
  | other family bytes => exact h
  | inet addr =>
    cases action with
    | new =>
      by_cases hvalid : validNeighbor n = true
      · simp only [if_pos hvalid]
        exact baseIds_add h addr n
      · simp only [if_neg hvalid]
        exact h
    | del => exact baseIds_remove h addr
    | change =>
      by_cases hvalid : validNeighbor n = true
      · simp only [if_pos hvalid]
        exact baseIds_add h addr n
      · simp only [if_neg hvalid]
        exact baseIds_remove h addr

theorem baseIds_arpTableInit : ∀ (neighs : List RtnlNeigh) {arp : ArpTable}, BaseIds arp →
    BaseIds ((nwDbManagerArpTableInit neighs).exec arpHandle arp).2
  | [], _, h => h
  | n :: neighs, arp, h => by
    rw [exec_arpTableInit_cons]
    exact baseIds_arpTableInit neighs (baseIds_arpCb h n .new)

variable (routes neighs myMac) in
theorem NetSystem.baseIds_run (evs : List NetEvent) :
    BaseIds (evs.foldl NetSystem.step (.start myMac routes neighs)).neigh.arp := by
  have hstep (s : NetSystem) (ev : NetEvent) (h : BaseIds s.neigh.arp) (_ : True) :
      BaseIds (s.step ev).neigh.arp := by
    cases ev with
    | route ev => exact h
    | neigh ev => exact baseIds_arpCb h ev.neighbor ev.action
  refine Always.invariant hstep _ evs ?_ (Always.of_forall (fun _ _ => trivial) _ _)
  exact baseIds_arpTableInit neighs fun _ _ hr => (Option.some_ne_none _ hr.symm).elim

/-- The tables that the data plane searches. -/
def NetSystem.tables (s : NetSystem) : NetTables := ⟨s.route.fib, s.neigh.arp, s.interfaces⟩

theorem mac_addNwIfEntries : ∀ (inds : List Nat) {t : InterfaceTable},
    (∀ l e, t l = some e → e.macAddress = myMac) → ∀ l e,
      ((addNwIfEntries myMac inds).exec (ifHandle myMac) t).2 l = some e → e.macAddress = myMac
  | [], _, h => h
  | _ :: inds, _, h =>
    mac_addNwIfEntries inds (entries_update h fun _ ha => Option.some.inj ha ▸ rfl)

/-- The entries of all interfaces have the own address. -/
theorem mac_interfacesOf {e : NwIfEntry} (h : interfacesOf myMac l = some e) :
    e.macAddress = myMac := by
  refine mac_addNwIfEntries (List.range userNwIfNum.toNat) ?_ l e h
  refine entries_update (fun _ _ ha => (Option.some_ne_none _ ha.symm).elim) fun _ ha => ?_
  exact Option.some.inj ha ▸ rfl

/-- The answers of a FIB for its routes. -/
theorem FibInv.lookup {fib : NwState} (h : FibInv fib) (addr : UInt32) :
    LongestPrefixMatch fib.HasRoute addr (fib.tcamLookup addr) := by
  obtain ⟨l, hl⟩ := h.fibOf
  have hroutes : fib.HasRoute = (· ∈ l) := funext fun e => propext (hl.hasRoute e)
  rw [hroutes]
  exact hl.list.lookup hl.tcam addr

/-- After every run whose changes are followed, a frame that is routed to any address goes to a
valid neighbour that is the next hop of a route with the longest prefix, or is freed where there
is none. The thread's entry is that of the interface where the frame came in. -/
theorem forwarding_run (h : NetSystem.Listed routes neighs) {evs : List NetEvent}
    (hevs : Always (fun s ev => s.Consistent ev ∧ s.Followed ev) NetSystem.step
      (.start myMac routes neighs) evs) (hash : LagHash) (destIp : UInt32)
    (hm : interfacesOf myMac l = some m.interfaceResult) (w : Wire) :
    ∃ dest, Forwards (evs.foldl NetSystem.step (.start myMac routes neighs)).route.routes
        (evs.foldl NetSystem.step (.start myMac routes neighs)).neigh.neighs destIp dest ∧
      w.Outcome myMac hash
        (routed (evs.foldl NetSystem.step (.start myMac routes neighs)).tables hash destIp m w)
        dest := by
  have hs := NetSystem.mirrors_run h hevs
  exact forwards_of_match hash w hs.route.2 (hs.route.1.lookup destIp) hs.neigh
    (NetSystem.baseIds_run routes neighs myMac evs) hs.interfaces (mac_interfacesOf hm)

/-- A route and a neighbour that are new. -/
def exampleNetEvents : List NetEvent :=
  [.route ⟨exampleRoute 1, .new⟩, .neigh ⟨exampleNeigh 1, .new⟩]

def exampleLagHash : LagHash := ⟨fun _ => 2, fun _ => by decide⟩

/-- A frame that came in on the first interface, before it is routed. -/
def exampleRouteMem : RouteMem := ⟨nwIfEntry 5 0, ⟨5, 9⟩⟩

def exampleWire : Wire := ⟨⟨5, 9⟩, [], 0, fun _ => 0⟩

theorem listed_nil : NetSystem.Listed [] [] := ⟨trivial, .nil⟩

theorem exampleNetEvents_followed :
    Always (fun s ev => s.Consistent ev ∧ s.Followed ev) NetSystem.step (.start 5 [] [])
      exampleNetEvents := by
  refine ⟨⟨fun _ => ⟨rfl, fun hfull => absurd hfull (by decide)⟩, fun _ => trivial⟩, ⟨rfl, ?_⟩,
    trivial⟩
  rintro (hr | ⟨hr, -⟩) <;> cases hr

theorem forwarding_run_example : ∃ dest,
    Forwards (exampleNetEvents.foldl NetSystem.step (.start 5 [] [])).route.routes
      (exampleNetEvents.foldl NetSystem.step (.start 5 [] [])).neigh.neighs 0x0100000a dest ∧
    exampleWire.Outcome 5 exampleLagHash (routed
      (exampleNetEvents.foldl NetSystem.step (.start 5 [] [])).tables exampleLagHash 0x0100000a
      exampleRouteMem exampleWire) dest :=
  forwarding_run (l := 0) listed_nil exampleNetEvents_followed exampleLagHash 0x0100000a rfl
    exampleWire

/-- The callback for a route of the main table goes through the states of the change. -/
theorem cb_states {r : RtnlRoute} {action : NlAct} {fib : NwState} (hmain : r.InMain) :
    (nwDbManagerFibCb r action).states nwHandle fib =
      (action.fibOp r).prog.states nwHandle fib := by
  obtain ⟨hfamily, hvalid⟩ := hmain
  cases action <;>
    simp only [nwDbManagerFibCb, hfamily, hvalid, if_true, states_map, NlAct.fibOp, FibOp.prog]

theorem cb_states_other {r : RtnlRoute} {action : NlAct} {fib : NwState} (hmain : ¬ r.InMain) :
    ∀ fib' ∈ (nwDbManagerFibCb r action).states nwHandle fib, fib' = fib := by
  have hpure : nwDbManagerFibCb r action = pure true := by
    unfold nwDbManagerFibCb
    split
    next hfamily =>
      have hvalid : validRouteEntry r ≠ true := fun hvalid => hmain ⟨hfamily, hvalid⟩
      cases action <;> simp [hvalid]
    next => rfl
  intro fib' hfib'
  rw [hpure] at hfib'
  exact List.mem_singleton.mp hfib'

/-- While the FIB follows a change of a route after such a run, a frame goes, at every step of the
change, where the routes before the change or the routes after it send it. -/
theorem forwarding_hitless (h : NetSystem.Listed routes neighs) {evs : List NetEvent}
    (hevs : Always (fun s ev => s.Consistent ev ∧ s.Followed ev) NetSystem.step
      (.start myMac routes neighs) evs) (ev : RouteEvent)
    (hs : s = evs.foldl NetSystem.step (.start myMac routes neighs))
    (hev : s.Consistent (.route ev) ∧ s.Followed (.route ev)) (hash : LagHash) (destIp : UInt32)
    (hm : interfacesOf myMac l = some m.interfaceResult) (w : Wire) :
    ∀ fib ∈ (nwDbManagerFibCb ev.route ev.action).states nwHandle s.route.fib, ∃ dest,
      (Forwards s.route.routes s.neigh.neighs destIp dest ∨
        Forwards (s.route.step ev).routes s.neigh.neighs destIp dest) ∧
      w.Outcome myMac hash (routed { s.tables with fib := fib } hash destIp m w) dest := by
  intro fib hfib
  have hmirrors := NetSystem.mirrors_run h hevs
  have hbase := NetSystem.baseIds_run routes neighs myMac evs
  rw [← hs] at hmirrors hbase
  have hbefore (hmatch : LongestPrefixMatch s.route.fib.HasRoute destIp (fib.tcamLookup destIp)) :
      ∃ dest, Forwards s.route.routes s.neigh.neighs destIp dest ∧
        w.Outcome myMac hash (routed { s.tables with fib := fib } hash destIp m w) dest :=
    forwards_of_match hash w hmirrors.route.2 hmatch hmirrors.neigh hbase hmirrors.interfaces
      (mac_interfacesOf hm)
  have hnext := (s.route.mirrors_step_iff hmirrors.route hev.1).mpr hev.2
  by_cases hmain : ev.route.InMain
  · rw [cb_states hmain] at hfib
    have hstep := fibStep_hitless hmirrors.route.1 (ev.action.fibOp ev.route)
    rcases hstep.during fib hfib destIp with hmatch | hmatch
    · obtain ⟨dest, hdest, hout⟩ := hbefore hmatch
      exact ⟨dest, .inl hdest, hout⟩
    · rw [← step_fib hmain] at hmatch
      obtain ⟨dest, hdest, hout⟩ := forwards_of_match (t := { s.tables with fib := fib })
        hash w hnext.2 hmatch hmirrors.neigh hbase hmirrors.interfaces
        (mac_interfacesOf hm)
      exact ⟨dest, .inr hdest, hout⟩
  · obtain rfl : fib = s.route.fib := cb_states_other hmain fib hfib
    obtain ⟨dest, hdest, hout⟩ := hbefore (hmirrors.route.1.lookup destIp)
    exact ⟨dest, .inl hdest, hout⟩

/-- The states that a new route goes through. -/
theorem forwarding_hitless_example :
    ((nwDbManagerFibCb (exampleRoute 2) .new).states nwHandle
      (exampleNetEvents.foldl NetSystem.step (.start 5 [] [])).route.fib).length = 2 ∧
    ∀ fib ∈ (nwDbManagerFibCb (exampleRoute 2) .new).states nwHandle
      (exampleNetEvents.foldl NetSystem.step (.start 5 [] [])).route.fib, ∃ dest,
      (Forwards (exampleNetEvents.foldl NetSystem.step (.start 5 [] [])).route.routes
          (exampleNetEvents.foldl NetSystem.step (.start 5 [] [])).neigh.neighs 0x0100000a dest ∨
        Forwards ((exampleNetEvents.foldl NetSystem.step (.start 5 [] [])).route.step
            ⟨exampleRoute 2, .new⟩).routes
          (exampleNetEvents.foldl NetSystem.step (.start 5 [] [])).neigh.neighs 0x0100000a dest) ∧
      exampleWire.Outcome 5 exampleLagHash (routed
        { (exampleNetEvents.foldl NetSystem.step (.start 5 [] [])).tables with fib := fib }
        exampleLagHash 0x0100000a exampleRouteMem exampleWire) dest :=
  ⟨by decide +kernel, forwarding_hitless (l := 0) listed_nil exampleNetEvents_followed
    ⟨exampleRoute 2, .new⟩ rfl
    ⟨fun _ => ⟨rfl, fun hfull => absurd hfull (by decide +kernel)⟩, fun _ => trivial⟩ exampleLagHash
    0x0100000a rfl exampleWire⟩

end Runs

end Alvs
