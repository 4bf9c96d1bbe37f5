import Alvs.Cp.Arp
import Alvs.Cp.HitlessFib

/-!
# The FIB and the routes of the kernel

The network thread follows the IPv4 routes of the kernel's main table, which are told apart by
prefix, type of service and priority, in a FIB that is keyed by the prefix alone
(`nw_db_manager_fib_cb`).

The entry of a prefix is deleted with any route to it, and a next hop is left in an entry that
is changed to a route without one. `routeMirror_iff` : the FIB mirrors the routes in a run exactly
if neither happens.
-/

namespace Alvs

open ProgLogic Prog

/-! ## The callback -/

/-- `AF_INET` in the 8 bits of the family of a route. -/
def RtnlRoute.afInet : UInt8 := 2

def rtTableMain : UInt32 := 254

def validRouteEntry (routeEntry : RtnlRoute) : Bool := routeEntry.table = rtTableMain

/-- The error is not a fatal one, which ends the application. -/
def NwDbRc.goesOn (rc : NwDbRc) : Bool := rc ≠ .internalError && rc ≠ .npsError

/-- Returns whether the application goes on. Routes of other families are only logged. -/
def nwDbManagerFibCb (routeEntry : RtnlRoute) (action : NlAct) : NwProg Bool :=
  if routeEntry.family = RtnlRoute.afInet then
    match action with
    | .new =>
      if validRouteEntry routeEntry then NwDbRc.goesOn <$> nwDbAddFibEntry routeEntry true
      else pure true
    | .del =>
      if validRouteEntry routeEntry then NwDbRc.goesOn <$> nwDbDeleteFibEntry routeEntry
      else pure true
    | .change =>
      if validRouteEntry routeEntry then NwDbRc.goesOn <$> nwDbModifyFibEntry routeEntry
      else pure true
  else pure true

/-- The change of the FIB for an action. -/
def NlAct.fibOp (routeEntry : RtnlRoute) : NlAct → FibOp
  | .new => .add routeEntry
  | .del => .delete routeEntry
  | .change => .modify routeEntry

/-! ## The routes of the kernel -/

/-- A route of the IPv4 main table. -/
def RtnlRoute.InMain (r : RtnlRoute) : Prop :=
  r.family = RtnlRoute.afInet ∧ validRouteEntry r = true

instance (r : RtnlRoute) : Decidable r.InMain := inferInstanceAs (Decidable (_ ∧ _))

/-- What the kernel tells the routes of a table apart by. -/
abbrev RouteKey := NlAddr × UInt8 × UInt32

def RtnlRoute.routeKey (r : RtnlRoute) : RouteKey := (r.dst, r.tos, r.priority)

/-- The IPv4 main table of the kernel, each route under its key. -/
structure RouteTable where
  entry : RouteKey → Option RtnlRoute
  key_eq : ∀ k r, entry k = some r → r.routeKey = k

namespace RouteTable

def empty : RouteTable := ⟨fun _ => none, nofun⟩

def set (t : RouteTable) (r : RtnlRoute) : RouteTable where
  entry := Function.update t.entry r.routeKey (some r)
  key_eq k r' h := by
    by_cases hk : k = r.routeKey
    · rw [hk, Function.update_self] at h
      rw [hk, Option.some.inj h]
    · rw [Function.update_of_ne hk] at h
      exact t.key_eq k r' h

def erase (t : RouteTable) (k : RouteKey) : RouteTable where
  entry := Function.update t.entry k none
  key_eq k' r h := by
    by_cases hk : k' = k
    · rw [hk, Function.update_self] at h
      cases h
    · rw [Function.update_of_ne hk] at h
      exact t.key_eq k' r h

/-- The kernel has the route. -/
def Has (t : RouteTable) (r : RtnlRoute) : Prop := t.entry r.routeKey = some r

section Has

variable {t : RouteTable} {r r' : RtnlRoute} {k : RouteKey}

theorem has_of_entry (h : t.entry k = some r) : t.Has r := by
  rw [Has, t.key_eq k r h]
  exact h

theorem has_set : (t.set r).Has r' ↔ r' = r ∨ r'.routeKey ≠ r.routeKey ∧ t.Has r' := by
  change Function.update t.entry r.routeKey (some r) r'.routeKey = some r' ↔ _
  by_cases hk : r'.routeKey = r.routeKey
  · rw [hk, Function.update_self, Option.some.injEq]
    exact ⟨fun h => .inl h.symm, fun h => (h.resolve_right fun h' => h'.1 rfl).symm⟩
  · rw [Function.update_of_ne hk]
    exact ⟨fun h => .inr ⟨hk, h⟩, fun h => (h.resolve_left fun heq => hk (heq ▸ rfl)).2⟩

theorem has_erase : (t.erase k).Has r' ↔ r'.routeKey ≠ k ∧ t.Has r' := by
  change Function.update t.entry k none r'.routeKey = some r' ↔ _
  by_cases hk : r'.routeKey = k
  · rw [hk, Function.update_self]
    exact ⟨nofun, fun h => absurd rfl h.1⟩
  · rw [Function.update_of_ne hk]
    exact ⟨fun h => ⟨hk, h⟩, And.right⟩

end Has

end RouteTable

/-- Routes with the same key have the same prefix. -/
theorem RtnlRoute.key_eq_of_routeKey {r r' : RtnlRoute} (h : r.routeKey = r'.routeKey) :
    r.key = r'.key := by
  have hdst : r.dst = r'.dst := congrArg Prod.fst h
  rw [RtnlRoute.key, RtnlRoute.key, hdst]

/-! ## The system -/

/-- A change that libnl reports. -/
structure RouteEvent where
  route : RtnlRoute
  action : NlAct

/-- The routes of the kernel and the FIB. -/
structure RouteSystem where
  routes : RouteTable
  fib : NwState

/-- A prefix has an entry exactly if the kernel has a route to it, and the entry is the one that
`set_fib_params` makes of such a route. -/
structure FibMirror (t : RouteTable) (s : NwState) : Prop where
  present : ∀ r, t.Has r → ∃ e, s.HasRoute e ∧ e.key = r.key
  entry : ∀ e, s.HasRoute e → ∃ r, t.Has r ∧ e = r.fibRoute

namespace RouteSystem

def init : RouteSystem := ⟨.empty, .init⟩

/-- Changes of other tables leave the main table. -/
def step (s : RouteSystem) (ev : RouteEvent) : RouteSystem where
  routes :=
    if ev.route.InMain then
      match ev.action with
      | .new | .change => s.routes.set ev.route
      | .del => s.routes.erase ev.route.routeKey
    else s.routes
  fib := ((nwDbManagerFibCb ev.route ev.action).exec nwHandle s.fib).2

/-- The change is one of the main table : a new route was not there, and one that is changed or
deleted was. A route to a new prefix finds room in the FIB. -/
def Consistent (s : RouteSystem) (ev : RouteEvent) : Prop :=
  ev.route.InMain →
    match ev.action with
    | .new => s.routes.entry ev.route.routeKey = none ∧
      (s.fib.fibEntryCount = nwFibTcamMaxSize → ∃ e, s.fib.HasRoute e ∧ e.key = ev.route.key)
    | .change => s.routes.entry ev.route.routeKey ≠ none
    | .del => s.routes.Has ev.route

/-- The FIB is a mirror of the routes, and the TCAM has its entries. -/
def Mirrors (s : RouteSystem) : Prop := FibInv s.fib ∧ FibMirror s.routes s.fib

/-- No other route has the prefix of a route that is deleted, and the entry of one that is changed
to a route without a next hop has none. -/
def Followed (s : RouteSystem) (ev : RouteEvent) : Prop :=
  ev.route.InMain →
    match ev.action with
    | .new => True
    | .del => ∀ r, s.routes.Has r → r.key = ev.route.key → r.routeKey = ev.route.routeKey
    | .change => ∀ e, s.fib.HasRoute e → e.key = ev.route.key →
      ev.route.fibRoute.resultType = .gw ∨ e.nextHop = 0

end RouteSystem

/-! ## One change -/

section Step

variable {r : RtnlRoute} {d : FibRoute}

/-- Only a route with one next hop has one in its entry. -/
theorem fibRoute_nextHop (h : r.fibRoute.resultType ≠ .gw) : r.fibRoute.nextHop = 0 := by
  revert h
  unfold RtnlRoute.fibRoute setFibParams
  split
  · split
    · exact fun _ => rfl
    · split
      · exact fun _ => rfl
      · exact fun h => absurd rfl h
  · exact fun _ => rfl

/-- What a change makes of an entry. -/
theorem modified_cases (r : RtnlRoute) (d : FibRoute) :
    (r.modified d).resultType = r.fibRoute.resultType ∧
      (r.modified d).nextHop = if r.fibRoute.resultType = .gw then r.fibRoute.nextHop
        else d.nextHop := by
  unfold RtnlRoute.modified RtnlRoute.fibRoute setFibParams
  split
  · split
    · exact ⟨rfl, rfl⟩
    · split <;> exact ⟨rfl, rfl⟩
  · exact ⟨rfl, rfl⟩

theorem FibRoute.ext_key {e e' : FibRoute} (hkey : e.key = e'.key)
    (htype : e.resultType = e'.resultType) (hhop : e.nextHop = e'.nextHop) : e = e' := by
  obtain ⟨ip, mask, type, hop⟩ := e
  obtain ⟨ip', mask', type', hop'⟩ := e'
  obtain ⟨rfl, rfl⟩ := Prod.mk.inj hkey
  obtain rfl : type = type' := htype
  obtain rfl : hop = hop' := hhop
  rfl

/-- The entry is that of the route unless a next hop is left in it. -/
theorem modified_eq (hkey : d.key = r.key) (h : r.fibRoute.resultType = .gw ∨ d.nextHop = 0) :
    r.modified d = r.fibRoute := by
  obtain ⟨htype, hhop⟩ := modified_cases r d
  refine FibRoute.ext_key ((modified_key r d).trans (hkey.trans (fibRoute_key r).symm)) htype ?_
  rw [hhop]
  split
  next => rfl
  next hgw => rw [h.resolve_left hgw, fibRoute_nextHop hgw]

namespace FibMirror

variable {t : RouteTable} {s s' : NwState} {full : Prop}

/-- A new route finds the entry of its prefix, or gets one. -/
theorem added (h : FibMirror t s) (hnone : t.entry r.routeKey = none)
    (hroom : full → ∃ e, s.HasRoute e ∧ e.key = r.key)
    (hs : ∀ e, s'.HasRoute e ↔ (FibOp.add r).routes full s.HasRoute e) :
    FibMirror (t.set r) s' := by
  constructor
  · intro r' hr'
    rcases RouteTable.has_set.mp hr' with rfl | ⟨-, hr'⟩
    · by_cases hex : ∃ e, s.HasRoute e ∧ e.key = r'.key
      · obtain ⟨e, he, hkey⟩ := hex
        exact ⟨e, (hs e).mpr (.inl he), hkey⟩
      · have hnew : ∀ e, s.HasRoute e → e.key ≠ r'.key := fun e he hkey => hex ⟨e, he, hkey⟩
        have hfull : ¬ full := fun hfull => hex (hroom hfull)
        exact ⟨r'.fibRoute, (hs _).mpr (.inr ⟨hfull, rfl, hnew⟩), fibRoute_key r'⟩
    · obtain ⟨e, he, hkey⟩ := h.present r' hr'
      exact ⟨e, (hs e).mpr (.inl he), hkey⟩
  · intro e he
    rcases (hs e).mp he with he | ⟨-, rfl, -⟩
    · obtain ⟨r', hr', heq⟩ := h.entry e he
      refine ⟨r', RouteTable.has_set.mpr (.inr ⟨fun hk => ?_, hr'⟩), heq⟩
      rw [RouteTable.Has, hk, hnone] at hr'
      cases hr'
    · exact ⟨r, RouteTable.has_set.mpr (.inl rfl), rfl⟩

/-- The entry of the prefix of a route that goes is deleted. -/
theorem deleted_iff (h : FibMirror t s)
    (hs : ∀ e, s'.HasRoute e ↔ (FibOp.delete r).routes full s.HasRoute e) :
    FibMirror (t.erase r.routeKey) s' ↔
      ∀ r', t.Has r' → r'.key = r.key → r'.routeKey = r.routeKey := by
  constructor
  · intro hm r' hr' hkey
    by_contra hk
    obtain ⟨e, he, hkey'⟩ := hm.present r' (RouteTable.has_erase.mpr ⟨hk, hr'⟩)
    exact ((hs e).mp he).2 (hkey'.trans hkey)
  · intro honly
    refine ⟨fun r' hr' => ?_, fun e he => ?_⟩
    · obtain ⟨hk, hr'⟩ := RouteTable.has_erase.mp hr'
      obtain ⟨e, he, hkey⟩ := h.present r' hr'
      exact ⟨e, (hs e).mpr ⟨he, fun heq => hk (honly r' hr' (hkey.symm.trans heq))⟩, hkey⟩
    · obtain ⟨he, hne⟩ := (hs e).mp he
      obtain ⟨r', hr', rfl⟩ := h.entry e he
      refine ⟨r', RouteTable.has_erase.mpr ⟨fun hk => hne ?_, hr'⟩, rfl⟩
      exact (fibRoute_key r').trans (RtnlRoute.key_eq_of_routeKey hk)

/-- The entry of the prefix of a route that changes is modified. -/
theorem changed_iff (h : FibMirror t s) (hmem : t.entry r.routeKey ≠ none)
    (hs : ∀ e, s'.HasRoute e ↔ (FibOp.modify r).routes full s.HasRoute e) :
    FibMirror (t.set r) s' ↔
      ∀ e, s.HasRoute e → e.key = r.key → r.fibRoute.resultType = .gw ∨ e.nextHop = 0 := by
  constructor
  · intro hm e he hkey
    obtain ⟨r', -, heq⟩ := hm.entry _ ((hs _).mpr (.inr ⟨e, he, hkey, rfl⟩))
    obtain ⟨htype, hhop⟩ := modified_cases r e
    by_cases hgw : r.fibRoute.resultType = .gw
    · exact .inl hgw
    · rw [if_neg hgw, heq] at hhop
      rw [heq] at htype
      have hzero : r'.fibRoute.nextHop = 0 := fibRoute_nextHop (htype ▸ hgw)
      exact .inr (hhop.symm.trans hzero)
  · intro hok
    have hmodified {e : FibRoute} (he : s.HasRoute e) (hkey : e.key = r.key) :
        s'.HasRoute (r.modified e) ∧ (r.modified e).key = r.key :=
      ⟨(hs _).mpr (.inr ⟨e, he, hkey, rfl⟩), (modified_key r e).trans hkey⟩
    refine ⟨fun r' hr' => ?_, fun e he => ?_⟩
    · rcases RouteTable.has_set.mp hr' with rfl | ⟨-, hr'⟩
      · obtain ⟨old, hold⟩ := Option.ne_none_iff_exists'.mp hmem
        obtain ⟨e, he, hkey⟩ := h.present old (RouteTable.has_of_entry hold)
        have hsame : old.key = r'.key := RtnlRoute.key_eq_of_routeKey (t.key_eq _ _ hold)
        exact ⟨_, hmodified he (hkey.trans hsame)⟩
      · obtain ⟨e, he, hkey⟩ := h.present r' hr'
        by_cases heq : e.key = r.key
        · obtain ⟨he', hkey'⟩ := hmodified he heq
          exact ⟨_, he', hkey'.trans (heq.symm.trans hkey)⟩
        · exact ⟨e, (hs e).mpr (.inl ⟨he, heq⟩), hkey⟩
    · rcases (hs e).mp he with ⟨he, hne⟩ | ⟨d, hd, hkey, rfl⟩
      · obtain ⟨r', hr', rfl⟩ := h.entry e he
        refine ⟨r', RouteTable.has_set.mpr (.inr ⟨fun hk => hne ?_, hr'⟩), rfl⟩
        exact (fibRoute_key r').trans (RtnlRoute.key_eq_of_routeKey hk)
      · exact ⟨r, RouteTable.has_set.mpr (.inl rfl), modified_eq hkey (hok d hd hkey)⟩

end FibMirror

variable {s : RouteSystem}

/-- The callback for a route of the main table. -/
theorem step_fib {action : NlAct} (hmain : r.InMain) :
    (s.step ⟨r, action⟩).fib = s.fib.fibStep (action.fibOp r) := by
  obtain ⟨hfamily, hvalid⟩ := hmain
  cases action <;>
    simp [RouteSystem.step, nwDbManagerFibCb, hfamily, hvalid, NwState.fibStep, FibOp.prog,
      NlAct.fibOp]

theorem step_other {action : NlAct} (hmain : ¬ r.InMain) : s.step ⟨r, action⟩ = s := by
  have hfib : (nwDbManagerFibCb r action).exec nwHandle s.fib = (true, s.fib) := by
    unfold nwDbManagerFibCb
    split
    next hfamily =>
      have hvalid : validRouteEntry r ≠ true := fun hvalid => hmain ⟨hfamily, hvalid⟩
      cases action <;> simp [hvalid]
    next => rfl
  simp only [RouteSystem.step, if_neg hmain, hfib]

/-- A change keeps the mirror exactly if the FIB follows it. -/
theorem RouteSystem.mirrors_step_iff (s : RouteSystem) (h : s.Mirrors) {ev : RouteEvent}
    (hc : s.Consistent ev) :
    (s.step ev).Mirrors ↔ s.Followed ev := by
  obtain ⟨r, action⟩ := ev
  by_cases hmain : r.InMain
  · obtain ⟨hinv, hmirror⟩ := h
    have hfib : (s.step ⟨r, action⟩).fib = s.fib.fibStep (action.fibOp r) := step_fib hmain
    have hop := fibStep_hitless hinv (action.fibOp r)
    have hc := hc hmain
    rw [Mirrors, hfib, and_iff_right hop.inv]
    cases action with
    | new =>
      obtain ⟨hnone, hroom⟩ := hc
      refine iff_of_true ?_ fun _ => trivial
      rw [step, if_pos hmain]
      exact hmirror.added hnone hroom hop.routes
    | del =>
      refine Iff.trans ?_ (forall_prop_of_true hmain).symm
      rw [step, if_pos hmain]
      exact hmirror.deleted_iff hop.routes
    | change =>
      refine Iff.trans ?_ (forall_prop_of_true hmain).symm
      rw [step, if_pos hmain]
      exact hmirror.changed_iff hc hop.routes
  · rw [step_other hmain]
    exact iff_of_true h fun hm => absurd hm hmain

end Step

/-! ## Runs -/

theorem RouteSystem.mirrors_init : RouteSystem.init.Mirrors := ⟨fibInv_init, nofun, fun _ he => by
  obtain ⟨_, hr, _⟩ := he
  cases hr⟩

/-- The FIB mirrors the routes throughout a sequence of changes exactly if no route is deleted
while another one of its prefix is there, and no next hop is left in the entry of a route without
one. -/
theorem routeMirror_iff (evs : List RouteEvent)
    (hevs : Always RouteSystem.Consistent RouteSystem.step .init evs) :
    (∀ k, ((evs.take k).foldl RouteSystem.step .init).Mirrors) ↔
      Always RouteSystem.Followed RouteSystem.step .init evs := by
  have hstep (s : RouteSystem) (ev : RouteEvent) (h : s.Mirrors) (hc : s.Consistent ev) :
      (s.step ev).Mirrors ↔ s.Followed ev := s.mirrors_step_iff h hc
  exact Always.take_iff hstep RouteSystem.mirrors_init hevs

/-- A route to 10.0.0.0/8 by a gateway. -/
def exampleRoute (priority : UInt32) : RtnlRoute where
  family := RtnlRoute.afInet
  table := rtTableMain
  dst := ⟨0x0000000a, 8, by decide⟩
  tos := 0
  priority := priority
  type := rtnUnicast
  gateway := some 0x0100000b
  nnexthops := 1

theorem routeMirror_iff_one :
    (∀ k, (([⟨exampleRoute 1, .new⟩] : List RouteEvent).take k |>.foldl RouteSystem.step
      .init).Mirrors) ↔
      Always RouteSystem.Followed RouteSystem.step .init [⟨exampleRoute 1, .new⟩] :=
  routeMirror_iff _ ⟨fun _ => ⟨rfl, fun hfull => absurd hfull (by decide)⟩, trivial⟩

/-- A route is deleted whose prefix has another one, of a second priority. -/
theorem routeMirror_fails :
    ¬ ∀ (evs : List RouteEvent), Always RouteSystem.Consistent RouteSystem.step .init evs →
      FibMirror (evs.foldl RouteSystem.step .init).routes (evs.foldl RouteSystem.step
        .init).fib := by
  intro h
  have hm := h [⟨exampleRoute 1, .new⟩, ⟨exampleRoute 2, .new⟩, ⟨exampleRoute 2, .del⟩]
    ⟨fun _ => ⟨rfl, fun hfull => absurd hfull (by decide)⟩,
      fun _ => ⟨rfl, fun hfull => absurd hfull (by decide +kernel)⟩, fun _ => rfl, trivial⟩
  obtain ⟨e, ⟨row, hrow, -⟩, -⟩ := hm.present (exampleRoute 1) rfl
  have hempty : ([⟨exampleRoute 1, .new⟩, ⟨exampleRoute 2, .new⟩, ⟨exampleRoute 2, .del⟩].foldl
    RouteSystem.step .init).fib.fibEntries = [] := by decide +kernel
  rw [hempty] at hrow
  cases hrow

end Alvs
