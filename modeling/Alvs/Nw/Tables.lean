import Alvs.Cp.ClearStats
import Alvs.Cp.RouteMirror
import Alvs.Dp.Server

/-!
# The network tables

The network thread fills three tables of the chip when it starts, the interfaces, the FIB and the
ARP table (`nw_db_manager_table_init`), and then follows the changes of the routes and of the
neighbours that libnl reports.

The FIB of the routes that are there at the start is the one that their `NEW` callbacks would
make (`routeStart_eq`). `NetSystem.mirrors_run` : in a run whose changes are all followed, the
FIB and the ARP table mirror the kernel in every state, and the interfaces are those of the start.
-/

namespace Alvs

open ProgLogic Prog

/-! ## Interfaces -/

/-- `enum dp_path_type`. -/
inductive DpPathType
  | fromNwPath
  | fromHostPath
  | notValid
  deriving DecidableEq

/-- The fields of `struct nw_if_result` that are filled. -/
structure NwIfEntry where
  pathType : DpPathType
  macAddress : EtherAddr
  outputChannel : UInt8
  nwStatsBase : SumAddr
  deriving DecidableEq

/-- The posted statistics of an interface. -/
def nwIfStatsBase (logicalId : UInt8) : SumAddr :=
  ifStatsBase.add (logicalId.toUInt32 * nwNumOfIfStats)

/-- The logical identifier of network interface `ind`, and of the host for `userNwIfNum`. -/
def ifLogicalId (ind : Nat) : UInt8 := (userBaseLogicalId + ind.toUInt32).toUInt8

/-- `1 << 7`, the side of an output channel. -/
def sideBit : UInt8 := (1 : UInt8) <<< (7 : UInt8)

/-- The entry of the host interface. -/
def hostIfEntry (mac : EtherAddr) : NwIfEntry where
  pathType := .fromHostPath
  macAddress := mac
  outputChannel := 24 ||| sideBit
  nwStatsBase := nwIfStatsBase (ifLogicalId userNwIfNum.toNat)

/-- The entry of network interface `ind`. -/
def nwIfEntry (mac : EtherAddr) (ind : Nat) : NwIfEntry where
  pathType := .fromNwPath
  macAddress := mac
  outputChannel := ind.toUInt8 % 2 * 12 ||| if ind < 2 then 0 else sideBit
  nwStatsBase := nwIfStatsBase (ifLogicalId ind)

inductive IfCall
  | infraGetMyMac
  | infraAddEntry (logicalId : UInt8) (result : NwIfEntry)

/-- `none` or `false` where the call fails. -/
def IfCall.Res : IfCall → Type
  | infraGetMyMac => Option EtherAddr
  | infraAddEntry _ _ => Bool

abbrev IfProg := Prog IfCall IfCall.Res

abbrev InterfaceTable := UInt8 → Option NwIfEntry

/-- The effect of a call that succeeds, on a machine with address `myMac`. -/
def ifHandle (myMac : EtherAddr) : (op : IfCall) → InterfaceTable → op.Res × InterfaceTable
  | .infraGetMyMac, t => (some myMac, t)
  | .infraAddEntry logicalId result, t => (true, Function.update t logicalId (some result))

def infraGetMyMac : IfProg (Option EtherAddr) := Prog.perform IfCall.infraGetMyMac

def infraAddIfEntry (logicalId : UInt8) (result : NwIfEntry) : IfProg Bool :=
  Prog.perform (IfCall.infraAddEntry logicalId result)

/-- The loop over the network interfaces. -/
def addNwIfEntries (mac : EtherAddr) : List Nat → IfProg Bool
  | [] => pure true
  | ind :: inds => do
    if ← infraAddIfEntry (ifLogicalId ind) (nwIfEntry mac ind) then addNwIfEntries mac inds
    else pure false

/-- A call that fails ends the application, so the program returns whether it goes on. -/
def nwDbManagerIfTableInit : IfProg Bool := do
  match ← infraGetMyMac with
  | none => pure false
  | some mac =>
    if ← infraAddIfEntry (ifLogicalId userNwIfNum.toNat) (hostIfEntry mac) then
      addNwIfEntries mac (List.range userNwIfNum.toNat)
    else pure false

/-- The interfaces after the start. -/
def interfacesOf (myMac : EtherAddr) : InterfaceTable :=
  (nwDbManagerIfTableInit.exec (ifHandle myMac) fun _ => none).2

theorem exec_addNwIfEntries (myMac mac : EtherAddr) : ∀ (inds : List Nat) (t : InterfaceTable),
    ((addNwIfEntries mac inds).exec (ifHandle myMac) t).2 =
      inds.foldl (fun t ind => Function.update t (ifLogicalId ind) (some (nwIfEntry mac ind))) t
  | [], _ => rfl
  | ind :: inds, t => by
    rw [List.foldl_cons, ← exec_addNwIfEntries myMac mac inds]
    rfl

/-- Every network interface has its entry. -/
theorem interfacesOf_nw (myMac : EtherAddr) {ind : Nat} (h : ind < userNwIfNum.toNat) :
    interfacesOf myMac (ifLogicalId ind) = some (nwIfEntry myMac ind) := by
  have hinit : interfacesOf myMac = ((addNwIfEntries myMac (List.range userNwIfNum.toNat)).exec
      (ifHandle myMac) (Function.update (fun _ => none) (ifLogicalId userNwIfNum.toNat)
        (some (hostIfEntry myMac)))).2 := rfl
  rw [hinit, exec_addNwIfEntries]
  have hcases : ind = 0 ∨ ind = 1 ∨ ind = 2 ∨ ind = 3 := by
    rw [show userNwIfNum.toNat = 4 from rfl] at h
    omega
  rcases hcases with rfl | rfl | rfl | rfl <;> rfl

/-! ## The routes at the start -/

/-- The loop of `nw_db_manager_fib_table_init` over the routes of `AF_INET`. -/
def nwDbManagerFibTableInit : List RtnlRoute → NwProg Bool
  | [] => pure true
  | routeEntry :: routes =>
    if routeEntry.family = RtnlRoute.afInet then
      if validRouteEntry routeEntry then do
        let rc ← nwDbAddFibEntry routeEntry true
        if rc.goesOn then nwDbManagerFibTableInit routes else pure false
      else nwDbManagerFibTableInit routes
    else nwDbManagerFibTableInit routes

/-- The routes that libnl lists, as changes. -/
def newRoutes (routes : List RtnlRoute) : List RouteEvent := routes.map fun r => ⟨r, .new⟩

namespace RouteSystem

/-- The system with the FIB that is filled from the routes of the list. -/
def start (routes : List RtnlRoute) : RouteSystem where
  routes := (routes.filter fun r => r.InMain).foldl RouteTable.set .empty
  fib := ((nwDbManagerFibTableInit routes).exec nwHandle .init).2

end RouteSystem

section Start

/-- Adding a route ends the application only where it finds no room. -/
theorem addRoute_goesOn {s : NwState} (h : FibInv s) {r : RtnlRoute}
    (hroom : s.fibEntryCount = nwFibTcamMaxSize → ∃ e, s.HasRoute e ∧ e.key = r.key) :
    ((nwDbAddFibEntry r true).exec nwHandle s).1.goesOn = true := by
  obtain ⟨l, hl⟩ := h.fibOf
  obtain ⟨hnone, hk⟩ | ⟨A, d, C, rfl, hd, hfound⟩ := hl.find?_key r.key
  · have hnotFull : s.fibEntryCount ≠ nwFibTcamMaxSize := by
      intro hfull
      obtain ⟨e, he, hkey⟩ := hroom hfull
      exact hk (List.mem_map.mpr ⟨e, (hl.hasRoute e).mp he, hkey⟩)
    obtain ⟨A, M, rfl, hA, hM⟩ := exists_cut r.fibRoute.maskLength hl.list.sorted
    have hsize : (A ++ M).length < nwFibTcamMaxSize.toNat :=
      lt_of_le_of_ne hl.list.size fun heq => hnotFull (hl.full_iff.mpr heq)
    have hwp := wp_nwDbAddFibEntry (I := fun _ => True) hl hk hsize hA hM (fun _ _ _ => trivial)
      fun _ _ => trivial
    have hok := exec_of_wp nwHandle _ _ hwp
    rw [hok.1]
    rfl
  · have hget : s.fibEntries.find? (·.key = (NwDbFibEntry.ofDst r.dst).key) =
        some (d.atIndex A.length) := hfound
    have hwp : (nwDbAddFibEntry r true).wp (tcamSpec fun _ => True) (fun rc _ => rc = .failure)
        s := by
      simp only [nwDbAddFibEntry, wp_bind, wp_internalDbGetFibEntry, hget, wp_pure]
      exact ⟨trivial, trivial⟩
    have hfailure : ((nwDbAddFibEntry r true).exec nwHandle s).1 = .failure :=
      exec_of_wp nwHandle _ _ hwp
    rw [hfailure]
    rfl

theorem foldl_newRoutes : ∀ (routes : List RtnlRoute) {s : RouteSystem}, s.Mirrors →
    Always RouteSystem.Consistent RouteSystem.step s (newRoutes routes) →
    (newRoutes routes).foldl RouteSystem.step s =
      ⟨(routes.filter fun r => r.InMain).foldl RouteTable.set s.routes,
        ((nwDbManagerFibTableInit routes).exec nwHandle s.fib).2⟩
  | [], _, _, _ => rfl
  | r :: routes, s, h, hc => by
    have hnext : (s.step ⟨r, .new⟩).Mirrors :=
      (s.mirrors_step_iff h hc.1).mpr fun _ => trivial
    have hrest := foldl_newRoutes routes hnext hc.2
    rw [newRoutes, List.map_cons, List.foldl_cons]
    refine hrest.trans ?_
    by_cases hmain : r.InMain
    · have hfib : (s.step ⟨r, .new⟩).fib = ((nwDbAddFibEntry r true).exec nwHandle s.fib).2 :=
        step_fib hmain
      have hroutes : (s.step ⟨r, .new⟩).routes = s.routes.set r := if_pos hmain
      have hgoes := addRoute_goesOn h.1 (hc.1 hmain).2
      rw [hfib, hroutes, List.filter_cons, if_pos (by simpa using hmain), List.foldl_cons]
      congr 1
      simp only [nwDbManagerFibTableInit, if_pos hmain.1, if_pos hmain.2, exec_bind, hgoes, if_true]
    · rw [step_other hmain, List.filter_cons, if_neg (by simpa using hmain)]
      congr 1
      rw [nwDbManagerFibTableInit]
      split
      next hfamily => rw [if_neg fun hvalid => hmain ⟨hfamily, hvalid⟩]
      next => rfl

/-- The FIB of the routes that are there at the start is the one that their callbacks make. -/
theorem routeStart_eq {routes : List RtnlRoute}
    (h : Always RouteSystem.Consistent RouteSystem.step .init (newRoutes routes)) :
    RouteSystem.start routes = (newRoutes routes).foldl RouteSystem.step .init :=
  (foldl_newRoutes routes RouteSystem.mirrors_init h).symm

theorem RouteSystem.mirrors_newRoutes : ∀ (routes : List RtnlRoute) {s : RouteSystem}, s.Mirrors →
    Always RouteSystem.Consistent RouteSystem.step s (newRoutes routes) →
    ((newRoutes routes).foldl RouteSystem.step s).Mirrors
  | [], _, h, _ => h
  | _ :: routes, s, h, hc =>
    mirrors_newRoutes routes ((s.mirrors_step_iff h hc.1).mpr fun _ => trivial) hc.2

end Start

/-! ## The network thread -/

/-- The kernel with the tables that the network thread keeps. -/
structure NetSystem where
  route : RouteSystem
  neigh : ArpSystem
  interfaces : InterfaceTable

/-- A change that libnl reports. -/
inductive NetEvent
  | route (ev : RouteEvent)
  | neigh (ev : NeighEvent)

namespace NetSystem

/-- After `nw_db_manager_table_init`, with the routes and neighbours that libnl lists. -/
def start (myMac : EtherAddr) (routes : List RtnlRoute) (neighs : List RtnlNeigh) : NetSystem where
  route := .start routes
  neigh := .start neighs
  interfaces := interfacesOf myMac

def step (s : NetSystem) : NetEvent → NetSystem
  | .route ev => { s with route := s.route.step ev }
  | .neigh ev => { s with neigh := s.neigh.step ev }

/-- The change is one of the kernel's tables, and a route to a new prefix finds room. -/
def Consistent (s : NetSystem) : NetEvent → Prop
  | .route ev => s.route.Consistent ev
  | .neigh ev => s.neigh.Consistent ev

/-- The tables follow the change. -/
def Followed (s : NetSystem) : NetEvent → Prop
  | .route ev => s.route.Followed ev
  | .neigh ev => s.neigh.LeavesNone ev

/-- What libnl lists at the start is what the kernel has, each once, and the routes find room. -/
structure Listed (routes : List RtnlRoute) (neighs : List RtnlNeigh) : Prop where
  routes : Always RouteSystem.Consistent RouteSystem.step .init (newRoutes routes)
  neighs : neighs.Pairwise fun n n' => n.key ≠ n'.key

/-- The FIB and the ARP table mirror the kernel, and the interfaces are those of the start. -/
structure Mirrors (myMac : EtherAddr) (s : NetSystem) : Prop where
  route : s.route.Mirrors
  neigh : s.neigh.Mirrors
  interfaces : s.interfaces = interfacesOf myMac

section Runs

variable {myMac : EtherAddr} {s : NetSystem} {routes : List RtnlRoute} {neighs : List RtnlNeigh}

theorem mirrors_start (h : Listed routes neighs) : (start myMac routes neighs).Mirrors myMac where
  route := by
    have hroute := RouteSystem.mirrors_newRoutes routes RouteSystem.mirrors_init h.routes
    rwa [← routeStart_eq h.routes] at hroute
  neigh := mirrors_init neighs h.neighs (fun _ _ => rfl)
    ⟨fun _ _ hn => (Option.some_ne_none _ hn.mem.symm).elim,
      fun _ _ hr => (Option.some_ne_none _ hr.symm).elim⟩
  interfaces := rfl

/-- A change that is followed keeps the mirrors. -/
theorem Mirrors.step (h : s.Mirrors myMac) {ev : NetEvent} (hc : s.Consistent ev)
    (hf : s.Followed ev) : (s.step ev).Mirrors myMac := by
  cases ev with
  | route ev => exact ⟨(s.route.mirrors_step_iff h.route hc).mpr hf, h.neigh, h.interfaces⟩
  | neigh ev => exact ⟨h.route, (mirrors_step_iff h.neigh hc).mpr hf, h.interfaces⟩

/-- The tables mirror the kernel after every run whose changes are followed. -/
theorem mirrors_run (h : Listed routes neighs) {evs : List NetEvent}
    (hevs : Always (fun s ev => s.Consistent ev ∧ s.Followed ev) NetSystem.step
      (start myMac routes neighs) evs) :
    (evs.foldl NetSystem.step (start myMac routes neighs)).Mirrors myMac := by
  have hstep (s : NetSystem) (ev : NetEvent) (h : s.Mirrors myMac)
      (hok : s.Consistent ev ∧ s.Followed ev) : (s.step ev).Mirrors myMac := h.step hok.1 hok.2
  exact Always.invariant hstep _ evs (mirrors_start h) hevs

end Runs

end NetSystem

end Alvs
