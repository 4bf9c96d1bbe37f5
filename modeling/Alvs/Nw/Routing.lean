import Alvs.Lib.Refine
import Alvs.Nw.Tables

/-!
# Routing a frame

The functions of `nw_routing.h` with the headers of the frame : the FIB is searched for the next
hop, the ARP table for its link layer address, which goes into the Ethernet header, and the frame
is sent on the member of the link aggregation that a hash of the address selects.

`Routing.nwDoRoute_refines` : seen through `Routing.coarsen`, which drops the headers, the calls
are those of `nwDoRoute`.
-/

namespace Alvs

open ProgLogic

def numOfLagMembers : UInt32 := 4

/-- The offset of an interface counter, `enum nw_if_posted_stats_offsets`. -/
def NwIfStats.offset : NwIfStats → UInt32
  | macError => 1
  | ipv4Error => 2
  | notMyMac => 3
  | notIpv4 => 4
  | notTcp => 5
  | failArpLookup => 7
  | failFibLookup => 9
  | rejectByFib => 10
  | unknownFibResult => 11

/-- The addresses of an Ethernet header. -/
structure EtherHeader where
  destMac : EtherAddr
  sourceMac : EtherAddr
  deriving DecidableEq

/-- The memory of a thread that routes a frame : the entry of an interface, and the header in the
buffer of the frame. -/
structure RouteMem where
  interfaceResult : NwIfEntry
  header : EtherHeader

/-- The header with the address of a neighbour and the own address. -/
def RouteMem.addressed (m : RouteMem) (r : NwArpResult) : RouteMem :=
  { m with header := ⟨r.destMacAddr, m.interfaceResult.macAddress⟩ }

inductive RouteCall
  | lookupIntTcam (destIp : UInt32)
  | lookupArpEntry (destIp : UInt32)
  | lookupInterface (logicalId : UInt32)
  /-- `ezdp_hash` of the destination address, to the bits of `NUM_OF_LAG_MEMBERS`. -/
  | hash (destMac : EtherAddr)
  /-- `ezdp_add_posted_ctr` of an interface counter. -/
  | addIfCtr (nwStatsBase : SumAddr) (counter : NwIfStats)
  | addPostedCtr (addr : SumAddr) (value : Int)
  | frameStoreBuf (header : EtherHeader)
  | frameSendToIf (outputChannel : UInt8)
  | frameFree

/-- `none` where a search fails. -/
@[reducible] def RouteCall.Res : RouteCall → Type
  | lookupIntTcam _ => Option NwFibResult
  | lookupArpEntry _ => Option NwArpResult
  | lookupInterface _ => Option NwIfEntry
  | hash _ => UInt32
  | addIfCtr _ _ | addPostedCtr _ _ | frameStoreBuf _ | frameSendToIf _ | frameFree => Unit

abbrev RoutingEvent := Prog.Event RouteCall RouteCall.Res

abbrev RouteProg := LProg RouteCall RouteCall.Res RouteMem

namespace Routing

/-! ## The functions -/

abbrev routeCall (op : RouteCall) : RouteProg op.Res := LProg.call op

def nwDiscardFrame : RouteProg Unit := routeCall .frameFree

def alvsDiscardAndStats (errorId : AlvsErrorStats) : RouteProg Unit := do
  routeCall (.addPostedCtr (alvsErrorStatsAddr errorId) 1)
  routeCall .frameFree

def nwInterfaceIncCounter (counter : NwIfStats) : RouteProg Unit := do
  let m ← get
  routeCall (.addIfCtr m.interfaceResult.nwStatsBase counter)

def nwInterfaceLookup (logicalId : UInt32) : RouteProg Bool := do
  match ← routeCall (.lookupInterface logicalId) with
  | none => pure false
  | some r =>
    modify fun m => { m with interfaceResult := r }
    pure true

def nwSendFrameToNetwork (portId : UInt32) : RouteProg Unit := do
  let m ← get
  let hashValue : UInt32 ← routeCall (.hash m.header.destMac)
  if ← nwInterfaceLookup (portId + hashValue) then
    let m ← get
    routeCall (.frameSendToIf m.interfaceResult.outputChannel)
  else
    alvsDiscardAndStats .sendFrameFail

def nwArpProcessing (destIp : UInt32) : RouteProg Unit := do
  match ← routeCall (.lookupArpEntry destIp) with
  | some r =>
    modify fun m => m.addressed r
    let m ← get
    routeCall (.frameStoreBuf m.header)
    nwSendFrameToNetwork r.baseLogicalId.toUInt32
  | none =>
    nwInterfaceIncCounter .failArpLookup
    nwDiscardFrame

/-- The address to send to, or 0. -/
def nwFibProcessing (destIp : UInt32) : RouteProg UInt32 := do
  match ← routeCall (.lookupIntTcam destIp) with
  | none =>
    nwInterfaceIncCounter .failFibLookup
    pure 0
  | some ⟨.neighbor, _⟩ => pure destIp
  | some ⟨.gw, resDestIp⟩ => pure resDestIp
  | some ⟨.drop, _⟩ =>
    nwInterfaceIncCounter .rejectByFib
    pure 0
  | some ⟨.unknown, _⟩ =>
    nwInterfaceIncCounter .unknownFibResult
    pure 0

def nwDoRoute (destIp : UInt32) : RouteProg Unit := do
  let fibDestIp ← nwFibProcessing destIp
  if fibDestIp = 0 then
    nwDiscardFrame
  else
    nwArpProcessing fibDestIp

/-! ## The calls without the headers -/

/-- The call of the data plane that an event is. -/
def coarsen : RoutingEvent → DpEvent
  | ⟨.lookupIntTcam d, r⟩ => ⟨.fibLookup d, r.map fun r => (r.resultType, r.destIp)⟩
  | ⟨.lookupArpEntry d, r⟩ => ⟨.arpLookup d, r.map (·.baseLogicalId)⟩
  | ⟨.lookupInterface l, r⟩ => ⟨.interfaceLookup l, r.map fun r => ⟨r.outputChannel⟩⟩
  | ⟨.hash _, h⟩ => ⟨.hashDestMac, h⟩
  | ⟨.addIfCtr _ counter, _⟩ => ⟨.nwInterfaceIncCounter counter, ()⟩
  | ⟨.addPostedCtr addr value, _⟩ => ⟨.addPostedCtr addr value, ()⟩
  | ⟨.frameStoreBuf _, _⟩ => ⟨.frameStoreBuf, ()⟩
  | ⟨.frameSendToIf outputChannel, _⟩ => ⟨.frameSendToIf outputChannel, ()⟩
  | ⟨.frameFree, _⟩ => ⟨.frameFree, ()⟩

/-- The memories have an entry with the same output channel. -/
def SameChannel (m : RouteMem) (m' : Cmem) : Prop :=
  m'.interfaceResult.outputChannel = m.interfaceResult.outputChannel

variable {α β : Type}

/-- The program makes the calls of the coarser one, with the same result. -/
abbrev RefinesDp (x : RouteProg α) (y : Dp α) : Prop :=
  LProg.Refines coarsen SameChannel (· = ·) x y

open LProg.Refines

theorem call_refines (op : RouteCall) (op' : DpCall) {R : op.Res → op'.Res → Prop}
    (h : ∀ r, ∃ r', coarsen ⟨op, r⟩ = ⟨op', r'⟩ ∧ R r r') :
    LProg.Refines coarsen SameChannel R (routeCall op) (dpCall op') := of_call h

theorem nwDiscardFrame_refines : RefinesDp nwDiscardFrame Alvs.nwDiscardFrame :=
  call_refines .frameFree .frameFree fun _ => ⟨(), rfl, rfl⟩

theorem alvsDiscardAndStats_refines (errorId : AlvsErrorStats) :
    RefinesDp (alvsDiscardAndStats errorId) (Alvs.alvsDiscardAndStats errorId) := by
  refine .bind (R := (· = ·)) ?_ fun _ _ _ => ?_
  · exact call_refines (.addPostedCtr _ _) (.addPostedCtr _ _) fun _ => ⟨(), rfl, rfl⟩
  · exact call_refines .frameFree .frameFree fun _ => ⟨(), rfl, rfl⟩

theorem nwInterfaceIncCounter_refines (counter : NwIfStats) :
    RefinesDp (nwInterfaceIncCounter counter) (Alvs.nwInterfaceIncCounter counter) :=
  get_bind_left fun _ =>
    call_refines (.addIfCtr _ counter) (.nwInterfaceIncCounter counter) fun _ => ⟨(), rfl, rfl⟩

theorem nwInterfaceLookup_refines (logicalId : UInt32) :
    RefinesDp (nwInterfaceLookup logicalId) (Alvs.nwInterfaceLookup logicalId) := by
  refine .bind (R := fun r r' => r' = r.map fun r => ⟨r.outputChannel⟩)
    (call_refines (.lookupInterface _) (.interfaceLookup _) fun r => ⟨_, rfl, rfl⟩) ?_
  rintro (_ | r) _ rfl
  · exact .pure rfl
  · exact .bind (of_modify fun _ _ _ => rfl) fun _ _ _ => .pure rfl

theorem nwSendFrameToNetwork_refines (portId : UInt32) :
    RefinesDp (nwSendFrameToNetwork portId) (Alvs.nwSendFrameToNetwork portId) := by
  refine get_bind_left fun m => .bind (R := (· = ·))
    (call_refines (.hash _) .hashDestMac fun h => ⟨h, rfl, rfl⟩) ?_
  rintro h _ rfl
  refine .bind (nwInterfaceLookup_refines _) ?_
  rintro found _ rfl
  refine .ite (get_bind fun m m' hm => ?_) (alvsDiscardAndStats_refines _)
  refine call_refines (.frameSendToIf _) (.frameSendToIf _) fun _ => ⟨(), ?_, rfl⟩
  rw [hm]
  rfl

theorem nwArpProcessing_refines (destIp : UInt32) :
    RefinesDp (nwArpProcessing destIp) (Alvs.nwArpProcessing destIp) := by
  refine .bind (R := fun r r' => r' = r.map (·.baseLogicalId))
    (call_refines (.lookupArpEntry _) (.arpLookup _) fun r => ⟨_, rfl, rfl⟩) ?_
  rintro (_ | r) _ rfl
  · exact .bind (nwInterfaceIncCounter_refines _) fun _ _ _ => nwDiscardFrame_refines
  · refine modify_bind (fun _ _ hm => hm) (get_bind_left fun m => ?_)
    exact .bind (R := (· = ·))
      (call_refines (.frameStoreBuf _) .frameStoreBuf fun _ => ⟨(), rfl, rfl⟩) fun _ _ _ =>
      nwSendFrameToNetwork_refines _

theorem nwFibProcessing_refines (destIp : UInt32) :
    RefinesDp (nwFibProcessing destIp) (Alvs.nwFibProcessing destIp) := by
  have hcount (counter : NwIfStats) :
      RefinesDp (do nwInterfaceIncCounter counter; pure (0 : UInt32))
        (do Alvs.nwInterfaceIncCounter counter; pure 0) :=
    .bind (nwInterfaceIncCounter_refines counter) fun _ _ _ => .pure rfl
  refine .bind (R := fun r r' => r' = r.map fun r => (r.resultType, r.destIp))
    (call_refines (.lookupIntTcam _) (.fibLookup _) fun r => ⟨_, rfl, rfl⟩) ?_
  rintro (_ | ⟨type, hop⟩) _ rfl
  · exact hcount _
  · cases type with
    | neighbor | gw => exact .pure rfl
    | drop | unknown => exact hcount _

/-- Routing makes the calls of the coarser model. -/
theorem nwDoRoute_refines (destIp : UInt32) :
    RefinesDp (nwDoRoute destIp) (Alvs.nwDoRoute destIp) := by
  refine .bind (nwFibProcessing_refines destIp) ?_
  rintro fibDestIp _ rfl
  exact .ite nwDiscardFrame_refines (nwArpProcessing_refines fibDestIp)

end Routing

end Alvs
