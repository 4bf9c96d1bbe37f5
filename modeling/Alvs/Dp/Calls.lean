import Alvs.State
import Alvs.Lib.Local

/-!
# The calls of the data plane

A data plane thread works on memory of its own (`Cmem`) and calls the chip : searches in
the hash and direct tables, counters, the pool of connection indexes, the connection
spinlocks and the frame. `DpCall` lists the calls, `DpCall.Res` their results, and
`dpHandle` says what a call does to the chip. What the chip's state does not settle
(whether a hash search meets a memory error, which free index the pool returns, the
tables of the network layer) is in `DpEnv`.

Some calls carry the place they are made in (`ConnSite` and so on). The place has no
effect; it lets a property speak of one search and not of another.
-/

namespace Alvs

open ProgLogic

/-! ## State synchronisation messages -/

/-- `struct alvs_state_sync_conn`. -/
structure StateSyncConn where
  type : UInt8
  protocol : UInt8
  version : UInt8
  size : UInt16
  flags : UInt32
  state : UInt16
  clientPort : UInt16
  virtualPort : UInt16
  serverPort : UInt16
  fwmark : UInt32
  timeout : UInt32
  clientAddr : UInt32
  virtualAddr : UInt32
  serverAddr : UInt32
  deriving DecidableEq

/-- The fields of `struct alvs_state_sync_header` that a backup checks. -/
structure StateSyncHeader where
  reserved : UInt8
  syncid : UInt8
  connCount : UInt8
  version : UInt8
  spare : UInt16
  deriving DecidableEq

/-- What the headers of a sync frame are filled with. -/
structure SyncFrameHeaders where
  sourceIp : UInt32
  syncId : UInt8
  connCount : UInt8
  deriving DecidableEq

/-! ## The memory of a thread -/

inductive AlvsConnSyncStatus
  | need
  | noNeed
  deriving DecidableEq

/-- `struct alvs_conn_sync_state`, with the headers and connections that `frame_data`
holds. -/
structure ConnSyncState where
  connSyncStatus : AlvsConnSyncStatus
  amountBuffers : UInt8
  currentLen : UInt8
  connCount : UInt8
  headers : SyncFrameHeaders
  conns : List StateSyncConn
  deriving DecidableEq

/-- The field of `struct nw_if_result` that the data plane reads to send a frame. -/
structure NwIfResult where
  outputChannel : UInt8
  deriving DecidableEq

/-- The private memory of a thread : the keys and results of its last searches, the state
of its sync frame and the length of its frame. -/
structure Cmem where
  connClassKey : ConnClassificationKey
  connInfoResult : ConnInfoResult
  serverInfoResult : ServerInfoResult
  serviceInfoResult : ServiceInfoResult
  schedServerIndex : UInt32
  connResultIndex : UInt32
  connSyncState : ConnSyncState
  interfaceResult : NwIfResult
  frameLength : UInt32
  deriving DecidableEq

/-- The memory of a thread that has just started. -/
def Cmem.zero : Cmem where
  connClassKey := ⟨0, 0, 0, 0, 0⟩
  connInfoResult := ⟨false, false, false, false, 0, 0, ⟨0, 0, 0, 0, 0⟩, 0, 0, 0⟩
  serverInfoResult := ⟨0, 0, .zero, 0, .zero, .zero, 0, 0, 0, .zero⟩
  serviceInfoResult := ⟨.roundRobin, 0, .zero, .zero, 0⟩
  schedServerIndex := 0
  connResultIndex := 0
  connSyncState := ⟨.need, 0, 0, 0, ⟨0, 0, 0⟩, []⟩
  interfaceResult := ⟨0⟩
  frameLength := 0

/-! ## The calls -/

/-- Where a connection's classification is searched. -/
inductive ClassSite
  | tcpProcessing
  | schedule
  | syncConn
  deriving DecidableEq

/-- Where a connection entry is searched. -/
inductive ConnSite
  | dataPath
  | updateState
  | markToDelete (reset : Bool)
  | refresh
  | bind
  | ageOut
  | scan
  | syncConn (conn : StateSyncConn)
  deriving DecidableEq

/-- Where a server's classification is searched. -/
inductive ServerSite
  | findServerIndex
  | syncConn (conn : StateSyncConn)
  deriving DecidableEq

/-- Where a connection entry is deleted : by the scan of an aging iteration, by a sync
message, or where its creation fails. -/
inductive DeleteSite
  | aging (iterationNum : UInt8)
  | syncConn
  | create
  deriving DecidableEq

/-- The result of a search that can meet an error other than a missing entry. -/
inductive LookupRes (α : Type)
  | found (a : α)
  | notFound
  | error
  deriving DecidableEq

/-- The interface counters of `enum nw_if_posted_stats_offsets` that are used. -/
inductive NwIfStats
  | macError
  | ipv4Error
  | notMyMac
  | notIpv4
  | notTcp
  | failArpLookup
  | failFibLookup
  | rejectByFib
  | unknownFibResult
  deriving DecidableEq

/-- The calls of the data plane. -/
inductive DpCall
  | connClassLookup (site : ClassSite) (key : ConnClassificationKey)
  | connClassAdd (bound : Bool) (key : ConnClassificationKey) (connIndex : UInt32)
  | connClassDelete (site : DeleteSite) (key : ConnClassificationKey) (connIndex : UInt32)
  | connInfoLookup (site : ConnSite) (connIndex : UInt32)
  | connInfoAdd (connIndex : UInt32) (result : ConnInfoResult)
  | connInfoModify (connIndex : UInt32) (result : ConnInfoResult)
  | connInfoDelete (site : DeleteSite) (connIndex : UInt32)
  | allocIndex (bound : Bool)
  | freeIndex (connIndex : UInt32)
  | lockConnection (key : ConnClassificationKey)
  | unlockConnection (hashValue : UInt32)
  | serviceClassLookup (key : ServiceClassificationKey)
  | serviceInfoLookup (serviceIndex : UInt8)
  | schedInfoLookup (schedulingIndex : UInt16)
  | serverInfoLookup (serverIndex : UInt32)
  | serverClassLookup (site : ServerSite) (key : ServerClassificationKey)
  | appInfoLookup
  | atomicRead32 (addr : SumAddr)
  | atomicOr32 (addr : SumAddr) (value : UInt32)
  | atomicAnd32 (addr : SumAddr) (value : UInt32)
  /-- `ezdp_atomic_read_and_inc32_sum_addr` of a service's scheduling counter. -/
  | atomicReadAndInc32 (addr : SumAddr)
  | readAndIncSingleCtr (addr : SumAddr)
  | decSingleCtr (addr : SumAddr)
  | readAndDecSingleCtr (addr : SumAddr)
  | addPostedCtr (addr : SumAddr) (value : Int)
  | dualAddPostedCtr (addr : SumAddr) (value1 value2 : Int)
  /-- `ezdp_hash` to `bits` bits, with the permutation `permutation`. -/
  | hash (a b : UInt32) (bits permutation : Nat)
  /-- `ezdp_hash` of the destination MAC address of the frame. -/
  | hashDestMac
  | interfaceLookup (logicalId : UInt32)
  | interfaceLookupHost
  /-- The counters of an interface are in a part of the memory of their own. -/
  | nwInterfaceIncCounter (counter : NwIfStats)
  | fibLookup (destIp : UInt32)
  | arpLookup (destIp : UInt32)
  | frameFree
  | frameStoreBuf
  | frameNew (headers : SyncFrameHeaders) (conns : List StateSyncConn) (len : UInt32)
  | frameAppendBuf (conns : List StateSyncConn) (len : UInt32)
  | frameFirstBuf
  | frameStoreHeaders (connCount : UInt8)
  | frameSendToIf (outputChannel : UInt8)
  /-- An `assert`. One that fails ends the thread; here the calls go on, so that a property of
  every path covers both. -/
  | assertion (holds : Bool)

/-- The result of a call. A search that fails without telling why returns `none`, a call
that can fail returns `false` when it does. -/
@[reducible] def DpCall.Res : DpCall → Type
  | connClassLookup _ _ => LookupRes UInt32
  | schedInfoLookup _ => LookupRes UInt32
  | connInfoLookup _ _ => Option ConnInfoResult
  | allocIndex _ => Option UInt32
  | lockConnection _ => UInt32
  | serviceClassLookup _ => Option UInt8
  | serviceInfoLookup _ => Option ServiceInfoResult
  | serverInfoLookup _ => Option ServerInfoResult
  | serverClassLookup _ _ => Option UInt32
  | appInfoLookup => Option AppInfoResult
  | atomicRead32 _ | atomicReadAndInc32 _ => UInt32
  | readAndIncSingleCtr _ | readAndDecSingleCtr _ => UInt64
  | hash _ _ _ _ | hashDestMac => UInt32
  | interfaceLookup _ | interfaceLookupHost => Option NwIfResult
  | fibLookup _ => Option (NwFibType × UInt32)
  | arpLookup _ => Option UInt8
  | connClassAdd _ _ _ | connClassDelete _ _ _ | connInfoModify _ _ | connInfoDelete _ _ => Bool
  | frameNew _ _ _ | frameAppendBuf _ _ | frameFirstBuf => Bool
  | connInfoAdd _ _ | freeIndex _ | unlockConnection _ | atomicOr32 _ _ | atomicAnd32 _ _ => Unit
  | decSingleCtr _ | addPostedCtr _ _ | dualAddPostedCtr _ _ _ | nwInterfaceIncCounter _ => Unit
  | frameFree | frameStoreBuf | frameStoreHeaders _ | frameSendToIf _ | assertion _ => Unit

/-- A program of a data plane thread. -/
abbrev Dp := LProg DpCall DpCall.Res Cmem

/-- A call of the data plane. -/
abbrev dpCall (op : DpCall) : Dp op.Res := LProg.call op

/-- A call with its result. -/
abbrev DpEvent := Prog.Event DpCall DpCall.Res

/-! ## What a call does -/

/-- What a call leaves open : whether it fails, the index that the pool returns, the value
of a hash or of a scheduling counter, and the tables of the network layer. -/
structure DpEnv where
  fails : Bool
  value : UInt32
  appInfo : Option AppInfoResult
  interface : Option NwIfResult
  fib : Option (NwFibType × UInt32)
  arp : Option UInt8

namespace Nps

/-- Add `d` to a posted counter. -/
def addPosted (s : Nps) (addr : SumAddr) (d : Int) : Nps :=
  { s with posted := Function.update s.posted addr (s.posted addr + d) }

/-- Add `d` to an on-demand counter. -/
def addOnDemand (s : Nps) (addr : SumAddr) (d : Int) : Nps :=
  { s with onDemand := Function.update s.onDemand addr (s.onDemand addr + d) }

/-- The pool of connection indexes can return `i`. -/
def IndexFree (s : Nps) (i : UInt32) : Prop :=
  i.toNat < alvsConnMaxEntries ∧ s.connIndexAllocated i = false

instance (s : Nps) (i : UInt32) : Decidable (s.IndexFree i) := inferInstanceAs (Decidable (_ ∧ _))

end Nps

/-- A search in a hash structure can fail on an entry that is there, a search in a direct
table cannot; the scheduling table tells a missing entry from other errors. A connection's
lock is always free here : the calls of one thread are not interleaved with others. -/
def dpHandle (e : DpEnv) : (op : DpCall) → Nps → op.Res × Nps
  | .connClassLookup _ key, s =>
    (if e.fails then .error
      else match s.connClassification key with
        | some i => .found i
        | none => .notFound, s)
  | .connClassAdd _ key i, s =>
    if e.fails then (false, s)
    else (true, { s with connClassification := Function.update s.connClassification key (some i) })
  | .connClassDelete _ key _, s =>
    if e.fails ∨ s.connClassification key = none then (false, s)
    else (true, { s with connClassification := Function.update s.connClassification key none })
  | .connInfoLookup _ i, s => (s.connInfo i, s)
  | .connInfoAdd i c, s => ((), { s with connInfo := Function.update s.connInfo i (some c) })
  | .connInfoModify i c, s =>
    if s.connInfo i = none then (false, s)
    else (true, { s with connInfo := Function.update s.connInfo i (some c) })
  | .connInfoDelete _ i, s =>
    if s.connInfo i = none then (false, s)
    else (true, { s with connInfo := Function.update s.connInfo i none })
  | .allocIndex _, s =>
    if s.IndexFree e.value then
      (some e.value,
        { s with connIndexAllocated := Function.update s.connIndexAllocated e.value true })
    else (none, s)
  | .freeIndex i, s =>
    ((), { s with connIndexAllocated := Function.update s.connIndexAllocated i false })
  | .lockConnection _, s => (e.value, s)
  | .unlockConnection _, s => ((), s)
  | .serviceClassLookup key, s => (if e.fails then none else s.serviceClassification key, s)
  | .serviceInfoLookup i, s => (s.serviceInfo i, s)
  | .schedInfoLookup i, s =>
    (match s.schedInfo i with
      | some j => .found j
      | none => if e.fails then .error else .notFound, s)
  | .serverInfoLookup i, s => (s.serverInfo i, s)
  | .serverClassLookup _ key, s => (if e.fails then none else s.serverClassification key, s)
  | .appInfoLookup, s => (e.appInfo, s)
  | .atomicRead32 a, s => (s.serverFlagsWord a, s)
  | .atomicOr32 a v, s =>
    ((), { s with serverFlagsWord :=
      Function.update s.serverFlagsWord a (s.serverFlagsWord a ||| v) })
  | .atomicAnd32 a v, s =>
    ((), { s with serverFlagsWord :=
      Function.update s.serverFlagsWord a (s.serverFlagsWord a &&& v) })
  | .atomicReadAndInc32 _, s => (e.value, s)
  | .readAndIncSingleCtr a, s => (counterValue (s.onDemand a), s.addOnDemand a 1)
  | .decSingleCtr a, s => ((), s.addOnDemand a (-1))
  | .readAndDecSingleCtr a, s => (counterValue (s.onDemand a), s.addOnDemand a (-1))
  | .addPostedCtr a v, s => ((), s.addPosted a v)
  | .dualAddPostedCtr a v₁ v₂, s => ((), (s.addPosted a v₁).addPosted (a.add 1) v₂)
  | .hash _ _ _ _, s => (e.value, s)
  | .hashDestMac, s => (e.value, s)
  | .interfaceLookup _, s => (e.interface, s)
  | .interfaceLookupHost, s => (e.interface, s)
  | .nwInterfaceIncCounter _, s => ((), s)
  | .fibLookup _, s => (e.fib, s)
  | .arpLookup _, s => (e.arp, s)
  | .frameFree, s => ((), s)
  | .frameStoreBuf, s => ((), s)
  | .frameNew _ _ _, s => (!e.fails, s)
  | .frameAppendBuf _ _, s => (!e.fails, s)
  | .frameFirstBuf, s => (!e.fails, s)
  | .frameStoreHeaders _, s => ((), s)
  | .frameSendToIf _, s => ((), s)
  | .assertion _, s => ((), s)

-- the equations of the handler are proved here, once for all proofs that use them
section
attribute [local simp] dpHandle
end

end Alvs
