import Alvs.IndexPool

/-!
# The state of the load balancer

`Cp` is the control plane's own state : the tables of the internal database, those of
services and servers in the order a `SELECT` returns their rows, and the pools of service
and server indexes. `Nps`
is the chip : the search structures both planes use, the counters, the words of server
flags, the pool of connection indexes and the connection spinlocks. `Sys` is both.

Counters are integers; a read returns their 64 bits (`counterValue`).
-/

namespace Alvs

/-! ## The internal database -/

/-- The address, port and protocol of a service. -/
structure ServiceTuple where
  ip : UInt32
  port : UInt16
  protocol : UInt16
  deriving DecidableEq

/-- The saved counters of a row (`alvs_db_service_stats`, `alvs_db_server_stats`). -/
structure DbStats where
  connectionScheduled : UInt64
  inPacket : UInt64
  inByte : UInt64
  outPacket : UInt64
  outByte : UInt64
  deriving DecidableEq

def DbStats.zero : DbStats := ⟨0, 0, 0, 0, 0⟩

/-- A row of the table `services`. -/
structure DbService where
  tuple : ServiceTuple
  npsIndex : UInt32
  flags : UInt32
  schedAlg : AlvsSchedulerType
  statsBase : SumAddr
  schedEntriesCount : UInt16
  serviceStats : DbStats
  deriving DecidableEq

/-- `struct alvs_db_server`. -/
structure DbServer where
  ip : UInt32
  port : UInt16
  weight : UInt16
  active : Bool
  npsIndex : UInt32
  connFlags : UInt32
  serverFlags : UInt32
  uThresh : UInt32
  lThresh : UInt32
  serverStatsBase : SumAddr
  serviceStatsBase : SumAddr
  serverOnDemandStatsBase : SumAddr
  serverFlagsDpBase : SumAddr
  serverStats : DbStats
  deriving DecidableEq

/-- A row of the table `servers` : a server and the service it belongs to. -/
structure ServerRow where
  srv : ServiceTuple
  server : DbServer
  deriving DecidableEq

/-- The primary key of a server row. -/
def ServerRow.key (r : ServerRow) : ServiceTuple × UInt32 × UInt16 :=
  (r.srv, r.server.ip, r.server.port)

/-- `struct alvs_db_application_info`, a row of the table `application_info`. -/
structure DbApplicationInfo where
  applicationIndex : UInt8
  isMaster : Bool
  isBackup : Bool
  mSyncId : UInt8
  bSyncId : UInt8
  sourceIp : UInt32
  deriving DecidableEq

/-- The control plane's state. The table `application_info` is a map from its primary key. -/
structure Cp where
  services : List DbService
  servers : List ServerRow
  applicationInfo : UInt8 → Option DbApplicationInfo
  serviceIndexPool : WfPool serviceIndexPoolSize
  serverIndexPool : WfPool serverIndexPoolSize

/-! ## The chip -/

/-- The search structures, counters, locks and connection indexes of the chip. -/
structure Nps where
  serviceClassification : ServiceClassificationKey → Option UInt8
  serviceInfo : UInt8 → Option ServiceInfoResult
  schedInfo : UInt16 → Option UInt32
  serverInfo : UInt32 → Option ServerInfoResult
  serverClassification : ServerClassificationKey → Option UInt32
  applicationInfo : UInt8 → Option AppInfoResult
  connClassification : ConnClassificationKey → Option UInt32
  connInfo : UInt32 → Option ConnInfoResult
  connIndexAllocated : UInt32 → Bool
  posted : SumAddr → Int
  onDemand : SumAddr → Int
  serverFlagsWord : SumAddr → UInt32

/-- The 64 bits that a read of a counter returns. -/
def counterValue (c : Int) : UInt64 := UInt64.ofInt c

theorem counterValue_add_one (c : Int) : counterValue c + 1 = counterValue (c + 1) := by
  simp only [counterValue, UInt64.ofInt_add, UInt64.ofInt_one]

theorem counterValue_sub_one (c : Int) : counterValue c - 1 = counterValue (c + -1) := by
  rw [UInt64.sub_eq_iff_eq_add, counterValue_add_one, Int.neg_add_cancel_right]

theorem toNat_counterValue {c : Int} (h0 : 0 ≤ c) (hc : c < 2 ^ 64) :
    (counterValue c).toNat = c.toNat := by
  simp only [counterValue, UInt64.ofInt]
  rw [Int.emod_eq_of_lt h0 hc]
  simp
  omega

/-- Both planes. -/
structure Sys where
  cp : Cp
  nps : Nps

/-- The initialised empty database over an empty chip. -/
def Sys.init : Sys where
  cp :=
    { services := []
      servers := []
      applicationInfo := fun _ => none
      serviceIndexPool := .init (by decide)
      serverIndexPool := .init (by decide) }
  nps :=
    { serviceClassification := fun _ => none
      serviceInfo := fun _ => none
      schedInfo := fun _ => none
      serverInfo := fun _ => none
      serverClassification := fun _ => none
      applicationInfo := fun _ => none
      connClassification := fun _ => none
      connInfo := fun _ => none
      connIndexAllocated := fun _ => false
      posted := fun _ => 0
      onDemand := fun _ => 0
      serverFlagsWord := fun _ => 0 }

end Alvs
