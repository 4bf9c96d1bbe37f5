import Alvs.Cp.Calls
import Mathlib.Data.List.Range

/-!
# The scheduling buckets

How the control plane spreads the servers of a service over the 256 entries of its
scheduling bucket. A server list is cyclic in the source : node `i` of a list of `n`
servers is its element `i % n`, and the functions take the number of servers separately.
A bucket is the list of its filled entries, which are always a prefix of the 256.

`serversBuckets` is the bucket of a service, `schedAfter` the scheduling table once
`alvs_db_recalculate_scheduling_info` has written it, and `schedAfter_apply` reads an
entry of that table.
-/

namespace Alvs

open ProgLogic

/-! ## Weights -/

def DbServer.withWeight (s : DbServer) (weight : UInt16) : DbServer := { s with weight := weight }

/-- The loop ends where the remainder is 0. Weight 0 never gets here : the source would
divide by it. -/
def alvsDbGcd (num1 num2 : UInt16) : UInt16 :=
  if _h : num1 % num2 = 0 ∨ num2 = 0 then num2 else alvsDbGcd num2 (num1 % num2)
termination_by num2.toNat
decreasing_by
  rw [UInt16.toNat_mod]
  refine Nat.mod_lt _ (Nat.pos_of_ne_zero fun h => _h (Or.inr ?_))
  exact UInt16.toNat_inj.mp h

/-- Node `i` of a cyclic list. -/
def cyclicNode {α : Type} (list : List α) (i : Nat) : Option α := list[i % list.length]?

/-- The gcd of `gcd` and the weights of the given nodes, or `none` where the loop of
`alvs_db_reduce_weights` stops early because it reached 1. -/
def gcdLoop (serverList : List DbServer) : List Nat → UInt16 → Option UInt16
  | [], gcd => some gcd
  | ind :: inds, gcd =>
    match cyclicNode serverList ind with
    | none => none
    | some server =>
      let gcd := alvsDbGcd gcd server.weight
      if gcd = 1 then none else gcdLoop serverList inds gcd

/-- Divide all weights by their gcd. The dividing loop starts at the node where the gcd
loop stopped. -/
def alvsDbReduceWeights (serverList : List DbServer) (serverCount : Nat) : List DbServer :=
  match serverList.head? with
  | none => serverList
  | some server =>
    match gcdLoop serverList (List.range' 1 (serverCount - 1)) server.weight with
    | none => serverList
    | some gcd =>
      (List.range' (serverCount - 1) serverCount).foldl
        (fun list i => list.modify (i % list.length) fun s => s.withWeight (s.weight / gcd))
        serverList

/-- The node with the largest weight, the first of them; `none` when all weights are 0. -/
def alvsDbGetMaxWeightServer (serverList : List DbServer) (serverCount : Nat) : Option Nat :=
  ((List.range serverCount).foldl
    (fun (m : Option Nat × UInt16) ind =>
      match cyclicNode serverList ind with
      | none => m
      | some server =>
        if server.weight > m.2 then (some (ind % serverList.length), server.weight) else m)
    (none, 0)).1

/-! ## The three algorithms -/

def alvsDbRrFillBuckets (serverList : List DbServer) (serverCount : Nat) : List DbServer :=
  (List.range (min serverCount alvsSizeOfSchedBucket)).filterMap (cyclicNode serverList)

/-- `n` more entries of the weighted round robin bucket : each takes the server with the
largest weight left. -/
def wrrLoop (serverCount : Nat) : Nat → List DbServer → List DbServer
  | 0, _ => []
  | n + 1, serverList =>
    match alvsDbGetMaxWeightServer serverList serverCount with
    | none => []
    | some max =>
      match serverList[max]? with
      | none => []
      | some server =>
        server :: wrrLoop serverCount n
          (serverList.modify max fun s => s.withWeight (s.weight - 1))

def alvsDbWrrFillBuckets (serverList : List DbServer) (serverCount : Nat) : List DbServer :=
  wrrLoop serverCount alvsSizeOfSchedBucket serverList

/-- `n` more entries of the source hash bucket : the server at node `pos` has taken
`weight` entries in a row. -/
def shLoop (serverList : List DbServer) : Nat → Nat → UInt16 → List DbServer
  | 0, _, _ => []
  | n + 1, pos, weight =>
    match cyclicNode serverList pos with
    | none => []
    | some server =>
      server ::
        if weight + 1 ≥ server.weight then shLoop serverList n (pos + 1) 0
        else shLoop serverList n pos (weight + 1)

def alvsDbShFillBuckets (serverList : List DbServer) : List DbServer :=
  shLoop serverList alvsSizeOfSchedBucket 0 0

/-- The bucket of a service, or `none` for an algorithm that is not supported. -/
def serversBuckets (schedAlg : AlvsSchedulerType) (serverList : List DbServer)
    (serverCount : Nat) : Option (List DbServer) :=
  if serverCount = 0 then some []
  else
    match schedAlg with
    | .sourceHash => some (alvsDbShFillBuckets (alvsDbReduceWeights serverList serverCount))
    | .roundRobin => some (alvsDbRrFillBuckets serverList serverCount)
    | .weightedRoundRobin =>
      some (alvsDbWrrFillBuckets (alvsDbReduceWeights serverList serverCount) serverCount)
    | _ => none

/-! ## The scheduling table -/

/-- The key of entry `ind` of the service with index `npsIndex`. -/
def schedIndex (npsIndex : UInt32) (ind : Nat) : UInt16 :=
  (npsIndex * 256 + UInt32.ofNat ind).toUInt16

/-- Write the entries `inds` of a bucket : an empty entry is deleted. The count is the
service's `sched_entries_count`. -/
def populateSchedInfo (npsIndex : UInt32) (buckets : List DbServer) :
    List Nat → UInt16 → CpProg (AlvsDbRc × UInt16)
  | [], count => pure (.ok, count)
  | ind :: inds, count =>
    match buckets[ind]? with
    | some server => do
      if ← infraModifyEntry (.schedInfo (schedIndex npsIndex ind) server.npsIndex)
      then populateSchedInfo npsIndex buckets inds (count + 1)
      else return (.npsError, count)
    | none => do
      if ← infraDeleteEntry (.schedInfo (schedIndex npsIndex ind))
      then populateSchedInfo npsIndex buckets inds count
      else return (.npsError, count)

/-- Recalculate the scheduling entries of a service. Returns the service with the number
of entries that were written. -/
def alvsDbRecalculateSchedulingInfo (service : DbService) : CpProg (AlvsDbRc × DbService) := do
  let some serverList ← internalDbGetServerList service.tuple ⟨true, true⟩
    | return (.internalError, service)
  let some serverCount ← internalDbGetServerCount service.tuple ⟨true, true⟩
    | return (.internalError, service)
  let some buckets := serversBuckets service.schedAlg serverList serverCount
    | return (.notSupported, service)
  let (rc, count) ←
    populateSchedInfo service.npsIndex buckets (List.range alvsSizeOfSchedBucket) 0
  return (rc, { service with schedEntriesCount := count })

end Alvs
