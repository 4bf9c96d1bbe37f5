import Alvs.Dp.Quiet
import Alvs.Lib.Runs

/-!
# Threads of the data plane

Any number of threads work on one chip. A thread takes the spinlock of a connection only
if no thread has it; the spinlocks are addressed by a hash of the key. Every call is
recorded with the tables it found.

`threadMachine` interleaves calls. In `sectionMachine` a section under a spinlock is one
atomic step : while a thread is in a section, the others make no call.
-/

namespace Alvs

open ProgLogic

variable {Tid : Type} [DecidableEq Tid]

/-! ## The chip and its spinlocks -/

/-- The address of the spinlock of a hash value. -/
def connSpinlockAddr (hashValue : UInt32) : UInt32 :=
  hashValue &&& (alvsConnLockElementsCount - 1).toUInt32

/-- A call of a thread, its result, and the chip it was made on. -/
structure DpStep (Tid : Type) where
  tid : Tid
  before : Nps
  op : DpCall
  res : op.Res

/-- The chip, the threads that have its spinlocks, the key that each thread has locked last,
and the calls that were made, the last one first. -/
structure Chip (Tid : Type) where
  nps : Nps
  spinlock : UInt32 → Option Tid
  lockedKey : Tid → Option ConnClassificationKey
  log : List (DpStep Tid)

/-- A call other than those on spinlocks. -/
def Chip.call (s : Chip Tid) (e : DpEnv) (t : Tid) (op : DpCall) : op.Res × Chip Tid :=
  ((dpHandle e op s.nps).1,
    { s with
      nps := (dpHandle e op s.nps).2
      log := ⟨t, s.nps, op, (dpHandle e op s.nps).1⟩ :: s.log })

/-- `bulkHash` is the hash of a key. -/
def threadHandle (bulkHash : ConnClassificationKey → UInt32) (e : DpEnv) (t : Tid) :
    (op : DpCall) → Chip Tid → Option (op.Res × Chip Tid)
  | .lockConnection key, s =>
    let addr := connSpinlockAddr (bulkHash key)
    if s.spinlock addr = none then
      some (bulkHash key, { s with
        spinlock := Function.update s.spinlock addr (some t)
        lockedKey := Function.update s.lockedKey t (some key) })
    else none
  | .unlockConnection hashValue, s =>
    some ((), { s with
      spinlock := Function.update s.spinlock (connSpinlockAddr hashValue) none })
  | op, s => some (s.call e t op)

/-- A call other than those on spinlocks. -/
def DpCall.OffLock : DpCall → Prop
  | lockConnection _ | unlockConnection _ => False
  | _ => True

theorem threadHandle_offLock {bulkHash : ConnClassificationKey → UInt32} (e : DpEnv) (t : Tid)
    {op : DpCall} (hop : op.OffLock)
    (s : Chip Tid) : threadHandle bulkHash e t op s = some (s.call e t op) := by
  cases op <;> first | rfl | exact hop.elim

/-- Threads that take turns at any call. -/
def threadMachine (bulkHash : ConnClassificationKey → UInt32) :
    Machine Tid (Chip Tid) DpCall DpCall.Res Cmem DpJob DpEnv where
  handle := threadHandle bulkHash
  job _ j l := (packetProcessing j).job l

/-- The chip without a connection. -/
def Nps.withoutConns (s : Nps) : Nps :=
  { s with
    connClassification := fun _ => none
    connInfo := fun _ => none
    connIndexAllocated := fun _ => false }

/-- A chip without connections whose spinlocks are free. -/
def Chip.init (nps : Nps) : Chip Tid := ⟨nps.withoutConns, fun _ => none, fun _ => none, []⟩

/-- Idle threads with the given memories on a chip without connections. -/
def threadPool (nps : Nps) (mem : Tid → Cmem) : Pool Tid (Chip Tid) DpCall DpCall.Res Cmem where
  shared := .init nps
  thread t := .ret (mem t)

/-! ## Atomic sections -/

/-- The chip, and the thread that is in a section. -/
structure SectionChip (Tid : Type) extends Chip Tid where
  inSection : Option Tid

/-- The section of a thread ends with the release of its lock, and in `alvs_conn_bind` with
a re-lookup that finds the connection bound. -/
def endsSection : (op : DpCall) → op.Res → Bool
  | .unlockConnection _, _ => true
  | .connInfoLookup .bind _, some c => c.bound
  | _, _ => false

/-- The thread that is in a section after a call of `t`. -/
def sectionAfter (t : Tid) (cur : Option Tid) (op : DpCall) (r : op.Res) : Option Tid :=
  match op with
  | .lockConnection _ => some t
  | op => if endsSection op r then none else cur

def sectionHandle (bulkHash : ConnClassificationKey → UInt32) (e : DpEnv) (t : Tid) (op : DpCall)
    (s : SectionChip Tid) : Option (op.Res × SectionChip Tid) :=
  if s.inSection = none ∨ s.inSection = some t then
    (threadHandle bulkHash e t op s.toChip).map fun (r, s') =>
      (r, ⟨s', sectionAfter t s.inSection op r⟩)
  else none

/-- Threads whose sections are atomic. -/
def sectionMachine (bulkHash : ConnClassificationKey → UInt32) :
    Machine Tid (SectionChip Tid) DpCall DpCall.Res Cmem DpJob DpEnv where
  handle := sectionHandle bulkHash
  job _ j l := (packetProcessing j).job l

def sectionPool (nps : Nps) (mem : Tid → Cmem) :
    Pool Tid (SectionChip Tid) DpCall DpCall.Res Cmem where
  shared := ⟨.init nps, none⟩
  thread t := .ret (mem t)

/-! ## Example runs -/

/-- `n` calls of a thread. -/
def exampleCalls (t : Fin 3) (n : Nat) : List (PoolAct (Fin 3) DpJob DpEnv) :=
  List.replicate n (.step t exampleEnv)

/-- A sync message creates an unbound connection, and an aging event clears its aging bit. -/
def agedConnection : List (PoolAct (Fin 3) DpJob DpEnv) :=
  .start (tid 0) (exampleSync (exampleRecord ipVsConnFDroute 1 0x0a000002 80)) ::
    exampleCalls (tid 0) 12 ++ .start (tid 1) (.timer 0) :: exampleCalls (tid 1) 7

end Alvs
