import Alvs.Defs
import Alvs.Lib.Prog
import Alvs.Lib.FirstMatch

/-!
# The FIB

The functions of `nw_db.c` that keep the internal table of FIB entries and the FIB TCAM of the
chip. Each is a program over `NwCall` : one SQL statement, one step of a statement, an access
to `fib_entry_count`, or one write of a TCAM entry. A `SELECT` of several rows is a snapshot:
the rows that its steps return are those of the table when it was prepared.

`nwHandle` is the effect of a call that succeeds.
-/

namespace Alvs

open ProgLogic

/-- `enum nw_db_rc`. -/
inductive NwDbRc
  | ok
  | failure
  | notSupported
  | internalError
  | npsError
  | fatalError
  deriving DecidableEq

/-! ## Entries -/

/-- An IPv4 prefix, as `nl_addr_get_binary_addr` and `nl_addr_get_prefixlen` read it of an address
of `AF_INET`. The bytes of `addr` are in network order. -/
structure NlAddr where
  addr : UInt32
  prefixlen : Nat
  prefixlen_le : prefixlen ≤ 32
  deriving DecidableEq

/-- `struct nw_db_fib_entry`. -/
structure NwDbFibEntry where
  destIp : UInt32
  maskLength : UInt16
  resultType : NwFibType
  nextHop : UInt32
  npsIndex : UInt16
  deriving DecidableEq

/-- `memset` of an entry to 0. -/
def NwDbFibEntry.zero : NwDbFibEntry := ⟨0, 0, .neighbor, 0, 0⟩

/-- The entry whose key is the destination of a route. -/
def NwDbFibEntry.ofDst (dst : NlAddr) : NwDbFibEntry :=
  { NwDbFibEntry.zero with destIp := dst.addr, maskLength := .ofNat dst.prefixlen }

/-- The primary key of `fib_entries`. -/
def NwDbFibEntry.key (e : NwDbFibEntry) : UInt32 × UInt16 := (e.destIp, e.maskLength)

/-- The result of a TCAM entry, `struct nw_fib_result`. -/
structure NwFibResult where
  resultType : NwFibType
  destIp : UInt32
  deriving DecidableEq

/-- A TCAM entry : the key, the mask and the result. -/
structure NwFibTcamEntry where
  key : UInt32
  mask : UInt32
  result : NwFibResult
  deriving DecidableEq

/-- The address agrees with the key where the mask is set. -/
def NwFibTcamEntry.matches (addr : UInt32) (e : NwFibTcamEntry) : Bool :=
  addr &&& e.mask = e.key &&& e.mask

/-- The mask of `build_nps_fib_key_and_mask`. -/
def buildNpsFibMask (maskLength : UInt16) : UInt32 :=
  if maskLength = 0 then 0 else bswap32 (0xffffffff <<< (32 - maskLength.toUInt32))

/-- `build_nps_fib_key_and_mask` and `build_nps_fib_result`. -/
def NwDbFibEntry.tcamEntry (e : NwDbFibEntry) : NwFibTcamEntry :=
  ⟨e.destIp, buildNpsFibMask e.maskLength, ⟨e.resultType, e.nextHop⟩⟩

/-! ## State and calls -/

/-- The table `fib_entries`, the number of its entries and the TCAM. -/
structure NwState where
  fibEntries : List NwDbFibEntry
  fibEntryCount : UInt32
  tcam : Nat → Option NwFibTcamEntry

/-- After `nw_db_init`. -/
def NwState.init : NwState := ⟨[], 0, fun _ => none⟩

inductive NwCall
  | internalDbAddFibEntry (fibEntry : NwDbFibEntry)
  | internalDbModifyFibEntry (fibEntry : NwDbFibEntry)
  | internalDbRemoveFibEntry (fibEntry : NwDbFibEntry)
  | internalDbGetFibEntry (fibEntry : NwDbFibEntry)
  /-- `SELECT * FROM fib_entries WHERE mask_length < _ ORDER BY nps_index DESC`, with its first
  step. -/
  | selectShorter (maskLength : UInt16)
  /-- `SELECT * FROM fib_entries WHERE nps_index > _ ORDER BY nps_index ASC`, with its first
  step. -/
  | selectAbove (npsIndex : UInt16)
  /-- A further `sqlite3_step`. -/
  | sqliteStep
  | getFibEntryCount
  | setFibEntryCount (count : UInt32)
  | infraAddTcamEntry (index : UInt32) (entry : NwFibTcamEntry)
  | infraDeleteTcamEntry (index : UInt32) (entry : NwFibTcamEntry)

/-- The result of a call, `none` or `false` where it fails. -/
def NwCall.Res : NwCall → Type
  | internalDbGetFibEntry _ => Option (Option NwDbFibEntry)
  | selectShorter _ => Option (List NwDbFibEntry)
  | selectAbove _ => Option (List NwDbFibEntry)
  | getFibEntryCount => UInt32
  | setFibEntryCount _ => Unit
  | _ => Bool

abbrev NwProg := Prog NwCall NwCall.Res

/-- `UPDATE fib_entries` on one row. -/
def NwDbFibEntry.update (e row : NwDbFibEntry) : NwDbFibEntry :=
  if row.key = e.key then
    { row with resultType := e.resultType, nextHop := e.nextHop, npsIndex := e.npsIndex }
  else row

/-- The effect of a call that succeeds. An `INSERT` of a key that is there fails. -/
def nwHandle : (op : NwCall) → NwState → op.Res × NwState
  | .internalDbAddFibEntry e, s =>
    if s.fibEntries.any (·.key = e.key) then (false, s)
    else (true, { s with fibEntries := s.fibEntries ++ [e] })
  | .internalDbModifyFibEntry e, s => (true, { s with fibEntries := s.fibEntries.map e.update })
  | .internalDbRemoveFibEntry e, s =>
    (true, { s with fibEntries := s.fibEntries.filter (·.key ≠ e.key) })
  | .internalDbGetFibEntry e, s => (some (s.fibEntries.find? (·.key = e.key)), s)
  | .selectShorter maskLength, s =>
    (some ((s.fibEntries.filter (·.maskLength < maskLength)).insertionSort
      fun r r' => r'.npsIndex ≤ r.npsIndex), s)
  | .selectAbove npsIndex, s =>
    (some ((s.fibEntries.filter (npsIndex < ·.npsIndex)).insertionSort
      fun r r' => r.npsIndex ≤ r'.npsIndex), s)
  | .sqliteStep, s => (true, s)
  | .getFibEntryCount, s => (s.fibEntryCount, s)
  | .setFibEntryCount count, s => ((), { s with fibEntryCount := count })
  | .infraAddTcamEntry index entry, s =>
    (true, { s with tcam := Function.update s.tcam index.toNat (some entry) })
  | .infraDeleteTcamEntry index _, s =>
    (true, { s with tcam := Function.update s.tcam index.toNat none })

/-- The answer of the TCAM for an address. -/
def NwState.tcamLookup (s : NwState) (addr : UInt32) : Option NwFibResult :=
  (firstMatch (·.matches addr) s.tcam nwFibTcamMaxSize.toNat).map (·.result)

/-! ## The calls as programs -/

def internalDbAddFibEntry (fibEntry : NwDbFibEntry) : NwProg Bool :=
  Prog.perform (NwCall.internalDbAddFibEntry fibEntry)

def internalDbModifyFibEntry (fibEntry : NwDbFibEntry) : NwProg Bool :=
  Prog.perform (NwCall.internalDbModifyFibEntry fibEntry)

def internalDbRemoveFibEntry (fibEntry : NwDbFibEntry) : NwProg Bool :=
  Prog.perform (NwCall.internalDbRemoveFibEntry fibEntry)

def internalDbGetFibEntry (fibEntry : NwDbFibEntry) : NwProg (Option (Option NwDbFibEntry)) :=
  Prog.perform (NwCall.internalDbGetFibEntry fibEntry)

def selectShorter (maskLength : UInt16) : NwProg (Option (List NwDbFibEntry)) :=
  Prog.perform (NwCall.selectShorter maskLength)

def selectAbove (npsIndex : UInt16) : NwProg (Option (List NwDbFibEntry)) :=
  Prog.perform (NwCall.selectAbove npsIndex)

def sqliteStep : NwProg Bool := Prog.perform NwCall.sqliteStep

def getFibEntryCount : NwProg UInt32 := Prog.perform NwCall.getFibEntryCount

def setFibEntryCount (count : UInt32) : NwProg Unit :=
  Prog.perform (NwCall.setFibEntryCount count)

/-! ## The functions -/

def addFibEntryToNps (cpFibEntry : NwDbFibEntry) : NwProg Bool :=
  Prog.perform (NwCall.infraAddTcamEntry cpFibEntry.npsIndex.toUInt32 cpFibEntry.tcamEntry)

def deleteFibEntryFromNps (cpFibEntry : NwDbFibEntry) : NwProg Bool :=
  Prog.perform (NwCall.infraDeleteTcamEntry cpFibEntry.npsIndex.toUInt32 cpFibEntry.tcamEntry)

/-- The loops of `fib_reorder_push_entries_up` and `fib_reorder_push_entries_down`, which return
the last entry that was moved. -/
def moveEntries (move : UInt16 → UInt16) :
    List NwDbFibEntry → NwDbFibEntry → NwProg (Except NwDbRc NwDbFibEntry)
  | [], tmpFibEntry => pure (.ok tmpFibEntry)
  | row :: rows, _ => do
    let tmpFibEntry := { row with npsIndex := move row.npsIndex }
    let updated ← internalDbModifyFibEntry tmpFibEntry
    if updated then
      let written ← addFibEntryToNps tmpFibEntry
      if written then
        let stepped ← sqliteStep
        if stepped then moveEntries move rows tmpFibEntry
        else pure (.error .internalError)
      else pure (.error .npsError)
    else pure (.error .internalError)

/-- The entry with its index is returned. -/
def fibReorderPushEntriesUp (newFibEntry : NwDbFibEntry) :
    NwProg (Except NwDbRc NwDbFibEntry) := do
  match ← selectShorter newFibEntry.maskLength with
  | none => pure (.error .internalError)
  | some [] =>
    let fibEntryCount ← getFibEntryCount
    pure (.ok { newFibEntry with npsIndex := fibEntryCount.toUInt16 })
  | some rows =>
    match ← moveEntries (· + 1) rows .zero with
    | .error rc => pure (.error rc)
    | .ok tmpFibEntry => pure (.ok { newFibEntry with npsIndex := tmpFibEntry.npsIndex - 1 })

/-- The entry with the index of the last entry is returned. -/
def fibReorderPushEntriesDown (fibEntry : NwDbFibEntry) :
    NwProg (Except NwDbRc NwDbFibEntry) := do
  match ← selectAbove fibEntry.npsIndex with
  | none => pure (.error .internalError)
  | some rows =>
    match ← moveEntries (· - 1) rows .zero with
    | .error rc => pure (.error rc)
    | .ok _ =>
      let fibEntryCount ← getFibEntryCount
      pure (.ok { fibEntry with npsIndex := (fibEntryCount - 1).toUInt16 })

/-- What the accessors of libnl read of a `struct rtnl_route`. `gateway` is that of the first
next hop. -/
structure RtnlRoute where
  family : UInt8
  table : UInt32
  dst : NlAddr
  tos : UInt8
  priority : UInt32
  type : UInt8
  gateway : Option UInt32
  nnexthops : Nat
  deriving DecidableEq

def rtnUnicast : UInt8 := 1

def setFibParams (routeEntry : RtnlRoute) (fibEntry : NwDbFibEntry) : NwDbFibEntry :=
  if routeEntry.type = rtnUnicast then
    match routeEntry.gateway with
    | none => { fibEntry with resultType := .neighbor }
    | some nextHopAddr =>
      if 1 < routeEntry.nnexthops then { fibEntry with resultType := .drop }
      else { fibEntry with nextHop := nextHopAddr, resultType := .gw }
  else { fibEntry with resultType := .drop }

def nwDbAddFibEntry (routeEntry : RtnlRoute) (reorder : Bool) : NwProg NwDbRc := do
  let cpFibEntry := NwDbFibEntry.ofDst routeEntry.dst
  match ← internalDbGetFibEntry cpFibEntry with
  | some (some _) => pure .failure
  | none => pure .internalError
  | some none =>
    let fibEntryCount ← getFibEntryCount
    if fibEntryCount = nwFibTcamMaxSize then pure .internalError
    else
      let cpFibEntry := setFibParams routeEntry cpFibEntry
      let placed ← if reorder then fibReorderPushEntriesUp cpFibEntry
        else pure (.ok { cpFibEntry with npsIndex := fibEntryCount.toUInt16 })
      match placed with
      | .error rc => pure rc
      | .ok cpFibEntry =>
        let added ← internalDbAddFibEntry cpFibEntry
        if added then
          let written ← addFibEntryToNps cpFibEntry
          if written then
            let fibEntryCount ← getFibEntryCount
            setFibEntryCount (fibEntryCount + 1)
            pure .ok
          else pure .npsError
        else pure .internalError

/-- The end of `nw_db_delete_fib_entry`. -/
def removeLastEntry (cpFibEntry : NwDbFibEntry) : NwProg NwDbRc := do
  let fibEntryCount ← getFibEntryCount
  setFibEntryCount (fibEntryCount - 1)
  let removed ← internalDbRemoveFibEntry cpFibEntry
  if removed then
    let deleted ← deleteFibEntryFromNps cpFibEntry
    pure (if deleted then .ok else .npsError)
  else pure .internalError

def nwDbDeleteFibEntry (routeEntry : RtnlRoute) : NwProg NwDbRc := do
  let cpFibEntry := NwDbFibEntry.ofDst routeEntry.dst
  match ← internalDbGetFibEntry cpFibEntry with
  | none => pure .internalError
  | some none => pure .failure
  | some (some cpFibEntry) =>
    let fibEntryCount ← getFibEntryCount
    let moved ← if cpFibEntry.npsIndex.toUInt32 ≠ fibEntryCount - 1 then
        fibReorderPushEntriesDown cpFibEntry
      else pure (.ok cpFibEntry)
    match moved with
    | .error rc => pure rc
    | .ok cpFibEntry => removeLastEntry cpFibEntry

def nwDbModifyFibEntry (routeEntry : RtnlRoute) : NwProg NwDbRc := do
  let cpFibEntry := NwDbFibEntry.ofDst routeEntry.dst
  match ← internalDbGetFibEntry cpFibEntry with
  | none => pure .internalError
  | some none => pure .failure
  | some (some cpFibEntry) =>
    let cpFibEntry := setFibParams routeEntry cpFibEntry
    let updated ← internalDbModifyFibEntry cpFibEntry
    if updated then
      let written ← addFibEntryToNps cpFibEntry
      pure (if written then .ok else .npsError)
    else pure .internalError

end Alvs
