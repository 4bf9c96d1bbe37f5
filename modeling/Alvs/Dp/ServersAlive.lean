import Alvs.Cp.ServerIndexes
import Alvs.Dp.BoundTotals

/-!
# Connections keep their server

Operations of the control plane and jobs of the data plane take turns (`Sys.act`). In a run
whose jobs meet `TotalsOk`, CONNECTION_TOTAL of each server is the number of the entries that
are bound to it (`connectionTotal_run`). A server that has bound entries is then not reclaimed :
its row stays with its key while an entry is bound to it (`serverKept_run`).

Without the condition, a backup creates a connection of a server without counting it
(`connectionTotal_fails`), and the server is reclaimed while the connection is bound to it
(`serverKept_fails`).
-/

namespace Alvs

open ProgLogic LProg

/-! ## Steps of both planes -/

/-- An operation of the control plane, or a job of a data plane thread with its memory. -/
inductive BalancerAct
  | op (op : CpOp)
  | job (j : DpJob) (mem : Cmem) (es : Nat → DpEnv)

/-- Both planes after a job that runs alone. -/
def Sys.runJob (s : Sys) (j : DpJob) (mem : Cmem) (es : Nat → DpEnv) : Sys :=
  { s with nps := (((packetProcessing j).run mem).execEnv dpHandle es s.nps).2 }

def Sys.act (s : Sys) : BalancerAct → Sys
  | .op op => s.cpStep op
  | .job j mem es => s.runJob j mem es

/-- The calls of a job meet `TotalsOk`. -/
def TotalsKept (s : Sys) : BalancerAct → Prop
  | .op _ => True
  | .job j mem es => ((packetProcessing j).run mem).CallsOk TotalsOk dpHandle es s.nps

instance decidableTotalsKept (s : Sys) : (a : BalancerAct) → Decidable (TotalsKept s a)
  | .op _ => .isTrue trivial
  | .job j mem es => Prog.decidableCallsOk TotalsOk dpHandle ((packetProcessing j).run mem) es s.nps

/-- The data plane writes no entry of SERVER_INFO. -/
theorem dpHandle_serverInfo (e : DpEnv) (op : DpCall) (s : Nps) :
    (dpHandle e op s).2.serverInfo = s.serverInfo := by
  cases op <;> first | rfl | (simp only [dpHandle]; split <;> rfl)

theorem runJob_serverInfo (s : Sys) (j : DpJob) (mem : Cmem) (es : Nat → DpEnv) :
    (s.runJob j mem es).nps.serverInfo = s.nps.serverInfo := by
  have hwp := Prog.wp_invariant (S := Prog.envSpec dpHandle fun _ _ _ => True)
    (I := fun nps => nps.serverInfo = s.nps.serverInfo) (fun nps op h =>
      ⟨trivial, fun r nps' => ?_⟩)
    ((packetProcessing j).run mem) rfl
  · exact Prog.execEnv_of_wp _ hwp (.of_forall (fun _ _ _ => trivial) _ _ _)
  · rintro ⟨e, -, heq⟩
    obtain rfl : (dpHandle e op nps).2 = nps' := congrArg Prod.snd heq
    exact (dpHandle_serverInfo e op nps).trans h

/-! ## The counters in a run -/

/-- The database is in order, SERVER_INFO has the indexes of its rows, and the counters are the
numbers of the bound entries. -/
structure Sys.Booked (s : Sys) : Prop where
  inv : s.cp.Inv
  indexed : InfoIndexed s
  books : s.nps.Balanced

section Counters

variable {s s' : Sys} {i j : UInt32}

theorem Nps.Booked.connTotal_eq {nps : Nps} {info : ServerInfoResult} (h : nps.Balanced)
    (hinfo : nps.serverInfo j = some info) :
    nps.connTotal j = nps.entryCount fun c => decide (c.BoundTo j) := by
  have htotal := h.totals j info hinfo
  have haddr : info.connTotal =
      (serverOnDemandStatsBase j).add alvsServerStatsConnectionTotalOffset := by
    rw [ServerInfoResult.connTotal, (h.own j info hinfo).onDemand]
  simp only [connectionTotal, haddr, Int.add_zero] at htotal
  exact htotal

/-- A counter that reads 0 is that of a server without bound entries. -/
theorem Nps.Booked.unbound {nps : Nps} {info : ServerInfoResult} (h : nps.Balanced)
    (hinfo : nps.serverInfo j = some info) (hzero : counterValue (nps.connTotal j) = 0)
    {c : ConnInfoResult} (hc : nps.connInfo i = some c) : ¬ c.BoundTo j := by
  intro hbound
  have hpos : 0 < nps.entryCount fun c => decide (c.BoundTo j) :=
    Nps.entryCount_pos hc (decide_eq_true hbound)
  have hlt := nps.entryCount_lt fun c => decide (c.BoundTo j)
  rw [h.connTotal_eq hinfo] at hzero
  have hnat := toNat_counterValue hpos.le hlt
  rw [hzero, show (0 : UInt64).toNat = 0 from rfl] at hnat
  omega

theorem balanced_indexStep (hinv : Sys.Booked s) (hstep : IndexStep s s')
    (hown : s'.nps.OwnCounters) : s'.nps.Balanced := by
  have hserved : ∀ k c, s.nps.connInfo k = some c → c.bound = true →
      ∃ key, (key, c.serverIndex) ∈ s.cp.keyIndexes ∧ (key, c.serverIndex) ∈ s'.cp.keyIndexes := by
    intro k c hc hb
    obtain ⟨info, hinfo⟩ := hinv.books.served k c hc hb
    obtain ⟨key, hkey⟩ := (hinv.indexed c.serverIndex).mp (by simp [hinfo])
    refine ⟨key, hkey, (hstep.gone _ hkey).resolve_right fun hzero => ?_⟩
    exact hinv.books.unbound hinfo hzero hc ⟨hb, rfl⟩
  constructor
  · intro j info' hinfo'
    have haddr : info'.connTotal =
        (serverOnDemandStatsBase j).add alvsServerStatsConnectionTotalOffset := by
      rw [ServerInfoResult.connTotal, (hown j info' hinfo').onDemand]
    simp only [connectionTotal, haddr, Int.add_zero]
    rw [Nps.entryCount_congr hstep.conn]
    obtain ⟨key, hkey⟩ := (hstep.indexed j).mp (by simp [hinfo'])
    obtain hold | ⟨hnone, hzero⟩ := hstep.rows _ hkey
    · obtain ⟨info, hinfo⟩ := Option.ne_none_iff_exists'.mp ((hinv.indexed j).mpr ⟨key, hold⟩)
      exact (hstep.total _ hold).trans (hinv.books.connTotal_eq hinfo)
    · refine hzero.trans (Nps.entryCount_eq_zero fun k c hc => ?_).symm
      refine decide_eq_false fun hbound => ?_
      obtain ⟨info, hinfo⟩ := hinv.books.served k c hc hbound.1
      rw [hbound.2] at hinfo
      cases hnone.symm.trans hinfo
  · exact hown
  · rw [hstep.conn, hstep.allocated]
    exact hinv.books.allocated
  · rw [hstep.conn]
    intro k c hc hb
    obtain ⟨key, -, hkey⟩ := hserved k c hc hb
    exact Option.ne_none_iff_exists'.mp ((hstep.indexed _).mpr ⟨key, hkey⟩)

theorem ownCounters_cpStep (hinv : s.cp.Inv) (hown : s.nps.OwnCounters) (op : CpOp) :
    (s.cpStep op).nps.OwnCounters := by
  obtain heq | he := cpStep_cases hinv.algs op
  · rwa [heq]
  · exact ownCounters_effect hown hinv he

theorem booked_act (s : Sys) (a : BalancerAct) (h : s.Booked) (hok : TotalsKept s a) :
    (s.act a).Booked := by
  cases a with
  | op op =>
    have hstep := IndexStep.cpStep h.inv h.indexed op
    exact ⟨inv_cpStep h.inv op, hstep.indexed,
      balanced_indexStep h hstep (ownCounters_cpStep h.inv h.books.own op)⟩
  | job j mem es =>
    refine ⟨h.inv, fun k => ?_, booked_job h.books j mem es hok⟩
    rw [show (s.act (.job j mem es)).nps.serverInfo = s.nps.serverInfo from
      runJob_serverInfo s j mem es]
    exact h.indexed k

theorem booked_init : Sys.init.Booked where
  inv := .init
  indexed := fun _ => iff_of_false (fun h => h rfl) fun ⟨_, h⟩ => nomatch h
  books := ⟨nofun, nofun, nofun, nofun⟩

end Counters

/-! ## Runs -/

/-- A packet to the example service. -/
def servicePacket : DpJob :=
  .frame ⟨60, true, ⟨0x0a000002, 0x0a000001, ipprotoTcp⟩, .tcp ⟨4000, 80, false, false⟩⟩

/-- A service with a server gets a packet of a new connection. -/
def connectionCreated : List BalancerAct :=
  [.op (.addService exampleService), .op (.addServer exampleService (exampleServer 0 1)),
    .job servicePacket .zero fun _ => exampleEnv]

/-- A record of a connection of that server. -/
def servedRecord : StateSyncConn :=
  { exampleRecord ipVsConnFDroute ipVsTcpSEstablished.toUInt16 0x0b000001 80 with
    virtualAddr := 0x0a000001 }

/-- A backup that has the server receives the record. -/
def recordReceived : List BalancerAct :=
  [.op (.addService exampleService), .op (.addServer exampleService (exampleServer 0 1)),
    .job (exampleSync servedRecord) .zero fun _ => exampleEnv]

/-- The server is deleted, and the aging thread looks at it. -/
def serverDeleted : List BalancerAct :=
  [.op (.deleteServer exampleService (exampleServer 0 1)), .op (.aging 0)]

/-- Entry `i` is bound to index `j`. -/
def Sys.HasBound (s : Sys) (i j : UInt32) : Prop := ∃ c ∈ s.nps.connInfo i, c.BoundTo j

instance (s : Sys) (i j : UInt32) : Decidable (s.HasBound i j) :=
  inferInstanceAs (Decidable (∃ c ∈ s.nps.connInfo i, c.BoundTo j))

/-! ## The theorems -/

/-- In every state of a run whose jobs meet `TotalsOk`, CONNECTION_TOTAL of each server is the
number of the entries that are bound to it, and so it is never negative. -/
theorem connectionTotal_run (acts : List BalancerAct)
    (hok : Always TotalsKept Sys.act Sys.init acts) :
    ∀ j info, (acts.foldl Sys.act Sys.init).nps.serverInfo j = some info →
      (acts.foldl Sys.act Sys.init).nps.onDemand info.connTotal =
        (acts.foldl Sys.act Sys.init).nps.entryCount (fun c => decide (c.BoundTo j)) ∧
      0 ≤ (acts.foldl Sys.act Sys.init).nps.onDemand info.connTotal := by
  intro j info hinfo
  have h := Always.invariant booked_act _ acts booked_init hok
  have htotal : _ = Nps.entryCount _ _ := (h.books.totals j info hinfo).trans (Int.add_zero _)
  exact ⟨htotal, (Nps.entryCount_nonneg _ _).trans htotal.ge⟩

theorem connectionTotal_run_created :
    (connectionCreated.foldl Sys.act Sys.init).HasBound 0 0 ∧ ∀ j info,
      (connectionCreated.foldl Sys.act Sys.init).nps.serverInfo j = some info →
      (connectionCreated.foldl Sys.act Sys.init).nps.onDemand info.connTotal =
        (connectionCreated.foldl Sys.act Sys.init).nps.entryCount
          (fun c => decide (c.BoundTo j)) ∧
      0 ≤ (connectionCreated.foldl Sys.act Sys.init).nps.onDemand info.connTotal :=
  ⟨by decide +kernel, connectionTotal_run connectionCreated (by decide +kernel)⟩

/-- The connection of a record is bound to its server and not counted. -/
theorem connectionTotal_fails :
    ¬ ∀ j info, (recordReceived.foldl Sys.act Sys.init).nps.serverInfo j = some info →
      (recordReceived.foldl Sys.act Sys.init).nps.onDemand info.connTotal =
        (recordReceived.foldl Sys.act Sys.init).nps.entryCount
          (fun c => decide (c.BoundTo j)) := by
  intro h
  obtain ⟨c, hc, hbound⟩ : (recordReceived.foldl Sys.act Sys.init).HasBound 0 0 := by
    decide +kernel
  have hpos : 0 < (recordReceived.foldl Sys.act Sys.init).nps.entryCount
      fun c => decide (c.BoundTo 0) := Nps.entryCount_pos hc (decide_eq_true hbound)
  obtain ⟨info, hinfo, hzero⟩ : ∃ info ∈ (recordReceived.foldl Sys.act Sys.init).nps.serverInfo 0,
      (recordReceived.foldl Sys.act Sys.init).nps.onDemand info.connTotal = 0 := by
    decide +kernel
  have hvalue := h 0 info hinfo
  omega

/-! ## Servers with bound entries -/

/-- The server with index `j` has the service, the address and the port of `key`. -/
def Sys.Serves (s : Sys) (key : ServiceTuple × UInt32 × UInt16) (j : UInt32) : Prop :=
  ∃ r ∈ s.cp.servers, r.key = key ∧ r.server.npsIndex = j

section Kept

variable {s : Sys} {key key' : ServiceTuple × UInt32 × UInt16} {i j : UInt32}

theorem serves_iff : s.Serves key j ↔ (key, j) ∈ s.cp.keyIndexes := by
  simp only [Sys.Serves, Cp.keyIndexes, List.mem_map, ServerRow.keyIndex, Prod.mk.injEq]

/-- The server of an entry is there. -/
theorem Sys.Booked.serves (h : s.Booked) (hb : s.HasBound i j) : ∃ key, s.Serves key j := by
  obtain ⟨c, hc, hbound, rfl⟩ := hb
  obtain ⟨info, hinfo⟩ := h.books.served i c hc hbound
  obtain ⟨key, hkey⟩ := (h.indexed c.serverIndex).mp (by simp [hinfo])
  exact ⟨key, serves_iff.mpr hkey⟩

/-- No other server has its index. -/
theorem Sys.Booked.serves_unique (h : s.Booked) (hkey : s.Serves key j) (hkey' : s.Serves key' j) :
    key' = key := by
  obtain ⟨r, hr, rfl, hidx⟩ := hkey
  obtain ⟨r', hr', rfl, hidx'⟩ := hkey'
  rw [h.inv.server_eq_of_index hr' hr (hidx'.trans hidx.symm)]

/-- A step leaves the server of an entry that is bound before it. -/
theorem serves_act (h : s.Booked) (hb : s.HasBound i j) (hkey : s.Serves key j) (a : BalancerAct) :
    (s.act a).Serves key j := by
  cases a with
  | op op =>
    obtain ⟨c, hc, hbound⟩ := hb
    obtain ⟨info, hinfo⟩ := h.books.served i c hc hbound.1
    rw [hbound.2] at hinfo
    have hstep := IndexStep.cpStep h.inv h.indexed op
    refine serves_iff.mpr ((hstep.gone _ (serves_iff.mp hkey)).resolve_right fun hzero => ?_)
    exact h.books.unbound hinfo hzero hc hbound
  | job j mem es => exact hkey

/-- The server of an entry that stays bound stays. -/
theorem serves_run : ∀ (acts : List BalancerAct) (s : Sys), s.Booked →
    Always TotalsKept Sys.act s acts → (∀ n, ((acts.take n).foldl Sys.act s).HasBound i j) →
      s.Serves key j → (acts.foldl Sys.act s).Serves key j
  | [], _, _, _, _, hkey => hkey
  | a :: acts, s, h, hok, hb, hkey => serves_run acts (s.act a) (booked_act s a h hok.1) hok.2
      (fun n => hb (n + 1)) (serves_act h (hb 0) hkey a)

end Kept

/-- In a run whose jobs meet `TotalsOk`, the server of an entry that stays bound stays the same
server, and no other has its index. -/
theorem serverKept_run (acts later : List BalancerAct)
    (hok : Always TotalsKept Sys.act Sys.init (acts ++ later)) (i j : UInt32)
    (hb : ∀ n, ((acts ++ later.take n).foldl Sys.act Sys.init).HasBound i j) :
    ∃ key, (acts.foldl Sys.act Sys.init).Serves key j ∧
      ((acts ++ later).foldl Sys.act Sys.init).Serves key j ∧
      ∀ key', ((acts ++ later).foldl Sys.act Sys.init).Serves key' j → key' = key := by
  obtain ⟨hacts, hlater⟩ := Always.append.mp hok
  have h := Always.invariant booked_act _ acts booked_init hacts
  have hend := Always.invariant booked_act _ (acts ++ later) booked_init hok
  simp only [List.foldl_append] at hb hend ⊢
  obtain ⟨key, hkey⟩ := h.serves (hb 0)
  have hkept := serves_run later _ h hlater hb hkey
  exact ⟨key, hkey, hkept, fun key' hkey' => hend.serves_unique hkept hkey'⟩

theorem serverKept_run_created :
    ∃ key, (connectionCreated.foldl Sys.act Sys.init).Serves key 0 ∧
      ((connectionCreated ++ serverDeleted).foldl Sys.act Sys.init).Serves key 0 ∧
      ∀ key', ((connectionCreated ++ serverDeleted).foldl Sys.act Sys.init).Serves key' 0 →
        key' = key := by
  refine serverKept_run connectionCreated serverDeleted (by decide +kernel) 0 0 fun n => ?_
  match n with
  | 0 => decide +kernel
  | 1 => decide +kernel
  | n + 2 =>
    rw [List.take_of_length_le (by simp [serverDeleted])]
    decide +kernel

/-- The server of the connection is reclaimed while the entry is bound to its index. -/
theorem serverKept_fails :
    (∀ n, ((recordReceived ++ serverDeleted.take n).foldl Sys.act Sys.init).HasBound 0 0) ∧
      ¬ ∃ key, ((recordReceived ++ serverDeleted).foldl Sys.act Sys.init).Serves key 0 := by
  constructor
  · intro n
    match n with
    | 0 => decide +kernel
    | 1 => decide +kernel
    | n + 2 =>
      rw [List.take_of_length_le (by simp [serverDeleted])]
      decide +kernel
  · rintro ⟨key, r, hr, -⟩
    have hnone : ((recordReceived ++ serverDeleted).foldl Sys.act Sys.init).cp.servers = [] := by
      decide +kernel
    rw [hnone] at hr
    cases hr

end Alvs
