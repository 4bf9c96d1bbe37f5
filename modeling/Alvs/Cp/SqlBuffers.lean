import Alvs.Cp.Ops
import Alvs.Lib.Format

/-!
# The buffers of the SQL statements

The functions `internal_db_*` format their statement into a buffer on the stack, of 256
characters or, for the insertion of a server, of 512. Here are the statements as they are
formatted : the addresses of statistics are passed as their raw words, which `raw` stands
for. A statement fits its buffer together with the NUL behind it (`FitsBuffer`).

No conversion writes more than 11 characters for a word and 20 for a counter, but with all
arguments that wide the insertion of a service would not fit. What the callers pass makes
the difference : the protocol is supported, indexes come from their pools, and a row is
inserted with no entries and counters of 0 (`DbService.Insertable`, `DbServer.Insertable`).
-/

namespace Alvs

open ProgLogic

/-! ## The statements -/

/-- The value of an enumerator. -/
def AlvsSchedulerType.value : AlvsSchedulerType → UInt32
  | .roundRobin => 0
  | .weightedRoundRobin => 1
  | .leastConnection => 2
  | .weightedLeastConnection => 3
  | .destinationHash => 4
  | .sourceHash => 5
  | .lbLeastConnection => 6
  | .lbLeastConnectionWithReplication => 7
  | .shortestExpectedDelay => 8
  | .neverQueue => 9
  | .last => 10

/-- The arguments of `WHERE ip=%d AND port=%d AND protocol=%d`. -/
def ServiceTuple.args (t : ServiceTuple) : List FormatArg :=
  [.word t.ip, .word t.port.toUInt32, .word t.protocol.toUInt32]

section Statements

variable (raw : SumAddr → UInt32)

def addServiceSql (service : DbService) : Option (List Char) :=
  sprintf ("INSERT INTO services " ++
      "(ip, port, protocol, nps_index, flags, sched_alg, connection_scheduled, stats_base, " ++
      "in_packet, in_byte, out_packet, out_byte, sched_entries_count) " ++
      "VALUES (%d, %d, %d, %d, %d, %d, %ld, %d, %ld, %ld, %ld, %ld, %d);")
    (service.tuple.args ++
      [.word service.npsIndex, .word service.flags, .word service.schedAlg.value,
        .long service.serviceStats.connectionScheduled, .word (raw service.statsBase),
        .long service.serviceStats.inPacket, .long service.serviceStats.inByte,
        .long service.serviceStats.outPacket, .long service.serviceStats.outByte,
        .word service.schedEntriesCount.toUInt32])

def modifyServiceSql (service : DbService) : Option (List Char) :=
  sprintf ("UPDATE services " ++
      "SET flags=%d, sched_alg=%d, sched_entries_count=%d " ++
      "WHERE ip=%d AND port=%d AND protocol=%d;")
    ([.word service.flags, .word service.schedAlg.value,
      .word service.schedEntriesCount.toUInt32] ++
      service.tuple.args)

def saveServiceStatsSql (service : ServiceTuple) (serviceStats : DbStats) : Option (List Char) :=
  sprintf ("UPDATE services " ++
      "SET in_packet=%ld, in_byte=%ld, out_packet=%ld, out_byte=%ld, connection_scheduled=%ld " ++
      "WHERE ip=%d AND port=%d AND protocol=%d;")
    ([.long serviceStats.inPacket, .long serviceStats.inByte, .long serviceStats.outPacket,
      .long serviceStats.outByte, .long serviceStats.connectionScheduled] ++ service.args)

def deleteServiceSql (service : ServiceTuple) : Option (List Char) :=
  sprintf ("DELETE FROM services " ++
      "WHERE ip=%d AND port=%d AND protocol=%d;" ++
      "UPDATE servers SET active=0, server_flags=server_flags&%u " ++
      "WHERE srv_ip=%d AND srv_port=%d AND srv_protocol=%d;")
    (service.args ++ [.word (~~~ipVsDestFAvailable)] ++ service.args)

def saveServerStatsSql (ip : UInt32) (port : UInt16) (npsIndex : UInt32) (serverStats : DbStats) :
    Option (List Char) :=
  sprintf ("UPDATE servers " ++
      "SET connection_scheduled=%ld, in_packet=%ld, in_byte=%ld, out_packet=%ld, out_byte=%ld " ++
      "WHERE ip=%d AND port=%d AND nps_index=%d;")
    [.long serverStats.connectionScheduled, .long serverStats.inPacket, .long serverStats.inByte,
      .long serverStats.outPacket, .long serverStats.outByte, .word ip, .word port.toUInt32,
      .word npsIndex]

def addServerSql (service : ServiceTuple) (server : DbServer) : Option (List Char) :=
  sprintf ("INSERT INTO servers " ++
      "(ip, port, srv_ip, srv_port, srv_protocol, nps_index, weight, conn_flags, server_flags, " ++
      "u_thresh, l_thresh, active, server_stats_base, service_stats_base, server_on_demand_stats_base," ++
      "server_flags_dp_base, connection_scheduled, in_packet, in_byte, out_packet, out_byte) " ++
      "VALUES (%d, %d, %d, %d, %d, %d, %d, %d, %d, %d, %d, %d, %d, %d, %d, %d, %ld, %ld, %ld, %ld, %ld);")
    ([.word server.ip, .word server.port.toUInt32] ++ service.args ++
      [.word server.npsIndex, .word server.weight.toUInt32, .word server.connFlags,
        .word server.serverFlags, .word server.uThresh, .word server.lThresh,
        .word server.active.toUInt32, .word (raw server.serverStatsBase),
        .word (raw server.serviceStatsBase), .word (raw server.serverOnDemandStatsBase),
        .word (raw server.serverFlagsDpBase), .long server.serverStats.connectionScheduled,
        .long server.serverStats.inPacket, .long server.serverStats.inByte,
        .long server.serverStats.outPacket, .long server.serverStats.outByte])

def modifyServerSql (service : ServiceTuple) (server : DbServer) : Option (List Char) :=
  sprintf ("UPDATE servers " ++
      "SET weight=%d, conn_flags=%d, server_flags=%d, " ++
      "u_thresh=%d, l_thresh=%d " ++
      "WHERE srv_ip=%d AND srv_port=%d AND srv_protocol=%d " ++
      "AND ip=%d AND port=%d;")
    ([.word server.weight.toUInt32, .word server.connFlags, .word server.serverFlags,
      .word server.uThresh, .word server.lThresh] ++ service.args ++
      [.word server.ip, .word server.port.toUInt32])

def activateServerSql (service : ServiceTuple) (server : DbServer) : Option (List Char) :=
  sprintf ("UPDATE servers " ++
      "SET weight=%d, active=1, server_flags=server_flags|%u, " ++
      "u_thresh=%d, l_thresh=%d, conn_flags=%d " ++
      "WHERE srv_ip=%d AND srv_port=%d AND srv_protocol=%d " ++
      "AND ip=%d AND port=%d;")
    ([.word server.weight.toUInt32, .word ipVsDestFAvailable, .word server.uThresh,
      .word server.lThresh, .word server.connFlags] ++ service.args ++
      [.word server.ip, .word server.port.toUInt32])

end Statements

/-! ## What the callers pass -/

/-- The statement and the NUL behind it fit a buffer of `size` characters. -/
def FitsBuffer (size : Nat) (sql : Option (List Char)) : Prop :=
  ∃ text, sql = some text ∧ text.length + 1 ≤ size

/-- A service as `alvs_db_add_service` inserts it. -/
structure DbService.Insertable (v : DbService) : Prop where
  protocol : supportedProtocol v.tuple.protocol = true
  index : v.npsIndex.toNat < serviceIndexPoolSize
  entries : v.schedEntriesCount = 0
  stats : v.serviceStats = .zero

/-- A server as `alvs_db_add_server` inserts it. -/
structure DbServer.Insertable (v : DbServer) : Prop where
  index : v.npsIndex.toNat < serverIndexPoolSize
  stats : v.serverStats = .zero

theorem newService_insertable {u : IpVsServiceUser} {i : UInt32}
    (hu : supportedProtocol u.protocol = true) (hi : i.toNat < serviceIndexPoolSize) :
    (newService u i).Insertable :=
  ⟨hu, hi, rfl, rfl⟩

theorem newServer_insertable {v : DbService} {d : IpVsDestUser} {i : UInt32}
    (hi : i.toNat < serverIndexPoolSize) : (newServer v d i).Insertable :=
  ⟨hi, rfl⟩

/-! ## The widest statements -/

theorem narrower_port (port : UInt16) :
    (FormatArg.word port.toUInt32).Narrower (.word 65535) := by
  have := port.toNat_lt
  refine narrower_word_of_lt (k := 5) (by decide) ?_ (by decide) (by decide) (by decide)
  rw [UInt16.toNat_toUInt32]
  omega

theorem narrower_alg (alg : AlvsSchedulerType) :
    (FormatArg.word alg.value).Narrower (.word 10) := by
  refine narrower_word_of_lt (k := 2) (by decide) ?_ (by decide) (by decide) (by decide)
  cases alg <;> decide

theorem narrower_active (active : Bool) :
    (FormatArg.word active.toUInt32).Narrower (.word 1) := by
  cases active <;> exact ⟨by decide, by decide⟩

theorem narrower_serviceIndex {i : UInt32} (hi : i.toNat < serviceIndexPoolSize) :
    (FormatArg.word i).Narrower (.word 255) := by
  have : i.toNat < 256 := hi
  exact narrower_word_of_lt (k := 3) (by decide) (by omega) (by decide) (by decide) (by decide)

theorem narrower_serverIndex {i : UInt32} (hi : i.toNat < serverIndexPoolSize) :
    (FormatArg.word i).Narrower (.word 32767) := by
  have : i.toNat < 32768 := hi
  exact narrower_word_of_lt (k := 5) (by decide) (by omega) (by decide) (by decide) (by decide)

/-- The arguments of the widest key of a supported service. -/
def widestTuple : List FormatArg := [.word 0x80000000, .word 65535, .word 6]

theorem narrower_args {t : ServiceTuple} (h : supportedProtocol t.protocol = true) :
    List.Forall₂ FormatArg.Narrower t.args widestTuple := by
  have hprotocol : t.protocol = 6 := of_decide_eq_true h
  refine .cons (narrower_word _) (.cons (narrower_port _) (.cons ?_ .nil))
  rw [hprotocol]
  exact .refl _

theorem append_eq_ofList {s t : String} {l m : List Char} (hs : s = .ofList l)
    (ht : t = .ofList m) : s ++ t = .ofList (l ++ m) := by
  rw [hs, ht, String.ofList_append]

/-- A statement fits a buffer that holds the one with wider arguments. -/
theorem fitsBuffer_of_narrower {fmt : String} {chars : List Char} (hfmt : fmt = .ofList chars)
    {args widest : List FormatArg} {size n : Nat}
    (h : List.Forall₂ FormatArg.Narrower args widest)
    (hn : (render (parseFormat chars) widest).map List.length = some n) (hsize : n + 1 ≤ size) :
    FitsBuffer size (sprintf fmt args) := by
  rw [hfmt]
  obtain ⟨text, htext, hle⟩ := sprintf_narrower h hn
  exact ⟨text, htext, by omega⟩

section Widest

-- the formats are unfolded to their characters
set_option maxRecDepth 4000

variable (raw : SumAddr → UInt32) {service : ServiceTuple} {server : DbServer}

theorem addServiceSql_fits {v : DbService} (hv : v.Insertable) :
    FitsBuffer 256 (addServiceSql raw v) := by
  obtain ⟨hprotocol, hindex, hentries, hstats⟩ := hv
  rw [addServiceSql, hentries, hstats]
  refine fitsBuffer_of_narrower (append_eq_ofList (append_eq_ofList (append_eq_ofList rfl rfl) rfl)
    rfl) (List.rel_append (narrower_args hprotocol)
    (.cons (narrower_serviceIndex hindex) (.cons (narrower_word _) (.cons (narrower_alg _)
      (.cons (.refl _) (.cons (narrower_word _) (.cons (.refl _) (.cons (.refl _) (.cons (.refl _)
        (.cons (.refl _) (.cons (.refl _) .nil)))))))))))
    (n := 252) ?_ (by decide)
  rfl

theorem modifyServiceSql_fits {v : DbService} (hv : supportedProtocol v.tuple.protocol = true) :
    FitsBuffer 256 (modifyServiceSql v) := by
  refine fitsBuffer_of_narrower (append_eq_ofList (append_eq_ofList rfl rfl) rfl) (List.rel_append
    (.cons (narrower_word _) (.cons (narrower_alg _) (.cons (narrower_port _) .nil)))
    (narrower_args hv)) (n := 130) ?_ (by decide)
  rfl

theorem saveServiceStatsSql_fits (hv : supportedProtocol service.protocol = true)
    (stats : DbStats) :
    FitsBuffer 256 (saveServiceStatsSql service stats) := by
  refine fitsBuffer_of_narrower (append_eq_ofList (append_eq_ofList rfl rfl) rfl) (List.rel_append
    (.cons (narrower_long _) (.cons (narrower_long _) (.cons (narrower_long _)
      (.cons (narrower_long _) (.cons (narrower_long _) .nil)))))
    (narrower_args hv)) (n := 239) ?_ (by decide)
  rfl

theorem deleteServiceSql_fits (hv : supportedProtocol service.protocol = true) :
    FitsBuffer 256 (deleteServiceSql service) := by
  refine fitsBuffer_of_narrower (append_eq_ofList (append_eq_ofList (append_eq_ofList rfl rfl) rfl)
    rfl) (List.rel_append
    (List.rel_append (narrower_args hv) (.cons (narrower_word _) .nil))
    (narrower_args hv)) (n := 201) ?_ (by decide)
  rfl

theorem saveServerStatsSql_fits (ip : UInt32) (port : UInt16) {i : UInt32}
    (hi : i.toNat < serverIndexPoolSize) (stats : DbStats) :
    FitsBuffer 256 (saveServerStatsSql ip port i stats) := by
  refine fitsBuffer_of_narrower (append_eq_ofList (append_eq_ofList rfl rfl) rfl)
    (.cons (narrower_long _) (.cons (narrower_long _) (.cons (narrower_long _)
      (.cons (narrower_long _) (.cons (narrower_long _) (.cons (narrower_word _)
        (.cons (narrower_port _) (.cons (narrower_serverIndex hi) .nil))))))))
    (n := 243) ?_ (by decide)
  rfl

theorem addServerSql_fits (hv : supportedProtocol service.protocol = true)
    (hserver : server.Insertable) : FitsBuffer 512 (addServerSql raw service server) := by
  obtain ⟨hindex, hstats⟩ := hserver
  rw [addServerSql, hstats]
  refine fitsBuffer_of_narrower (append_eq_ofList (append_eq_ofList (append_eq_ofList
    (append_eq_ofList rfl rfl) rfl) rfl) rfl) (List.rel_append (List.rel_append
    (.cons (narrower_word _) (.cons (narrower_port _) .nil)) (narrower_args hv))
    (.cons (narrower_serverIndex hindex) (.cons (narrower_port _) (.cons (narrower_word _)
      (.cons (narrower_word _) (.cons (narrower_word _) (.cons (narrower_word _)
        (.cons (narrower_active _) (.cons (narrower_word _) (.cons (narrower_word _)
          (.cons (narrower_word _) (.cons (narrower_word _) (.cons (.refl _) (.cons (.refl _)
            (.cons (.refl _) (.cons (.refl _) (.cons (.refl _) .nil)))))))))))))))))
    (n := 476) ?_ (by decide)
  rfl

theorem modifyServerSql_fits (hv : supportedProtocol service.protocol = true) (server : DbServer) :
    FitsBuffer 256 (modifyServerSql service server) := by
  refine fitsBuffer_of_narrower (append_eq_ofList (append_eq_ofList (append_eq_ofList
    (append_eq_ofList rfl rfl) rfl) rfl) rfl) (List.rel_append (List.rel_append
    (.cons (narrower_port _) (.cons (narrower_word _) (.cons (narrower_word _)
      (.cons (narrower_word _) (.cons (narrower_word _) .nil))))) (narrower_args hv))
    (.cons (narrower_word _) (.cons (narrower_port _) .nil))) (n := 223) ?_ (by decide)
  rfl

theorem activateServerSql_fits (hv : supportedProtocol service.protocol = true)
    (server : DbServer) : FitsBuffer 256 (activateServerSql service server) := by
  refine fitsBuffer_of_narrower (append_eq_ofList (append_eq_ofList (append_eq_ofList
    (append_eq_ofList rfl rfl) rfl) rfl) rfl) (List.rel_append (List.rel_append
    (.cons (narrower_port _) (.cons (.refl _) (.cons (narrower_word _)
      (.cons (narrower_word _) (.cons (narrower_word _) .nil))))) (narrower_args hv))
    (.cons (narrower_word _) (.cons (narrower_port _) .nil))) (n := 236) ?_ (by decide)
  rfl

end Widest

/-- Every statement fits the buffer of its function, for all that the callers pass : a
service and a server that are inserted, and a service and a server that have rows. -/
theorem sqlStatements_fit (raw : SumAddr → UInt32) (addedService service : DbService)
    (addedServer server : DbServer) (serviceStats serverStats : DbStats)
    (haddedService : addedService.Insertable) (haddedServer : addedServer.Insertable)
    (hservice : supportedProtocol service.tuple.protocol = true)
    (hserver : server.npsIndex.toNat < serverIndexPoolSize) :
    FitsBuffer 256 (addServiceSql raw addedService) ∧
      FitsBuffer 256 (modifyServiceSql service) ∧
      FitsBuffer 256 (saveServiceStatsSql service.tuple serviceStats) ∧
      FitsBuffer 256 (deleteServiceSql service.tuple) ∧
      FitsBuffer 256 (saveServerStatsSql server.ip server.port server.npsIndex serverStats) ∧
      FitsBuffer 512 (addServerSql raw service.tuple addedServer) ∧
      FitsBuffer 256 (modifyServerSql service.tuple server) ∧
      FitsBuffer 256 (activateServerSql service.tuple server) :=
  ⟨addServiceSql_fits raw haddedService, modifyServiceSql_fits hservice,
    saveServiceStatsSql_fits hservice serviceStats, deleteServiceSql_fits hservice,
    saveServerStatsSql_fits server.ip server.port hserver serverStats,
    addServerSql_fits raw hservice haddedServer, modifyServerSql_fits hservice server,
    activateServerSql_fits hservice server⟩

/-- The last service and the last server of the pools, with the widest numbers. -/
theorem sqlStatements_fit_widest :
    let u : IpVsServiceUser := ⟨6, 0x80, 0xffff, "sh", 0x80000000⟩
    let d : IpVsDestUser := ⟨0x80, 0xffff, 0, 0xffff, 0x80000000, 0x80000000⟩
    let service := newService u 255
    let server := newServer service d 32767
    FitsBuffer 256 (addServiceSql (fun _ => 0x80000000) service) ∧
      FitsBuffer 512 (addServerSql (fun _ => 0x80000000) service.tuple server) := by
  intro u d service server
  have h := sqlStatements_fit (fun _ => 0x80000000) service service server server .zero .zero
    (newService_insertable (by decide) (by decide)) (newServer_insertable (by decide))
    (by decide) (by decide)
  exact ⟨h.1, h.2.2.2.2.2.1⟩

end Alvs
