import Alvs.Dp.NewPacket
import Alvs.Dp.Replication

/-!
# Sessions

The packets of a connection, among packets of other connections. Each does to the map of
connections what is said of known and of new connections (`Nps.Handles`).

`session_run` : once a server is chosen for a connection, its packets are sent there.
-/

namespace Alvs

open ProgLogic LProg

/-! ## Packets -/

/-- A packet that a thread processes, with its memory and the environments of its calls. -/
structure PacketRun where
  ipHdr : IpHdr
  tcpHdr : TcpHdr
  mem : Cmem
  env : Nat → DpEnv

namespace PacketRun

variable (x : PacketRun)

def key : ConnClassificationKey :=
  ⟨x.ipHdr.saddr, x.ipHdr.daddr, x.tcpHdr.source, x.tcpHdr.dest, x.ipHdr.protocol.toUInt16⟩

/-- The chip after the packet. -/
def exec (s : Nps) : Nps :=
  (((alvsTcpProcessing x.ipHdr x.tcpHdr).run x.mem).execEnv dpHandle x.env s).2

/-- Where the packet is sent. -/
def dest (s : Nps) : Option Destination :=
  destination (((alvsTcpProcessing x.ipHdr x.tcpHdr).run x.mem).traceEnv dpHandle x.env s)

/-- No call fails. -/
def Ok (s : Nps) : Prop :=
  ((alvsTcpProcessing x.ipHdr x.tcpHdr).run x.mem).CallsOk balancerOk dpHandle x.env s

instance (s : Nps) : Decidable (x.Ok s) := by
  unfold Ok
  infer_instance

end PacketRun

/-- No call fails in the packets, one after the other. -/
def PacketsOk : List PacketRun → Nps → Prop
  | [], _ => True
  | x :: xs, s => x.Ok s ∧ PacketsOk xs (x.exec s)

instance decidablePacketsOk : (xs : List PacketRun) → (s : Nps) → Decidable (PacketsOk xs s)
  | [], _ => .isTrue trivial
  | x :: xs, s => by
    have := decidablePacketsOk xs (x.exec s)
    exact inferInstanceAs (Decidable (_ ∧ _))

/-- What a packet makes of the map of connections, and where it is sent. -/
inductive Nps.Handles (s : Nps) (x : PacketRun) :
    (ConnClassificationKey → Option ConnInfoResult) → Option Destination → Prop
  | known {c : ConnInfoResult} (hc : s.conns x.key = some c) (flags : UInt32) :
    Handles s x (Function.update s.conns x.key (some (s.knownPacket x.tcpHdr flags c).1))
      (s.knownPacket x.tcpHdr flags c).2
  | new {e : Option ConnInfoResult} {d : Option Destination} (hnone : s.conns x.key = none)
    (hnew : s.NewPacket x.key x.ipHdr x.tcpHdr e d) :
    Handles s x (Function.update s.conns x.key e) d

section Packet

variable {s : Nps} {x : PacketRun}

theorem wp_tcpProcessing (h : TablesAgree s) (hs : s.Configured) (m : Cmem) :
    (alvsTcpProcessing x.ipHdr x.tcpHdr).wp
      (Prog.watchedSpec dpHandle balancerOk Destination.next)
      (fun _ _ y => ∃ conns, s.Handles x conns y.2 ∧ s.Maps y.1 conns) m (s, none) := by
  unfold alvsTcpProcessing
  refine (wp_bind _ _ _).mpr ((wp_modify _ _).mpr ((wp_bind _ _ _).mpr
    ((wp_call_watched _ _).mpr fun e he => ?_)))
  have hfails : e.fails = false := balancerOk_noFailure he
  simp only [dpHandle, hfails, Bool.false_eq_true, if_false]
  cases hclass : s.connClassification x.key with
  | some i =>
    have hclass' : s.connClassification ⟨x.ipHdr.saddr, x.ipHdr.daddr, x.tcpHdr.source,
      x.tcpHdr.dest, x.ipHdr.protocol.toUInt16⟩ = some i := hclass
    rw [hclass']
    obtain ⟨c, hinfo, hkey, hconns⟩ := h.info_of_class hclass
    refine wp_mono (wp_watchedBalancer (maps_connDataPath x.tcpHdr h hinfo hkey)) ?_
    rintro _ _ y ⟨hmaps, hdest⟩
    rw [hkey] at hmaps
    exact ⟨_, hdest ▸ .known hconns _, hmaps⟩
  | none =>
    have hclass' : s.connClassification ⟨x.ipHdr.saddr, x.ipHdr.daddr, x.tcpHdr.source,
      x.tcpHdr.dest, x.ipHdr.protocol.toUInt16⟩ = none := hclass
    rw [hclass']
    have hnone := h.conns_none.mpr hclass
    refine wp_mono (maps_unknownPacket x.ipHdr x.tcpHdr h hs hnone) ?_
    rintro _ _ y ⟨e, hnew, hmaps⟩
    exact ⟨_, .new hnone hnew, hmaps⟩

theorem handles_exec (h : TablesAgree s) (hs : s.Configured) (hok : x.Ok s) :
    ∃ conns, s.Handles x conns (x.dest s) ∧ s.Maps (x.exec s) conns :=
  Prog.execEnv_of_wp_prod _ (wp_tcpProcessing h hs x.mem) hok

theorem sameConfig_exec (hok : x.Ok s) : s.SameConfig (x.exec s) :=
  Prog.execEnv_of_wp _ (wp_sameConfig _ x.mem s) hok

end Packet

/-! ## Sessions -/

/-- The connection is bound to a server, and is not reset. -/
def Nps.InSession (s : Nps) (key : ConnClassificationKey) (j : UInt32) : Prop :=
  ∃ c, s.conns key = some c ∧ c.bound = true ∧ c.serverIndex = j ∧ c.resetBit = false

theorem afterPacket_resetBit {c : ConnInfoResult} {tcp : TcpHdr} (hrst : tcp.rst = false) :
    (c.afterPacket tcp).resetBit = c.resetBit := by
  unfold ConnInfoResult.afterPacket ConnInfoResult.closedOnce
  rw [hrst, if_neg Bool.false_ne_true]
  split
  · split <;> rfl
  · split <;> rfl

section Session

variable {s : Nps} {x : PacketRun} {key : ConnClassificationKey} {j : UInt32}
  {info : ServerInfoResult}

/-- A packet of a connection in a session, and of any other connection. -/
theorem inSession_exec (h : TablesAgree s) (hs : s.Configured) (hok : x.Ok s)
    (hin : s.InSession key j) (hinfo : s.serverInfo j = some info) (havailable : info.available)
    (hrst : x.key = key → x.tcpHdr.rst = false) :
    (x.exec s).InSession key j ∧
      (x.key = key → x.dest s = routeDest info.connFlags info.serverIp) := by
  obtain ⟨c, hc, hbound, hindex, hreset⟩ := hin
  obtain ⟨conns, hhandles, hmaps⟩ := handles_exec h hs hok
  by_cases hkey : x.key = key
  · subst hkey
    generalize hd : x.dest s = d at hhandles
    cases hhandles with
    | new hnone _ =>
      rw [hnone] at hc
      cases hc
    | @known c' hc' flags =>
      obtain rfl := Option.some.inj (hc'.symm.trans hc)
      have hbind : s.bindConn c' = c' := if_pos hbound
      have hknown : s.knownPacket x.tcpHdr flags c' =
          (c'.afterPacket x.tcpHdr, routeDest info.connFlags info.serverIp) := by
        simp only [Nps.knownPacket, hbind, hreset, Bool.false_eq_true, if_false, if_pos hbound,
          hindex, hinfo, if_pos havailable]
      obtain ⟨hbound', hindex'⟩ := c'.afterPacket_bound x.tcpHdr
      rw [hknown] at hmaps ⊢
      refine ⟨⟨c'.afterPacket x.tcpHdr, ?_, hbound'.trans hbound, hindex'.trans hindex,
        (afterPacket_resetBit (hrst rfl)).trans hreset⟩, fun _ => rfl⟩
      rw [hmaps.conns, Function.update_self]
  · refine ⟨⟨c, ?_, hbound, hindex, hreset⟩, fun heq => absurd heq hkey⟩
    rw [hmaps.conns]
    generalize x.dest s = d at hhandles
    cases hhandles with
    | known | new => rw [Function.update_of_ne (Ne.symm hkey), hc]

/-- In a session all packets are sent to the server, among packets of other connections. -/
theorem inSession_run (havailable : info.available) : ∀ (xs : List PacketRun) {s : Nps},
    TablesAgree s → s.Configured → PacketsOk xs s → s.InSession key j →
    s.serverInfo j = some info → (∀ x ∈ xs, x.key = key → x.tcpHdr.rst = false) →
    ∀ pre y post, xs = pre ++ y :: post → y.key = key →
      y.dest (pre.foldl (fun s x => x.exec s) s) = routeDest info.connFlags info.serverIp
  | [], _, _, _, _, _, _, _, pre, y, post, heq, _ => by simp at heq
  | x :: xs, s, h, hs, hok, hin, hinfo, hrst, pre, y, post, heq, hy => by
    obtain ⟨hrstx, hrsts⟩ := List.forall_mem_cons.mp hrst
    obtain ⟨hin', hdest⟩ := inSession_exec h hs hok.1 hin hinfo havailable hrstx
    cases pre with
    | nil =>
      obtain ⟨rfl, -⟩ := List.cons.inj heq
      exact hdest hy
    | cons z pre =>
      obtain ⟨rfl, htail⟩ := List.cons.inj heq
      obtain ⟨conns, -, hmaps⟩ := handles_exec h hs hok.1
      have hsame := sameConfig_exec hok.1
      exact inSession_run havailable xs hmaps.agree (hs.congr hsame) hok.2 hin'
        (hsame.serverInfo ▸ hinfo) hrsts pre y post htail hy

/-- Server `j` is that of an entry that the service of the packet chooses from, and it admits a
connection. -/
def Nps.Offers (s : Nps) (x : PacketRun) (j : UInt32) (info : ServerInfoResult) : Prop :=
  ∃ i svc entry, s.serviceClassification (x.ipHdr.serviceKey x.tcpHdr) = some i ∧
    s.serviceInfo i = some svc ∧ entry < svc.entries ∧ s.entryServer i entry = some (j, info) ∧
    s.Admits info

theorem serverInfo_of_entryServer {i : UInt8} {entry : Nat}
    (hserver : s.entryServer i entry = some (j, info)) : s.serverInfo j = some info := by
  obtain ⟨j', -, hmap⟩ := Option.bind_eq_some_iff.mp hserver
  obtain ⟨info', hinfo, heq⟩ := Option.map_eq_some_iff.mp hmap
  obtain ⟨rfl, rfl⟩ := Prod.mk.inj heq
  exact hinfo

/-- Session persistence. Where the first packet of a connection makes an entry, a server of its
service is chosen that admits the connection, and, if it is available, this packet and all later
packets of the connection are sent to it, whatever packets of other connections come in between,
as long as none of them resets the connection. -/
theorem session_run {xs : List PacketRun} (h : TablesAgree s) (hs : s.Configured)
    (hok : PacketsOk (x :: xs) s) (hnew : s.conns x.key = none)
    (hopen : (x.exec s).conns x.key ≠ none)
    (hrst : ∀ y ∈ x :: xs, y.key = x.key → y.tcpHdr.rst = false) :
    ∃ j info, s.Offers x j info ∧ (info.available → ∀ pre y post, x :: xs = pre ++ y :: post →
      y.key = x.key → y.dest (pre.foldl (fun s x => x.exec s) s) =
        routeDest info.connFlags info.serverIp) := by
  obtain ⟨conns, hhandles, hmaps⟩ := handles_exec h hs hok.1
  have hrstx := hrst x List.mem_cons_self rfl
  generalize hd : x.dest s = d at hhandles
  cases hhandles with
  | known hc _ =>
    rw [hnew] at hc
    cases hc
  | new _ hpacket =>
    rw [hmaps.conns, Function.update_self] at hopen
    cases hpacket with
    | host => exact absurd rfl hopen
    | refused => exact absurd rfl hopen
    | @scheduled i svc entry j info hi hsvc hentry hserver hadmits =>
      refine ⟨j, info, ⟨i, svc, entry, hi, hsvc, hentry, hserver, hadmits⟩, fun havailable => ?_⟩
      have hin : (x.exec s).InSession x.key j := by
        refine ⟨firstEntry x.key x.tcpHdr j info, ?_, rfl, rfl, hrstx⟩
        rw [hmaps.conns, Function.update_self]
      intro pre y post heq hy
      cases pre with
      | nil =>
        obtain ⟨rfl, -⟩ := List.cons.inj heq
        exact hd
      | cons z pre =>
        obtain ⟨rfl, htail⟩ := List.cons.inj heq
        have hsame := sameConfig_exec hok.1
        exact inSession_run havailable xs hmaps.agree (hs.congr hsame) hok.2 hin
          (hsame.serverInfo ▸ serverInfo_of_entryServer hserver)
          (fun y hy => hrst y (List.mem_cons_of_mem _ hy)) pre y post htail hy

/-- A chip with one service, by source hash, on the servers of `exampleShChip`. -/
def exampleSessionChip : Nps :=
  { exampleShChip with
    serviceClassification := fun _ => some 0
    serviceInfo := fun _ => some { Cmem.zero.serviceInfoResult with
      schedAlg := .sourceHash
      schedEntriesCount := 256
      serviceFlags := ipVsSvcFSchedShFallback } }

/-- A packet of one connection. -/
def exampleSessionPacket (fin : Bool) : PacketRun where
  ipHdr := ⟨0x0a000001, 0x0a0000fe, ipprotoTcp⟩
  tcpHdr := ⟨4000, 80, fin, false⟩
  mem := .zero
  env _ := exampleEnv

theorem exampleSession_configured : exampleSessionChip.Configured :=
  ⟨fun _ _ h => Option.some.inj h ▸ ⟨rfl, rfl⟩, fun _ _ h => Option.some.inj h ▸ by decide⟩

/-- A connection that is opened and closed. -/
theorem session_run_closed :
    ∃ j info, exampleSessionChip.Offers (exampleSessionPacket false) j info ∧
    (info.available → ∀ pre y post,
      [exampleSessionPacket false, exampleSessionPacket true] = pre ++ y :: post →
      y.key = (exampleSessionPacket false).key →
      y.dest (pre.foldl (fun s x => x.exec s) exampleSessionChip) =
        routeDest info.connFlags info.serverIp) :=
  session_run ⟨tablesAgree_init.class_iff, tablesAgree_init.alloc_iff⟩ exampleSession_configured
    (by decide +kernel) rfl (by decide +kernel) (by decide +kernel)

end Session

end Alvs
