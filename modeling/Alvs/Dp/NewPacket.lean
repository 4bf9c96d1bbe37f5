import Alvs.Dp.KnownPacket
import Alvs.Dp.RoundRobin
import Alvs.Dp.SourceHash

/-!
# Packets of new connections

A packet of a connection that is not known is sent to the host where there is no service for it.
Otherwise a server of the service that admits it is chosen, the connection is created with it, and
the packet is sent there (`Nps.NewPacket`). It is dropped only where some entry of the service has
no server, or one that refuses it (`Nps.Serves`).

`maps_unknownPacket` : so it is where the packet is processed alone and no call fails.
-/

namespace Alvs

open ProgLogic LProg

/-- A hash has the number of bits that was asked for. -/
def DpCall.hashFits (e : DpEnv) : DpCall → Bool
  | .hash _ _ bits _ => Nat.blt e.value.toNat (2 ^ bits)
  | _ => true

/-- No call fails, and hashes are what was asked for. -/
def balancerOk (e : DpEnv) (op : DpCall) (s : Nps) : Prop := noFailure e op s ∧ op.hashFits e = true

instance (e : DpEnv) (op : DpCall) (s : Nps) : Decidable (balancerOk e op s) :=
  inferInstanceAs (Decidable (_ ∧ _))

theorem balancerOk_noFailure {e : DpEnv} {op : DpCall} {s : Nps} (h : balancerOk e op s) :
    noFailure e op s := h.1

/-- Runs of the load balancer in which no call fails. -/
abbrev balancerSpec : Spec DpCall DpCall.Res Nps := Prog.envSpec dpHandle balancerOk

theorem wp_balancer {α : Type} {x : Dp α} {Q : α → Cmem → Nps → Prop} {m : Cmem} {s : Nps}
    (h : x.wp noFailureSpec Q m s) : x.wp balancerSpec Q m s :=
  Prog.wp_env_mono (fun _ _ _ => balancerOk_noFailure) h

theorem wp_watchedBalancer {α : Type} {x : Dp α} {Q : α → Cmem → Nps × Option Destination → Prop}
    {m : Cmem} {y : Nps × Option Destination}
    (h : x.wp (Prog.watchedSpec dpHandle noFailure Destination.next) Q m y) :
    x.wp (Prog.watchedSpec dpHandle balancerOk Destination.next) Q m y :=
  Prog.wp_watched_mono (fun _ _ _ => balancerOk_noFailure) h

/-! ## The tables that are configured -/

/-- What the control plane writes is the same. -/
structure Nps.SameConfig (s s' : Nps) : Prop where
  serviceClass : s'.serviceClassification = s.serviceClassification
  serviceInfo : s'.serviceInfo = s.serviceInfo
  sched : s'.schedInfo = s.schedInfo
  serverInfo : s'.serverInfo = s.serverInfo
  serverClass : s'.serverClassification = s.serverClassification

theorem Nps.SameConfig.refl (s : Nps) : s.SameConfig s := ⟨rfl, rfl, rfl, rfl, rfl⟩

theorem Nps.SameConfig.trans {s s' s'' : Nps} (h : s.SameConfig s') (h' : s'.SameConfig s'') :
    s.SameConfig s'' :=
  ⟨h'.serviceClass.trans h.serviceClass, h'.serviceInfo.trans h.serviceInfo, h'.sched.trans h.sched,
    h'.serverInfo.trans h.serverInfo, h'.serverClass.trans h.serverClass⟩

/-- No call of the data plane writes them. -/
theorem sameConfig_dpHandle (e : DpEnv) (op : DpCall) (s : Nps) :
    s.SameConfig (dpHandle e op s).2 := by
  cases op <;> first
    | exact ⟨rfl, rfl, rfl, rfl, rfl⟩
    | (simp only [dpHandle]; split <;> exact ⟨rfl, rfl, rfl, rfl, rfl⟩)

theorem wp_sameConfig {α : Type} {ok : DpEnv → DpCall → Nps → Prop} (x : Dp α) (m : Cmem)
    (s : Nps) : x.wp (Prog.envSpec dpHandle ok) (fun _ _ s' => s.SameConfig s') m s := by
  refine Prog.wp_invariant (I := s.SameConfig) ?_ (x.run m) (.refl s)
  intro s₁ op h
  refine ⟨trivial, ?_⟩
  rintro r s' ⟨e, -, heq⟩
  obtain rfl : (dpHandle e op s₁).2 = s' := congrArg Prod.snd heq
  exact h.trans (sameConfig_dpHandle e op s₁)

/-! ## Services -/

/-- The number of entries that the algorithm of a service chooses from. -/
def ServiceInfoResult.entries (svc : ServiceInfoResult) : Nat :=
  if svc.schedAlg = .sourceHash then alvsSizeOfSchedBucket else svc.schedEntriesCount.toNat

/-- Every server has counters of its own, and no service has more entries than there is room for. -/
structure Nps.Configured (s : Nps) : Prop where
  own : s.OwnCounters
  count : ∀ i svc, s.serviceInfo i = some svc → svc.schedEntriesCount.toNat ≤ 256

theorem Nps.Configured.congr {s s' : Nps} (h : s.Configured) (hsame : s.SameConfig s') :
    s'.Configured :=
  ⟨h.own.congr hsame.serverInfo, fun i svc hsvc => h.count i svc (hsame.serviceInfo ▸ hsvc)⟩

/-- The service has an algorithm, and every entry that it chooses from has a server that admits a
connection. -/
structure Nps.Serves (s : Nps) (i : UInt8) (svc : ServiceInfoResult) : Prop where
  alg : supportedSchedAlg svc.schedAlg = true
  active : svc.schedEntriesCount ≠ 0
  admits : ∀ entry, entry < svc.entries →
    ∃ j info, s.entryServer i entry = some (j, info) ∧ s.Admits info

/-- The outcome of scheduling : a server of an entry that admits the connection, or none. -/
inductive Nps.Schedules (s : Nps) (i : UInt8) (svc : ServiceInfoResult) :
    Option (UInt32 × ServerInfoResult) → Prop
  | picked {entry : Nat} {j : UInt32} {info : ServerInfoResult} (hentry : entry < svc.entries)
      (hserver : s.entryServer i entry = some (j, info)) (hadmits : s.Admits info) :
      Schedules s i svc (some (j, info))
  | none (h : ¬ s.Serves i svc) : Schedules s i svc none

section Scheduling

variable {s t : Nps} {i : UInt8} {svc : ServiceInfoResult} {m : Cmem}

theorem schedules_missing {entry : Nat} (hentry : entry < svc.entries)
    (hnone : s.entryServer i entry = none) : s.Schedules i svc none := by
  refine .none fun h => ?_
  obtain ⟨j, info, hserver, -⟩ := h.admits entry hentry
  rw [hnone] at hserver
  cases hserver

theorem schedules_refused {entry : Nat} {j : UInt32} {info : ServerInfoResult}
    (hentry : entry < svc.entries) (hserver : s.entryServer i entry = some (j, info))
    (hrefuses : ¬ s.Admits info) : s.Schedules i svc none := by
  refine .none fun h => ?_
  obtain ⟨j', info', hserver', hadmits⟩ := h.admits entry hentry
  obtain ⟨-, rfl⟩ := Prod.mk.inj (Option.some.inj (hserver.symm.trans hserver'))
  exact hrefuses hadmits

/-- The scheduled server is left in the memory. -/
def Nps.Scheduled (s : Nps) (i : UInt8) (svc : ServiceInfoResult) (m' : Cmem) : Prop :=
  s.Schedules i svc (some (m'.schedServerIndex, m'.serverInfoResult))

/-- What an attempt at an entry says of the scheduling. -/
structure SchedAttempt (s : Nps) (i : UInt8) (svc : ServiceInfoResult) (r : AlvsSchedServerResult)
    (m' : Cmem) (t' : Nps) : Prop where
  success : r = .success → s.Scheduled i svc m'
  fails : r ≠ .success → s.Schedules i svc none
  same : r = .unavailable ∨ r = .empty → s.SameAdmissions t' ∧ t'.serviceInfo = s.serviceInfo

theorem attempt_schedGetServerInfo (hown : s.OwnCounters) {entry : Nat}
    (hentry : entry < svc.entries) (h : s.SameAdmissions t) (hsvc : t.serviceInfo = s.serviceInfo) :
    (alvsSchedGetServerInfo (schedulingIndex i entry.toUInt32)).wp balancerSpec
      (SchedAttempt s i svc) m t := by
  cases hserver : s.entryServer i entry with
  | some e =>
    obtain ⟨j, info⟩ := e
    obtain ⟨j, hj, hinfo⟩ := Option.bind_eq_some_iff.mp hserver
    obtain ⟨info, hi, heq⟩ := Option.map_eq_some_iff.mp hinfo
    obtain ⟨rfl, rfl⟩ := Prod.mk.inj heq
    refine wp_mono (env_schedGetServerInfo (h.sched ▸ hj) (h.info ▸ hi)) ?_
    rintro r _ _ ⟨rfl, rfl, ⟨rfl, hadmits⟩ | ⟨rfl, hrefuses⟩⟩
    · refine ⟨fun _ => ?_, fun hne => absurd rfl hne, (by simp at ·)⟩
      exact .picked hentry hserver ((h.admits _ _ hi).mp hadmits)
    · have hrefuses' := mt (h.admits _ _ hi).mpr hrefuses
      refine ⟨(by cases ·), fun _ => schedules_refused hentry hserver hrefuses',
        fun _ => ⟨h.refused hown hi hrefuses, ?_⟩⟩
      rw [Nps.afterAttempt_of_refuses hrefuses]
      exact hsvc
  | none =>
    have hnone := schedules_missing hentry hserver
    simp only [alvsSchedGetServerInfo, alvsServerSchedLookup, wp_bind, wp_call_env, dpHandle]
    intro e he
    have hfails : e.fails = false := balancerOk_noFailure he
    cases hj : t.schedInfo (schedulingIndex i entry.toUInt32) with
    | none =>
      simp only [hfails, Bool.false_eq_true, if_false, wp_pure]
      exact ⟨(by cases ·), fun _ => hnone, fun _ => ⟨h, hsvc⟩⟩
    | some j =>
      have hi : t.serverInfo j = none := by
        rw [Nps.entryServer, ← h.sched, hj] at hserver
        rw [h.info]
        simpa using hserver
      simp only [wp_bind, wp_modify, wp_pure, wp_get, alvsServerInfoLookup, wp_call_env, dpHandle,
        hi, Bool.false_eq_true, if_false]
      intro _ _
      refine wp_mono (env_discardAndStats_mem _) ?_
      exact fun _ _ _ _ => ⟨(by cases ·), fun _ => hnone, (by simp at ·)⟩

/-- The fallback tries entries of the bucket. -/
theorem attempt_shFallback (hown : s.OwnCounters) (halg : svc.schedAlg = .sourceHash)
    (hash : UInt32) : ∀ (offsets : List Nat) {t : Nps} {m : Cmem}, s.SameAdmissions t →
    t.serviceInfo = s.serviceInfo → s.Schedules i svc none →
    (alvsSchedShFallback i hash offsets).wp balancerSpec (SchedAttempt s i svc) m t
  | [], t, m, h, hsvc, hnone => ⟨(by cases ·), fun _ => hnone, fun _ => ⟨h, hsvc⟩⟩
  | offset :: offsets, t, m, h, hsvc, hnone => by
    have hentry : (hash.toNat + offset) % alvsSizeOfSchedBucket < svc.entries := by
      rw [ServiceInfoResult.entries, if_pos halg]
      exact Nat.mod_lt _ (by decide)
    unfold alvsSchedShFallback
    simp only [masked_offset]
    refine wp_bind_of (attempt_schedGetServerInfo hown hentry h hsvc) ?_
    intro r m' t' hr
    refine (wp_ite _ _ _ _).mpr ⟨?_, fun _ => hr⟩
    rintro rfl
    obtain ⟨h', hsvc'⟩ := hr.same (.inl rfl)
    exact attempt_shFallback hown halg hash offsets h' hsvc' hnone

/-- A scheduling function returns whether it has left a server in the memory. -/
def SchedReturns (s : Nps) (i : UInt8) (svc : ServiceInfoResult) (found : Bool) (m' : Cmem)
    (_ : Nps) : Prop :=
  if found then s.Scheduled i svc m' else s.Schedules i svc none

theorem returns_discard (e : AlvsErrorStats) (h : s.Schedules i svc none) :
    (alvsDiscardAndStats e >>= fun _ => pure false).wp balancerSpec (SchedReturns s i svc) m t :=
  wp_bind_of (env_discardAndStats_mem e) fun _ _ _ _ => h

theorem returns_shScheduleConnection (hown : s.OwnCounters) (halg : svc.schedAlg = .sourceHash)
    (sip : UInt32) (sport : UInt16) :
    (alvsSchedShScheduleConnection i sip sport).wp balancerSpec (SchedReturns s i svc) m s := by
  unfold alvsSchedShScheduleConnection
  refine (wp_bind _ _ _).mpr ((wp_get _).mpr ?_)
  have hindex (sip : UInt32) (sport : UInt16) : (alvsSchedShGetSchedulingIndex sip sport).wp
      balancerSpec (fun hash _ s' => hash.toNat < alvsSizeOfSchedBucket ∧ s' = s) m s := by
    simp only [alvsSchedShGetSchedulingIndex, wp_bind, wp_call_env, dpHandle]
    exact fun _ _ _ _ e he => ⟨Nat.blt_eq.mp he.2, trivial⟩
  refine wp_bind_of (hindex _ _) ?_
  rintro hash m₁ s₁ ⟨hlt, hs₁⟩
  obtain rfl : s = s₁ := hs₁.symm
  have hentry : hash.toNat < svc.entries := by
    rw [ServiceInfoResult.entries, if_pos halg]
    exact hlt
  have hcast : hash.toNat.toUInt32 = hash := by simp
  refine wp_bind_of (hcast ▸ attempt_schedGetServerInfo hown hentry (.refl _) rfl) ?_
  intro first m₂ t₁ hfirst
  refine wp_bind_of (Q := SchedAttempt s i svc) ?_ ?_
  swap
  · intro res m₃ t₂ hres
    cases res with
    | success => exact hres.success rfl
    | failed => exact hres.fails (by simp)
    | unavailable => exact returns_discard _ (hres.fails (by simp))
    | empty => exact returns_discard _ (hres.fails (by simp))
  refine (wp_ite _ _ _ _).mpr ⟨?_, fun _ => hfirst⟩
  rintro ⟨rfl, -⟩
  obtain ⟨h', hsvc'⟩ := hfirst.same (.inl rfl)
  exact attempt_shFallback hown halg hash _ h' hsvc' (hfirst.fails (by simp))

theorem env_serviceInfoLookup {ok : DpEnv → DpCall → Nps → Prop}
    (hsvc : t.serviceInfo i = some svc) :
    (alvsServiceInfoLookup i).wp (Prog.envSpec dpHandle ok) (fun found m' t' => found = true ∧
      m' = { m with serviceInfoResult := svc } ∧ t' = t) m t := by
  simp only [alvsServiceInfoLookup, wp_bind, wp_call_env, dpHandle, hsvc]
  exact fun _ _ => ⟨rfl, rfl, rfl⟩

/-- The loop of the round robin algorithm returns whether it has left a server in the memory. -/
def LoopReturns (s : Nps) (i : UInt8) (svc : ServiceInfoResult) (r : Option AlvsSchedServerResult)
    (m' : Cmem) (_ : Nps) : Prop :=
  (r = some .success → s.Scheduled i svc m') ∧ (r ≠ some .success → s.Schedules i svc none)

/-- The loop tries entries of the service. -/
theorem returns_schedRrLoop (hs : s.Configured) (hsvc : s.serviceInfo i = some svc)
    (halg : svc.schedAlg ≠ .sourceHash) (hactive : svc.schedEntriesCount ≠ 0) :
    ∀ (retries : Nat) (c : UInt32) {t : Nps} {m : Cmem}, s.SameAdmissions t →
    t.serviceInfo = s.serviceInfo → m.serviceInfoResult = svc →
    (retries = 0 → s.Schedules i svc none) →
    (alvsSchedRrLoop i retries c).wp balancerSpec (LoopReturns s i svc) m t
  | 0, _, _, _, _, _, _, hnone => ⟨(by simp at ·), fun _ => hnone rfl⟩
  | retries + 1, c, t, m, h, hsame, hres, _ => by
    have hpos : 0 < svc.schedEntriesCount.toNat :=
      Nat.pos_of_ne_zero fun h0 => hactive (UInt16.toNat_inj.mp h0)
    have hentry : (rrSchedEntry c svc.schedEntriesCount).toNat < svc.entries := by
      rw [ServiceInfoResult.entries, if_neg halg]
      exact rrSchedEntry_lt hpos (hs.count i svc hsvc) c
    have hcast : (rrSchedEntry c svc.schedEntriesCount).toNat.toUInt32 =
        rrSchedEntry c svc.schedEntriesCount := by simp
    unfold alvsSchedRrLoop
    refine (wp_bind _ _ _).mpr ((wp_get _).mpr ?_)
    rw [hres]
    refine wp_bind_of (hcast ▸ attempt_schedGetServerInfo hs.own hentry h hsame) ?_
    intro r m₁ t₁ hr
    refine (wp_ite _ _ _ _).mpr ⟨?_, fun hne => ?_⟩
    · rintro rfl
      obtain ⟨h₁, hsame₁⟩ := hr.same (.inr rfl)
      have hnone := hr.fails (by simp)
      -- the service is read again, and is what it was
      refine wp_bind_of (env_serviceInfoLookup (hsame₁ ▸ hsvc)) ?_
      rintro _ _ t₂ ⟨rfl, rfl, ht₂⟩
      obtain rfl : t₁ = t₂ := ht₂.symm
      simp only [alvsSchedCheckActiveServers, if_true, wp_bind, wp_get, if_neg hactive, wp_pure]
      exact returns_schedRrLoop hs hsvc halg hactive retries _ h₁ hsame₁ rfl fun _ => hnone
    · exact ⟨fun heq => hr.success (Option.some.inj heq),
        fun hne' => hr.fails fun heq => hne' (congrArg some heq)⟩

theorem returns_schedRrScheduleConnection (hs : s.Configured) (hsvc : s.serviceInfo i = some svc)
    (halg : svc.schedAlg ≠ .sourceHash) (hactive : svc.schedEntriesCount ≠ 0)
    (hres : m.serviceInfoResult = svc) :
    (alvsSchedRrScheduleConnection i).wp balancerSpec (SchedReturns s i svc) m s := by
  unfold alvsSchedRrScheduleConnection
  simp only [wp_bind, wp_get, wp_call_env, dpHandle]
  intro e _
  refine wp_mono (returns_schedRrLoop hs hsvc halg hactive alvsSchedRrRetries _ (.refl s) rfl hres
    (by simp [alvsSchedRrRetries] at ·)) ?_
  rintro r m₁ t₁ ⟨hsuccess, hfails⟩
  rcases r with _ | (_ | _ | _ | _)
  · exact hfails (by simp)
  · exact hsuccess rfl
  · exact hfails (by simp)
  · exact returns_discard _ (hfails (by simp))
  · exact returns_discard _ (hfails (by simp))

/-- Some entry of the service is chosen that admits the connection, or none is. -/
theorem returns_scheduleConnection (hs : s.Configured) (hsvc : s.serviceInfo i = some svc)
    (hactive : svc.schedEntriesCount ≠ 0) (hres : m.serviceInfoResult = svc) (ip : IpHdr)
    (tcp : TcpHdr) :
    (alvsScheduleConnection i ip tcp).wp balancerSpec (SchedReturns s i svc) m s := by
  unfold alvsScheduleConnection
  refine (wp_bind _ _ _).mpr ((wp_get _).mpr ?_)
  rw [hres]
  refine (wp_ite _ _ _ _).mpr ⟨fun halg => returns_shScheduleConnection hs.own halg _ _,
    fun hsh => (wp_ite _ _ _ _).mpr ⟨fun halg => ?_, fun hrr => (wp_ite _ _ _ _).mpr
      ⟨fun halg => ?_, fun hwrr => returns_discard _ (.none fun h => ?_)⟩⟩⟩
  · exact returns_schedRrScheduleConnection hs hsvc hsh hactive hres
  · exact returns_schedRrScheduleConnection hs hsvc hsh hactive hres
  · have halg := h.alg
    simp [supportedSchedAlg, hsh, hrr, hwrr] at halg

end Scheduling

/-! ## The connection and its packet -/

/-- The entry that a first packet makes, of a connection to server `j`. -/
def firstEntry (key : ConnClassificationKey) (tcp : TcpHdr) (j : UInt32) (info : ServerInfoResult) :
    ConnInfoResult :=
  newConnInfo key true j 0
    (if tcp.fin || tcp.rst then ipVsTcpSCloseWait else ipVsTcpSEstablished).toUInt16
    info.connFlags tcp.rst

/-- The key of the service that a packet is for. -/
def IpHdr.serviceKey (ip : IpHdr) (tcp : TcpHdr) : ServiceClassificationKey :=
  ⟨ip.daddr, tcp.dest, ip.protocol.toUInt16⟩

/-- The entry that a packet of a connection that is not known makes, and where it is sent. -/
inductive Nps.NewPacket (s : Nps) (key : ConnClassificationKey) (ip : IpHdr) (tcp : TcpHdr) :
    Option ConnInfoResult → Option Destination → Prop
  | host (hnone : s.serviceClassification (ip.serviceKey tcp) = none) :
    NewPacket s key ip tcp none (some .host)
  | refused {i : UInt8} (hi : s.serviceClassification (ip.serviceKey tcp) = some i)
    (hrefused : ip.protocol = ipprotoTcp → ∀ svc, s.serviceInfo i = some svc → ¬ s.Serves i svc) :
    NewPacket s key ip tcp none none
  | scheduled {i : UInt8} {svc : ServiceInfoResult} {entry : Nat} {j : UInt32}
    {info : ServerInfoResult} (hi : s.serviceClassification (ip.serviceKey tcp) = some i)
    (hsvc : s.serviceInfo i = some svc) (hentry : entry < svc.entries)
    (hserver : s.entryServer i entry = some (j, info)) (hadmits : s.Admits info) :
    NewPacket s key ip tcp (some (firstEntry key tcp j info))
      (routeDest info.connFlags info.serverIp)

section Packet

variable {s : Nps} {m : Cmem} {i : UInt8}

/-- The memory after a creation. -/
theorem mem_createNewEntry (b : Bool) (server : UInt32) (port st : UInt16) (flags : UInt32)
    (reset : Bool) : (alvsConnCreateNewEntry b server port st flags reset).wp noFailureSpec
      (fun _ m' _ => m'.serverInfoResult = m.serverInfoResult ∧
        m'.connInfoResult = newConnInfo m.connClassKey b server port st flags reset) m s := by
  simp only [alvsConnCreateNewEntry, wp_bind, wp_call_env]
  intro env halloc
  have hfree : s.IndexFree env.value := halloc
  simp only [dpHandle, if_pos hfree, wp_bind, wp_get, wp_modify, wp_call_env]
  intro _ _ env₃ hadd
  have hfails : env₃.fails = false := hadd
  simp only [hfails, Bool.false_eq_true, if_false, if_true, wp_bind, wp_pure]
  refine (wp_ite _ _ _ _).mpr ⟨fun _ => ?_, fun _ => ⟨rfl, rfl⟩⟩
  unfold alvsConnCreateStatistics
  split
  all_goals
    refine wp_mono env_updateConnectionStatistics ?_
    rintro _ m' s' ⟨rfl, -⟩
    exact ⟨rfl, rfl⟩

/-- What the service does : a connection with a server that admits it, or nothing. -/
structure Nps.ServicePacket (s : Nps) (key : ConnClassificationKey) (ip : IpHdr) (tcp : TcpHdr)
    (r : AlvsServiceOutputResult) (m' : Cmem) (s' : Nps) : Prop where
  retry : r ≠ .retry
  ignore : r = .ignore → s.NewPacket key ip tcp none none ∧ s.Maps s' s.conns
  success : r = .success → m'.connInfoResult.bound = true ∧ ∃ c, s.NewPacket key ip tcp (some c)
      (routeDest m'.serverInfoResult.connFlags m'.serverInfoResult.serverIp) ∧
    s.Maps s' (Function.update s.conns key (some c))

theorem Nps.ServicePacket.ignored {key : ConnClassificationKey} {ip : IpHdr} {tcp : TcpHdr}
    {s' : Nps} (h : s.NewPacket key ip tcp none none) (hmaps : s.Maps s' s.conns) :
    s.ServicePacket key ip tcp .ignore m s' :=
  ⟨by simp, fun _ => ⟨h, hmaps⟩, (by cases ·)⟩

theorem maps_ignored {key : ConnClassificationKey} {ip : IpHdr} {tcp : TcpHdr} {s₁ : Nps}
    (e : AlvsErrorStats) (h : s.NewPacket key ip tcp none none) (hmaps : s.Maps s₁ s.conns) :
    (alvsDiscardAndStats e >>= fun _ => pure AlvsServiceOutputResult.ignore).wp noFailureSpec
      (s.ServicePacket key ip tcp) m s₁ := by
  refine wp_bind_of (OffConn.wp_maps (quiet_alvsDiscardAndStats e).offConn hmaps.agree) ?_
  rintro _ _ s₂ ⟨-, hmaps₂⟩
  rw [hmaps.conns] at hmaps₂
  exact .ignored h (hmaps.trans hmaps₂)

/-- The connection is created with the server that was chosen. -/
theorem maps_tcpCreateConnection {key : ConnClassificationKey} {ip : IpHdr} {tcp : TcpHdr}
    {svc : ServiceInfoResult} {s₁ : Nps} (hi : s.serviceClassification (ip.serviceKey tcp) = some i)
    (hsvc : s.serviceInfo i = some svc) (hscheduled : s.Scheduled i svc m)
    (hmaps : s.Maps s₁ s.conns) (hnone : s.conns key = none) (hkey : m.connClassKey = key) :
    (alvsTcpCreateConnection tcp).wp noFailureSpec (s.ServicePacket key ip tcp) m s₁ := by
  subst hkey
  rw [← hmaps.conns] at hnone
  unfold alvsTcpCreateConnection
  refine (wp_bind _ _ _).mpr ((wp_get _).mpr ?_)
  refine wp_bind_of (LProg.wp_and (maps_createNewEntry hmaps.agree hnone _ _ _ _ _ _)
    (mem_createNewEntry _ _ _ _ _ _)) ?_
  rintro _ m₂ s₂ ⟨⟨rfl, -, hmaps₂⟩, hserver, hconn⟩
  rw [hmaps.conns] at hmaps₂
  refine (wp_bind _ _ _).mpr ((wp_modify _ _).mpr ((wp_pure _ _).mpr ?_))
  refine ⟨by simp, (by cases ·), fun _ => ⟨congrArg (·.bound) hconn, _, ?_, hmaps.trans hmaps₂⟩⟩
  cases hscheduled with
  | picked hentry hentryServer hadmits =>
    simp only [hserver]
    exact .scheduled hi hsvc hentry hentryServer hadmits

/-- What is done under the lock. -/
theorem maps_tcpScheduleLocked {key : ConnClassificationKey} {ip : IpHdr} {tcp : TcpHdr}
    {svc : ServiceInfoResult} (h : TablesAgree s) (hs : s.Configured)
    (hi : s.serviceClassification (ip.serviceKey tcp) = some i) (hsvc : s.serviceInfo i = some svc)
    (hactive : svc.schedEntriesCount ≠ 0) (hnone : s.conns key = none)
    (hkey : m.connClassKey = key) (hres : m.serviceInfoResult = svc) :
    (alvsTcpScheduleLocked i ip tcp).wp balancerSpec (s.ServicePacket key ip tcp) m s := by
  subst hkey
  unfold alvsTcpScheduleLocked
  simp only [wp_bind, wp_get, wp_call_env, dpHandle]
  intro e he
  have hfails : e.fails = false := balancerOk_noFailure he
  rw [hfails, if_neg Bool.false_ne_true, h.conns_none.mp hnone]
  refine wp_bind_of (LProg.wp_and
    (wp_balancer (OffConn.wp_maps (offConn_scheduleConnection i ip tcp) h))
    (returns_scheduleConnection hs hsvc hactive hres ip tcp)) ?_
  rintro found m₁ s₁ ⟨⟨hm, hmaps⟩, hreturns⟩
  refine (wp_ite _ _ _ _).mpr ⟨?_, fun hfound => ?_⟩
  · rintro rfl
    exact wp_balancer (maps_tcpCreateConnection hi hsvc hreturns hmaps hnone hm.key)
  · rw [SchedReturns, if_neg hfound] at hreturns
    cases hreturns with
    | none hserves =>
      refine .ignored (.refused hi fun _ svc' hsvc' => ?_) hmaps
      obtain rfl := Option.some.inj (hsvc.symm.trans hsvc')
      exact hserves

theorem maps_serviceDataPath {key : ConnClassificationKey} {ip : IpHdr} {tcp : TcpHdr}
    (h : TablesAgree s) (hs : s.Configured)
    (hi : s.serviceClassification (ip.serviceKey tcp) = some i) (hnone : s.conns key = none)
    (hkey : m.connClassKey = key) :
    (alvsServiceDataPath i ip tcp).wp balancerSpec (s.ServicePacket key ip tcp) m s := by
  unfold alvsServiceDataPath
  cases hsvc : s.serviceInfo i with
  | none =>
    simp only [alvsServiceInfoLookup, wp_bind, wp_call_env, dpHandle, hsvc, wp_pure,
      Bool.false_eq_true, if_false]
    exact fun _ _ => wp_balancer (maps_ignored _ (.refused hi (by simp [hsvc])) (.refl h))
  | some svc =>
    refine wp_bind_of (env_serviceInfoLookup hsvc) ?_
    rintro _ _ s₁ ⟨rfl, rfl, hs₁⟩
    obtain rfl : s = s₁ := hs₁.symm
    refine (wp_ite _ _ _ _).mpr ⟨fun _ => (wp_ite _ _ _ _).mpr ⟨fun _ => ?_, fun htcp => ?_⟩, ?_⟩
    · unfold alvsTcpScheduleNewConnection alvsSchedCheckActiveServers
      refine (wp_bind _ _ _).mpr ((wp_bind _ _ _).mpr ((wp_get _).mpr ((wp_ite _ _ _ _).mpr
        ⟨fun hempty => ?_, fun hactive => ?_⟩)))
      · have hrefused : s.NewPacket key ip tcp none none := by
          refine .refused hi fun _ svc' hsvc' hserves => ?_
          obtain rfl := Option.some.inj (hsvc.symm.trans hsvc')
          exact hserves.active hempty
        exact wp_balancer (maps_ignored _ hrefused (.refl h))
      · refine wp_bind_of env_lock ?_
        rintro hash _ s₁ ⟨rfl, hs₁⟩
        obtain rfl : s = s₁ := hs₁.symm
        refine wp_bind_of (maps_tcpScheduleLocked h hs hi hsvc hactive hnone hkey rfl) ?_
        intro r m₁ s₁ hr
        refine wp_bind_of (env_unlock_mem hash) ?_
        rintro _ _ _ ⟨rfl, rfl⟩
        exact hr
    · exact wp_balancer (maps_ignored _ (.refused hi fun heq => absurd heq htcp) (.refl h))
    · exact fun hfalse => absurd rfl hfalse

/-- A packet of a connection that is not there. -/
theorem maps_unknownPacket (ip : IpHdr) (tcp : TcpHdr) (h : TablesAgree s) (hs : s.Configured)
    (hnone : s.conns m.connClassKey = none) :
    (alvsUnknownPacketProcessing ip tcp).wp (Prog.watchedSpec dpHandle balancerOk Destination.next)
      (fun _ _ x => ∃ e, s.NewPacket m.connClassKey ip tcp e x.2 ∧
        s.Maps x.1 (Function.update s.conns m.connClassKey e)) m (s, none) := by
  have hsame : s.conns = Function.update s.conns m.connClassKey none :=
    (Function.update_eq_self_iff.mpr hnone.symm).symm
  unfold alvsUnknownPacketProcessing
  refine (wp_bind _ _ _).mpr ((wp_call_watched _ _).mpr fun e he => ?_)
  have hfails : e.fails = false := balancerOk_noFailure he
  simp only [dpHandle, hfails, Bool.false_eq_true, if_false]
  cases hi : s.serviceClassification (ip.serviceKey tcp) with
  | none =>
    have hi' : s.serviceClassification ⟨ip.daddr, tcp.dest, ip.protocol.toUInt16⟩ = none := hi
    rw [hi']
    have hsends : Sends (alvsUpdateDiscardStatistics .serviceClassLookup >>= fun _ => nwHostDoRoute)
        (some .host) :=
      .bind (KeepsDest.sends (.of_call trivial)) fun _ => sends_nwHostDoRoute
    refine wp_watchedBalancer (wp_mono (wp_watched
      (OffConn.wp_maps (.bind (quiet_alvsUpdateDiscardStatistics _).offConn fun _ =>
        quiet_nwHostDoRoute.offConn) h)
      (hsends m none rfl)) ?_)
    rintro _ _ x ⟨⟨-, hmaps⟩, hdest⟩
    refine ⟨none, ?_, hsame ▸ hmaps⟩
    rw [hdest]
    exact .host hi
  | some i =>
    have hi' : s.serviceClassification ⟨ip.daddr, tcp.dest, ip.protocol.toUInt16⟩ = some i := hi
    rw [hi']
    refine wp_bind_of ((keepsDest_serviceDataPath i ip tcp).wp_prod silent_keepsDest
      (maps_serviceDataPath h hs hi hnone rfl)) ?_
    rintro r m₁ ⟨s₁, d⟩ ⟨hr, hd⟩
    obtain rfl : d = none := hd
    cases r with
    | retry => exact absurd rfl hr.retry
    | ignore =>
      obtain ⟨hnew, hmaps⟩ := hr.ignore rfl
      exact ⟨none, hnew, hsame ▸ hmaps⟩
    | success =>
      obtain ⟨hbound, c, hnew, hmaps⟩ := hr.success rfl
      refine wp_watchedBalancer (wp_mono (wp_watched
        (OffConn.wp_maps offConn_connDoRoute hmaps.agree) (dest_connDoRoute m₁)) ?_)
      rintro _ _ x ⟨⟨-, hmaps₁⟩, hdest⟩
      rw [hmaps.conns] at hmaps₁
      rw [if_pos hbound] at hdest
      exact ⟨some c, hdest ▸ hnew, hmaps.trans hmaps₁⟩

end Packet

end Alvs
