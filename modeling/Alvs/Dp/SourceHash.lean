import Alvs.Cp.OwnCounters
import Alvs.Dp.Attempts
import Alvs.Dp.FrameDisposal

/-!
# Source hash finds a server that admits

The source hash scheduler attempts the hashed entry and, where the service has the fallback
flag, all entries in cyclic order from the hashed one. An attempt that is refused may set the
flag of its server; it changes neither a counter nor what any server would answer, so that the
first server that admits a connection is the one that it finds (`shSchedule_picks`).
-/

namespace Alvs

open ProgLogic LProg

/-! ## Refused attempts -/

namespace Nps

variable {s t : Nps} {info : ServerInfoResult}

/-- The decision depends on the counter and the flags of the server. -/
theorem admits_congr (hctr : t.onDemand info.connTotal = s.onDemand info.connTotal)
    (hword : t.serverFlagsWord info.serverFlagsDpBase = s.serverFlagsWord info.serverFlagsDpBase) :
    t.Admits info ↔ s.Admits info := by
  have hover : t.Overloaded info ↔ s.Overloaded info := by simp only [Overloaded, hword]
  unfold Admits
  rw [decide_eq_decide.mpr hover, nextTotal, nextTotal, hctr]

/-- A server that refuses refuses again. -/
theorem refused_again (h : ¬ s.Admits info) : ¬ (s.afterAttempt info).Admits info := by
  have hu : info.uThresh ≠ 0 := fun hu => h (.inl hu)
  have htotal : (s.afterAttempt info).nextTotal info = s.nextTotal info := by
    rw [afterAttempt_of_refuses h]
    rfl
  have hover (hf : s.flagsAfter info = s.serverFlagsWord info.serverFlagsDpBase)
      (hs : s.Overloaded info) : (s.afterAttempt info).Overloaded info := by
    simp only [Overloaded, afterAttempt, Function.update_self, hf]
    exact hs
  by_cases heq : s.nextTotal info = info.uThresh.toUInt64
  · have hs : s.Overloaded info := not_not.mp (mt (admits_at hu heq).mpr h)
    rw [admits_at hu (htotal.trans heq)]
    exact not_not.mpr (hover ((flagsAfter_at hu heq).trans (if_pos hs)) hs)
  · have heq' := htotal.symm ▸ heq
    by_cases hgt : info.uThresh.toUInt64 < s.nextTotal info
    · exact refuses_above hu heq' (htotal.symm ▸ hgt)
    · obtain ⟨hl, hs⟩ := not_or.mp (mt (admits_below hu heq hgt).mpr h)
      rw [admits_below hu heq' (htotal.symm ▸ hgt), htotal]
      exact not_or.mpr ⟨hl, not_not.mpr
        (hover ((flagsAfter_below hu heq hgt).trans (if_neg hl)) (not_not.mp hs))⟩

/-- The tables and the counters are the same, and every server decides as before. -/
structure SameAdmissions (s t : Nps) : Prop where
  sched : t.schedInfo = s.schedInfo
  info : t.serverInfo = s.serverInfo
  onDemand : t.onDemand = s.onDemand
  admits : ∀ i info, s.serverInfo i = some info → (t.Admits info ↔ s.Admits info)

namespace SameAdmissions

theorem refl (s : Nps) : s.SameAdmissions s := ⟨rfl, rfl, rfl, fun _ _ _ => Iff.rfl⟩

/-- A refused attempt changes no decision : only the flags of its own server change. -/
theorem refused (h : s.SameAdmissions t) (hown : s.OwnCounters) {i : UInt32}
    (hi : s.serverInfo i = some info) (href : ¬ t.Admits info) :
    s.SameAdmissions (t.afterAttempt info) := by
  refine ⟨h.sched, h.info, ?_, fun j info' hj => ?_⟩
  · rw [afterAttempt_of_refuses href]
    exact h.onDemand
  · rw [← h.admits j info' hj]
    by_cases hflags : info'.serverFlagsDpBase = info.serverFlagsDpBase
    · obtain rfl := hown.server_eq hj hi hflags
      exact iff_of_false (refused_again href) href
    · rw [afterAttempt_of_refuses href]
      exact admits_congr rfl (Function.update_of_ne hflags ..)

end SameAdmissions

end Nps

/-! ## The order of the attempts -/

/-- The server of an entry of a service. -/
def Nps.entryServer (s : Nps) (serviceIndex : UInt8) (entry : Nat) :
    Option (UInt32 × ServerInfoResult) :=
  (s.schedInfo (schedulingIndex serviceIndex entry.toUInt32)).bind fun j =>
    (s.serverInfo j).map fun info => (j, info)

/-- The entries in cyclic order from the hashed one, or the hashed one alone. -/
def shOrder (hash : Nat) (fallback : Bool) : List Nat :=
  if fallback then
    (List.range alvsSizeOfSchedBucket).map fun offset => (hash + offset) % alvsSizeOfSchedBucket
  else [hash]

/-- The first of some entries whose server admits a connection. -/
def Nps.firstAdmitting (s : Nps) (serviceIndex : UInt8) (entries : List Nat) :
    Option (UInt32 × ServerInfoResult) :=
  (entries.filterMap (s.entryServer serviceIndex)).find? fun e => decide (s.Admits e.2)

/-- The outcome of the attempts : the server that was picked is left in the memory and has one
more connection, or no counter has changed. -/
def Nps.Picked (s : Nps) (pick : Option (UInt32 × ServerInfoResult)) (admitted : Bool) (m' : Cmem)
    (s' : Nps) : Prop :=
  match pick with
  | some (j, info) => admitted = true ∧ m'.schedServerIndex = j ∧ m'.serverInfoResult = info ∧
      s'.onDemand = Function.update s.onDemand info.connTotal (s.onDemand info.connTotal + 1)
  | none => admitted = false ∧ s'.onDemand = s.onDemand

section Attempts

variable {s t : Nps} {serviceIndex : UInt8} {ok : DpEnv → DpCall → Nps → Prop} {m : Cmem}

/-- One attempt, and the attempts that follow it where it is refused. -/
theorem env_attempt (hown : s.OwnCounters) {entry : Nat} (entries : List Nat) {j : UInt32}
    {info : ServerInfoResult} (hentry : s.entryServer serviceIndex entry = some (j, info))
    (h : s.SameAdmissions t) :
    (alvsSchedGetServerInfo (schedulingIndex serviceIndex entry.toUInt32)).wp
      (Prog.envSpec dpHandle ok) (fun r m' t' =>
        r = .success ∧ s.Picked (s.firstAdmitting serviceIndex (entry :: entries)) true m' t' ∨
        r = .unavailable ∧ s.SameAdmissions t' ∧ s.firstAdmitting serviceIndex (entry :: entries) =
          s.firstAdmitting serviceIndex entries) m t := by
  obtain ⟨j, hj, hinfo⟩ := Option.bind_eq_some_iff.mp hentry
  obtain ⟨info, hi, heq⟩ := Option.map_eq_some_iff.mp hinfo
  obtain ⟨rfl, rfl⟩ := Prod.mk.inj heq
  have hfirst : s.firstAdmitting serviceIndex (entry :: entries) =
      if s.Admits info then some (j, info) else s.firstAdmitting serviceIndex entries := by
    rw [Nps.firstAdmitting, List.filterMap_cons_some hentry, List.find?_cons]
    by_cases hadm : s.Admits info
    · simp [hadm]
    · simp [hadm, Nps.firstAdmitting]
  refine wp_mono (env_schedGetServerInfo (h.sched ▸ hj) (h.info ▸ hi)) ?_
  rintro r m' t' ⟨rfl, rfl, ⟨rfl, hadm⟩ | ⟨rfl, href⟩⟩
  · rw [hfirst, if_pos ((h.admits j info hi).mp hadm)]
    refine .inl ⟨rfl, rfl, rfl, rfl, ?_⟩
    rw [Nps.afterAttempt_of_admits hadm, ← h.onDemand]
    rfl
  · rw [hfirst, if_neg (mt (h.admits j info hi).mpr href)]
    exact .inr ⟨rfl, h.refused hown hi href, rfl⟩

/-- The mask keeps the offset from the hash within the bucket. -/
theorem masked_offset (hash : UInt32) (offset : Nat) :
    (offset.toUInt32 + hash) &&& (alvsSizeOfSchedBucket - 1).toUInt32 =
      ((hash.toNat + offset) % alvsSizeOfSchedBucket).toUInt32 := by
  unfold alvsSizeOfSchedBucket
  apply UInt32.toNat_inj.mp
  have hmask : ((256 - 1).toUInt32).toNat = 2 ^ 8 - 1 := rfl
  rw [UInt32.toNat_and, UInt32.toNat_add, hmask, Nat.and_two_pow_sub_one_eq_mod]
  simp only [Nat.toUInt32_eq, UInt32.toNat_ofNat']
  omega

/-- The fallback loop finds the first server that admits a connection. -/
theorem env_shFallback (hown : s.OwnCounters)
    (hfull : ∀ entry < alvsSizeOfSchedBucket, (s.entryServer serviceIndex entry).isSome)
    (hash : UInt32) : ∀ (offsets : List Nat) {t : Nps} {m : Cmem},
    s.SameAdmissions t →
    (alvsSchedShFallback serviceIndex hash offsets).wp (Prog.envSpec dpHandle ok) (fun r m' t' =>
      let pick := s.firstAdmitting serviceIndex
        (offsets.map fun offset => (hash.toNat + offset) % alvsSizeOfSchedBucket)
      r = .success ∧ s.Picked pick true m' t' ∨
        r = .unavailable ∧ pick = none ∧ t'.onDemand = s.onDemand) m t
  | [], _, _, h => .inr ⟨rfl, rfl, h.onDemand⟩
  | offset :: offsets, t, m, h => by
    have hlt : (hash.toNat + offset) % alvsSizeOfSchedBucket < alvsSizeOfSchedBucket :=
      Nat.mod_lt _ (by decide)
    obtain ⟨⟨j, info⟩, hentry⟩ := Option.isSome_iff_exists.mp (hfull _ hlt)
    unfold alvsSchedShFallback
    simp only [masked_offset]
    refine wp_bind_of (env_attempt hown
      (offsets.map fun offset => (hash.toNat + offset) % alvsSizeOfSchedBucket) hentry h) ?_
    rintro r m' t' (⟨rfl, hpick⟩ | ⟨rfl, ht', hfirst⟩)
    · exact .inl ⟨rfl, hpick⟩
    · have hrest := env_shFallback hown hfull hash offsets (m := m') ht'
      simp only [List.map_cons, hfirst]
      exact hrest

end Attempts

/-! ## The scheduler -/

/-- The hash of a connection : of the address and, where the service has the port flag, of the
port. `hash` is `ezdp_hash` to a number of bits with a permutation. -/
def shHash (hash : UInt32 → UInt32 → Nat → Nat → UInt32) (serviceFlags sip : UInt32)
    (sport : UInt16) : UInt32 :=
  let sport := if serviceFlags &&& ipVsSvcFSchedShPort ≠ 0 then sport else 0
  hash (hash sip 0 32 0) (hash sport.toUInt32 0 32 1) 8 3

/-- The calls of `ezdp_hash` return the values of `hash`. -/
def HashEnv (hash : UInt32 → UInt32 → Nat → Nat → UInt32) (e : DpEnv) : DpCall → Nps → Prop
  | .hash a b bits permutation, _ => e.value = hash a b bits permutation
  | _, _ => True

instance (hash : UInt32 → UInt32 → Nat → Nat → UInt32) (e : DpEnv) :
    (op : DpCall) → (s : Nps) → Decidable (HashEnv hash e op s) := fun op s => by
  unfold HashEnv
  split <;> infer_instance

section Scheduler

variable {hash : UInt32 → UInt32 → Nat → Nat → UInt32} {s : Nps} {m : Cmem}

theorem env_shGetSchedulingIndex (sip : UInt32) (sport : UInt16) :
    (alvsSchedShGetSchedulingIndex sip sport).wp (Prog.envSpec dpHandle (HashEnv hash))
      (fun final m' s' => final = hash (hash sip 0 32 0) (hash sport.toUInt32 0 32 1) 8 3 ∧
        m' = m ∧ s' = s) m s := by
  simp only [alvsSchedShGetSchedulingIndex, wp_bind, wp_call_env, dpHandle, HashEnv]
  rintro e₁ h₁ e₂ h₂ e₃ h₃
  rw [h₁, h₂] at h₃
  exact ⟨h₃, trivial, trivial⟩

theorem env_discardAndStats {ok : DpEnv → DpCall → Nps → Prop} (errorId : AlvsErrorStats) :
    (alvsDiscardAndStats errorId).wp (Prog.envSpec dpHandle ok)
      (fun _ _ s' => s'.onDemand = s.onDemand) m s := by
  simp only [alvsDiscardAndStats, alvsUpdateDiscardStatistics, alvsDiscardFrame, wp_bind,
    wp_call_env, dpHandle]
  exact fun _ _ _ _ => rfl

theorem shOrder_eq_cons {hash : Nat} (hhash : hash < alvsSizeOfSchedBucket) (fallback : Bool) :
    ∃ entries, shOrder hash fallback = hash :: entries ∧ (fallback = false → entries = []) := by
  cases fallback with
  | false => exact ⟨[], rfl, fun _ => rfl⟩
  | true =>
    refine ⟨(shOrder hash true).tail, ?_, fun h => absurd h (by decide)⟩
    unfold alvsSizeOfSchedBucket at hhash
    rw [shOrder, if_pos rfl, alvsSizeOfSchedBucket, List.range_succ_eq_map, List.map_cons,
      Nat.add_zero, Nat.mod_eq_of_lt hhash, List.tail_cons]

/-- No server admits : the frame is discarded. -/
theorem env_unavailable {ok : DpEnv → DpCall → Nps → Prop} {t : Nps} (h : t.onDemand = s.onDemand) :
    (alvsDiscardAndStats .serverIsUnavailable >>= fun _ => pure false).wp
      (Prog.envSpec dpHandle ok) (fun admitted m' s' => s.Picked none admitted m' s') m t := by
  refine wp_bind_of (env_discardAndStats _) ?_
  exact fun _ _ _ hdiscard => ⟨rfl, hdiscard.trans h⟩

theorem env_shSchedule
    (hhash : ∀ a b bits permutation, (hash a b bits permutation).toNat < 2 ^ bits)
    {serviceIndex : UInt8} (sip : UInt32) (sport : UInt16) (hown : s.OwnCounters)
    (hfull : ∀ entry < alvsSizeOfSchedBucket, (s.entryServer serviceIndex entry).isSome) :
    (alvsSchedShScheduleConnection serviceIndex sip sport).wp
      (Prog.envSpec dpHandle (HashEnv hash)) (fun admitted m' s' =>
        s.Picked (s.firstAdmitting serviceIndex
          (shOrder (shHash hash m.serviceInfoResult.serviceFlags sip sport).toNat
            (m.serviceInfoResult.serviceFlags &&& ipVsSvcFSchedShFallback ≠ 0))) admitted m' s')
      m s := by
  unfold alvsSchedShScheduleConnection
  refine (wp_bind _ _ _).mpr ((wp_get _).mpr ?_)
  generalize m.serviceInfoResult.serviceFlags = serviceFlags
  refine wp_bind_of (env_shGetSchedulingIndex _ _) ?_
  rintro final _ _ ⟨hfinal, rfl, rfl⟩
  change final = shHash hash serviceFlags sip sport at hfinal
  rw [← hfinal]
  have hlt : final.toNat < alvsSizeOfSchedBucket := hfinal ▸ hhash ..
  obtain ⟨⟨j, info⟩, hentry⟩ := Option.isSome_iff_exists.mp (hfull final.toNat hlt)
  have hcast : final.toNat.toUInt32 = final := by simp
  generalize hfb : decide (serviceFlags &&& ipVsSvcFSchedShFallback ≠ 0) = fallback
  obtain ⟨entries, horder, hnone⟩ := shOrder_eq_cons hlt fallback
  refine wp_bind_of (hcast ▸ env_attempt hown entries hentry (.refl _)) ?_
  rintro first m' t (⟨rfl, hpick⟩ | ⟨rfl, ht, hfirst⟩)
  · rw [if_neg (by simp), horder]
    exact hpick
  · cases fallback with
    | true =>
      rw [if_pos ⟨rfl, of_decide_eq_true hfb⟩]
      refine wp_bind_of (env_shFallback hown hfull final _ ht) ?_
      rintro r m'' t' (⟨rfl, hpick⟩ | ⟨rfl, hpick, hctr⟩)
      · exact hpick
      · rw [shOrder, if_pos rfl, hpick]
        exact env_unavailable hctr
    | false =>
      rw [if_neg fun h => of_decide_eq_false hfb h.2, horder, hfirst, hnone rfl]
      exact env_unavailable ht.onDemand

end Scheduler

/-! ## Every assignment of servers -/

/-- With all 256 entries present, source hash picks the server of the first entry, in cyclic
order from the hashed one or the hashed one alone, that admits a connection : that server is
left in the memory, and its counter is the only one that has changed. Without such an entry
it fails, no counter has changed and the frame is discarded once. -/
theorem shSchedule_picks {hash : UInt32 → UInt32 → Nat → Nat → UInt32}
    (hhash : ∀ a b bits permutation, (hash a b bits permutation).toNat < 2 ^ bits)
    (serviceIndex : UInt8) (sip : UInt32) (sport : UInt16) (m : Cmem) (s : Nps)
    (hown : s.OwnCounters)
    (hfull : ∀ entry < alvsSizeOfSchedBucket, (s.entryServer serviceIndex entry).isSome)
    (es : Nat → DpEnv)
    (hes : ((alvsSchedShScheduleConnection serviceIndex sip sport).run m).CallsOk (HashEnv hash)
      dpHandle es s) :
    let res := ((alvsSchedShScheduleConnection serviceIndex sip sport).run m).execEnv dpHandle es s
    s.Picked (s.firstAdmitting serviceIndex
      (shOrder (shHash hash m.serviceInfoResult.serviceFlags sip sport).toNat
        (m.serviceInfoResult.serviceFlags &&& ipVsSvcFSchedShFallback ≠ 0)))
      res.1.1 res.1.2 res.2 ∧
    ∀ (tr : List DpEvent) (m' : Cmem),
      ((alvsSchedShScheduleConnection serviceIndex sip sport).run m).Path tr (false, m') →
      disposals tr = 1 :=
  ⟨Prog.execEnv_of_wp _ (env_shSchedule hhash sip sport hown hfull) hes,
    fun _ _ hp => disposals_of_fails (sched_shScheduleConnection serviceIndex sip sport) hp⟩

/-- A chip on which every server takes one connection, entry 0 names server 0, which has one,
and all other entries name server 1, which has none. -/
def exampleShChip : Nps :=
  { Sys.init.nps with
    schedInfo := fun i => some (if i = 0 then 0 else 1)
    serverInfo := fun i => some { exampleServerInfo 1 0 with
      serverOnDemandStatsBase := serverOnDemandStatsBase i
      serverFlagsDpBase := serverFlagsDpBase i }
    onDemand := Function.update (fun _ => 0) (serverOnDemandStatsBase 0) 1 }

/-- A thread that has looked up a service with the fallback flag. -/
def exampleShCmem : Cmem :=
  { Cmem.zero with serviceInfoResult :=
    { Cmem.zero.serviceInfoResult with serviceFlags := ipVsSvcFSchedShFallback } }

theorem shSchedule_picks_next :
    let res := ((alvsSchedShScheduleConnection 0 0 0).run exampleShCmem).execEnv dpHandle
      (fun _ => exampleEnv) exampleShChip
    exampleShChip.Picked (exampleShChip.firstAdmitting 0 (shOrder 0 true)) res.1.1 res.1.2 res.2 ∧
    ∀ (tr : List DpEvent) (m' : Cmem),
      ((alvsSchedShScheduleConnection 0 0 0).run exampleShCmem).Path tr (false, m') →
      disposals tr = 1 :=
  @shSchedule_picks (fun _ _ _ _ => 0) (fun _ _ _ _ => Nat.two_pow_pos _) 0 0 0
    exampleShCmem exampleShChip (fun _ _ h => Option.some.inj h ▸ ⟨rfl, rfl⟩) (fun _ _ => rfl)
    (fun _ => exampleEnv) (by decide +kernel)

end Alvs
