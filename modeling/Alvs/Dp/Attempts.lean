import Alvs.Dp.Overload

/-!
# Attempts at a server

What a creation of a connection makes of the chip when nothing else runs in between. An
attempt either counts one more connection of the server or leaves all counters as they were;
it touches no flags but those of the server.

`Nps.Admits` : what the attempt finds decides whether it is admitted.
`env_schedGetServerInfo` : the attempt at the server of a scheduling entry.
-/

namespace Alvs

open ProgLogic LProg

/-! ## The decision -/

namespace Nps

/-- The server is marked as overloaded. -/
def Overloaded (s : Nps) (info : ServerInfoResult) : Prop :=
  s.serverFlagsWord info.serverFlagsDpBase &&& ipVsDestFOverload ≠ 0

instance (s : Nps) (info : ServerInfoResult) : Decidable (s.Overloaded info) :=
  inferInstanceAs (Decidable (_ ≠ _))

/-- CONNECTION_TOTAL with the connection that is attempted. -/
def nextTotal (s : Nps) (info : ServerInfoResult) : UInt64 :=
  counterValue (s.onDemand info.connTotal) + 1

/-- The server admits a connection. -/
def Admits (s : Nps) (info : ServerInfoResult) : Prop :=
  info.uThresh = 0 ∨ info.admits (s.Overloaded info) (s.nextTotal info) = true

instance (s : Nps) (info : ServerInfoResult) : Decidable (s.Admits info) :=
  inferInstanceAs (Decidable (_ ∨ _))

/-- The word of flags after an attempt. -/
def flagsAfter (s : Nps) (info : ServerInfoResult) : UInt32 :=
  let word := s.serverFlagsWord info.serverFlagsDpBase
  let total := s.nextTotal info
  if info.uThresh = 0 then word
  else if total = info.uThresh.toUInt64 then
    if s.Overloaded info then word else word ||| ipVsDestFOverload
  else if info.uThresh.toUInt64 < total then word ||| ipVsDestFOverload
  else if info.lThresh ≠ 0 ∧ total ≤ info.lThresh.toUInt64 then word &&& ~~~ipVsDestFOverload
  else word

/-- The chip after an attempt. -/
def afterAttempt (s : Nps) (info : ServerInfoResult) : Nps :=
  { s with
    onDemand :=
      if s.Admits info then
        Function.update s.onDemand info.connTotal (s.onDemand info.connTotal + 1)
      else s.onDemand
    serverFlagsWord :=
      Function.update s.serverFlagsWord info.serverFlagsDpBase (s.flagsAfter info) }

/-- An increment that is taken back. -/
theorem addOnDemand_back (s : Nps) (a : SumAddr) : (s.addOnDemand a 1).addOnDemand a (-1) = s := by
  simp [addOnDemand]

section Decision

variable {s : Nps} {info : ServerInfoResult}

theorem afterAttempt_of_admits (h : s.Admits info) : s.afterAttempt info =
    { s.addOnDemand info.connTotal 1 with
      serverFlagsWord :=
        Function.update s.serverFlagsWord info.serverFlagsDpBase (s.flagsAfter info) } := by
  simp only [afterAttempt, if_pos h, addOnDemand]

theorem afterAttempt_of_refuses (h : ¬ s.Admits info) : s.afterAttempt info =
    { s with
      serverFlagsWord :=
        Function.update s.serverFlagsWord info.serverFlagsDpBase (s.flagsAfter info) } := by
  simp only [afterAttempt, if_neg h]

theorem addOnDemand_eq_afterAttempt (h : s.Admits info)
    (hflags : s.flagsAfter info = s.serverFlagsWord info.serverFlagsDpBase) :
    s.addOnDemand info.connTotal 1 = s.afterAttempt info := by
  rw [afterAttempt_of_admits h, hflags, Function.update_eq_self]
  rfl

theorem addOnDemand_back_eq_afterAttempt (h : ¬ s.Admits info)
    (hflags : s.flagsAfter info = s.serverFlagsWord info.serverFlagsDpBase) :
    (s.addOnDemand info.connTotal 1).addOnDemand info.connTotal (-1) = s.afterAttempt info := by
  rw [afterAttempt_of_refuses h, hflags, Function.update_eq_self, addOnDemand_back]

variable (hu : info.uThresh ≠ 0)

section AtThreshold

variable (heq : s.nextTotal info = info.uThresh.toUInt64)

include hu heq

theorem admits_at : s.Admits info ↔ ¬ s.Overloaded info := by
  simp [Admits, hu, ServerInfoResult.admits, heq]

theorem flagsAfter_at : s.flagsAfter info =
    if s.Overloaded info then s.serverFlagsWord info.serverFlagsDpBase
    else s.serverFlagsWord info.serverFlagsDpBase ||| ipVsDestFOverload := by
  simp only [flagsAfter, if_neg hu, if_pos heq]

end AtThreshold

variable (hne : s.nextTotal info ≠ info.uThresh.toUInt64)

section Above

variable (hgt : info.uThresh.toUInt64 < s.nextTotal info)

include hu hne hgt

theorem refuses_above : ¬ s.Admits info := by
  simp [Admits, hu, ServerInfoResult.admits, hne, hgt]

theorem flagsAfter_above :
    s.flagsAfter info = s.serverFlagsWord info.serverFlagsDpBase ||| ipVsDestFOverload := by
  simp only [flagsAfter, if_neg hu, if_neg hne, if_pos hgt]

end Above

section Below

variable (hle : ¬ info.uThresh.toUInt64 < s.nextTotal info)

include hu hne hle

theorem admits_below : s.Admits info ↔
    info.lThresh ≠ 0 ∧ s.nextTotal info ≤ info.lThresh.toUInt64 ∨ ¬ s.Overloaded info := by
  simp only [Admits, hu, false_or, ServerInfoResult.admits, if_neg hne, if_neg hle]
  split
  next hl => exact iff_of_true rfl (.inl hl)
  next hl => simp [hl]

theorem flagsAfter_below : s.flagsAfter info =
    if info.lThresh ≠ 0 ∧ s.nextTotal info ≤ info.lThresh.toUInt64 then
      s.serverFlagsWord info.serverFlagsDpBase &&& ~~~ipVsDestFOverload
    else s.serverFlagsWord info.serverFlagsDpBase := by
  simp only [flagsAfter, if_neg hu, if_neg hne, if_neg hle]

end Below

end Decision

end Nps

/-! ## An attempt that runs alone -/

section Attempt

variable {ok : DpEnv → DpCall → Nps → Prop} {m : Cmem} {s : Nps}

theorem env_overloadOnCreate (i : UInt16) :
    (alvsServerOverloadOnCreateConn i).wp (Prog.envSpec dpHandle ok) (fun flags m' s' => m' = m ∧
      (flags &&& ipVsDestFOverload = 0 ↔ s.Admits m.serverInfoResult) ∧
      s' = s.afterAttempt m.serverInfoResult) m s := by
  simp only [alvsServerOverloadOnCreateConn, wp_bind, wp_get, wp_call_env, dpHandle]
  intro _ _ _ _
  refine (wp_ite _ _ _ _).mpr ⟨fun hu => ?_, fun hu => (wp_ite _ _ _ _).mpr ⟨fun heq =>
    (wp_ite _ _ _ _).mpr ⟨fun hf => ?_, fun hf => ?_⟩, fun hne => (wp_ite _ _ _ _).mpr
      ⟨fun hgt => ?_,
    fun hle => (wp_ite _ _ _ _).mpr ⟨fun hl => ?_, fun hl => (wp_ite _ _ _ _).mpr ⟨fun hf => ?_,
    fun hf => ?_⟩⟩⟩⟩⟩
  · have h : s.Admits m.serverInfoResult := .inl hu
    have hflags : s.flagsAfter m.serverInfoResult = _ := if_pos hu
    exact ⟨rfl, iff_of_true (show (0 : UInt32) &&& _ = 0 by decide) h,
      Nps.addOnDemand_eq_afterAttempt h hflags⟩
  · have h : ¬ s.Admits m.serverInfoResult := fun h => (Nps.admits_at hu heq).mp h hf
    have hflags := (Nps.flagsAfter_at hu heq).trans (if_pos hf)
    simp only [wp_bind, wp_call_env, wp_pure, dpHandle]
    exact fun _ _ => ⟨trivial, iff_of_false hf h, Nps.addOnDemand_back_eq_afterAttempt h hflags⟩
  · have h : s.Admits m.serverInfoResult := (Nps.admits_at hu heq).mpr hf
    have hflags := (Nps.flagsAfter_at hu heq).trans (if_neg hf)
    simp only [wp_bind, wp_call_env, wp_pure, dpHandle]
    intro _ _
    refine ⟨trivial, iff_of_true (by decide) h, ?_⟩
    rw [Nps.afterAttempt_of_admits h, hflags]
    rfl
  · have h : ¬ s.Admits m.serverInfoResult := Nps.refuses_above hu hne hgt
    simp only [wp_bind, wp_call_env, wp_pure, dpHandle]
    intro _ _ _ _
    refine ⟨trivial, iff_of_false (by decide) h, ?_⟩
    rw [Nps.afterAttempt_of_refuses h, Nps.flagsAfter_above hu hne hgt]
    simp [Nps.addOnDemand]
  · have h : s.Admits m.serverInfoResult := (Nps.admits_below hu hne hle).mpr (.inl hl)
    have hflags := (Nps.flagsAfter_below hu hne hle).trans (if_pos hl)
    simp only [wp_bind, wp_call_env, wp_pure, dpHandle]
    intro _ _
    refine ⟨trivial, iff_of_true (by decide) h, ?_⟩
    rw [Nps.afterAttempt_of_admits h, hflags]
    rfl
  · have h : ¬ s.Admits m.serverInfoResult := fun h =>
      ((Nps.admits_below hu hne hle).mp h).elim hl fun hclear => hclear hf
    have hflags := (Nps.flagsAfter_below hu hne hle).trans (if_neg hl)
    simp only [wp_bind, wp_call_env, wp_pure, dpHandle]
    exact fun _ _ => ⟨trivial, iff_of_false hf h, Nps.addOnDemand_back_eq_afterAttempt h hflags⟩
  · have h : s.Admits m.serverInfoResult := (Nps.admits_below hu hne hle).mpr (.inr hf)
    have hflags := (Nps.flagsAfter_below hu hne hle).trans (if_neg hl)
    exact ⟨rfl, iff_of_true (not_not.mp hf) h, Nps.addOnDemand_eq_afterAttempt h hflags⟩

/-- The attempt at the server of an entry of the scheduling table. -/
theorem env_schedGetServerInfo {i : UInt16} {j : UInt32} {info : ServerInfoResult}
    (hsched : s.schedInfo i = some j) (hinfo : s.serverInfo j = some info) :
    (alvsSchedGetServerInfo i).wp (Prog.envSpec dpHandle ok) (fun r m' s' =>
      m' = { m with schedServerIndex := j, serverInfoResult := info } ∧ s' = s.afterAttempt info ∧
      (r = .success ∧ s.Admits info ∨ r = .unavailable ∧ ¬ s.Admits info)) m s := by
  simp only [alvsSchedGetServerInfo, alvsServerSchedLookup, wp_bind, wp_call_env, dpHandle, hsched,
    wp_modify, wp_pure, wp_get, alvsServerInfoLookup, hinfo]
  intro _ _ _ _
  rw [if_pos trivial]
  refine wp_bind_of (env_overloadOnCreate _) ?_
  rintro flags _ _ ⟨rfl, hadm, rfl⟩
  refine (wp_ite _ _ _ _).mpr ⟨fun hf => ?_, fun hf => ?_⟩
  · exact ⟨rfl, rfl, .inr ⟨rfl, fun h => hf (hadm.mpr h)⟩⟩
  · exact ⟨rfl, rfl, .inl ⟨rfl, hadm.mp (not_not.mp hf)⟩⟩

end Attempt

/-! ## A deletion that runs alone -/

namespace Nps

/-- The chip after the part of a deletion that follows the removal of the entry. -/
def afterRemoval (s : Nps) (info : ServerInfoResult) : Nps :=
  { s.addOnDemand info.connTotal (-1) with
    serverFlagsWord := Function.update s.serverFlagsWord info.serverFlagsDpBase
      (if info.uThresh = 0 ∨ info.clears (counterValue (s.onDemand info.connTotal) - 1) = true then
        s.serverFlagsWord info.serverFlagsDpBase &&& ~~~ipVsDestFOverload
      else s.serverFlagsWord info.serverFlagsDpBase) }

end Nps

theorem env_overloadOnDelete_eq {ok : DpEnv → DpCall → Nps → Prop} {m : Cmem} {s : Nps}
    (i : UInt16) : (alvsServerOverloadOnDeleteConn i).wp (Prog.envSpec dpHandle ok)
      (fun _ m' s' => m' = m ∧ s' = s.afterRemoval m.serverInfoResult) m s := by
  have hclears (h : m.serverInfoResult.uThresh = 0 ∨ m.serverInfoResult.clears
      (counterValue (s.onDemand m.serverInfoResult.connTotal) - 1) = true) (e : DpEnv) :
      (dpHandle e (.atomicAnd32 m.serverInfoResult.serverFlagsDpBase (~~~ipVsDestFOverload))
        (s.addOnDemand m.serverInfoResult.connTotal (-1))).2 =
        s.afterRemoval m.serverInfoResult := by
    simp only [Nps.afterRemoval, if_pos h]
    rfl
  have hkeeps (hu : m.serverInfoResult.uThresh ≠ 0) (h : ¬ m.serverInfoResult.clears
      (counterValue (s.onDemand m.serverInfoResult.connTotal) - 1) = true) :
      s.addOnDemand m.serverInfoResult.connTotal (-1) = s.afterRemoval m.serverInfoResult := by
    rw [Nps.afterRemoval, if_neg (not_or.mpr ⟨hu, h⟩), Function.update_eq_self]
    rfl
  simp only [alvsServerOverloadOnDeleteConn, wp_bind, wp_get, wp_call_env]
  intro e _
  refine (wp_ite _ _ _ _).mpr ⟨fun hu => ?_, fun hu => (wp_ite _ _ _ _).mpr ⟨fun hl => ?_,
    fun hl => ?_⟩⟩
  · simp only [wp_call_env]
    exact fun e' _ => ⟨trivial, hclears (.inl hu) e'⟩
  all_goals
    have hiff := fun total => ServerInfoResult.clears.eq_1 m.serverInfoResult total
    simp only [hl, ne_eq, not_false_eq_true, if_true, if_false] at hiff
    refine (wp_ite _ _ _ _).mpr ⟨fun h => ?_, fun h => ⟨rfl, hkeeps hu ?_⟩⟩
  · simp only [wp_call_env]
    exact fun e' _ => ⟨trivial, hclears (.inr ((hiff _).trans (decide_eq_true h))) e'⟩
  · exact fun hc => h (of_decide_eq_true ((hiff _).symm.trans hc))
  · simp only [wp_call_env]
    exact fun e' _ => ⟨trivial, hclears (.inr ((hiff _).trans (decide_eq_true h))) e'⟩
  · exact fun hc => h (of_decide_eq_true ((hiff _).symm.trans hc))

end Alvs
