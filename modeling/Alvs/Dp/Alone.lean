import Alvs.Dp.Packet

/-!
# Functions that run alone

What the small functions of the data plane do when the calls of no other thread come in between,
in any environments. The entry that is looked up is the one that is modified.
-/

namespace Alvs

open ProgLogic LProg

namespace Nps

/-- The chip with entry `idx` replaced. -/
def setConn (s : Nps) (idx : UInt32) (c : ConnInfoResult) : Nps :=
  { s with connInfo := Function.update s.connInfo idx (some c) }

/-- The chip after `alvs_update_connection_statistics`. -/
def withStatistics (s : Nps) (info : ServerInfoResult) (schedConn activeConn inactiveConn : Int) :
    Nps :=
  (((s.addPosted (info.serviceStatsBase.add alvsServiceStatsConnSchedOffset) schedConn).addPosted
    (info.serverStatsBase.add alvsServerStatsActiveConnOffset) activeConn).addPosted
    (info.serverStatsBase.add alvsServerStatsInactiveConnOffset) inactiveConn).addPosted
    (info.serverStatsBase.add alvsServerStatsConnSchedOffset) schedConn

end Nps

section Alone

variable {ok : DpEnv → DpCall → Nps → Prop} {m : Cmem} {s : Nps} {idx : UInt32}

theorem env_lock : alvsLockConnection.wp (Prog.envSpec dpHandle ok)
    (fun _ m' s' => m' = m ∧ s' = s) m s := by
  simp only [alvsLockConnection, wp_bind, wp_get, wp_call_env, dpHandle]
  exact fun _ _ => ⟨trivial, trivial⟩

theorem env_unlock_mem (h : UInt32) : (alvsUnlockConnection h).wp (Prog.envSpec dpHandle ok)
    (fun _ m' s' => m' = m ∧ s' = s) m s := by
  simp only [alvsUnlockConnection, wp_call_env, dpHandle]
  exact fun _ _ => ⟨trivial, trivial⟩

theorem env_connInfoLookup_mem (site : ConnSite) (i : UInt32) :
    (alvsConnInfoLookup site i).wp (Prog.envSpec dpHandle ok) (fun found m' s' => s' = s ∧
      (found = false ∧ s.connInfo i = none ∧ m' = m ∨
        ∃ c, found = true ∧ s.connInfo i = some c ∧ m' = { m with connInfoResult := c })) m s := by
  simp only [alvsConnInfoLookup, wp_bind, wp_call_env, dpHandle]
  intro _ _
  cases hc : s.connInfo i with
  | none => exact ⟨rfl, .inl ⟨rfl, rfl, rfl⟩⟩
  | some c => exact ⟨rfl, .inr ⟨c, rfl, rfl, rfl⟩⟩

/-- The lookup of the entry. -/
theorem env_connInfoLookup_found (site : ConnSite) {c : ConnInfoResult}
    (hinfo : s.connInfo idx = some c) :
    (alvsConnInfoLookup site idx).wp (Prog.envSpec dpHandle ok) (fun found m' s' => found = true ∧
      m' = { m with connInfoResult := c } ∧ s' = s) m s := by
  simp only [alvsConnInfoLookup, wp_bind, wp_call_env, dpHandle, hinfo, wp_modify, wp_pure]
  exact fun _ _ => ⟨trivial, trivial, trivial⟩

/-- Modifying the entry that was read. -/
theorem env_connInfoModify {c c' : ConnInfoResult} (hinfo : s.connInfo idx = some c) :
    (alvsConnInfoModify idx c').wp (Prog.envSpec dpHandle ok) (fun done m' s' => done = true ∧
      m' = { m with connInfoResult := c' } ∧ s' = s.setConn idx c') m s := by
  simp only [alvsConnInfoModify, wp_bind, wp_modify, wp_call_env, dpHandle, hinfo, reduceCtorEq,
    if_false]
  exact fun _ _ => ⟨trivial, trivial, rfl⟩

theorem env_serverInfoLookup_mem (j : UInt32) :
    (alvsServerInfoLookup j).wp (Prog.envSpec dpHandle ok) (fun found m' s' => s' = s ∧
      (found = false ∧ s.serverInfo j = none ∧ m' = m ∨ ∃ info, found = true ∧
        s.serverInfo j = some info ∧ m' = { m with serverInfoResult := info })) m s := by
  simp only [alvsServerInfoLookup, wp_bind, wp_call_env, dpHandle]
  intro _ _
  cases hinfo : s.serverInfo j with
  | none => exact ⟨rfl, .inl ⟨rfl, rfl, rfl⟩⟩
  | some info => exact ⟨rfl, .inr ⟨info, rfl, rfl, rfl⟩⟩

theorem env_updateConnectionStatistics_eq (a b c : Int) :
    (alvsUpdateConnectionStatistics a b c).wp (Prog.envSpec dpHandle ok)
      (fun _ m' s' => m' = m ∧ s' = s.withStatistics m.serverInfoResult a b c) m s := by
  simp only [alvsUpdateConnectionStatistics, wp_bind, wp_get, wp_call_env, dpHandle]
  intros
  exact ⟨trivial, rfl⟩

end Alone

end Alvs
