import Alvs.Cp.StatsBase

/-!
# The counters of a server are its own

The info entry that the control plane writes for a server names the on-demand counter and the
word of flags of the server's index. So two servers never share them (`ownCounters_run`).
-/

namespace Alvs

open ProgLogic

/-- The counter and the flags that an info entry names are those of index `i`. -/
structure ServerInfoResult.Own (info : ServerInfoResult) (i : UInt32) : Prop where
  onDemand : info.serverOnDemandStatsBase = Alvs.serverOnDemandStatsBase i
  flagsDp : info.serverFlagsDpBase = Alvs.serverFlagsDpBase i

/-- Every entry of SERVER_INFO names the counter and the flags of its index. -/
def Nps.OwnCounters (nps : Nps) : Prop := ∀ i info, nps.serverInfo i = some info → info.Own i

theorem serverFlagsDpBase_inj {i j : UInt32} (h : serverFlagsDpBase i = serverFlagsDpBase j) :
    i = j := by
  simp only [serverFlagsDpBase, SumAddr.mk.injEq, true_and] at h
  exact (UInt32.add_right_inj _).mp h

namespace Nps.OwnCounters

variable {nps nps' : Nps}

theorem congr (h : nps.OwnCounters) (hinfo : nps'.serverInfo = nps.serverInfo) :
    nps'.OwnCounters := by
  intro i info hi
  rw [hinfo] at hi
  exact h i info hi

theorem setEntry (h : nps.OwnCounters) {v : DbServer}
    (hv : (buildNpsServerInfoResult v).Own v.npsIndex) :
    (nps.setEntry (serverInfoEntry v)).OwnCounters := by
  intro i info hi
  rw [setEntry_serverInfo] at hi
  by_cases hidx : i = v.npsIndex
  · subst hidx
    rw [Function.update_self] at hi
    exact Option.some.inj hi ▸ hv
  · exact h i info ((Function.update_of_ne hidx ..).symm.trans hi)

/-- Different servers have different flags. -/
theorem server_eq (h : nps.OwnCounters) {i j : UInt32} {info info' : ServerInfoResult}
    (hi : nps.serverInfo i = some info) (hj : nps.serverInfo j = some info')
    (hflags : info.serverFlagsDpBase = info'.serverFlagsDpBase) : info = info' := by
  obtain rfl : i = j := serverFlagsDpBase_inj <|
    (h i info hi).flagsDp.symm.trans (hflags.trans (h j info' hj).flagsDp)
  exact Option.some.inj (hi.symm.trans hj)

end Nps.OwnCounters

theorem DbServer.Ok.own {v : DbServer} (h : v.Ok) : (buildNpsServerInfoResult v).Own v.npsIndex :=
  ⟨h.onDemand, h.flagsDp⟩

theorem DbServer.Ok.own_of {v w : DbServer} (h : v.Ok) (hidx : w.npsIndex = v.npsIndex)
    (honDemand : w.serverOnDemandStatsBase = v.serverOnDemandStatsBase)
    (hflags : w.serverFlagsDpBase = v.serverFlagsDpBase) :
    (buildNpsServerInfoResult w).Own w.npsIndex :=
  ⟨honDemand.trans (hidx ▸ h.onDemand), hflags.trans (hidx ▸ h.flagsDp)⟩

theorem ownCounters_recalculated {s : Sys} (h : s.nps.OwnCounters) (v : DbService)
    (modifyDb : Bool) : (s.recalculatedService v modifyDb).nps.OwnCounters := by
  unfold Sys.recalculatedService
  generalize s.cp.entriesCount v = n
  exact h.congr rfl

theorem ownCounters_effect {s s' : Sys} {op : CpOp} (h : s.nps.OwnCounters) (hinv : s.cp.Inv)
    (he : s.Effect op s') : s'.nps.OwnCounters := by
  cases he with
  | addService => exact h.congr rfl
  | modifyService => exact h.congr rfl
  | modifyServiceAlg => exact h.congr rfl
  | @deleteService u uninit v hfind =>
    have h₁ : (s.deletedService v).nps.OwnCounters := by
      show (Nps.deactivatedFirst _ _).OwnCounters
      unfold Nps.deactivatedFirst
      split
      next => exact h.congr rfl
      next server hhead =>
        obtain ⟨r, hr, rfl⟩ := List.mem_map.mp (List.mem_of_mem_head? hhead)
        have hr' := hinv.servers_ok r (List.mem_of_mem_filter hr)
        exact Nps.OwnCounters.setEntry (h.congr rfl) (hr'.own_of rfl rfl rfl)
    exact h₁.congr rfl
  | @addServer u d service v s₁ hfind hcount hadded =>
    have h₁ : s₁.nps.OwnCounters := by
      obtain ⟨r, hf, -, rfl, rfl⟩ | ⟨-, i, pool, -, rfl, rfl⟩ := hadded
      · have hr := List.mem_of_find?_eq_some hf
        exact h.setEntry ((hinv.servers_ok r hr).own_of (w := reactivatedServer r.server d)
          rfl rfl rfl)
      · exact Nps.OwnCounters.setEntry (h.congr rfl) (DbServer.Ok.own ⟨rfl, rfl, rfl, rfl⟩)
    split
    · exact (ownCounters_recalculated h₁ service true).congr rfl
    · exact h₁.congr rfl
  | @modifyServer u d service r s₁ hfind hrow hact hs₁ =>
    have hr := List.mem_of_find?_eq_some hrow
    have hown := (hinv.servers_ok r hr).own_of (w := modifiedServer r.server d) rfl rfl rfl
    have h₁ : s₁.nps.OwnCounters := by
      rw [hs₁, Sys.modifiedServerRow]
      split <;> exact h.congr rfl
    split
    · exact (ownCounters_recalculated h₁ service false).setEntry hown
    · exact h₁.setEntry hown
  | @deleteServer u d service r s₁ hfind hrow hact hs₁ =>
    have hr := List.mem_of_find?_eq_some hrow
    have hown := (hinv.servers_ok r hr).own_of (w := r.server.unavailable) rfl rfl rfl
    have h₁ : s₁.nps.OwnCounters := by
      rw [hs₁]
      exact h.congr rfl
    split
    · exact ((ownCounters_recalculated h₁ service false).setEntry hown).congr rfl
    · exact (h₁.setEntry hown).congr rfl
  | clear => exact h.congr (withoutServices_serverInfo s.cp.services s.nps)
  | @aging _ r hr _ _ =>
    intro i info hi
    by_cases hidx : i = r.server.npsIndex
    · subst hidx
      have hnone : (s.reclaimed r).nps.serverInfo r.server.npsIndex = none :=
        Function.update_self ..
      rw [hnone] at hi
      cases hi
    · exact h i info ((Function.update_of_ne hidx ..).symm.trans hi)

/-- In every state of the control plane, the counter and the flags of a server are its own. -/
theorem ownCounters_run (ops : List CpOp) : (ops.foldl Sys.cpStep Sys.init).nps.OwnCounters := by
  have hstep : ∀ (s : Sys) (op : CpOp), s.cp.Inv ∧ s.nps.OwnCounters → True →
      (s.cpStep op).cp.Inv ∧ (s.cpStep op).nps.OwnCounters := by
    rintro s op ⟨hinv, hown⟩ -
    refine ⟨inv_cpStep hinv op, ?_⟩
    obtain heq | he := cpStep_cases hinv.algs op
    · rwa [heq]
    · exact ownCounters_effect hown hinv he
  have hall : Always (fun _ _ => True) Sys.cpStep Sys.init ops :=
    Always.of_forall (fun _ _ => trivial) _ ops
  exact (Always.invariant hstep _ ops ⟨.init, fun _ _ hi => by cases hi⟩ hall).2

end Alvs
