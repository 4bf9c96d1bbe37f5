import Alvs.Lib.Runs
import Mathlib.Data.DFinsupp.WellFounded
import Mathlib.SetTheory.Cardinal.Order

/-!
# Progress of pools

A program is finite, so finitely many threads perform finitely many operations, unless jobs are
started (`Machine.wellFounded_moves`). Where in every pool that meets an invariant some thread can
go on and keep it, or a goal is reached, some schedule reaches the goal (`Machine.exists_run`).
-/

namespace ProgLogic

variable {Tid σ Op L Job Env α : Type} {Res : Op → Type}

/-! ## Programs are finite -/

namespace Prog

/-- `p` is what is left of `q` after its next operation. -/
def Rest (p q : Prog Op Res α) : Prop := ∃ op k r, q = .call op k ∧ p = k r

theorem wellFounded_rest : WellFounded (@Rest Op α Res) := by
  refine ⟨fun p => ?_⟩
  induction p with
  | ret a =>
    refine ⟨_, ?_⟩
    rintro q ⟨op, k, r, h, -⟩
    cases h
  | call op k ih =>
    refine ⟨_, ?_⟩
    rintro q ⟨op', k', r, h, rfl⟩
    cases h
    exact ih r

end Prog

/-! ## Operations of threads -/

/-- The thread has an operation to perform. -/
def Pool.Busy (c : Pool Tid σ Op Res L) (t : Tid) : Prop := ∃ op k, c.thread t = .call op k

theorem Pool.exists_busy {c : Pool Tid σ Op Res L} (h : ¬ c.Quiescent) : ∃ t, c.Busy t := by
  obtain ⟨t, ht⟩ := not_forall.mp h
  refine ⟨t, ?_⟩
  cases hp : c.thread t with
  | ret l => exact absurd ⟨l, hp⟩ ht
  | call op k => exact ⟨op, k, hp⟩

namespace Machine

variable [DecidableEq Tid] (M : Machine Tid σ Op Res L Job Env)

/-- Thread `t` performs its next operation, which is enabled. -/
def Moves (t : Tid) (e : Env) (c c' : Pool Tid σ Op Res L) : Prop :=
  ∃ op k r s', c.thread t = .call op k ∧ M.handle e t op c.shared = some (r, s') ∧
    c' = ⟨s', Function.update c.thread t (k r)⟩

variable {M} {t : Tid} {e : Env} {c c' : Pool Tid σ Op Res L}

theorem Moves.step_eq (h : M.Moves t e c c') : M.step c t e = c' := by
  obtain ⟨op, k, r, s', ht, hs', rfl⟩ := h
  simp only [step, ht, hs']

theorem moves_of_enabled {op : Op} {k : Res op → Prog Op Res L} (ht : c.thread t = .call op k)
    {r : Res op} {s' : σ} (h : M.handle e t op c.shared = some (r, s')) :
    M.Moves t e c (M.step c t e) := by
  have hmoves : M.Moves t e c ⟨s', Function.update c.thread t (k r)⟩ :=
    ⟨op, k, r, s', ht, h, rfl⟩
  rwa [hmoves.step_eq]

variable (M) in
/-- Finitely many threads that are given no new jobs come to an end. -/
theorem wellFounded_moves [Finite Tid] :
    WellFounded fun c' c : Pool Tid σ Op Res L => ∃ t e, M.Moves t e c c' := by
  have hlex := @Pi.Lex.wellFounded Tid (fun _ => Prog Op Res L) WellOrderingRel
    (fun {_} => Prog.Rest) _ _ fun _ => Prog.wellFounded_rest
  refine Subrelation.wf ?_ (InvImage.wf Pool.thread hlex)
  rintro c' c ⟨t, e, op, k, r, s', ht, -, rfl⟩
  refine ⟨t, fun t' hlt => Function.update_of_ne ?_ _ _, op, k, r, ht, Function.update_self _ _ _⟩
  rintro rfl
  exact irrefl_of WellOrderingRel _ hlt

/-- `env` settles what the operations leave open. -/
theorem exists_run [Finite Tid] {I Goal : Pool Tid σ Op Res L → Prop}
    (env : Pool Tid σ Op Res L → Env)
    (hgo : ∀ c, I c → Goal c ∨ ∃ t, M.Moves t (env c) c (M.step c t (env c)) ∧
      I (M.step c t (env c))) (hc : I c) :
    ∃ ts : List Tid, Goal (ts.foldl (fun c t => M.step c t (env c)) c) := by
  induction c using (wellFounded_moves M).induction with
  | h c ih =>
    obtain hgoal | ⟨t, hmoves, hnext⟩ := hgo c hc
    · exact ⟨[], hgoal⟩
    · obtain ⟨ts, hts⟩ := ih _ ⟨t, env c, hmoves⟩ hnext
      exact ⟨t :: ts, hts⟩

end Machine

end ProgLogic
