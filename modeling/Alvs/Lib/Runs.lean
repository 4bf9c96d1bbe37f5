import Alvs.Lib.Prog
import Mathlib.Logic.Function.Basic

/-!
# Runs of step functions and pools of threads

A run of a step function is the fold of a list of actions. `Always ok step s as` says
that every action of the run meets `ok` in the state it is taken in, and
`Always.invariant` is the induction every safety result uses.

A `Pool` is a shared state with one program for each thread. An action starts a job on an
idle thread or performs the next operation of a thread; the environment of an action
settles what the operation leaves open, and an operation that is not enabled (a taken
lock) leaves the pool as it is. `Machine.inv_act` is the rule for such pools : the shared
state is related by `J` to one ghost state for each thread, each thread's program is
proved against its own specification, and each operation keeps `J` while it moves the
ghost state of its own thread only.
-/

namespace ProgLogic

/-! ## Runs -/

section Runs

variable {S A : Type} {step : S → A → S}

/-- Every action of the run from `s` meets `ok` in the state it is taken in. -/
def Always (ok : S → A → Prop) (step : S → A → S) : S → List A → Prop
  | _, [] => True
  | s, a :: as => ok s a ∧ Always ok step (step s a) as

instance Always.decidable (ok : S → A → Prop) [∀ s a, Decidable (ok s a)] (step : S → A → S) :
    ∀ (s : S) (as : List A), Decidable (Always ok step s as)
  | _, [] => inferInstanceAs (Decidable True)
  | s, a :: as =>
    have := Always.decidable ok step (step s a) as
    inferInstanceAs (Decidable (ok s a ∧ Always ok step (step s a) as))

theorem Always.mono {ok ok' : S → A → Prop} (h : ∀ s a, ok s a → ok' s a) :
    ∀ {s : S} {as : List A}, Always ok step s as → Always ok' step s as
  | _, [], _ => trivial
  | _, _ :: _, hs => ⟨h _ _ hs.1, hs.2.mono h⟩

theorem Always.of_forall {ok : S → A → Prop} (h : ∀ s a, ok s a) :
    ∀ (s : S) (as : List A), Always ok step s as
  | _, [] => trivial
  | s, a :: as => ⟨h s a, Always.of_forall h (step s a) as⟩

theorem Always.append {ok : S → A → Prop} :
    ∀ {s : S} {as bs : List A}, Always ok step s (as ++ bs) ↔
      Always ok step s as ∧ Always ok step (as.foldl step s) bs
  | _, [], _ => by simp [Always]
  | s, a :: as, bs => by
    rw [List.cons_append, List.foldl_cons, Always, Always, Always.append, and_assoc]

/-- What every step that meets `ok` keeps, every run whose steps meet `ok` keeps. -/
theorem Always.invariant {ok : S → A → Prop} {Inv : S → Prop}
    (hstep : ∀ s a, Inv s → ok s a → Inv (step s a)) :
    ∀ (s : S) (as : List A), Inv s → Always ok step s as → Inv (as.foldl step s)
  | _, [], h, _ => h
  | s, a :: as, h, hs => Always.invariant hstep (step s a) as (hstep s a h hs.1) hs.2

/-- Where `ok` is exactly what a step has to meet to keep an invariant, a run keeps it throughout
exactly if all its steps meet `ok`. -/
theorem Always.take_iff {c ok : S → A → Prop} {Inv : S → Prop}
    (hstep : ∀ s a, Inv s → c s a → (Inv (step s a) ↔ ok s a)) :
    ∀ {s : S} {as : List A}, Inv s → Always c step s as →
      ((∀ k, Inv ((as.take k).foldl step s)) ↔ Always ok step s as)
  | s, [], h, _ => iff_of_true (fun k => by simpa using h) trivial
  | s, a :: as, h, hc => by
    constructor
    · intro hall
      have hnext : Inv (step s a) := hall 1
      exact ⟨(hstep s a h hc.1).mp hnext,
        (take_iff hstep hnext hc.2).mp fun k => hall (k + 1)⟩
    · rintro ⟨hok, hoks⟩ k
      have hnext := (hstep s a h hc.1).mpr hok
      cases k with
      | zero => exact h
      | succ k => exact (take_iff hstep hnext hc.2).mpr hoks k

end Runs

/-! ## Pools of threads -/

/-- A shared state and the remaining program of each thread. -/
structure Pool (Tid σ : Type) (Op : Type) (Res : Op → Type) (L : Type) where
  shared : σ
  thread : Tid → Prog Op Res L

/-- Every thread is idle. -/
def Pool.Quiescent {Tid σ Op L : Type} {Res : Op → Type} (c : Pool Tid σ Op Res L) : Prop :=
  ∀ t, ∃ l, c.thread t = .ret l

/-- Start job `j` on thread `t`, or let `t` perform its next operation with `e` settling
what the operation leaves open. -/
inductive PoolAct (Tid Job Env : Type)
  | start (t : Tid) (j : Job)
  | step (t : Tid) (e : Env)
  deriving DecidableEq

/-- What operations do to the shared state, and the program of each job. A thread keeps
its local state `L` between jobs. -/
structure Machine (Tid σ : Type) (Op : Type) (Res : Op → Type) (L Job Env : Type) where
  handle : Env → Tid → (op : Op) → σ → Option (Res op × σ)
  job : Tid → Job → L → Prog Op Res L

variable {Tid σ Op L Job Env γ : Type} {Res : Op → Type} [DecidableEq Tid]

namespace Machine

variable (M : Machine Tid σ Op Res L Job Env)

/-- Start job `j` on thread `t`, if the thread is idle. -/
def start (c : Pool Tid σ Op Res L) (t : Tid) (j : Job) : Pool Tid σ Op Res L :=
  match c.thread t with
  | .ret l => { c with thread := Function.update c.thread t (M.job t j l) }
  | .call _ _ => c

/-- Perform the next operation of thread `t`. One that is not enabled changes nothing. -/
def step (c : Pool Tid σ Op Res L) (t : Tid) (e : Env) : Pool Tid σ Op Res L :=
  match c.thread t with
  | .ret _ => c
  | .call op k =>
    match M.handle e t op c.shared with
    | none => c
    | some (r, s) => { shared := s, thread := Function.update c.thread t (k r) }

/-- One action. -/
def act (c : Pool Tid σ Op Res L) : PoolAct Tid Job Env → Pool Tid σ Op Res L
  | .start t j => M.start c t j
  | .step t e => M.step c t e

/-- An idle thread has nothing to perform. -/
theorem step_idle {c : Pool Tid σ Op Res L} {t : Tid} {l : L} (h : c.thread t = .ret l) (e : Env) :
    ∀ n, (List.replicate n (.step t e)).foldl M.act c = c
  | 0 => rfl
  | n + 1 => by
    have hstep : M.step c t e = c := by simp only [step, h]
    rw [List.replicate_succ, List.foldl_cons]
    change (List.replicate n (.step t e)).foldl M.act (M.step c t e) = c
    rw [hstep, step_idle h e n]

/-- A thread that runs alone, where its operations are enabled, executes its program. -/
theorem step_alone {h : (op : Op) → σ → Res op × σ} {P : Op → Prop} {t : Tid} {e : Env}
    (hP : ∀ op s, P op → M.handle e t op s = some (h op s)) :
    ∀ (p : Prog Op Res L) (c : Pool Tid σ Op Res L), p.Only P → c.thread t = p →
    ∃ n, (List.replicate n (.step t e)).foldl M.act c =
      ⟨(p.exec h c.shared).2, Function.update c.thread t (.ret (p.exec h c.shared).1)⟩
  | .ret l, c, _, ht => ⟨0, by
    rw [List.replicate_zero, List.foldl_nil, Prog.exec, ← ht, Function.update_eq_self]⟩
  | .call op k, c, hp, ht => by
    have hstep : M.step c t e =
        ⟨(h op c.shared).2, Function.update c.thread t (k (h op c.shared).1)⟩ := by
      simp only [step, ht, hP op c.shared hp.1]
    obtain ⟨n, hn⟩ := step_alone hP (k (h op c.shared).1)
      ⟨(h op c.shared).2, Function.update c.thread t (k (h op c.shared).1)⟩ (hp.2 _)
      (Function.update_self t (k (h op c.shared).1) c.thread)
    refine ⟨n + 1, ?_⟩
    rw [List.replicate_succ, List.foldl_cons]
    change (List.replicate n (.step t e)).foldl M.act (M.step c t e) = _
    rw [hstep, hn, Function.update_idem]
    rfl

/-- The condition `ok` on the operation that an action performs, in the shared state it is
performed in. -/
def ActOk (ok : Env → Tid → Op → σ → Prop) (c : Pool Tid σ Op Res L) :
    PoolAct Tid Job Env → Prop
  | .start _ _ => True
  | .step t e => (c.thread t).NextOk fun op => ok e t op c.shared

instance (ok : Env → Tid → Op → σ → Prop) [∀ e t op s, Decidable (ok e t op s)]
    (c : Pool Tid σ Op Res L) : (a : PoolAct Tid Job Env) → Decidable (ActOk ok c a)
  | .start _ _ => .isTrue trivial
  | .step t _ => Prog.decidableNextOk _ (c.thread t)

/-- `J` relates the shared state to the ghost states, and each thread's program is proved
from its own. -/
def Inv (S : Tid → Spec Op Res γ) (idle : Tid → L → γ → Prop) (J : σ → (Tid → γ) → Prop)
    (c : Pool Tid σ Op Res L) : Prop :=
  ∃ Γ : Tid → γ, J c.shared Γ ∧ ∀ t, (c.thread t).wp (S t) (idle t) (Γ t)

variable {M} {S : Tid → Spec Op Res γ} {idle : Tid → L → γ → Prop} {J : σ → (Tid → γ) → Prop}
  {ok : Env → Tid → Op → σ → Prop}

theorem inv_start (hjob : ∀ t j l g, idle t l g → (M.job t j l).wp (S t) (idle t) g)
    {c : Pool Tid σ Op Res L} (hc : Inv S idle J c) (t : Tid) (j : Job) :
    Inv S idle J (M.start c t j) := by
  obtain ⟨Γ, hJ, hwp⟩ := hc
  unfold start
  split
  next l hl =>
    refine ⟨Γ, hJ, fun t' => ?_⟩
    by_cases ht : t' = t
    · subst ht
      have hidle := hwp t'
      rw [hl] at hidle
      simpa using hjob t' j l _ hidle
    · simpa [Function.update_of_ne ht] using hwp t'
  next => exact ⟨Γ, hJ, hwp⟩

/-- The rule for one operation, with what is known of the programs of all threads. -/
theorem inv_step_of {c : Pool Tid σ Op Res L} (t : Tid) (e : Env)
    (hstep : ∀ Γ op k r s', J c.shared Γ → (∀ t', (c.thread t').wp (S t') (idle t') (Γ t')) →
      c.thread t = .call op k → (S t).pre (Γ t) op → M.handle e t op c.shared = some (r, s') →
      ∃ g', (S t).post (Γ t) op r g' ∧ J s' (Function.update Γ t g'))
    (hc : Inv S idle J c) : Inv S idle J (M.step c t e) := by
  obtain ⟨Γ, hJ, hwp⟩ := hc
  unfold step
  split
  next => exact ⟨Γ, hJ, hwp⟩
  next op k hk =>
    have ht := hwp t
    rw [hk, Prog.wp_call] at ht
    split
    next => exact ⟨Γ, hJ, hwp⟩
    next r s' hr =>
      obtain ⟨g', hpost, hJ'⟩ := hstep Γ op k r s' hJ hwp hk ht.1 hr
      refine ⟨Function.update Γ t g', hJ', fun t' => ?_⟩
      by_cases ht' : t' = t
      · subst ht'
        simpa using ht.2 r g' hpost
      · simpa [Function.update_of_ne ht'] using hwp t'

theorem inv_step
    (hstep : ∀ e t op s Γ r s', J s Γ → (S t).pre (Γ t) op → ok e t op s →
      M.handle e t op s = some (r, s') →
      ∃ g', (S t).post (Γ t) op r g' ∧ J s' (Function.update Γ t g'))
    {c : Pool Tid σ Op Res L} (hc : Inv S idle J c) (t : Tid) (e : Env)
    (hok : ∀ op k, c.thread t = .call op k → ok e t op c.shared) :
    Inv S idle J (M.step c t e) :=
  inv_step_of t e (fun Γ op k r s' hJ _ hk hpre hr =>
    hstep e t op c.shared Γ r s' hJ hpre (hok op k hk) hr) hc

/-- The pool rule with a condition on each action that may speak of all threads. -/
theorem inv_run_of {ok : Pool Tid σ Op Res L → PoolAct Tid Job Env → Prop}
    (hjob : ∀ t j l g, idle t l g → (M.job t j l).wp (S t) (idle t) g)
    (hstep : ∀ c t e Γ op k r s', ok c (.step t e) → J c.shared Γ →
      (∀ t', (c.thread t').wp (S t') (idle t') (Γ t')) → c.thread t = .call op k →
      (S t).pre (Γ t) op → M.handle e t op c.shared = some (r, s') →
      ∃ g', (S t).post (Γ t) op r g' ∧ J s' (Function.update Γ t g'))
    {c : Pool Tid σ Op Res L} {as : List (PoolAct Tid Job Env)} (hc : Inv S idle J c)
    (has : Always ok M.act c as) : Inv S idle J (as.foldl M.act c) := by
  refine Always.invariant (fun c a hc ha => ?_) c as hc has
  cases a with
  | start t j => exact inv_start hjob hc t j
  | step t e => exact inv_step_of t e (fun Γ op k r s' => hstep c t e Γ op k r s' ha) hc

/-- The pool rule : jobs proved against the specification from an idle thread, and
operations that keep `J`, keep the invariant along every run whose operations meet `ok`. -/
theorem inv_run (hjob : ∀ t j l g, idle t l g → (M.job t j l).wp (S t) (idle t) g)
    (hstep : ∀ e t op s Γ r s', J s Γ → (S t).pre (Γ t) op → ok e t op s →
      M.handle e t op s = some (r, s') →
      ∃ g', (S t).post (Γ t) op r g' ∧ J s' (Function.update Γ t g'))
    {c : Pool Tid σ Op Res L} {as : List (PoolAct Tid Job Env)} (hc : Inv S idle J c)
    (has : Always (ActOk ok) M.act c as) : Inv S idle J (as.foldl M.act c) := by
  refine Always.invariant (fun c a hc ha => ?_) c as hc has
  cases a with
  | start t j => exact inv_start hjob hc t j
  | step t e =>
    refine inv_step hstep hc t e fun op k hk => ?_
    simpa only [ActOk, hk, Prog.NextOk] using ha

end Machine

end ProgLogic
