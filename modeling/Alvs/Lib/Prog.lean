import Mathlib.Logic.Basic
import Mathlib.Tactic.Basic

/-!
# Programs of primitive operations

A program over a set of primitive operations is a tree : it returns, or it issues an
operation and goes on with the result. Nothing is said about what an operation does, so
the same program is executed by a handler (`Prog.exec`), walked along every possible
sequence of results (`Prog.Path`), and reasoned about with a specification of the
operations (`Prog.wp`).

A specification `Spec` has a ghost state: each operation has a precondition on the ghost
state and relates the ghost state before it, its result and the ghost state after it.
`Prog.wp_bind` composes proofs along a program, `Prog.wp_mono` weakens the
postcondition, `Prog.exec_of_wp` reads a proof as a fact about the execution with a
handler, and `Prog.wp_monitor_iff` as a fact about every path.
-/

namespace ProgLogic

variable {Op : Type} {Res : Op → Type} {α β γ σ : Type}

/-- A program that issues operations `op : Op`, whose results have type `Res op`. -/
inductive Prog (Op : Type) (Res : Op → Type) (α : Type) : Type
  | ret (a : α) : Prog Op Res α
  | call (op : Op) (k : Res op → Prog Op Res α) : Prog Op Res α

namespace Prog

/-! ## The monad of programs -/

/-- Run `p`, then `f` on what it returns. -/
def bind : Prog Op Res α → (α → Prog Op Res β) → Prog Op Res β
  | ret a, f => f a
  | call op k, f => call op fun r => (k r).bind f

instance : Monad (Prog Op Res) where
  pure := ret
  bind := bind

/-- Issue one operation and return its result. -/
def perform (op : Op) : Prog Op Res (Res op) := call op ret

@[simp] theorem ret_eq_pure (a : α) : (ret a : Prog Op Res α) = pure a := rfl

theorem call_bind (op : Op) (k : Res op → Prog Op Res α) (f : α → Prog Op Res β) :
    (call op k >>= f) = call op fun r => k r >>= f := rfl

theorem bind_pure_right : ∀ p : Prog Op Res α, p.bind ret = p
  | ret _ => rfl
  | call op k => by
    simp only [bind]
    congr 1
    funext r
    exact bind_pure_right (k r)

theorem bind_assoc' : ∀ (p : Prog Op Res α) (f : α → Prog Op Res β) (g : β → Prog Op Res γ),
    (p.bind f).bind g = p.bind fun a => (f a).bind g
  | ret _, _, _ => rfl
  | call op k, f, g => by
    simp only [bind]
    congr 1
    funext r
    exact bind_assoc' (k r) f g

instance : LawfulMonad (Prog Op Res) :=
  LawfulMonad.mk' _ bind_pure_right (fun _ _ => rfl) bind_assoc'

/-! ## Execution with a handler -/

/-- Execute a program, each operation by the handler `h` on the state. -/
def exec (h : (op : Op) → σ → Res op × σ) : Prog Op Res α → σ → α × σ
  | ret a, s => (a, s)
  | call op k, s => (k (h op s).1).exec h (h op s).2

section Exec

variable (h : (op : Op) → σ → Res op × σ) (s : σ)

@[simp] theorem exec_pure (a : α) : (pure a : Prog Op Res α).exec h s = (a, s) := rfl

@[simp] theorem exec_call (op : Op) (k : Res op → Prog Op Res α) :
    (call op k).exec h s = (k (h op s).1).exec h (h op s).2 := rfl

@[simp] theorem exec_perform (op : Op) : (perform op : Prog Op Res (Res op)).exec h s = h op s :=
  rfl

@[simp] theorem exec_bind : ∀ (p : Prog Op Res α) (f : α → Prog Op Res β) (s : σ),
    (p >>= f).exec h s = (f (p.exec h s).1).exec h (p.exec h s).2
  | ret _, _, _ => rfl
  | call op k, f, s => by
    rw [call_bind, exec_call, exec_call]
    exact exec_bind (k (h op s).1) f (h op s).2

@[simp] theorem exec_map (f : α → β) (p : Prog Op Res α) :
    (f <$> p).exec h s = (f (p.exec h s).1, (p.exec h s).2) := by
  rw [map_eq_pure_bind, exec_bind, exec_pure]

theorem exec_ite (c : Prop) [Decidable c] (p q : Prog Op Res α) :
    (if c then p else q).exec h s = if c then p.exec h s else q.exec h s := by
  split <;> rfl

end Exec

end Prog

/-! ## Specifications and weakest preconditions -/

/-- What a proof may assume of the operations, and what it owes for them: `pre g op` must
hold where `op` is issued in ghost state `g`, and `post g op r g'` relates the result and
the ghost state afterwards. -/
structure Spec (Op : Type) (Res : Op → Type) (γ : Type) where
  pre : γ → Op → Prop
  post : γ → (op : Op) → Res op → γ → Prop

namespace Prog

/-- From ghost state `g`, every operation of the program meets its precondition and the
program ends with `Q`, whatever the results the specification allows. -/
def wp (S : Spec Op Res γ) : Prog Op Res α → (α → γ → Prop) → γ → Prop
  | ret a, Q, g => Q a g
  | call op k, Q, g => S.pre g op ∧ ∀ r g', S.post g op r g' → (k r).wp S Q g'

variable {S : Spec Op Res γ}

@[simp] theorem wp_pure (a : α) (Q : α → γ → Prop) (g : γ) :
    (pure a : Prog Op Res α).wp S Q g ↔ Q a g := Iff.rfl

@[simp] theorem wp_call (op : Op) (k : Res op → Prog Op Res α) (Q : α → γ → Prop) (g : γ) :
    (call op k).wp S Q g ↔ S.pre g op ∧ ∀ r g', S.post g op r g' → (k r).wp S Q g' := Iff.rfl

@[simp] theorem wp_perform (op : Op) (Q : Res op → γ → Prop) (g : γ) :
    (perform op).wp S Q g ↔ S.pre g op ∧ ∀ r g', S.post g op r g' → Q r g' := Iff.rfl

@[simp] theorem wp_bind : ∀ (p : Prog Op Res α) (f : α → Prog Op Res β) (Q : β → γ → Prop) (g : γ),
    (p >>= f).wp S Q g ↔ p.wp S (fun a g' => (f a).wp S Q g') g
  | ret _, _, _, _ => Iff.rfl
  | call op k, f, Q, g => by
    rw [call_bind, wp_call, wp_call]
    refine and_congr_right fun _ => forall₃_congr fun r g' _ => ?_
    exact wp_bind (k r) f Q g'

theorem wp_ite (c : Prop) [Decidable c] (p q : Prog Op Res α) (Q : α → γ → Prop) (g : γ) :
    (if c then p else q).wp S Q g ↔ (c → p.wp S Q g) ∧ (¬ c → q.wp S Q g) := by
  split <;> simp [*]

theorem wp_mono : ∀ {p : Prog Op Res α} {Q Q' : α → γ → Prop} {g : γ},
    p.wp S Q g → (∀ a g', Q a g' → Q' a g') → p.wp S Q' g
  | ret a, _, _, g, h, hQ => hQ a g h
  | call _ _, _, _, _, h, hQ => ⟨h.1, fun r g' hr => wp_mono (h.2 r g' hr) hQ⟩

/-- Use the proof about `p` where `p` is followed by `f`. -/
theorem wp_bind_of {p : Prog Op Res α} {f : α → Prog Op Res β} {Q : α → γ → Prop}
    {R : β → γ → Prop} {g : γ} (hp : p.wp S Q g) (hf : ∀ a g', Q a g' → (f a).wp S R g') :
    (p >>= f).wp S R g :=
  (wp_bind p f R g).mpr (wp_mono hp hf)

theorem wp_and : ∀ {p : Prog Op Res α} {Q Q' : α → γ → Prop} {g : γ},
    p.wp S Q g → p.wp S Q' g → p.wp S (fun a g' => Q a g' ∧ Q' a g') g
  | ret _, _, _, _, h, h' => ⟨h, h'⟩
  | call _ _, _, _, _, h, h' => ⟨h.1, fun r g' hr => wp_and (h.2 r g' hr) (h'.2 r g' hr)⟩

/-- What every operation keeps, whatever its result, every program keeps. -/
theorem wp_invariant {I : γ → Prop}
    (hop : ∀ g op, I g → S.pre g op ∧ ∀ r g', S.post g op r g' → I g') :
    ∀ (p : Prog Op Res α) {g : γ}, I g → p.wp S (fun _ g' => I g') g
  | ret _, _, hg => hg
  | call op k, _, hg =>
    ⟨(hop _ op hg).1, fun r g' hr => wp_invariant hop (k r) ((hop _ op hg).2 r g' hr)⟩

/-! ## Programs that issue certain operations only -/

/-- The operation that the program issues next, if any, meets `P`. -/
def NextOk (P : Op → Prop) : Prog Op Res α → Prop
  | ret _ => True
  | call op _ => P op

instance decidableNextOk (P : Op → Prop) [DecidablePred P] :
    (p : Prog Op Res α) → Decidable (p.NextOk P)
  | ret _ => .isTrue trivial
  | call op _ => inferInstanceAs (Decidable (P op))

/-- The program issues an operation next, which meets `P`. -/
def NextIs (P : Op → Prop) : Prog Op Res α → Prop
  | ret _ => False
  | call op _ => P op

instance decidableNextIs (P : Op → Prop) [DecidablePred P] :
    (p : Prog Op Res α) → Decidable (p.NextIs P)
  | ret _ => .isFalse id
  | call op _ => inferInstanceAs (Decidable (P op))

theorem eq_ret_of_not_nextIs :
    ∀ {p : Prog Op Res α}, ¬ p.NextIs (fun _ => True) → ∃ a, p = .ret a
  | ret a, _ => ⟨a, rfl⟩
  | call _ _, h => absurd trivial h

/-- Every operation that the program can issue meets `P`. -/
def Only (P : Op → Prop) : Prog Op Res α → Prop
  | ret _ => True
  | call op k => P op ∧ ∀ r, (k r).Only P

section Only

variable {P : Op → Prop}

theorem Only.pure (a : α) : (Pure.pure a : Prog Op Res α).Only P := trivial

theorem Only.perform {op : Op} (h : P op) : (Prog.perform op : Prog Op Res _).Only P :=
  ⟨h, fun _ => trivial⟩

theorem Only.bind : ∀ {p : Prog Op Res α} {f : α → Prog Op Res β}, p.Only P →
    (∀ a, (f a).Only P) → (p >>= f).Only P
  | ret a, _, _, hf => hf a
  | call _ _, _, hp, hf => ⟨hp.1, fun r => (hp.2 r).bind hf⟩

theorem Only.ite {c : Prop} [Decidable c] {p q : Prog Op Res α} (hp : p.Only P) (hq : q.Only P) :
    (if c then p else q).Only P := by
  split
  · exact hp
  · exact hq

theorem Only.map {p : Prog Op Res α} (hp : p.Only P) (f : α → β) : (f <$> p).Only P := by
  rw [map_eq_pure_bind]
  exact hp.bind fun _ => .pure _

/-- A program whose operations all meet their precondition needs no further proof. -/
theorem Only.wp (hS : ∀ g op, P op → S.pre g op) :
    ∀ {p : Prog Op Res α} (_ : p.Only P) (g : γ), p.wp S (fun _ _ => True) g
  | ret _, _, _ => trivial
  | call _ _, hp, g => ⟨hS g _ hp.1, fun r g' _ => (hp.2 r).wp hS g'⟩

end Only

/-! ## Reading a proof as a fact about executions -/

/-- The specification of a handler, its ghost state being the handler's state. -/
def handlerSpec (h : (op : Op) → σ → Res op × σ) (ok : σ → Op → Prop) : Spec Op Res σ where
  pre := ok
  post s op r s' := h op s = (r, s')

theorem exec_of_wp (h : (op : Op) → σ → Res op × σ) (ok : σ → Op → Prop) :
    ∀ (p : Prog Op Res α) {Q : α → σ → Prop} {s : σ},
    p.wp (handlerSpec h ok) Q s → Q (p.exec h s).1 (p.exec h s).2
  | .ret _, _, _, hp => hp
  | .call op k, _, s, hp => exec_of_wp h ok (k (h op s).1) (hp.2 _ (h op s).2 rfl)

@[simp] theorem wp_call_handler (h : (op : Op) → σ → Res op × σ) (ok : σ → Op → Prop) (op : Op)
    (k : Res op → Prog Op Res α) (Q : α → σ → Prop) (s : σ) :
    (call op k).wp (handlerSpec h ok) Q s ↔
      ok s op ∧ (k (h op s).1).wp (handlerSpec h ok) Q (h op s).2 := by
  refine and_congr_right fun _ => ⟨fun hk => hk _ _ rfl, ?_⟩
  rintro hk r s' heq
  rw [show h op s = (r, s') from heq] at hk
  exact hk

@[simp] theorem wp_perform_handler (h : (op : Op) → σ → Res op × σ) (ok : σ → Op → Prop) (op : Op)
    (Q : Res op → σ → Prop) (s : σ) :
    (perform op).wp (handlerSpec h ok) Q s ↔ ok s op ∧ Q (h op s).1 (h op s).2 :=
  wp_call_handler h ok op _ Q s

/-- The states that the execution goes through, from the first to the last. -/
def states (h : (op : Op) → σ → Res op × σ) : Prog Op Res α → σ → List σ
  | .ret _, s => [s]
  | .call op k, s => s :: (k (h op s).1).states h (h op s).2

theorem states_map (h : (op : Op) → σ → Res op × σ) (f : α → β) : ∀ (p : Prog Op Res α) (s : σ),
    (f <$> p).states h s = p.states h s
  | .ret _, _ => rfl
  | .call op k, s => congrArg (List.cons s) (states_map h f (k (h op s).1) (h op s).2)

/-- What holds where an operation is issued, and at the end, holds in all states. -/
theorem states_of_wp {h : (op : Op) → σ → Res op × σ} {I : σ → Prop} :
    ∀ {p : Prog Op Res α} {s : σ},
    p.wp (handlerSpec h fun s _ => I s) (fun _ s' => I s') s → ∀ s' ∈ p.states h s, I s'
  | .ret _, _, hp, _, hs' => List.mem_singleton.mp hs' ▸ hp
  | .call op k, s, hp, s', hs' => by
    rw [wp_call_handler] at hp
    rcases List.mem_cons.mp hs' with rfl | hs'
    · exact hp.1
    · exact states_of_wp hp.2 s' hs'

/-! ## Paths -/

/-- An operation with a result. -/
abbrev Event (Op : Type) (Res : Op → Type) := (op : Op) × Res op

/-- `p.Path tr a`: for the results in `tr`, the program issues exactly the operations of
`tr` and returns `a`. -/
inductive Path : Prog Op Res α → List (Event Op Res) → α → Prop
  | ret (a : α) : Path (.ret a) [] a
  | call {op : Op} {k : Res op → Prog Op Res α} {tr : List (Event Op Res)} {a : α} (r : Res op)
      (h : Path (k r) tr a) : Path (.call op k) (⟨op, r⟩ :: tr) a

theorem path_call_iff {op : Op} {k : Res op → Prog Op Res α} {tr : List (Event Op Res)} {a : α} :
    (call op k).Path tr a ↔ ∃ r tr', tr = ⟨op, r⟩ :: tr' ∧ (k r).Path tr' a := by
  constructor
  · rintro (_ | ⟨r, h⟩)
    exact ⟨r, _, rfl, h⟩
  · rintro ⟨r, tr', rfl, h⟩
    exact .call r h

/-- The path of the execution with a handler. -/
def trace (h : (op : Op) → σ → Res op × σ) : Prog Op Res α → σ → List (Event Op Res)
  | .ret _, _ => []
  | .call op k, s => ⟨op, (h op s).1⟩ :: (k (h op s).1).trace h (h op s).2

theorem path_trace (h : (op : Op) → σ → Res op × σ) : ∀ (p : Prog Op Res α) (s : σ),
    p.Path (p.trace h s) (p.exec h s).1
  | .ret a, _ => .ret a
  | .call op k, s => .call (h op s).1 (path_trace h (k (h op s).1) (h op s).2)

theorem trace_bind (h : (op : Op) → σ → Res op × σ) (f : α → Prog Op Res β) :
    ∀ (p : Prog Op Res α) (s : σ), (p >>= f).trace h s =
      p.trace h s ++ (f (p.exec h s).1).trace h (p.exec h s).2
  | .ret _, _ => rfl
  | .call op k, s =>
    congrArg (List.cons (⟨op, (h op s).1⟩ : Event Op Res)) (trace_bind h f (k (h op s).1)
      (h op s).2)

theorem Only.of_mem_trace {P : Op → Prop} (h : (op : Op) → σ → Res op × σ) :
    ∀ {p : Prog Op Res α}, p.Only P → ∀ (s : σ), ∀ ev ∈ p.trace h s, P ev.1
  | .ret _, _, _, _, hev => absurd hev List.not_mem_nil
  | .call op k, hp, s, ev, hev => by
    rcases List.mem_cons.mp hev with rfl | hev
    · exact hp.1
    · exact of_mem_trace h (hp.2 _) _ ev hev

/-- The specification that lets a monitor watch the operations and their results. -/
def monitorSpec (m : γ → Event Op Res → γ) : Spec Op Res γ where
  pre _ _ := True
  post g op r g' := g' = m g ⟨op, r⟩

/-- A proof against a monitor is a fact about the monitor's state after every path. -/
theorem wp_monitor_iff (m : γ → Event Op Res → γ) :
    ∀ (p : Prog Op Res α) (Q : α → γ → Prop) (g : γ),
    p.wp (monitorSpec m) Q g ↔ ∀ tr a, p.Path tr a → Q a (tr.foldl m g)
  | .ret a, Q, g => by
    constructor
    · rintro h tr b ⟨⟩
      exact h
    · intro h
      exact h [] a (.ret a)
  | .call op k, Q, g => by
    constructor
    · rintro ⟨-, h⟩ tr b (_ | ⟨r, hp⟩)
      exact (wp_monitor_iff m (k r) Q _).mp (h r _ rfl) _ b hp
    · refine fun h => ⟨trivial, ?_⟩
      rintro r _ rfl
      exact (wp_monitor_iff m (k r) Q _).mpr fun tr b hp => h (⟨op, r⟩ :: tr) b (.call r hp)

/-- A monitor that drops the results after which its state does not meet `ok`. -/
def watchSpec (m : γ → Event Op Res → γ) (ok : γ → Prop) : Spec Op Res γ where
  pre _ _ := True
  post g op r g' := g' = m g ⟨op, r⟩ ∧ ok g'

theorem foldl_ok {m : γ → Event Op Res → γ} {ok : γ → Prop}
    (hok : ∀ g ev, ok (m g ev) → ok g) : ∀ {tr : List (Event Op Res)} {g : γ},
    ok (tr.foldl m g) → ok g
  | [], _, h => h
  | _ :: _, _, h => hok _ _ (foldl_ok hok h)

/-- A proof against such a monitor is a fact about the paths that end in a state that meets
`ok`, if no state that meets `ok` comes after one that does not. -/
theorem of_wp_watch {m : γ → Event Op Res → γ} {ok : γ → Prop}
    (hok : ∀ g ev, ok (m g ev) → ok g) : ∀ {p : Prog Op Res α} {Q : α → γ → Prop} {g : γ},
    p.wp (watchSpec m ok) Q g → ∀ {tr : List (Event Op Res)} {a : α}, p.Path tr a →
    ok (tr.foldl m g) → Q a (tr.foldl m g)
  | _, _, _, h, _, _, .ret _, _ => h
  | _, _, _, h, _, _, .call r hp, hend =>
    of_wp_watch hok (h.2 r _ ⟨rfl, foldl_ok hok hend⟩) hp hend

/-! ## Two specifications at once -/

variable {γ' : Type}

/-- Both specifications, with a ghost state for each. -/
def prodSpec (S : Spec Op Res γ) (S' : Spec Op Res γ') : Spec Op Res (γ × γ') where
  pre g op := S.pre g.1 op ∧ S'.pre g.2 op
  post g op r g' := S.post g.1 op r g'.1 ∧ S'.post g.2 op r g'.2

/-- Proofs against two specifications are one against both. -/
theorem wp_prod {S : Spec Op Res γ} {S' : Spec Op Res γ'} : ∀ {p : Prog Op Res α}
    {Q : α → γ → Prop} {Q' : α → γ' → Prop} {g : γ} {g' : γ'}, p.wp S Q g → p.wp S' Q' g' →
    p.wp (prodSpec S S') (fun a x => Q a x.1 ∧ Q' a x.2) (g, g')
  | ret _, _, _, _, _, h, h' => ⟨h, h'⟩
  | call _ _, _, _, _, _, h, h' =>
    ⟨⟨h.1, h'.1⟩, fun r x hr => wp_prod (h.2 r x.1 hr.1) (h'.2 r x.2 hr.2)⟩

end Prog

end ProgLogic
