import Alvs.Lib.Local

/-!
# Executions with a monitor

`Prog.traceEnv` : the operations of an execution with environments, and their results.

A proof against a handler and a monitor at once (`Prog.prodSpec`) is a fact about the state after
an execution and about the monitor after its trace (`Prog.execEnv_of_wp_prod`). Where the program
issues no operation that moves the monitor, a proof against the handler is enough
(`LProg.Makes.wp_prod`).
-/

namespace ProgLogic

variable {Op : Type} {Res : Op → Type} {L α γ σ Env : Type}

namespace Prog

/-- A proof against a specification is one against every specification that asks for less and
allows less. -/
theorem wp_of_stronger {S S' : Spec Op Res γ} (hpre : ∀ g op, S.pre g op → S'.pre g op)
    (hpost : ∀ g op r g', S'.post g op r g' → S.post g op r g') : ∀ {p : Prog Op Res α}
    {Q : α → γ → Prop} {g : γ}, p.wp S Q g → p.wp S' Q g
  | ret _, _, _, h => h
  | call op _, _, g, h =>
    ⟨hpre g op h.1, fun r g' hr => wp_of_stronger hpre hpost (h.2 r g' (hpost g op r g' hr))⟩

/-- The path of an execution, whose `n`-th operation has environment `es n`. -/
def traceEnv (h : Env → (op : Op) → σ → Res op × σ) :
    Prog Op Res α → (Nat → Env) → σ → List (Event Op Res)
  | ret _, _, _ => []
  | call op k, es, s =>
    ⟨op, (h (es 0) op s).1⟩ ::
      (k (h (es 0) op s).1).traceEnv h (fun n => es (n + 1)) (h (es 0) op s).2

/-- Executions with a handler, watched by a monitor. -/
abbrev watchedSpec (h : Env → (op : Op) → σ → Res op × σ) (ok : Env → Op → σ → Prop)
    (m : γ → Event Op Res → γ) : Spec Op Res (σ × γ) := prodSpec (envSpec h ok) (monitorSpec m)

variable {h : Env → (op : Op) → σ → Res op × σ} {ok : Env → Op → σ → Prop}
  {m : γ → Event Op Res → γ}

section Environments

variable {ok' : Env → Op → σ → Prop} (hok : ∀ e op s, ok' e op s → ok e op s)
include hok

/-- A proof for some environments is one for fewer of them. -/
theorem wp_env_mono {p : Prog Op Res α} {Q : α → σ → Prop} {s : σ} (hp : p.wp (envSpec h ok) Q s) :
    p.wp (envSpec h ok') Q s := by
  have hpost : ∀ s op r s', (envSpec h ok').post s op r s' → (envSpec h ok).post s op r s' := by
    rintro s op r s' ⟨e, he, heq⟩
    exact ⟨e, hok e op s he, heq⟩
  exact wp_of_stronger (fun _ _ _ => trivial) hpost hp

theorem wp_watched_mono {p : Prog Op Res α} {Q : α → σ × γ → Prop} {x : σ × γ}
    (hp : p.wp (watchedSpec h ok m) Q x) : p.wp (watchedSpec h ok' m) Q x := by
  have hpost : ∀ x op r x', (watchedSpec h ok' m).post x op r x' →
      (watchedSpec h ok m).post x op r x' := by
    rintro x op r x' ⟨⟨e, he, heq⟩, hx'⟩
    exact ⟨⟨e, hok e op x.1 he, heq⟩, hx'⟩
  exact wp_of_stronger (fun _ _ _ => And.intro trivial trivial) hpost hp

end Environments

theorem execEnv_of_wp_prod : ∀ (p : Prog Op Res α) {Q : α → σ × γ → Prop} {es : Nat → Env} {s : σ}
    {g : γ}, p.wp (watchedSpec h ok m) Q (s, g) → p.CallsOk ok h es s →
    Q (p.execEnv h es s).1 ((p.execEnv h es s).2, (p.traceEnv h es s).foldl m g)
  | ret _, _, _, _, _, hp, _ => hp
  | call op k, _, es, s, g, hp, hok =>
    execEnv_of_wp_prod (k (h (es 0) op s).1)
      (hp.2 (h (es 0) op s).1 ((h (es 0) op s).2, m g ⟨op, (h (es 0) op s).1⟩)
        ⟨⟨es 0, hok.1, rfl⟩, rfl⟩) hok.2

end Prog

namespace LProg

variable {h : Env → (op : Op) → σ → Res op × σ} {ok : Env → Op → σ → Prop}
  {m : γ → Prog.Event Op Res → γ} {s : σ} {l : L} {g : γ}

/-- Two proofs about one program. -/
theorem wp_and {S : Spec Op Res γ} {x : LProg Op Res L α} {Q Q' : α → L → γ → Prop}
    (hx : x.wp S Q l g) (hx' : x.wp S Q' l g) :
    x.wp S (fun a l' g' => Q a l' g' ∧ Q' a l' g') l g := Prog.wp_and hx hx'

/-- A call whose result the monitor reads. -/
theorem wp_call_watched (op : Op) (Q : Res op → L → σ × γ → Prop) :
    (call op : LProg Op Res L (Res op)).wp (Prog.watchedSpec h ok m) Q l (s, g) ↔
      ∀ e, ok e op s → Q (h e op s).1 l ((h e op s).2, m g ⟨op, (h e op s).1⟩) := by
  constructor
  · exact fun hwp e he => hwp.2 _ (_, _) ⟨⟨e, he, rfl⟩, rfl⟩
  · intro hQ
    refine ⟨⟨trivial, trivial⟩, ?_⟩
    rintro r ⟨s', g'⟩ ⟨⟨e, he, heq⟩, hg⟩
    obtain rfl : g' = m g ⟨op, r⟩ := hg
    have hq := hQ e he
    rwa [heq] at hq

/-- A proof about the state and one about the monitor. -/
theorem wp_watched {x : LProg Op Res L α} {Q : α → L → σ → Prop} {Q' : α → L → γ → Prop}
    (hx : x.wp (Prog.envSpec h ok) Q l s) (hx' : x.wp (Prog.monitorSpec m) Q' l g) :
    x.wp (Prog.watchedSpec h ok m) (fun a l' y => Q a l' y.1 ∧ Q' a l' y.2) l (s, g) :=
  Prog.wp_prod hx hx'

/-- The operations that meet `P` do not move the monitor. -/
theorem Makes.wp_prod {P : Op → Prop} {R : L → L → Prop} {x : LProg Op Res L α}
    (hx : x.Makes P R) (hm : Silent (Prog.monitorSpec m) P) {Q : α → L → σ → Prop}
    (hwp : x.wp (Prog.envSpec h ok) Q l s) :
    x.wp (Prog.watchedSpec h ok m) (fun a l' y => Q a l' y.1 ∧ y.2 = g) l (s, g) :=
  wp_mono (wp_watched hwp (hx.wp hm l g)) fun _ _ _ hy => ⟨hy.1, hy.2.2⟩

end LProg

end ProgLogic
