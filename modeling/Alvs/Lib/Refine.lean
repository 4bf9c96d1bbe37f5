import Alvs.Lib.Local

/-!
# Refinement of programs

A program over one set of operations refines a program over another one if both issue the same
operations, seen through a map of the events. `Refines.path` : every path of the finer program is,
through the map, a path of the coarser one, so that what holds on every path of the coarser program
holds on every path of the finer one.

`LProg.Refines` is the same for programs with local states, related by `S`. `Prog.embed` lets a
program be part of one over more operations. `Steps` : the runs of a relation with labels.
-/

namespace ProgLogic

variable {Op Op' : Type} {Res : Op → Type} {Res' : Op' → Type} {α β γ δ L L' : Type}

namespace Prog

/-- The events of `p` are mapped by `f` to those of `q`, and the results are related by `R`. -/
def Refines (f : Event Op Res → Event Op' Res') (R : α → β → Prop) :
    Prog Op Res α → Prog Op' Res' β → Prop
  | ret a, q => ∃ b, q = ret b ∧ R a b
  | call op k, q => ∃ op' k', q = call op' k' ∧
      ∀ r, ∃ r', f ⟨op, r⟩ = ⟨op', r'⟩ ∧ (k r).Refines f R (k' r')

section Rules

variable {f : Event Op Res → Event Op' Res'} {R : α → β → Prop} {R' : γ → δ → Prop}

theorem Refines.pure {a : α} {b : β} (h : R a b) :
    (Pure.pure a : Prog Op Res α).Refines f R (Pure.pure b : Prog Op' Res' β) := ⟨b, rfl, h⟩

theorem Refines.bind : ∀ {p : Prog Op Res α} {q : Prog Op' Res' β} {k : α → Prog Op Res γ}
    {k' : β → Prog Op' Res' δ}, p.Refines f R q →
    (∀ a b, R a b → (k a).Refines f R' (k' b)) → (p >>= k).Refines f R' (q >>= k')
  | ret a, _, _, _, h, hk => by
    obtain ⟨b, rfl, hab⟩ := h
    exact hk a b hab
  | call op g, _, _, _, h, hk => by
    obtain ⟨op', g', rfl, hg⟩ := h
    refine ⟨op', _, rfl, fun r => ?_⟩
    obtain ⟨r', hr, hrest⟩ := hg r
    exact ⟨r', hr, hrest.bind hk⟩

/-- A path of the finer program, through the map, is one of the coarser program. -/
theorem Refines.path : ∀ {p : Prog Op Res α} {q : Prog Op' Res' β}, p.Refines f R q →
    ∀ {tr : List (Event Op Res)} {a : α}, p.Path tr a → ∃ b, q.Path (tr.map f) b ∧ R a b
  | ret _, _, h, _, _, .ret _ => by
    obtain ⟨b, rfl, hab⟩ := h
    exact ⟨b, .ret b, hab⟩
  | call _ _, _, h, _, _, .call r hp => by
    obtain ⟨op', k', rfl, hk⟩ := h
    obtain ⟨r', hr, hrest⟩ := hk r
    obtain ⟨b, hb, hab⟩ := hrest.path hp
    refine ⟨b, ?_, hab⟩
    rw [List.map_cons, hr]
    exact .call r' hb

end Rules

/-! ## Embedding -/

/-- The program over more operations : `f` names an operation among these, and `back` reads its
result. -/
def embed (f : Op → Op') (back : ∀ op, Res' (f op) → Res op) :
    Prog Op Res α → Prog Op' Res' α
  | ret a => ret a
  | call op k => call (f op) fun r => (k (back op r)).embed f back

/-- Where the operations do the same, so does the program. -/
theorem exec_embed {σ : Type} {f : Op → Op'} {back : ∀ op, Res' (f op) → Res op}
    {h : (op : Op) → σ → Res op × σ} {h' : (op : Op') → σ → Res' op × σ}
    (hh : ∀ op s, (back op (h' (f op) s).1, (h' (f op) s).2) = h op s) :
    ∀ (p : Prog Op Res α) (s : σ), (p.embed f back).exec h' s = p.exec h s
  | ret _, _ => rfl
  | call op k, s => by
    have hop := hh op s
    rw [exec_call, ← hop]
    exact exec_embed hh (k (back op (h' (f op) s).1)) (h' (f op) s).2

end Prog

namespace LProg

/-- From related local states, `x` refines `y`, with results related by `R` and again related
local states. -/
def Refines (f : Prog.Event Op Res → Prog.Event Op' Res') (S : L → L' → Prop) (R : α → β → Prop)
    (x : LProg Op Res L α) (y : LProg Op' Res' L' β) : Prop :=
  ∀ l l', S l l' → (x.run l).Refines f (fun r r' => R r.1 r'.1 ∧ S r.2 r'.2) (y.run l')

namespace Refines

variable {f : Prog.Event Op Res → Prog.Event Op' Res'} {S : L → L' → Prop} {R : α → β → Prop}
  {R' : γ → δ → Prop}

theorem pure {a : α} {b : β} (h : R a b) :
    Refines f S R (Pure.pure a : LProg Op Res L α) (Pure.pure b : LProg Op' Res' L' β) :=
  fun _ _ hs => Prog.Refines.pure ⟨h, hs⟩

theorem bind {x : LProg Op Res L α} {y : LProg Op' Res' L' β} {k : α → LProg Op Res L γ}
    {k' : β → LProg Op' Res' L' δ} (h : Refines f S R x y)
    (hk : ∀ a b, R a b → Refines f S R' (k a) (k' b)) : Refines f S R' (x >>= k) (y >>= k') := by
  intro l l' hs
  rw [StateT.run_bind, StateT.run_bind]
  exact (h l l' hs).bind fun a b hab => hk a.1 b.1 hab.1 a.2 b.2 hab.2

theorem of_call {op : Op} {op' : Op'} {R : Res op → Res' op' → Prop}
    (h : ∀ r, ∃ r', f ⟨op, r⟩ = ⟨op', r'⟩ ∧ R r r') :
    Refines f S R (LProg.call op : LProg Op Res L _) (LProg.call op' : LProg Op' Res' L' _) := by
  intro l l' hs
  refine ⟨op', _, rfl, fun r => ?_⟩
  obtain ⟨r', hr, hrr⟩ := h r
  exact ⟨r', hr, _, rfl, hrr, hs⟩

theorem of_modify {g : L → L} {g' : L' → L'} (h : ∀ l l', S l l' → S (g l) (g' l')) :
    Refines f S (fun _ _ => True) (modify g : LProg Op Res L PUnit)
      (modify g' : LProg Op' Res' L' PUnit) :=
  fun l l' hs => Prog.Refines.pure ⟨trivial, h l l' hs⟩

/-- A change of the finer local state only. -/
theorem modify_bind {g : L → L} {x : LProg Op Res L α} {y : LProg Op' Res' L' β}
    (h : ∀ l l', S l l' → S (g l) l') (hx : Refines f S R x y) :
    Refines f S R (modify g >>= fun _ => x) y :=
  fun l l' hs => hx (g l) l' (h l l' hs)

/-- Both programs read their local state. -/
theorem get_bind {k : L → LProg Op Res L α} {k' : L' → LProg Op' Res' L' β}
    (h : ∀ m m', S m m' → Refines f S R (k m) (k' m')) :
    Refines f S R (get >>= k) (get >>= k') :=
  fun l l' hs => h l l' hs l l' hs

/-- Only the finer program reads its local state. -/
theorem get_bind_left {k : L → LProg Op Res L α} {y : LProg Op' Res' L' β}
    (h : ∀ m, Refines f S R (k m) y) : Refines f S R (get >>= k) y :=
  fun l l' hs => h l l l' hs

theorem ite {c : Prop} [Decidable c] {x x' : LProg Op Res L α} {y y' : LProg Op' Res' L' β}
    (h : Refines f S R x y) (h' : Refines f S R x' y') :
    Refines f S R (if c then x else x') (if c then y else y') := by
  split
  · exact h
  · exact h'

end Refines

end LProg

/-! ## Runs of a relation -/

section Steps

variable {S A : Type} {step : S → A → S → Prop} {s s' s'' : S} {a : A} {as bs : List A}

/-- `s` becomes `s'` by steps with the labels, in their order. -/
inductive Steps (step : S → A → S → Prop) : S → List A → S → Prop
  | nil (s : S) : Steps step s [] s
  | cons {s s' s'' : S} {a : A} {as : List A} (h : step s a s') (hs : Steps step s' as s'') :
    Steps step s (a :: as) s''

theorem Steps.single (h : step s a s') : Steps step s [a] s' := .cons h (.nil s')

theorem Steps.append (h : Steps step s as s') (h' : Steps step s' bs s'') :
    Steps step s (as ++ bs) s'' := by
  induction h with
  | nil => exact h'
  | cons hstep _ ih => exact .cons hstep (ih h')

/-- What every step keeps, a run keeps. -/
theorem Steps.invariant {I : S → Prop} (hstep : ∀ s a s', I s → step s a s' → I s')
    (h : Steps step s as s') (hs : I s) : I s' := by
  induction h with
  | nil => exact hs
  | cons ha _ ih => exact ih (hstep _ _ _ hs ha)

end Steps

end ProgLogic
