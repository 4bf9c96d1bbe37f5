import Alvs.Lib.Local

/-!
# Two executions in lockstep

Two programs run in lockstep if, whatever the results, they issue the same operations.
`Prog.Lockstep.exec` reads this as a fact about two executions from one state : they reach
the same state.

`LProg.Coupled I x J` runs one program in lockstep from two local states that are related
by `I`, and ends in local states that are related by `J`; so `I` lists what the program
reads of the local state before it writes it. The rules follow the program as those of
`LProg.wp` do.
-/

namespace ProgLogic

variable {Op : Type} {Res : Op → Type} {L α β δ ε σ : Type}

namespace Prog

/-- The programs issue the same operations and return values related by `R`. -/
inductive Lockstep (R : α → β → Prop) : Prog Op Res α → Prog Op Res β → Prop
  | ret {a : α} {b : β} (h : R a b) : Lockstep R (.ret a) (.ret b)
  | call {op : Op} {k : Res op → Prog Op Res α} {k' : Res op → Prog Op Res β}
      (h : ∀ r, Lockstep R (k r) (k' r)) : Lockstep R (.call op k) (.call op k')

namespace Lockstep

variable {R : α → β → Prop} {T : δ → ε → Prop}

theorem bind {p : Prog Op Res α} {q : Prog Op Res β} (h : Lockstep R p q)
    {f : α → Prog Op Res δ} {g : β → Prog Op Res ε} (hf : ∀ a b, R a b → Lockstep T (f a) (g b)) :
    Lockstep T (p >>= f) (q >>= g) := by
  induction h with
  | ret h => exact hf _ _ h
  | call _ ih => exact .call ih

theorem mono {R' : α → β → Prop} {p : Prog Op Res α} {q : Prog Op Res β} (h : Lockstep R p q)
    (hR : ∀ a b, R a b → R' a b) : Lockstep R' p q := by
  induction h with
  | ret h => exact .ret (hR _ _ h)
  | call _ ih => exact .call ih

/-- Executions from one state reach the same state and return related values. -/
theorem exec (h : (op : Op) → σ → Res op × σ) {p : Prog Op Res α} {q : Prog Op Res β}
    (hpq : Lockstep R p q) (s : σ) :
    R (p.exec h s).1 (q.exec h s).1 ∧ (p.exec h s).2 = (q.exec h s).2 := by
  induction hpq generalizing s with
  | ret hR => exact ⟨hR, rfl⟩
  | call _ ih => exact ih _ _

end Lockstep

end Prog

namespace LProg

/-- From local states related by `I`, the program issues the same operations, returns the
same value and ends in local states that are related by `J` of the value. -/
def Coupled (I : L → L → Prop) (x : LProg Op Res L α) (J : α → L → L → Prop) : Prop :=
  ∀ l₁ l₂, I l₁ l₂ →
    Prog.Lockstep (fun a b => a.1 = b.1 ∧ J a.1 a.2 b.2) (x.run l₁) (x.run l₂)

/-- The program also keeps the relation. -/
abbrev Steady (I : L → L → Prop) (x : LProg Op Res L α) : Prop := Coupled I x fun _ => I

namespace Coupled

variable {I : L → L → Prop} {J : α → L → L → Prop} {K : β → L → L → Prop}

theorem of_imp {I' : L → L → Prop} {x : LProg Op Res L α} (h : Coupled I x J)
    (hI : ∀ l₁ l₂, I' l₁ l₂ → I l₁ l₂) : Coupled I' x J := fun l₁ l₂ hl => h l₁ l₂ (hI l₁ l₂ hl)

theorem mono {J' : α → L → L → Prop} {x : LProg Op Res L α} (h : Coupled I x J)
    (hJ : ∀ a l₁ l₂, J a l₁ l₂ → J' a l₁ l₂) : Coupled I x J' := fun l₁ l₂ hl =>
  (h l₁ l₂ hl).mono fun _ _ hr => ⟨hr.1, hJ _ _ _ hr.2⟩

theorem of_pure {a : α} (h : ∀ l₁ l₂, I l₁ l₂ → J a l₁ l₂) :
    Coupled I (pure a : LProg Op Res L α) J := fun l₁ l₂ hl => .ret ⟨rfl, h l₁ l₂ hl⟩

theorem of_call (op : Op) : Steady I (call op : LProg Op Res L _) := fun _ _ hl =>
  .call fun _ => .ret ⟨rfl, hl⟩

theorem of_modify {f : L → L} {J : L → L → Prop} (h : ∀ l₁ l₂, I l₁ l₂ → J (f l₁) (f l₂)) :
    Coupled I (modify f : LProg Op Res L PUnit) fun _ => J := fun l₁ l₂ hl => .ret ⟨rfl, h l₁ l₂ hl⟩

theorem bind {x : LProg Op Res L α} {f : α → LProg Op Res L β} (hx : Coupled I x J)
    (hf : ∀ a, Coupled (J a) (f a) K) : Coupled I (x >>= f) K := fun l₁ l₂ hl => by
  rw [StateT.run_bind, StateT.run_bind]
  refine (hx l₁ l₂ hl).bind ?_
  rintro ⟨a, l₁'⟩ ⟨_, l₂'⟩ ⟨rfl, hl'⟩
  exact hf a l₁' l₂' hl'

/-- What is read of the local state must be the same in related ones. -/
theorem get_bind_eq {f : L → LProg Op Res L β} (hdep : ∀ l₁ l₂, I l₁ l₂ → f l₁ = f l₂)
    (hf : ∀ m, Coupled (fun l₁ l₂ => I l₁ l₂ ∧ l₁ = m) (f m) K) :
    Coupled I (get >>= f : LProg Op Res L β) K := fun l₁ l₂ hl => by
  change Prog.Lockstep _ ((f l₁).run l₁) ((f l₂).run l₂)
  rw [← hdep l₁ l₂ hl]
  exact hf l₁ l₁ l₂ ⟨hl, rfl⟩

theorem get_bind {f : L → LProg Op Res L β} (hdep : ∀ l₁ l₂, I l₁ l₂ → f l₁ = f l₂)
    (hf : ∀ m, Coupled I (f m) K) : Coupled I (get >>= f : LProg Op Res L β) K :=
  get_bind_eq hdep fun m l₁ l₂ hl => hf m l₁ l₂ hl.1

theorem ite {c : Prop} [Decidable c] {x y : LProg Op Res L α} (hx : c → Coupled I x J)
    (hy : ¬ c → Coupled I y J) : Coupled I (if c then x else y) J := by
  split
  next h => exact hx h
  next h => exact hy h

theorem of_discard {x : LProg Op Res L α} (hx : Steady I x) : Steady I (discard x) :=
  hx.bind fun _ => .of_pure fun _ _ hl => hl

/-- Two executions of `x` and `f` reach the same state if those of `f` do, from what the
executions of `x` reach. -/
theorem exec_bind {x : LProg Op Res L α} {f : α → LProg Op Res L β} (hx : Coupled I x J)
    (h : (op : Op) → σ → Res op × σ) {l₁ l₂ : L} (hl : I l₁ l₂) {s : σ}
    (hf : ∀ a m₁ m₂ s', (x.run l₁).exec h s = ((a, m₁), s') → J a m₁ m₂ →
      (((f a).run m₁).exec h s').2 = (((f a).run m₂).exec h s').2) :
    (((x >>= f).run l₁).exec h s).2 = (((x >>= f).run l₂).exec h s).2 := by
  obtain ⟨⟨ha, hJ⟩, hs⟩ := (hx l₁ l₂ hl).exec h s
  rw [StateT.run_bind, StateT.run_bind, Prog.exec_bind, Prog.exec_bind, ← ha, ← hs]
  exact hf _ _ _ _ rfl hJ

end Coupled

end LProg

end ProgLogic
