import Alvs.Lib.Prog
import Mathlib.Order.Defs.Unbundled

/-!
# Programs with a local state

A thread's program also reads and writes memory of its own, which no operation sees. Such
a program is a state transformer over `Prog`, and its weakest precondition `LProg.wp` has
the local state and the ghost state of the operations as arguments. The rules are those of
`Prog.wp`, with one more for each access of the local state.

`Prog.execEnv` executes a program where each operation takes an environment that settles
what the operation leaves open, and `Prog.execEnv_of_wp` reads a proof as a fact about
such executions.
-/

namespace ProgLogic

variable {Op : Type} {Res : Op → Type} {L α β γ σ Env : Type}

/-- A program over the operations `Op` with local state `L`. -/
abbrev LProg (Op : Type) (Res : Op → Type) (L : Type) := StateT L (Prog Op Res)

namespace LProg

/-- Issue one operation. -/
def call (op : Op) : LProg Op Res L (Res op) := StateT.lift (Prog.perform op)

/-- From local state `l` and ghost state `g`, every operation meets its precondition and the
program ends with `Q`. -/
def wp (S : Spec Op Res γ) (x : LProg Op Res L α) (Q : α → L → γ → Prop) (l : L) (g : γ) : Prop :=
  (x.run l).wp S (fun r g' => Q r.1 r.2 g') g

section Rules

variable {S : Spec Op Res γ} {l : L} {g : γ}

@[simp] theorem wp_pure (a : α) (Q : α → L → γ → Prop) :
    (pure a : LProg Op Res L α).wp S Q l g ↔ Q a l g := Iff.rfl

@[simp] theorem wp_bind (x : LProg Op Res L α) (f : α → LProg Op Res L β)
    (Q : β → L → γ → Prop) :
    (x >>= f).wp S Q l g ↔ x.wp S (fun a l' g' => (f a).wp S Q l' g') l g := by
  simp only [wp, StateT.run_bind, Prog.wp_bind]

@[simp] theorem wp_map (f : α → β) (x : LProg Op Res L α) (Q : β → L → γ → Prop) :
    (f <$> x).wp S Q l g ↔ x.wp S (fun a l' g' => Q (f a) l' g') l g := by
  rw [map_eq_pure_bind, wp_bind]
  rfl

@[simp] theorem wp_get (Q : L → L → γ → Prop) :
    (get : LProg Op Res L L).wp S Q l g ↔ Q l l g := Iff.rfl

@[simp] theorem wp_modify (f : L → L) (Q : PUnit → L → γ → Prop) :
    (modify f : LProg Op Res L PUnit).wp S Q l g ↔ Q ⟨⟩ (f l) g := Iff.rfl

@[simp] theorem wp_call (op : Op) (Q : Res op → L → γ → Prop) :
    (call op : LProg Op Res L (Res op)).wp S Q l g ↔
      S.pre g op ∧ ∀ r g', S.post g op r g' → Q r l g' := Iff.rfl

theorem wp_ite (c : Prop) [Decidable c] (x y : LProg Op Res L α) (Q : α → L → γ → Prop) :
    (if c then x else y).wp S Q l g ↔ (c → x.wp S Q l g) ∧ (¬ c → y.wp S Q l g) := by
  split <;> simp_all

theorem wp_mono {x : LProg Op Res L α} {Q Q' : α → L → γ → Prop} (h : x.wp S Q l g)
    (hQ : ∀ a l' g', Q a l' g' → Q' a l' g') : x.wp S Q' l g :=
  Prog.wp_mono h fun r g' => hQ r.1 r.2 g'

/-- Use the proof about `x` where `x` is followed by `f`. -/
theorem wp_bind_of {x : LProg Op Res L α} {f : α → LProg Op Res L β} {Q : α → L → γ → Prop}
    {R : β → L → γ → Prop} (hx : x.wp S Q l g)
    (hf : ∀ a l' g', Q a l' g' → (f a).wp S R l' g') : (x >>= f).wp S R l g :=
  (wp_bind x f R).mpr (wp_mono hx hf)

end Rules

/-! ## Operations that leave the ghost state -/

/-- Every operation must meet `P`; nothing is known of its result. -/
def onlySpec (P : Op → Prop) : Spec Op Res Unit where
  pre _ op := P op
  post _ _ _ _ := True

@[simp] theorem onlySpec_pre {P : Op → Prop} {g : Unit} {op : Op} :
    (onlySpec P : Spec Op Res Unit).pre g op ↔ P op := Iff.rfl

@[simp] theorem onlySpec_post {P : Op → Prop} {g g' : Unit} {op : Op} {r : Res op} :
    (onlySpec P : Spec Op Res Unit).post g op r g' ↔ True := Iff.rfl

/-- From a ghost state in `I`, the operations that meet `P` owe nothing and leave the ghost
state as it is. -/
def SilentOn (S : Spec Op Res γ) (I : γ → Prop) (P : Op → Prop) : Prop :=
  ∀ g op, I g → P op → S.pre g op ∧ ∀ r g', S.post g op r g' → g' = g

theorem Prog.wp_of_only_on {S : Spec Op Res γ} {I : γ → Prop} {P : Op → Prop}
    (hS : SilentOn S I P) : ∀ {p : Prog Op Res α} {Q : α → Prop}
      (_ : p.wp (onlySpec P) (fun a _ => Q a) ()) {g : γ}, I g → p.wp S (fun a g' => Q a ∧ g' = g) g
  | .ret _, _, h, _, _ => ⟨h, rfl⟩
  | .call op k, Q, h, g, hg => by
    obtain ⟨hpre, hpost⟩ := hS g op hg h.1
    refine ⟨hpre, fun r g' hr => ?_⟩
    obtain rfl := hpost r g' hr
    exact Prog.wp_of_only_on hS (h.2 r () trivial) hg

theorem Prog.wp_of_only_keeps {S : Spec Op Res γ} {I : γ → Prop} {P : Op → Prop}
    (hop : ∀ g op, I g → P op → S.pre g op ∧ ∀ r g', S.post g op r g' → I g') :
    ∀ {p : Prog Op Res α} {Q : α → Prop} (_ : p.wp (onlySpec P) (fun a _ => Q a) ()) {g : γ},
      I g → p.wp S (fun a g' => Q a ∧ I g') g
  | .ret _, _, h, _, hg => ⟨h, hg⟩
  | .call op k, _, h, g, hg => by
    obtain ⟨hpre, hpost⟩ := hop g op hg h.1
    exact ⟨hpre, fun r g' hr => Prog.wp_of_only_keeps hop (h.2 r () trivial) (hpost r g' hr)⟩

/-- The operations that meet `P` owe nothing and leave the ghost state as it is. -/
def Silent (S : Spec Op Res γ) (P : Op → Prop) : Prop :=
  ∀ g op, P op → S.pre g op ∧ ∀ r g', S.post g op r g' → g' = g

theorem Silent.on {S : Spec Op Res γ} {P : Op → Prop} (hS : Silent S P) :
    SilentOn S (fun _ => True) P := fun g op _ hop => hS g op hop

theorem Prog.wp_of_only {S : Spec Op Res γ} {P : Op → Prop} (hS : Silent S P)
    {p : Prog Op Res α} {Q : α → Prop} (h : p.wp (onlySpec P) (fun a _ => Q a) ()) (g : γ) :
    p.wp S (fun a g' => Q a ∧ g' = g) g :=
  Prog.wp_of_only_on hS.on h trivial

/-- A program whose operations are all silent leaves the ghost state as it is. -/
theorem wp_of_only {S : Spec Op Res γ} {P : Op → Prop} (hS : Silent S P) {x : LProg Op Res L α}
    {Q : α → L → Prop} {l : L} (h : x.wp (onlySpec P) (fun a l' _ => Q a l') l ()) (g : γ) :
    x.wp S (fun a l' g' => Q a l' ∧ g' = g) l g :=
  Prog.wp_of_only hS h g

theorem silent_onlySpec {P P' : Op → Prop} (h : ∀ op, P op → P' op) :
    Silent (onlySpec P' : Spec Op Res Unit) P :=
  fun _ op hop => ⟨h op hop, fun _ _ _ => rfl⟩

/-- The program issues only operations that meet `P`, and relates the local states before and
after it by `R`. -/
def Makes (P : Op → Prop) (R : L → L → Prop) (x : LProg Op Res L α) : Prop :=
  ∀ l, x.wp (onlySpec P) (fun _ l' _ => R l l') l ()

namespace Makes

variable {P P' : Op → Prop} {R R' : L → L → Prop}

theorem mono {x : LProg Op Res L α} (h : x.Makes P R) (hP : ∀ op, P op → P' op)
    (hR : ∀ l l', R l l' → R' l l') : x.Makes P' R' := fun l =>
  wp_mono (wp_of_only (silent_onlySpec hP) (h l) ()) fun _ _ _ h' => hR _ _ h'.1

theorem of_call [Std.Refl R] {op : Op} (h : P op) : (call op : LProg Op Res L _).Makes P R :=
  fun l => ⟨h, fun _ _ _ => Std.Refl.refl l⟩

theorem of_pure [Std.Refl R] (a : α) : (pure a : LProg Op Res L α).Makes P R :=
  fun l => Std.Refl.refl l

theorem of_modify {f : L → L} (h : ∀ l, R l (f l)) : (modify f : LProg Op Res L PUnit).Makes P R :=
  h

theorem get_bind {f : L → LProg Op Res L β} (hf : ∀ m, (f m).Makes P R) :
    (get >>= f : LProg Op Res L β).Makes P R :=
  fun l => hf l l

theorem bind [IsTrans L R] {x : LProg Op Res L α} {f : α → LProg Op Res L β} (hx : x.Makes P R)
    (hf : ∀ a, (f a).Makes P R) : (x >>= f).Makes P R := fun l =>
  wp_bind_of (hx l) fun a l' _ h => wp_mono (hf a l') fun _ _ _ h' => IsTrans.trans _ _ _ h h'

theorem ite {c : Prop} [Decidable c] {x y : LProg Op Res L α} (hx : x.Makes P R)
    (hy : y.Makes P R) : (if c then x else y).Makes P R := by
  split
  · exact hx
  · exact hy

theorem of_discard [Std.Refl R] [IsTrans L R] {x : LProg Op Res L α} (hx : x.Makes P R) :
    (discard x).Makes P R :=
  hx.bind fun _ => of_pure _

/-- What such a program keeps in a specification for which its operations are silent. -/
theorem wp {S : Spec Op Res γ} (hS : Silent S P) {x : LProg Op Res L α} (h : x.Makes P R) (l : L)
    (g : γ) : x.wp S (fun _ l' g' => R l l' ∧ g' = g) l g :=
  wp_of_only hS (h l) g

theorem wp_on {S : Spec Op Res γ} {I : γ → Prop} (hS : SilentOn S I P) {x : LProg Op Res L α}
    (h : x.Makes P R) (l : L) {g : γ} (hg : I g) :
    x.wp S (fun _ l' g' => R l l' ∧ g' = g) l g :=
  Prog.wp_of_only_on hS (h l) hg

/-- What the operations that meet `P` keep, a program that makes only these keeps. -/
theorem wp_keeps {S : Spec Op Res γ} {I : γ → Prop}
    (hop : ∀ g op, I g → P op → S.pre g op ∧ ∀ r g', S.post g op r g' → I g')
    {x : LProg Op Res L α} (h : x.Makes P R) (l : L) {g : γ} (hg : I g) :
    x.wp S (fun _ l' g' => R l l' ∧ I g') l g :=
  Prog.wp_of_only_keeps hop (h l) hg

end Makes

/-! ## Triples on the ghost state -/

/-- From any local state and a ghost state in `I`, the program ends with a ghost state in
`J`. -/
def Triple (S : Spec Op Res γ) (I : γ → Prop) (x : LProg Op Res L α) (J : γ → Prop) : Prop :=
  ∀ l g, I g → x.wp S (fun _ _ g' => J g') l g

namespace Triple

variable {S : Spec Op Res γ} {I J K : γ → Prop}

theorem of_makes {P : Op → Prop} {R : L → L → Prop} (hS : Silent S P) {x : LProg Op Res L α}
    (h : x.Makes P R) : Triple S I x I := fun l g hg =>
  wp_mono (h.wp hS l g) fun _ _ _ hr => hr.2 ▸ hg

theorem of_only {P : Op → Prop} {R : L → L → Prop}
    (hop : ∀ g op, I g → P op → S.pre g op ∧ ∀ r g', S.post g op r g' → I g')
    {x : LProg Op Res L α} (h : x.Makes P R) : Triple S I x I := fun l _ hg =>
  wp_mono (h.wp_keeps hop l hg) fun _ _ _ hr => hr.2

/-- What every operation keeps, whatever its result, every program keeps. -/
theorem of_invariant (hop : ∀ g op, I g → S.pre g op ∧ ∀ r g', S.post g op r g' → I g')
    (x : LProg Op Res L α) : Triple S I x I := fun l _ hg => Prog.wp_invariant hop (x.run l) hg

/-- Weaken the postcondition. -/
theorem mono {x : LProg Op Res L α} (h : Triple S I x J) (hJ : ∀ g, J g → K g) :
    Triple S I x K := fun l g hg => wp_mono (h l g hg) fun _ _ g' => hJ g'

theorem of_pure (a : α) : Triple S I (pure a : LProg Op Res L α) I := fun _ _ hg => hg

theorem of_modify {f : L → L} : Triple S I (modify f : LProg Op Res L PUnit) I := fun _ _ hg => hg

theorem of_call {op : Op} (h : ∀ g, I g → S.pre g op ∧ ∀ r g', S.post g op r g' → J g') :
    Triple S I (call op : LProg Op Res L _) J := fun _ g hg => h g hg

theorem get_bind {f : L → LProg Op Res L β} (hf : ∀ m, Triple S I (f m) J) :
    Triple S I (get >>= f : LProg Op Res L β) J := fun l g hg => hf l l g hg

theorem bind {x : LProg Op Res L α} {f : α → LProg Op Res L β} (hx : Triple S I x J)
    (hf : ∀ a, Triple S J (f a) K) : Triple S I (x >>= f) K := fun l g hg =>
  wp_bind_of (hx l g hg) fun a l' g' hg' => hf a l' g' hg'

theorem ite {c : Prop} [Decidable c] {x y : LProg Op Res L α} (hx : Triple S I x J)
    (hy : Triple S I y J) : Triple S I (if c then x else y) J := by
  split
  · exact hx
  · exact hy

theorem of_discard {x : LProg Op Res L α} (hx : Triple S I x J) : Triple S I (discard x) J :=
  hx.bind fun _ => of_pure _

end Triple

/-- `Triple` with a postcondition on the result. -/
def Yields (S : Spec Op Res γ) (I : γ → Prop) (x : LProg Op Res L α) (J : α → γ → Prop) : Prop :=
  ∀ l g, I g → x.wp S (fun a _ g' => J a g') l g

theorem Triple.yields {S : Spec Op Res γ} {I J : γ → Prop} {x : LProg Op Res L α}
    (h : Triple S I x J) : Yields S I x fun _ => J := h

namespace Yields

variable {S : Spec Op Res γ} {I : γ → Prop} {J : α → γ → Prop} {K : β → γ → Prop}

theorem triple {J : γ → Prop} {x : LProg Op Res L α} (h : Yields S I x fun _ => J) :
    Triple S I x J := h

theorem mono {J' : α → γ → Prop} {x : LProg Op Res L α} (h : Yields S I x J)
    (hJ : ∀ a g, J a g → J' a g) : Yields S I x J' := fun l g hg =>
  wp_mono (h l g hg) fun a _ g' => hJ a g'

theorem of_pure {a : α} (h : ∀ g, I g → J a g) : Yields S I (pure a : LProg Op Res L α) J :=
  fun _ g hg => h g hg

theorem of_call {op : Op} {J : Res op → γ → Prop}
    (h : ∀ g, I g → S.pre g op ∧ ∀ r g', S.post g op r g' → J r g') :
    Yields S I (call op : LProg Op Res L _) J := fun _ g hg => h g hg

theorem get_bind {f : L → LProg Op Res L β} (hf : ∀ m, Yields S I (f m) K) :
    Yields S I (get >>= f : LProg Op Res L β) K := fun l g hg => hf l l g hg

theorem bind {x : LProg Op Res L α} {f : α → LProg Op Res L β} (hx : Yields S I x J)
    (hf : ∀ a, Yields S (J a) (f a) K) : Yields S I (x >>= f) K := fun l g hg =>
  wp_bind_of (hx l g hg) fun a l' g' hg' => hf a l' g' hg'

theorem ite {c : Prop} [Decidable c] {x y : LProg Op Res L α} (hx : Yields S I x J)
    (hy : Yields S I y J) : Yields S I (if c then x else y) J := by
  split
  · exact hx
  · exact hy

end Yields

/-! ## Invariants of both states -/

/-- The program keeps `I` of the local state and the ghost state. -/
def Keeps (S : Spec Op Res γ) (I : L → γ → Prop) (x : LProg Op Res L α) : Prop :=
  ∀ l g, I l g → x.wp S (fun _ l' g' => I l' g') l g

theorem Triple.keeps {S : Spec Op Res γ} {I : γ → Prop} {x : LProg Op Res L α}
    (h : Triple S I x I) : Keeps S (fun _ => I) x := h

namespace Keeps

variable {S : Spec Op Res γ} {I : L → γ → Prop}

theorem of_pure (a : α) : Keeps S I (pure a) := fun _ _ h => h

theorem get_bind {f : L → LProg Op Res L β} (hf : ∀ m, Keeps S I (f m)) : Keeps S I (get >>= f) :=
  fun l g h => hf l l g h

theorem bind {x : LProg Op Res L α} {f : α → LProg Op Res L β} (hx : Keeps S I x)
    (hf : ∀ a, Keeps S I (f a)) : Keeps S I (x >>= f) := fun l g h =>
  wp_bind_of (hx l g h) fun a l' g' h' => hf a l' g' h'

theorem ite {c : Prop} [Decidable c] {x y : LProg Op Res L α} (hx : Keeps S I x)
    (hy : Keeps S I y) : Keeps S I (if c then x else y) := by
  split
  · exact hx
  · exact hy

end Keeps

/-- The program as one that maps a local state to the next. -/
def job (x : LProg Op Res L α) (l : L) : Prog Op Res L := Prod.snd <$> x.run l

theorem wp_job {S : Spec Op Res γ} {x : LProg Op Res L α} {Q : L → γ → Prop} {l : L} {g : γ} :
    (x.job l).wp S Q g ↔ x.wp S (fun _ l' g' => Q l' g') l g := by
  rw [job, map_eq_pure_bind, Prog.wp_bind]
  rfl

end LProg

/-! ## Execution with environments -/

namespace Prog

/-- Execute a program, the `n`-th operation with environment `es n`. -/
def execEnv (h : Env → (op : Op) → σ → Res op × σ) : Prog Op Res α → (Nat → Env) → σ → α × σ
  | ret a, _, s => (a, s)
  | call op k, es, s => (k (h (es 0) op s).1).execEnv h (fun n => es (n + 1)) (h (es 0) op s).2

/-- Every operation of the execution meets `ok` in the state it is issued in. -/
def CallsOk (ok : Env → Op → σ → Prop) (h : Env → (op : Op) → σ → Res op × σ) :
    Prog Op Res α → (Nat → Env) → σ → Prop
  | ret _, _, _ => True
  | call op k, es, s =>
    ok (es 0) op s ∧
      (k (h (es 0) op s).1).CallsOk ok h (fun n => es (n + 1)) (h (es 0) op s).2

instance decidableCallsOk (ok : Env → Op → σ → Prop) [∀ e op s, Decidable (ok e op s)]
    (h : Env → (op : Op) → σ → Res op × σ) :
    (p : Prog Op Res α) → (es : Nat → Env) → (s : σ) → Decidable (p.CallsOk ok h es s)
  | ret _, _, _ => .isTrue trivial
  | call op k, es, s =>
    have := decidableCallsOk ok h (k (h (es 0) op s).1) (fun n => es (n + 1)) (h (es 0) op s).2
    inferInstanceAs (Decidable (_ ∧ _))

theorem CallsOk.of_forall {ok : Env → Op → σ → Prop} {h : Env → (op : Op) → σ → Res op × σ}
    (hall : ∀ e op s, ok e op s) :
    ∀ (p : Prog Op Res α) (es : Nat → Env) (s : σ), p.CallsOk ok h es s
  | ret _, _, _ => trivial
  | call op k, es, s => ⟨hall _ _ _, of_forall hall (k _) _ _⟩

/-- The specification of a handler with environments that meet `ok`. -/
def envSpec (h : Env → (op : Op) → σ → Res op × σ) (ok : Env → Op → σ → Prop) :
    Spec Op Res σ where
  pre _ _ := True
  post s op r s' := ∃ e, ok e op s ∧ h e op s = (r, s')

theorem execEnv_of_wp {h : Env → (op : Op) → σ → Res op × σ} {ok : Env → Op → σ → Prop} :
    ∀ (p : Prog Op Res α) {Q : α → σ → Prop} {es : Nat → Env} {s : σ},
    p.wp (envSpec h ok) Q s → p.CallsOk ok h es s → Q (p.execEnv h es s).1 (p.execEnv h es s).2
  | ret _, _, _, _, hp, _ => hp
  | call op k, _, es, s, hp, hok =>
    execEnv_of_wp (k (h (es 0) op s).1) (hp.2 _ (h (es 0) op s).2 ⟨es 0, hok.1, rfl⟩) hok.2

end Prog

namespace LProg

/-- A call in environments that meet `ok`. -/
theorem wp_call_env {h : Env → (op : Op) → σ → Res op × σ} {ok : Env → Op → σ → Prop} (op : Op)
    (Q : Res op → L → σ → Prop) {l : L} {s : σ} :
    (call op : LProg Op Res L (Res op)).wp (Prog.envSpec h ok) Q l s ↔
      ∀ e, ok e op s → Q (h e op s).1 l (h e op s).2 := by
  constructor
  · exact fun hwp e he => hwp.2 _ _ ⟨e, he, rfl⟩
  · intro hQ
    refine ⟨trivial, ?_⟩
    rintro r s' ⟨e, he, heq⟩
    have hq := hQ e he
    rwa [heq] at hq

end LProg

end ProgLogic
