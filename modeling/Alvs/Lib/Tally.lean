import Mathlib.Algebra.BigOperators.Group.Finset.Basic
import Mathlib.Algebra.Order.BigOperators.Group.Finset
import Mathlib.Data.Int.Order.Basic

/-!
# Sums over threads

A shared counter is often the sum of what each thread has in it. `tally w Γ` is the sum of
a weight of the ghost states of all threads, and `tally_update` says how it changes when
one thread moves.
-/

namespace ProgLogic

variable {Tid γ : Type} [Fintype Tid]

/-- The sum of a weight of the ghost states of all threads. -/
def tally (w : γ → Int) (Γ : Tid → γ) : Int := ∑ t, w (Γ t)

theorem tally_update [DecidableEq Tid] (w : γ → Int) (Γ : Tid → γ) (t : Tid) (g : γ) :
    tally w (Function.update Γ t g) = tally w Γ - w (Γ t) + w g := by
  have hrest : ∑ x ∈ Finset.univ.erase t, w (Function.update Γ t g x) =
      ∑ x ∈ Finset.univ.erase t, w (Γ x) :=
    Finset.sum_congr rfl fun x hx => by
      rw [Function.update_of_ne (Finset.ne_of_mem_erase hx)]
  rw [tally, tally, ← Finset.add_sum_erase _ _ (Finset.mem_univ t),
    ← Finset.add_sum_erase _ _ (Finset.mem_univ t), hrest, Function.update_self]
  omega

theorem tally_eq_zero {w : γ → Int} {Γ : Tid → γ} (h : ∀ t, w (Γ t) = 0) : tally w Γ = 0 :=
  Finset.sum_eq_zero fun t _ => h t

theorem tally_nonneg {w : γ → Int} {Γ : Tid → γ} (h : ∀ t, 0 ≤ w (Γ t)) : 0 ≤ tally w Γ :=
  Finset.sum_nonneg fun t _ => h t

theorem tally_le_tally {w w' : γ → Int} {Γ : Tid → γ} (h : ∀ t, w (Γ t) ≤ w' (Γ t)) :
    tally w Γ ≤ tally w' Γ :=
  Finset.sum_le_sum fun t _ => h t

/-- Each thread adds its own weight. -/
theorem le_tally {w : γ → Int} {Γ : Tid → γ} (h : ∀ t, 0 ≤ w (Γ t)) (t : Tid) :
    w (Γ t) ≤ tally w Γ :=
  Finset.single_le_sum (fun x _ => h x) (Finset.mem_univ t)

theorem tally_le_card {w : γ → Int} {Γ : Tid → γ} (h : ∀ t, w (Γ t) ≤ 1) :
    tally w Γ ≤ Fintype.card Tid := by
  refine (Finset.sum_le_card_nsmul _ _ 1 fun t _ => h t).trans ?_
  simp

end ProgLogic
