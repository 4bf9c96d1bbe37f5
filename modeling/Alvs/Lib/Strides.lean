import Mathlib.Data.Int.GCD
import Mathlib.Data.Int.ModEq
import Mathlib.Tactic.LinearCombination
import Mathlib.Tactic.Ring

/-!
# Strides around a circle

Steps of `s` from `a` modulo `n` come to exactly the residues that agree with `a` modulo
`gcd s n` (`stride_mod_gcd`, `exists_stride_eq`), the largest of which is
`n - gcd s n + a % gcd s n`. So the steps leave the first `b + 1` residues exactly if `b` is
below that (`exists_stride_gt_iff`).
-/

namespace ProgLogic

theorem stride_mod_gcd (a s n k : Nat) : (a + k * s) % n % Nat.gcd s n = a % Nat.gcd s n := by
  obtain ⟨c, hc⟩ := (Nat.gcd_dvd_left s n).mul_left k
  rw [Nat.mod_mod_of_dvd _ (Nat.gcd_dvd_right s n), hc, Nat.add_mul_mod_self_left]

/-- Every residue that agrees with `a` modulo the divisor is reached. -/
theorem exists_stride_eq {a s n t : Nat} (ht : t < n) (h : t % Nat.gcd s n = a % Nat.gcd s n) :
    ∃ k, (a + k * s) % n = t := by
  -- the distance from `a` to `t`, as a combination of the step and the circle
  have hdvd : Nat.gcd s n ∣ t + (n - a % n) := by
    have hn : (t + (n - a % n) + a) % Nat.gcd s n = t % Nat.gcd s n := by
      have hsplit : t + (n - a % n) + a = t + n * (a / n + 1) := by
        have := Nat.mod_lt a (Nat.zero_lt_of_lt ht)
        have := Nat.mod_add_div a n
        rw [Nat.mul_add, Nat.mul_one]
        omega
      obtain ⟨c, hc⟩ := (Nat.gcd_dvd_right s n).mul_right (a / n + 1)
      rw [hsplit, hc, Nat.add_mul_mod_self_left]
    have hmod : t + (n - a % n) + a ≡ 0 + a [MOD Nat.gcd s n] := by
      rw [Nat.zero_add]
      exact hn.trans h
    exact (Nat.modEq_zero_iff_dvd).mp (Nat.ModEq.add_right_cancel' a hmod)
  obtain ⟨x, y, hxy⟩ := Int.gcd_dvd_iff.mp (show Int.gcd s n ∣ t + (n - a % n) from hdvd)
  have hpos : (0 : Int) < n := by omega
  have hk : (((x % n).toNat : Nat) : Int) = x % n :=
    Int.toNat_of_nonneg (Int.emod_nonneg x (by omega))
  have hcast : ((t + (n - a % n) : Nat) : Int) = t + n - a % n := by
    have := Nat.mod_lt a (Nat.zero_lt_of_lt ht)
    push_cast
    omega
  have hmod : ((a + (x % n).toNat * s : Nat) : Int) ≡ (t : Nat) [ZMOD n] := by
    have hx := Int.emod_add_mul_ediv x n
    have ha := Int.emod_add_mul_ediv a n
    refine Int.modEq_iff_dvd.mpr ⟨y - 1 - a / n + x / n * s, ?_⟩
    rw [hcast] at hxy
    push_cast
    rw [hk]
    have hstep : x % n * s = s * x - n * (x / n) * s := by
      rw [eq_sub_of_add_eq hx]
      ring
    rw [hstep]
    linear_combination hxy + ha
  have hres : (a + (x % n).toNat * s) % n = t % n := Int.natCast_modEq_iff.mp hmod
  exact ⟨(x % n).toNat, hres.trans (Nat.mod_eq_of_lt ht)⟩

theorem exists_stride_gt_iff {a s n b : Nat} (hn : 0 < n) :
    (∃ k, b < (a + k * s) % n) ↔ b < n - Nat.gcd s n + a % Nat.gcd s n := by
  have hg : 0 < Nat.gcd s n := Nat.gcd_pos_of_pos_right s hn
  have hmod : a % Nat.gcd s n < Nat.gcd s n := Nat.mod_lt a hg
  obtain ⟨c, hc⟩ := Nat.gcd_dvd_right s n
  have hc0 : c ≠ 0 := by
    rintro rfl
    omega
  obtain ⟨m, rfl⟩ := Nat.exists_eq_succ_of_ne_zero hc0
  have hlast : n - Nat.gcd s n = Nat.gcd s n * m := by
    rw [Nat.mul_succ] at hc
    omega
  constructor
  · rintro ⟨k, hk⟩
    -- no residue that agrees with `a` is above the last one
    have hlt : (a + k * s) % n < n := Nat.mod_lt _ hn
    have hagree := stride_mod_gcd a s n k
    have hsplit := Nat.mod_add_div ((a + k * s) % n) (Nat.gcd s n)
    rw [hagree] at hsplit
    have hdiv : (a + k * s) % n / Nat.gcd s n < m + 1 := by
      rw [Nat.div_lt_iff_lt_mul hg]
      exact hlt.trans_eq (hc.trans (Nat.mul_comm _ _))
    have hmul := Nat.mul_le_mul_left (Nat.gcd s n) (Nat.le_of_lt_succ hdiv)
    omega
  · intro hb
    have hagree : (n - Nat.gcd s n + a % Nat.gcd s n) % Nat.gcd s n = a % Nat.gcd s n := by
      rw [hlast, Nat.mul_add_mod, Nat.mod_mod]
    have hbelow : n - Nat.gcd s n + a % Nat.gcd s n < n := by
      have := Nat.gcd_le_right s hn
      omega
    obtain ⟨k, hk⟩ := exists_stride_eq hbelow hagree
    exact ⟨k, hk.symm ▸ hb⟩

end ProgLogic
