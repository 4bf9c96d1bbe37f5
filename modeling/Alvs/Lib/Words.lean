import Mathlib.Data.Nat.Bitwise
import Mathlib.Tactic.Basic

/-!
# Masks of words

Setting and clearing the bits of a mask `y` in a word of 32 bits, and words that are put
together from the bits in a mask and those outside of it.
-/

namespace ProgLogic.Word

theorem and_not_and (x y : UInt32) : x &&& ~~~y &&& y = 0 := by
  apply UInt32.toBitVec_inj.mp
  ext i hi
  simp

theorem or_and_not (x y : UInt32) : (x ||| y) &&& ~~~y = x &&& ~~~y := by
  apply UInt32.toBitVec_inj.mp
  ext i hi
  simp only [UInt32.toBitVec_and, UInt32.toBitVec_or, UInt32.toBitVec_not, BitVec.getElem_and,
    BitVec.getElem_or, BitVec.getElem_not]
  cases (x.toBitVec[i]) <;> cases (y.toBitVec[i]) <;> rfl

theorem and_not_and_not (x y : UInt32) : x &&& ~~~y &&& ~~~y = x &&& ~~~y := by
  rw [UInt32.and_assoc, UInt32.and_self]

theorem or_and_self (x y : UInt32) : (x ||| y) &&& y = y := by
  apply UInt32.toBitVec_inj.mp
  ext i hi
  simp only [UInt32.toBitVec_and, UInt32.toBitVec_or, BitVec.getElem_and, BitVec.getElem_or]
  cases (x.toBitVec[i]) <;> cases (y.toBitVec[i]) <;> rfl

theorem merge_self (x u : UInt32) : (x &&& u) ||| (x &&& ~~~u) = x := by
  apply UInt32.toBitVec_inj.mp
  ext k hk
  simp only [UInt32.toBitVec_and, UInt32.toBitVec_or, UInt32.toBitVec_not, BitVec.getElem_and,
    BitVec.getElem_or, BitVec.getElem_not]
  cases (x.toBitVec[k]) <;> cases (u.toBitVec[k]) <;> rfl

theorem and_not_of_and_eq_zero {x v : UInt32} (h : x &&& v = 0) : x &&& ~~~v = x := by
  have hself := merge_self x v
  rwa [h, UInt32.zero_or] at hself

theorem or_of_and_eq {x v : UInt32} (h : x &&& v = v) : x ||| v = x := by
  rw [← h]
  apply UInt32.toBitVec_inj.mp
  ext k hk
  simp only [UInt32.toBitVec_and, UInt32.toBitVec_or, BitVec.getElem_and, BitVec.getElem_or]
  cases (x.toBitVec[k]) <;> rfl

/-- A mask of one bit. -/
theorem and_eq_self_of_ne_zero {x v : UInt32} {i : Nat} (hv : v.toNat = 2 ^ i) (h : x &&& v ≠ 0) :
    x &&& v = v := by
  apply UInt32.toNat_inj.mp
  rw [UInt32.toNat_and, hv, Nat.and_two_pow]
  cases hbit : x.toNat.testBit i with
  | true => rw [Bool.toNat_true, Nat.one_mul]
  | false =>
    refine absurd (UInt32.toNat_inj.mp ?_) h
    rw [UInt32.toNat_and, hv, Nat.and_two_pow, hbit, Bool.toNat_false, Nat.zero_mul]
    rfl

end ProgLogic.Word
