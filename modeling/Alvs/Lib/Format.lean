import Mathlib.Algebra.Ring.Nat
import Mathlib.Data.List.Forall2
import Mathlib.Data.Nat.Basic
import Mathlib.Order.Basic

/-!
# Formatted text

`sprintf fmt args` is the text that the C function writes for the conversions `%d`, `%u`
and `%ld`, without the NUL that ends it. An argument is the word that is passed : the
conversion decides how it is read. An argument is `Narrower` than another if no conversion
gives it more characters, and a text with narrower arguments is no longer
(`sprintf_narrower`), so one text with widest arguments bounds all others.
-/

namespace ProgLogic

/-! ## Decimal numbers -/

def decimal (i : Int) : List Char :=
  if i < 0 then '-' :: Nat.toDigits 10 i.natAbs else Nat.toDigits 10 i.natAbs

theorem length_toDigits_le {n k : Nat} (hk : 0 < k) (h : n < 10 ^ k) :
    (Nat.toDigits 10 n).length ≤ k :=
  (Nat.length_toDigits_le_iff (by decide) hk).mpr h

theorem length_decimal_le {i : Int} {k : Nat} (hk : 0 < k) (h : i.natAbs < 10 ^ k) :
    (decimal i).length ≤ k + 1 := by
  unfold decimal
  split
  · exact Nat.succ_le_succ (length_toDigits_le hk h)
  · exact (length_toDigits_le hk h).trans (Nat.le_succ k)

theorem length_decimal_le_of_nonneg {i : Int} {k : Nat} (hi : 0 ≤ i) (hk : 0 < k)
    (h : i.natAbs < 10 ^ k) : (decimal i).length ≤ k := by
  rw [decimal, if_neg (by omega)]
  exact length_toDigits_le hk h

/-! ## Arguments and formats -/

/-- An argument of 32 bits, to which shorter ones are promoted, or of 64 bits. -/
inductive FormatArg
  | word (w : UInt32)
  | long (w : UInt64)
  deriving DecidableEq

/-- A piece of a format : a character or a conversion. -/
inductive FormatPiece
  | char (c : Char)
  | d
  | u
  | ld
  deriving DecidableEq

def parseFormat : List Char → List FormatPiece
  | [] => []
  | '%' :: 'd' :: fmt => .d :: parseFormat fmt
  | '%' :: 'u' :: fmt => .u :: parseFormat fmt
  | '%' :: 'l' :: 'd' :: fmt => .ld :: parseFormat fmt
  | c :: fmt => .char c :: parseFormat fmt

/-- The text of a conversion, `none` where it does not fit its argument. -/
def FormatPiece.convert : FormatPiece → FormatArg → Option (List Char)
  | .d, .word w => some (decimal w.toInt32.toInt)
  | .u, .word w => some (decimal w.toNat)
  | .ld, .long w => some (decimal w.toInt64.toInt)
  | _, _ => none

def render : List FormatPiece → List FormatArg → Option (List Char)
  | [], _ => some []
  | .char c :: pieces, args => (c :: ·) <$> render pieces args
  | _ :: _, [] => none
  | piece :: pieces, arg :: args => do
    let text ← piece.convert arg
    let rest ← render pieces args
    return text ++ rest

/-- The text of a format with its arguments. -/
def sprintf (fmt : String) (args : List FormatArg) : Option (List Char) :=
  render (parseFormat fmt.toList) args

/-- The first argument is of the same size, and no conversion gives it more characters. -/
def FormatArg.Narrower : FormatArg → FormatArg → Prop
  | .word v, .word w => (decimal v.toInt32.toInt).length ≤ (decimal w.toInt32.toInt).length ∧
      (decimal v.toNat).length ≤ (decimal w.toNat).length
  | .long v, .long w => (decimal v.toInt64.toInt).length ≤ (decimal w.toInt64.toInt).length
  | _, _ => False

theorem convert_narrower {piece : FormatPiece} {arg widest : FormatArg}
    (h : arg.Narrower widest) {bound : List Char} (hbound : piece.convert widest = some bound) :
    ∃ text, piece.convert arg = some text ∧ text.length ≤ bound.length := by
  cases arg <;> cases widest <;> cases piece <;>
    simp only [FormatArg.Narrower, FormatPiece.convert, Option.some.injEq, reduceCtorEq] at h hbound
  · exact ⟨_, rfl, hbound ▸ h.1⟩
  · exact ⟨_, rfl, hbound ▸ h.2⟩
  · exact ⟨_, rfl, hbound ▸ h⟩

theorem render_narrower : ∀ {pieces : List FormatPiece} {args widest : List FormatArg},
    List.Forall₂ FormatArg.Narrower args widest → ∀ {bound : List Char},
    render pieces widest = some bound →
    ∃ text, render pieces args = some text ∧ text.length ≤ bound.length
  | [], _, _, _, _, _ => ⟨[], rfl, Nat.zero_le _⟩
  | .char c :: pieces, args, widest, h, bound, hbound => by
    obtain ⟨rest, hrest, rfl⟩ := Option.map_eq_some_iff.mp hbound
    obtain ⟨text, htext, hle⟩ := render_narrower h hrest
    refine ⟨c :: text, ?_, Nat.succ_le_succ hle⟩
    rw [render, htext]
    rfl
  | .d :: pieces, _, _, .cons h hs, _, hbound
  | .u :: pieces, _, _, .cons h hs, _, hbound
  | .ld :: pieces, _, _, .cons h hs, _, hbound => by
    simp only [render, Option.bind_eq_bind, Option.bind_eq_some_iff] at hbound
    obtain ⟨text, htext, rest, hrest, hbound⟩ := hbound
    obtain ⟨text', htext', hle⟩ := convert_narrower h htext
    obtain ⟨rest', hrest', hle'⟩ := render_narrower hs hrest
    cases hbound
    refine ⟨text' ++ rest', ?_, ?_⟩
    · simp only [render, htext', hrest', Option.bind_eq_bind, Option.bind_some]
      rfl
    · simp only [List.length_append]
      omega

/-- A text with narrower arguments is no longer. The format is given as its characters,
which are cheaper to evaluate. -/
theorem sprintf_narrower {fmt : List Char} {args widest : List FormatArg}
    (h : List.Forall₂ FormatArg.Narrower args widest) {n : Nat}
    (hbound : (render (parseFormat fmt) widest).map List.length = some n) :
    ∃ text, sprintf (String.ofList fmt) args = some text ∧ text.length ≤ n := by
  obtain ⟨bound, hrender, rfl⟩ := Option.map_eq_some_iff.mp hbound
  rw [sprintf, String.toList_ofList]
  exact render_narrower h hrender

/-! ## Widest arguments -/

theorem FormatArg.Narrower.refl (a : FormatArg) : a.Narrower a := by
  cases a
  · exact ⟨le_rfl, le_rfl⟩
  · exact Nat.le_refl _

/-- No word is wider than the least of the signed ones. -/
theorem narrower_word (w : UInt32) : (FormatArg.word w).Narrower (.word 0x80000000) := by
  have hlow := w.toInt32.le_toInt
  have hhigh := w.toInt32.toInt_lt
  have hlt := w.toNat_lt
  refine ⟨(length_decimal_le (k := 10) (by decide) ?_).trans ?_,
    (length_decimal_le_of_nonneg (k := 10) (Int.natCast_nonneg _) (by decide) ?_).trans ?_⟩
  · omega
  · decide
  · omega
  · decide

/-- A word below `10 ^ k` is no wider than any of `k` digits. -/
theorem narrower_word_of_lt {w widest : UInt32} {k : Nat} (hk : 0 < k) (hw : w.toNat < 10 ^ k)
    (hk9 : k ≤ 9) (hsigned : k ≤ (decimal widest.toInt32.toInt).length)
    (hunsigned : k ≤ (decimal widest.toNat).length) :
    (FormatArg.word w).Narrower (.word widest) := by
  have hpow : 10 ^ k ≤ 10 ^ 9 := Nat.pow_le_pow_right (by decide) hk9
  have hint : w.toInt32.toInt = w.toNat := by
    have htoNat : w.toInt32.toBitVec.toNat = w.toNat := rfl
    rw [← htoNat]
    exact BitVec.toInt_eq_toNat_of_lt (by omega)
  constructor
  · rw [hint]
    exact (length_decimal_le_of_nonneg (by omega) hk (by omega)).trans hsigned
  · exact (length_decimal_le_of_nonneg (by omega) hk (by omega)).trans hunsigned

theorem narrower_long (w : UInt64) : (FormatArg.long w).Narrower (.long 0x8000000000000000) := by
  have hlow := w.toInt64.le_toInt
  have hhigh := w.toInt64.toInt_lt
  refine (length_decimal_le (k := 19) (by decide) ?_).trans ?_
  · omega
  · decide

end ProgLogic
