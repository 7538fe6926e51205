import Mathlib.Tactic.SplitIfs
import Snippets.Number.Shortest

/-!
# What numbers are written with

Natural numbers are written with digits (`isDigit_of_mem_ofNat`), different ones differently
(`ofNat_injective`), and real numbers with digits and a few marks (`isNumeral_render`).
-/

namespace Snippets

/-- A digit, or one of the marks of a real number: a point, the signs, and the letters of an
exponent, of infinity and of what is no number. -/
def CodePoint.isNumeral (c : CodePoint) : Bool := c.isDigit || (text ".+-einfa").contains c

namespace Text

theorem isDigit_of_mem_ofNat {n : Nat} {c : CodePoint} (hc : c ∈ ofNat n) : c.isDigit := by
  obtain ⟨d, hd, rfl⟩ := List.mem_map.1 hc
  have hdigit := Char.isDigit_iff_toNat.1 (Nat.isDigit_of_mem_toDigits (by decide) (by decide) hd)
  have hlow : 0x30 ≤ d.toNat := hdigit.1
  have hhigh : d.toNat ≤ 0x39 := hdigit.2
  have hval : (CodePoint.ofChar d).val = d.toNat := rfl
  simp only [CodePoint.isDigit, hval, Bool.and_eq_true, decide_eq_true_eq]
  exact ⟨hlow, hhigh⟩

/-- The digits of a number have its value. -/
theorem digitsValue_ofNat (n : Nat) : digitsValue (ofNat n) = n := by
  have hread : Nat.ofDigitChars 10 (Nat.toDigits 10 n) 0 = n :=
    Nat.ofDigitChars_toDigits (by decide) (by decide)
  rw [digitsValue, ofNat, List.foldl_map]
  refine Eq.trans ?_ hread
  unfold Nat.ofDigitChars
  congr 1
  funext m d
  rw [Nat.mul_comm]
  rfl

theorem ofNat_injective : Function.Injective ofNat := fun m n h => by
  rw [← digitsValue_ofNat m, h, digitsValue_ofNat]

end Text

namespace Real64

theorem isNumeral_ofNat (n : Nat) : (Text.ofNat n).all CodePoint.isNumeral :=
  List.all_eq_true.2 fun c hc => by
    rw [CodePoint.isNumeral, Text.isDigit_of_mem_ofNat hc, Bool.true_or]

theorem isNumeral_zeros (n : Nat) : (zeros n).all CodePoint.isNumeral :=
  List.all_eq_true.2 fun c hc => by
    rw [List.eq_of_mem_replicate hc]
    decide

theorem isNumeral_layout (d : Decimal) : d.layout.all CodePoint.isNumeral := by
  have hpart : ∀ t : Text, t.Sublist (Text.ofNat d.digits) → t.all CodePoint.isNumeral :=
    fun t ht => List.all_eq_true.2 fun c hc =>
      List.all_eq_true.1 (isNumeral_ofNat d.digits) c (ht.subset hc)
  have htake : ∀ n, ((Text.ofNat d.digits).take n).all CodePoint.isNumeral := fun n =>
    hpart _ (List.take_sublist n _)
  have hdrop : ∀ n, ((Text.ofNat d.digits).drop n).all CodePoint.isNumeral := fun n =>
    hpart _ (List.drop_sublist n _)
  have hmarks : ∀ s ∈ [".", ".0", "0.", "e-", "e+"], (text s).all CodePoint.isNumeral := by
    decide +kernel
  simp only [List.forall_mem_cons, List.not_mem_nil, false_imp_iff, implies_true, and_true]
    at hmarks
  unfold Decimal.layout
  dsimp only
  split_ifs <;>
    simp only [List.all_append, isNumeral_ofNat, isNumeral_zeros, htake, hdrop, hmarks,
      List.all_nil, Bool.and_self]

theorem isNumeral_render (x : Real64) : x.render.all CodePoint.isNumeral := by
  unfold render
  split
  · decide +kernel
  · next negative _ => cases negative <;> decide +kernel
  · next p _ =>
    have hsign : (text (if p.negative then "-" else "")).all CodePoint.isNumeral := by
      cases p.negative <;> decide +kernel
    rw [List.all_append, hsign, Bool.true_and]
    split_ifs
    · decide +kernel
    · exact isNumeral_layout _

end Real64

end Snippets
