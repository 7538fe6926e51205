import Mathlib.Tactic.SplitIfs
import Snippets.Json.Writer
import Snippets.Proofs.Number.Numerals

/-!
# What is written as JSON

Whatever a value holds, its JSON text consists of the code points from the blank to the tilde, and
of line feeds if it is indented (`isPlain_compact`, `isLines_indented`).
-/

namespace Snippets

/-- From the blank to the tilde. -/
def CodePoint.isPlain (c : CodePoint) : Bool := 0x20 ≤ c.val && c.val ≤ 0x7e

namespace Text

def isPlain (t : Text) : Bool := t.all CodePoint.isPlain

/-- Plain code points and line feeds. -/
def isLines (t : Text) : Bool := t.all fun c => c.isPlain || c = 0x0a

variable {t u : Text}

@[simp] theorem isPlain_append : isPlain (t ++ u) = (isPlain t && isPlain u) := List.all_append

@[simp] theorem isLines_append : isLines (t ++ u) = (isLines t && isLines u) := List.all_append

theorem isLines_of_isPlain (h : isPlain t) : isLines t := by
  refine List.all_eq_true.2 fun c hc => ?_
  rw [List.all_eq_true.1 h c hc]
  rfl

/-- No surrogate is plain or a line feed. -/
theorem not_isSurrogate_of_isLines (h : isLines t) : ∀ c ∈ t, c.isSurrogate = false := by
  intro c hc
  have hval : c.val ≤ 0x7e := by
    have := List.all_eq_true.1 h c hc
    simp only [CodePoint.isPlain, Bool.or_eq_true, Bool.and_eq_true, decide_eq_true_eq] at this
    rcases this with ⟨-, h⟩ | rfl
    · exact h
    · decide
  have hhigh : c.isHigh = false := by
    simp only [CodePoint.isHigh, Bool.and_eq_false_iff, decide_eq_false_iff_not]
    omega
  have hlow : c.isLow = false := by
    simp only [CodePoint.isLow, Bool.and_eq_false_iff, decide_eq_false_iff_not]
    omega
  rw [CodePoint.isSurrogate, hhigh, hlow]
  rfl

theorem isPlain_of_isNumeral (h : t.all CodePoint.isNumeral) : isPlain t := by
  have hmarks : ∀ c ∈ text ".+-einfa", c.isPlain := by decide +kernel
  refine List.all_eq_true.2 fun c hc => ?_
  obtain hdigit | hmark := Bool.or_eq_true_iff.1 (List.all_eq_true.1 h c hc)
  · simp only [CodePoint.isDigit, Bool.and_eq_true, decide_eq_true_eq] at hdigit
    simp only [CodePoint.isPlain, Bool.and_eq_true, decide_eq_true_eq]
    omega
  · exact hmarks c (List.contains_iff_mem.1 hmark)

theorem isPlain_ofNat (n : Nat) : isPlain (ofNat n) :=
  isPlain_of_isNumeral (Real64.isNumeral_ofNat n)

theorem isPlain_ofInt (i : Int) : isPlain (ofInt i) := by
  cases i with
  | ofNat n => exact isPlain_ofNat n
  | negSucc n =>
    have hminus : isPlain (text "-") := by decide +kernel
    rw [ofInt, isPlain_append, hminus, isPlain_ofNat]
    rfl

theorem isPlain_hexDigit {n : Nat} (h : n < 16) : (CodePoint.hexDigit n).isPlain := by
  revert n
  decide

theorem isPlain_hex (w n : Nat) : isPlain (hex w n) := by
  induction w generalizing n with
  | zero => rfl
  | succ w ih =>
    have hlast : isPlain [CodePoint.hexDigit (n % 16)] := by
      rw [isPlain, List.all_cons, isPlain_hexDigit (Nat.mod_lt n (by decide))]
      rfl
    rw [hex, isPlain_append, ih, hlast]
    rfl

end Text

namespace Json

open Text

/-! ## Scalars -/

theorem isPlain_escapeUnit (n : Nat) : isPlain (escapeUnit n) := by
  have hmark : isPlain (text "\\u") := by decide +kernel
  rw [escapeUnit, isPlain_append, hmark, isPlain_hex]
  rfl

theorem isPlain_escapePoint (c : CodePoint) : isPlain (escapePoint c) := by
  unfold escapePoint
  split_ifs with _ _ _ _ _ _ _ hc
  any_goals decide +kernel
  · simp [isPlain, CodePoint.isPlain, hc.1, hc.2]
  · exact isPlain_escapeUnit _
  · rw [isPlain_append, isPlain_escapeUnit, isPlain_escapeUnit]
    rfl

theorem isPlain_string (t : Text) : isPlain (string t) := by
  have hquote : isPlain (text "\"") := by decide +kernel
  have hbody : isPlain (t.flatMap escapePoint) := by
    refine List.all_eq_true.2 fun c hc => ?_
    obtain ⟨d, -, hd⟩ := List.mem_flatMap.1 hc
    exact List.all_eq_true.1 (isPlain_escapePoint d) c hd
  rw [string, isPlain_append, isPlain_append, hquote, hbody]
  rfl

theorem isPlain_real (x : Real64) : isPlain (real x) := by
  unfold real
  split
  · decide +kernel
  · next negative _ => cases negative <;> decide +kernel
  · exact isPlain_of_isNumeral x.isNumeral_render

theorem isPlain_boolean (b : Bool) : isPlain (boolean b) := by
  cases b <;> decide +kernel

theorem isPlain_key (v : Value) : isPlain (key v) := by
  unfold key
  split <;> exact isPlain_string _

/-! ## Values

What stands around the items and entries is plain, so is every scalar; the two recursions of a
layout go through the nested values. -/

private theorem isPlain_brackets : isPlain (text "[") ∧ isPlain (text "]") ∧
    isPlain (text "\x7b") ∧ isPlain (text "\x7d") ∧ isPlain (text "[]") ∧
    isPlain (text "\x7b\x7d") := by decide +kernel

private theorem isPlain_marks : isPlain (text ", ") ∧ isPlain (text ",") ∧ isPlain (text ": ") ∧
    isPlain (text "null") := by decide +kernel

mutual

theorem isPlain_compact : ∀ v : Value, isPlain (compact v)
  | .null => isPlain_marks.2.2.2
  | .bool b => isPlain_boolean b
  | .int i => isPlain_ofInt i
  | .real x => isPlain_real x
  | .text t => isPlain_string t
  | .list xs => by
    simp only [compact, isPlain_append, isPlain_brackets, isPlain_compactItems xs, Bool.and_self]
  | .tuple xs => by
    simp only [compact, isPlain_append, isPlain_brackets, isPlain_compactItems xs, Bool.and_self]
  | .map es => by
    simp only [compact, isPlain_append, isPlain_brackets, isPlain_compactEntries es,
      Bool.and_self]

theorem isPlain_compactItems : ∀ xs : List Value, isPlain (compactItems xs)
  | [] => rfl
  | [x] => isPlain_compact x
  | x :: y :: rest => by
    simp only [compactItems, isPlain_append, isPlain_marks, isPlain_compact x,
      isPlain_compactItems (y :: rest), Bool.and_self]

theorem isPlain_compactEntries : ∀ es : List (Value × Value), isPlain (compactEntries es)
  | [] => rfl
  | [(k, v)] => by
    simp only [compactEntries, isPlain_append, isPlain_marks, isPlain_key k, isPlain_compact v,
      Bool.and_self]
  | (k, v) :: e :: rest => by
    simp only [compactEntries, isPlain_append, isPlain_marks, isPlain_key k, isPlain_compact v,
      isPlain_compactEntries (e :: rest), Bool.and_self]

end

theorem isLines_newline (level : Nat) : isLines (newline level) := by
  refine List.all_eq_true.2 fun c hc => ?_
  rcases List.mem_cons.1 hc with rfl | hc
  · decide
  · rw [List.eq_of_mem_replicate hc]
    decide

mutual

theorem isLines_indentedAt (level : Nat) : ∀ v : Value, isLines (indentedAt level v)
  | .null => isLines_of_isPlain isPlain_marks.2.2.2
  | .bool b => isLines_of_isPlain (isPlain_boolean b)
  | .int i => isLines_of_isPlain (isPlain_ofInt i)
  | .real x => isLines_of_isPlain (isPlain_real x)
  | .text t => isLines_of_isPlain (isPlain_string t)
  | .list [] => isLines_of_isPlain isPlain_brackets.2.2.2.2.1
  | .tuple [] => isLines_of_isPlain isPlain_brackets.2.2.2.2.1
  | .map [] => isLines_of_isPlain isPlain_brackets.2.2.2.2.2
  | .list (x :: xs) => by
    simp only [indentedAt, isLines_append, isLines_of_isPlain, isPlain_brackets, isLines_newline,
      isLines_indentedItems (level + 1) (x :: xs), Bool.and_self]
  | .tuple (x :: xs) => by
    simp only [indentedAt, isLines_append, isLines_of_isPlain, isPlain_brackets, isLines_newline,
      isLines_indentedItems (level + 1) (x :: xs), Bool.and_self]
  | .map (e :: es) => by
    simp only [indentedAt, isLines_append, isLines_of_isPlain, isPlain_brackets, isLines_newline,
      isLines_indentedEntries (level + 1) (e :: es), Bool.and_self]

theorem isLines_indentedItems (level : Nat) :
    ∀ xs : List Value, isLines (indentedItems level xs)
  | [] => rfl
  | [x] => by
    simp only [indentedItems, isLines_append, isLines_newline, isLines_indentedAt level x,
      Bool.and_self]
  | x :: y :: rest => by
    simp only [indentedItems, isLines_append, isLines_of_isPlain, isPlain_marks, isLines_newline,
      isLines_indentedAt level x, isLines_indentedItems level (y :: rest), Bool.and_self]

theorem isLines_indentedEntries (level : Nat) :
    ∀ es : List (Value × Value), isLines (indentedEntries level es)
  | [] => rfl
  | [(k, v)] => by
    simp only [indentedEntries, isLines_append, isLines_of_isPlain, isPlain_marks, isPlain_key k,
      isLines_newline, isLines_indentedAt level v, Bool.and_self]
  | (k, v) :: e :: rest => by
    simp only [indentedEntries, isLines_append, isLines_of_isPlain, isPlain_marks, isPlain_key k,
      isLines_newline, isLines_indentedAt level v, isLines_indentedEntries level (e :: rest),
      Bool.and_self]

end

theorem isLines_indented (v : Value) : isLines (indented v) := isLines_indentedAt 0 v

end Json

end Snippets
