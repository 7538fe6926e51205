import Mathlib.Data.List.Basic
import Mathlib.Data.List.TakeWhile
import Mathlib.Tactic.ByContra
import Mathlib.Tactic.SplitIfs
import Snippets.Text.Utf8

/-!
# Which texts can be encoded

A text can be encoded if and only if no surrogate stands in it, and its bytes are then those of the
string with the same code points (`encode_toString?`).
-/

namespace Snippets

theorem CodePoint.isSurrogate_eq_false_iff (c : CodePoint) :
    c.isSurrogate = false ↔ c.val < 0xd800 ∨ 0xe000 ≤ c.val := by
  unfold isSurrogate isHigh isLow
  simp only [Bool.or_eq_false_iff, Bool.and_eq_false_iff, decide_eq_false_iff_not]
  omega

theorem CodePoint.toNat_ofNat_val {c : CodePoint} (h : c.isSurrogate = false) :
    (Char.ofNat c.val).toNat = c.val := by
  have hvalid : c.val.isValidChar := by
    have hc := c.isSurrogate_eq_false_iff.1 h
    have hlt := c.isLt
    unfold Nat.isValidChar
    omega
  unfold Char.ofNat
  rw [dif_pos hvalid]
  rfl

namespace Utf8

/-- Outside the surrogates a code point is encoded as the character with its number. -/
theorem encodePoint_eq {c : CodePoint} (h : c.isSurrogate = false) :
    encodePoint c = String.utf8EncodeChar (Char.ofNat c.val) := by
  have hval : (Char.ofNat c.val).val.toNat = c.val := CodePoint.toNat_ofNat_val h
  have hlt := c.isLt
  unfold encodePoint String.utf8EncodeChar
  simp only [hval]
  by_cases h₁ : c.val < 0x80
  · rw [if_pos h₁, if_pos (by omega)]
  by_cases h₂ : c.val < 0x800
  · rw [if_neg h₁, if_pos h₂, if_neg (by omega), if_pos (by omega),
      show c.val / 64 % 32 + 192 = 192 + c.val / 64 by omega, Nat.add_comm (c.val % 64)]
  by_cases h₃ : c.val < 0x10000
  · rw [if_neg h₁, if_neg h₂, if_pos h₃, if_neg (by omega), if_neg (by omega), if_pos (by omega),
      show c.val / 4096 % 16 + 224 = 224 + c.val / 4096 by omega, Nat.add_comm (c.val % 64),
      Nat.add_comm (c.val / 64 % 64)]
  · rw [if_neg h₁, if_neg h₂, if_neg h₃, if_neg (by omega), if_neg (by omega), if_neg (by omega),
      show c.val / 262144 % 8 + 240 = 240 + c.val / 262144 by omega, Nat.add_comm (c.val % 64),
      Nat.add_comm (c.val / 64 % 64), Nat.add_comm (c.val / 4096 % 64)]

theorem encode_eq (t : Text) : encode t =
    match t.dropWhile (!·.isSurrogate) with
    | [] => .ok (t.flatMap encodePoint)
    | c :: rest => .error ⟨c, (t.takeWhile (!·.isSurrogate)).length,
        (t.takeWhile (!·.isSurrogate)).length + (rest.takeWhile CodePoint.isSurrogate).length⟩ := by
  have hdrop : t.drop (t.takeWhile (!·.isSurrogate)).length = t.dropWhile (!·.isSurrogate) := by
    have h := List.takeWhile_append_dropWhile (p := (!·.isSurrogate)) (l := t)
    calc t.drop (t.takeWhile (!·.isSurrogate)).length
        = (t.takeWhile (!·.isSurrogate) ++ t.dropWhile (!·.isSurrogate)).drop
            (t.takeWhile (!·.isSurrogate)).length := by rw [h]
      _ = t.dropWhile (!·.isSurrogate) := List.drop_left
  have hmatch : ∀ u, t.drop (t.takeWhile (!·.isSurrogate)).length = u → encode t =
      match u with
      | [] => .ok (t.flatMap encodePoint)
      | c :: rest => .error ⟨c, (t.takeWhile (!·.isSurrogate)).length,
          (t.takeWhile (!·.isSurrogate)).length +
            (rest.takeWhile CodePoint.isSurrogate).length⟩ := by
    rintro u rfl
    rfl
  exact hmatch _ hdrop

theorem encode_of_forall {t : Text} (h : ∀ c ∈ t, c.isSurrogate = false) :
    encode t = .ok (t.flatMap encodePoint) := by
  have hnil : t.dropWhile (!·.isSurrogate) = [] :=
    List.dropWhile_eq_nil_iff.2 fun c hc => by simp [h c hc]
  rw [encode_eq, hnil]

theorem encode_of_exists {t : Text} (h : ∃ c ∈ t, c.isSurrogate) : ∃ e, encode t = .error e := by
  rw [encode_eq]
  split
  · next hnil =>
    obtain ⟨c, hc, hs⟩ := h
    have := List.dropWhile_eq_nil_iff.1 hnil c hc
    simp [hs] at this
  · exact ⟨_, rfl⟩

/-- A text without surrogates is encoded as the string with its code points. -/
theorem encode_toString? {t : Text} {s : String} (h : t.toString? = some s) :
    ∃ bytes : List UInt8, encode t = .ok bytes ∧ bytes.toByteArray = s.toByteArray := by
  unfold Text.toString? at h
  split_ifs at h with hany
  cases h
  have hall : ∀ c ∈ t, c.isSurrogate = false := by
    intro c hc
    by_contra hs
    exact hany (List.any_eq_true.2 ⟨c, hc, by simpa using hs⟩)
  refine ⟨t.flatMap encodePoint, encode_of_forall hall, ?_⟩
  rw [String.toByteArray_ofList, List.utf8Encode, List.flatMap_map]
  congr 1
  exact List.flatMap_congr fun c hc => encodePoint_eq (hall c hc)

theorem encode_of_toString?_eq_none {t : Text} (h : t.toString? = none) :
    ∃ e, encode t = .error e := by
  unfold Text.toString? at h
  split_ifs at h with hany
  exact encode_of_exists (List.any_eq_true.1 hany)

end Utf8

end Snippets
