import Mathlib.Data.List.TakeDrop
import Mathlib.Data.List.TakeWhile
import Mathlib.Tactic.SplitIfs
import Snippets.Json.Reader

/-!
# The JSON grammar

`Document v t` says that the grammar derives the text `t` with the value `v`. What the grammar
derives is read as that value (`parse_of_document`), so a text has at most one value
(`Document.unique`).
-/

namespace Snippets.Json

/-! ## Derivations -/

/-- What one code point of a string is written as. -/
inductive Symbol : CodePoint → Text → Prop
  | raw {c : CodePoint} (hlow : 0x20 ≤ c.val) (hquote : c ≠ 0x22) (hslash : c ≠ 0x5c) :
    Symbol c [c]
  | letter {c e : CodePoint} (h : escapeLetter? e = some c) : Symbol c [0x5c, e]
  | unit {n : Nat} {a b c d : CodePoint} (h : unit? a b c d = some n) :
    Symbol (.ofNat n) [0x5c, 0x75, a, b, c, d]

/-- What stands between the quotes. -/
inductive Symbols : Text → Text → Prop
  | nil : Symbols [] []
  | cons {c : CodePoint} {units t u : Text} (first : Symbol c t) (rest : Symbols units u) :
    Symbols (c :: units) (t ++ u)

/-- A string denotes its units with the pairs joined. -/
inductive Quoted : Text → Text → Prop
  | mk {units t : Text} (h : Symbols units t) : Quoted units.joinPairs (0x22 :: (t ++ [0x22]))

/-- One or more digits. -/
def IsDigits (t : Text) : Prop := t ≠ [] ∧ ∀ c ∈ t, c.isDigit

/-- Digits without a zero in front of others. -/
def IsWhole (t : Text) : Prop := IsDigits t ∧ (t.head? = some 0x30 → t = [0x30])

inductive Fraction : Option Text → Text → Prop
  | absent : Fraction none []
  | digits {ds : Text} (h : IsDigits ds) : Fraction (some ds) (0x2e :: ds)

/-- A sign that may stand in an exponent, and whether it is a minus. -/
inductive Sign : Bool → Text → Prop
  | absent : Sign false []
  | plus : Sign false [0x2b]
  | minus : Sign true [0x2d]

/-- A number with or without a minus. -/
def signed (negative : Bool) (n : Nat) : Int := if negative then -(n : Int) else n

inductive Exponent : Option Int → Text → Prop
  | absent : Exponent none []
  | digits {e : CodePoint} {negative : Bool} {s ds : Text} (he : e = 0x65 ∨ e = 0x45)
    (hs : Sign negative s) (h : IsDigits ds) :
    Exponent (some (signed negative (Text.digitsValue ds))) (e :: (s ++ ds))

/-- The value of a number from its parts. -/
def numberValue (negative : Bool) (whole : Text) : Option Text → Option Int → Value
  | none, none => .int (signed negative (Text.digitsValue whole))
  | fraction, exponent =>
    .real (Real64.ofDecimal negative (Text.digitsValue (whole ++ fraction.getD []))
      (exponent.getD 0 - (fraction.getD []).length))

def minus (negative : Bool) : Text := if negative then [0x2d] else []

/-- Blanks, which may stand around every value, key and mark. -/
def IsBlank (w : Text) : Prop := ∀ c ∈ w, isSpace c

mutual

inductive Derives : Value → Text → Prop
  | null : Derives .null (text "null")
  | bool (b : Bool) : Derives (.bool b) (text (if b then "true" else "false"))
  | number {whole f e : Text} {fraction : Option Text} {exponent : Option Int} (negative : Bool)
    (hw : IsWhole whole) (hf : Fraction fraction f) (he : Exponent exponent e) :
    Derives (numberValue negative whole fraction exponent) (minus negative ++ (whole ++ (f ++ e)))
  | string {s t : Text} (h : Quoted s t) : Derives (.text s) t
  | noItems {w : Text} (hw : IsBlank w) : Derives (.list []) (0x5b :: (w ++ [0x5d]))
  | items {vs : List Value} {t : Text} (h : Items vs t) :
    Derives (.list vs) (0x5b :: (t ++ [0x5d]))
  | noEntries {w : Text} (hw : IsBlank w) : Derives (.map []) (0x7b :: (w ++ [0x7d]))
  | entries {es : List (Value × Value)} {t : Text} (h : Entries [] es t) :
    Derives (.map es) (0x7b :: (t ++ [0x7d]))

/-- The items between two brackets. -/
inductive Items : List Value → Text → Prop
  | last {v : Value} {w t w' : Text} (hw : IsBlank w) (h : Derives v t) (hw' : IsBlank w') :
    Items [v] (w ++ (t ++ w'))
  | more {v : Value} {vs : List Value} {w t w' u : Text} (hw : IsBlank w) (h : Derives v t)
    (hw' : IsBlank w') (rest : Items vs u) : Items (v :: vs) (w ++ (t ++ (w' ++ 0x2c :: u)))

/-- The entries between two braces, with those before and those after they are read: a repeated
key keeps its first place and its last value. -/
inductive Entries : List (Value × Value) → List (Value × Value) → Text → Prop
  | last {es : List (Value × Value)} {k : Text} {v : Value} {w q w₁ w₂ t w₃ : Text}
    (hw : IsBlank w) (hk : Quoted k q) (hw₁ : IsBlank w₁) (hw₂ : IsBlank w₂) (h : Derives v t)
    (hw₃ : IsBlank w₃) : Entries es (Value.insertEntry (.text k) v es)
      (w ++ (q ++ (w₁ ++ 0x3a :: (w₂ ++ (t ++ w₃)))))
  | more {es fs : List (Value × Value)} {k : Text} {v : Value} {w q w₁ w₂ t w₃ u : Text}
    (hw : IsBlank w) (hk : Quoted k q) (hw₁ : IsBlank w₁) (hw₂ : IsBlank w₂) (h : Derives v t)
    (hw₃ : IsBlank w₃) (rest : Entries (Value.insertEntry (.text k) v es) fs u) :
    Entries es fs (w ++ (q ++ (w₁ ++ 0x3a :: (w₂ ++ (t ++ (w₃ ++ 0x2c :: u))))))

end

/-- A whole text: one value with blanks around it. -/
inductive Document : Value → Text → Prop
  | mk {v : Value} {w t w' : Text} (hw : IsBlank w) (h : Derives v t) (hw' : IsBlank w') :
    Document v (w ++ (t ++ w'))

/-! ## Blanks -/

theorem isBlank_nil : IsBlank [] := by simp [IsBlank]

theorem skipSpace_append {w t : Text} (hw : IsBlank w) : skipSpace (w ++ t) = skipSpace t :=
  List.dropWhile_append_of_pos hw

theorem skipSpace_cons {c : CodePoint} {t : Text} (hc : isSpace c = false) :
    skipSpace (c :: t) = c :: t :=
  List.dropWhile_cons_of_neg (by simp [hc])

/-- Blanks before a mark are passed over. -/
theorem skipSpace_append_cons {w t : Text} {c : CodePoint} (hw : IsBlank w)
    (hc : isSpace c = false) : skipSpace (w ++ c :: t) = c :: t := by
  rw [skipSpace_append hw, skipSpace_cons hc]

theorem readValue_append {w t : Text} (hw : IsBlank w) (depth : Nat) :
    readValue depth (w ++ t) = readValue depth t := by
  cases depth with
  | zero => rw [readValue, readValue]
  | succ depth => rw [readValue, readValue, skipSpace_append hw]

/-! ## Strings -/

/-- Each symbol is read on its own, whatever follows it. -/
theorem stringUnits_symbol {c : CodePoint} {t : Text} (h : Symbol c t) (rest : Text) :
    stringUnits (t ++ rest) = (stringUnits rest).map fun r => (c :: r.1, r.2) := by
  have hslash : (0x5c : CodePoint) ≠ 0x22 := by decide
  cases h with
  | raw hlow hquote hslash =>
    rw [List.singleton_append, stringUnits.eq_def]
    simp only [if_neg hquote, if_neg hslash, if_neg (Nat.not_lt.2 hlow)]
    cases stringUnits rest <;> rfl
  | @letter _ e h =>
    have hne : e ≠ 0x75 := by
      rintro rfl
      have hu : escapeLetter? 0x75 = none := by decide
      rw [hu] at h
      cases h
    rw [List.cons_append, List.singleton_append, stringUnits.eq_def]
    simp only [if_neg hslash, if_true, if_neg hne, h]
    cases stringUnits rest <;> rfl
  | unit h =>
    simp only [List.cons_append, List.nil_append, stringUnits, if_neg hslash, if_true, h]
    cases stringUnits rest <;> rfl

theorem stringUnits_symbols {units t : Text} (h : Symbols units t) (rest : Text) :
    stringUnits (t ++ 0x22 :: rest) = some (units, rest) := by
  induction h with
  | nil =>
    rw [List.nil_append, stringUnits.eq_def]
    rfl
  | cons first _ ih =>
    rw [List.append_assoc, stringUnits_symbol first, ih]
    rfl

/-- A string is read as what it denotes. -/
theorem readString_quoted {s t : Text} (h : Quoted s t) :
    ∃ body, t = 0x22 :: body ∧ ∀ rest, readString (body ++ rest) = some (s, rest) := by
  obtain ⟨hs⟩ := h
  refine ⟨_, rfl, fun rest => ?_⟩
  rw [List.append_assoc, List.singleton_append, readString, stringUnits_symbols hs]
  rfl

/-! ## Numbers -/

/-- Nothing follows that could belong to a number. -/
def Ends (t : Text) : Prop :=
  ∀ c ∈ t.head?, c.isDigit = false ∧ c ≠ 0x2e ∧ c ≠ 0x65 ∧ c ≠ 0x45

theorem ends_nil : Ends [] := by simp [Ends]

theorem ends_append {w t : Text} (hw : IsBlank w) (ht : Ends t) : Ends (w ++ t) := by
  cases w with
  | nil => exact ht
  | cons c w =>
    have hc := hw c List.mem_cons_self
    intro d hd
    obtain rfl : c = d := by simpa using hd
    simp only [isSpace, Bool.or_eq_true, decide_eq_true_eq] at hc
    rcases hc with ((rfl | rfl) | rfl) | rfl <;> decide

theorem digits_append {ds rest : Text} (hd : ∀ c ∈ ds, c.isDigit)
    (hr : ∀ c ∈ rest.head?, c.isDigit = false) : digits (ds ++ rest) = (ds, rest) := by
  have hrest : rest.takeWhile CodePoint.isDigit = [] ∧
      rest.dropWhile CodePoint.isDigit = rest := by
    cases rest with
    | nil => exact ⟨rfl, rfl⟩
    | cons c rest =>
      have hc := hr c (by simp)
      exact ⟨List.takeWhile_cons_of_neg (by simp [hc]), List.dropWhile_cons_of_neg (by simp [hc])⟩
  rw [digits, List.span_eq_takeWhile_dropWhile, List.takeWhile_append_of_pos hd,
    List.dropWhile_append_of_pos hd, hrest.1, hrest.2, List.append_nil]

theorem isEmpty_of_isDigits {ds : Text} (h : IsDigits ds) : ds.isEmpty = false := by
  rw [List.isEmpty_eq_false_iff]
  exact h.1

theorem readFraction_append {fraction : Option Text} {f rest : Text} (h : Fraction fraction f)
    (hdigit : ∀ c ∈ rest.head?, c.isDigit = false) (hpoint : ∀ c ∈ rest.head?, c ≠ 0x2e) :
    readFraction (f ++ rest) = (fraction, rest) := by
  cases h with
  | absent =>
    cases rest with
    | nil => rfl
    | cons c rest =>
      have hc : c ≠ 0x2e := hpoint c (by simp)
      simp only [List.nil_append, readFraction, if_neg hc]
  | digits h =>
    simp only [List.cons_append, readFraction, if_true, digits_append h.2 hdigit,
      isEmpty_of_isDigits h, Bool.false_eq_true, if_false]

theorem takeSign_append {negative : Bool} {s ds : Text} (hs : Sign negative s)
    (h : IsDigits ds) (rest : Text) :
    Text.takeSign (s ++ (ds ++ rest)) = (negative, ds ++ rest) := by
  cases hs with
  | absent =>
    obtain ⟨c, ds, rfl⟩ := List.exists_cons_of_ne_nil h.1
    have hc := h.2 c List.mem_cons_self
    have hminus : c ≠ 0x2d := by rintro rfl; exact absurd hc (by decide)
    have hplus : c ≠ 0x2b := by rintro rfl; exact absurd hc (by decide)
    simp only [List.nil_append, List.cons_append, Text.takeSign, if_neg hminus, if_neg hplus]
  | plus => rfl
  | minus => rfl

theorem readExponent_append {exponent : Option Int} {e rest : Text} (h : Exponent exponent e)
    (hrest : Ends rest) : readExponent (e ++ rest) = (exponent, rest) := by
  cases h with
  | absent =>
    cases rest with
    | nil => rfl
    | cons c rest =>
      have hc := hrest c (by simp)
      simp only [List.nil_append, readExponent, if_neg (not_or.2 hc.2.2)]
  | digits he hs h =>
    simp only [List.cons_append, List.append_assoc, readExponent, if_pos he,
      takeSign_append hs h, digits_append h.2 fun c hc => (hrest c hc).1,
      isEmpty_of_isDigits h, Bool.false_eq_true, if_false]
    rfl

/-- What follows the fraction is no digit and no point. -/
theorem head?_exponent {exponent : Option Int} {e rest : Text} (h : Exponent exponent e)
    (hrest : Ends rest) :
    ∀ c ∈ (e ++ rest).head?, c.isDigit = false ∧ c ≠ 0x2e := by
  cases h with
  | absent => exact fun c hc => ⟨(hrest c hc).1, (hrest c hc).2.1⟩
  | digits he _ _ =>
    intro c hc
    obtain rfl := Option.some.inj hc
    rcases he with rfl | rfl <;> decide

theorem head?_fraction {fraction : Option Text} {f rest : Text} (h : Fraction fraction f)
    (hrest : ∀ c ∈ rest.head?, c.isDigit = false) :
    ∀ c ∈ (f ++ rest).head?, c.isDigit = false := by
  cases h with
  | absent => exact hrest
  | digits _ =>
    intro c hc
    obtain rfl := Option.some.inj hc
    decide

/-- A number is read as the value of its parts. -/
theorem readNumber_append (negative : Bool) {whole f e rest : Text} {fraction : Option Text}
    {exponent : Option Int} (hw : IsDigits whole) (hf : Fraction fraction f)
    (he : Exponent exponent e) (hrest : Ends rest) :
    readNumber negative (whole ++ (f ++ (e ++ rest))) =
      some (numberValue negative whole fraction exponent, rest) := by
  have hexp := head?_exponent he hrest
  simp only [readNumber, digits_append hw.2 (head?_fraction hf fun c hc => (hexp c hc).1),
    isEmpty_of_isDigits hw, Bool.false_eq_true, if_false,
    readFraction_append hf (fun c hc => (hexp c hc).1) (fun c hc => (hexp c hc).2),
    readExponent_append he hrest]
  cases fraction <;> cases exponent <;> rfl

theorem ne_of_isDigit {c d : CodePoint} (hc : c.isDigit) (hd : d.isDigit = false) : c ≠ d := by
  rintro rfl
  rw [hc] at hd
  cases hd

theorem isSpace_of_isDigit {c : CodePoint} (hc : c.isDigit) : isSpace c = false := by
  have hne : ∀ d : CodePoint, d.isDigit = false → c ≠ d := fun _ => ne_of_isDigit hc
  simp only [isSpace, hne 0x20 (by decide), hne 0x09 (by decide), hne 0x0a (by decide),
    hne 0x0d (by decide), decide_false, Bool.or_self]

/-- A digit starts no other value. -/
theorem readValue_digit {c : CodePoint} (hc : c.isDigit) (depth : Nat) (t : Text) :
    readValue (depth + 1) (c :: t) = readNumber false (c :: t) := by
  have hne : ∀ d : CodePoint, d.isDigit = false → c ≠ d := fun _ => ne_of_isDigit hc
  simp only [readValue, skipSpace_cons (isSpace_of_isDigit hc), if_neg (hne 0x22 (by decide)),
    if_neg (hne 0x5b (by decide)), if_neg (hne 0x7b (by decide)), if_neg (hne 0x2d (by decide)),
    if_pos hc]

theorem readValue_minus {c : CodePoint} (hc : c.isDigit) (depth : Nat) (t : Text) :
    readValue (depth + 1) (0x2d :: c :: t) = readNumber true (c :: t) := by
  have hI : (0x49 : CodePoint) ≠ c := by
    rintro rfl
    exact absurd hc (by decide)
  have hword : readWord (text "Infinity") (.real (Real64.infinity true)) (c :: t) = none := by
    have htext : text "Infinity" = 0x49 :: text "nfinity" := by decide +kernel
    rw [readWord, htext, List.isPrefixOf_cons_cons, beq_false_of_ne hI]
    rfl
  have hspace : isSpace 0x2d = false := by decide
  simp only [readValue, skipSpace_cons hspace, hword]
  rfl

/-! ## Values -/

theorem readWord_append (word : Text) (v : Value) (rest : Text) :
    readWord word v (word ++ rest) = some (v, rest) := by
  rw [readWord, if_pos (List.isPrefixOf_iff_prefix.2 (List.prefix_append _ _)), List.drop_left]

/-- A word is not at the front of a text that begins otherwise. -/
theorem readWord_of_ne {a c : CodePoint} (h : a ≠ c) (word : Text) (v : Value) (t : Text) :
    readWord (a :: word) v (c :: t) = none := by
  rw [readWord, List.isPrefixOf_cons_cons, beq_false_of_ne h]
  rfl

theorem readValue_null (depth : Nat) (rest : Text) :
    readValue (depth + 1) (text "null" ++ rest) = some (.null, rest) := by
  have hword := readWord_append (text "null") .null rest
  have hspace : isSpace 0x6e = false := by decide
  have htext : text "null" = 0x6e :: text "ull" := by decide +kernel
  rw [htext, List.cons_append] at hword ⊢
  simp only [readValue, skipSpace_cons hspace]
  rw [htext, hword]
  rfl

theorem readValue_bool (b : Bool) (depth : Nat) (rest : Text) :
    readValue (depth + 1) (text (if b then "true" else "false") ++ rest) =
      some (.bool b, rest) := by
  have hnull : text "null" = 0x6e :: text "ull" := by decide +kernel
  have htrue : text "true" = 0x74 :: text "rue" := by decide +kernel
  have hfalse : text "false" = 0x66 :: text "alse" := by decide +kernel
  cases b with
  | true =>
    have hword := readWord_append (text "true") (.bool true) rest
    have hspace : isSpace 0x74 = false := by decide
    rw [if_pos rfl]
    rw [htrue, List.cons_append] at hword ⊢
    simp only [readValue, skipSpace_cons hspace]
    rw [hnull, readWord_of_ne (by decide), htrue, hword]
    rfl
  | false =>
    have hword := readWord_append (text "false") (.bool false) rest
    have hspace : isSpace 0x66 = false := by decide
    rw [if_neg (by decide)]
    rw [hfalse, List.cons_append] at hword ⊢
    simp only [readValue, skipSpace_cons hspace]
    rw [hnull, readWord_of_ne (by decide), htrue, readWord_of_ne (by decide), hfalse, hword]
    rfl

theorem readValue_number {negative : Bool} {whole f e rest : Text} {fraction : Option Text}
    {exponent : Option Int} (hw : IsDigits whole) (hf : Fraction fraction f)
    (he : Exponent exponent e) (hrest : Ends rest) (depth : Nat) :
    readValue (depth + 1) (minus negative ++ (whole ++ (f ++ (e ++ rest)))) =
      some (numberValue negative whole fraction exponent, rest) := by
  have hread := readNumber_append negative hw hf he hrest
  obtain ⟨c, ds, rfl⟩ := List.exists_cons_of_ne_nil hw.1
  have hc := hw.2 c List.mem_cons_self
  cases negative with
  | true => exact (readValue_minus hc depth _).trans hread
  | false => exact (readValue_digit hc depth _).trans hread

theorem readValue_string {s t : Text} (h : Quoted s t) (depth : Nat) (rest : Text) :
    readValue (depth + 1) (t ++ rest) = some (.text s, rest) := by
  obtain ⟨body, rfl, hread⟩ := readString_quoted h
  have hspace : isSpace 0x22 = false := by decide
  simp only [List.cons_append, readValue, skipSpace_cons hspace, if_true, hread]
  rfl

/-- The first code point of a value is no blank, and no bracket that ends a list. -/
theorem Derives.front {v : Value} {t : Text} (h : Derives v t) :
    ∃ c u, t = c :: u ∧ isSpace c = false ∧ c ≠ 0x5d := by
  cases h with
  | null => exact ⟨0x6e, text "ull", by decide +kernel, by decide, by decide⟩
  | bool b =>
    cases b with
    | true => exact ⟨0x74, text "rue", by decide +kernel, by decide, by decide⟩
    | false => exact ⟨0x66, text "alse", by decide +kernel, by decide, by decide⟩
  | number negative hw hf he =>
    cases negative with
    | true => exact ⟨0x2d, _, rfl, by decide, by decide⟩
    | false =>
      obtain ⟨c, ds, rfl⟩ := List.exists_cons_of_ne_nil hw.1.1
      have hc := hw.1.2 c List.mem_cons_self
      refine ⟨c, _, rfl, isSpace_of_isDigit hc, ?_⟩
      rintro rfl
      exact absurd hc (by decide)
  | string h =>
    obtain ⟨body, rfl, -⟩ := readString_quoted h
    exact ⟨0x22, body, rfl, by decide, by decide⟩
  | noItems hw => exact ⟨0x5b, _, rfl, by decide, by decide⟩
  | items h => exact ⟨0x5b, _, rfl, by decide, by decide⟩
  | noEntries hw => exact ⟨0x7b, _, rfl, by decide, by decide⟩
  | entries h => exact ⟨0x7b, _, rfl, by decide, by decide⟩

theorem Items.skipSpace_append {vs : List Value} {t : Text} (h : Items vs t) (rest : Text) :
    ∃ c u, skipSpace (t ++ rest) = c :: u ∧ c ≠ 0x5d := by
  cases h with
  | last hw h _ | more hw h _ _ =>
    obtain ⟨c, u, rfl, hspace, hne⟩ := h.front
    rw [List.append_assoc, Json.skipSpace_append hw]
    exact ⟨c, _, skipSpace_cons hspace, hne⟩

theorem Entries.skipSpace_append {es fs : List (Value × Value)} {t : Text} (h : Entries es fs t)
    (rest : Text) : ∃ c u, skipSpace (t ++ rest) = c :: u ∧ c ≠ 0x7d := by
  have hspace : isSpace 0x22 = false := by decide
  cases h with
  | last hw hk _ _ _ _ | more hw hk _ _ _ _ _ =>
    obtain ⟨body, rfl, -⟩ := readString_quoted hk
    rw [List.append_assoc, Json.skipSpace_append hw]
    exact ⟨0x22, _, skipSpace_cons hspace, by decide⟩

theorem readValue_noItems {w : Text} (hw : IsBlank w) (depth : Nat) (rest : Text) :
    readValue (depth + 1) (0x5b :: (w ++ 0x5d :: rest)) = some (.list [], rest) := by
  have hopen : isSpace 0x5b = false := by decide
  have hclose : isSpace 0x5d = false := by decide
  simp only [readValue, skipSpace_cons hopen, skipSpace_append_cons hw hclose]
  rfl

theorem readValue_items {vs : List Value} {t rest : Text} (h : Items vs t) {depth : Nat}
    (hread : readItems depth (t ++ 0x5d :: rest) = some (vs, rest)) :
    readValue (depth + 1) (0x5b :: (t ++ 0x5d :: rest)) = some (.list vs, rest) := by
  have hopen : isSpace 0x5b = false := by decide
  obtain ⟨c, u, hskip, hc⟩ := h.skipSpace_append (0x5d :: rest)
  simp only [readValue, skipSpace_cons hopen, hskip, if_neg hc, hread]
  rfl

theorem readValue_noEntries {w : Text} (hw : IsBlank w) (depth : Nat) (rest : Text) :
    readValue (depth + 1) (0x7b :: (w ++ 0x7d :: rest)) = some (.map [], rest) := by
  have hopen : isSpace 0x7b = false := by decide
  have hclose : isSpace 0x7d = false := by decide
  simp only [readValue, skipSpace_cons hopen, skipSpace_append_cons hw hclose]
  rfl

theorem readValue_entries {es : List (Value × Value)} {t rest : Text} (h : Entries [] es t)
    {depth : Nat} (hread : readEntries depth [] (t ++ 0x7d :: rest) = some (es, rest)) :
    readValue (depth + 1) (0x7b :: (t ++ 0x7d :: rest)) = some (.map es, rest) := by
  have hopen : isSpace 0x7b = false := by decide
  obtain ⟨c, u, hskip, hc⟩ := h.skipSpace_append (0x7d :: rest)
  simp only [readValue, skipSpace_cons hopen, hskip, if_neg hc, hread]
  rfl

/-! ## Items and entries -/

theorem ends_cons (c : CodePoint)
    (hc : c.isDigit = false ∧ c ≠ 0x2e ∧ c ≠ 0x65 ∧ c ≠ 0x45) (rest : Text) :
    Ends (c :: rest) := by
  intro d hd
  obtain rfl := Option.some.inj hd
  exact hc

/-- A key, its colon and its value are read together. -/
theorem readEntries_entry (es : List (Value × Value)) {k : Text} {v : Value} {w q w₁ w₂ t : Text}
    {rest : Text} {depth : Nat} (hw : IsBlank w) (hk : Quoted k q) (hw₁ : IsBlank w₁)
    (hw₂ : IsBlank w₂) (hread : readValue depth (t ++ rest) = some (v, rest)) :
    readEntries (depth + 1) es (w ++ (q ++ (w₁ ++ 0x3a :: (w₂ ++ (t ++ rest))))) =
      match skipSpace rest with
      | [] => none
      | c :: rest =>
        if c = 0x7d then some (Value.insertEntry (.text k) v es, rest)
        else if c = 0x2c then readEntries depth (Value.insertEntry (.text k) v es) rest
        else none := by
  obtain ⟨body, rfl, hstring⟩ := readString_quoted hk
  have hquote : isSpace 0x22 = false := by decide
  have hcolon : isSpace 0x3a = false := by decide
  generalize hskip : skipSpace rest = u
  cases u <;>
    simp only [readEntries, skipSpace_append hw, List.cons_append, skipSpace_cons hquote, hstring,
      if_true, skipSpace_append_cons hw₁ hcolon, readValue_append hw₂, hread, hskip,
      Option.bind_eq_bind, Option.bind_some]

mutual

/-- The induction is on the derivation; each nested value leaves enough of the depth. -/
theorem readValue_of_derives : ∀ {v : Value} {t : Text}, Derives v t → ∀ (depth : Nat)
    (rest : Text), t.length < depth → Ends rest → readValue depth (t ++ rest) = some (v, rest)
  | _, _, .null, depth + 1, rest, _, _ => readValue_null depth rest
  | _, _, .bool b, depth + 1, rest, _, _ => readValue_bool b depth rest
  | _, _, .number negative hw hf he, depth + 1, rest, _, hrest => by
    simpa only [List.append_assoc] using readValue_number hw.1 hf he hrest depth
  | _, _, .string h, depth + 1, rest, _, _ => readValue_string h depth rest
  | _, _, .noItems hw, depth + 1, rest, _, _ => by
    simpa only [List.cons_append, List.append_assoc, List.nil_append] using
      readValue_noItems hw depth rest
  | _, _, .items h, depth + 1, rest, hlen, _ => by
    have hread := readItems_of_items h depth rest (by simp at hlen; omega)
    simpa only [List.cons_append, List.append_assoc, List.nil_append] using
      readValue_items h hread
  | _, _, .noEntries hw, depth + 1, rest, _, _ => by
    simpa only [List.cons_append, List.append_assoc, List.nil_append] using
      readValue_noEntries hw depth rest
  | _, _, .entries h, depth + 1, rest, hlen, _ => by
    have hread := readEntries_of_entries h depth rest (by simp at hlen; omega)
    simpa only [List.cons_append, List.append_assoc, List.nil_append] using
      readValue_entries h hread

theorem readItems_of_items : ∀ {vs : List Value} {t : Text}, Items vs t → ∀ (depth : Nat)
    (rest : Text), t.length + 1 < depth → readItems depth (t ++ 0x5d :: rest) = some (vs, rest)
  | _, _, .last hw h hw', depth + 1, rest, hlen => by
    have hclose : isSpace 0x5d = false := by decide
    have hread := readValue_of_derives h depth _ (by simp at hlen; omega)
      (ends_append hw' (ends_cons 0x5d (by decide) rest))
    simp only [List.append_assoc, readItems, readValue_append hw, hread, Option.bind_eq_bind,
      Option.bind_some, skipSpace_append_cons hw' hclose, if_true]
  | _, _, .more (u := u) hw h hw' more, depth + 1, rest, hlen => by
    have hcomma : isSpace 0x2c = false := by decide
    have hread := readValue_of_derives h depth _ (by simp at hlen; omega)
      (ends_append hw' (ends_cons 0x2c (by decide) (u ++ 0x5d :: rest)))
    have hmore := readItems_of_items more depth rest (by simp at hlen; omega)
    simp only [List.append_assoc, List.cons_append, readItems, readValue_append hw, hread,
      Option.bind_eq_bind, Option.bind_some, skipSpace_append_cons hw' hcomma, hmore]
    rfl

theorem readEntries_of_entries : ∀ {es fs : List (Value × Value)} {t : Text}, Entries es fs t →
    ∀ (depth : Nat) (rest : Text), t.length + 1 < depth →
    readEntries depth es (t ++ 0x7d :: rest) = some (fs, rest)
  | es, _, _, .last hw hk hw₁ hw₂ h hw₃, depth + 1, rest, hlen => by
    have hclose : isSpace 0x7d = false := by decide
    have hread := readValue_of_derives h depth _ (by simp at hlen; omega)
      (ends_append hw₃ (ends_cons 0x7d (by decide) rest))
    have hentry := readEntries_entry es hw hk hw₁ hw₂ hread
    simp only [List.append_assoc, List.cons_append]
    rw [hentry, skipSpace_append_cons hw₃ hclose]
    rfl
  | es, _, _, .more (u := u) hw hk hw₁ hw₂ h hw₃ more, depth + 1, rest, hlen => by
    have hcomma : isSpace 0x2c = false := by decide
    have hread := readValue_of_derives h depth _ (by simp at hlen; omega)
      (ends_append hw₃ (ends_cons 0x2c (by decide) (u ++ 0x7d :: rest)))
    have hmore := readEntries_of_entries more depth rest (by simp at hlen; omega)
    have hentry := readEntries_entry es hw hk hw₁ hw₂ hread
    simp only [List.append_assoc, List.cons_append]
    rw [hentry, skipSpace_append_cons hw₃ hcomma]
    exact hmore

end

/-! ## Whole texts -/

/-- What the grammar derives is read as its value. -/
theorem parse_of_document {v : Value} {t : Text} (h : Document v t) : parse t = some v := by
  obtain ⟨hw, h, hw'⟩ := h
  rename_i w t w'
  have hread := readValue_of_derives h ((w ++ (t ++ w')).length + 1) w' (by simp; omega)
    (by simpa using ends_append hw' ends_nil)
  have hend : skipSpace w' = [] := by
    have := skipSpace_append (t := []) hw'
    rwa [List.append_nil] at this
  rw [parse, readValue_append hw, hread]
  simp only [Option.bind_eq_bind, Option.bind_some, hend]
  rfl

/-- A text has at most one value. -/
theorem Document.unique {v v' : Value} {t : Text} (h : Document v t) (h' : Document v' t) :
    v = v' :=
  Option.some.inj ((parse_of_document h).symm.trans (parse_of_document h'))

end Snippets.Json
