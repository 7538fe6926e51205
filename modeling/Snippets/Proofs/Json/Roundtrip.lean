import Mathlib.Data.List.Basic
import Snippets.Json.Writer
import Snippets.Proofs.Json.Grammar
import Snippets.Proofs.Number.Numerals

/-!
# What is written is read back

The text that `compact` writes of a simple value has one value in the JSON grammar, which is the
written one with the surrogate pairs inside its strings joined (`document_compact_iff`). So two
values are written alike if and only if they are the same up to these pairs (`compact_eq_iff`).
-/

namespace Snippets

namespace Value

mutual

/-- The value with the surrogate pairs inside each string joined. -/
def paired : Value → Value
  | text t => text t.joinPairs
  | list xs => list (pairedItems xs)
  | tuple xs => tuple (pairedItems xs)
  | map es => map (pairedEntries es)
  | v => v

def pairedItems : List Value → List Value
  | [] => []
  | x :: xs => x.paired :: pairedItems xs

def pairedEntries : List (Value × Value) → List (Value × Value)
  | [] => []
  | (k, v) :: es => (k.paired, v.paired) :: pairedEntries es

end

mutual

/-- What JSON has a form of its own for: neither tuples nor reals, and the keys of a mapping are
texts that stay apart when their pairs are joined. -/
def isSimple : Value → Bool
  | null => true
  | bool _ => true
  | int _ => true
  | real _ => false
  | text _ => true
  | list xs => simpleItems xs
  | tuple _ => false
  | map es => simpleEntries [] es

def simpleItems : List Value → Bool
  | [] => true
  | x :: xs => x.isSimple && simpleItems xs

/-- The entries are simple, and their keys are not among `keys`. -/
def simpleEntries (keys : List Text) : List (Value × Value) → Bool
  | [] => true
  | (text k, v) :: es =>
    !keys.contains k.joinPairs && v.isSimple && simpleEntries (k.joinPairs :: keys) es
  | _ => false

end

theorem pairedItems_eq_map (xs : List Value) : pairedItems xs = xs.map paired := by
  induction xs with
  | nil => rfl
  | cons x xs ih => rw [pairedItems, ih, List.map_cons]

theorem simpleItems_eq_all (xs : List Value) : simpleItems xs = xs.all isSimple := by
  induction xs with
  | nil => rfl
  | cons x xs ih => rw [simpleItems, ih, List.all_cons]

/-! A list of texts is simple, and is read with the pairs inside each text joined. -/

theorem isSimple_texts (ts : List Text) : (list (ts.map text)).isSimple := by
  rw [isSimple, simpleItems_eq_all, List.all_map]
  exact List.all_eq_true.2 fun _ _ => rfl

theorem paired_texts (ts : List Text) :
    (list (ts.map text)).paired = list ((ts.map Text.joinPairs).map text) := by
  rw [paired, pairedItems_eq_map, List.map_map, List.map_map]
  rfl

/-! A mapping with named fields is simple if the names stay apart and the values are simple. -/

def record (fields : List (Text × Value)) : Value := map (fields.map fun f => (text f.1, f.2))

theorem simpleEntries_fields {keys : List Text} {fields : List (Text × Value)}
    (hfresh : ∀ f ∈ fields, f.1.joinPairs ∉ keys)
    (hnames : (fields.map fun f => f.1.joinPairs).Nodup) (hvalues : ∀ f ∈ fields, f.2.isSimple) :
    simpleEntries keys (fields.map fun f => (text f.1, f.2)) := by
  induction fields generalizing keys with
  | nil => rfl
  | cons f fields ih =>
    rw [List.map_cons, List.nodup_cons] at hnames
    rw [List.forall_mem_cons] at hfresh hvalues
    have hrest : simpleEntries (f.1.joinPairs :: keys) (fields.map fun f => (text f.1, f.2)) := by
      refine ih (fun g hg hmem => ?_) hnames.2 hvalues.2
      rcases List.mem_cons.1 hmem with heq | hmem
      · exact hnames.1 (List.mem_map.2 ⟨g, hg, heq⟩)
      · exact hfresh.2 g hg hmem
    rw [List.map_cons, simpleEntries, hvalues.1, hrest]
    simpa using hfresh.1

theorem isSimple_record {fields : List (Text × Value)}
    (hnames : (fields.map fun f => f.1.joinPairs).Nodup) (hvalues : ∀ f ∈ fields, f.2.isSimple) :
    (record fields).isSimple := by
  rw [record, isSimple]
  exact simpleEntries_fields (fun _ _ => List.not_mem_nil) hnames hvalues

theorem paired_record (fields : List (Text × Value)) :
    (record fields).paired = record (fields.map fun f => (f.1.joinPairs, f.2.paired)) := by
  have hentries : ∀ fs : List (Text × Value), pairedEntries (fs.map fun f => (text f.1, f.2)) =
      fs.map fun f => (text f.1.joinPairs, f.2.paired) := by
    intro fs
    induction fs with
    | nil => rfl
    | cons f fs ih => rw [List.map_cons, pairedEntries, paired, ih, List.map_cons]
  rw [record, paired, hentries, record, List.map_map]
  rfl

/-- A key that is not there is added at the end. -/
theorem insertEntry_of_fresh {k : Text} {v : Value} {es : List (Value × Value)}
    (h : ∀ e ∈ es, ∃ l, e.1 = .text l ∧ l ≠ k) :
    insertEntry (.text k) v es = es ++ [(.text k, v)] := by
  induction es with
  | nil => rfl
  | cons e es ih =>
    obtain ⟨l, hl, hne⟩ := h e List.mem_cons_self
    obtain ⟨k', v'⟩ := e
    obtain rfl : k' = .text l := hl
    have hsame : (Value.text l).same (.text k) = false := by
      rw [same]
      exact beq_false_of_ne hne
    rw [insertEntry, hsame, ih fun e he => h e (List.mem_cons_of_mem _ he)]
    rfl

end Value

/-! ## Units of sixteen bits -/

namespace CodePoint

/-- The sixteen-bit units of a code point: itself, or a surrogate pair. -/
def units (c : CodePoint) : Text :=
  if c.val < 0x10000 then [c]
  else [ofNat (0xd800 + (c.val - 0x10000) / 0x400), ofNat (0xdc00 + (c.val - 0x10000) % 0x400)]

variable {c d : CodePoint}

theorem isHigh_iff : c.isHigh ↔ 0xd800 ≤ c.val ∧ c.val < 0xdc00 := by
  simp [isHigh]

theorem isLow_iff : c.isLow ↔ 0xdc00 ≤ c.val ∧ c.val < 0xe000 := by
  simp [isLow]

theorem units_of_lt (h : c.val < 0x10000) : c.units = [c] := if_pos h

theorem ofNat_val (c : CodePoint) : ofNat c.val = c := CodePoint.ext (val_ofNat c.isLt)

/-- An astral code point is two units that denote it. -/
theorem units_of_le (h : 0x10000 ≤ c.val) :
    ∃ high low : CodePoint,
      c.units = [high, low] ∧ high.isHigh ∧ low.isLow ∧ join high low = c := by
  have hc := c.isLt
  refine ⟨_, _, if_neg (Nat.not_lt.2 h), ?_, ?_, ?_⟩
  · rw [isHigh_iff, val_ofNat (by omega)]
    omega
  · rw [isLow_iff, val_ofNat (by omega)]
    omega
  · apply CodePoint.ext
    rw [join, val_ofNat (n := 0xd800 + _) (by omega), val_ofNat (n := 0xdc00 + _) (by omega),
      val_ofNat (by omega)]
    omega

/-- A pair is the two units of the code point it denotes. -/
theorem units_join (hc : c.isHigh) (hd : d.isLow) : (join c d).units = [c, d] := by
  rw [isHigh_iff] at hc
  rw [isLow_iff] at hd
  have hval : (join c d).val = 0x10000 + (c.val - 0xd800) * 0x400 + (d.val - 0xdc00) :=
    val_ofNat (by omega)
  have hhigh : ofNat (0xd800 + ((join c d).val - 0x10000) / 0x400) = c := by
    apply CodePoint.ext
    rw [val_ofNat (by omega)]
    omega
  have hlow : ofNat (0xdc00 + ((join c d).val - 0x10000) % 0x400) = d := by
    apply CodePoint.ext
    rw [val_ofNat (by omega)]
    omega
  rw [units, if_neg (by omega), hhigh, hlow]

end CodePoint

namespace Text

open CodePoint

/-- A code point that is no high surrogate before a low one stands for itself. -/
theorem joinPairs_cons {c : CodePoint} {t : Text} (h : c.isHigh → ∀ d ∈ t.head?, d.isLow = false) :
    joinPairs (c :: t) = c :: joinPairs t := by
  cases t with
  | nil => rfl
  | cons d t =>
    rw [joinPairs, if_neg]
    intro hpair
    rw [Bool.and_eq_true] at hpair
    have := h hpair.1 d rfl
    rw [hpair.2] at this
    cases this

/-- The first unit of a code point is low only if the code point is. -/
theorem head?_flatMap_units {t : Text} (h : ∀ d ∈ t.head?, d.isLow = false) :
    ∀ d ∈ (t.flatMap units).head?, d.isLow = false := by
  cases t with
  | nil => exact h
  | cons c t =>
    rcases Nat.lt_or_ge c.val 0x10000 with hc | hc
    · rw [List.flatMap_cons, units_of_lt hc]
      exact h
    · obtain ⟨high, low, hunits, hhigh, -, -⟩ := units_of_le hc
      rw [List.flatMap_cons, hunits]
      intro d hd
      obtain rfl := Option.some.inj hd
      rw [isHigh_iff] at hhigh
      simp only [isLow, Bool.and_eq_false_iff, decide_eq_false_iff_not]
      omega

/-- Splitting code points into units and joining the pairs is joining the pairs. -/
theorem joinPairs_flatMap_units (t : Text) : joinPairs (t.flatMap units) = joinPairs t := by
  have hstep : ∀ (c : CodePoint) (t : Text), (c.isHigh → ∀ d ∈ t.head?, d.isLow = false) →
      joinPairs (t.flatMap units) = joinPairs t →
      joinPairs ((c :: t).flatMap units) = joinPairs (c :: t) := by
    intro c t hc ih
    rw [joinPairs_cons hc, ← ih, List.flatMap_cons]
    rcases Nat.lt_or_ge c.val 0x10000 with hlt | hge
    · rw [units_of_lt hlt, List.singleton_append,
        joinPairs_cons fun h => head?_flatMap_units (hc h)]
    · obtain ⟨high, low, hunits, hhigh, hlow, hjoin⟩ := units_of_le hge
      rw [hunits, List.cons_append, List.singleton_append, joinPairs, hhigh, hlow, hjoin]
      rfl
  induction t using joinPairs.induct with
  | case1 => rfl
  | case2 c => exact hstep c [] (fun _ _ h => by cases h) rfl
  | case3 c d rest hpair ih =>
    rw [Bool.and_eq_true] at hpair
    have hc := isHigh_iff.1 hpair.1
    have hd := isLow_iff.1 hpair.2
    rw [List.flatMap_cons, List.flatMap_cons, units_of_lt (by omega), units_of_lt (by omega),
      List.singleton_append, List.singleton_append, joinPairs, joinPairs, hpair.1, hpair.2, ih]
    rfl
  | case4 c d rest hpair ih =>
    refine hstep c (d :: rest) (fun hc e he => ?_) ih
    obtain rfl := Option.some.inj he
    simpa [hc] using hpair

/-- Joining the pairs does not change the units. -/
theorem flatMap_units_joinPairs (t : Text) : (joinPairs t).flatMap units = t.flatMap units := by
  induction t using joinPairs.induct with
  | case1 => rfl
  | case2 c => rfl
  | case3 c d rest hpair ih =>
    rw [joinPairs, if_pos hpair, List.flatMap_cons, List.flatMap_cons, List.flatMap_cons, ih]
    rw [Bool.and_eq_true] at hpair
    have hc := isHigh_iff.1 hpair.1
    have hd := isLow_iff.1 hpair.2
    rw [units_join hpair.1 hpair.2, units_of_lt (by omega), units_of_lt (by omega)]
    rfl
  | case4 c d rest hpair ih =>
    rw [joinPairs, if_neg hpair, List.flatMap_cons, ih]
    rfl

/-- No high surrogate stands directly before a low one. -/
def noPairs : Text → Bool
  | [] => true
  | [_] => true
  | c :: d :: rest => !(c.isHigh && d.isLow) && noPairs (d :: rest)

theorem joinPairs_of_noPairs {t : Text} (h : noPairs t) : joinPairs t = t := by
  induction t using noPairs.induct with
  | case1 => rfl
  | case2 c => rfl
  | case3 c d rest ih =>
    rw [noPairs, Bool.and_eq_true, Bool.not_eq_true'] at h
    rw [joinPairs, h.1, ih h.2]
    rfl

/-! ## Digits -/

/-- A zero stands in front only of zero itself. -/
theorem eq_zero_of_head?_ofNat {n : Nat} (h : (ofNat n).head? = some 0x30) : n = 0 := by
  have hdigits : ∀ {n : Nat}, (Nat.toDigits 10 n).head? = some '0' → n = 0 := by
    intro n
    induction n using Nat.strongRecOn with
    | ind n ih =>
      intro h
      rcases Nat.lt_or_ge n 10 with hlt | hge
      · rw [Nat.toDigits_of_lt_base hlt] at h
        exact Nat.digitChar_eq_zero.1 (Option.some.inj h)
      · rw [Nat.toDigits_of_base_le (by decide) hge,
          List.head?_append_of_ne_nil _ Nat.toDigits_ne_nil] at h
        have := ih (n / 10) (by omega) h
        omega
  apply hdigits
  rw [ofNat, List.head?_map, Option.map_eq_some_iff] at h
  obtain ⟨d, hd, hval⟩ := h
  rw [hd]
  congr 1
  exact Char.toNat_inj.1 (congrArg CodePoint.val hval)

end Text

namespace Json

open CodePoint Text

/-! ## Strings -/

theorem Symbol.single {c : CodePoint} {t : Text} (h : Symbol c t) : Symbols [c] t := by
  have := Symbols.cons h .nil
  rwa [List.append_nil] at this

theorem Symbols.append {us vs t u : Text} (h : Symbols us t) (h' : Symbols vs u) :
    Symbols (us ++ vs) (t ++ u) := by
  induction h with
  | nil => exact h'
  | cons first _ ih =>
    rw [List.append_assoc]
    exact .cons first ih

theorem hexValue?_hexDigit {n : Nat} (h : n < 16) : (hexDigit n).hexValue? = some n := by
  revert n
  decide

/-- An escape of a sixteen-bit unit denotes that unit. -/
theorem symbol_escapeUnit {n : Nat} (h : n < 0x10000) : Symbol (.ofNat n) (escapeUnit n) := by
  have hmark : text "\\u" = [0x5c, 0x75] := by decide +kernel
  have hmod : ∀ m : Nat, m % 16 < 16 := fun m => Nat.mod_lt m (by decide)
  rw [escapeUnit, hmark]
  refine Symbol.unit ?_
  rw [unit?, hexValue?_hexDigit (hmod _), hexValue?_hexDigit (hmod _), hexValue?_hexDigit (hmod _),
    hexValue?_hexDigit (hmod _)]
  simp only [Option.pure_def, Option.bind_eq_bind, Option.bind_some, Option.some.injEq]
  omega

/-- A code point is written as its units. -/
theorem symbols_escapePoint (c : CodePoint) : Symbols c.units (escapePoint c) := by
  have hunit : ∀ {c : CodePoint} {t : Text}, c.val < 0x10000 → Symbol c t → Symbols c.units t := by
    intro c t hc h
    rw [units_of_lt hc]
    exact h.single
  have hletter : ∀ {c : CodePoint} (e : CodePoint) {t : Text}, t = [0x5c, e] →
      escapeLetter? e = some c → c.val < 0x10000 → Symbols c.units t := by
    rintro c e t rfl h hc
    exact hunit hc (.letter h)
  unfold escapePoint
  split_ifs with h₁ h₂ h₃ h₄ h₅ h₆ h₇ h₈ h₉
  · subst h₁
    exact hletter 0x22 (by decide +kernel) (by decide) (by decide)
  · subst h₂
    exact hletter 0x5c (by decide +kernel) (by decide) (by decide)
  · subst h₃
    exact hletter 0x62 (by decide +kernel) (by decide) (by decide)
  · subst h₄
    exact hletter 0x66 (by decide +kernel) (by decide) (by decide)
  · subst h₅
    exact hletter 0x6e (by decide +kernel) (by decide) (by decide)
  · subst h₆
    exact hletter 0x72 (by decide +kernel) (by decide) (by decide)
  · subst h₇
    exact hletter 0x74 (by decide +kernel) (by decide) (by decide)
  · exact hunit (by omega) (.raw h₈.1 h₁ h₂)
  · have h := symbol_escapeUnit h₉
    rw [ofNat_val] at h
    exact hunit h₉ h
  · have hc := c.isLt
    rw [units, if_neg h₉]
    exact .cons (symbol_escapeUnit (by omega)) (symbol_escapeUnit (by omega)).single

theorem symbols_flatMap (t : Text) : Symbols (t.flatMap units) (t.flatMap escapePoint) := by
  induction t with
  | nil => exact .nil
  | cons c t ih =>
    rw [List.flatMap_cons, List.flatMap_cons]
    exact (symbols_escapePoint c).append ih

theorem quoted_string (t : Text) : Quoted t.joinPairs (string t) := by
  have hquote : text "\"" = [0x22] := by decide +kernel
  have h := Quoted.mk (symbols_flatMap t)
  rw [joinPairs_flatMap_units] at h
  rw [string, hquote, List.append_assoc]
  exact h

/-- Beyond ASCII, a code point is written by its units alone. -/
theorem escapePoint_of_beyond {c : CodePoint} (h : 0x7e < c.val) :
    escapePoint c = c.units.flatMap fun u => escapeUnit u.val := by
  have hc := c.isLt
  have hne : ∀ d : CodePoint, d.val ≤ 0x7e → c ≠ d := by
    rintro d hd rfl
    omega
  rw [escapePoint, if_neg (hne 0x22 (by decide)), if_neg (hne 0x5c (by decide)),
    if_neg (hne 0x08 (by decide)), if_neg (hne 0x0c (by decide)), if_neg (hne 0x0a (by decide)),
    if_neg (hne 0x0d (by decide)), if_neg (hne 0x09 (by decide)), if_neg (by omega), units]
  split
  · rw [List.flatMap_singleton]
  · rw [List.flatMap_cons, List.flatMap_singleton, val_ofNat (by omega), val_ofNat (by omega)]

theorem escapePoint_eq_units (c : CodePoint) : escapePoint c = c.units.flatMap escapePoint := by
  rcases Nat.lt_or_ge c.val 0x10000 with hlt | hge
  · rw [units_of_lt hlt, List.flatMap_singleton]
  · obtain ⟨high, low, hunits, hhigh, hlow, -⟩ := units_of_le hge
    rw [isHigh_iff] at hhigh
    rw [isLow_iff] at hlow
    have hunit : ∀ u : CodePoint, 0x7e < u.val → u.val < 0x10000 →
        escapePoint u = escapeUnit u.val := by
      intro u hu hu'
      rw [escapePoint_of_beyond hu, units_of_lt hu', List.flatMap_singleton]
    have hhigh' := hunit high (by omega) (by omega)
    have hlow' := hunit low (by omega) (by omega)
    rw [escapePoint_of_beyond (by omega), hunits]
    simp only [List.flatMap_cons, List.flatMap_nil, hhigh', hlow']

theorem flatMap_escapePoint (t : Text) :
    t.flatMap escapePoint = (t.flatMap units).flatMap escapePoint := by
  rw [List.flatMap_assoc]
  exact List.flatMap_congr fun c _ => escapePoint_eq_units c

/-- Joining the pairs does not change what is written. -/
theorem string_joinPairs (t : Text) : string t.joinPairs = string t := by
  rw [string, flatMap_escapePoint, flatMap_units_joinPairs, ← flatMap_escapePoint, ← string]

/-! ## Numbers -/

theorem isWhole_ofNat (n : Nat) : IsWhole (Text.ofNat n) := by
  refine ⟨⟨?_, fun c hc => isDigit_of_mem_ofNat hc⟩, fun hzero => ?_⟩
  · rw [Text.ofNat, Ne, List.map_eq_nil_iff]
    exact Nat.toDigits_ne_nil
  · rw [eq_zero_of_head?_ofNat hzero]
    decide +kernel

theorem derives_int (i : Int) : Derives (.int i) (Text.ofInt i) := by
  have hnumber : ∀ (negative : Bool) (n : Nat),
      Derives (.int (signed negative n)) (minus negative ++ Text.ofNat n) := by
    intro negative n
    have h := Derives.number negative (isWhole_ofNat n) .absent .absent
    simp only [numberValue, digitsValue_ofNat, List.append_nil] at h
    exact h
  cases i with
  | ofNat n => exact hnumber false n
  | negSucc n =>
    have hminus : text "-" = minus true := by decide +kernel
    have h := hnumber true (n + 1)
    rw [Text.ofInt, hminus]
    exact h

/-! ## Values -/

theorem text_marks : text "[" = [0x5b] ∧ text "]" = [0x5d] ∧ text "\x7b" = [0x7b] ∧
    text "\x7d" = [0x7d] ∧ text ", " = [0x2c, 0x20] ∧ text ": " = [0x3a, 0x20] := by
  decide +kernel

theorem isBlank_space : IsBlank [0x20] := by
  intro c hc
  obtain rfl := List.mem_singleton.1 hc
  decide

theorem IsBlank.append {w w' : Text} (h : IsBlank w) (h' : IsBlank w') : IsBlank (w ++ w') := by
  intro c hc
  rcases List.mem_append.1 hc with hc | hc
  · exact h c hc
  · exact h' c hc

/-- Blanks before the first item belong to the items. -/
theorem Items.blank {vs : List Value} {w t : Text} (hw : IsBlank w) (h : Items vs t) :
    Items vs (w ++ t) := by
  cases h with
  | last hw₁ h hw₂ =>
    rw [← List.append_assoc]
    exact .last (hw.append hw₁) h hw₂
  | more hw₁ h hw₂ rest =>
    rw [← List.append_assoc]
    exact .more (hw.append hw₁) h hw₂ rest

theorem Entries.blank {es fs : List (Value × Value)} {w t : Text} (hw : IsBlank w)
    (h : Entries es fs t) : Entries es fs (w ++ t) := by
  cases h with
  | last hw₀ hk hw₁ hw₂ h hw₃ =>
    rw [← List.append_assoc]
    exact .last (hw.append hw₀) hk hw₁ hw₂ h hw₃
  | more hw₀ hk hw₁ hw₂ h hw₃ rest =>
    rw [← List.append_assoc]
    exact .more (hw.append hw₀) hk hw₁ hw₂ h hw₃ rest

/-- Entries whose keys are among `keys`. -/
def KeysIn (keys : List Text) (es : List (Value × Value)) : Prop :=
  ∀ e ∈ es, ∃ k ∈ keys, e.1 = .text k

theorem KeysIn.insertEntry {keys : List Text} {es : List (Value × Value)} (h : KeysIn keys es)
    {k : Text} (hk : k ∉ keys) (v : Value) :
    Value.insertEntry (.text k) v es = es ++ [(.text k, v)] := by
  refine Value.insertEntry_of_fresh fun e he => ?_
  obtain ⟨l, hl, heq⟩ := h e he
  refine ⟨l, heq, ?_⟩
  rintro rfl
  exact hk hl

theorem KeysIn.concat {keys : List Text} {es : List (Value × Value)} (h : KeysIn keys es)
    (k : Text) (v : Value) : KeysIn (k :: keys) (es ++ [(.text k, v)]) := by
  intro e he
  rcases List.mem_append.1 he with he | he
  · obtain ⟨l, hl, heq⟩ := h e he
    exact ⟨l, List.mem_cons_of_mem _ hl, heq⟩
  · obtain rfl := List.mem_singleton.1 he
    exact ⟨k, List.mem_cons_self, rfl⟩

mutual

theorem derives_compact : ∀ {v : Value}, v.isSimple → Derives v.paired (compact v)
  | .null, _ => .null
  | .bool b, _ => .bool b
  | .int i, _ => derives_int i
  | .text t, _ => .string (quoted_string t)
  | .list [], _ => by
    rw [compact, text_marks.1, text_marks.2.1]
    exact .noItems isBlank_nil
  | .list (x :: xs), h => by
    rw [compact, text_marks.1, text_marks.2.1, List.append_assoc]
    exact .items (items_compactItems (by simpa only [Value.isSimple] using h) nofun)
  | .map [], _ => by
    rw [compact, text_marks.2.2.1, text_marks.2.2.2.1]
    exact .noEntries isBlank_nil
  | .map (e :: es), h => by
    have hentries : Entries [] ([] ++ Value.pairedEntries (e :: es)) (compactEntries (e :: es)) :=
      entries_compactEntries (by simpa only [Value.isSimple] using h) nofun nofun
    rw [compact, text_marks.2.2.1, text_marks.2.2.2.1, List.append_assoc]
    exact .entries hentries

theorem items_compactItems : ∀ {xs : List Value}, Value.simpleItems xs → xs ≠ [] →
    Items (Value.pairedItems xs) (compactItems xs)
  | [x], h, _ => by
    rw [Value.simpleItems, Bool.and_eq_true] at h
    have hx := Items.last isBlank_nil (derives_compact h.1) isBlank_nil
    rwa [List.append_nil] at hx
  | x :: y :: xs, h, _ => by
    rw [Value.simpleItems, Bool.and_eq_true] at h
    have hx := derives_compact h.1
    have hrest := Items.blank isBlank_space (items_compactItems h.2 nofun)
    rw [compactItems, text_marks.2.2.2.2.1, List.append_assoc]
    exact .more isBlank_nil hx isBlank_nil hrest

/-- The keys read so far are among `keys`, so each further one is added at the end. -/
theorem entries_compactEntries : ∀ {es before : List (Value × Value)} {keys : List Text},
    Value.simpleEntries keys es → es ≠ [] → KeysIn keys before →
    Entries before (before ++ Value.pairedEntries es) (compactEntries es)
  | [(.text k, v)], before, keys, h, _, hbefore => by
    rw [Value.simpleEntries, Bool.and_eq_true, Bool.and_eq_true] at h
    have hfresh : k.joinPairs ∉ keys := by simpa using h.1.1
    have hentry : Entries before (Value.insertEntry (.text k.joinPairs) v.paired before) _ :=
      .last isBlank_nil (quoted_string k) isBlank_nil isBlank_space (derives_compact h.1.2)
        isBlank_nil
    rw [hbefore.insertEntry hfresh, List.append_nil] at hentry
    rw [compactEntries, text_marks.2.2.2.2.2, List.append_assoc]
    exact hentry
  | (.text k, v) :: e :: es, before, keys, h, _, hbefore => by
    rw [Value.simpleEntries, Bool.and_eq_true, Bool.and_eq_true] at h
    have hfresh : k.joinPairs ∉ keys := by simpa using h.1.1
    have hrest := entries_compactEntries h.2 nofun (hbefore.concat k.joinPairs v.paired)
    rw [← hbefore.insertEntry hfresh] at hrest
    have hentry := Entries.more isBlank_nil (quoted_string k) isBlank_nil isBlank_space
      (derives_compact h.1.2) isBlank_nil (hrest.blank isBlank_space)
    rw [hbefore.insertEntry hfresh, List.append_assoc] at hentry
    rw [compactEntries, text_marks.2.2.2.2.2, text_marks.2.2.2.2.1]
    simp only [List.append_assoc]
    exact hentry

end

/-! ## Whole texts -/

theorem document_compact {v : Value} (h : v.isSimple) : Document v.paired (compact v) := by
  have hdoc := Document.mk isBlank_nil (derives_compact h) isBlank_nil
  rwa [List.append_nil] at hdoc

/-- The text of a simple value has one value, the written one with its pairs joined. -/
theorem document_compact_iff {v w : Value} (h : v.isSimple) :
    Document w (compact v) ↔ w = v.paired := by
  constructor
  · intro hw
    exact hw.unique (document_compact h)
  · rintro rfl
    exact document_compact h

mutual

theorem compact_paired : ∀ {v : Value}, v.isSimple → compact v.paired = compact v
  | .null, _ => rfl
  | .bool _, _ => rfl
  | .int _, _ => rfl
  | .text t, _ => string_joinPairs t
  | .list xs, h => by
    rw [Value.paired, compact, compactItems_paired (by simpa only [Value.isSimple] using h),
      compact]
  | .map es, h => by
    have hes : Value.simpleEntries [] es := by simpa only [Value.isSimple] using h
    rw [Value.paired, compact, compactEntries_paired hes, compact]

theorem compactItems_paired : ∀ {xs : List Value}, Value.simpleItems xs →
    compactItems (Value.pairedItems xs) = compactItems xs
  | [], _ => rfl
  | [x], h => by
    rw [Value.simpleItems, Bool.and_eq_true] at h
    exact compact_paired h.1
  | x :: y :: xs, h => by
    rw [Value.simpleItems, Bool.and_eq_true] at h
    have hrest := compactItems_paired h.2
    rw [Value.pairedItems] at hrest
    rw [Value.pairedItems, Value.pairedItems, compactItems, compact_paired h.1, hrest,
      compactItems]

theorem compactEntries_paired : ∀ {es : List (Value × Value)} {keys : List Text},
    Value.simpleEntries keys es → compactEntries (Value.pairedEntries es) = compactEntries es
  | [], _, _ => rfl
  | [(.text k, v)], _, h => by
    rw [Value.simpleEntries, Bool.and_eq_true, Bool.and_eq_true] at h
    simp only [Value.pairedEntries, Value.paired, compactEntries, key, string_joinPairs,
      compact_paired h.1.2]
  | (.text k, v) :: (l, w) :: es, _, h => by
    rw [Value.simpleEntries, Bool.and_eq_true, Bool.and_eq_true] at h
    have hrest := compactEntries_paired h.2
    rw [Value.pairedEntries] at hrest
    simp only [Value.pairedEntries, Value.paired, compactEntries, key, string_joinPairs,
      compact_paired h.1.2, hrest]

end

/-- Two simple values are written alike if and only if they are the same up to pairs. -/
theorem compact_eq_iff {v w : Value} (hv : v.isSimple) (hw : w.isSimple) :
    compact v = compact w ↔ v.paired = w.paired := by
  constructor
  · intro h
    have hdoc := document_compact hv
    rw [h] at hdoc
    exact (document_compact_iff hw).1 hdoc
  · intro h
    rw [← compact_paired hv, h, compact_paired hw]

end Json

end Snippets
