import Mathlib.Data.List.Forall2
import Snippets.Proofs.Script.Concat

/-!
# Writing scripts

Any list of calls can be written as a script. `IsScript` says of a text that it is one for given
calls: every word stands between quotes, with each of its code points spelled in one of three ways,
words are separated by a space and calls by a semicolon. Reading such a text gives the calls back
(`calls_parse_written`), whichever spellings were chosen; `write` is one choice.

The words of a call enter the proof only through `Scan.Reads`, so that other ways to write a word
can be put in their place.
-/

namespace Snippets.Script

def space : CodePoint := 0x20

/-! ## Spelling -/

/-- The ways to spell a code point between quotes: as itself, after a backslash, or by its number,
whose digits may be of either case. -/
inductive Spells : CodePoint → Text → Prop where
  | verbatim (c : CodePoint) (h : c ≠ quote ∧ c ≠ backslash) : Spells c [c]
  | escaped (c : CodePoint) (h : c ∉ [0x6e, 0x72, 0x74, letterU]) : Spells c [backslash, c]
  | code (c : CodePoint) (digits : Text) (h : c.val ≤ 0xffff)
      (hd : digits.map CodePoint.lower = Text.hex 4 c.val) :
      Spells c (backslash :: letterU :: digits)

/-- A text for each of the items, with `sep` between each two. -/
def Strung {α : Type} (sep : Text) (R : α → Text → Prop) (items : List α) (t : Text) : Prop :=
  ∃ parts, List.Forall₂ R items parts ∧ t = Text.join sep parts

/-- A word between quotes. -/
def IsQuoted (word t : Text) : Prop :=
  ∃ inside, Strung [] Spells word inside ∧ t = quote :: (inside ++ [quote])

def IsCall : List Text → Text → Prop := Strung [space] IsQuoted

/-- A text that is a script for calls. -/
def IsScript : List (List Text) → Text → Prop := Strung [semicolon] IsCall

/-! ## Numbers of code points -/

theorem hexValue?_of_lower {d : CodePoint} {n : Nat} (hn : n < 16)
    (h : d.lower = CodePoint.hexDigit n) : d.hexValue? = some n := by
  have hv : d.lower.val = if n < 10 then 0x30 + n else 0x61 + (n - 10) := by
    rw [h, CodePoint.hexDigit, CodePoint.val_ofNat]
    split_ifs <;> omega
  unfold CodePoint.lower at hv
  unfold CodePoint.hexValue?
  split_ifs at hv ⊢ <;> simp_all [CodePoint.ofNat] <;> omega

theorem isHexDigit_bounds {d : CodePoint} {n : Nat} (h : d.hexValue? = some n) :
    0x30 ≤ d.val ∧ d.val ≤ 0x66 ∧ d.val ≠ 0x58 := by
  unfold CodePoint.hexValue? at h
  split_ifs at h <;> omega

/-- Four digits that are read from the left, without blanks, a sign or a mark before them. -/
theorem codeOf_digits {a b c d : CodePoint} {va vb vc vd : Nat} (ha : a.hexValue? = some va)
    (hb : b.hexValue? = some vb) (hc : c.hexValue? = some vc) (hd : d.hexValue? = some vd) :
    codeOf [a, b, c, d] = some (CodePoint.ofNat (((va * 16 + vb) * 16 + vc) * 16 + vd)) := by
  obtain ⟨ha1, ha2, -⟩ := isHexDigit_bounds ha
  obtain ⟨hb1, hb2, hb3⟩ := isHexDigit_bounds hb
  have hspace : isSpace a = false := by
    simp [isSpace]
    omega
  have hminus : a ≠ 0x2d := by
    rintro rfl
    exact absurd ha1 (by decide)
  have hplus : a ≠ 0x2b := by
    rintro rfl
    exact absurd ha1 (by decide)
  have hsmall : b ≠ 0x78 := by
    rintro rfl
    exact absurd hb2 (by decide)
  have hlarge : b ≠ 0x58 := by
    rintro rfl
    exact hb3 rfl
  simp [codeOf, hspace, Text.takeSign, hminus, hplus, dropMark, hsmall, hlarge, isHexDigit, hexRun,
    ha, hb, hc, hd]

theorem codeOf_hex {c : CodePoint} {digits : Text} (h : c.val ≤ 0xffff)
    (hd : digits.map CodePoint.lower = Text.hex 4 c.val) : codeOf digits = some c := by
  have hlen : digits.length = 4 := by
    simpa [Text.hex] using congrArg List.length hd
  obtain ⟨x, y, z, w, rfl⟩ := List.length_eq_four.1 hlen
  simp only [List.map_cons, List.map_nil, Text.hex, List.nil_append, List.cons_append,
    List.cons.injEq, and_true] at hd
  obtain ⟨hx, hy, hz, hw⟩ := hd
  rw [codeOf_digits (hexValue?_of_lower (by omega) hx) (hexValue?_of_lower (by omega) hy)
    (hexValue?_of_lower (by omega) hz) (hexValue?_of_lower (by omega) hw)]
  congr 1
  ext
  rw [CodePoint.val_ofNat] <;> omega

/-! ## Words as pieces -/

theorem exists_inner {c : CodePoint} {t : Text} (h : Spells c t) :
    ∃ i : Inner, i.text = t ∧ i.meaning = [c] := by
  cases h with
  | verbatim h => exact ⟨.verbatim c (by simp [isVerbatim, h]), rfl, rfl⟩
  | escaped h =>
    simp only [List.mem_cons, List.not_mem_nil, or_false, not_or] at h
    obtain ⟨hn, hr, ht, hu⟩ := h
    have he : escaped c = c := by simp [escaped, hn, hr, ht]
    exact ⟨.escape (.single c hu), rfl, by rw [Inner.meaning, Escape.meaning, he]⟩
  | code digits hle hd =>
    have hlen : digits.length = 4 := by
      simpa [Text.hex] using congrArg List.length hd
    exact ⟨.escape (.code digits hlen), rfl,
      by rw [Inner.meaning, Escape.meaning, codeOf_hex hle hd]; rfl⟩

theorem join_nil (parts : List Text) : Text.join [] parts = parts.flatten := by
  induction parts with
  | nil => rfl
  | cons t rest ih =>
    cases rest with
    | nil => simp [Text.join]
    | cons u rest => simp [Text.join, ih]

/-- A word between quotes is one piece, which means the word. -/
theorem exists_piece {word t : Text} (h : IsQuoted word t) :
    ∃ p : Piece, p.text = t ∧ p.meaning = word ∧ p.isQuoted := by
  obtain ⟨inside, ⟨parts, hparts, rfl⟩, rfl⟩ := h
  have hinside : ∃ inside : List Inner, inside.flatMap Inner.text = parts.flatten ∧
      inside.flatMap Inner.meaning = word := by
    induction hparts with
    | nil => exact ⟨[], rfl, rfl⟩
    | cons hspell _ ih =>
      obtain ⟨i, ht, hm⟩ := exists_inner hspell
      obtain ⟨inside, hts, hms⟩ := ih
      exact ⟨i :: inside, by simp [ht, hts], by simp [hm, hms]⟩
  obtain ⟨inside, ht, hm⟩ := hinside
  exact ⟨.quoted inside, by rw [Piece.text, ht, join_nil], hm, rfl⟩

/-! ## Reading calls -/

namespace Scan

variable {s : Scan} {word t : Text}

/-- Reading `t` puts `word` into the empty word of a scanner at rest and leaves it at rest; an
empty word counts because quotes made it. -/
def Reads (word t : Text) : Prop :=
  ∀ s : Scan, s.AtRest → s.word = [] → ∃ closed, (word = [] → closed = true) ∧
    s.run t = { s with word, closed }

theorem reads_quoted (h : IsQuoted word t) : Reads word t := by
  obtain ⟨p, rfl, rfl, hp⟩ := exists_piece h
  intro s hs hw
  refine ⟨true, fun _ => rfl, ?_⟩
  rw [run_piece hs.mode hs.quoted, hw, hp]
  rfl

/-- The scanner with an empty word, after some words of a call and some calls. -/
def holding (call : List Text) (calls : List (List Text)) : Scan := { call, calls }

theorem atRest_holding (call : List Text) (calls : List (List Text)) :
    (holding call calls).AtRest := ⟨rfl, rfl⟩

/-- After a word the scanner is at rest, and what ends the word adds it to the call. -/
theorem Reads.endWord (h : Reads word t) (call : List Text) (calls : List (List Text)) :
    ((holding call calls).run t).AtRest ∧
      ((holding call calls).run t).endWord = holding (call ++ [word]) calls := by
  obtain ⟨closed, hclosed, hrun⟩ := h _ (atRest_holding call calls) rfl
  rw [hrun]
  refine ⟨⟨rfl, rfl⟩, ?_⟩
  unfold Scan.endWord
  by_cases he : word = []
  · simp [he, hclosed he, holding]
  · simp [he, holding]

/-- The words of a call with spaces between them, and the semicolon that ends the call. -/
theorem run_call {words : List Text} (hne : words ≠ []) (h : Strung [space] Reads words t)
    (call : List Text) (calls : List (List Text)) :
    (holding call calls).run (t ++ [semicolon]) = holding [] (calls ++ [call ++ words]) := by
  obtain ⟨parts, hparts, rfl⟩ := h
  induction hparts generalizing call with
  | nil => exact absurd rfl hne
  | @cons word t words rest hword hrest ih =>
    obtain ⟨hr, he⟩ := hword.endWord call calls
    cases hrest with
    | nil =>
      rw [Text.join, run_append, run_cons, run_nil, hr.step_semicolon, he]
      simp [endCall, holding]
    | cons =>
      rw [Text.join, List.append_assoc, List.append_assoc, run_append, run_append, run_cons,
        run_nil, hr.step_space (by decide), he, ih (by simp)]
      simp

/-- Calls with semicolons between them, and one at the end. -/
theorem run_calls {R : Text → Text → Prop} (hR : ∀ word t, R word t → Reads word t)
    {calls : List (List Text)} (hne : ∀ call ∈ calls, call ≠ []) {t : Text}
    (h : Strung [semicolon] (Strung [space] R) calls t) (done : List (List Text)) :
    (holding [] done).run (t ++ [semicolon]) = holding [] (done ++ calls) := by
  obtain ⟨parts, hparts, rfl⟩ := h
  induction hparts generalizing done with
  | nil =>
    rw [Text.join, List.nil_append, run_cons, run_nil, (atRest_holding [] done).step_semicolon]
    simp [holding, endWord, endCall]
  | @cons call t calls rest hcall hrest ih =>
    obtain ⟨words, hwords, rfl⟩ := hcall
    have hrun := run_call (hne call List.mem_cons_self)
      ⟨words, hwords.imp hR, rfl⟩ [] done
    rw [List.nil_append] at hrun
    cases hrest with
    | nil => rw [Text.join, hrun]
    | cons =>
      rw [Text.join, List.append_assoc, run_append, hrun,
        ih fun call hcall => hne call (List.mem_cons_of_mem _ hcall)]
      simp

end Scan

/-! ## The ends of a script -/

/-- What each part begins and ends with, the whole begins and ends with. -/
theorem Strung.ends {α : Type} {sep : Text} {R : α → Text → Prop} {q : CodePoint} {items : List α}
    {t : Text} (hne : items ≠ [])
    (hR : ∀ item ∈ items, ∀ t, R item t → t.head? = some q ∧ t.getLast? = some q)
    (h : Strung sep R items t) : t.head? = some q ∧ t.getLast? = some q := by
  obtain ⟨parts, hparts, rfl⟩ := h
  induction hparts with
  | nil => exact absurd rfl hne
  | @cons item t items rest hitem hrest ih =>
    obtain ⟨hfirst, hlast⟩ := hR item List.mem_cons_self t hitem
    cases hrest with
    | nil => exact ⟨hfirst, hlast⟩
    | cons =>
      obtain ⟨-, ih⟩ := ih (by simp) fun item h => hR item (List.mem_cons_of_mem _ h)
      simp [Text.join, List.head?_append, List.getLast?_append, hfirst, ih]

theorem trim_of_ends {t : Text} {q : CodePoint} (hq : isSpace q = false) (hfirst : t.head? = some q)
    (hlast : t.getLast? = some q) : trim t = t := by
  have hfront : t.dropWhile isSpace = t := by
    obtain ⟨rest, rfl⟩ := List.head?_eq_some_iff.1 hfirst
    exact List.dropWhile_cons_of_neg (by simp [hq])
  have hback : t.reverse.dropWhile isSpace = t.reverse := by
    obtain ⟨rest, rfl⟩ := List.getLast?_eq_some_iff.1 hlast
    rw [List.reverse_append]
    exact List.dropWhile_cons_of_neg (by simp [hq])
  rw [trim, Text.trimBy, hfront, hback, List.reverse_reverse]

theorem IsQuoted.ends {word t : Text} (h : IsQuoted word t) :
    t.head? = some quote ∧ t.getLast? = some quote := by
  obtain ⟨inside, -, rfl⟩ := h
  exact ⟨rfl, by rw [← List.cons_append, List.getLast?_concat]⟩

/-- A written script begins and ends with a quote, so that trimming leaves it as it is. -/
theorem trim_written {calls : List (List Text)} (hne : ∀ call ∈ calls, call ≠ []) {t : Text}
    (h : IsScript calls t) : trim t = t := by
  by_cases hc : calls = []
  · subst hc
    obtain ⟨parts, hparts, rfl⟩ := h
    cases hparts
    rfl
  · obtain ⟨hfirst, hlast⟩ := h.ends (q := quote) hc fun call hcall t ht =>
      ht.ends (hne call hcall) fun word _ t ht => ht.ends
    exact trim_of_ends (by decide) hfirst hlast

/-! ## Writing and reading -/

/-- A code point as itself, unless it would end the quotes or begin an escape. -/
def spell (c : CodePoint) : Text := if c = quote ∨ c = backslash then [backslash, c] else [c]

def writeWord (word : Text) : Text := quote :: (Text.join [] (word.map spell) ++ [quote])

/-- A script for calls. -/
def write (calls : List (List Text)) : Text :=
  Text.join [semicolon] (calls.map fun call => Text.join [space] (call.map writeWord))

theorem spells_spell (c : CodePoint) : Spells c (spell c) := by
  unfold spell
  split_ifs with h
  · refine .escaped c ?_
    rcases h with rfl | rfl <;> decide
  · exact .verbatim c (not_or.1 h)

theorem strung_map {α : Type} {sep : Text} {R : α → Text → Prop} {f : α → Text}
    (h : ∀ item, R item (f item)) (items : List α) :
    Strung sep R items (Text.join sep (items.map f)) :=
  ⟨items.map f, List.forall₂_map_right_iff.2 (List.forall₂_same.2 fun item _ => h item), rfl⟩

theorem isScript_write (calls : List (List Text)) : IsScript calls (write calls) :=
  strung_map (fun call => strung_map (fun _ => ⟨_, strung_map spells_spell _, rfl⟩) call) calls

theorem calls_of_isScript {calls : List (List Text)} (hne : ∀ call ∈ calls, call ≠ []) {t : Text}
    (h : IsScript calls t) : Script.calls t = calls := by
  rw [Script.calls, trim_written hne h]
  exact congrArg Scan.calls (Scan.run_calls (fun _ _ => Scan.reads_quoted) hne h [])

theorem filterMap_toFilter {snippets : List (Snippet Text)} (h : ∀ x ∈ snippets, x.name ≠ []) :
    (snippets.map Snippet.toFilter).filterMap Snippet.ofCall? = snippets := by
  rw [List.filterMap_map]
  refine (List.filterMap_congr fun x hx => ?_).trans List.filterMap_some
  obtain ⟨name, args⟩ := x
  have hname : name ≠ [] := h _ hx
  cases name with
  | nil => exact absurd rfl hname
  | cons c name => rfl

/-- Calls that are not empty can be written as a script, and every way to write them is read back as
just these calls. If they are those of snippets, it is parsed as the snippets. -/
theorem calls_parse_written :
    (∀ calls : List (List Text), (∀ call ∈ calls, call ≠ []) →
      IsScript calls (write calls) ∧ ∀ t, IsScript calls t → Script.calls t = calls) ∧
    ∀ snippets : List (Snippet Text), (∀ x ∈ snippets, x.name ≠ []) →
      ∀ t, IsScript (snippets.map Snippet.toFilter) t → parse t = snippets := by
  refine ⟨fun calls hne => ⟨isScript_write calls, fun t => calls_of_isScript hne⟩, ?_⟩
  intro snippets hname t ht
  have hne : ∀ call ∈ snippets.map Snippet.toFilter, call ≠ [] := by
    simp [Snippet.toFilter]
  rw [parse, calls_of_isScript hne ht, filterMap_toFilter hname]

/-- A name with a quote and an empty argument, and a name that is a lone surrogate. -/
theorem calls_parse_written_mixed :
    (∀ x ∈ ([⟨text "a'", [[]]⟩, ⟨[0xd80f], []⟩] : List (Snippet Text)), x.name ≠ []) ∧
      IsScript [[text "a'", []], [[0xd80f]]] (text "'\\u0061\\'' '';'\\uD80f'") ∧
      parse (text "'\\u0061\\'' '';'\\uD80f'") = [⟨text "a'", [[]]⟩, ⟨[0xd80f], []⟩] := by
  have hname : ∀ x ∈ ([⟨text "a'", [[]]⟩, ⟨[0xd80f], []⟩] : List (Snippet Text)), x.name ≠ [] := by
    decide
  have ha : IsQuoted (text "a'") (text "'\\u0061\\''") :=
    ⟨_, ⟨[_, _], .cons (.code 0x61 (text "0061") (by decide) (by decide))
      (.cons (.escaped quote (by decide)) .nil), rfl⟩, rfl⟩
  have he : IsQuoted [] (text "''") := ⟨_, ⟨[], .nil, rfl⟩, rfl⟩
  have hs : IsQuoted [0xd80f] (text "'\\uD80f'") :=
    ⟨_, ⟨[_], .cons (.code 0xd80f (text "D80f") (by decide) (by decide)) .nil, rfl⟩, rfl⟩
  have hw : IsScript [[text "a'", []], [[0xd80f]]] (text "'\\u0061\\'' '';'\\uD80f'") :=
    ⟨[_, _], .cons ⟨_, .cons ha (.cons he .nil), rfl⟩ (.cons ⟨_, .cons hs .nil, rfl⟩ .nil), rfl⟩
  exact ⟨hname, hw, calls_parse_written.2 _ hname _ hw⟩

end Snippets.Script
