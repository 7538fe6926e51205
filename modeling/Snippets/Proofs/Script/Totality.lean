import Mathlib.Algebra.Group.Nat.Defs
import Mathlib.Data.List.Induction
import Snippets.Proofs.Script.Tokens
import Snippets.Snippet

/-!
# Reading never breaks off

Reading a script takes steps that are not possible for every argument: a text is read as a
hexadecimal number, a number taken for a code point, the first word of a call looked at, a snippet
made of a call. `parseStrict` reads a script with these steps as they are, each of which may break
the reading off (`Breakdown`).

None of them ever does. Reading decodes four characters at a time (`Scan.Bounded`), whose number is
at most `U+FFFF` (`decode_eq`), and a call it finishes has a word. So the strict reading of any text
comes to the snippets of the script, which are the calls that have a name
(`parse_loses_unnamed_only`).
-/

namespace Snippets

/-- The snippet of texts as one of values. -/
def Snippet.toValues (s : Snippet Text) : Snippet Value := ⟨.text s.name, s.args.map .text⟩

namespace Script

/-! ## Steps that are not always possible -/

/-- What could break off the reading of a script. -/
inductive Breakdown where
  /-- these characters are no hexadecimal number -/
  | noNumber (digits : Text)
  /-- there is no code point with this number -/
  | noCodePoint (n : Nat)
  /-- a call has no first word -/
  | noWord
  /-- a call makes no snippet -/
  | noSnippet (e : Snippet.BuildError)
  deriving DecidableEq, Repr

/-- The number that hexadecimal digits write, of which there must be one. -/
def numberOf (digits : Text) : Except Breakdown Nat :=
  if digits ≠ [] ∧ digits.all isHexDigit then .ok (hexRun digits) else .error (.noNumber digits)

def pointOf (n : Nat) : Except Breakdown CodePoint :=
  if h : n < 0x110000 then .ok ⟨n, h⟩ else .error (.noCodePoint n)

/-- The code point of the characters after `\u`, if there is one. -/
def decode (seen : Text) : Except Breakdown (Option CodePoint) :=
  let (negative, body) := Text.takeSign (seen.dropWhile isSpace)
  let run := (dropMark body).takeWhile isHexDigit
  if run.isEmpty then .ok none
  else do
    let n ← numberOf run
    if negative && n != 0 then .ok none else some <$> pointOf n

/-- Reads one character. Only an escape that is complete is decoded. -/
def Scan.stepStrict (s : Scan) (c : CodePoint) : Except Breakdown Scan :=
  match s.mode with
  | .code seen =>
    if seen.length < 3 then .ok (s.step c)
    else do
      match ← decode (seen ++ [c]) with
      | some d => .ok { s.push d with mode := .plain }
      | none => .ok { s with mode := .plain, closed := false }
  | _ => .ok (s.step c)

def Scan.runStrict (s : Scan) (t : Text) : Except Breakdown Scan := t.foldlM stepStrict s

/-- The snippets of calls. A call whose first word is empty is passed over. -/
def snippetsStrict : List (List Text) → Except Breakdown (List (Snippet Value))
  | [] => .ok []
  | [] :: _ => .error .noWord
  | (name :: args) :: rest =>
    if name = [] then snippetsStrict rest
    else do
      let s ← (Snippet.ofCall (.list ((name :: args).map .text))).mapError .noSnippet
      (s :: ·) <$> snippetsStrict rest

/-- The snippets of a script. -/
def parseStrict (script : Text) : Except Breakdown (List (Snippet Value)) := do
  let s ← Scan.runStrict {} (trim script ++ [semicolon])
  snippetsStrict s.calls

/-! ## Four characters -/

theorem hexValue?_lt {c : CodePoint} {n : Nat} (h : c.hexValue? = some n) : n < 16 := by
  unfold CodePoint.hexValue? at h
  split_ifs at h <;> cases h <;> omega

theorem hexRun_concat (t : Text) (c : CodePoint) :
    hexRun (t ++ [c]) = hexRun t * 16 + c.hexValue?.getD 0 := by
  simp [hexRun]

theorem hexRun_lt (t : Text) : hexRun t < 16 ^ t.length := by
  induction t using List.reverseRecOn with
  | nil => decide
  | append_singleton t c ih =>
    have hdigit : c.hexValue?.getD 0 < 16 := by
      cases h : c.hexValue? with
      | none => decide
      | some n => exact hexValue?_lt h
    rw [hexRun_concat, List.length_append, List.length_singleton, Nat.pow_succ]
    omega

theorem length_takeSign (t : Text) : (Text.takeSign t).2.length ≤ t.length := by
  cases t with
  | nil => exact Nat.le_refl 0
  | cons c rest =>
    simp only [Text.takeSign]
    split_ifs
    · exact Nat.le_succ _
    · exact Nat.le_succ _
    · exact Nat.le_refl _

theorem length_dropMark (t : Text) : (dropMark t).length ≤ t.length := by
  unfold dropMark
  split
  · split_ifs
    · exact Nat.le_succ_of_le (Nat.le_succ _)
    · exact Nat.le_refl _
  · exact Nat.le_refl _

/-- The digits that are decoded are among the characters that were read. -/
theorem length_digits (seen : Text) :
    ((dropMark (Text.takeSign (seen.dropWhile isSpace)).2).takeWhile isHexDigit).length ≤
      seen.length :=
  calc _ ≤ (dropMark (Text.takeSign (seen.dropWhile isSpace)).2).length :=
        (List.takeWhile_sublist _).length_le
    _ ≤ (Text.takeSign (seen.dropWhile isSpace)).2.length := length_dropMark _
    _ ≤ (seen.dropWhile isSpace).length := length_takeSign _
    _ ≤ seen.length := (List.dropWhile_sublist _).length_le

theorem numberOf_takeWhile {t : Text} (h : (t.takeWhile isHexDigit).isEmpty = false) :
    numberOf (t.takeWhile isHexDigit) = .ok (hexRun (t.takeWhile isHexDigit)) := by
  refine if_pos ⟨?_, List.all_takeWhile⟩
  rintro hnil
  rw [hnil] at h
  cases h

theorem pointOf_of_lt {n : Nat} (h : n < 0x110000) : pointOf n = .ok (CodePoint.ofNat n) := by
  rw [pointOf, dif_pos h]
  congr
  exact (Nat.mod_eq_of_lt h).symm

/-- Four characters are always decoded, to nothing or to a code point of at most four digits. -/
theorem decode_eq {seen : Text} (h : seen.length ≤ 4) :
    decode seen = .ok (codeOf seen) ∧ ∀ c ∈ codeOf seen, c.val ≤ 0xffff := by
  have hlength := length_digits seen
  unfold decode codeOf
  generalize Text.takeSign (seen.dropWhile isSpace) = signed at hlength
  obtain ⟨negative, body⟩ := signed
  dsimp only at hlength ⊢
  by_cases hempty : ((dropMark body).takeWhile isHexDigit).isEmpty
  · rw [if_pos hempty, if_pos (by rw [hempty]; rfl)]
    exact ⟨rfl, nofun⟩
  rw [Bool.not_eq_true] at hempty
  have hnumber := numberOf_takeWhile hempty
  have hlt := hexRun_lt ((dropMark body).takeWhile isHexDigit)
  generalize (dropMark body).takeWhile isHexDigit = run at hlength hempty hnumber hlt
  have hle : hexRun run ≤ 0xffff := by
    have hpow : 16 ^ run.length ≤ 16 ^ 4 := Nat.pow_le_pow_right (by decide) (hlength.trans h)
    omega
  rw [hnumber, hempty, Bool.false_or]
  by_cases hneg : (negative && hexRun run != 0) = true
  · rw [if_pos hneg]
    refine ⟨?_, nofun⟩
    show (if (negative && hexRun run != 0) = true then _ else _) = _
    rw [if_pos hneg]
  · rw [if_neg hneg]
    have hpoint := pointOf_of_lt (n := hexRun run) (by omega)
    refine ⟨?_, ?_⟩
    · show (if (negative && hexRun run != 0) = true then _ else some <$> pointOf _) = _
      rw [if_neg hneg, hpoint]
      rfl
    · rintro c ⟨⟩
      rwa [CodePoint.val_ofNat (by omega)]

/-- A sign and a mark may stand in front of the digits; below zero there is no code point. -/
example : decode (text "+0x4") = .ok (some 4) ∧ decode (text "-041") = .ok none := by
  decide +kernel

/-! ## The scanner -/

namespace Scan

variable {s : Scan}

/-- At most three characters of an escape are read before it is complete. -/
def Bounded (s : Scan) : Prop := ∀ seen, s.mode = .code seen → seen.length ≤ 3

theorem bounded_of_mode {m : Mode} (h : s.mode = m) (hm : ∀ seen, m ≠ .code seen) : s.Bounded :=
  fun seen hs => absurd (h.symm.trans hs) (hm seen)

theorem mode_endWord (s : Scan) : s.endWord.mode = s.mode := by
  unfold endWord
  split_ifs <;> rfl

theorem mode_endCall (s : Scan) : s.endCall.mode = s.mode := by
  unfold endCall
  split_ifs <;> rfl

theorem bounded_step (s : Scan) (c : CodePoint) : (s.step c).Bounded := by
  unfold Scan.step
  split
  · next hm =>
    unfold stepPlain
    split_ifs
    · exact bounded_of_mode rfl nofun
    · exact bounded_of_mode hm nofun
    · exact bounded_of_mode hm nofun
    · exact bounded_of_mode ((mode_endCall _).trans ((mode_endWord s).trans hm)) nofun
    · exact bounded_of_mode ((mode_endWord s).trans hm) nofun
  · split_ifs
    · rintro seen ⟨⟩
      exact Nat.zero_le 3
    · exact bounded_of_mode rfl nofun
  · next seen hm =>
    split_ifs with hlt
    · rintro _ ⟨⟩
      rw [List.length_append, List.length_singleton]
      omega
    · split <;> exact bounded_of_mode rfl nofun

theorem Bounded.run (h : s.Bounded) (t : Text) : (s.run t).Bounded := by
  induction t generalizing s with
  | nil => exact h
  | cons c t ih => exact ih (bounded_step s c)

theorem bounded_start : Bounded {} := bounded_of_mode rfl nofun

theorem Bounded.stepStrict (h : s.Bounded) (c : CodePoint) : s.stepStrict c = .ok (s.step c) := by
  unfold Scan.stepStrict
  split
  · next seen hm =>
    split_ifs with hlt
    · rfl
    · have hfour : (seen ++ [c]).length ≤ 4 := by
        rw [List.length_append, List.length_singleton]
        exact Nat.succ_le_succ (h seen hm)
      rw [(decode_eq hfour).1]
      unfold Scan.step
      rw [hm]
      dsimp only
      rw [if_neg hlt]
      cases codeOf (seen ++ [c]) <;> rfl
  · rfl

theorem Bounded.runStrict (h : s.Bounded) (t : Text) : s.runStrict t = .ok (s.run t) := by
  induction t generalizing s with
  | nil => rfl
  | cons c t ih =>
    rw [Scan.runStrict, List.foldlM_cons, h.stepStrict]
    exact ih (bounded_step s c)

end Scan

/-! ## Calls -/

theorem ne_nil_of_mem_calls {script : Text} {call : List Text} (h : call ∈ calls script) :
    call ≠ [] := by
  have htext := (Reading.text_eq_iff (Reading.empty.pushAll (trim script)) (trim script)).2 rfl
  rw [calls, ← htext, calls_run_text, Reading.calls, callsOf, List.mem_filter] at h
  exact of_decide_eq_true h.2

/-- A call with a name makes a snippet. -/
theorem ofCall_texts {name : Text} (h : name ≠ []) (args : List Text) :
    Snippet.ofCall (.list ((name :: args).map .text)) =
      .ok (Snippet.toValues ⟨name, args⟩) := by
  cases name with
  | nil => exact absurd rfl h
  | cons c rest => rfl

theorem ofCall?_of_ne_nil {name : Text} (h : name ≠ []) (args : List Text) :
    Snippet.ofCall? (name :: args) = some ⟨name, args⟩ := by
  cases name with
  | nil => exact absurd rfl h
  | cons c rest => rfl

theorem snippetsStrict_eq {cs : List (List Text)} (h : ∀ call ∈ cs, call ≠ []) :
    snippetsStrict cs = .ok ((cs.filterMap Snippet.ofCall?).map Snippet.toValues) := by
  induction cs with
  | nil => rfl
  | cons call rest ih =>
    obtain ⟨hcall, hrest⟩ := List.forall_mem_cons.1 h
    cases call with
    | nil => exact absurd rfl hcall
    | cons name args =>
      unfold snippetsStrict
      by_cases hname : name = []
      · subst hname
        rw [if_pos rfl, ih hrest]
        rfl
      · rw [if_neg hname, ofCall_texts hname, ih hrest, List.filterMap_cons,
          ofCall?_of_ne_nil hname]
        rfl

/-- The filters of the snippets are the calls whose first word is not empty. -/
theorem map_toFilter_filterMap {cs : List (List Text)} (h : ∀ call ∈ cs, call ≠ []) :
    (cs.filterMap Snippet.ofCall?).map Snippet.toFilter =
      cs.filter fun call => call.head? ≠ some [] := by
  induction cs with
  | nil => rfl
  | cons call rest ih =>
    obtain ⟨hcall, hrest⟩ := List.forall_mem_cons.1 h
    cases call with
    | nil => exact absurd rfl hcall
    | cons name args =>
      by_cases hname : name = []
      · subst hname
        rw [List.filter_cons_of_neg (by simp), ← ih hrest]
        rfl
      · rw [List.filter_cons_of_pos (by simp [hname]), ← ih hrest, List.filterMap_cons,
          ofCall?_of_ne_nil hname]
        rfl

theorem name_ne_nil_of_ofCall? {call : List Text} {s : Snippet Text}
    (h : Snippet.ofCall? call = some s) : s.name ≠ [] := by
  unfold Snippet.ofCall? at h
  split at h
  · cases h
  · cases h
  · next name args hname =>
    cases h
    exact hname

/-! ## Scripts -/

/-- Any text can be read as a script, with every step taken strictly. No call is empty; whenever a
character is read inside an escape, at most three came before it, and what they amount to with it is
nothing or one code point of at most `U+FFFF`. The snippets are the calls whose first word is not
empty, in order. -/
theorem parse_loses_unnamed_only (script : Text) :
    (∀ call ∈ calls script, call ≠ []) ∧
      (∀ before c after seen, trim script ++ [semicolon] = before ++ c :: after →
        (Scan.run {} before).mode = .code seen →
        seen.length ≤ 3 ∧ decode (seen ++ [c]) = .ok (codeOf (seen ++ [c])) ∧
          ∀ d ∈ codeOf (seen ++ [c]), d.val ≤ 0xffff) ∧
      parseStrict script = .ok ((parse script).map Snippet.toValues) ∧
      (∀ s ∈ parse script, s.name ≠ []) ∧
      (parse script).map Snippet.toFilter =
        (calls script).filter fun call => call.head? ≠ some [] := by
  have hne : ∀ call ∈ calls script, call ≠ [] := fun _ => ne_nil_of_mem_calls
  refine ⟨hne, ?_, ?_, ?_, map_toFilter_filterMap hne⟩
  · intro before c after seen _ hmode
    have hshort : seen.length ≤ 3 := Scan.bounded_start.run before seen hmode
    have hfour : (seen ++ [c]).length ≤ 4 := by
      rw [List.length_append, List.length_singleton]
      exact Nat.succ_le_succ hshort
    exact ⟨hshort, decode_eq hfour⟩
  · rw [parseStrict, Scan.bounded_start.runStrict]
    exact snippetsStrict_eq hne
  · intro s hs
    obtain ⟨call, -, hcall⟩ := List.mem_filterMap.1 hs
    exact name_ne_nil_of_ofCall? hcall

end Script

end Snippets
