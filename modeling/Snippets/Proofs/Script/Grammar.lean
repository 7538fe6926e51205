import Mathlib.Tactic.SplitIfs
import Snippets.Script.Scan

/-!
# The grammar of scripts

A script reads from left to right as separators and pieces, and may end in one piece that is not
complete. A `Reading` is such a division; `Reading.text` is the text it divides and `Reading.calls`
what it means, both said without the scanner.

Every text has exactly one reading (`text_eq_iff`). The reading grows with the text: `push` says
how one more character changes it, `text_push` that nothing is lost, and `pushAll_text` that
pushing the text of a reading gives that reading back.
-/

namespace Snippets.Script

/-! ## Pieces -/

/-- A character that ends a word outside quotes. -/
def isSeparator (c : CodePoint) : Bool := c = semicolon || isSpace c

/-- A character that stands for itself inside quotes. -/
def isVerbatim (c : CodePoint) : Bool := c ≠ quote && c ≠ backslash

/-- A character that stands for itself outside quotes. -/
def isBare (c : CodePoint) : Bool := isVerbatim c && !isSeparator c

/-- A backslash with one character, or with `u` and any four characters. -/
inductive Escape where
  | single (c : CodePoint) (ne : c ≠ letterU)
  | code (digits : Text) (four : digits.length = 4)

/-- What stands between two quotes. -/
inductive Inner where
  | verbatim (c : CodePoint) (h : isVerbatim c)
  | escape (e : Escape)

/-- A part of a word. -/
inductive Piece where
  | bare (c : CodePoint) (h : isBare c)
  | escape (e : Escape)
  | quoted (inside : List Inner)

inductive Item where
  | separator (c : CodePoint) (h : isSeparator c)
  | piece (p : Piece)

/-- An escape that has only begun. -/
inductive Stub where
  | start
  | code (digits : Text) (short : digits.length < 4)

/-- A piece that is not complete: an escape that has only begun, or a quote that is not closed. -/
inductive Fragment where
  | escape (stub : Stub)
  | quoted (inside : List Inner) (stub : Option Stub)

/-- Separators and complete pieces in order, and the fragment at the end if there is one. -/
structure Reading where
  items : List Item
  fragment : Option Fragment

/-! ## The text of a reading -/

def Escape.text : Escape → Text
  | single c _ => [backslash, c]
  | code digits _ => backslash :: letterU :: digits

def Inner.text : Inner → Text
  | verbatim c _ => [c]
  | escape e => e.text

def Piece.text : Piece → Text
  | bare c _ => [c]
  | escape e => e.text
  | quoted inside => quote :: (inside.flatMap Inner.text ++ [quote])

def Item.text : Item → Text
  | separator c _ => [c]
  | piece p => p.text

def Stub.text : Stub → Text
  | start => [backslash]
  | code digits _ => backslash :: letterU :: digits

def Fragment.text : Fragment → Text
  | escape stub => stub.text
  | quoted inside none => quote :: inside.flatMap Inner.text
  | quoted inside (some stub) => quote :: (inside.flatMap Inner.text ++ stub.text)

def Reading.text (r : Reading) : Text :=
  r.items.flatMap Item.text ++ (r.fragment.map Fragment.text).getD []

/-! ## The meaning of a reading -/

/-- The characters that an escape adds to its word: four that denote no code point add nothing. -/
def Escape.meaning : Escape → Text
  | single c _ => [escaped c]
  | code digits _ => (codeOf digits).toList

def Inner.meaning : Inner → Text
  | verbatim c _ => [c]
  | escape e => e.meaning

def Piece.meaning : Piece → Text
  | bare c _ => [c]
  | escape e => e.meaning
  | quoted inside => inside.flatMap Inner.meaning

def Piece.isQuoted : Piece → Bool
  | quoted _ => true
  | _ => false

def Item.piece? : Item → Option Piece
  | separator _ _ => none
  | piece p => some p

def Item.isSeparator : Item → Bool
  | separator _ _ => true
  | piece _ => false

/-- Whether an item ends a call. -/
def Item.isEnd : Item → Bool
  | separator c _ => c = semicolon
  | piece _ => false

/-- Pieces without a separator between them. -/
abbrev Word := List Piece

namespace Word

def value (w : Word) : Text := w.flatMap Piece.meaning

/-- Whether the last piece is a quoted one. -/
def endsQuoted (w : Word) : Bool := (w.getLast?.map Piece.isQuoted).getD false

/-- The argument that a word yields: an empty value counts only if quotes end the word. -/
def argument? (w : Word) : Option Text :=
  if w.value = [] ∧ ¬ w.endsQuoted then none else some w.value

end Word

/-- The words between separators; where separators meet there is an empty one. -/
def wordsOf (items : List Item) : List Word :=
  (items.splitOnP Item.isSeparator).map (List.filterMap Item.piece?)

/-- The arguments of one call. -/
def argumentsOf (items : List Item) : List Text := (wordsOf items).filterMap Word.argument?

/-- The calls that are not empty. -/
def callsOf (groups : List (List Item)) : List (List Text) :=
  (groups.map argumentsOf).filter fun call => call ≠ []

/-- The items of each call: semicolons end calls. -/
def Reading.groups (r : Reading) : List (List Item) := r.items.splitOnP Item.isEnd

/-- The calls of a reading. A fragment takes the call it stands in with it. -/
def Reading.calls (r : Reading) : List (List Text) :=
  callsOf (if r.fragment.isSome then r.groups.dropLast else r.groups)

/-! ## One more character -/

/-- The escape after one more character: it goes on, or it is complete. -/
def Stub.push (c : CodePoint) : Stub → Stub ⊕ Escape
  | start => if h : c = letterU then .inl (.code [] (by decide)) else .inr (.single c h)
  | code digits short =>
    if h : digits.length < 3 then .inl (.code (digits ++ [c]) (by simp; omega))
    else .inr (.code (digits ++ [c]) (by simp; omega))

/-- The reading of a text with one more character. -/
def Reading.push (r : Reading) (c : CodePoint) : Reading :=
  match r.fragment with
  | none =>
    if hb : c = backslash then ⟨r.items, some (.escape .start)⟩
    else if hq : c = quote then ⟨r.items, some (.quoted [] none)⟩
    else if hs : isSeparator c then ⟨r.items ++ [.separator c hs], none⟩
    else ⟨r.items ++ [.piece (.bare c (by simp [isBare, isVerbatim, hb, hq, hs]))], none⟩
  | some (.escape stub) =>
    match stub.push c with
    | .inl stub => ⟨r.items, some (.escape stub)⟩
    | .inr e => ⟨r.items ++ [.piece (.escape e)], none⟩
  | some (.quoted inside none) =>
    if hb : c = backslash then ⟨r.items, some (.quoted inside (some .start))⟩
    else if hq : c = quote then ⟨r.items ++ [.piece (.quoted inside)], none⟩
    else ⟨r.items, some (.quoted (inside ++ [.verbatim c (by simp [isVerbatim, hb, hq])]) none)⟩
  | some (.quoted inside (some stub)) =>
    match stub.push c with
    | .inl stub => ⟨r.items, some (.quoted inside (some stub))⟩
    | .inr e => ⟨r.items, some (.quoted (inside ++ [.escape e]) none)⟩

def Reading.pushAll (r : Reading) (t : Text) : Reading := t.foldl push r

/-- The reading of the empty text. -/
def Reading.empty : Reading := ⟨[], none⟩

namespace Reading

@[simp] theorem pushAll_nil (r : Reading) : r.pushAll [] = r := rfl

@[simp] theorem pushAll_cons (r : Reading) (c : CodePoint) (t : Text) :
    r.pushAll (c :: t) = (r.push c).pushAll t := rfl

@[simp] theorem pushAll_append (r : Reading) (t u : Text) :
    r.pushAll (t ++ u) = (r.pushAll t).pushAll u := by
  simp [pushAll, List.foldl_append]

/-! ## Every text has a reading -/

theorem text_push_stub (c : CodePoint) (stub : Stub) :
    (stub.push c).elim Stub.text Escape.text = stub.text ++ [c] := by
  cases stub with
  | start =>
    by_cases h : c = letterU
    · simp [Stub.push, Stub.text, h]
    · simp [Stub.push, Stub.text, Escape.text, h]
  | code digits short =>
    by_cases h : digits.length < 3
    · simp [Stub.push, Stub.text, h]
    · simp [Stub.push, Stub.text, Escape.text, h]

/-- A character is added at the end of the text. -/
theorem text_push (r : Reading) (c : CodePoint) : (r.push c).text = r.text ++ [c] := by
  obtain ⟨items, fragment⟩ := r
  rcases fragment with _ | ⟨stub⟩ | ⟨inside, _ | stub⟩
  · unfold push
    split_ifs with hb hq hs <;>
      simp [text, Fragment.text, Stub.text, Item.text, Piece.text, *]
  · have h := text_push_stub c stub
    unfold push
    cases hp : stub.push c <;>
      simp_all [text, Fragment.text, Item.text, Piece.text]
  · unfold push
    split_ifs with hb hq <;>
      simp [text, Fragment.text, Stub.text, Item.text, Piece.text, Inner.text, *]
  · have h := text_push_stub c stub
    unfold push
    cases hp : stub.push c <;>
      simp_all [text, Fragment.text, Inner.text]

theorem text_pushAll (r : Reading) (t : Text) : (r.pushAll t).text = r.text ++ t := by
  induction t generalizing r with
  | nil => simp
  | cons c t ih => simp [ih, text_push]

/-! ## No text has two readings -/

theorem push_separator (items : List Item) (c : CodePoint) (h : isSeparator c) :
    push ⟨items, none⟩ c = ⟨items ++ [.separator c h], none⟩ := by
  have hb : c ≠ backslash := by rintro rfl; exact absurd h (by decide)
  have hq : c ≠ quote := by rintro rfl; exact absurd h (by decide)
  simp [push, hb, hq, h]

theorem push_quote (items : List Item) :
    push ⟨items, none⟩ quote = ⟨items, some (.quoted [] none)⟩ := by
  simp [push, show quote ≠ backslash by decide]

theorem push_bare (items : List Item) (c : CodePoint) (h : isBare c) :
    push ⟨items, none⟩ c = ⟨items ++ [.piece (.bare c h)], none⟩ := by
  have hv := h
  simp only [isBare, isVerbatim, Bool.and_eq_true, decide_eq_true_eq, Bool.not_eq_true'] at hv
  obtain ⟨⟨hq, hb⟩, hs⟩ := hv
  simp [push, hb, hq, hs]

theorem push_verbatim (items : List Item) (inside : List Inner) (c : CodePoint)
    (h : isVerbatim c) :
    push ⟨items, some (.quoted inside none)⟩ c =
      ⟨items, some (.quoted (inside ++ [.verbatim c h]) none)⟩ := by
  have hv := h
  simp only [isVerbatim, Bool.and_eq_true, decide_eq_true_eq] at hv
  obtain ⟨hq, hb⟩ := hv
  simp [push, hb, hq]

/-- An escape outside quotes is read as one piece. -/
theorem pushAll_escape (items : List Item) (e : Escape) :
    pushAll ⟨items, none⟩ e.text = ⟨items ++ [.piece (.escape e)], none⟩ := by
  cases e with
  | single c ne => simp [Escape.text, push, Stub.push, ne]
  | code digits four =>
    match digits, four with
    | [a, b, c, d], _ => simp [Escape.text, push, Stub.push]

/-- An escape inside quotes is read as one part of them. -/
theorem pushAll_innerEscape (items : List Item) (inside : List Inner) (e : Escape) :
    pushAll ⟨items, some (.quoted inside none)⟩ e.text =
      ⟨items, some (.quoted (inside ++ [.escape e]) none)⟩ := by
  cases e with
  | single c ne => simp [Escape.text, push, Stub.push, ne]
  | code digits four =>
    match digits, four with
    | [a, b, c, d], _ => simp [Escape.text, push, Stub.push]

theorem pushAll_inside (items : List Item) (before inside : List Inner) :
    pushAll ⟨items, some (.quoted before none)⟩ (inside.flatMap Inner.text) =
      ⟨items, some (.quoted (before ++ inside) none)⟩ := by
  induction inside generalizing before with
  | nil => simp
  | cons i inside ih =>
    rw [List.flatMap_cons, pushAll_append]
    cases i with
    | verbatim c h => simp [Inner.text, push_verbatim _ _ _ h, ih]
    | escape e => simp [Inner.text, pushAll_innerEscape, ih]

theorem pushAll_item (items : List Item) (i : Item) :
    pushAll ⟨items, none⟩ i.text = ⟨items ++ [i], none⟩ := by
  cases i with
  | separator c h => exact push_separator items c h
  | piece p =>
    cases p with
    | bare c h => exact push_bare items c h
    | escape e => exact pushAll_escape items e
    | quoted inside =>
      simp only [Item.text, Piece.text, pushAll_cons, push_quote, pushAll_append, pushAll_inside,
        List.nil_append, pushAll_nil]
      simp [push, show quote ≠ backslash by decide]

theorem pushAll_items (before items : List Item) :
    pushAll ⟨before, none⟩ (items.flatMap Item.text) = ⟨before ++ items, none⟩ := by
  induction items generalizing before with
  | nil => simp
  | cons i items ih => rw [List.flatMap_cons, pushAll_append, pushAll_item, ih]; simp

theorem pushAll_stub (items : List Item) (stub : Stub) :
    pushAll ⟨items, none⟩ stub.text = ⟨items, some (.escape stub)⟩ := by
  cases stub with
  | start => simp [Stub.text, push]
  | code digits short =>
    match digits, short with
    | [], _ | [a], _ | [a, b], _ | [a, b, c], _ => simp [Stub.text, push, Stub.push]

theorem pushAll_innerStub (items : List Item) (inside : List Inner) (stub : Stub) :
    pushAll ⟨items, some (.quoted inside none)⟩ stub.text =
      ⟨items, some (.quoted inside (some stub))⟩ := by
  cases stub with
  | start => simp [Stub.text, push]
  | code digits short =>
    match digits, short with
    | [], _ | [a], _ | [a, b], _ | [a, b, c], _ => simp [Stub.text, push, Stub.push]

theorem pushAll_fragment (items : List Item) (f : Fragment) :
    pushAll ⟨items, none⟩ f.text = ⟨items, some f⟩ := by
  rcases f with ⟨stub⟩ | ⟨inside, _ | stub⟩
  · exact pushAll_stub items stub
  · simp [Fragment.text, push_quote, pushAll_inside]
  · simp [Fragment.text, push_quote, pushAll_inside, pushAll_innerStub]

/-- Reading the text of a reading gives it back. -/
theorem pushAll_text (r : Reading) : empty.pushAll r.text = r := by
  obtain ⟨items, fragment⟩ := r
  cases fragment with
  | none => simp [text, empty, pushAll_items]
  | some f => simp [text, empty, pushAll_items, pushAll_fragment]

/-- A text has one reading and no other. -/
theorem text_eq_iff (r : Reading) (t : Text) : r.text = t ↔ r = empty.pushAll t := by
  constructor
  · rintro rfl
    exact (pushAll_text r).symm
  · rintro rfl
    rw [text_pushAll]
    rfl

end Reading

end Snippets.Script
