import Mathlib.Data.List.Basic
import Mathlib.Data.List.TakeDrop
import Mathlib.Tactic.ByContra
import Mathlib.Tactic.SplitIfs
import Snippets.Proofs.File.Loading
import Snippets.Proofs.Text.Pieces
import Snippets.Proofs.Text.Utf8
import Snippets.Session.Gateway

/-!
# Paths and the file locators that name them

The standard file locator of an absolute path shows unreserved characters and slashes as they are
and every other byte as an escape. What a locator names is the text between its host and its query,
escapes included (`split_file`), so a path and its locator name the same file if and only if nothing
in the path has to be escaped (`localPath?_eq_iff`). If something has to be, there are files where
the path leads to a source and its locator to none (`file_locator`).
-/

namespace Snippets

/-! ## Locators of paths -/

namespace CodePoint

/-- The characters that a locator shows as they are. -/
def isUnreserved (c : CodePoint) : Bool :=
  c.isLetter || c.isDigit || c = 0x2d || c = 0x2e || c = 0x5f || c = 0x7e

/-- What need not be escaped in the path of a locator. -/
def isPathPoint (c : CodePoint) : Bool := c.isUnreserved || c = Path.slash

/-- The surrogates that stand for bytes which are not UTF-8. -/
def isByteEscape (c : CodePoint) : Bool := 0xdc80 ≤ c.val && c.val < 0xdd00

/-- The bytes by which a file system knows a code point. -/
def nameBytes (c : CodePoint) : List UInt8 :=
  if c.isByteEscape then [UInt8.ofNat (c.val - 0xdc00)] else Utf8.encodePoint c

/-- Whether a code point can stand in the name of a file. -/
def hasNameBytes (c : CodePoint) : Bool := !c.isSurrogate || c.isByteEscape

/-- The upper-case hexadecimal digit of a number below sixteen. -/
def upperHexDigit (n : Nat) : CodePoint := ofNat (if n < 10 then 0x30 + n else 0x41 + (n - 10))

end CodePoint

namespace Url

def percent : CodePoint := 0x25

def escapeByte (b : UInt8) : Text :=
  [percent, CodePoint.upperHexDigit (b.toNat / 16), CodePoint.upperHexDigit (b.toNat % 16)]

def quoteByte (b : UInt8) : Text :=
  if (CodePoint.ofNat b.toNat).isPathPoint then [CodePoint.ofNat b.toNat] else escapeByte b

def quotePoint (c : CodePoint) : Text := c.nameBytes.flatMap quoteByte

/-- The path of a locator: the bytes of a text, escaped where they have to be. -/
def quote (t : Text) : Text := t.flatMap quotePoint

/-- The standard locator of an absolute path. A path that can be no name of a file has none. -/
def ofPath? (p : Text) : Option Text :=
  if p.all CodePoint.hasNameBytes then some (text "file://" ++ quote p) else none

/-- The path that a locator names, if it does not name a place in the network. -/
def localPath? (u : Text) : Option Path :=
  match split u with
  | .ok parts =>
    if parts.isRemote then none else some (.ofText (if parts.isFile then parts.path else u))
  | .error _ => none

/-! ## Escapes -/

section Quote

variable {c x : CodePoint} {b : UInt8} {t : Text}

theorem isPathPoint_iff : c.isPathPoint ↔
    (0x41 ≤ c.val ∧ c.val ≤ 0x5a) ∨ (0x61 ≤ c.val ∧ c.val ≤ 0x7a) ∨
      (0x2d ≤ c.val ∧ c.val ≤ 0x39) ∨ c.val = 0x5f ∨ c.val = 0x7e := by
  have hval : ∀ d : CodePoint, c = d ↔ c.val = d.val := fun d => CodePoint.ext_iff
  have hdash : (0x2d : CodePoint).val = 0x2d := rfl
  have hdot : (0x2e : CodePoint).val = 0x2e := rfl
  have hbar : (0x5f : CodePoint).val = 0x5f := rfl
  have htilde : (0x7e : CodePoint).val = 0x7e := rfl
  have hslash : Path.slash.val = 0x2f := rfl
  unfold CodePoint.isPathPoint CodePoint.isUnreserved CodePoint.isLetter CodePoint.isDigit
  simp only [Bool.or_eq_true, Bool.and_eq_true, decide_eq_true_eq, hval, hdash, hdot, hbar, htilde,
    hslash]
  omega

theorem upperHexDigit_isPathPoint {n : Nat} (h : n < 16) :
    (CodePoint.upperHexDigit n).isPathPoint := by
  rw [isPathPoint_iff, CodePoint.upperHexDigit, CodePoint.val_ofNat (by split_ifs <;> omega)]
  split_ifs <;> omega

theorem upperHexDigit_ne_slash {n : Nat} (h : n < 16) :
    CodePoint.upperHexDigit n ≠ Path.slash := by
  have hslash : Path.slash.val = 0x2f := rfl
  rw [Ne, CodePoint.ext_iff, CodePoint.upperHexDigit, CodePoint.val_ofNat (by split_ifs <;> omega),
    hslash]
  split_ifs <;> omega

/-- An escape shows nothing but a percent sign and digits. -/
theorem mem_escapeByte (h : x ∈ escapeByte b) :
    (x.isPathPoint ∨ x = percent) ∧ x ≠ Path.slash := by
  have hb := b.toNat_lt
  simp only [escapeByte, List.mem_cons, List.not_mem_nil, or_false] at h
  obtain rfl | rfl | rfl := h
  · exact ⟨.inr rfl, by decide⟩
  · exact ⟨.inl (upperHexDigit_isPathPoint (by omega)), upperHexDigit_ne_slash (by omega)⟩
  · exact ⟨.inl (upperHexDigit_isPathPoint (by omega)), upperHexDigit_ne_slash (by omega)⟩

theorem le_of_mem_encodePoint (h : 0x80 ≤ c.val) (hb : b ∈ Utf8.encodePoint c) :
    0x80 ≤ b.toNat := by
  have hlt := c.isLt
  unfold Utf8.encodePoint at hb
  dsimp only at hb
  split_ifs at hb <;> simp only [List.mem_cons, List.not_mem_nil, or_false] at hb
  · omega
  · obtain rfl | rfl := hb <;> simp only [UInt8.toNat_ofNat'] <;> omega
  · obtain rfl | rfl | rfl := hb <;> simp only [UInt8.toNat_ofNat'] <;> omega
  · obtain rfl | rfl | rfl | rfl := hb <;> simp only [UInt8.toNat_ofNat'] <;> omega

theorem nameBytes_ascii (h : c.val < 0x80) : c.nameBytes = [UInt8.ofNat c.val] := by
  have hescape : c.isByteEscape = false := by
    unfold CodePoint.isByteEscape
    simp only [Bool.and_eq_false_iff, decide_eq_false_iff_not]
    omega
  unfold CodePoint.nameBytes Utf8.encodePoint
  rw [hescape]
  simp [h]

theorem quotePoint_of_isPathPoint (h : c.isPathPoint) : quotePoint c = [c] := by
  have hlt : c.val < 0x80 := by
    have := isPathPoint_iff.1 h
    omega
  have hc : CodePoint.ofNat (UInt8.ofNat c.val).toNat = c := by
    rw [UInt8.toNat_ofNat', Nat.mod_eq_of_lt (by omega)]
    exact CodePoint.ext (CodePoint.val_ofNat c.isLt)
  rw [quotePoint, nameBytes_ascii hlt, List.flatMap_singleton, quoteByte, hc, if_pos h]

/-- What is no path point becomes a number of escapes. -/
theorem quotePoint_of_not (h : c.isPathPoint = false) :
    c.nameBytes ≠ [] ∧ quotePoint c = c.nameBytes.flatMap escapeByte := by
  have hbytes : c.nameBytes ≠ [] ∧
      ∀ b ∈ c.nameBytes, (CodePoint.ofNat b.toNat).isPathPoint = false := by
    by_cases hlt : c.val < 0x80
    · rw [nameBytes_ascii hlt]
      refine ⟨by simp, fun b hb => ?_⟩
      rw [List.mem_singleton.1 hb, UInt8.toNat_ofNat', Nat.mod_eq_of_lt (by omega)]
      have hc : CodePoint.ofNat c.val = c := CodePoint.ext (CodePoint.val_ofNat c.isLt)
      rw [hc, h]
    · have hbeyond : ∀ b ∈ c.nameBytes, 0x80 ≤ b.toNat := by
        intro b hb
        unfold CodePoint.nameBytes at hb
        split_ifs at hb with hescape
        · have hrange : 0xdc80 ≤ c.val ∧ c.val < 0xdd00 := by
            simpa [CodePoint.isByteEscape] using hescape
          rw [List.mem_singleton.1 hb, UInt8.toNat_ofNat']
          omega
        · exact le_of_mem_encodePoint (by omega) hb
      refine ⟨?_, fun b hb => ?_⟩
      · unfold CodePoint.nameBytes Utf8.encodePoint
        dsimp only
        split_ifs <;> simp
      · have := hbeyond b hb
        have hb' := b.toNat_lt
        rw [← Bool.not_eq_true, isPathPoint_iff, CodePoint.val_ofNat (by omega)]
        omega
  refine ⟨hbytes.1, List.flatMap_congr fun b hb => ?_⟩
  rw [quoteByte, if_neg (by simp [hbytes.2 b hb])]

theorem mem_quotePoint (h : x ∈ quotePoint c) :
    (x.isPathPoint ∨ x = percent) ∧ (x = Path.slash → c = Path.slash) := by
  cases hc : c.isPathPoint with
  | true =>
    rw [quotePoint_of_isPathPoint hc, List.mem_singleton] at h
    subst h
    exact ⟨.inl hc, id⟩
  | false =>
    rw [(quotePoint_of_not hc).2] at h
    obtain ⟨b, -, hx⟩ := List.mem_flatMap.1 h
    exact ⟨(mem_escapeByte hx).1, fun hs => absurd hs (mem_escapeByte hx).2⟩

theorem mem_quote (h : x ∈ quote t) : x.isPathPoint ∨ x = percent := by
  obtain ⟨c, -, hx⟩ := List.mem_flatMap.1 h
  exact (mem_quotePoint hx).1

theorem quote_cons : quote (c :: t) = quotePoint c ++ quote t := List.flatMap_cons

theorem quote_slash : quotePoint Path.slash = [Path.slash] := quotePoint_of_isPathPoint rfl

theorem three_le_length_quotePoint (h : c.isPathPoint = false) : 3 ≤ (quotePoint c).length := by
  obtain ⟨hne, hq⟩ := quotePoint_of_not h
  obtain ⟨b, bytes, hb⟩ := List.exists_cons_of_ne_nil hne
  rw [hq, hb, List.flatMap_cons, List.length_append]
  exact Nat.le_add_right 3 _

/-- Escaping makes a text longer, unless nothing has to be escaped. -/
theorem length_le_length_quote (t : Text) : t.length ≤ (quote t).length := by
  induction t with
  | nil => exact Nat.le_refl 0
  | cons c t ih =>
    rw [quote_cons, List.length_append, List.length_cons]
    cases hc : c.isPathPoint with
    | true =>
      rw [quotePoint_of_isPathPoint hc, List.length_singleton]
      omega
    | false =>
      have := three_le_length_quotePoint hc
      omega

theorem quote_eq_self_iff : quote t = t ↔ ∀ c ∈ t, c.isPathPoint := by
  induction t with
  | nil => simp [quote]
  | cons c t ih =>
    rw [quote_cons, List.forall_mem_cons]
    cases hc : c.isPathPoint with
    | true =>
      rw [quotePoint_of_isPathPoint hc, List.singleton_append, List.cons_inj_right, ih]
      simp
    | false =>
      refine ⟨fun h => ?_, by simp⟩
      have hlength := congrArg List.length h
      have h₃ := three_le_length_quotePoint hc
      have hle := length_le_length_quote t
      rw [List.length_append, List.length_cons] at hlength
      omega

theorem quote_eq_dot_iff : quote t = text "." ↔ t = text "." := by
  constructor
  · intro h
    have hlength := length_le_length_quote t
    rw [h] at hlength
    match t, hlength with
    | [], _ => cases h
    | [c], _ =>
      rw [quote_cons, quote, List.flatMap_nil, List.append_nil] at h
      cases hc : c.isPathPoint with
      | true => rwa [quotePoint_of_isPathPoint hc] at h
      | false =>
        have h₃ := three_le_length_quotePoint hc
        rw [h] at h₃
        exact absurd h₃ (by decide)
  · rintro rfl
    decide

theorem quote_eq_nil_iff : quote t = [] ↔ t = [] := by
  constructor
  · intro h
    have hlength := length_le_length_quote t
    rw [h] at hlength
    exact List.length_eq_zero_iff.1 (Nat.le_zero.1 hlength)
  · rintro rfl
    rfl

end Quote

/-! ## The parts of a path -/

/-- Escaping respects the slashes. -/
theorem splitOn_quote (t : Text) :
    Text.splitOn Path.slash (quote t) = (Text.splitOn Path.slash t).map quote := by
  induction t with
  | nil => rfl
  | cons c t ih =>
    rw [quote_cons]
    by_cases hc : c = Path.slash
    · rw [hc, quote_slash, List.singleton_append, Text.splitOn, if_pos rfl, Text.splitOn,
        if_pos rfl, ih]
      rfl
    · have hnot : Path.slash ∉ quotePoint c := fun hs => hc ((mem_quotePoint hs).2 rfl)
      obtain ⟨first, others, hs⟩ := List.exists_cons_of_ne_nil (Text.splitOn_ne_nil Path.slash t)
      rw [Text.splitOn_append_of_not_mem hnot, Text.splitOn_cons_of_ne hc, ih, hs]
      simp [quote_cons]

theorem takeWhile_slash_quote (t : Text) :
    (quote t).takeWhile (· = Path.slash) = t.takeWhile (· = Path.slash) := by
  induction t with
  | nil => rfl
  | cons c t ih =>
    rw [quote_cons]
    by_cases hc : c = Path.slash
    · rw [hc, quote_slash, List.singleton_append, List.takeWhile_cons_of_pos (by simp),
        List.takeWhile_cons_of_pos (by simp), ih]
    · have hnot : Path.slash ∉ quotePoint c := fun hs => hc ((mem_quotePoint hs).2 rfl)
      have hne : quotePoint c ≠ [] := by
        intro hnil
        exact absurd (quote_eq_nil_iff.1 (show quote [c] = [] by simp [quote, hnil])) (by simp)
      obtain ⟨x, w, hw⟩ := List.exists_cons_of_ne_nil hne
      rw [hw] at hnot ⊢
      obtain ⟨hx, -⟩ := not_or.1 (List.mem_cons.not.1 hnot)
      rw [List.cons_append, List.takeWhile_cons_of_neg (by simpa using Ne.symm hx),
        List.takeWhile_cons_of_neg (by simpa using hc)]

theorem ofText_quote (t : Text) : Path.ofText (quote t) =
    ⟨(Path.ofText t).root, (Path.ofText t).parts.map quote⟩ := by
  unfold Path.ofText
  rw [takeWhile_slash_quote, splitOn_quote, List.filter_map]
  congr 2
  refine List.filter_congr fun part _ => ?_
  have hnil : (quote part).isEmpty = part.isEmpty := by
    rw [Bool.eq_iff_iff, List.isEmpty_iff, List.isEmpty_iff, quote_eq_nil_iff]
  have hdot : (quote part != text ".") = (part != text ".") := by
    rw [Bool.eq_iff_iff, bne_iff_ne, bne_iff_ne, Ne, Ne, quote_eq_dot_iff]
  simp [hnil, hdot]

/-- The escaped text is another path, unless nothing has to be escaped. -/
theorem ofText_quote_eq_iff (t : Text) :
    Path.ofText (quote t) = Path.ofText t ↔ ∀ c ∈ t, c.isPathPoint := by
  constructor
  · intro h c hc
    by_cases hslash : c = Path.slash
    · rw [hslash]
      rfl
    obtain ⟨part, hpart, hmem⟩ := Text.exists_mem_splitOn hc hslash
    by_cases hdot : part = text "."
    · rw [hdot] at hmem
      rw [List.mem_singleton.1 (show c ∈ [(0x2e : CodePoint)] from hmem)]
      rfl
    have hparts : part ∈ (Path.ofText t).parts := by
      refine List.mem_filter.2 ⟨hpart, ?_⟩
      simpa [hdot] using List.ne_nil_of_mem hmem
    rw [ofText_quote] at h
    have hmap : (Path.ofText t).parts.map quote = (Path.ofText t).parts.map id := by
      rw [List.map_id]
      exact congrArg Path.parts h
    exact quote_eq_self_iff.1 (List.map_inj_left.1 hmap part hparts) c hmem
  · intro h
    rw [quote_eq_self_iff.2 h]

/-! ## What a locator names -/

section Split

variable {p q : Text}

/-- The marks that end the path of a locator. -/
def isPathEnd (c : CodePoint) : Bool := c = 0x3f || c = 0x23

/-- Tabs and line breaks, which are dropped from a locator. -/
def isDropped (c : CodePoint) : Bool := c = 0x09 || c = 0x0a || c = 0x0d

/-- A file locator without a host names what stands before its query. -/
theorem split_file (hq : q.head? = some Path.slash) :
    split (text "file://" ++ q) = .ok ⟨text "file",
      ((q.filter fun c => !isDropped c).takeWhile (· ≠ 0x23)).takeWhile (· ≠ 0x3f)⟩ := by
  obtain ⟨c, q, rfl⟩ := List.exists_cons_of_ne_nil (show q ≠ [] by rintro rfl; cases hq)
  cases hq
  have hfilter : ∀ l : Text, (l.filter fun c => c ≠ 0x09 && c ≠ 0x0a && c ≠ 0x0d) =
      l.filter fun c => !isDropped c := by
    intro l
    refine List.filter_congr fun c _ => ?_
    simp [isDropped]
  have hclean : clean (text "file://" ++ Path.slash :: q) =
      text "file://" ++ Path.slash :: q.filter fun c => !isDropped c := by
    rw [← hfilter]
    rfl
  unfold split
  rw [hclean, List.filter_cons_of_pos (by decide)]
  generalize (q.filter fun c => !isDropped c) = r
  rfl

/-- A text that begins with a slash has no scheme. -/
theorem splitScheme_absolute (q : Text) :
    splitScheme (Path.slash :: q) = ([], Path.slash :: q) := by
  unfold splitScheme
  rw [List.takeWhile_cons_of_pos (by decide)]
  dsimp only
  split
  · next heq =>
    obtain ⟨rfl, -⟩ := List.cons.inj heq
    rfl
  · rfl

theorem clean_absolute (q : Text) :
    ∃ r, clean (Path.slash :: q) = Path.slash :: r ∧ ∀ c ∈ r, c ∈ q := by
  refine ⟨q.filter fun c => c ≠ 0x09 && c ≠ 0x0a && c ≠ 0x0d, ?_,
    fun c hc => List.mem_of_mem_filter hc⟩
  unfold clean
  rw [List.dropWhile_cons_of_neg (by decide), List.filter_cons_of_pos (by decide)]

theorem mem_of_mem_splitHost {t : Text} {c : CodePoint} (h : c ∈ (splitHost t).1) : c ∈ t := by
  unfold splitHost at h
  split at h
  · split_ifs at h
    · rw [List.span_eq_takeWhile_dropWhile] at h
      exact List.mem_cons_of_mem _ (List.mem_cons_of_mem _ ((List.takeWhile_sublist _).subset h))
    · cases h
  · cases h

theorem isPathPoint_of_hidesMark {c : CodePoint} (h : hidesMark c) : c.isPathPoint = false := by
  cases hpoint : c.isPathPoint with
  | false => rfl
  | true =>
    have hlt : c.val < 0x2047 := by
      have := isPathPoint_iff.1 hpoint
      omega
    have hmem := List.contains_iff_mem.1 h
    simp only [List.mem_cons, List.not_mem_nil, or_false] at hmem
    omega

/-- What is wrong with a host shows in a code point of it that a locator has to escape. -/
theorem exists_of_hostError? {host : Text} {e : SplitError} (h : hostError? host = some e) :
    ∃ c ∈ host, c.isPathPoint = false := by
  by_cases hopen : (0x5b : CodePoint) ∈ host
  · exact ⟨_, hopen, rfl⟩
  by_cases hclose : (0x5d : CodePoint) ∈ host
  · exact ⟨_, hclose, rfl⟩
  have hno : host.contains 0x5b = false := by simpa using hopen
  have hnc : host.contains 0x5d = false := by simpa using hclose
  unfold hostError? at h
  simp only [hno, hnc, bne_self_eq_false, Bool.false_eq_true, if_false] at h
  split_ifs at h with hany
  obtain ⟨c, hc, hhides⟩ := List.any_eq_true.1 hany
  exact ⟨c, hc, isPathPoint_of_hidesMark hhides⟩

/-- A path is read as it stands, unless it looks like a host that is none. -/
theorem split_absolute (hp : p.head? = some Path.slash) :
    (∃ path, split p = .ok ⟨[], path⟩) ∨
      (∃ e, split p = .error e) ∧ ∃ c ∈ p, c.isPathPoint = false := by
  obtain ⟨c, q, rfl⟩ := List.exists_cons_of_ne_nil (show p ≠ [] by rintro rfl; cases hp)
  cases hp
  obtain ⟨r, hclean, hr⟩ := clean_absolute q
  have hmem : ∀ c, c ∈ (splitHost (Path.slash :: r)).1 → c ∈ Path.slash :: q := by
    intro c hc
    obtain rfl | h := List.mem_cons.1 (mem_of_mem_splitHost hc)
    · exact List.mem_cons_self
    · exact List.mem_cons_of_mem _ (hr c h)
  unfold split
  rw [hclean, splitScheme_absolute]
  dsimp only
  generalize splitHost (Path.slash :: r) = parts at hmem
  obtain ⟨host, rest⟩ := parts
  dsimp only at hmem ⊢
  cases herror : hostError? host with
  | none => exact .inl ⟨_, rfl⟩
  | some e =>
    obtain ⟨c, hc, hnot⟩ := exists_of_hostError? herror
    exact .inr ⟨⟨e, rfl⟩, c, hmem c hc, hnot⟩

theorem localPath?_absolute (hp : p.head? = some Path.slash) :
    localPath? p = some (Path.ofText p) ∨
      (∃ e, split p = .error e) ∧ ∃ c ∈ p, c.isPathPoint = false := by
  obtain ⟨path, hsplit⟩ | hfails := split_absolute hp
  · left
    unfold localPath?
    rw [hsplit]
    rfl
  · exact .inr hfails

/-- A file locator that has nothing to drop and no query names its text. -/
theorem localPath?_file (hq : q.head? = some Path.slash)
    (h : ∀ c ∈ q, isDropped c = false ∧ isPathEnd c = false) :
    localPath? (text "file://" ++ q) = some (Path.ofText q) := by
  have hfilter : (q.filter fun c => !isDropped c) = q :=
    List.filter_eq_self.2 fun c hc => by simp [(h c hc).1]
  have hends : ∀ c ∈ q, c ≠ 0x3f ∧ c ≠ 0x23 := fun c hc => by
    simpa [isPathEnd] using (h c hc).2
  have hhash : q.takeWhile (· ≠ 0x23) = q :=
    List.takeWhile_eq_self_iff.2 fun c hc => by simpa using (hends c hc).2
  have hquery : q.takeWhile (· ≠ 0x3f) = q :=
    List.takeWhile_eq_self_iff.2 fun c hc => by simpa using (hends c hc).1
  unfold localPath?
  rw [split_file hq, hfilter, hhash, hquery]
  rfl

theorem head?_quote (hp : p.head? = some Path.slash) : (quote p).head? = some Path.slash := by
  obtain ⟨c, q, rfl⟩ := List.exists_cons_of_ne_nil (show p ≠ [] by rintro rfl; cases hp)
  cases hp
  rw [quote_cons, quote_slash]
  rfl

variable {u : Text}

theorem eq_of_ofPath? (hu : ofPath? p = some u) : u = text "file://" ++ quote p := by
  unfold ofPath? at hu
  split_ifs at hu
  exact (Option.some.inj hu).symm

/-- The locator of a path names the escaped text. -/
theorem localPath?_ofPath? (hp : p.head? = some Path.slash) (hu : ofPath? p = some u) :
    localPath? u = some (Path.ofText (quote p)) := by
  rw [eq_of_ofPath? hu]
  refine localPath?_file (head?_quote hp) fun c hc => ?_
  have hval : ∀ d : CodePoint, c = d ↔ c.val = d.val := fun d => CodePoint.ext_iff
  have hrange : c.val ≠ 0x09 ∧ c.val ≠ 0x0a ∧ c.val ≠ 0x0d ∧ c.val ≠ 0x3f ∧ c.val ≠ 0x23 := by
    obtain h | rfl := mem_quote hc
    · have := isPathPoint_iff.1 h
      omega
    · decide
  unfold isDropped isPathEnd
  simp only [Bool.or_eq_false_iff, decide_eq_false_iff_not, hval]
  exact ⟨⟨⟨hrange.1, hrange.2.1⟩, hrange.2.2.1⟩, hrange.2.2.2⟩

/-- A path and its locator name the same file if and only if nothing has to be escaped. -/
theorem localPath?_eq_iff (hp : p.head? = some Path.slash) (hu : ofPath? p = some u) :
    localPath? u = localPath? p ↔ ∀ c ∈ p, c.isPathPoint := by
  rw [localPath?_ofPath? hp hu]
  obtain hp' | ⟨⟨e, hfails⟩, c, hc, hnot⟩ := localPath?_absolute hp
  · rw [hp', Option.some.injEq, ofText_quote_eq_iff]
  · have hnone : localPath? p = none := by
      unfold localPath?
      rw [hfails]
    rw [hnone]
    refine ⟨nofun, fun h => ?_⟩
    rw [h c hc] at hnot
    cases hnot

end Split

end Url

/-! ## What a loading fetches -/

namespace Session

/-- The session with another address of the external runner. -/
def addressed (s : Session) (url : Text) : Session := { s with setup := { s.setup with url } }

/-- The source that a loading fetches from the local file system, if it does not fail. -/
def fetched (s : Session) (t : TaskId) : Option Text :=
  match (s.load t).2 with
  | .waits (.reading contents) _ => contents.toOption
  | _ => none

section Fetched

variable {s : Session} {path : Path}

/-- A loading from the local file system reads the path that its address names. -/
theorem load_local (h : Url.localPath? s.setup.url = some path) (t : TaskId) :
    s.load t = (s.record (some t) (.fetching s.setup.url),
      .waits (.reading (s.host.files.readText path)) .turn) := by
  unfold Url.localPath? at h
  split at h
  · next parts hsplit =>
    by_cases hremote : parts.isRemote
    · rw [if_pos hremote] at h
      cases h
    · rw [if_neg hremote] at h
      have hrecorded : Url.split (s.record (some t) (.fetching s.setup.url)).setup.url =
        .ok parts := hsplit
      unfold load
      dsimp only
      rw [hrecorded]
      dsimp only
      rw [if_neg hremote, ← Option.some.inj h]
      rfl
  · cases h

theorem load_addressed {url : Text} (h : Url.localPath? url = some path) (s : Session)
    (t : TaskId) : (s.addressed url).load t = ((s.addressed url).record (some t) (.fetching url),
      .waits (.reading (s.host.files.readText path)) .turn) :=
  load_local (s := s.addressed url) h t

theorem fetched_addressed {url : Text} (h : Url.localPath? url = some path) (s : Session)
    (t : TaskId) : (s.addressed url).fetched t = (s.host.files.readText path).toOption := by
  rw [fetched, load_addressed h]

end Fetched

end Session

/-! ## Files that tell them apart -/

namespace Tree

/-- A tree whose only file is at a path. -/
def sole (path : Path) (name : Text) (bytes : List UInt8) : Tree where
  nodes := [([name], .file bytes)]
  home := path

section Sole

variable {path : Path} {name : Text} {bytes : List UInt8} {t : Tree}

theorem walk_outside (t : Tree) (path : Path) (parts : List Text) :
    ∀ bytes, t.walk path .outside parts ≠ .ok (.file bytes) := by
  induction parts with
  | nil => nofun
  | cons part rest ih =>
    intro bytes
    unfold walk
    dsimp only [node?, Place.step]
    split_ifs
    · exact ih bytes
    · nofun

/-- A walk of one step. -/
theorem walk_one (t : Tree) (path : Path) (part : Text) :
    t.walk path (.inside []) [part] =
      if part = text ".." then .ok .directory
      else
        match t.nodes.lookup [part] with
        | some n => .ok n
        | none => .error (.missing path) := by
  unfold walk
  dsimp only [node?, Place.step]
  split_ifs <;> rfl

/-- Only a file can be read. -/
theorem readText_of_not_file (h : ∀ bytes, t.resolve path ≠ .ok (.file bytes)) :
    (t.readText path).toOption = none := by
  unfold readText readBytes
  cases hr : t.resolve path with
  | error e => rfl
  | ok node =>
    cases node with
    | file bytes => exact absurd hr (h bytes)
    | directory => rfl

theorem resolve_sole (hroot : path.parts ≠ []) (hname : name ≠ text "..")
    (hrender : ∀ c ∈ (path.below [name]).render, c ≠ 0 ∧ c.isSurrogate = false) :
    (sole path name bytes).resolve (path.below [name]) = .ok (.file bytes) := by
  have hnull : (path.below [name]).render.contains 0 = false := by
    simpa using fun h => (hrender 0 h).1 rfl
  have hstart : (sole path name bytes).start (path.below [name]) = (.inside [], [name]) := by
    unfold start
    rw [if_pos (by simp [sole, hroot, Path.below])]
    simp [sole, Path.below]
  unfold resolve
  rw [if_neg (by rw [hnull]; exact Bool.false_ne_true),
    Utf8.encode_of_forall fun c hc => (hrender c hc).2, hstart]
  dsimp only
  rw [walk_one, if_neg hname]
  simp [sole]

/-- At any other path there is no file. -/
theorem resolve_sole_of_ne {q : Path} (hroot : q.root ≠ [])
    (hq : q.parts.length = path.parts.length + 1) (hne : q.parts ≠ path.parts ++ [name])
    (other : List UInt8) :
    (sole path name bytes).resolve q ≠ .ok (.file other) := by
  unfold resolve
  split_ifs
  · nofun
  split
  · nofun
  unfold start
  split_ifs with hhome habsolute
  · have hprefix : path.parts <+: q.parts := by
      have := (Bool.and_eq_true_iff.1 (Bool.and_eq_true_iff.1 hhome).1).2
      exact List.isPrefixOf_iff_prefix.1 this
    obtain ⟨rest, hrest⟩ := hprefix
    obtain ⟨last, rfl⟩ : ∃ last, rest = [last] := by
      rw [← hrest, List.length_append] at hq
      exact List.length_eq_one_iff.1 (by omega)
    have hlast : last ≠ name := by
      rintro rfl
      exact hne hrest.symm
    dsimp only
    rw [← hrest, show (sole path name bytes).home.parts = path.parts from rfl, List.drop_left,
      walk_one]
    split_ifs
    · nofun
    · simp [sole, List.lookup_cons, beq_false_of_ne hlast]
  · exact absurd (List.isEmpty_iff.1 habsolute) hroot
  · exact walk_outside _ q q.parts other

end Sole

end Tree

/-! ## Paths and locators on all files -/

namespace Url

section Named

variable {p u : Text} {c : CodePoint}

/-- A normal path of a file below a directory: it does not climb, its characters can be encoded, and
it does not look like a host that is none. -/
structure IsNormal (p : Text) : Prop where
  located : ∀ e, split p ≠ .error e
  encodable : ∀ c ∈ p, c ≠ 0 ∧ c.isSurrogate = false
  descends : text ".." ∉ (Path.ofText p).parts
  deep : 2 ≤ (Path.ofText p).parts.length

theorem mem_rootOf {n : Nat} (h : c ∈ Path.rootOf n) : c = Path.slash := by
  unfold Path.rootOf at h
  split at h
  · cases h
  · simpa using h
  · simpa using h

theorem IsNormal.render (h : IsNormal p) :
    ∀ c ∈ (Path.ofText p).render, c ≠ 0 ∧ c.isSurrogate = false := by
  have hslash : Path.slash ≠ 0 ∧ Path.slash.isSurrogate = false := by decide
  intro c hc
  unfold Path.render at hc
  split_ifs at hc with hempty
  · rw [List.mem_singleton.1 (show c ∈ [(0x2e : CodePoint)] from hc)]
    decide
  obtain hc | hc := List.mem_append.1 hc
  · rw [mem_rootOf hc]
    exact hslash
  obtain hc | ⟨part, hpart, hc⟩ := Text.mem_join hc
  · rw [List.mem_singleton.1 hc]
    exact hslash
  · exact h.encodable c (Text.mem_of_mem_splitOn (List.mem_filter.1 hpart).1 hc)

theorem root_ofText_ne_nil (hp : p.head? = some Path.slash) : (Path.ofText p).root ≠ [] := by
  obtain ⟨c, q, rfl⟩ := List.exists_cons_of_ne_nil (show p ≠ [] by rintro rfl; cases hp)
  cases hp
  unfold Path.ofText
  dsimp only
  rw [List.takeWhile_cons_of_pos (by decide), List.length_cons]
  unfold Path.rootOf
  split
  · next heq => exact absurd heq (Nat.succ_ne_zero _)
  · simp
  · simp

/-- If something in a normal path has to be escaped, there are files where the path leads to a
source and its escaped text to none. -/
theorem exists_apart (hp : p.head? = some Path.slash) (hnormal : IsNormal p)
    (hc : ∃ c ∈ p, c.isPathPoint = false) :
    ∃ files : Tree, files.readText (Path.ofText p) = .ok (text "1") ∧
      (files.readText (Path.ofText (quote p))).toOption = none := by
  obtain ⟨front, name, hparts⟩ : ∃ front name, (Path.ofText p).parts = front ++ [name] := by
    refine ⟨_, _, (List.dropLast_concat_getLast ?_).symm⟩
    intro hnil
    have := hnormal.deep
    simp [hnil] at this
  obtain ⟨dir, hdir⟩ : ∃ dir : Path, dir = ⟨(Path.ofText p).root, front⟩ := ⟨_, rfl⟩
  have hpath : Path.ofText p = dir.below [name] := by
    rw [hdir, Path.below, ← hparts]
  have hfront : dir.parts ≠ [] := by
    intro hnil
    have := hnormal.deep
    rw [hpath, Path.below, hnil] at this
    exact absurd this (by simp)
  have hname : name ≠ text ".." := by
    rintro rfl
    exact hnormal.descends (by rw [hparts]; simp)
  have hrender := hnormal.render
  rw [hpath] at hrender
  refine ⟨Tree.sole dir name [0x31], ?_, ?_⟩
  · rw [hpath]
    rw [Tree.readText_of_file (Tree.resolve_sole hfront hname hrender)]
    rfl
  · refine Tree.readText_of_not_file (Tree.resolve_sole_of_ne ?_ ?_ ?_)
    · rw [ofText_quote]
      exact root_ofText_ne_nil hp
    · rw [ofText_quote, List.length_map, hpath, Path.below, List.length_append]
      rfl
    · intro heq
      obtain ⟨c, hc, hnot⟩ := hc
      have hsame : Path.ofText (quote p) = Path.ofText p := by
        rw [ofText_quote] at heq ⊢
        rw [hpath] at heq ⊢
        exact congrArg (Path.mk _) heq
      rw [(ofText_quote_eq_iff p).1 hsame c hc] at hnot
      cases hnot

/-- A file locator names the escaped text of its path, and nothing takes the escapes back. So the
path and its locator name the same file exactly if nothing has to be escaped, and then loading from
either fetches the same source, or both fail. If something in a normal path has to be escaped, there
are files from which the path fetches a source and the locator none. The text of a path without
dropped characters and path ends, put behind the scheme as it is, does name the path. -/
theorem file_locator (hp : p.head? = some Path.slash) (hu : ofPath? p = some u) :
    (∀ (s : Session) t, (s.addressed u).load t =
      ((s.addressed u).record (some t) (.fetching u),
        .waits (.reading (s.host.files.readText (Path.ofText (quote p)))) .turn)) ∧
    (localPath? u = localPath? p ↔ ∀ c ∈ p, c.isPathPoint) ∧
    ((∀ c ∈ p, c.isPathPoint) → ∀ (s : Session) t,
      (s.addressed u).fetched t = (s.addressed p).fetched t) ∧
    (IsNormal p → (∃ c ∈ p, c.isPathPoint = false) → ∀ s : Session, ∃ files : Tree, ∀ t,
      ((s.withHost { s.host with files }).addressed p).fetched t = some (text "1") ∧
      ((s.withHost { s.host with files }).addressed u).fetched t = none) ∧
    ((∀ c ∈ p, isDropped c = false ∧ isPathEnd c = false) →
      localPath? (text "file://" ++ p) = some (Path.ofText p)) := by
  have hlocal := localPath?_ofPath? hp hu
  refine ⟨Session.load_addressed hlocal, localPath?_eq_iff hp hu,
    fun hall s t => ?_, fun hnormal hc s => ?_, localPath?_file hp⟩
  · have hsame := (localPath?_eq_iff hp hu).2 hall
    rw [Session.fetched_addressed hlocal, Session.fetched_addressed (hsame.symm.trans hlocal)]
  · obtain ⟨files, hpath, hescaped⟩ := exists_apart hp hnormal hc
    have hplain : localPath? p = some (Path.ofText p) :=
      (localPath?_absolute hp).resolve_right fun ⟨⟨e, he⟩, _⟩ => hnormal.located e he
    refine ⟨files, fun t => ⟨?_, ?_⟩⟩
    · rw [Session.fetched_addressed hplain]
      show (files.readText (Path.ofText p)).toOption = _
      rw [hpath]
      rfl
    · rw [Session.fetched_addressed hlocal]
      exact hescaped

end Named

/-- A session that finds the file `/w/a b`. -/
def sampleLocated : Session where
  setup := { url := text "/w/a b" }
  host :=
    { replies := ⟨.body none .null, []⟩
      files := Tree.sole ⟨[Path.slash], [text "w"]⟩ (text "a b") [0x31] }

theorem isNormal_sampleLocated : IsNormal sampleLocated.setup.url := by
  have hsplit : split sampleLocated.setup.url = .ok ⟨[], text "/w/a b"⟩ := by decide +kernel
  refine ⟨fun e he => ?_, by decide +kernel, by decide +kernel, by decide +kernel⟩
  rw [hsplit] at he
  cases he

theorem file_locator_sampleLocated :
    localPath? (text "file:///w/a%20b") ≠ localPath? (text "/w/a b") ∧
      (∃ files : Tree, ((sampleLocated.withHost { sampleLocated.host with files }).addressed
        (text "file:///w/a%20b")).fetched 0 = none) ∧
      localPath? (text "file:///w/a b") = some (Path.ofText (text "/w/a b")) := by
  obtain ⟨-, hiff, -, hapart, hraw⟩ :=
    file_locator (p := text "/w/a b") (u := text "file:///w/a%20b") rfl (by decide +kernel)
  obtain ⟨files, hfiles⟩ := hapart isNormal_sampleLocated (by decide +kernel) sampleLocated
  exact ⟨fun h => absurd (hiff.1 h) (by decide +kernel), ⟨files, (hfiles 0).2⟩,
    hraw (by decide +kernel)⟩

/-- From the file `/w/a b` its path fetches the source, and its locator nothing. -/
theorem not_locator_fetches_same :
    ofPath? (text "/w/a b") = some (text "file:///w/a%20b") ∧
      (sampleLocated.addressed (text "/w/a b")).fetched 0 = some (text "1") ∧
      (sampleLocated.addressed (text "file:///w/a%20b")).fetched 0 = none := by
  decide +kernel

end Url

end Snippets
