import Snippets.External.Script
import Snippets.Proofs.Number.Numerals
import Snippets.Proofs.Text.Utf8

/-!
# What a compilation leaves behind

A blank source leaves the scratch files as they are. Any other source that can be encoded is written
to one new file, which closing the runner removes again (`compile_leaves`). A source with a
surrogate is refused after the file was made: the empty file stays, and there is no runner to close.
-/

namespace Snippets

theorem Text.trimBy_eq_nil_iff {p : CodePoint → Bool} {t : Text} :
    t.trimBy p = [] ↔ ∀ c ∈ t, p c := by
  unfold trimBy
  rw [List.reverse_eq_nil_iff, List.dropWhile_eq_nil_iff]
  constructor
  · intro h c hc
    rw [← List.takeWhile_append_dropWhile (p := p) (l := t), List.mem_append] at hc
    rcases hc with hc | hc
    · exact List.mem_takeWhile_imp hc
    · exact h c (List.mem_reverse.2 hc)
  · intro h c hc
    exact h c ((List.dropWhile_suffix p).subset (List.mem_reverse.1 hc))

namespace Scratch

/-- In a known folder no two files have one path. -/
theorem path_inj {folder : Text} {m n : Nat} :
    path (some folder) m = path (some folder) n ↔ m = n := by
  rw [path, path, List.append_left_inj, List.append_right_inj, Text.ofNat_injective.eq_iff]

/-- The numbers of the files have been given out. -/
def Numbered (s : Scratch) : Prop := ∀ f ∈ s.files, f.1 < s.next

instance (s : Scratch) : Decidable s.Numbered :=
  inferInstanceAs (Decidable (∀ f ∈ s.files, f.1 < s.next))

variable {s : Scratch}

theorem Numbered.not_mem (h : s.Numbered) : s.next ∉ s.files.map Prod.fst := by
  intro hmem
  obtain ⟨f, hf, he⟩ := List.mem_map.1 hmem
  have := h f hf
  omega

theorem Numbered.ne_next (h : s.Numbered) {f : Nat × List UInt8} (hf : f ∈ s.files) :
    f.1 ≠ s.next :=
  Nat.ne_of_lt (h f hf)

theorem Numbered.create (h : s.Numbered) : s.create.1.Numbered := by
  intro f hf
  show f.1 < s.next + 1
  rcases List.mem_append.1 hf with hf | hf
  · exact Nat.lt_succ_of_lt (h f hf)
  · rw [List.mem_singleton.1 hf]
    exact Nat.lt_succ_self s.next

theorem Numbered.write (h : s.Numbered) (file : Nat) (bytes : List UInt8) :
    (s.write file bytes).Numbered := by
  intro f hf
  obtain ⟨g, hg, rfl⟩ := List.mem_map.1 hf
  show (if g.1 = file then (g.1, bytes) else g).1 < s.next
  split_ifs <;> exact h g hg

/-- A file is made and written. -/
theorem Numbered.files_write_create (h : s.Numbered) (bytes : List UInt8) :
    (s.create.1.write s.create.2 bytes).files = s.files ++ [(s.next, bytes)] := by
  show (s.files ++ [(s.next, [])]).map
    (fun f : Nat × List UInt8 => if f.1 = s.next then (f.1, bytes) else f) = _
  have hold : s.files.map (fun f => if f.1 = s.next then (f.1, bytes) else f) = s.files := by
    refine (List.map_congr_left fun f hf => ?_).trans (List.map_id s.files)
    rw [if_neg (h.ne_next hf)]
    rfl
  rw [List.map_append, hold]
  simp

/-- The newest file is removed. -/
theorem Numbered.files_remove (h : s.Numbered) {s' : Scratch} {bytes : List UInt8}
    (hs : s'.files = s.files ++ [(s.next, bytes)]) : (s'.remove s.next).files = s.files := by
  show s'.files.filter _ = s.files
  rw [hs, List.filter_append]
  have hold : s.files.filter (fun f => f.1 != s.next) = s.files :=
    List.filter_eq_self.2 fun f hf => by simpa using h.ne_next hf
  have hnew : [(s.next, bytes)].filter (fun f => f.1 != s.next) = [] := by simp
  rw [hold, hnew, List.append_nil]

end Scratch

namespace ScriptSettings

variable {source : Text} {scratch : Scratch}

theorem compile_of_blank (settings : ScriptSettings) (h : ∀ c ∈ source, c.isBlank) :
    settings.compile source scratch = (scratch, .error .blank) := by
  have htrim : Text.trim source = [] := Text.trimBy_eq_nil_iff.2 h
  unfold compile
  rw [htrim]
  rfl

theorem compile_of_not_blank (settings : ScriptSettings) (h : ∃ c ∈ source, c.isBlank = false) :
    settings.compile source scratch =
      match Utf8.encode source with
      | .ok bytes =>
        (scratch.create.1.write scratch.create.2 bytes, .ok ⟨scratch.create.2, settings⟩)
      | .error e => (scratch.create.1, .error (.unencodable e)) := by
  have htrim : (Text.trim source).isEmpty = false := by
    rw [List.isEmpty_eq_false_iff]
    intro hnil
    obtain ⟨c, hc, hb⟩ := h
    have := Text.trimBy_eq_nil_iff.1 hnil c hc
    rw [hb] at this
    cases this
  unfold compile
  rw [htrim]
  rfl

/-- What becomes of the scratch files when a source is compiled. Of a blank source nothing remains.
Of any other source without surrogates there is one new file, which holds the bytes of the source,
and closing the runner removes it. A surrogate in the source is found only after the file was made,
which then stays, empty. -/
theorem compile_leaves (settings : ScriptSettings) (source : Text) {scratch : Scratch}
    (h : scratch.Numbered) :
    ((∀ c ∈ source, c.isBlank) → settings.compile source scratch = (scratch, .error .blank)) ∧
    (∀ s, source.toString? = some s → (∃ c ∈ source, c.isBlank = false) →
      ∃ (after : Scratch) (r : ScriptRunner) (bytes : List UInt8),
        settings.compile source scratch = (after, .ok r) ∧ r.settings = settings ∧
        r.script ∉ scratch.files.map Prod.fst ∧ bytes.toByteArray = s.toByteArray ∧
        after.files = scratch.files ++ [(r.script, bytes)] ∧
        (r.close after).files = scratch.files ∧ after.Numbered) ∧
    (source.toString? = none → (∃ c ∈ source, c.isBlank = false) →
      ∃ (after : Scratch) (e : Utf8.EncodeError),
        settings.compile source scratch = (after, .error (.unencodable e)) ∧
        scratch.next ∉ scratch.files.map Prod.fst ∧
        after.files = scratch.files ++ [(scratch.next, [])] ∧ after.Numbered) := by
  refine ⟨compile_of_blank settings, ?_, ?_⟩
  · intro s hs hb
    obtain ⟨bytes, hbytes, heq⟩ := Utf8.encode_toString? hs
    have hfiles := h.files_write_create bytes
    refine ⟨_, ⟨scratch.next, settings⟩, bytes, ?_, rfl, h.not_mem, heq, hfiles,
      h.files_remove hfiles, h.create.write _ _⟩
    rw [compile_of_not_blank settings hb, hbytes]
    rfl
  · intro hs hb
    obtain ⟨e, he⟩ := Utf8.encode_of_toString?_eq_none hs
    refine ⟨scratch.create.1, e, ?_, h.not_mem, rfl, h.create⟩
    rw [compile_of_not_blank settings hb, he]

/-- A source of two code points is written beside a file that is there already. -/
theorem compile_leaves_beside :
    (⟨[(0, [0x78])], 1⟩ : Scratch).Numbered ∧
      ∃ (after : Scratch) (r : ScriptRunner) (bytes : List UInt8),
        ({} : ScriptSettings).compile (text "é\n") ⟨[(0, [0x78])], 1⟩ = (after, .ok r) ∧
        bytes.toByteArray = "é\n".toByteArray ∧
        after.files = [(0, [0x78]), (r.script, bytes)] ∧
        (r.close after).files = [(0, [0x78])] := by
  have hn : (⟨[(0, [0x78])], 1⟩ : Scratch).Numbered := by decide
  obtain ⟨after, r, bytes, hc, -, -, hb, hf, hclose, -⟩ :=
    (compile_leaves {} (text "é\n") hn).2.1 "é\n" (by decide +kernel) (by decide +kernel)
  exact ⟨hn, after, r, bytes, hc, hb, hf, hclose⟩

/-- A compilation that fails need not leave the files as they were. -/
theorem not_compile_leaves_nothing :
    ¬ ∀ (settings : ScriptSettings) (source : Text) (scratch after : Scratch) (e : CompileError),
      scratch.Numbered → settings.compile source scratch = (after, .error e) →
        after.files = scratch.files := by
  intro h
  have hfiles := h {} [0x61, 0xd800] {} _ _ (by decide) (by rfl)
  exact absurd hfiles (by decide)

end ScriptSettings

end Snippets
