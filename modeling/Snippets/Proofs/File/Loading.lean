import Mathlib.Tactic.SplitIfs
import Snippets.File.Mapping

/-!
# How loading a mapping ends

A file that is loaded as a mapping is missing, or reading it ends in one of six ways, which
`Reading` lists with what each of them says about the file: it is a directory, it cannot be decoded,
its text is malformed, its document is no mapping, its document is empty, or it holds the entries
(`reading_read`). `load_cases` says so of a loading.
-/

namespace Snippets

theorem exists_of_any {ε α : Type} {x : Except ε α} {p : α → Bool} (h : x.toOption.any p) :
    ∃ a, x = .ok a ∧ p a := by
  cases x with
  | ok a => exact ⟨a, rfl, h⟩
  | error e => cases h

/-! ## Reading a text -/

namespace Tree

variable {files : Tree} {path : Path} {bytes : List UInt8}

theorem holds_iff : files.holds path ↔ ∃ node, files.resolve path = .ok node := by
  unfold holds
  cases files.resolve path with
  | ok node => exact ⟨fun _ => ⟨node, rfl⟩, fun _ => rfl⟩
  | error e => exact ⟨nofun, nofun⟩

theorem readText_of_directory (h : files.resolve path = .ok .directory) :
    files.readText path = .error (.isDirectory path) := by
  unfold readText readBytes
  rw [h]
  rfl

theorem readText_of_file (h : files.resolve path = .ok (.file bytes)) :
    files.readText path = ((Utf8.decode bytes).mapError ReadError.undecodable).map unifyLines := by
  unfold readText readBytes
  rw [h]
  show ((Utf8.decode bytes).mapError ReadError.undecodable >>= fun points =>
    pure (unifyLines points)) = _
  cases (Utf8.decode bytes).mapError ReadError.undecodable <;> rfl

end Tree

/-! ## Reading a mapping -/

namespace MappingFile

variable {files : Tree} {purpose : Purpose} {path : Path}

/-- How reading a file ends that is there. -/
inductive Reading (files : Tree) (purpose : Purpose) (path : Path) :
    Except LoadError (List (Value × Value)) → Prop where
  | directory (h : files.resolve path = .ok .directory) :
      Reading files purpose path (.error (.unreadable (.isDirectory path)))
  | undecodable {bytes : List UInt8} {e : Utf8.DecodeError}
      (h : files.resolve path = .ok (.file bytes)) (hd : Utf8.decode bytes = .error e) :
      Reading files purpose path (.error (.unreadable (.undecodable e.portioned)))
  | malformed {t : Text} (h : files.readText path = .ok t) (hp : Yaml.parse t = none) :
      Reading files purpose path (.error .malformed)
  | notMapping {t : Text} {v : Value} (h : files.readText path = .ok t)
      (hp : Yaml.parse t = some v) (ht : v.truthy) (hv : ∀ entries, v ≠ .map entries) :
      Reading files purpose path (.error (.notMapping purpose path))
  | empty {t : Text} {v : Value} (h : files.readText path = .ok t) (hp : Yaml.parse t = some v)
      (ht : v.truthy = false) : Reading files purpose path (.ok [])
  | mapping {t : Text} {entries : List (Value × Value)} (h : files.readText path = .ok t)
      (hp : Yaml.parse t = some (.map entries)) : Reading files purpose path (.ok entries)

theorem reading_ofDocument {t : Text} (h : files.readText path = .ok t) :
    Reading files purpose path (ofDocument purpose path t) := by
  unfold ofDocument
  split
  · next hp => exact .malformed h hp
  · next v hp =>
    split_ifs with ht
    · exact .empty h hp (by simpa using ht)
    · split
      · exact .mapping h hp
      · next hv => exact .notMapping h hp (by simpa using ht) hv

theorem reading_read (h : files.holds path) :
    Reading files purpose path (read files purpose path) := by
  obtain ⟨node, hnode⟩ := Tree.holds_iff.1 h
  unfold read
  cases node with
  | directory =>
    rw [Tree.readText_of_directory hnode]
    exact .directory hnode
  | file bytes =>
    have hread := Tree.readText_of_file hnode
    cases hd : Utf8.decode bytes with
    | error e =>
      rw [hread, hd]
      exact .undecodable hnode hd
    | ok points =>
      rw [hd] at hread
      rw [hread]
      exact reading_ofDocument hread

/-- A file that is loaded is missing or read. -/
theorem load_cases (files : Tree) (purpose : Purpose) (path : Path) :
    (files.holds path = false ∧ load files purpose path = .error (.missing purpose path)) ∨
      (files.holds path ∧ Reading files purpose path (load files purpose path)) := by
  unfold load
  split_ifs with h
  · exact .inr ⟨h, reading_read h⟩
  · exact .inl ⟨by simpa using h, rfl⟩

end MappingFile

end Snippets
