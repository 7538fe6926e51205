import Mathlib.Tactic.SplitIfs
import Snippets.Config.Basic
import Snippets.Proofs.File.Loading
import Snippets.Proofs.Number.Numerals

/-!
# The runner's address in the environment

An address in the environment is put into the mapping of the configuration file before that is
validated. Validation then comes to the same as for the mapping without any address, with this one
put into the configuration (`ofEntries_insertEntry`); in particular nothing is wrong with it
(`elsewhere_ofEntries`). So it hides whatever address the file may hold
(`environment_hides_url`).
-/

namespace Snippets

/-! ## Mappings but for one key -/

namespace Value

/-- Whether a key is this text. -/
def isKey (key : Text) : Value → Bool
  | text k => k = key
  | _ => false

/-- The entries but for those under a text key. -/
def without (key : Text) (entries : List (Value × Value)) : List (Value × Value) :=
  entries.filter fun e => !e.1.isKey key

section Without

variable {key name : Text} {k v : Value} {entries : List (Value × Value)}

theorem isKey_iff : k.isKey key ↔ k = .text key := by
  cases k <;> simp [isKey]

theorem isKey_text (h : key ≠ name) : (text key).isKey name = false := by
  simp [isKey, h]

theorem same_text (k : Value) (key : Text) : k.same (.text key) = k.isKey key := by
  cases k with
  | text k =>
    rw [same, isKey]
    exact Bool.beq_eq_decide_eq k key
  | null | bool | int | real | list | tuple | map =>
    unfold same
    rfl

theorem lookup_cons (key : Text) (k v : Value) (entries : List (Value × Value)) :
    lookup key ((k, v) :: entries) = if k.isKey key then some v else lookup key entries := by
  cases k with
  | text k => simp [lookup, isKey]
  | null | bool | int | real | list | tuple | map => rfl

theorem lookup_insertEntry_self (key : Text) (v : Value) (entries : List (Value × Value)) :
    lookup key (insertEntry (.text key) v entries) = some v := by
  induction entries with
  | nil => rw [insertEntry, lookup_cons, if_pos (isKey_iff.2 rfl)]
  | cons e entries ih =>
    obtain ⟨k, w⟩ := e
    rw [insertEntry, same_text]
    split_ifs with h
    · rw [lookup_cons, if_pos h]
    · rw [lookup_cons, if_neg h, ih]

theorem without_insertEntry (key : Text) (v : Value) (entries : List (Value × Value)) :
    without key (insertEntry (.text key) v entries) = without key entries := by
  unfold without
  induction entries with
  | nil => simp [insertEntry, isKey]
  | cons e entries ih =>
    obtain ⟨k, w⟩ := e
    rw [insertEntry, same_text]
    split_ifs with h
    · simp [h]
    · simp [h, ih]

theorem lookup_without_self (key : Text) (entries : List (Value × Value)) :
    lookup key (without key entries) = none := by
  unfold without
  induction entries with
  | nil => rfl
  | cons e entries ih =>
    obtain ⟨k, v⟩ := e
    by_cases h : k.isKey key
    · simpa [h] using ih
    · rw [List.filter_cons_of_pos (by simpa using h), lookup_cons, if_neg h, ih]

/-- Under other keys there is what there was. -/
theorem lookup_without (h : name ≠ key) (entries : List (Value × Value)) :
    lookup name (without key entries) = lookup name entries := by
  unfold without
  induction entries with
  | nil => rfl
  | cons e entries ih =>
    obtain ⟨k, v⟩ := e
    by_cases hk : k.isKey key
    · have hname : k.isKey name = false := by
        rw [isKey_iff.1 hk]
        exact isKey_text h.symm
      rw [List.filter_cons_of_neg (by simpa using hk), ih, lookup_cons, hname]
      rfl
    · rw [List.filter_cons_of_pos (by simpa using hk), lookup_cons, lookup_cons, ih]

end Without

end Value

namespace Config

/-- The field of the runner's address. -/
def urlKey : Text := text "runner_url"

/-! ## Places of issues -/

/-- Nothing that is wrong with a part is located at the runner's address. -/
def Elsewhere {α : Type} (x : Checked α) : Prop :=
  ∀ i ∈ issues x, i.loc.head? ≠ some (.key urlKey)

section Elsewhere

variable {α β : Type} {x : Checked α} {is : List Issue} {es : List (Value × Value)}

theorem elsewhere_ok (a : α) : Elsewhere (.ok a : Checked α) := nofun

theorem Elsewhere.bind {f : α → Checked β} (hx : Elsewhere x) (hf : ∀ a, Elsewhere (f a)) :
    Elsewhere (x >>= f) := by
  cases x with
  | ok a => exact hf a
  | error is => exact hx

theorem elsewhere_settled (his : ∀ i ∈ is, i.loc.head? ≠ some (.key urlKey)) (hx : Elsewhere x) :
    Elsewhere (settled is x) := by
  unfold settled
  split_ifs
  · exact hx
  · exact his

/-- What is wrong with another field is located there. -/
theorem elsewhere_field {name : String} (hname : text name ≠ urlKey) (default : α)
    (check : Value → Checked α) : Elsewhere (field es name default check) := by
  unfold field
  split
  · exact elsewhere_ok default
  · next v _ =>
    cases check v with
    | ok a => exact elsewhere_ok a
    | error is =>
      intro i hi
      obtain ⟨j, -, rfl⟩ := List.mem_map.1 hi
      simpa [Issue.under] using hname

/-- What is neither a text nor an integer is displayed with another code point in front, or, if it is
a real number, without a bar. -/
theorem display_ne_urlKey {k : Value} (ht : ∀ t, k ≠ .text t) (hi : ∀ i, k ≠ .int i) :
    k.display ≠ urlKey := by
  have hhead : ∀ {t : Text} {c : CodePoint}, t.head? = some c → c ≠ 0x72 → t ≠ urlKey := by
    rintro t c hc hne rfl
    exact hne (Option.some.inj hc).symm
  cases k with
  | null => decide +kernel
  | bool b => cases b <;> decide +kernel
  | int i => exact absurd rfl (hi i)
  | real x =>
    intro h
    have hall := x.isNumeral_render
    rw [show x.render = urlKey from h] at hall
    exact absurd hall (by decide +kernel)
  | text t => exact absurd rfl (ht t)
  | list xs => exact hhead (c := 0x5b) rfl (by decide)
  | tuple xs => exact hhead (c := 0x28) rfl (by decide)
  | map es => exact hhead (c := 0x7b) rfl (by decide)

theorem elsewhere_unknownKeys :
    ∀ i ∈ unknownKeys keys es, i.loc.head? ≠ some (.key urlKey) := by
  intro i hi
  obtain ⟨⟨k, v⟩, -, hissue⟩ := List.mem_filterMap.1 hi
  dsimp only at hissue
  split at hissue
  · next t =>
    split_ifs at hissue with hknown
    cases hissue
    rintro ⟨⟩
    exact hknown (by decide +kernel)
  · cases hissue
    nofun
  · next hint htext =>
    cases hissue
    intro h
    exact display_ne_urlKey hint htext (by simpa using h)

/-- Without a runner's address, nothing is wrong with it. -/
theorem elsewhere_ofEntries (h : Value.lookup urlKey es = none) : Elsewhere (ofEntries es) := by
  unfold ofEntries
  extract_lets url interpreter timeout world pool timeouts
  have hurl : Elsewhere url := by
    have hnone : url = .ok none := by
      simp only [url, field]
      rw [show text "runner_url" = urlKey from rfl, h]
    rw [hnone]
    exact elsewhere_ok none
  have hinterpreter : Elsewhere interpreter := elsewhere_field (by decide +kernel) _ _
  have htimeout : Elsewhere timeout := elsewhere_field (by decide +kernel) _ _
  have hworld : Elsewhere world := elsewhere_field (by decide +kernel) _ _
  have hpool : Elsewhere pool := elsewhere_field (by decide +kernel) _ _
  have htimeouts : Elsewhere timeouts := elsewhere_field (by decide +kernel) _ _
  refine elsewhere_settled ?_ ?_
  · simp only [List.forall_mem_append]
    exact ⟨⟨⟨⟨⟨⟨hurl, hinterpreter⟩, htimeout⟩, hworld⟩, hpool⟩, htimeouts⟩, elsewhere_unknownKeys⟩
  · exact hurl.bind fun _ => hinterpreter.bind fun _ => htimeout.bind fun _ => hworld.bind fun _ =>
      hpool.bind fun _ => htimeouts.bind fun _ => elsewhere_ok _

end Elsewhere

/-! ## Validation but for the runner's address -/

section Without

variable {es : List (Value × Value)}

theorem field_without {α : Type} {name : String} (hname : text name ≠ urlKey) (default : α)
    (check : Value → Checked α) :
    field (Value.without urlKey es) name default check = field es name default check := by
  unfold field
  rw [Value.lookup_without hname]

theorem unknownKeys_without (es : List (Value × Value)) :
    unknownKeys keys (Value.without urlKey es) = unknownKeys keys es := by
  have hknown : (keys.map text).contains urlKey := by decide +kernel
  induction es with
  | nil => rfl
  | cons e es ih =>
    obtain ⟨k, v⟩ := e
    unfold unknownKeys Value.without at ih ⊢
    by_cases hk : k.isKey urlKey
    · rw [List.filter_cons_of_neg (by simpa using hk), ih, List.filterMap_cons_none]
      obtain rfl := Value.isKey_iff.1 hk
      exact if_pos hknown
    · rw [List.filter_cons_of_pos (by simpa using hk), List.filterMap_cons, List.filterMap_cons, ih]

theorem settled_map {α β : Type} (f : α → β) (is : List Issue) (x : Checked α) :
    settled is (f <$> x) = f <$> settled is x := by
  unfold settled
  split_ifs <;> rfl

/-- A runner's address that is set is taken as it is, whatever was there before, and does not
matter to anything else. -/
theorem ofEntries_insertEntry (url : Text) (es : List (Value × Value)) :
    ofEntries (Value.insertEntry (.text urlKey) (.text url) es) =
      (fun c => { c with runnerUrl := some url }) <$> ofEntries (Value.without urlKey es) := by
  have hset : field (Value.insertEntry (.text urlKey) (.text url) es) "runner_url" none checkUrl =
      .ok (some url) := by
    unfold field
    rw [show text "runner_url" = urlKey from rfl, Value.lookup_insertEntry_self]
    rfl
  have hunset : field (Value.without urlKey es) "runner_url" none checkUrl = .ok none := by
    unfold field
    rw [show text "runner_url" = urlKey from rfl, Value.lookup_without_self]
  have hfield : ∀ {α : Type} (name : String) (default : α) (check : Value → Checked α),
      text name ≠ urlKey → field (Value.insertEntry (.text urlKey) (.text url) es) name default
        check = field (Value.without urlKey es) name default check := by
    intro α name default check hname
    rw [← field_without hname, Value.without_insertEntry]
  have hunknown : unknownKeys keys (Value.insertEntry (.text urlKey) (.text url) es) =
      unknownKeys keys (Value.without urlKey es) := by
    rw [← unknownKeys_without, Value.without_insertEntry]
  unfold ofEntries
  dsimp only
  rw [hset, hunset, hunknown, hfield "interpreter" _ _ (by decide +kernel),
    hfield "runner_timeout_seconds" _ _ (by decide +kernel),
    hfield "world" _ _ (by decide +kernel), hfield "connection_pool" _ _ (by decide +kernel),
    hfield "http_timeout" _ _ (by decide +kernel), ← settled_map]
  simp only [map_bind, map_pure]
  rfl

end Without

/-! ## Loading -/

section Load

variable {files : Tree} {path : Option Path} {es : List (Value × Value)}

theorem load_of_entries (h : entriesIn files path = .ok es) (url : Option Text) :
    load files path url = (ofEntries (withUrl url es)).mapError .invalid := by
  unfold load
  rw [h]
  rfl

/-- With an address in the environment, the configuration is that of the file without an address,
with this one put in. -/
theorem load_withUrl (h : entriesIn files path = .ok es) {url : Text} (hurl : url ≠ []) :
    load files path (some url) =
      ((fun c => { c with runnerUrl := some url }) <$> ofEntries (Value.without urlKey es)).mapError
        .invalid := by
  rw [load_of_entries h, ← ofEntries_insertEntry]
  unfold withUrl
  split
  · next hnone => cases hnone
  · next hempty => exact absurd (Option.some.inj hempty) hurl
  · next hsome =>
    cases hsome
    rfl

end Load

/-- An address in the environment hides the one in the file: files whose mappings are the same but
for the runner's address load alike. What is loaded is the configuration of the rest with the
address of the environment, or else the issues of the rest, none of which is located at the runner's
address. Without an address in the environment, or with an empty one, the mapping is validated as it
is. -/
theorem environment_hides_url {files files' : Tree} {path path' : Option Path}
    {es es' : List (Value × Value)} (h : entriesIn files path = .ok es)
    (h' : entriesIn files' path' = .ok es')
    (hrest : Value.without urlKey es = Value.without urlKey es') :
    (∀ url, url ≠ [] →
      load files path (some url) = load files' path' (some url) ∧
        match ofValue (.map (Value.without urlKey es)) with
        | .ok rest => load files path (some url) = .ok { rest with runnerUrl := some url }
        | .error is => load files path (some url) = .error (.invalid is) ∧
            ∀ i ∈ is, i.loc.head? ≠ some (.key urlKey)) ∧
      ∀ unset ∈ [none, some []],
        load files path unset = (ofValue (.map es)).mapError .invalid := by
  constructor
  · intro url hurl
    have hload := load_withUrl h hurl
    refine ⟨by rw [hload, load_withUrl h' hurl, hrest], ?_⟩
    have helsewhere := elsewhere_ofEntries (Value.lookup_without_self urlKey es)
    rw [hload]
    dsimp only [ofValue]
    generalize ofEntries (Value.without urlKey es) = rest at helsewhere ⊢
    cases rest with
    | ok rest => rfl
    | error is => exact ⟨rfl, helsewhere⟩
  · intro unset hunset
    rw [load_of_entries h]
    simp only [List.mem_cons, List.not_mem_nil, or_false] at hunset
    obtain rfl | rfl := hunset <;> rfl

/-- A configuration file with a document. -/
def sampleConfig (document : String) : Tree where
  nodes := [([text "c.yaml"], .file ((text document).flatMap Utf8.encodePoint))]

def samplePlace : Option Path := some ⟨[], [text "c.yaml"]⟩

/-- A number in place of the address, which is not valid, and no address at all. -/
theorem environment_hides_url_sampleConfig : ∃ c : Config,
    (load (sampleConfig "runner_url: 7") samplePlace none).isOk = false ∧
      load (sampleConfig "runner_url: 7") samplePlace (some (text "u")) = .ok c ∧
      load (sampleConfig "") samplePlace (some (text "u")) = .ok c ∧
      c.runnerUrl = some (text "u") := by
  have hentries : ∀ document ∈ ["runner_url: 7", ""], ∃ es,
      entriesIn (sampleConfig document) samplePlace = .ok es ∧ Value.without urlKey es = [] := by
    intro document hd
    have hany : (entriesIn (sampleConfig document) samplePlace).toOption.any
        fun es => (Value.without urlKey es).isEmpty := by
      revert document
      decide +kernel
    obtain ⟨es, hes, hempty⟩ := exists_of_any hany
    exact ⟨es, hes, List.isEmpty_iff.1 hempty⟩
  obtain ⟨es, hes, hrest⟩ := hentries "runner_url: 7" (by simp)
  obtain ⟨es', hes', hrest'⟩ := hentries "" (by simp)
  obtain ⟨hhides, -⟩ := environment_hides_url hes hes' (hrest.trans hrest'.symm)
  obtain ⟨hsame, hvalid⟩ := hhides (text "u") (by decide +kernel)
  rw [hrest] at hvalid
  exact ⟨_, by decide +kernel, hvalid, hsame ▸ hvalid, rfl⟩

end Config

end Snippets
