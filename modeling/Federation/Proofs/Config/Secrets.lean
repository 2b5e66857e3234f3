import Federation.Config
import Federation.Proofs.Except
import Federation.Proofs.Toml.Resolve

/-!
# Secrets in configuration documents

A secret does not belong into a configuration, at whatever place: a document is refused if
some table within it has a key under which a secret would stand.  The search looks at a key
before it goes into the value of the key, so what it reports is the first such key in the
list of all keys of the document, depth first and by ascending key of each table
(`Toml.secret?_eq`).  Nothing else that is wrong with the document comes before it.

The search runs over what the document is read as, and so it misses what is lost in reading:
the secrets within stamps (`Config.accepted_of_stamped`).  All others are found, and in a
document without stamps these are all.  Main statement: `Config.parse_of_document`.
-/

namespace Federation

namespace Toml

/-- Some table within a value, however deep, has a key under which a secret would stand. -/
def HasSecret (v : Toml) : Prop := ∃ key ∈ secretKeys, v.HasKey key

/-- Some table within a value that is read as a table, and in no stamp, has a key under which
a secret would stand. -/
def HasReadSecret (v : Toml) : Prop := ∃ key ∈ secretKeys, v.HasReadKey key

-- Along the recursion of the search: it stops at the first key, and where it goes on after a
-- value, the keys within this value hold no secret.
mutual

/-- The key that the search reports is the first one of a secret in the list of all keys. -/
theorem secret?_eq : ∀ v : Toml, v.secret? = v.keys.find? (· ∈ secretKeys)
  | .array items => itemsSecret?_eq items
  | .table entries => entriesSecret?_eq entries
  | .string _ | .integer _ | .float | .boolean _ | .datetime _ => rfl

theorem itemsSecret?_eq : ∀ items : List Toml,
    itemsSecret? items = (itemsKeys items).find? (· ∈ secretKeys)
  | [] => rfl
  | v :: vs => by
    rw [itemsSecret?, itemsKeys, List.find?_append, secret?_eq v, itemsSecret?_eq vs]

theorem entriesSecret?_eq : ∀ entries : List (String × Toml),
    entriesSecret? entries = (entriesKeys entries).find? (· ∈ secretKeys)
  | [] => rfl
  | (key, v) :: es => by
    rw [entriesSecret?, entriesKeys, List.cons_append, List.find?_cons, List.find?_append,
      secret?_eq v, entriesSecret?_eq es, List.contains_eq_mem]
    split
    · rename_i hkey
      rw [hkey]
    · rename_i hkey
      rw [eq_false_of_ne_true hkey]

end

/-- The search is complete: it reports a key if there is one anywhere. -/
theorem exists_secret?_iff {v : Toml} :
  (∃ key, v.secret? = some key) ↔ v.HasSecret
  := by
  rw [← Option.isSome_iff_exists, secret?_eq, List.find?_isSome]
  constructor
  · rintro ⟨key, hkey, hsecret⟩
    exact ⟨key, of_decide_eq_true hsecret, mem_keys_iff.mp hkey⟩
  · rintro ⟨key, hsecret, hkey⟩
    exact ⟨key, mem_keys_iff.mpr hkey, decide_eq_true hsecret⟩

end Toml

namespace Config

variable {text : String} {d v : Toml}

/-- Whatever a document says, it is refused for a secret exactly if the search reports one. -/
theorem ofToml_eq_staticSecret_iff {key : String} :
  ofToml v = .error (.staticSecret key) ↔ v.secret? = some key
  := by
  rw [ofToml]
  split
  · rename_i found hfound
    rw [hfound, Except.error.injEq, ConfigError.staticSecret.injEq, Option.some.injEq]
  · rename_i hnone
    rw [hnone]
    constructor
    · intro hrefused
      split at hrefused
      · cases hrefused
      · cases hrefused
    · intro hsome
      cases hsome

/-- What a document with a configuration is read as. -/
theorem exists_resolve?_of_parse {c : Config} (h : Toml.written? text = some d)
    (hc : parse text = .ok c) :
  ∃ v, d.resolve? = some v
  := by
  apply Option.isSome_iff_exists.mp
  apply Option.isSome_iff_ne_none.mpr
  intro hnone
  rw [parse, Toml.parse?, h, Option.bind_some, hnone] at hc
  cases hc

theorem parse_eq_ofToml (h : Toml.written? text = some d) (hv : d.resolve? = some v) :
  parse text = ofToml v
  := by
  rw [parse, Toml.parse?, h, Option.bind_some, hv]

/-- A document that is read is refused for a secret if and only if one of its keys that are
read is that of a secret. -/
theorem refused_iff_hasReadSecret (h : Toml.written? text = some d) (hv : d.resolve? = some v) :
  (∃ key, parse text = .error (.staticSecret key)) ↔ d.HasReadSecret
  := by
  have hdistinct := Toml.distinct_of_written? h
  calc (∃ key, parse text = .error (.staticSecret key))
      ↔ ∃ key, v.secret? = some key := by
        simp only [parse_eq_ofToml h hv, ofToml_eq_staticSecret_iff]
    _ ↔ v.HasSecret := Toml.exists_secret?_iff
    _ ↔ d.HasReadSecret := by
        simp only [Toml.HasSecret, Toml.HasReadSecret, Toml.hasKey_iff_of_resolve? hdistinct hv]

/-- A document that is read is refused for a secret if and only if some table within it,
however deep, has a key of a secret and does not stand in a stamp; the first one is reported,
depth first and by ascending key.  So no configuration comes from a document with a secret
outside of its stamps, and none is refused without a secret.  A document without stamps is
always read, and all its secrets count. -/
theorem parse_of_document (h : Toml.written? text = some d) :
  (∀ v, d.resolve? = some v →
    v.Ordered
    ∧ (∀ key, key ∈ v.keys ↔ d.HasReadKey key)
    ∧ (∀ key, parse text = .error (.staticSecret key)
        ↔ v.keys.find? (· ∈ secretKeys) = some key)
    ∧ ((∃ key, parse text = .error (.staticSecret key)) ↔ d.HasReadSecret))
  ∧ (∀ c, parse text = .ok c → ¬ d.HasReadSecret)
  ∧ (d.HasReadSecret → d.HasSecret)
  ∧ (d.Plain → (∃ v, d.resolve? = some v) ∧ (d.HasReadSecret ↔ d.HasSecret))
  := by
  refine ⟨?_, ?_, ?_, ?_⟩
  · intro v hv
    refine ⟨Toml.ordered_of_resolve? hv, ?_, ?_, refused_iff_hasReadSecret h hv⟩
    · intro key
      rw [Toml.mem_keys_iff, Toml.hasKey_iff_of_resolve? (Toml.distinct_of_written? h) hv]
    · intro key
      rw [← Toml.secret?_eq, parse_eq_ofToml h hv]
      apply ofToml_eq_staticSecret_iff
  · intro c hc hsecret
    obtain ⟨v, hv⟩ := exists_resolve?_of_parse h hc
    obtain ⟨key, hkey⟩ := (refused_iff_hasReadSecret h hv).mpr hsecret
    rw [hc] at hkey
    cases hkey
  · rintro ⟨key, hsecret, hkey⟩
    exact ⟨key, hsecret, hkey.hasKey⟩
  · intro hplain
    use Toml.exists_resolve?_of_plain hplain
    simp only [Toml.HasReadSecret, Toml.HasSecret, Toml.hasReadKey_iff_of_plain hplain]

namespace Sample

/-- A document with an issuer that is no text and two secrets, of which the first one in
order stands last, in a table in braces in a list in a list. -/
def secrets : String :=
  "[[bindings]]\nissuer = 1\nroot_token = \"hvs.x\"\n[bindings.extra]\n"
    ++ "notes = [[\x7b bootstrap_token = \"s.abc\" \x7d]]\n"

end Sample

theorem parse_of_document_sample :
  ∃ d v, Toml.written? Sample.secrets = some d ∧ d.resolve? = some v
    ∧ v.Ordered ∧ d.HasSecret ∧ d.HasReadKey "root_token"
    ∧ v.keys = ["bindings", "extra", "notes", "bootstrap_token", "issuer", "root_token"]
    ∧ v.keys.find? (· ∈ secretKeys) = some "bootstrap_token"
    ∧ parse Sample.secrets = .error (.staticSecret "bootstrap_token")
  := by
  have hkeys : (Toml.parse? Sample.secrets).map Toml.keys
      = some ["bindings", "extra", "notes", "bootstrap_token", "issuer", "root_token"] := by
    decide +kernel
  have hrefused : parse Sample.secrets = .error (.staticSecret "bootstrap_token") := by
    decide +kernel
  obtain ⟨v, hv, hvkeys⟩ := Option.map_eq_some_iff.mp hkeys
  obtain ⟨d, hd, hresolved⟩ := Option.bind_eq_some_iff.mp hv
  obtain ⟨hread, -, hsecret, -⟩ := parse_of_document hd
  obtain ⟨hordered, hmem, hfirst, hrefuses⟩ := hread v hresolved
  have hroot : d.HasReadKey "root_token" := by
    rw [← hmem, hvkeys]
    decide
  exact ⟨d, v, hd, hresolved, hordered, hsecret (hrefuses.mp ⟨_, hrefused⟩), hroot, hvkeys,
    (hfirst _).mp hrefused, hrefused⟩

namespace Sample

/-- A document with a group that has a stamp with a secret in it. -/
def stamped : String :=
  "[[bindings]]\nissuer = \"ci\"\nenvironments = [\"dev\"]\noperations = [\"plan\"]\n"
    ++ "subject_template = \"org/repo\"\npolicy = \"apply\"\n"
    ++ "[bindings.note]\n\"$__toml_private_datetime\" = \"1979-05-27\"\n"
    ++ "bootstrap_token = \"s.abc\"\n"

end Sample

/-- A document is accepted although a table of it has the key of a secret: what the table is
read as is a date. -/
theorem accepted_of_stamped :
  ∃ d c, Toml.written? Sample.stamped = some d ∧ d.HasKey "bootstrap_token" ∧ d.HasSecret
    ∧ parse Sample.stamped = .ok c
  := by
  have hread : (Toml.written? Sample.stamped).any (fun d =>
      "bootstrap_token" ∈ d.keys ∧ d.resolve?.any (fun v => (ofToml v).isOk)) = true := by
    decide +kernel
  rw [Option.any_eq_true] at hread
  obtain ⟨d, hd, hfacts⟩ := hread
  obtain ⟨hmem, hresolved⟩ := of_decide_eq_true hfacts
  obtain ⟨v, hv, hok⟩ := (Option.any_eq_true _ _).mp hresolved
  have hkey : d.HasKey "bootstrap_token" := Toml.mem_keys_iff.mp hmem
  have haccepted := (parse_eq_ofToml hd hv).trans (eq_ok_getD_of_isOk hok {})
  exact ⟨d, _, hd, hkey, ⟨_, by decide, hkey⟩, haccepted⟩

end Config

end Federation
