import Federation.Config
import Federation.Proofs.Toml.Reading

/-!
# Settings that are not declared

A document is refused if it has a key that a configuration, or the settings of server,
audit trail or storage, do not declare.  Issuers and their trust anchors, policies and their
rules, and groups of bindings are read from records that are not closed: a key that they do
not declare is passed over, and the configuration is the one of the document without it
(`Config.closed_of_parse`).  So a misspelled name of a setting that restricts the bindings of
a group is not noticed, and the bindings are made without the restriction
(`Config.not_declared_of_parse`).
-/

namespace Federation

open Json Json.Decoder Toml

/-! ### Trust anchors -/

namespace TrustAnchor

/-- The names of the members of a trust anchor of a kind, beside the kind. -/
def fieldNames (kind : String) : List String :=
  if kind = "jwk" then Jwk.fieldNames else if kind = "jwks_uri" then ["url"] else []

/-- A table has no keys but those of trust anchors of its kind. -/
def Declared (v : Toml) : Prop := v.KeysIn (taggedNames "kind" fieldNames v)

/-- A table without the keys that trust anchors of its kind do not have. -/
def keepDeclared (v : Toml) : Toml := v.keepKeys (taggedNames "kind" fieldNames v)

theorem absorbs_alternative (kind : String) :
  Absorbs (alternative kind) (keepKeys (fieldNames kind))
  := by
  by_cases hjwk : kind = "jwk"
  · have halternative : alternative kind = Jwk.decoder.map .key := if_pos hjwk
    rw [halternative, fieldNames, if_pos hjwk]
    constructor
    intro depth v a h
    rw [Decoder.map, Jwk.decoder, record_keepKeys]
    exact h
  · by_cases huri : kind = "jwks_uri"
    · have halternative : alternative kind
          = .record ["url"] fun r => (r.required "url" .text).bind fun url => some (.keySet url) :=
        (if_neg hjwk).trans (if_pos huri)
      rw [halternative, fieldNames, if_neg hjwk, if_pos huri]
      apply absorbs_keepKeys
    · have halternative : alternative kind = fun _ _ => none :=
        (if_neg hjwk).trans (if_neg huri)
      rw [halternative]
      constructor
      intro depth v a h
      cases h

theorem absorbs_keepDeclared :
  Absorbs decoder keepDeclared
  := absorbs_keepTagged absorbs_alternative

theorem declared_keepDeclared (v : Toml) :
  Declared (keepDeclared v)
  := by
  rw [Declared, keepDeclared, taggedNames_keepTagged]
  apply keysIn_keepKeys

end TrustAnchor

/-! ### Issuers, policies and groups -/

/-- A table has no keys but those of issuers, nor do its trust anchors have others than
theirs. -/
structure Issuer.Declared (v : Toml) : Prop where
  keys : v.KeysIn fieldNames
  anchors : v.Under "trust_anchors" (Each TrustAnchor.Declared)

/-- A table without the keys that issuers or their trust anchors do not have. -/
def Issuer.keepDeclared (v : Toml) : Toml :=
  (v.mapUnder "trust_anchors" (mapEach TrustAnchor.keepDeclared)).keepKeys fieldNames

/-- A table has no keys but those of policies, nor do its rules have others than theirs. -/
structure Policy.Declared (v : Toml) : Prop where
  keys : v.KeysIn fieldNames
  rules : v.Under "rules" (Each (KeysIn CapabilityRule.fieldNames))

/-- A table without the keys that policies or their rules do not have. -/
def Policy.keepDeclared (v : Toml) : Toml :=
  (v.mapUnder "rules" (mapEach (keepKeys CapabilityRule.fieldNames))).keepKeys fieldNames

theorem Issuer.declared_keepDeclared (v : Toml) :
  Declared (keepDeclared v)
  := by
  constructor
  · apply keysIn_keepKeys
  · apply Under.keepKeys
    apply under_mapUnder
    apply each_mapEach TrustAnchor.declared_keepDeclared

theorem Policy.declared_keepDeclared (v : Toml) :
  Declared (keepDeclared v)
  := by
  constructor
  · apply keysIn_keepKeys
  · apply Under.keepKeys
    apply under_mapUnder
    apply each_mapEach (keysIn_keepKeys _)

theorem Issuer.absorbs_keepDeclared (d : Decoder ClaimType) :
  Absorbs (decoderOf d) keepDeclared
  := by
  have hanchors : Absorbs (decoderOf d)
      (mapUnder "trust_anchors" (mapEach TrustAnchor.keepDeclared)) := by
    apply absorbs_mapUnder
    intro r given' i hchanged hread
    simp only [Option.bind_eq_bind, Option.bind_eq_some_iff] at hread ⊢
    obtain ⟨id, hid, discovery, hdiscovery, url, hurl, audiences, haudiences, anchors, hanchors,
      schema, hschema, hi⟩ := hread
    refine ⟨id, ?_, discovery, ?_, url, ?_, audiences, ?_, anchors, ?_, schema, ?_, hi⟩
    · rw [hchanged.required_of_ne (by decide), hid]
    · rw [hchanged.required_of_ne (by decide), hdiscovery]
    · rw [hchanged.required_of_ne (by decide), hurl]
    · rw [hchanged.required_of_ne (by decide), haudiences]
    · exact hchanged.defaulted (fun _ => TrustAnchor.absorbs_keepDeclared.list) hanchors
    · exact hchanged.defaulted (fun h => absurd h (by decide)) hschema
  apply hanchors.comp
  apply absorbs_keepKeys

theorem Policy.absorbs_keepDeclared :
  Absorbs decoder keepDeclared
  := by
  have hrules : Absorbs decoder
      (mapUnder "rules" (mapEach (keepKeys CapabilityRule.fieldNames))) := by
    apply absorbs_mapUnder
    intro r given' p hchanged hread
    simp only [Option.bind_eq_bind, Option.bind_eq_some_iff] at hread ⊢
    obtain ⟨name, hname, rules, hrules, hp⟩ := hread
    refine ⟨name, ?_, rules, ?_, hp⟩
    · rw [hchanged.required_of_ne (by decide), hname]
    · exact hchanged.defaulted (fun _ => (absorbs_keepKeys _ _).list) hrules
  apply hrules.comp
  apply absorbs_keepKeys

/-! ### Configurations -/

namespace Config

/-- A document has no keys but those of a configuration, and none but theirs in the settings
of server, audit trail and storage. -/
structure Closed (v : Toml) : Prop where
  keys : v.KeysIn fieldNames
  server : v.Under "server" (KeysIn ServerConfig.fieldNames)
  audit : v.Under "audit" (KeysIn AuditConfig.fieldNames)
  state : v.Under "state" (KeysIn StateConfig.fieldNames)

/-- Every key of every table of a document, free maps apart, is declared by what is read from
the table. -/
structure Declared (v : Toml) : Prop extends Closed v where
  issuers : v.Under "issuers" (Each Issuer.Declared)
  policies : v.Under "policies" (Each Policy.Declared)
  bindings : v.Under "bindings" (Each (KeysIn BindingGroup.fieldNames))

/-- A document without the keys that its issuers, policies and groups do not declare. -/
def keepDeclared (v : Toml) : Toml :=
  ((v.mapUnder "issuers" (mapEach Issuer.keepDeclared)).mapUnder "policies"
    (mapEach Policy.keepDeclared)).mapUnder "bindings"
      (mapEach (keepKeys BindingGroup.fieldNames))

theorem declared_keepDeclared {v : Toml} (h : Closed v) :
  Declared (keepDeclared v)
  := by
  constructor
  · constructor
    · exact ((h.keys.mapUnder _ _).mapUnder _ _).mapUnder _ _
    · exact ((h.server.mapUnder (by decide) _).mapUnder (by decide) _).mapUnder (by decide) _
    · exact ((h.audit.mapUnder (by decide) _).mapUnder (by decide) _).mapUnder (by decide) _
    · exact ((h.state.mapUnder (by decide) _).mapUnder (by decide) _).mapUnder (by decide) _
  · have hissuers := under_mapUnder (each_mapEach Issuer.declared_keepDeclared) "issuers" v
    exact (hissuers.mapUnder (by decide) _).mapUnder (by decide) _
  · have hpolicies := under_mapUnder (each_mapEach Policy.declared_keepDeclared) "policies"
      (v.mapUnder "issuers" (mapEach Issuer.keepDeclared))
    exact hpolicies.mapUnder (by decide) _
  · apply under_mapUnder (each_mapEach (keysIn_keepKeys _))

theorem absorbs_mapUnder {name : String} {f : Toml → Toml}
    (hsettings : "server" ≠ name ∧ "audit" ≠ name ∧ "state" ≠ name)
    (hissuers : "issuers" = name →
      Absorbs (Decoder.list (Issuer.decoderOf (ClaimType.decoderOf isEmptyCollection))) f)
    (hpolicies : "policies" = name → Absorbs (Decoder.list Policy.decoder) f)
    (hbindings : "bindings" = name → Absorbs (Decoder.list BindingGroup.decoder) f) :
  Absorbs decoder (mapUnder name f)
  := by
  apply Json.Decoder.absorbs_mapUnder
  intro r given' c hchanged hread
  simp only [Option.bind_eq_bind, Option.bind_eq_some_iff] at hread ⊢
  obtain ⟨server, hserver, audit, haudit, state, hstate, issuers, his, policies, hps, bindings,
    hbs, hc⟩ := hread
  refine ⟨server, ?_, audit, ?_, state, ?_, issuers, ?_, policies, ?_, bindings, ?_, hc⟩
  · exact hchanged.defaulted (fun h => absurd h hsettings.1) hserver
  · exact hchanged.defaulted (fun h => absurd h hsettings.2.1) haudit
  · exact hchanged.defaulted (fun h => absurd h hsettings.2.2) hstate
  · exact hchanged.defaulted hissuers his
  · exact hchanged.defaulted hpolicies hps
  · exact hchanged.defaulted hbindings hbs

theorem absorbs_keepDeclared :
  Absorbs decoder keepDeclared
  := by
  have hissuers : Absorbs decoder (mapUnder "issuers" (mapEach Issuer.keepDeclared)) :=
    absorbs_mapUnder (by decide) (fun _ => (Issuer.absorbs_keepDeclared _).list)
      (fun h => absurd h (by decide)) (fun h => absurd h (by decide))
  have hpolicies : Absorbs decoder (mapUnder "policies" (mapEach Policy.keepDeclared)) :=
    absorbs_mapUnder (by decide) (fun h => absurd h (by decide))
      (fun _ => Policy.absorbs_keepDeclared.list) (fun h => absurd h (by decide))
  have hbindings : Absorbs decoder
      (mapUnder "bindings" (mapEach (keepKeys BindingGroup.fieldNames))) :=
    absorbs_mapUnder (by decide) (fun h => absurd h (by decide)) (fun h => absurd h (by decide))
      (fun _ => (absorbs_keepKeys _ _).list)
  exact (hissuers.comp hpolicies).comp hbindings

theorem closed_of_decoder {depth : Nat} {v : Toml} {c : Config}
    (h : decoder depth v.document = some c) :
  Closed v
  := by
  obtain ⟨r, hr, hread⟩ := Option.bind_eq_some_iff.mp h
  simp only [Option.bind_eq_bind, Option.bind_eq_some_iff] at hread
  obtain ⟨server, hserver, audit, haudit, state, hstate, -⟩ := hread
  constructor
  · apply keysIn_of_fields? hr
  · apply under_of_defaulted hr (by decide) hserver keysIn_of_closedRecord
  · apply under_of_defaulted hr (by decide) haudit keysIn_of_closedRecord
  · apply under_of_defaulted hr (by decide) hstate keysIn_of_closedRecord

/-- A document that is accepted is closed; undeclared keys of its issuers, policies and groups
have no effect, as the configuration is read from the document without them just as well. -/
theorem closed_of_parse {text : String} {c : Config} (h : parse text = .ok c) :
  ∃ v,
    Toml.parse? text = some v
    ∧ Closed v
    ∧ Declared (keepDeclared v)
    ∧ decoder v.depth (keepDeclared v).document = some c
  := by
  rw [parse] at h
  split at h
  · rename_i v hv
    rw [ofToml] at h
    split at h
    · cases h
    · split at h
      · rename_i c' hread
        cases h
        have hclosed := closed_of_decoder hread
        exact ⟨v, hv, hclosed, declared_keepDeclared hclosed, absorbs_keepDeclared.read hread⟩
      · cases h
  · cases h

namespace Sample

/-- A document with a group whose bound claims stand under a misspelled key. -/
def misspelled : String :=
  "[[bindings]]\nissuer = \"ci\"\nenvironments = [\"dev\"]\noperations = [\"plan\"]\n"
    ++ "subject_template = \"org/repo\"\npolicy = \"apply\"\n"
    ++ "bound_claim = \x7b ref = \"main\" \x7d\n"

theorem exists_parse_misspelled :
  ∃ v c,
    Toml.parse? misspelled = some v
    ∧ parse misspelled = .ok c
    ∧ ¬ v.Under "bindings" (Each (KeysIn BindingGroup.fieldNames))
    ∧ c.bindings.map BindingGroup.boundClaims = [{}]
  := by
  have hread : (Toml.parse? misspelled).any (fun v =>
      ¬ v.Under "bindings" (Each (KeysIn BindingGroup.fieldNames))
      ∧ (ofToml v).toOption.map (fun c => c.bindings.map BindingGroup.boundClaims)
        = some [{}]) = true := by decide +kernel
  rw [Option.any_eq_true] at hread
  obtain ⟨v, hv, hfacts⟩ := hread
  obtain ⟨hkeys, hbindings⟩ := of_decide_eq_true hfacts
  obtain ⟨c, hc, hclaims⟩ := Option.map_eq_some_iff.mp hbindings
  refine ⟨v, c, hv, ?_, hkeys, hclaims⟩
  rw [parse, hv]
  cases hof : ofToml v with
  | error e =>
    rw [hof] at hc
    cases hc
  | ok c' =>
    rw [hof] at hc
    cases hc
    exact hof

end Sample

theorem closed_of_parse_sample :
  ∃ c v,
    parse Sample.misspelled = .ok c
    ∧ Toml.parse? Sample.misspelled = some v
    ∧ Closed v
    ∧ Declared (keepDeclared v)
    ∧ decoder v.depth (keepDeclared v).document = some c
  := by
  obtain ⟨-, c, -, hc, -⟩ := Sample.exists_parse_misspelled
  exact ⟨c, (closed_of_parse hc).imp fun _ h => ⟨hc, h⟩⟩

/-- Not every key of every table of a document that is accepted is declared: a group may have
others, and is read without the bound claims that stand under one of them. -/
theorem not_declared_of_parse :
  ¬ ∀ (text : String) (v : Toml) (c : Config),
    Toml.parse? text = some v → parse text = .ok c → Declared v
  := by
  intro hall
  obtain ⟨v, c, hv, hc, hkeys, -⟩ := Sample.exists_parse_misspelled
  exact hkeys (hall Sample.misspelled v c hv hc).bindings

end Config

end Federation
