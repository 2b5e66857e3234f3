import Federation.Binding.Group
import Federation.Decision
import Federation.Policy
import Federation.Proofs.Issuer.Reading
import Federation.Proofs.Snapshot.Store

/-!
# The declared types have faithful forms

What is declared is kept and sent as text, and the text says all of it: a decoder is faithful
to a way of writing values as JSON if it reads the text of each value as this value, whether
or not the text is indented, and so writes what it has read from any text as a text that it
reads as the same and writes as it is (`Json.Decoder.Faithful`).

A decoder is faithful as soon as it reads each value from the document that the text of the
value is (`faithful_of_reread`).  Those of issuers, with their keys, trust anchors and claims,
of policies, groups, bindings and verdicts all do (`faithful_forms`).
-/

namespace Federation

open Json Json.Decoder

/-! ### Faithful decoders -/

namespace Json.Decoder

variable {α : Type}

/-- Reads a value from a text and writes the text of the value. -/
def rewrite? (toJson : α → Json) (d : Decoder α) (text : String) : Option String :=
  (d.ofText? text).map fun a => (toJson a).compact

/-- A decoder that reads what is written, and writes anew what it reads without a change. -/
structure Faithful (toJson : α → Json) (d : Decoder α) : Prop where
  read_compact : ∀ a, d.ofText? (toJson a).compact = some a
  read_pretty : ∀ a, d.ofText? (toJson a).pretty = some a
  rewrite : ∀ text a, d.ofText? text = some a →
    rewrite? toJson d text = some (toJson a).compact
      ∧ d.ofText? (toJson a).compact = some a
      ∧ rewrite? toJson d (toJson a).compact = some (toJson a).compact

theorem faithful_of_reread {toJson : α → Json} {d : Decoder α}
    (h : ∀ a, d Document.maxDepth (toJson a).reread = some a) :
  Faithful toJson d
  := by
  have hcompact (a : α) : d.ofText? (toJson a).compact = some a := by
    rw [ofText?, Document.parse?_compact, Option.bind_some, run, h]
  have hpretty (a : α) : d.ofText? (toJson a).pretty = some a := by
    rw [ofText?, Document.parse?_pretty, Option.bind_some, run, h]
  refine ⟨hcompact, hpretty, fun text a ha => ⟨?_, hcompact a, ?_⟩⟩
  · rw [rewrite?, ha, Option.map_some]
  · rw [rewrite?, hcompact a, Option.map_some]

end Json.Decoder

/-! ### Policies -/

theorem CapabilityRule.decoder_reread (depth : Nat) (r : CapabilityRule) :
  decoder (depth + 2) r.toJson.reread = some r
  := by
  obtain ⟨f, hf, hrecord⟩ := record_object fieldNames
    [("path", .string r.path), ("capabilities", .texts r.capabilities)] (by simp) (depth + 1)
  have hcapabilities : list text (depth + 1) (Json.texts r.capabilities).reread
      = some r.capabilities :=
    list_reread fun s _ => text_reread depth s
  rw [decoder, toJson, hrecord, hf.required "path" (by simp [fieldNames]) rfl,
    hf.required "capabilities" (by simp [fieldNames]) rfl, text_reread, hcapabilities]
  rfl

theorem Policy.decoder_reread (depth : Nat) (p : Policy) :
  decoder (depth + 4) p.toJson.reread = some p
  := by
  obtain ⟨f, hf, hrecord⟩ := record_object fieldNames
    [("name", .string p.name), ("rules", .array (p.rules.map CapabilityRule.toJson))] (by simp)
    (depth + 3)
  have hrules : list CapabilityRule.decoder (depth + 3)
      (Json.array (p.rules.map CapabilityRule.toJson)).reread = some p.rules :=
    list_reread fun r _ => r.decoder_reread depth
  rw [decoder, toJson, hrecord, hf.required "name" (by simp [fieldNames]) rfl,
    hf.defaulted "rules" (by simp [fieldNames]) rfl, text_reread, hrules]
  rfl

/-! ### Groups -/

namespace BindingGroup

/-- The members of the JSON form of a group. -/
def members (g : BindingGroup) : List (String × Json) :=
  [("issuer", .string g.issuer), ("environments", .texts g.environments),
    ("operations", .texts g.operations), ("subject_template", .string g.subjectTemplate),
    ("bound_audiences", .orNull (fun s => .texts s.elements) g.boundAudiences),
    ("bound_claims", .ofTexts g.boundClaims), ("claim_mappings", .ofTexts g.claimMappings),
    ("policy", .string g.policy), ("token_ttl", .natural g.tokenTtl),
    ("max_ttl", .natural g.maxTtl), ("key_prefix", .orNull .string g.keyPrefix)]

theorem decoder_reread (depth : Nat) (g : BindingGroup) :
  decoder (depth + 2) g.toJson.reread = some g
  := by
  obtain ⟨r, hr, hrecord⟩ := record_object fieldNames g.members (by simp [members]) (depth + 1)
  have htexts (l : List String) : list text (depth + 1) (Json.texts l).reread = some l :=
    list_reread fun s _ => text_reread depth s
  rw [decoder, toJson, ← members, hrecord,
    hr.required "issuer" (by simp [fieldNames]) rfl,
    hr.required "environments" (by simp [fieldNames]) rfl,
    hr.required "operations" (by simp [fieldNames]) rfl,
    hr.required "subject_template" (by simp [fieldNames]) rfl,
    hr.optional_orNull "bound_audiences" (by simp [fieldNames]) rfl (orNull_set_reread depth),
    hr.defaulted "bound_claims" (by simp [fieldNames]) rfl,
    hr.defaulted "claim_mappings" (by simp [fieldNames]) rfl,
    hr.required "policy" (by simp [fieldNames]) rfl,
    hr.defaulted "token_ttl" (by simp [fieldNames]) rfl,
    hr.defaulted "max_ttl" (by simp [fieldNames]) rfl,
    hr.optional_orNull "key_prefix" (by simp [fieldNames]) rfl (orNull_text_reread _)]
  simp only [text_reread, htexts, mapOf_text_reread, natural_reread, Option.bind_eq_bind,
    Option.bind_some]

end BindingGroup

/-- What is declared, and what is decided, is read from its text as what it is. -/
theorem faithful_forms :
  Faithful Jwk.toJson Jwk.decoder ∧ Faithful TrustAnchor.toJson TrustAnchor.decoder
    ∧ Faithful ClaimSchema.toJson ClaimSchema.decoder ∧ Faithful Issuer.toJson Issuer.decoder
    ∧ Faithful Policy.toJson Policy.decoder ∧ Faithful BindingGroup.toJson BindingGroup.decoder
    ∧ Faithful Binding.toJson Binding.decoder ∧ Faithful Verdict.toJson Verdict.decoder
  := by
  refine ⟨faithful_of_reread fun k => k.decoder_reread _,
    faithful_of_reread fun a => a.decoder_reread _,
    faithful_of_reread fun s => s.decoder_reread _,
    faithful_of_reread fun i => i.decoder_reread _,
    faithful_of_reread fun p => p.decoder_reread _,
    faithful_of_reread fun g => g.decoder_reread _,
    faithful_of_reread fun b => b.decoder_reread _,
    faithful_of_reread fun v => v.decoder_reread _⟩

end Federation
