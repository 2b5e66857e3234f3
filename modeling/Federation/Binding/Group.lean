import Federation.Json.Decoder

/-!
# Groups of bindings

A `BindingGroup` declares a binding for each of its environments and each of its
operations: the subject and the bound claims are templates of their names.
-/

namespace Federation

/-- A declaration of bindings over environments and operations. -/
structure BindingGroup where
  /-- The identifier or the URL of the issuer. -/
  issuer : String
  /-- The environments. -/
  environments : List String := []
  /-- The operations. -/
  operations : List String := []
  subjectTemplate : String
  /-- The audiences, unless they are all that the issuer accepts. -/
  boundAudiences : Option StringSet := none
  /-- The templates of the bound claims. -/
  boundClaims : StringMap String := {}
  /-- The attributes that claims are recorded as. -/
  claimMappings : StringMap String := {}
  policy : String
  /-- The seconds that a credential is granted for. -/
  tokenTtl : UInt64 := 900
  /-- The most seconds that a credential may be granted for. -/
  maxTtl : UInt64 := 3600
  /-- What the keys of the bindings begin with. -/
  keyPrefix : Option String := none
deriving DecidableEq

namespace BindingGroup

/-- The JSON form of a group. -/
def toJson (g : BindingGroup) : Json :=
  .object [
    ("issuer", .string g.issuer),
    ("environments", .texts g.environments),
    ("operations", .texts g.operations),
    ("subject_template", .string g.subjectTemplate),
    ("bound_audiences", .orNull (fun s => .texts s.elements) g.boundAudiences),
    ("bound_claims", .ofTexts g.boundClaims),
    ("claim_mappings", .ofTexts g.claimMappings),
    ("policy", .string g.policy),
    ("token_ttl", .natural g.tokenTtl),
    ("max_ttl", .natural g.maxTtl),
    ("key_prefix", .orNull .string g.keyPrefix)]

/-- The names of the members of a group, in order. -/
def fieldNames : List String :=
  ["issuer", "environments", "operations", "subject_template", "bound_audiences", "bound_claims",
    "claim_mappings", "policy", "token_ttl", "max_ttl", "key_prefix"]

/-- Reads a group from its JSON form. -/
def decoder : Json.Decoder BindingGroup := .record fieldNames fun r => do
  let issuer ← r.required "issuer" .text
  let environments ← r.required "environments" (.list .text)
  let operations ← r.required "operations" (.list .text)
  let subjectTemplate ← r.required "subject_template" .text
  let boundAudiences ← r.optional "bound_audiences" .set
  let boundClaims ← r.defaulted "bound_claims" (.mapOf .text) {}
  let claimMappings ← r.defaulted "claim_mappings" (.mapOf .text) {}
  let policy ← r.required "policy" .text
  let tokenTtl ← r.defaulted "token_ttl" .natural 900
  let maxTtl ← r.defaulted "max_ttl" .natural 3600
  let keyPrefix ← r.optional "key_prefix" .text
  some ⟨issuer, environments, operations, subjectTemplate, boundAudiences, boundClaims,
    claimMappings, policy, tokenTtl, maxTtl, keyPrefix⟩

end BindingGroup
end Federation
