import Federation.Json.Decoder

/-!
# Bindings

A `Binding` lets the tokens of one issuer with one exact subject have the capabilities
of a policy, for one environment and one operation.  Its `TrustTuple` is the part that
decides which tokens it accepts.
-/

namespace Federation

/-- Lets certain tokens have the capabilities of a policy. -/
structure Binding where
  /-- The key, which no other binding of a set has. -/
  key : String
  environment : String
  operation : String
  /-- The identifier of the issuer. -/
  issuerId : String
  /-- The URL that tokens name as their issuer. -/
  issuer : String
  /-- The subject that a token has to have. -/
  subject : String
  /-- The audiences of which a token has to have one. -/
  boundAudiences : StringSet
  /-- The claims that have to be equal to these texts. -/
  boundClaims : StringMap String
  /-- The attributes that claims are recorded as. -/
  claimMappings : StringMap String
  /-- The seconds that a credential is granted for. -/
  tokenTtl : UInt64
  /-- The most seconds that a credential may be granted for. -/
  maxTtl : UInt64
  policy : String
deriving DecidableEq

/-- What decides which tokens a binding accepts. -/
structure TrustTuple where
  issuer : String
  audiences : StringSet
  claims : StringMap String
  subject : String
deriving DecidableEq

namespace TrustTuple

/-- The JSON form of a trust tuple. -/
def toJson (t : TrustTuple) : Json :=
  .array [.string t.issuer, .texts t.audiences.elements, .ofTexts t.claims, .string t.subject]

end TrustTuple

namespace Binding

/-- What decides which tokens a binding accepts. -/
def trustTuple (b : Binding) : TrustTuple := ⟨b.issuer, b.boundAudiences, b.boundClaims, b.subject⟩

/-- The seconds that a credential is granted for when so many are requested: never more
than either bound. -/
def effectiveTtl (b : Binding) (requested : Option UInt64) : UInt64 :=
  let bound := min b.tokenTtl b.maxTtl
  match requested with
  | some ttl => min ttl bound
  | none => bound

/-- The JSON form of a binding. -/
def toJson (b : Binding) : Json :=
  .object [
    ("key", .string b.key),
    ("environment", .string b.environment),
    ("operation", .string b.operation),
    ("issuer_id", .string b.issuerId),
    ("issuer", .string b.issuer),
    ("subject", .string b.subject),
    ("bound_audiences", .texts b.boundAudiences.elements),
    ("bound_claims", .ofTexts b.boundClaims),
    ("claim_mappings", .ofTexts b.claimMappings),
    ("token_ttl", .natural b.tokenTtl),
    ("max_ttl", .natural b.maxTtl),
    ("policy", .string b.policy)]

/-- The names of the members of a binding, in order. -/
def fieldNames : List String :=
  ["key", "environment", "operation", "issuer_id", "issuer", "subject", "bound_audiences",
    "bound_claims", "claim_mappings", "token_ttl", "max_ttl", "policy"]

/-- Reads a binding from its JSON form. -/
def decoder : Json.Decoder Binding := .record fieldNames fun r => do
  let key ← r.required "key" .text
  let environment ← r.required "environment" .text
  let operation ← r.required "operation" .text
  let issuerId ← r.required "issuer_id" .text
  let issuer ← r.required "issuer" .text
  let subject ← r.required "subject" .text
  let boundAudiences ← r.required "bound_audiences" .set
  let boundClaims ← r.defaulted "bound_claims" (.mapOf .text) {}
  let claimMappings ← r.defaulted "claim_mappings" (.mapOf .text) {}
  let tokenTtl ← r.required "token_ttl" .natural
  let maxTtl ← r.required "max_ttl" .natural
  let policy ← r.required "policy" .text
  some ⟨key, environment, operation, issuerId, issuer, subject, boundAudiences, boundClaims,
    claimMappings, tokenTtl, maxTtl, policy⟩

end Binding
end Federation
