import Federation.Claim

/-!
# Issuers

An `Issuer` signs identity tokens.  It is known under an identifier of its own and
under the URL that its tokens name; it accepts some audiences, declares its claims, and
says where its signing keys come from: keys given with it, or documents of keys to be
fetched.
-/

namespace Federation

/-- A public key that an issuer signs with. -/
structure Jwk where
  /-- The identifier of the key. -/
  kid : Option String
  /-- The family of the key. -/
  kty : String
  /-- The algorithm it is meant for. -/
  alg : Option String
  /-- The use it is meant for. -/
  keyUse : Option String
  /-- The modulus of an RSA key. -/
  n : Option String
  /-- The exponent of an RSA key. -/
  e : Option String
  /-- The curve of an elliptic key. -/
  crv : Option String
  /-- The first coordinate of an elliptic key. -/
  x : Option String
  /-- The second coordinate of an elliptic key. -/
  y : Option String
deriving DecidableEq

namespace Jwk

/-- The members of the JSON form of a key. -/
def members (k : Jwk) : List (String × Json) :=
  Json.optionalMember "kid" .string k.kid
    ++ ("kty", .string k.kty) :: Json.optionalMember "alg" .string k.alg
    ++ Json.optionalMember "use" .string k.keyUse
    ++ Json.optionalMember "n" .string k.n
    ++ Json.optionalMember "e" .string k.e
    ++ Json.optionalMember "crv" .string k.crv
    ++ Json.optionalMember "x" .string k.x
    ++ Json.optionalMember "y" .string k.y

/-- The JSON form of a key. -/
def toJson (k : Jwk) : Json := .object k.members

/-- The names of the members of a key, in order. -/
def fieldNames : List String := ["kid", "kty", "alg", "use", "n", "e", "crv", "x", "y"]

/-- Reads a key from its JSON form. -/
def decoder : Json.Decoder Jwk := .record fieldNames fun r => do
  let kid ← r.optional "kid" .text
  let kty ← r.required "kty" .text
  let alg ← r.optional "alg" .text
  let keyUse ← r.optional "use" .text
  let n ← r.optional "n" .text
  let e ← r.optional "e" .text
  let crv ← r.optional "crv" .text
  let x ← r.optional "x" .text
  let y ← r.optional "y" .text
  some ⟨kid, kty, alg, keyUse, n, e, crv, x, y⟩

end Jwk

/-- Where signing keys of an issuer come from. -/
inductive TrustAnchor where
  /-- A key that is given. -/
  | key (k : Jwk)
  /-- A document of keys to be fetched. -/
  | keySet (url : String)
deriving DecidableEq

namespace TrustAnchor

/-- The JSON form of a trust anchor. -/
def toJson : TrustAnchor → Json
  | .key k => .object (("kind", .string "jwk") :: k.members)
  | .keySet url => .object [("kind", .string "jwks_uri"), ("url", .string url)]

/-- Reads the fields of a trust anchor of a kind. -/
def alternative (kind : String) : Json.Decoder TrustAnchor :=
  if kind = "jwk" then Jwk.decoder.map .key
  else if kind = "jwks_uri" then
    .record ["url"] fun r => do
      let url ← r.required "url" .text
      some (.keySet url)
  else fun _ _ => none

/-- Reads a trust anchor from its JSON form. -/
def decoder : Json.Decoder TrustAnchor := .tagged "kind" alternative

end TrustAnchor

/-- A trusted issuer of identity tokens. -/
structure Issuer where
  /-- The identifier that configuration refers to it by. -/
  id : String
  /-- Where its discovery document is. -/
  discoveryUrl : String
  /-- The URL that its tokens name as their issuer. -/
  issuerUrl : String
  /-- The audiences that its tokens may be bound to. -/
  audiences : StringSet := {}
  /-- Where its signing keys come from. -/
  trustAnchors : List TrustAnchor := []
  /-- The claims it declares. -/
  claimSchema : ClaimSchema := {}
deriving DecidableEq

namespace Issuer

/-- The JSON form of an issuer. -/
def toJson (i : Issuer) : Json :=
  .object [
    ("id", .string i.id),
    ("discovery_url", .string i.discoveryUrl),
    ("issuer_url", .string i.issuerUrl),
    ("audiences", .texts i.audiences.elements),
    ("trust_anchors", .array (i.trustAnchors.map TrustAnchor.toJson)),
    ("claim_schema", i.claimSchema.toJson)]

/-- The names of the members of an issuer, in order. -/
def fieldNames : List String :=
  ["id", "discovery_url", "issuer_url", "audiences", "trust_anchors", "claim_schema"]

/-- Reads an issuer of which the types of claims are read by `d`. -/
def decoderOf (d : Json.Decoder ClaimType) : Json.Decoder Issuer := .record fieldNames fun r => do
  let id ← r.required "id" .text
  let discoveryUrl ← r.required "discovery_url" .text
  let issuerUrl ← r.required "issuer_url" .text
  let audiences ← r.required "audiences" .set
  let trustAnchors ← r.defaulted "trust_anchors" (.list TrustAnchor.decoder) []
  let claimSchema ← r.defaulted "claim_schema" (ClaimSchema.decoderOf d) {}
  some ⟨id, discoveryUrl, issuerUrl, audiences, trustAnchors, claimSchema⟩

/-- Reads an issuer from its JSON form. -/
def decoder : Json.Decoder Issuer := decoderOf ClaimType.decoder

end Issuer
end Federation
