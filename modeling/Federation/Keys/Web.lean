import Federation.Issuer

/-!
# Pages of keys

What the web answers for a URL is a `Response`: nothing at all, or a status and a body.
Two kinds of pages matter: a document of keys, and a discovery document, which names an
issuer and says where its document of keys is.
-/

namespace Federation.Keys

/-- What the web answers for a URL. -/
inductive Response where
  /-- There is no answer. -/
  | unreachable
  | page (status : Nat) (body : Bytes)
deriving DecidableEq

/-- The web: a response for each URL. -/
abbrev Web : Type := String → Response

/-- The part of a discovery document that is used. -/
structure Discovery where
  /-- The issuer that it speaks of. -/
  issuer : String
  /-- Where the document of keys is. -/
  keySetUrl : String
deriving DecidableEq

/-- Reads a discovery document. -/
def Discovery.decoder : Json.Decoder Discovery := .record ["issuer", "jwks_uri"] fun r => do
  let issuer ← r.required "issuer" .text
  let keySetUrl ← r.required "jwks_uri" .text
  some ⟨issuer, keySetUrl⟩

/-- Reads a document of keys. -/
def keySetDecoder : Json.Decoder (List Jwk) :=
  .record ["keys"] fun r => r.required "keys" (.list Jwk.decoder)

/-- Whether a status says that a request was refused. -/
def isRefusal (status : Nat) : Bool := 400 ≤ status && status < 600

end Federation.Keys
