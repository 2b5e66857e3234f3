import Federation.Jwt.Algorithm

/-!
# Headers of web tokens

The header of a token names the algorithm of its signature and may identify the key.
The other members that a header can have must be well formed but are not used; a key
that comes with the header is never trusted.
-/

namespace Federation.Jwt

/-- What is used of the header of a token. -/
structure Header where
  /-- The algorithm of the signature. -/
  algorithm : Algorithm
  /-- The identifier of the key. -/
  kid : Option String
deriving DecidableEq

namespace Header

/-- The algorithms that a key may be meant for. -/
def keyAlgorithmNames : List String :=
  Algorithm.all.map Algorithm.name ++ ["RSA1_5", "RSA-OAEP", "RSA-OAEP-256"]

/-- The curves that a key may be on. -/
def curveNames : List String := ["P-256", "P-384", "P-521", "Ed25519"]

/-- One of the listed names. -/
def oneOf (names : List String) : Json.Decoder String :=
  .nameOf Json.Decoder.isUnit (names.map fun n => (n, n))

/-- The members that keys of all families have. -/
def keyFieldNames : List String :=
  ["use", "key_ops", "alg", "kid", "x5u", "x5c", "x5t", "x5t#S256"]

/-- A key that belongs to a family of keys, of which some members have to be there. -/
def keyOfFamily (keyType : String) (names : List String) : Json.Decoder Unit :=
  .record ("kty" :: names) fun r => do
    let _ ← r.required "kty" (oneOf [keyType])
    let _ ← names.mapM fun name =>
      r.required name (if name = "crv" then oneOf curveNames else .text)
    some ()

/-- A key of any family. -/
def anyKey : Json.Decoder Unit := fun depth doc =>
  (keyOfFamily "EC" ["crv", "x", "y"] depth doc)
    <|> (keyOfFamily "RSA" ["n", "e"] depth doc)
    <|> (keyOfFamily "oct" ["k"] depth doc)
    <|> (keyOfFamily "OKP" ["crv", "x"] depth doc)

/-- A key that comes with a header. -/
def embeddedKey : Json.Decoder Unit
  | depth + 1, .object members => do
    let given ← Json.Decoder.collect? false keyFieldNames {} members
    let _ ← Json.Document.membersToJson? depth members
    let r : Json.Decoder.Fields := ⟨false, depth, given⟩
    let _ ← r.optional "use" .text
    let _ ← r.optional "key_ops" (.list .text)
    let _ ← r.optional "alg" (oneOf keyAlgorithmNames)
    let _ ← r.optional "kid" .text
    let _ ← r.optional "x5u" .text
    let _ ← r.optional "x5c" (.list .text)
    let _ ← r.optional "x5t" .text
    let _ ← r.optional "x5t#S256" .text
    anyKey (depth + 1)
      (.object (members.filter fun m => !m.1.any keyFieldNames.contains))
  | _, _ => none

/-- The names of the members of a header, in order. -/
def fieldNames : List String :=
  ["typ", "alg", "cty", "jku", "jwk", "kid", "x5u", "x5c", "x5t", "x5t#S256"]

/-- Reads a header. -/
def decoder : Json.Decoder Header := .record fieldNames fun r => do
  let _ ← r.nullable "typ" .text
  let algorithm ← r.required "alg" Algorithm.decoder
  let _ ← r.nullable "cty" .text
  let _ ← r.nullable "jku" .text
  let _ ← r.nullable "jwk" embeddedKey
  let kid ← r.nullable "kid" .text
  let _ ← r.nullable "x5u" .text
  let _ ← r.nullable "x5c" (.list .text)
  let _ ← r.nullable "x5t" .text
  let _ ← r.nullable "x5t#S256" .text
  some ⟨algorithm, kid⟩

end Header
end Federation.Jwt
