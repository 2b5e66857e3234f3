import Federation.Jwt.Algorithm
import Federation.Keys.Ring
import Federation.Signature.Ecdsa
import Federation.Signature.Rsa
import Federation.Text.Base64Url

/-!
# Keys that verify web tokens

A key fits a token when it belongs to the family of the algorithm, is not meant for
another use than signing and, if the token names a key, has that identifier.  Of the
keys of an issuer the first one that fits is taken; when none does, the keys are fetched
once more, for the issuer may have changed them.
-/

namespace Federation.Jwt

open Keys

/-- Whether a key fits an algorithm and the identifier that a token names. -/
def fits (algorithm : Algorithm) (kid : Option String) (k : Jwk) : Bool :=
  k.kty = algorithm.keyType && k.keyUse.all (· = "sig") && (kid.isNone || k.kid = kid)

/-- Whether some of the keys of an issuer are fetched. -/
def hasRemoteKeys (issuer : Issuer) : Bool :=
  issuer.trustAnchors.isEmpty || issuer.trustAnchors.any fun a =>
    match a with
    | .key _ => false
    | .keySet _ => true

/-- The key of an issuer that a token is to be verified with. -/
def findKey (web : Web) (issuer : Issuer) (algorithm : Algorithm) (kid : Option String) :
    Fetch Jwk := do
  match (← Fetch.issuerKeys web false issuer).find? (fits algorithm kid) with
  | some k => return k
  | none =>
    if hasRemoteKeys issuer then
      match (← Fetch.issuerKeys web true issuer).find? (fits algorithm kid) with
      | some k => return k
      | none => throw (.keyNotFound kid)
    else throw (.keyNotFound kid)

/-! ### Public keys -/

/-- A key that signatures can be verified with. -/
inductive PublicKey where
  | rsa (k : Rsa.PublicKey)
  /-- A point of an elliptic curve. -/
  | elliptic (k : Ecdsa.PublicKey)
deriving DecidableEq

/-- A part of a key, which has to be there. -/
def keyPart (part : String) : Option String → Except TokenError String
  | some text => .ok text
  | none => .error (.missingKeyPart part)

/-- The bytes of a part of a key. -/
def keyBytes (text : String) : Except TokenError Bytes :=
  match Base64Url.decode? text.toList with
  | some bytes => .ok bytes
  | none => .error .malformed

/-- The public key that a key describes. -/
def publicKey (k : Jwk) : Except TokenError PublicKey :=
  if k.kty = "RSA" then do
    let n ← keyPart "RSA modulus" k.n
    let e ← keyPart "RSA exponent" k.e
    return .rsa ⟨← keyBytes n, ← keyBytes e⟩
  else if k.kty = "EC" then do
    let x ← keyPart "EC x coordinate" k.x
    let y ← keyPart "EC y coordinate" k.y
    return .elliptic ⟨← keyBytes x, ← keyBytes y⟩
  else .error (.unsupportedKeyType k.kty)

/-- What decides, for an algorithm, a message and a signature, whether the signature was
made with the private half of a key. -/
abbrev Verifier : Type := Algorithm → Bytes → Bytes → PublicKey → Bool

/-- Whether a signature of a message was made with the private half of a key.  Only the
algorithms with SHA-256 and without random padding can be verified. -/
def PublicKey.verify (algorithm : Algorithm) (message signature : Bytes) : PublicKey → Bool
  | .rsa k => algorithm = .rs256 && Rsa.verify k message signature
  | .elliptic k => algorithm = .es256 && Ecdsa.verify k message signature

end Federation.Jwt
