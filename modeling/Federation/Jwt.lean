import Federation.Binding.Set
import Federation.Jwt.Compact
import Federation.Jwt.Key

/-!
# Verifying web tokens

`Jwt.decode` turns a signed token into an identity token.  The algorithm has to be one
that is accepted, the issuer one that the binding set knows, the signature one of a key
of that issuer.  Nothing is fetched before algorithm, payload and issuer are known to be
acceptable.  How signatures are verified is a parameter; `PublicKey.verify` is the one
that is used.  Whether the token is expired is left to the evaluation.
-/

namespace Federation.Jwt

open Keys

/-- The algorithms that are accepted, none of which is symmetric. -/
structure Accepted where
  algorithms : List Algorithm
  /-- No algorithm works with a shared secret. -/
  asymmetric : ∀ a ∈ algorithms, a.isSymmetric = false
deriving DecidableEq

namespace Accepted

/-- The algorithms of a list that are not symmetric. -/
def ofList (l : List Algorithm) : Accepted where
  algorithms := l.filter fun a => !a.isSymmetric
  asymmetric a h := by simpa using (List.mem_filter.1 h).2

/-- RSA with fixed padding and the curve P-256, both with SHA-256. -/
def default : Accepted := ofList [.rs256, .es256]

instance : Inhabited Accepted := ⟨default⟩

end Accepted

/-- The seconds by which the clock of an issuer may be ahead. -/
def leeway : Int := 60

/-- Gives what is there, or fails. -/
def orFail {α : Type} (e : TokenError) : Option α → Except TokenError α
  | some a => .ok a
  | none => .error e

/-- The parts of a token whose algorithm is accepted and whose issuer is known. -/
structure Presented where
  token : Compact
  header : Header
  payload : Payload
  issuer : Issuer

/-- Reads a token as far as that is possible without a key. -/
def inspect (accepted : Accepted) (raw : String) (s : BindingSet) :
    Except TokenError Presented := do
  let token ← orFail .malformed (Compact.ofChars? raw.toList)
  let header ← orFail .malformed token.header?
  if header.algorithm ∉ accepted.algorithms then
    throw (.unsupportedAlgorithm header.algorithm)
  let payload ← orFail .malformed token.payload?
  let url ← ClaimSet.required "iss" payload.claims.issuer
  let issuer ← orFail (.unknownIssuer url) (s.issuer? url)
  return ⟨token, header, payload, issuer⟩

/-- Verifies a token with the key found for it. -/
def verifyWith (verifies : Verifier) (now : Instant) (p : Presented) (k : Jwk) :
    Except TokenError IdentityToken := do
  let key ← publicKey k
  let signature ← orFail .malformed (Base64Url.decode? p.token.signature)
  let message := Utf8.encode (String.ofList p.token.signedPart)
  if !verifies p.header.algorithm message signature key then throw .invalidSignature
  let c := p.payload.claims
  if !c.expiry.any (0 ≤ ·) then throw (.missingClaim "exp")
  let _ ← ClaimSet.required "sub" c.subject
  if p.payload.notBefore.any fun n => now.seconds + leeway < n then throw .notYetValid
  c.toToken now none

/-- Verifies a token and gives the identity that it proves. -/
def decode (verifies : Verifier) (web : Web) (accepted : Accepted) (now : Instant)
    (raw : String) (s : BindingSet) : Fetch IdentityToken := do
  let p ← inspect accepted raw s
  let k ← findKey web p.issuer p.header.algorithm p.header.kid
  verifyWith verifies now p k

end Federation.Jwt
