import Federation.Instant.Rfc3339

/-!
# Identity tokens

An `IdentityToken` is what a pipeline proves its identity by, after its signature has
been verified.  Subject and issuer can be looked up as claims too.
-/

namespace Federation

/-- A decoded identity token. -/
structure IdentityToken where
  issuer : String
  subject : String
  audience : StringSet := {}
  claims : StringMap Json := {}
  /-- The instant from which on the token is expired. -/
  expiry : Instant
  issuedAt : Instant
deriving DecidableEq

namespace IdentityToken

/-- The value of a claim. -/
def claim? (t : IdentityToken) (name : String) : Option Json :=
  if name = "sub" then some (.string t.subject)
  else if name = "iss" then some (.string t.issuer)
  else t.claims.get? name

/-- Whether a token is expired at an instant. -/
def isExpiredAt (t : IdentityToken) (now : Instant) : Bool := t.expiry ≤ now

/-- The seconds that a token is valid for when nothing else is said. -/
def defaultLifetime : Nat := 3600

/-- A token without claims that is issued now. -/
def issue (issuer subject : String) (now : Instant) : IdentityToken where
  issuer := issuer
  subject := subject
  expiry := now.addMillis (1000 * defaultLifetime)
  issuedAt := now

/-- The JSON form of a token. -/
def toJson (t : IdentityToken) : Json :=
  .object [
    ("issuer", .string t.issuer),
    ("subject", .string t.subject),
    ("audience", .texts t.audience.elements),
    ("claims", .ofMap t.claims),
    ("expiry", t.expiry.toJson),
    ("issued_at", t.issuedAt.toJson)]

/-- The names of the members of a token, in order. -/
def fieldNames : List String := ["issuer", "subject", "audience", "claims", "expiry", "issued_at"]

/-- Reads a token from its JSON form. -/
def decoder : Json.Decoder IdentityToken := .record fieldNames fun r => do
  let issuer ← r.required "issuer" .text
  let subject ← r.required "subject" .text
  let audience ← r.defaulted "audience" .set {}
  let claims ← r.defaulted "claims" (.mapOf .json) {}
  let expiry ← r.required "expiry" Instant.decoder
  let issuedAt ← r.required "issued_at" Instant.decoder
  some ⟨issuer, subject, audience, claims, expiry, issuedAt⟩

end IdentityToken
end Federation
