import Federation.Token
import Federation.Token.Error

/-!
# Claim sets

A `ClaimSet` is the JSON object that a token carries.  Issuer, subject, audience, expiry
and time of issue have a place of their own, each given at most once; all other members
are claims, of which the last one of a name counts.  `ClaimSet.toToken` makes it an
identity token.
-/

namespace Federation

/-- The claims that a token carries. -/
structure ClaimSet where
  /-- The URL of the issuer. -/
  issuer : Option String
  /-- The subject. -/
  subject : Option String
  /-- The audiences, in whatever form. -/
  audience : Option Json
  /-- The seconds of the instant from which on the token is expired. -/
  expiry : Option Int
  /-- The seconds of the instant at which it was issued. -/
  issuedAt : Option Int
  /-- All other claims. -/
  others : StringMap Json
deriving DecidableEq

namespace ClaimSet

/-- The names of the claims with a place of their own. -/
def fieldNames : List String := ["iss", "sub", "aud", "exp", "iat"]

/-- Reads a claim set: an object, all of which has to be readable. -/
def decoder : Json.Decoder ClaimSet
  | depth + 1, .object members => do
    let given ← Json.Decoder.collect? false fieldNames {} members
    let all ← Json.Document.membersToJson? depth members
    let r : Json.Decoder.Fields := ⟨false, depth, given⟩
    let issuer ← r.optional "iss" .text
    let subject ← r.optional "sub" .text
    let audience ← r.optional "aud" .json
    let expiry ← r.optional "exp" .integer
    let issuedAt ← r.optional "iat" .integer
    let others := StringMap.ofList (all.filter fun m => !fieldNames.contains m.1)
    some ⟨issuer, subject, audience, expiry, issuedAt, others⟩
  | _, _ => none

/-- A claim that has to be there. -/
def required {α : Type} (claim : String) : Option α → Except TokenError α
  | some a => .ok a
  | none => .error (.missingClaim claim)

/-- The instant in a claim. -/
def instant (claim : String) (seconds : Int) : Except TokenError Instant :=
  match Instant.ofSeconds? seconds with
  | some t => .ok t
  | none => .error (.timeOutOfRange claim)

/-- The texts of a list. -/
def audienceEntries : List Json → Except TokenError (List String)
  | [] => .ok []
  | .string s :: rest => (audienceEntries rest).map (s :: ·)
  | _ :: _ => .error .audienceEntry

/-- The audiences in a claim: a text or a list of texts. -/
def audiences : Option Json → Except TokenError StringSet
  | none => .ok {}
  | some (.string s) => .ok (StringSet.ofList [s])
  | some (.array items) => (audienceEntries items).map StringSet.ofList
  | some _ => .error .audienceForm

/-- The identity token of a claim set.  It is issued now unless the claims say
otherwise, and `defaultExpiry` stands for an expiry that they do not give. -/
def toToken (c : ClaimSet) (now : Instant) (defaultExpiry : Option Instant) :
    Except TokenError IdentityToken := do
  let issuer ← required "iss" c.issuer
  let subject ← required "sub" c.subject
  let expiry ← match c.expiry with
    | some seconds => instant "exp" seconds
    | none => required "exp" defaultExpiry
  let issuedAt ← match c.issuedAt with
    | some seconds => instant "iat" seconds
    | none => .ok now
  let audience ← audiences c.audience
  return ⟨issuer, subject, audience, c.others, expiry, issuedAt⟩

end ClaimSet
end Federation
