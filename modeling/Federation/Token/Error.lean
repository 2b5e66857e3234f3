import Federation.Jwt.Algorithm
import Federation.Token.Format

/-!
# Why a token is refused

A `TokenError` says why a presented token gives no identity.
-/

namespace Federation

/-- Why a presented token is refused. -/
inductive TokenError where
  /-- Tokens of a format are not taken. -/
  | noHandler (format : TokenFormat)
  /-- A token, or a key it is to be verified with, cannot be read. -/
  | malformed
  /-- An audience is not a text. -/
  | audienceEntry
  /-- The audiences are neither a text nor a list. -/
  | audienceForm
  /-- The time in a claim is beyond all dates. -/
  | timeOutOfRange (claim : String)
  /-- A part of a key is missing. -/
  | missingKeyPart (part : String)
  /-- Signatures of an algorithm are not accepted. -/
  | unsupportedAlgorithm (algorithm : Jwt.Algorithm)
  /-- Keys of a family cannot be used. -/
  | unsupportedKeyType (keyType : String)
  /-- A claim is missing. -/
  | missingClaim (claim : String)
  | unknownIssuer (url : String)
  /-- The issuer has no key that fits, with the identifier asked for. -/
  | keyNotFound (kid : Option String)
  | invalidSignature
  | notYetValid
  /-- A page of keys could not be reached. -/
  | unreachable
  /-- A page was refused or does not hold what it should. -/
  | unusablePage
  /-- The discovery document of an issuer speaks of another one. -/
  | foreignDiscovery (issuer advertised : String)
deriving DecidableEq

/-- The text of an error. -/
def TokenError.message : TokenError → String
  | noHandler format => "No handler registered for token format: " ++ format.name
  | malformed => "Invalid token format: unreadable"
  | audienceEntry => "Invalid token format: aud entries must be strings"
  | audienceForm => "Invalid token format: aud must be a string or an array"
  | timeOutOfRange claim => "Invalid token format: " ++ claim ++ " out of range"
  | missingKeyPart part => "Invalid token format: Missing " ++ part
  | unsupportedAlgorithm algorithm => "Unsupported algorithm: " ++ algorithm.name
  | unsupportedKeyType keyType => "Unsupported algorithm: Key type: " ++ keyType
  | missingClaim claim => "Missing required claim: " ++ claim
  | unknownIssuer url => "Unknown issuer: " ++ url
  | keyNotFound kid => "Key not found: " ++ kid.getD "no signing key for algorithm"
  | invalidSignature => "Invalid signature: InvalidSignature"
  | notYetValid => "Token not valid until JWT not yet valid"
  | unreachable => "HTTP error: unreachable"
  | unusablePage => "Failed to fetch JWKS: unusable page"
  | foreignDiscovery issuer advertised =>
    "Token validation failed: discovery document for " ++ issuer ++ " advertises issuer "
      ++ advertised

/-- Whether a token is refused because its issuer is not trusted. -/
def TokenError.isUnknownIssuer : TokenError → Bool
  | unknownIssuer _ => true
  | _ => false

end Federation
