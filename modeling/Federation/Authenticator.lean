import Federation.Jwt

/-!
# Taking tokens of several formats

An `Authenticator` holds a handler for each format of tokens that it takes, and gives
the identity that a presented token proves.  A sample token is not signed: it is the
JSON text of a claim set, for trying out.
-/

namespace Federation

/-- What takes the tokens of a format. -/
inductive TokenHandler where
  /-- Takes sample tokens. -/
  | sample
  /-- Takes web tokens signed with an accepted algorithm. -/
  | jwt (accepted : Jwt.Accepted)
deriving DecidableEq

/-- The format that a handler takes. -/
def TokenHandler.format : TokenHandler → TokenFormat
  | sample => .sample
  | jwt _ => .jwt

/-- Reads a sample token, which expires after an hour when it does not say otherwise. -/
def readSample (now : Instant) (raw : String) : Except TokenError IdentityToken :=
  match ClaimSet.decoder.ofText? raw with
  | none => .error .malformed
  | some c => c.toToken now (some (now.addMillis (1000 * IdentityToken.defaultLifetime)))

/-- The handlers for the formats of tokens. -/
structure Authenticator where
  /-- The handlers, at most one of a format being used: the first. -/
  handlers : List TokenHandler := []

namespace Authenticator

/-- Takes the tokens of a format by a handler, in place of an earlier one. -/
def register (a : Authenticator) (h : TokenHandler) : Authenticator := ⟨h :: a.handlers⟩

/-- The handlers of a list, registered in order. -/
def ofList (l : List TokenHandler) : Authenticator := l.foldl register {}

/-- The handler for a format. -/
def handler? (a : Authenticator) (format : TokenFormat) : Option TokenHandler :=
  a.handlers.find? (·.format = format)

/-- Gives the identity that a token proves. -/
def decode (a : Authenticator) (web : Keys.Web) (now : Instant) (format : TokenFormat)
    (raw : String) (s : BindingSet) : Keys.Fetch IdentityToken :=
  match a.handler? format with
  | none => throw (.noHandler format)
  | some .sample => liftM (readSample now raw)
  | some (.jwt accepted) => Jwt.decode Jwt.PublicKey.verify web accepted now raw s

end Authenticator
end Federation
