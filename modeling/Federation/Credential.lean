import Federation.Instant
import Federation.Sha256
import Federation.Text.Base64Url

/-!
# The bootstrap credential

Administration needs a secret that is made up when the service starts and that nobody
can configure.  A `Credential` keeps only the digest of the secret, what it is for and
when it ends.
-/

namespace Federation

/-- What a credential is for. -/
inductive CredentialScope where
  /-- Reading the configuration again. -/
  | reload
deriving DecidableEq, Repr

/-- The name of a scope. -/
def CredentialScope.name : CredentialScope → String
  | .reload => "reload"

/-- Why a presented secret is refused. -/
inductive CredentialError where
  /-- The credential has ended. -/
  | expired
  /-- The credential is not for this. -/
  | wrongScope (scope : CredentialScope)
  /-- The secret is not the one of the credential. -/
  | mismatch
deriving DecidableEq, Repr

/-- The text of an error. -/
def CredentialError.message : CredentialError → String
  | .expired => "bootstrap credential expired"
  | .wrongScope scope => "bootstrap credential is not scoped for '" ++ scope.name ++ "'"
  | .mismatch => "bootstrap credential mismatch"

/-- A credential, without its secret. -/
structure Credential where
  /-- What it is for. -/
  scope : CredentialScope
  /-- The instant from which on it is refused. -/
  expiresAt : Instant
  /-- The digest of the secret. -/
  digest : Bytes
deriving DecidableEq

namespace Credential

/-- The number of random bytes in a secret. -/
def secretSize : Nat := 32

/-- A credential that ends so many seconds from now, and its secret. -/
def mint (random : Bytes) (scope : CredentialScope) (now : Instant) (ttl : Int) :
    Credential × String :=
  let secret := Base64Url.encode (random.take secretSize)
  (⟨scope, now.addMillis (1000 * ttl), Sha256.digest (Utf8.encode secret)⟩, secret)

/-- Whether a credential has ended. -/
def isExpired (c : Credential) (now : Instant) : Bool := c.expiresAt ≤ now

/-- Checks a presented secret. -/
def verify (c : Credential) (presented : String) (scope : CredentialScope) (now : Instant) :
    Except CredentialError Unit :=
  if Sha256.digest (Utf8.encode presented) ≠ c.digest then .error .mismatch
  else if scope ≠ c.scope then .error (.wrongScope scope)
  else if c.isExpired now then .error .expired
  else .ok ()

end Credential
end Federation
