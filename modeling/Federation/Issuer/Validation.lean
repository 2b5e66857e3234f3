import Federation.Issuer
import Federation.Text.Blank
import Federation.Url

/-!
# Checking issuers

What can be checked of an issuer without a network: its discovery document is reached
over a protected channel, it has a URL and accepts audiences, none of them blank, and
its claims have usable names and do not change the types of the standard claims.  The
first check that fails is reported.
-/

namespace Federation

/-- What can be wrong with the URL of a discovery document. -/
inductive DiscoveryFault where
  /-- It is no absolute URL. -/
  | url (e : UrlError)
  | missingHost
  /-- Its scheme does not protect what is fetched. -/
  | scheme (name : String)
  | fragment
deriving DecidableEq

/-- The text of a fault. -/
def DiscoveryFault.message : DiscoveryFault → String
  | .url e => e.message
  | .missingHost => "missing host"
  | .scheme name => "scheme '" ++ name ++ "' is not allowed"
  | .fragment => "fragment is not allowed"

/-- What can be wrong with a claim schema. -/
inductive SchemaFault where
  /-- A name is empty or has a blank in it. -/
  | name (claim : String)
  /-- A standard claim is declared with another type. -/
  | redeclared (claim : String)
deriving DecidableEq

/-- The text of a fault. -/
def SchemaFault.message : SchemaFault → String
  | .name claim => "claim name '" ++ claim ++ "' is not a valid identifier"
  | .redeclared claim => "standard claim '" ++ claim ++ "' redeclared with another type"

/-- Why an issuer is refused. -/
inductive IssuerError where
  /-- The URL of the discovery document is not usable. -/
  | discoveryUrl (issuer : String) (fault : DiscoveryFault)
  /-- The issuer has no audience, or a blank one. -/
  | emptyAudience (issuer : String)
  /-- The identifier or the URL is taken. -/
  | duplicate (name : String)
  /-- The URL that tokens name is blank. -/
  | emptyIssuerUrl (issuer : String)
  /-- The claim schema is not usable. -/
  | claimSchema (issuer : String) (fault : SchemaFault)
deriving DecidableEq

/-- The text of an error. -/
def IssuerError.message : IssuerError → String
  | .discoveryUrl issuer fault =>
    "Malformed discovery URL for issuer '" ++ issuer ++ "': " ++ fault.message
  | .emptyAudience issuer => "Issuer '" ++ issuer ++ "' declares no accepted audiences"
  | .duplicate name => "Duplicate issuer: " ++ name
  | .emptyIssuerUrl issuer => "Issuer '" ++ issuer ++ "' has an empty issuer URL"
  | .claimSchema issuer fault =>
    "Invalid claim schema for issuer '" ++ issuer ++ "': " ++ fault.message

/-- Whether what is fetched from a URL with this scheme and host cannot be changed on
the way. -/
def isProtected (scheme : String) (host : Host) : Bool :=
  scheme = "https" || (scheme = "http" && host.isLoopback)

/-- Checks the URL of a discovery document. -/
def checkDiscoveryUrl (text : String) : Except DiscoveryFault Unit :=
  match Url.parse text with
  | .error e => .error (.url e)
  | .ok url =>
    match url.host with
    | none => .error .missingHost
    | some host =>
      if !isProtected url.scheme host then .error (.scheme url.scheme)
      else if url.hasFragment then .error .fragment
      else .ok ()

/-- What is wrong with one declared claim. -/
def claimFault? (name : String) (t : ClaimType) : Option SchemaFault :=
  if name.isEmpty || name.toList.any Text.isBlank then some (.name name)
  else
    match ClaimSchema.standard? name with
    | some s => if s = t then none else some (.redeclared name)
    | none => none

namespace Issuer

/-- Checks an issuer. -/
def validate (i : Issuer) : Except IssuerError Unit :=
  match checkDiscoveryUrl i.discoveryUrl with
  | .error fault => .error (.discoveryUrl i.id fault)
  | .ok () =>
    if Text.isAllBlank i.issuerUrl then .error (.emptyIssuerUrl i.id)
    else if i.audiences.isEmpty || i.audiences.elements.any Text.isAllBlank then
      .error (.emptyAudience i.id)
    else
      match i.claimSchema.claims.entries.findSome? fun e => claimFault? e.1 e.2 with
      | some fault => .error (.claimSchema i.id fault)
      | none => .ok ()

/-- Whether an issuer passes every check. -/
def isValid (i : Issuer) : Bool := (i.validate).isOk

end Issuer
end Federation
