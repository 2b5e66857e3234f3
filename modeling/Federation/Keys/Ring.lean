import Federation.Keys.Web
import Federation.Token.Error

/-!
# Fetching keys

A `KeyRing` remembers what has been fetched: documents of keys by their URL, and for
each discovery document where the keys are.  It also lists the requests that were made.
A `Fetch` is a computation that may use the web and the ring; when it fails, the ring
stays as the computation left it.

Keys are fetched anew on demand: the ring then forgets what it had for a URL before the
request is made.
-/

namespace Federation.Keys

/-- What has been fetched. -/
structure KeyRing where
  /-- The keys of a document, by its URL. -/
  keySets : StringMap (List Jwk) := {}
  /-- Where the keys are, by the URL of a discovery document. -/
  keySetUrls : StringMap String := {}
  /-- The URLs that were requested, in order. -/
  requests : List String := []

/-- The ring that remembers nothing but its requests. -/
def KeyRing.forget (ring : KeyRing) : KeyRing := { requests := ring.requests }

/-- A computation that fetches keys. -/
abbrev Fetch : Type → Type := ExceptT TokenError (StateM KeyRing)

namespace Fetch

/-- Requests a page and reads it. -/
def page {α : Type} (web : Web) (url : String) (d : Json.Decoder α) : Fetch α := do
  modify fun ring => { ring with requests := ring.requests ++ [url] }
  match web url with
  | .unreachable => throw .unreachable
  | .page status body =>
    match if isRefusal status then none else d.ofBytes? body with
    | some a => return a
    | none => throw .unusablePage

/-- Fetches a document of keys and remembers it. -/
def freshKeySet (web : Web) (url : String) : Fetch (List Jwk) := do
  let keys ← page web url keySetDecoder
  modify fun ring => { ring with keySets := ring.keySets.insert url keys }
  return keys

/-- The keys of a document; with `refresh` it is forgotten first. -/
def keySet (web : Web) (refresh : Bool) (url : String) : Fetch (List Jwk) := do
  if refresh then
    modify fun ring => { ring with keySets := ring.keySets.erase url }
  match (← get).keySets.get? url with
  | some keys => return keys
  | none => freshKeySet web url

/-- Where the discovery document of an issuer says that its keys are. -/
def keySetUrl (web : Web) (issuer : Issuer) : Fetch String := do
  match (← get).keySetUrls.get? issuer.discoveryUrl with
  | some url => return url
  | none =>
    let d ← page web issuer.discoveryUrl Discovery.decoder
    if d.issuer = issuer.issuerUrl then
      modify fun ring =>
        { ring with keySetUrls := ring.keySetUrls.insert issuer.discoveryUrl d.keySetUrl }
      return d.keySetUrl
    else throw (.foreignDiscovery issuer.issuerUrl d.issuer)

/-- The keys of a list of trust anchors, in order. -/
def anchorKeys (web : Web) (refresh : Bool) : List TrustAnchor → Fetch (List Jwk)
  | [] => return []
  | .key k :: rest => return k :: (← anchorKeys web refresh rest)
  | .keySet url :: rest => do
    let keys ← keySet web refresh url
    return keys ++ (← anchorKeys web refresh rest)

/-- The keys of an issuer: those of its trust anchors or, when it has none, those that
its discovery document leads to. -/
def issuerKeys (web : Web) (refresh : Bool) (issuer : Issuer) : Fetch (List Jwk) :=
  match issuer.trustAnchors with
  | [] => do keySet web refresh (← keySetUrl web issuer)
  | anchors => anchorKeys web refresh anchors

end Fetch
end Federation.Keys
