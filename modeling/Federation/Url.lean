import Federation.Url.Host

/-!
# URLs

`Url.parse` reads an absolute URL as far as it matters for what it points to: its
scheme, its host and whether it has a fragment.  Blanks and control characters at the
ends and line breaks and tabs inside are passed over.  In the schemes for documents on
a network backslashes count as slashes and any number of slashes leads to the host.
-/

namespace Federation

/-- What an absolute URL points to. -/
structure Url where
  /-- The scheme, in lower case. -/
  scheme : String
  host : Option Host
  hasFragment : Bool
deriving DecidableEq

namespace Url

/-- How the host of a scheme is found. -/
inductive Kind where
  /-- A scheme for documents on a network. -/
  | network
  /-- The scheme of files. -/
  | file
  /-- Any other scheme. -/
  | other
deriving DecidableEq

/-- How the host of a scheme is found. -/
def Kind.of (scheme : String) : Kind :=
  if ["http", "https", "ws", "wss", "ftp"].contains scheme then .network
  else if scheme = "file" then .file
  else .other

/-- Takes off spaces and control characters at both ends, and tabs and line breaks
everywhere. -/
def clean (cs : List Char) : List Char :=
  let isEdge (c : Char) : Bool := c.toNat ≤ 32
  (((cs.dropWhile isEdge).reverse.dropWhile isEdge).reverse).filter fun c =>
    c ≠ '\t' && c ≠ '\n' && c ≠ '\r'

/-- Whether a character may stand in a scheme. -/
def isSchemeChar (c : Char) : Bool := c.isAlphanum || c = '+' || c = '-' || c = '.'

/-- The scheme in front of the first colon, in lower case, and what follows. -/
def scheme? (cs : List Char) : Option (String × List Char) :=
  let name := cs.takeWhile isSchemeChar
  match name, cs.drop name.length with
  | c :: _, ':' :: rest =>
    if c.isAlpha then some (String.ofList (name.map Char.toLower), rest) else none
  | _, _ => none

/-- Whether a character is a slash; a backslash counts where `special` says so. -/
def isSlash (special : Bool) (c : Char) : Bool := c = '/' || (special && c = '\\')

/-- Whether a character ends the part of a URL that holds the host. -/
def endsAuthority (special : Bool) (c : Char) : Bool := isSlash special c || c = '?' || c = '#'

/-- Takes off the user information in front of the last at sign, and says whether
there was any. -/
def dropUser (special : Bool) (cs : List Char) : Except UrlError (Bool × List Char) :=
  let authority := cs.takeWhile fun c => !endsAuthority special c
  let afterAt := authority.reverse.takeWhile (· ≠ '@')
  if afterAt.length = authority.length then .ok (false, cs)
  else
    let user := authority.take (authority.length - afterAt.length - 1)
    let rest := cs.drop (user.length + 1)
    if user.isEmpty ∧ rest.head?.any (endsAuthority special) then .error .emptyHost
    else .ok (!user.isEmpty && user != [':'], rest)

/-- The host in front of a port or a path; a colon in brackets belongs to it. -/
def spanHost (special : Bool) (bracket : Bool) : List Char → List Char × List Char
  | [] => ([], [])
  | c :: rest =>
    if endsAuthority special c || (c = ':' && !bracket) then ([], c :: rest)
    else
      let bracket := c = '[' || (bracket && c ≠ ']')
      let (host, after) := spanHost special bracket rest
      (c :: host, after)

/-- Whether what follows a host begins with an acceptable port or with none. -/
def portOk : List Char → Bool
  | ':' :: rest =>
    let (ds, after) := Digits.span rest
    Digits.ofDigits ds < 65536 && after.head?.all (endsAuthority true)
  | _ => true

/-- The host of the part of a URL after two slashes. -/
def authority (special : Bool) (cs : List Char) : Except UrlError (Option Host) := do
  let (user, cs) ← dropUser special cs
  let (text, rest) := spanHost special false cs
  if text.isEmpty then
    if special || rest.head? = some ':' then .error .emptyHost
    else if user then .error .emptyHost
    else .ok none
  else
    let host ← if special then Host.parse text else Host.parseOpaque text
    if portOk rest then .ok (some host) else .error .port

/-- Whether a text is the letter of a drive. -/
def isDrive : List Char → Bool
  | [c, d] => c.isAlpha && (d = ':' || d = '|')
  | _ => false

/-- The first segment of a path, behind its slash. -/
def firstSegment (cs : List Char) : List Char :=
  (match cs with
    | c :: rest => if isSlash true c then rest else cs
    | [] => []).takeWhile fun c => !endsAuthority true c

/-- The host of a file; a file of the machine itself and one on a drive have none. -/
def fileHost : List Char → Except UrlError (Option Host)
  | a :: b :: cs =>
    if isSlash true a && isSlash true b then do
      let text := cs.takeWhile fun c => !endsAuthority true c
      if text.isEmpty || isDrive text then .ok none
      else
        let host ← Host.parse text
        if host = .name "localhost" || isDrive (firstSegment (cs.drop text.length)) then .ok none
        else .ok (some host)
    else .ok none
  | _ => .ok none

/-- The host of what follows the scheme. -/
def hostAfter? (kind : Kind) (cs : List Char) : Except UrlError (Option Host) :=
  match kind with
  | .network => authority true (cs.dropWhile (isSlash true))
  | .file => fileHost cs
  | .other =>
    match cs with
    | '/' :: '/' :: rest => authority false rest
    | _ => .ok none

/-- Reads an absolute URL. -/
def parse (text : String) : Except UrlError Url :=
  match scheme? (clean text.toList) with
  | none => .error .relative
  | some (scheme, rest) => do
    let host ← hostAfter? (Kind.of scheme) rest
    .ok ⟨scheme, host, rest.contains '#'⟩

end Url
end Federation
