import Federation.Authenticator
import Federation.Proofs.Jwt
import Federation.Proofs.Keys.Transparency

/-!
# Answers that do not depend on what was asked before

An authenticator that takes one request after another keeps what it has fetched.  Its
answers are those of authenticators that have fetched nothing, whatever is asked and
whenever it is told to forget, for every set in which no issuer leans on the discovery
document of another one (`Authenticator.serve_eq_serveAnew`).

The condition is needed.  Two issuers may be registered with one discovery document,
which names only one of them; once a token of that one has been decoded, the tokens of
the other are verified with its keys, and no longer refused
(`Authenticator.serve_ne_serveAnew`).
-/

namespace Federation

open Keys

variable {web : Web} {s : BindingSet}

/-! ### One request -/

theorem Jwt.findKey_settled (hs : s.Undivided web) {i : Issuer} {url : String}
    (hi : s.issuer? url = some i) (algorithm : Jwt.Algorithm) (kid : Option String) :
  Fetch.Settled (KeyRing.Founded web s) (Jwt.findKey web i algorithm kid)
  := by
  rw [Jwt.findKey]
  apply Fetch.Settled.bind (Fetch.issuerKeys_settled hs hi false)
  intro keys _
  split
  · apply Fetch.Settled.pure
  · split
    · apply Fetch.Settled.bind (Fetch.issuerKeys_settled hs hi true)
      intro keys' _
      split
      · apply Fetch.Settled.pure
      · apply Fetch.Settled.throw
    · apply Fetch.Settled.throw

theorem Jwt.decode_settled (hs : s.Undivided web) (verifies : Jwt.Verifier)
    (accepted : Jwt.Accepted) (now : Instant) (raw : String) :
  Fetch.Settled (KeyRing.Founded web s) (Jwt.decode verifies web accepted now raw s)
  := by
  rw [Jwt.decode]
  cases hinspect : Jwt.inspect accepted raw s with
  | error e => apply ((Fetch.SettlesAt.lift (.error e)).bind_error _).settled
  | ok p =>
    obtain ⟨url, -, hissuer⟩ := (Jwt.readFrom_of_inspect hinspect).issuer
    apply Fetch.Settled.bind (Fetch.Settled.lift (.ok p))
    intro p' hp'
    cases (hp' {} KeyRing.Founded.empty).1
    apply Fetch.Settled.bind
      (Jwt.findKey_settled hs hissuer p.header.algorithm p.header.kid)
    intro k _
    apply Fetch.Settled.lift

namespace Authenticator

theorem decode_settled (hs : s.Undivided web) (a : Authenticator) (now : Instant)
    (format : TokenFormat) (raw : String) :
  Fetch.Settled (KeyRing.Founded web s) (a.decode web now format raw s)
  := by
  rw [decode]
  split
  · apply Fetch.Settled.throw
  · apply Fetch.Settled.lift
  · apply Jwt.decode_settled hs

/-! ### Runs -/

/-- What an authenticator is asked for. -/
inductive Request where
  /-- The identity that a token proves at a time. -/
  | decode (now : Instant) (format : TokenFormat) (raw : String)
  /-- To drop what it has fetched. -/
  | forget

/-- The answers of an authenticator that has fetched what is in the ring. -/
def serve (a : Authenticator) (web : Web) (s : BindingSet) :
    KeyRing → List Request → List (Except TokenError IdentityToken)
  | _, [] => []
  | ring, .decode now format raw :: rest =>
    let answered := (a.decode web now format raw s).run.run ring
    answered.1 :: a.serve web s answered.2 rest
  | ring, .forget :: rest => a.serve web s ring.forget rest

/-- The answers of authenticators each of which has fetched nothing. -/
def serveAnew (a : Authenticator) (web : Web) (s : BindingSet) :
    List Request → List (Except TokenError IdentityToken)
  | [] => []
  | .decode now format raw :: rest =>
    ((a.decode web now format raw s).run.run {}).1 :: a.serveAnew web s rest
  | .forget :: rest => a.serveAnew web s rest

theorem serve_eq_serveAnew_of_founded (hs : s.Undivided web) (a : Authenticator)
    (requests : List Request) {ring : KeyRing} (hring : ring.Founded web s) :
  a.serve web s ring requests = a.serveAnew web s requests
  := by
  induction requests generalizing ring with
  | nil => rfl
  | cons request rest ih =>
    cases request with
    | forget => apply ih KeyRing.Founded.forget
    | decode now format raw =>
      have hdecode := decode_settled hs a now format raw
      rw [serve, serveAnew, hdecode.eq KeyRing.Founded.empty hring,
        ih (hdecode.invariant hring)]

/-- What was fetched before makes no difference, unless an issuer is known by the
discovery document of another one. -/
theorem serve_eq_serveAnew (hs : s.Undivided web) (a : Authenticator)
    (requests : List Request) :
  a.serve web s {} requests = a.serveAnew web s requests
  := serve_eq_serveAnew_of_founded hs a requests KeyRing.Founded.empty

end Authenticator

/-! ### Two issuers with the same keys -/

namespace Sample

/-- An issuer beside the first one. -/
def neighbour (discoveryUrl : String) : Issuer where
  id := "sts"
  discoveryUrl := discoveryUrl
  issuerUrl := "https://sts.example"
  audiences := .ofList ["vault"]

def neighbourGroup : BindingGroup where
  issuer := "sts"
  environments := ["prod"]
  operations := ["plan"]
  subjectTemplate := "\x7boperation\x7d"
  policy := "deploy"
  keyPrefix := some "sts"

def registryWith (discoveryUrl : String) : Registry := registry.replace (neighbour discoveryUrl)

def setWith (discoveryUrl : String) : BindingSet :=
  (compileAt (registryWith discoveryUrl) policies 1
    [group, neighbourGroup]).toOption.getD .empty

/-- The web of a list of pages. -/
def pages (l : List (String × Json)) : Web := fun url =>
  match l.lookup url with
  | some body => .page 200 (body.compactChars.flatMap String.utf8EncodeChar)
  | none => .unreachable

/-- A page with the key that the sample token is signed with. -/
def keyPage : String × Json :=
  ("https://sts.example/keys", .object [("keys", .array [Jwt.Sample.key.toJson])])

/-- A discovery document that leads to this page. -/
def discoveryPage (discoveryUrl issuerUrl : String) : String × Json :=
  (discoveryUrl, .object
    [("issuer", .string issuerUrl), ("jwks_uri", .string "https://sts.example/keys")])

/-- A token of the neighbour, with an empty signature. -/
def unsigned : String := String.ofList
  (Base64Url.encodeChars (Utf8.encode "\x7b\"alg\":\"ES256\",\"kid\":\"k1\"\x7d")
    ++ '.' :: Base64Url.encodeChars (Utf8.encode "\x7b\"iss\":\"https://sts.example\"\x7d")
    ++ ['.'])

def bridge : Authenticator := .ofList [.jwt .default]

/-- A token of the neighbour, and then one of the first issuer. -/
def requests : List Authenticator.Request :=
  [.decode .epoch .jwt unsigned, .decode .epoch .jwt Jwt.Sample.raw]

/-- The neighbour and the first issuer have discovery documents of their own, which lead to
the same keys. -/
def apartWeb : Web := pages
  [discoveryPage issuer.discoveryUrl issuer.issuerUrl,
    discoveryPage "https://sts.example/about" "https://sts.example", keyPage]

theorem undivided_setWith :
  (setWith "https://sts.example/about").Undivided apartWeb
  := by
  have hvalues : (setWith "https://sts.example/about").issuers.values
      = [issuer, neighbour "https://sts.example/about"] := by decide +kernel
  have hknown : ∀ i, (setWith "https://sts.example/about").Discovers i →
      i = issuer ∨ i = neighbour "https://sts.example/about" := by
    rintro i ⟨hknown, -⟩
    simpa [hvalues] using (StringMap.mem_values_iff _ i).mpr hknown
  intro i j _ hi hj hurl _
  rcases hknown i hi with rfl | rfl <;> rcases hknown j hj with rfl | rfl
  · rfl
  · simp [issuer, neighbour] at hurl
  · simp [issuer, neighbour] at hurl
  · rfl

end Sample

namespace Authenticator

theorem serve_eq_serveAnew_sample :
  (Sample.setWith "https://sts.example/about").Undivided Sample.apartWeb
    ∧ Sample.bridge.serve Sample.apartWeb (Sample.setWith "https://sts.example/about") {}
        (Sample.requests ++ .forget :: Sample.requests)
      = Sample.bridge.serveAnew Sample.apartWeb (Sample.setWith "https://sts.example/about")
        (Sample.requests ++ .forget :: Sample.requests)
  := by
  constructor
  · apply Sample.undivided_setWith
  · apply serve_eq_serveAnew Sample.undivided_setWith

/-- Once the discovery document that two issuers have in common was read for the one that
it names, the keys of this one verify the tokens of the other. -/
theorem serve_ne_serveAnew :
  compileAt (Sample.registryWith Sample.issuer.discoveryUrl) Sample.policies 1
      [Sample.group, Sample.neighbourGroup] = .ok (Sample.setWith Sample.issuer.discoveryUrl)
    ∧ Sample.bridge.serve
        (Sample.pages [Sample.discoveryPage Sample.issuer.discoveryUrl "https://sts.example",
          Sample.keyPage])
        (Sample.setWith Sample.issuer.discoveryUrl) {} Sample.requests
      = [.error .invalidSignature, .ok Jwt.Sample.token]
    ∧ Sample.bridge.serveAnew
        (Sample.pages [Sample.discoveryPage Sample.issuer.discoveryUrl "https://sts.example",
          Sample.keyPage])
        (Sample.setWith Sample.issuer.discoveryUrl) Sample.requests
      = [.error .invalidSignature,
        .error (.foreignDiscovery "https://ci.example" "https://sts.example")]
  := by
  refine ⟨?_, ?_, ?_⟩
  · have hok : (compileAt (Sample.registryWith Sample.issuer.discoveryUrl) Sample.policies 1
        [Sample.group, Sample.neighbourGroup]).isOk = true := by decide +kernel
    apply eq_ok_getD_of_isOk hok
  · simp only [Sample.requests, serve, decode, Jwt.decode, Jwt.inspect, Jwt.verifyWith,
      Sample.unsigned, Jwt.Sample.raw, String.toList_ofList, Utf8.encode]
    decide +kernel
  · simp only [Sample.requests, serveAnew, decode, Jwt.decode, Jwt.inspect, Jwt.verifyWith,
      Sample.unsigned, Jwt.Sample.raw, String.toList_ofList, Utf8.encode]
    decide +kernel

end Authenticator
end Federation
