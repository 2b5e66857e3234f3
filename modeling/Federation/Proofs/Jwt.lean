import Federation.Jwt
import Federation.Proofs.Evaluate
import Federation.Proofs.Json.Indented
import Federation.Proofs.Keys
import Federation.Proofs.Token

/-!
# What a verified token proves

A token is accepted only when its header names one of the configured algorithms, none
with a shared secret, and a key that its issuer supplies verifies the signature of
header and payload; the issuer is one that the set knows, and the identity is what the
signed payload states (`decode_sound`).  This holds whatever was fetched before: every
ring that can be reached is faithful to the web (`faithful_of_reachable`).
-/

namespace Federation.Jwt

open Keys

variable {verifies : Verifier} {web : Web}

/-! ### Reading -/

theorem orFail_eq_ok_iff {α : Type} {e : TokenError} {o : Option α} {a : α} :
  orFail e o = .ok a ↔ o = some a
  := by
  cases o <;> simp [orFail]

/-- What is presented is what the text holds, for an accepted algorithm and an issuer
that the set knows. -/
structure Presented.ReadFrom (p : Presented) (accepted : Accepted) (raw : String)
    (s : BindingSet) : Prop where
  token : Compact.ofChars? raw.toList = some p.token
  header : p.token.header? = some p.header
  algorithm : p.header.algorithm ∈ accepted.algorithms
  payload : p.token.payload? = some p.payload
  issuer : ∃ url, p.payload.claims.issuer = some url ∧ s.issuer? url = some p.issuer

theorem readFrom_of_inspect {accepted : Accepted} {raw : String} {s : BindingSet} {p : Presented}
    (h : inspect accepted raw s = .ok p) :
  p.ReadFrom accepted raw s
  := by
  rw [inspect] at h
  obtain ⟨token, htoken, h⟩ := bind_eq_ok_iff.mp h
  obtain ⟨header, hheader, h⟩ := bind_eq_ok_iff.mp h
  obtain ⟨halgorithm, h⟩ := check_eq_ok_iff.mp h
  obtain ⟨payload, hpayload, h⟩ := bind_eq_ok_iff.mp h
  obtain ⟨url, hurl, h⟩ := bind_eq_ok_iff.mp h
  obtain ⟨issuer, hissuer, hp⟩ := bind_eq_ok_iff.mp h
  cases hp
  constructor
  · apply orFail_eq_ok_iff.mp htoken
  · apply orFail_eq_ok_iff.mp hheader
  · apply of_not_not halgorithm
  · apply orFail_eq_ok_iff.mp hpayload
  · use url
    constructor
    · apply ClaimSet.required_eq_ok_iff.mp hurl
    · apply orFail_eq_ok_iff.mp hissuer

theorem exists_key_of_verifyWith {now : Instant} {p : Presented} {k : Jwk} {token : IdentityToken}
    (h : verifyWith verifies now p k = .ok token) :
  (∃ key signature, publicKey k = .ok key ∧ Base64Url.decode? p.token.signature = some signature
    ∧ verifies p.header.algorithm (Utf8.encode (String.ofList p.token.signedPart)) signature key)
    ∧ p.payload.claims.toToken now none = .ok token
  := by
  rw [verifyWith] at h
  obtain ⟨key, hkey, h⟩ := bind_eq_ok_iff.mp h
  obtain ⟨signature, hsignature, h⟩ := bind_eq_ok_iff.mp h
  obtain ⟨hverifies, h⟩ := check_eq_ok_iff.mp h
  obtain ⟨-, h⟩ := check_eq_ok_iff.mp h
  obtain ⟨-, -, h⟩ := bind_eq_ok_iff.mp h
  obtain ⟨-, h⟩ := check_eq_ok_iff.mp h
  constructor
  · use key, signature, hkey, orFail_eq_ok_iff.mp hsignature
    simpa using hverifies
  · apply h

/-! ### Fetching -/

theorem findKey_yields (issuer : Issuer) (algorithm : Algorithm) (kid : Option String) :
  Fetch.Yields web (findKey web issuer algorithm kid) fun k =>
    Supplies web issuer k ∧ fits algorithm kid k
  := by
  have hfound : ∀ keys : List Jwk, (∀ k ∈ keys, Supplies web issuer k) →
      ∀ k, keys.find? (fits algorithm kid) = some k →
        Supplies web issuer k ∧ fits algorithm kid k := by
    intro keys hkeys k hk
    constructor
    · apply hkeys k (List.mem_of_find?_eq_some hk)
    · apply List.find?_some hk
  rw [findKey]
  apply Fetch.Yields.bind (Fetch.issuerKeys_yields false issuer)
  intro keys hkeys
  split
  · rename_i k hk
    apply Fetch.Yields.pure
    apply hfound keys hkeys k hk
  · split
    · apply Fetch.Yields.bind (Fetch.issuerKeys_yields true issuer)
      intro keys' hkeys'
      split
      · rename_i k hk
        apply Fetch.Yields.pure
        apply hfound keys' hkeys' k hk
      · apply Fetch.Yields.throw
    · apply Fetch.Yields.throw

/-- A token is verified with a key that its issuer supplies. -/
theorem decode_yields (accepted : Accepted) (now : Instant) (raw : String) (s : BindingSet) :
  Fetch.Yields web (decode verifies web accepted now raw s) fun token =>
    ∃ p k, p.ReadFrom accepted raw s ∧ Supplies web p.issuer k
      ∧ fits p.header.algorithm p.header.kid k ∧ verifyWith verifies now p k = .ok token
  := by
  rw [decode]
  apply Fetch.Yields.bind (Fetch.Yields.lift (inspect accepted raw s))
  intro p hp
  apply Fetch.Yields.bind (findKey_yields p.issuer p.header.algorithm p.header.kid)
  intro k hk
  apply Fetch.Yields.mono (Fetch.Yields.lift (verifyWith verifies now p k))
  intro token htoken
  use p, k, readFrom_of_inspect hp, hk.1, hk.2

/-- The rings that a verifier of tokens can have: it begins with nothing, decodes any
texts for any sets at any time, is told to forget, and forgets entries by itself. -/
inductive Reachable (verifies : Verifier) (web : Web) (accepted : Accepted) : KeyRing → Prop where
  | fresh : Reachable verifies web accepted {}
  | decode {ring : KeyRing} (h : Reachable verifies web accepted ring) (now : Instant)
      (raw : String) (s : BindingSet) :
    Reachable verifies web accepted
      ((Jwt.decode verifies web accepted now raw s).run.run ring).2
  | forget {ring : KeyRing} (h : Reachable verifies web accepted ring) :
    Reachable verifies web accepted ring.forget
  | lapse {ring ring' : KeyRing} (h : Reachable verifies web accepted ring)
      (hsets : ∀ url keys, ring'.keySets.get? url = some keys → ring.keySets.get? url = some keys)
      (hurls : ∀ url keySetUrl, ring'.keySetUrls.get? url = some keySetUrl →
        ring.keySetUrls.get? url = some keySetUrl) :
    Reachable verifies web accepted ring'

theorem faithful_of_reachable {accepted : Accepted} {ring : KeyRing}
    (h : Reachable verifies web accepted ring) :
  ring.Faithful web
  := by
  induction h with
  | fresh => apply KeyRing.Faithful.empty
  | decode _ now raw s ih => apply (decode_yields accepted now raw s _ ih).1
  | forget _ ih =>
    constructor
    · apply KeyRing.Faithful.empty.keySets
    · apply KeyRing.Faithful.empty.keySetUrls
  | lapse _ hsets hurls ih => apply ih.of_subset hsets hurls

/-! ### Soundness -/

/-- A key that an issuer supplies, and that fits the header of a token, verifies the
signature of its header and payload. -/
def SignedBy (verifies : Verifier) (web : Web) (issuer : Issuer) (header : Header)
    (t : Compact) : Prop :=
  ∃ k key signature, Supplies web issuer k
    ∧ k.kty = header.algorithm.keyType
    ∧ (k.keyUse = none ∨ k.keyUse = some "sig")
    ∧ (∀ kid, header.kid = some kid → k.kid = some kid)
    ∧ publicKey k = .ok key
    ∧ Base64Url.decode? t.signature = some signature
    ∧ verifies header.algorithm (Utf8.encode (String.ofList t.signedPart)) signature key = true

/-- The payload of a token is an object with the given members. -/
def Compact.Carries (t : Compact) (members : List (Option String × Json.Document)) : Prop :=
  ∃ bytes, Base64Url.decode? t.payload = some bytes
    ∧ Json.Document.parseBytes? bytes = some (.object members)

theorem fits_iff {algorithm : Algorithm} {kid : Option String} {k : Jwk} :
  fits algorithm kid k = true
    ↔ k.kty = algorithm.keyType ∧ (k.keyUse = none ∨ k.keyUse = some "sig")
      ∧ ∀ name, kid = some name → k.kid = some name
  := by
  rw [fits]
  cases k.keyUse <;> cases kid <;> simp [and_assoc]

/-- What is used of a payload is what the members of the object give that its text is. -/
theorem Compact.exists_members_of_payload? {t : Compact} {payload : Payload}
    (h : t.payload? = some payload) :
  ∃ text members, t.payloadText? = some text
    ∧ Json.Document.parse? text = some (.object members)
    ∧ Json.Decoder.ofText? ClaimSet.decoder text = some payload.claims
    ∧ payload.claims.ReadFrom (Json.Document.maxDepth - 1) members
  := by
  obtain ⟨text, htext, hread⟩ := Option.bind_eq_some_iff.mp h
  obtain ⟨doc, hdoc, hread⟩ := Option.bind_eq_some_iff.mp hread
  simp only [Json.Decoder.run, Payload.decoder, Option.bind_eq_bind, Option.bind_eq_some_iff,
    Option.some.injEq] at hread
  obtain ⟨claims, hclaims, notBefore, -, rfl⟩ := hread
  obtain ⟨members, rfl, hmembers⟩ := ClaimSet.readFrom_of_decoder hclaims
  refine ⟨text, members, htext, hdoc, ?_, hmembers⟩
  rw [Json.Decoder.ofText?, hdoc]
  exact hclaims

/-- What is used of a payload is what its members give. -/
theorem Compact.exists_carries_of_payload? {t : Compact} {payload : Payload}
    (h : t.payload? = some payload) :
  ∃ members, t.Carries members ∧ payload.claims.ReadFrom (Json.Document.maxDepth - 1) members
  := by
  obtain ⟨text, members, htext, hdoc, -, hmembers⟩ := Compact.exists_members_of_payload? h
  obtain ⟨bytes, hbytes, hdecode⟩ := Option.bind_eq_some_iff.mp htext
  refine ⟨members, ⟨bytes, hbytes, ?_⟩, hmembers⟩
  rw [Json.Document.parseBytes?_of_decode? hdecode, hdoc]

/-- A token that is accepted was signed, with a configured algorithm that has no shared
secret, by a key of an issuer of the compiled set, and the identity is the one that its
payload states. -/
theorem decode_sound {registry : Registry} {policies : PolicyStore} {revision : UInt64}
    {groups : List BindingGroup} {s : BindingSet}
    (hs : compileAt registry policies revision groups = .ok s)
    {algorithms : List Algorithm} {ring : KeyRing}
    (hring : Reachable verifies web (.ofList algorithms) ring)
    {now : Instant} {raw : String} {token : IdentityToken}
    (h : ((decode verifies web (.ofList algorithms) now raw s).run.run ring).1 = .ok token) :
  ∃ t header issuer members,
    Compact.ofChars? raw.toList = some t
    ∧ t.header? = some header
    ∧ header.algorithm ∈ algorithms
    ∧ header.algorithm ∉ [Algorithm.hs256, .hs384, .hs512]
    ∧ s.issuer? token.issuer = some issuer
    ∧ issuer.issuerUrl = token.issuer
    ∧ SignedBy verifies web issuer header t
    ∧ t.Carries members
    ∧ token.StatedBy now members
  := by
  obtain ⟨p, k, hp, hk, hfits, hverify⟩ :=
    (decode_yields _ now raw s ring (faithful_of_reachable hring)).2 token h
  obtain ⟨⟨key, signature, hkey, hsignature, hverifies⟩, htoken⟩ :=
    exists_key_of_verifyWith hverify
  obtain ⟨members, hcarries, hread⟩ := Compact.exists_carries_of_payload? hp.payload
  obtain ⟨url, hurl, hissuer⟩ := hp.issuer
  have heq : url = token.issuer := by
    have hissuer' := (ClaimSet.eq_of_toToken htoken).1
    rw [hurl] at hissuer'
    cases hissuer'
    rfl
  subst heq
  obtain ⟨hmem, hasymmetric⟩ := List.mem_filter.mp hp.algorithm
  use p.token, p.header, p.issuer, members
  refine ⟨hp.token, hp.header, hmem, ?_, hissuer, issuerUrl_of_issuer? hs hissuer, ?_, hcarries,
    statedBy_of_toToken hread htoken⟩
  · simpa [Algorithm.isSymmetric, and_assoc] using hasymmetric
  · obtain ⟨hkty, huse, hkid⟩ := fits_iff.mp hfits
    exact ⟨k, key, signature, hk, hkty, huse, hkid, hkey, hsignature, hverifies⟩

/-! ### A signed token -/

namespace Sample

/-- A key that is given with the issuer. -/
def key : Jwk where
  kid := some "k1"
  kty := "EC"
  alg := none
  keyUse := some "sig"
  n := none
  e := none
  crv := some "P-256"
  x := some "9kHxcjpt5zAUPSBrJw003eD8TbtwC9KplDrOrNQQ4jE"
  y := some "fg91YG7wdQ82rWzMgB0Sa1jX7Dmo19KQ_Tyg35CojFY"

def registry : Registry :=
  Registry.empty.replace { Federation.Sample.issuer with trustAnchors := [.key key] }

def set : BindingSet :=
  (compileAt registry Federation.Sample.policies 1 [Federation.Sample.group]).toOption.getD .empty

theorem compileAt_eq_set :
  compileAt registry Federation.Sample.policies 1 [Federation.Sample.group] = .ok set
  := by
  have hok : (compileAt registry Federation.Sample.policies 1
      [Federation.Sample.group]).isOk = true := by decide +kernel
  apply eq_ok_getD_of_isOk hok

/-- The header and the payload of a token. -/
def message : List Char :=
  Base64Url.encodeChars (Utf8.encode "\x7b\"alg\":\"ES256\",\"kid\":\"k1\"\x7d")
    ++ '.' :: Base64Url.encodeChars (Utf8.encode ("\x7b\"iss\":\"https://ci.example\"," ++
      "\"sub\":\"apply@dev\",\"aud\":\"vault\",\"exp\":60\x7d"))

/-- The two halves of the signature, which are alike. -/
def half : Bytes :=
  [0xb0, 0x9b, 0x93, 0xe7, 0x81, 0x19, 0xd2, 0xba, 0x35, 0x14, 0xb8, 0xcf, 0x17, 0xad, 0x33, 0x28,
    0x6e, 0x28, 0xd0, 0x0e, 0xbe, 0x1d, 0x5e, 0xed, 0x24, 0xcb, 0x80, 0x17, 0xb0, 0x8e, 0xaa, 0xae]

/-- The token, signed. -/
def raw : String := String.ofList (message ++ '.' :: Base64Url.encodeChars (half ++ half))

/-- The identity that the token proves at the beginning of 1970. -/
def token : IdentityToken where
  issuer := "https://ci.example"
  subject := "apply@dev"
  audience := .ofList ["vault"]
  expiry := .addMillis .epoch 60000
  issuedAt := .epoch

theorem decode_raw :
  ((decode PublicKey.verify (fun _ => .unreachable) (.ofList [.hs256, .es256]) .epoch raw
    set).run.run {}).1 = .ok token
  := by
  unfold decode inspect raw
  rw [String.toList_ofList]
  decide +kernel

end Sample

theorem decode_sound_sample :
  ∃ t header issuer members,
    Compact.ofChars? Sample.raw.toList = some t
    ∧ t.header? = some header
    ∧ header.algorithm ∈ [Algorithm.hs256, .es256]
    ∧ header.algorithm ∉ [Algorithm.hs256, .hs384, .hs512]
    ∧ Sample.set.issuer? "https://ci.example" = some issuer
    ∧ issuer.issuerUrl = "https://ci.example"
    ∧ SignedBy PublicKey.verify (fun _ => .unreachable) issuer header t
    ∧ t.Carries members
    ∧ Sample.token.StatedBy .epoch members
  := by
  apply decode_sound Sample.compileAt_eq_set .fresh Sample.decode_raw

end Federation.Jwt
