import Federation.Proofs.Issuer.Registered
import Federation.Proofs.Jwt

/-!
# Where keys are fetched from

A computation asks only for URLs of a kind when these are the only ones it adds to the
requests of a ring that is faithful to the web.  For the keys of an issuer only its
discovery document is asked for, and the documents of keys that its trust anchors name or
its discovery document leads to (`KeySetUrl`).

The discovery document of a registered issuer is reached over a protected channel
(`isProtectedUrl_of_issuer?`).  Main statement: so is everything that decoding a token asks
for, apart from documents of keys (`requests_of_decode`).  These are not checked:
they are asked for over an open channel if an anchor says so (`requests_of_decode_open`).
-/

namespace Federation

open Keys

variable {α β : Type} {web : Web}

namespace Keys

/-- The documents that the keys of an issuer stand in. -/
inductive KeySetUrl (web : Web) (issuer : Issuer) : String → Prop where
  /-- A document that a trust anchor names. -/
  | anchored {url : String} (h : .keySet url ∈ issuer.trustAnchors) : KeySetUrl web issuer url
  /-- The document that the discovery document leads to. -/
  | advertised {d : Discovery} (h : issuer.trustAnchors = [])
      (hpage : web.Shows issuer.discoveryUrl Discovery.decoder d) :
    KeySetUrl web issuer d.keySetUrl

namespace Fetch

/-- A computation adds only requests for URLs of a kind. -/
def Asks (web : Web) (m : Fetch α) (kind : String → Prop) : Prop :=
  ∀ ring, ring.Faithful web →
    ∃ more, (m.run.run ring).2.requests = ring.requests ++ more ∧ ∀ url ∈ more, kind url

variable {kind : String → Prop}

/-! ### Steps -/

/-- A computation that leaves the requests as they are asks for nothing. -/
theorem Asks.of_requests_eq {m : Fetch α}
    (h : ∀ ring, (m.run.run ring).2.requests = ring.requests) :
  Asks web m kind
  := by
  intro ring _
  use []
  constructor
  · rw [h, List.append_nil]
  · intro url hurl
    cases hurl

theorem Asks.pure (a : α) :
  Asks web (Pure.pure a) kind
  := Asks.of_requests_eq fun _ => rfl

theorem Asks.throw (e : TokenError) :
  Asks web (MonadExcept.throw e : Fetch α) kind
  := Asks.of_requests_eq fun _ => rfl

theorem Asks.lift (x : Except TokenError α) :
  Asks web (liftM x) kind
  := by
  apply Asks.of_requests_eq
  intro ring
  cases x <;> rfl

theorem Asks.get :
  Asks web MonadState.get kind
  := Asks.of_requests_eq fun _ => rfl

/-- A step asks for what it asks for itself and what the computation after it asks for. -/
theorem Asks.bind {m : Fetch α} {f : α → Fetch β} {post : α → Prop} (hm : Asks web m kind)
    (hyields : Yields web m post) (hf : ∀ a, post a → Asks web (f a) kind) :
  Asks web (m >>= f) kind
  := by
  intro ring hring
  obtain ⟨more, hmore, hkind⟩ := hm ring hring
  obtain ⟨hring', hpost⟩ := hyields ring hring
  rw [ExceptT.run_bind, StateT.run_bind]
  rcases hrun : m.run.run ring with ⟨r, ring'⟩
  rw [hrun] at hmore hring' hpost
  cases r with
  | error e =>
    use more
    constructor
    · apply hmore
    · apply hkind
  | ok a =>
    obtain ⟨more', hmore', hkind'⟩ := hf a (hpost a rfl) ring' hring'
    use more ++ more'
    constructor
    · rw [← List.append_assoc, ← hmore]
      apply hmore'
    · intro url hurl
      rcases List.mem_append.mp hurl with hurl | hurl
      · apply hkind url hurl
      · apply hkind' url hurl

/-- A change of what is remembered asks for nothing. -/
theorem Asks.modify_bind {f : KeyRing → KeyRing} {m : Unit → Fetch α}
    (hrequests : ∀ ring, (f ring).requests = ring.requests)
    (hfaithful : ∀ ring, ring.Faithful web → (f ring).Faithful web)
    (hm : Asks web (m ()) kind) :
  Asks web (modify f >>= m) kind
  := by
  apply Asks.bind (Asks.of_requests_eq ?_) (Yields.modify hfaithful)
  · intro _ _
    apply hm
  · intro ring
    apply hrequests ring

/-! ### What is asked for -/

theorem page_asks {url : String} (h : kind url) (d : Json.Decoder α) :
  Asks web (page web url d) kind
  := by
  intro ring _
  use [url]
  constructor
  · simp only [page, ExceptT.run_bind, StateT.run_bind]
    cases hresponse : web url with
    | unreachable => rfl
    | page status body =>
      simp only
      split <;> rfl
  · intro url' hurl'
    rw [List.mem_singleton.mp hurl']
    apply h

theorem keySet_asks (refresh : Bool) {url : String} (h : kind url) :
  Asks web (keySet web refresh url) kind
  := by
  have hfresh : Asks web (freshKeySet web url) kind := by
    apply Asks.bind (page_asks h keySetDecoder) (page_yields url keySetDecoder)
    intro keys hkeys
    apply Asks.modify_bind
    · intro ring
      rfl
    · intro ring hring
      apply hring.insert_keySet hkeys
    · apply Asks.pure
  have hlookup : Asks web (keySet web false url) kind := by
    apply Asks.bind Asks.get Yields.get
    intro ring _
    cases ring.keySets.get? url with
    | none => apply hfresh
    | some keys => apply Asks.pure
  cases refresh with
  | false => apply hlookup
  | true =>
    apply Asks.modify_bind
    · intro ring
      rfl
    · intro ring hring
      apply hring.erase_keySet url
    · apply hlookup

theorem keySetUrl_asks {issuer : Issuer} (h : kind issuer.discoveryUrl) :
  Asks web (keySetUrl web issuer) kind
  := by
  apply Asks.bind Asks.get Yields.get
  intro ring _
  cases ring.keySetUrls.get? issuer.discoveryUrl with
  | some url => apply Asks.pure
  | none =>
    apply Asks.bind (page_asks h Discovery.decoder)
      (page_yields issuer.discoveryUrl Discovery.decoder)
    intro d hd
    split
    · apply Asks.modify_bind
      · intro ring
        rfl
      · intro ring hring
        apply hring.insert_keySetUrl hd
      · apply Asks.pure
    · apply Asks.throw

/-- For trust anchors the documents that they name are asked for. -/
theorem anchorKeys_asks (refresh : Bool) {anchors : List TrustAnchor}
    (h : ∀ url, .keySet url ∈ anchors → kind url) :
  Asks web (anchorKeys web refresh anchors) kind
  := by
  induction anchors with
  | nil => apply Asks.pure
  | cons anchor anchors ih =>
    have hrest := ih fun url hurl => h url (List.mem_cons_of_mem _ hurl)
    cases anchor with
    | key k =>
      apply Asks.bind hrest (anchorKeys_yields refresh anchors)
      intro keys _
      apply Asks.pure
    | keySet url =>
      apply Asks.bind (keySet_asks refresh (h url List.mem_cons_self)) (keySet_yields refresh url)
      intro page _
      apply Asks.bind hrest (anchorKeys_yields refresh anchors)
      intro keys _
      apply Asks.pure

/-- For the keys of an issuer only its discovery document and its documents of keys are
asked for. -/
theorem issuerKeys_asks (refresh : Bool) {issuer : Issuer} (hdiscovery : kind issuer.discoveryUrl)
    (hkeys : ∀ url, KeySetUrl web issuer url → kind url) :
  Asks web (issuerKeys web refresh issuer) kind
  := by
  rw [issuerKeys]
  split
  · rename_i hanchors
    apply Asks.bind (keySetUrl_asks hdiscovery) (keySetUrl_yields issuer)
    rintro _ ⟨d, hd, rfl⟩
    apply keySet_asks refresh
    apply hkeys _ (.advertised hanchors hd)
  · apply anchorKeys_asks
    intro url hurl
    apply hkeys url (.anchored hurl)

end Fetch
end Keys

namespace Jwt

/-! ### Decoding -/

theorem findKey_asks {kind : String → Prop} {issuer : Issuer} (algorithm : Algorithm)
    (kid : Option String) (hdiscovery : kind issuer.discoveryUrl)
    (hkeys : ∀ url, KeySetUrl web issuer url → kind url) :
  Fetch.Asks web (findKey web issuer algorithm kid) kind
  := by
  rw [findKey]
  apply Fetch.Asks.bind (Fetch.issuerKeys_asks false hdiscovery hkeys)
    (Fetch.issuerKeys_yields false issuer)
  intro keys _
  split
  · apply Fetch.Asks.pure
  · split
    · apply Fetch.Asks.bind (Fetch.issuerKeys_asks true hdiscovery hkeys)
        (Fetch.issuerKeys_yields true issuer)
      intro keys' _
      split
      · apply Fetch.Asks.pure
      · apply Fetch.Asks.throw
    · apply Fetch.Asks.throw

/-- Decoding a token asks only for what the keys of issuers of the set need. -/
theorem decode_asks {kind : String → Prop} {s : BindingSet} (verifies : Verifier)
    (accepted : Accepted) (now : Instant) (raw : String)
    (hdiscovery : ∀ url i, s.issuer? url = some i → kind i.discoveryUrl)
    (hkeys : ∀ url i, s.issuer? url = some i → ∀ u, KeySetUrl web i u → kind u) :
  Fetch.Asks web (decode verifies web accepted now raw s) kind
  := by
  rw [decode]
  apply Fetch.Asks.bind (Fetch.Asks.lift _) (Fetch.Yields.lift (inspect accepted raw s))
  intro p hp
  obtain ⟨url, -, hissuer⟩ := (readFrom_of_inspect hp).issuer
  apply Fetch.Asks.bind _ (findKey_yields p.issuer p.header.algorithm p.header.kid)
  · intro k _
    apply Fetch.Asks.lift
  · apply findKey_asks
    · apply hdiscovery url p.issuer hissuer
    · apply hkeys url p.issuer hissuer

/-- Whatever was fetched before and whatever text is decoded against a set that was
compiled for registered issuers: each new request goes over a protected channel, or it is
for a document of keys of an issuer of the set. -/
theorem requests_of_decode {verifies : Verifier} {accepted : Accepted} {registry : Registry}
    {policies : PolicyStore} {revision : UInt64} {groups : List BindingGroup} {s : BindingSet}
    (hr : registry.Reachable) (hs : compileAt registry policies revision groups = .ok s)
    {ring : KeyRing} (hring : Reachable verifies web accepted ring) (now : Instant)
    (raw : String) :
  ∃ more,
    ((decode verifies web accepted now raw s).run.run ring).2.requests = ring.requests ++ more
    ∧ ∀ url ∈ more, IsProtectedUrl url
      ∨ ∃ i, s.issuer? i.issuerUrl = some i ∧ KeySetUrl web i url
  := by
  apply decode_asks _ _ _ _ _ _ ring (faithful_of_reachable hring)
  · intro url i hi
    left
    apply isProtectedUrl_of_issuer? hr hs hi
  · intro url i hi u hu
    right
    use i
    rw [issuerUrl_of_issuer? hs hi]
    exact ⟨hi, hu⟩

namespace Sample

/-- The registry with one issuer, which is registered. -/
def registryOf (i : Issuer) : Registry := (Registry.empty.register i).toOption.getD .empty

/-- The set of the bindings for this issuer. -/
def setOf (i : Issuer) : BindingSet :=
  (compileAt (registryOf i) Federation.Sample.policies 1
    [Federation.Sample.group]).toOption.getD .empty

/-- A discovery document of the issuer, and nothing else. -/
def discoveryWeb : Web := fun url =>
  if url = Federation.Sample.issuer.discoveryUrl then
    .page 200 (Utf8.encode ("\x7b\"issuer\":\"https://ci.example\"," ++
      "\"jwks_uri\":\"https://ci.example/keys\"\x7d"))
  else .unreachable

/-- The issuer with a trust anchor on another machine that is reached over HTTP. -/
def openIssuer : Issuer :=
  { Federation.Sample.issuer with trustAnchors := [.keySet "http://keys.ci.example/keys"] }

end Sample

theorem requests_of_decode_sample :
  Registry.empty.register Federation.Sample.issuer
      = .ok (Sample.registryOf Federation.Sample.issuer)
    ∧ compileAt (Sample.registryOf Federation.Sample.issuer) Federation.Sample.policies 1
      [Federation.Sample.group] = .ok (Sample.setOf Federation.Sample.issuer)
    ∧ ((decode PublicKey.verify Sample.discoveryWeb .default .epoch Sample.raw
        (Sample.setOf Federation.Sample.issuer)).run.run {}).2.requests
      = ["https://ci.example/.well-known/openid-configuration", "https://ci.example/keys"]
    ∧ ∃ more,
      ((decode PublicKey.verify Sample.discoveryWeb .default .epoch Sample.raw
        (Sample.setOf Federation.Sample.issuer)).run.run {}).2.requests = [] ++ more
      ∧ ∀ url ∈ more, IsProtectedUrl url
        ∨ ∃ i, (Sample.setOf Federation.Sample.issuer).issuer? i.issuerUrl = some i
          ∧ KeySetUrl Sample.discoveryWeb i url
  := by
  have hregister : Registry.empty.register Federation.Sample.issuer
      = .ok (Sample.registryOf Federation.Sample.issuer) := by
    have hok : (Registry.empty.register Federation.Sample.issuer).isOk = true := by decide +kernel
    apply eq_ok_getD_of_isOk hok
  have hcompile : compileAt (Sample.registryOf Federation.Sample.issuer)
      Federation.Sample.policies 1 [Federation.Sample.group]
      = .ok (Sample.setOf Federation.Sample.issuer) := by
    have hok : (compileAt (Sample.registryOf Federation.Sample.issuer)
        Federation.Sample.policies 1 [Federation.Sample.group]).isOk = true := by decide +kernel
    apply eq_ok_getD_of_isOk hok
  refine ⟨hregister, hcompile, ?_, ?_⟩
  · unfold decode inspect Sample.raw
    rw [String.toList_ofList]
    decide +kernel
  · apply requests_of_decode (Registry.Reachable.register .empty hregister) hcompile .fresh

/-- An issuer is registered whatever its trust anchors name, and what they name is asked
for. -/
theorem requests_of_decode_open :
  Registry.empty.register Sample.openIssuer = .ok (Sample.registryOf Sample.openIssuer)
    ∧ compileAt (Sample.registryOf Sample.openIssuer) Federation.Sample.policies 1
      [Federation.Sample.group] = .ok (Sample.setOf Sample.openIssuer)
    ∧ ((decode PublicKey.verify (fun _ => .unreachable) .default .epoch Sample.raw
        (Sample.setOf Sample.openIssuer)).run.run {}).2.requests
      = ["http://keys.ci.example/keys"]
    ∧ ¬ IsProtectedUrl "http://keys.ci.example/keys"
  := by
  refine ⟨?_, ?_, ?_, ?_⟩
  · have hok : (Registry.empty.register Sample.openIssuer).isOk = true := by decide +kernel
    apply eq_ok_getD_of_isOk hok
  · have hok : (compileAt (Sample.registryOf Sample.openIssuer) Federation.Sample.policies 1
        [Federation.Sample.group]).isOk = true := by decide +kernel
    apply eq_ok_getD_of_isOk hok
  · unfold decode inspect Sample.raw
    rw [String.toList_ofList]
    decide +kernel
  · have hparse : Url.parse "http://keys.ci.example/keys"
        = .ok ⟨"http", some (.name "keys.ci.example"), false⟩ := by decide +kernel
    rintro ⟨url, host, hurl, hhost, hprotected⟩
    rw [hparse] at hurl
    cases hurl
    cases hhost
    simp [loopbackHosts] at hprotected

end Jwt
end Federation
