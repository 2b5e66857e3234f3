import Federation.Keys.Ring
import Mathlib.Tactic.Use

/-!
# Keys that an issuer supplies

`Supplies web issuer k` says where a key of an issuer may come from: it is given with
the issuer, or it stands on a page that a trust anchor names, or, when the issuer has no
trust anchors, on the page that its discovery document leads to.

A ring is faithful to the web when it remembers only what the pages say.  Every
computation that fetches keeps a ring faithful, and the keys that are fetched for an
issuer are keys that it supplies (`Fetch.issuerKeys_yields`).
-/

namespace Federation.Keys

variable {α β : Type} {web : Web}

/-- What a page says when it is not refused. -/
def Web.Shows (web : Web) (url : String) (d : Json.Decoder α) (a : α) : Prop :=
  ∃ status body, web url = .page status body ∧ isRefusal status = false
    ∧ d.ofBytes? body = some a

/-- The keys of an issuer. -/
inductive Supplies (web : Web) (issuer : Issuer) (k : Jwk) : Prop where
  /-- A key that is given. -/
  | pinned (h : .key k ∈ issuer.trustAnchors)
  /-- A key of a page that a trust anchor names. -/
  | listed {url : String} {keys : List Jwk} (h : .keySet url ∈ issuer.trustAnchors)
      (hpage : web.Shows url keySetDecoder keys) (hk : k ∈ keys)
  /-- A key of the page that the discovery document leads to. -/
  | discovered {d : Discovery} {keys : List Jwk} (h : issuer.trustAnchors = [])
      (hdiscovery : web.Shows issuer.discoveryUrl Discovery.decoder d)
      (hpage : web.Shows d.keySetUrl keySetDecoder keys) (hk : k ∈ keys)

/-- A ring that remembers only what the pages say. -/
structure KeyRing.Faithful (web : Web) (ring : KeyRing) : Prop where
  keySets : ∀ url keys, ring.keySets.get? url = some keys → web.Shows url keySetDecoder keys
  keySetUrls : ∀ url keySetUrl, ring.keySetUrls.get? url = some keySetUrl →
    ∃ d, web.Shows url Discovery.decoder d ∧ d.keySetUrl = keySetUrl

namespace KeyRing.Faithful

variable {ring : KeyRing}

theorem empty :
  ({} : KeyRing).Faithful web
  := by
  constructor
  · intro url keys h
    cases h
  · intro url keySetUrl h
    cases h

/-- A ring may forget what it remembers. -/
theorem of_subset (h : ring.Faithful web) {ring' : KeyRing}
    (hsets : ∀ url keys, ring'.keySets.get? url = some keys → ring.keySets.get? url = some keys)
    (hurls : ∀ url keySetUrl, ring'.keySetUrls.get? url = some keySetUrl →
      ring.keySetUrls.get? url = some keySetUrl) :
  ring'.Faithful web
  := by
  constructor
  · intro url keys hget
    apply h.keySets url keys (hsets url keys hget)
  · intro url keySetUrl hget
    apply h.keySetUrls url keySetUrl (hurls url keySetUrl hget)

theorem insert_keySet (h : ring.Faithful web) {url : String} {keys : List Jwk}
    (hpage : web.Shows url keySetDecoder keys) :
  { ring with keySets := ring.keySets.insert url keys }.Faithful web
  := by
  constructor
  · intro url' keys' hget
    rw [StringMap.get?_insert] at hget
    split at hget
    · rename_i heq
      cases hget
      rw [heq]
      apply hpage
    · apply h.keySets url' keys' hget
  · apply h.keySetUrls

theorem insert_keySetUrl (h : ring.Faithful web) {url : String} {d : Discovery}
    (hpage : web.Shows url Discovery.decoder d) :
  { ring with keySetUrls := ring.keySetUrls.insert url d.keySetUrl }.Faithful web
  := by
  constructor
  · apply h.keySets
  · intro url' keySetUrl hget
    rw [StringMap.get?_insert] at hget
    split at hget
    · rename_i heq
      cases hget
      rw [heq]
      use d
    · apply h.keySetUrls url' keySetUrl hget

theorem erase_keySet (h : ring.Faithful web) (url : String) :
  { ring with keySets := ring.keySets.erase url }.Faithful web
  := by
  apply h.of_subset
  · intro url' keys hget
    rw [StringMap.get?_erase] at hget
    split at hget
    · cases hget
    · apply hget
  · intro url' keySetUrl hget
    apply hget

end KeyRing.Faithful

/-! ### Computations that fetch -/

namespace Fetch

/-- A computation keeps a faithful ring faithful, and its results satisfy `post`. -/
def Yields (web : Web) (m : Fetch α) (post : α → Prop) : Prop :=
  ∀ ring, ring.Faithful web →
    (m.run.run ring).2.Faithful web ∧ ∀ a, (m.run.run ring).1 = .ok a → post a

theorem Yields.pure {post : α → Prop} {a : α} (h : post a) :
  Yields web (Pure.pure a) post
  := by
  intro ring hring
  constructor
  · apply hring
  · rintro _ ⟨rfl⟩
    apply h

theorem Yields.throw (e : TokenError) (post : α → Prop) :
  Yields web (MonadExcept.throw e) post
  := by
  intro ring hring
  constructor
  · apply hring
  · rintro _ ⟨⟩

theorem Yields.lift (x : Except TokenError α) :
  Yields web (liftM x) fun a => x = .ok a
  := by
  intro ring hring
  cases x with
  | error e =>
    constructor
    · apply hring
    · rintro _ ⟨⟩
  | ok a =>
    constructor
    · apply hring
    · rintro _ ⟨rfl⟩
      rfl

theorem Yields.bind {m : Fetch α} {f : α → Fetch β} {post : α → Prop} {post' : β → Prop}
    (hm : Yields web m post) (hf : ∀ a, post a → Yields web (f a) post') :
  Yields web (m >>= f) post'
  := by
  intro ring hring
  obtain ⟨hring', hpost⟩ := hm ring hring
  rw [ExceptT.run_bind, StateT.run_bind]
  rcases hrun : m.run.run ring with ⟨r, ring'⟩
  rw [hrun] at hring' hpost
  cases r with
  | error e =>
    constructor
    · apply hring'
    · rintro _ ⟨⟩
  | ok a => apply hf a (hpost a rfl) ring' hring'

theorem Yields.mono {m : Fetch α} {post post' : α → Prop} (hm : Yields web m post)
    (h : ∀ a, post a → post' a) :
  Yields web m post'
  := by
  intro ring hring
  obtain ⟨hring', hpost⟩ := hm ring hring
  constructor
  · apply hring'
  · intro a ha
    apply h a (hpost a ha)

theorem Yields.get :
  Yields web MonadState.get (KeyRing.Faithful web)
  := by
  intro ring hring
  constructor
  · apply hring
  · rintro _ ⟨rfl⟩
    apply hring

theorem Yields.modify {f : KeyRing → KeyRing}
    (h : ∀ ring, ring.Faithful web → (f ring).Faithful web) :
  Yields web (modify f) fun _ => True
  := by
  intro ring hring
  constructor
  · apply h ring hring
  · intro _ _
    trivial

/-! ### What is fetched -/

theorem page_yields (url : String) (d : Json.Decoder α) :
  Yields web (page web url d) (web.Shows url d)
  := by
  rw [page]
  apply Yields.bind (Yields.modify ?_)
  · intro _ _
    cases hresponse : web url with
    | unreachable => apply Yields.throw
    | page status body =>
      simp only
      split
      · rename_i a ha
        apply Yields.pure
        split at ha
        · cases ha
        · rename_i hstatus
          exact ⟨status, body, hresponse, by simpa using hstatus, ha⟩
      · apply Yields.throw
  · intro ring hring
    exact ⟨hring.keySets, hring.keySetUrls⟩

theorem freshKeySet_yields (url : String) :
  Yields web (freshKeySet web url) (web.Shows url keySetDecoder)
  := by
  apply Yields.bind (page_yields url keySetDecoder)
  intro keys hkeys
  apply Yields.bind (Yields.modify (fun _ h => h.insert_keySet hkeys))
  intro _ _
  apply Yields.pure hkeys

theorem keySet_yields (refresh : Bool) (url : String) :
  Yields web (keySet web refresh url) (web.Shows url keySetDecoder)
  := by
  have hlookup : Yields web (keySet web false url) (web.Shows url keySetDecoder) := by
    apply Yields.bind Yields.get
    intro ring hring
    cases hget : ring.keySets.get? url with
    | none => apply freshKeySet_yields
    | some keys => apply Yields.pure (hring.keySets url keys hget)
  cases refresh with
  | false => apply hlookup
  | true =>
    apply Yields.bind (Yields.modify (fun _ h => h.erase_keySet url))
    intro _ _
    apply hlookup

theorem keySetUrl_yields (issuer : Issuer) :
  Yields web (keySetUrl web issuer) fun url =>
    ∃ d, web.Shows issuer.discoveryUrl Discovery.decoder d ∧ d.keySetUrl = url
  := by
  apply Yields.bind Yields.get
  intro ring hring
  cases hget : ring.keySetUrls.get? issuer.discoveryUrl with
  | some url =>
    apply Yields.pure
    apply hring.keySetUrls _ url hget
  | none =>
    apply Yields.bind (page_yields issuer.discoveryUrl Discovery.decoder)
    intro d hd
    split
    · apply Yields.bind (Yields.modify (fun _ h => h.insert_keySetUrl hd))
      intro _ _
      apply Yields.pure
      use d
    · apply Yields.throw

/-- The keys of trust anchors are given, or they stand on pages that the anchors name. -/
theorem anchorKeys_yields (refresh : Bool) (anchors : List TrustAnchor) :
  Yields web (anchorKeys web refresh anchors) fun keys => ∀ k ∈ keys,
    .key k ∈ anchors ∨ ∃ url page, .keySet url ∈ anchors ∧ web.Shows url keySetDecoder page
      ∧ k ∈ page
  := by
  induction anchors with
  | nil =>
    apply Yields.pure
    intro k hk
    cases hk
  | cons anchor anchors ih =>
    cases anchor with
    | key k =>
      apply Yields.bind ih
      intro keys hkeys
      apply Yields.pure
      intro k' hk'
      rcases List.mem_cons.mp hk' with rfl | hk'
      · left
        apply List.mem_cons_self
      · rcases hkeys k' hk' with hpinned | ⟨url, page, hurl, hpage⟩
        · left
          apply List.mem_cons_of_mem _ hpinned
        · right
          use url, page, List.mem_cons_of_mem _ hurl
    | keySet url =>
      apply Yields.bind (keySet_yields refresh url)
      intro page hpage
      apply Yields.bind ih
      intro keys hkeys
      apply Yields.pure
      intro k hk
      rcases List.mem_append.mp hk with hk | hk
      · right
        use url, page, List.mem_cons_self
      · rcases hkeys k hk with hpinned | ⟨url', page', hurl', hpage'⟩
        · left
          apply List.mem_cons_of_mem _ hpinned
        · right
          use url', page', List.mem_cons_of_mem _ hurl'

/-- The keys that are fetched for an issuer are keys that it supplies. -/
theorem issuerKeys_yields (refresh : Bool) (issuer : Issuer) :
  Yields web (issuerKeys web refresh issuer) fun keys => ∀ k ∈ keys, Supplies web issuer k
  := by
  rw [issuerKeys]
  split
  · rename_i hanchors
    apply Yields.bind (keySetUrl_yields issuer)
    rintro _ ⟨d, hd, rfl⟩
    apply Yields.mono (keySet_yields refresh d.keySetUrl)
    intro keys hkeys k hk
    apply Supplies.discovered hanchors hd hkeys hk
  · apply Yields.mono (anchorKeys_yields refresh issuer.trustAnchors)
    intro keys hkeys k hk
    rcases hkeys k hk with hpinned | ⟨url, page, hurl, hpage, hmem⟩
    · apply Supplies.pinned hpinned
    · apply Supplies.listed hurl hpage hmem

end Fetch
end Federation.Keys
