import Federation.Binding.Set
import Federation.Proofs.Keys

/-!
# When remembering makes no difference

A computation is settled over an invariant when it has one outcome whatever ring it
starts from, as long as the ring satisfies the invariant.

What a ring remembers of a document of keys is what the page says, so fetching such a
document is settled.  Where the keys of an issuer are is remembered under the URL of
its discovery document, and without the issuer that the document names: a ring is
founded on a set when each such entry stems from an issuer of the set, and fetching
the keys of an issuer is settled as soon as the issuer does not lean on the discovery
document of another one (`BindingSet.Undivided`).
-/

namespace Federation

open Keys

/-- An issuer of the set whose keys are found through its discovery document. -/
structure BindingSet.Discovers (s : BindingSet) (i : Issuer) : Prop where
  known : ∃ url, s.issuer? url = some i
  trustAnchors : i.trustAnchors = []

/-- A discovery document that names an issuer of the set is the document of no other
issuer of the set. -/
def BindingSet.Undivided (web : Web) (s : BindingSet) : Prop :=
  ∀ i j keySetUrl, s.Discovers i → s.Discovers j → i.discoveryUrl = j.discoveryUrl →
    web.Shows i.discoveryUrl Discovery.decoder ⟨i.issuerUrl, keySetUrl⟩ →
    i.issuerUrl = j.issuerUrl

namespace Keys

variable {α β : Type} {web : Web} {s : BindingSet}

/-- A ring that remembers what the pages say, and where keys are only for issuers of a
set that their discovery documents name. -/
structure KeyRing.Founded (web : Web) (s : BindingSet) (ring : KeyRing) : Prop where
  keySets : ∀ url keys, ring.keySets.get? url = some keys → web.Shows url keySetDecoder keys
  keySetUrls : ∀ url keySetUrl, ring.keySetUrls.get? url = some keySetUrl →
    ∃ i, s.Discovers i ∧ i.discoveryUrl = url
      ∧ web.Shows url Discovery.decoder ⟨i.issuerUrl, keySetUrl⟩

namespace KeyRing.Founded

variable {ring : KeyRing}

theorem faithful (h : ring.Founded web s) :
  ring.Faithful web
  := by
  constructor
  · apply h.keySets
  · intro url keySetUrl hget
    obtain ⟨i, -, -, hpage⟩ := h.keySetUrls url keySetUrl hget
    exact ⟨_, hpage, rfl⟩

theorem empty :
  ({} : KeyRing).Founded web s
  := by
  constructor
  · apply KeyRing.Faithful.empty.keySets
  · intro url keySetUrl h
    cases h

theorem forget :
  ring.forget.Founded web s
  := by
  constructor
  · apply KeyRing.Faithful.empty.keySets
  · intro url keySetUrl h
    cases h

theorem request (h : ring.Founded web s) (url : String) :
  { ring with requests := ring.requests ++ [url] }.Founded web s
  := by
  constructor
  · apply h.keySets
  · apply h.keySetUrls

theorem insert_keySet (h : ring.Founded web s) {url : String} {keys : List Jwk}
    (hpage : web.Shows url keySetDecoder keys) :
  { ring with keySets := ring.keySets.insert url keys }.Founded web s
  := by
  constructor
  · apply (h.faithful.insert_keySet hpage).keySets
  · apply h.keySetUrls

theorem erase_keySet (h : ring.Founded web s) (url : String) :
  { ring with keySets := ring.keySets.erase url }.Founded web s
  := by
  constructor
  · apply (h.faithful.erase_keySet url).keySets
  · apply h.keySetUrls

theorem insert_keySetUrl (h : ring.Founded web s) {i : Issuer} (hi : s.Discovers i)
    {keySetUrl : String}
    (hpage : web.Shows i.discoveryUrl Discovery.decoder ⟨i.issuerUrl, keySetUrl⟩) :
  { ring with
    keySetUrls := ring.keySetUrls.insert i.discoveryUrl keySetUrl }.Founded web s
  := by
  constructor
  · apply h.keySets
  · intro url' keySetUrl' hget
    rw [StringMap.get?_insert] at hget
    split at hget
    · rename_i heq
      cases hget
      use i, hi, heq.symm
      rw [heq]
      apply hpage
    · apply h.keySetUrls url' keySetUrl' hget

end KeyRing.Founded

namespace Fetch

/-! ### Settled computations -/

/-- A computation with the outcome `v` from every ring that satisfies an invariant,
which it keeps. -/
def SettlesAt (inv : KeyRing → Prop) (m : Fetch α) (v : Except TokenError α) : Prop :=
  ∀ ring, inv ring → (m.run.run ring).1 = v ∧ inv (m.run.run ring).2

/-- A computation whose outcome does not depend on the ring. -/
def Settled (inv : KeyRing → Prop) (m : Fetch α) : Prop :=
  ∃ v, SettlesAt inv m v

variable {inv : KeyRing → Prop}

theorem SettlesAt.pure (a : α) :
  SettlesAt inv (Pure.pure a) (.ok a)
  := by
  intro ring hring
  exact ⟨rfl, hring⟩

theorem SettlesAt.throw (e : TokenError) :
  SettlesAt (α := α) inv (MonadExcept.throw e) (.error e)
  := by
  intro ring hring
  exact ⟨rfl, hring⟩

theorem SettlesAt.lift (x : Except TokenError α) :
  SettlesAt inv (liftM x) x
  := by
  intro ring hring
  cases x <;> exact ⟨rfl, hring⟩

theorem SettlesAt.modify {f : KeyRing → KeyRing} (h : ∀ ring, inv ring → inv (f ring)) :
  SettlesAt inv (modify f) (.ok ())
  := by
  intro ring hring
  exact ⟨rfl, h ring hring⟩

theorem SettlesAt.bind_ok {m : Fetch α} {f : α → Fetch β} {a : α} {v : Except TokenError β}
    (hm : SettlesAt inv m (.ok a)) (hf : SettlesAt inv (f a) v) :
  SettlesAt inv (m >>= f) v
  := by
  intro ring hring
  obtain ⟨hv, hring'⟩ := hm ring hring
  rw [ExceptT.run_bind, StateT.run_bind]
  rcases hrun : m.run.run ring with ⟨r, ring'⟩
  rw [hrun] at hv hring'
  subst hv
  apply hf ring' hring'

theorem SettlesAt.bind_error {m : Fetch α} {e : TokenError} (hm : SettlesAt inv m (.error e))
    (f : α → Fetch β) :
  SettlesAt inv (m >>= f) (.error e)
  := by
  intro ring hring
  obtain ⟨hv, hring'⟩ := hm ring hring
  rw [ExceptT.run_bind, StateT.run_bind]
  rcases hrun : m.run.run ring with ⟨r, ring'⟩
  rw [hrun] at hv hring'
  subst hv
  exact ⟨rfl, hring'⟩

/-- What reads the ring first settles when all that it may go on with do so alike. -/
theorem SettlesAt.get_bind {f : KeyRing → Fetch α} {v : Except TokenError α}
    (h : ∀ ring, inv ring → SettlesAt inv (f ring) v) :
  SettlesAt inv (MonadState.get >>= f) v
  := by
  intro ring hring
  apply h ring hring ring hring

theorem SettlesAt.settled {m : Fetch α} {v : Except TokenError α} (h : SettlesAt inv m v) :
  Settled inv m
  := ⟨v, h⟩

theorem Settled.bind {m : Fetch α} {f : α → Fetch β} (hm : Settled inv m)
    (hf : ∀ a, SettlesAt inv m (.ok a) → Settled inv (f a)) :
  Settled inv (m >>= f)
  := by
  obtain ⟨v, hv⟩ := hm
  cases v with
  | error e => apply (hv.bind_error f).settled
  | ok a =>
    obtain ⟨w, hw⟩ := hf a hv
    apply (hv.bind_ok hw).settled

theorem Settled.pure (a : α) :
  Settled inv (Pure.pure a)
  := (SettlesAt.pure a).settled

theorem Settled.throw (e : TokenError) :
  Settled (α := α) inv (MonadExcept.throw e)
  := (SettlesAt.throw e).settled

theorem Settled.lift (x : Except TokenError α) :
  Settled inv (liftM x : Fetch α)
  := (SettlesAt.lift x).settled

/-- A settled computation gives the same from any two rings with the invariant. -/
theorem Settled.eq {m : Fetch α} (h : Settled inv m) {ring ring' : KeyRing} (hring : inv ring)
    (hring' : inv ring') :
  (m.run.run ring).1 = (m.run.run ring').1
  := by
  obtain ⟨v, hv⟩ := h
  rw [(hv ring hring).1, (hv ring' hring').1]

theorem Settled.invariant {m : Fetch α} (h : Settled inv m) {ring : KeyRing} (hring : inv ring) :
  inv (m.run.run ring).2
  := by
  obtain ⟨v, hv⟩ := h
  apply (hv ring hring).2

/-! ### Pages -/

/-- What reading a page comes to. -/
def outcome (web : Web) (url : String) (d : Json.Decoder α) : Except TokenError α :=
  match web url with
  | .unreachable => .error .unreachable
  | .page status body =>
    match if isRefusal status then none else d.ofBytes? body with
    | some a => .ok a
    | none => .error .unusablePage

theorem outcome_eq_ok_iff {url : String} {d : Json.Decoder α} {a : α} :
  outcome web url d = .ok a ↔ web.Shows url d a
  := by
  rw [outcome, Web.Shows]
  cases web url with
  | unreachable => simp
  | page status body =>
    cases hstatus : isRefusal status with
    | true => simp [hstatus]
    | false => cases hbody : d.ofBytes? body <;> simp [hstatus, hbody, and_assoc]

theorem page_settlesAt (hrequest : ∀ ring url, inv ring →
      inv { ring with requests := ring.requests ++ [url] }) (url : String) (d : Json.Decoder α) :
  SettlesAt inv (page web url d) (outcome web url d)
  := by
  apply SettlesAt.bind_ok (SettlesAt.modify fun ring hring => hrequest ring url hring)
  rw [outcome]
  cases web url with
  | unreachable => apply SettlesAt.throw
  | page status body =>
    simp only
    cases if isRefusal status then none else d.ofBytes? body with
    | some a => apply SettlesAt.pure
    | none => apply SettlesAt.throw

theorem freshKeySet_settlesAt (url : String) :
  SettlesAt (KeyRing.Founded web s) (freshKeySet web url) (outcome web url keySetDecoder)
  := by
  have hpage : SettlesAt (KeyRing.Founded web s) (page web url keySetDecoder)
      (outcome web url keySetDecoder) :=
    page_settlesAt (fun _ url h => h.request url) url keySetDecoder
  rw [freshKeySet]
  cases houtcome : outcome web url keySetDecoder with
  | error e =>
    rw [houtcome] at hpage
    apply hpage.bind_error
  | ok keys =>
    rw [houtcome] at hpage
    apply hpage.bind_ok
    apply SettlesAt.bind_ok
      (SettlesAt.modify fun _ h => h.insert_keySet (outcome_eq_ok_iff.mp houtcome))
    apply SettlesAt.pure

/-- A document of keys is the page, whether it is remembered or not. -/
theorem keySet_settlesAt (refresh : Bool) (url : String) :
  SettlesAt (KeyRing.Founded web s) (keySet web refresh url) (outcome web url keySetDecoder)
  := by
  have hlookup : SettlesAt (KeyRing.Founded web s) (keySet web false url)
      (outcome web url keySetDecoder) := by
    apply SettlesAt.get_bind
    intro ring hring
    cases hget : ring.keySets.get? url with
    | none => apply freshKeySet_settlesAt
    | some keys =>
      rw [outcome_eq_ok_iff.mpr (hring.keySets url keys hget)]
      apply SettlesAt.pure
  cases refresh with
  | false => apply hlookup
  | true => exact SettlesAt.bind_ok (SettlesAt.modify fun _ h => h.erase_keySet url) hlookup

/-! ### Keys of an issuer -/

/-- What the discovery document of an issuer comes to: where the keys are, as long as it
names the issuer. -/
def discoveryOutcome (web : Web) (i : Issuer) : Except TokenError String := do
  let d ← outcome web i.discoveryUrl Discovery.decoder
  if d.issuer = i.issuerUrl then return d.keySetUrl
  else throw (.foreignDiscovery i.issuerUrl d.issuer)

theorem discoveryOutcome_of_ok {i : Issuer} {d : Discovery}
    (h : outcome web i.discoveryUrl Discovery.decoder = .ok d) :
  discoveryOutcome web i
    = if d.issuer = i.issuerUrl then .ok d.keySetUrl
      else .error (.foreignDiscovery i.issuerUrl d.issuer)
  := by
  rw [discoveryOutcome, h]
  rfl

/-- Where the keys of an issuer are is what its own discovery document says, also when it
was remembered for another issuer. -/
theorem keySetUrl_settlesAt (hs : s.Undivided web) {i : Issuer} (hi : s.Discovers i) :
  SettlesAt (KeyRing.Founded web s) (keySetUrl web i) (discoveryOutcome web i)
  := by
  apply SettlesAt.get_bind
  intro ring hring
  cases hget : ring.keySetUrls.get? i.discoveryUrl with
  | some keySetUrl =>
    -- The entry stems from an issuer that the document names, and this can only be `i`.
    obtain ⟨j, hj, hurl, hshows⟩ := hring.keySetUrls _ _ hget
    rw [hs j i keySetUrl hj hi hurl (by rwa [hurl])] at hshows
    rw [discoveryOutcome_of_ok (outcome_eq_ok_iff.mpr hshows), if_pos rfl]
    apply SettlesAt.pure
  | none =>
    have hpage : SettlesAt (KeyRing.Founded web s) (page web i.discoveryUrl Discovery.decoder)
        (outcome web i.discoveryUrl Discovery.decoder) :=
      page_settlesAt (fun _ url h => h.request url) i.discoveryUrl Discovery.decoder
    cases houtcome : outcome web i.discoveryUrl Discovery.decoder with
    | error e =>
      rw [discoveryOutcome, houtcome]
      rw [houtcome] at hpage
      apply hpage.bind_error
    | ok d =>
      rw [discoveryOutcome_of_ok houtcome]
      rw [houtcome] at hpage
      apply hpage.bind_ok
      split
      · rename_i hissuer
        have hd := outcome_eq_ok_iff.mp houtcome
        rw [show d = ⟨i.issuerUrl, d.keySetUrl⟩ by rw [← hissuer]] at hd
        apply SettlesAt.bind_ok (SettlesAt.modify fun _ h => h.insert_keySetUrl hi hd)
        apply SettlesAt.pure
      · apply SettlesAt.throw

theorem anchorKeys_settled (refresh : Bool) (anchors : List TrustAnchor) :
  Settled (KeyRing.Founded web s) (anchorKeys web refresh anchors)
  := by
  induction anchors with
  | nil => apply Settled.pure
  | cons anchor anchors ih =>
    cases anchor with
    | key k =>
      apply Settled.bind ih
      intro keys _
      apply Settled.pure
    | keySet url =>
      apply Settled.bind (keySet_settlesAt refresh url).settled
      intro keys _
      apply Settled.bind ih
      intro keys' _
      apply Settled.pure

theorem issuerKeys_settled (hs : s.Undivided web) {i : Issuer} {url : String}
    (hi : s.issuer? url = some i) (refresh : Bool) :
  Settled (KeyRing.Founded web s) (issuerKeys web refresh i)
  := by
  rw [issuerKeys]
  split
  · rename_i hanchors
    apply Settled.bind (keySetUrl_settlesAt hs ⟨⟨url, hi⟩, hanchors⟩).settled
    intro keySetUrl _
    apply (keySet_settlesAt refresh keySetUrl).settled
  · apply anchorKeys_settled

end Fetch
end Keys
end Federation
