import Federation.Authenticator
import Federation.Config.Domain
import Federation.Evaluate
import Federation.Gateway.Error
import Federation.Snapshot.Store

/-!
# The gateway

A `Gateway` holds the set that tokens are evaluated against, the store of its snapshot,
and what takes tokens.  It starts and reloads from a configuration: the bindings are
compiled to a set of the next revision, which is saved and then published.  When any of
this fails, or breaks off for want of a next revision, the gateway goes on as before.

`Gateway.decide` and `Gateway.decideRaw` decide on a token, identified or not; a token
that proves no identity is denied like any other.
-/

namespace Federation

open Keys

variable {σ : Type} [SnapshotStore σ]

/-- What serves evaluations. -/
structure Gateway (σ : Type) where
  /-- The set that tokens are evaluated against. -/
  published : Published
  /-- The store of its snapshot. -/
  store : σ
  /-- What takes tokens. -/
  authenticator : Authenticator
  /-- The keys that were fetched. -/
  keys : KeyRing := {}

/-! ### Starting and reloading -/

/-- The result of another part of the service. -/
def ServiceError.lift {ε α : Type} (f : ε → ServiceError) (r : Except ε α) :
    Except (Stop ServiceError) α :=
  r.mapError fun e => .failed (f e)

/-- The revision of the set that comes after a stored snapshot. -/
def nextRevision : Option PersistedSnapshot → Except (Stop ServiceError) UInt64
  | some p => revisionAfter p.revision
  | none => .ok 1

/-- Compiles the bindings of a configuration to the set that comes after the stored
snapshot and saves it. -/
def Config.initialSet (c : Config) (store : σ) (now : Instant) :
    Except (Stop ServiceError) (BindingSet × σ) := do
  let domain ← ServiceError.lift .config c.domain
  let stored ← ServiceError.lift .storage (SnapshotStore.load store)
  let revision ← nextRevision stored
  let s ← ServiceError.lift .compile (domain.compileAt revision)
  let store ← ServiceError.lift .storage (SnapshotStore.save store (.ofSet s now))
  return (s, store)

namespace Gateway

/-- Starts a gateway. -/
def start (c : Config) (store : σ) (authenticator : Authenticator) (now : Instant) :
    Except (Stop ServiceError) (Gateway σ) := do
  let (s, store) ← c.initialSet store now
  return { published := ⟨s⟩, store := store, authenticator := authenticator }

/-- The set that tokens are evaluated against. -/
def snapshot (g : Gateway σ) : BindingSet := g.published.current

/-- Compiles the bindings of a configuration to the set that comes after the published
one. -/
def compileNext (g : Gateway σ) (c : Config) : Except (Stop ServiceError) BindingSet := do
  let domain ← ServiceError.lift .config c.domain
  (domain.compile g.snapshot).mapError (Stop.map .compile)

/-- Saves a set. -/
def save (g : Gateway σ) (s : BindingSet) (now : Instant) :
    Except (Stop ServiceError) (Gateway σ) := do
  let store ← ServiceError.lift .storage (SnapshotStore.save g.store (.ofSet s now))
  return { g with store := store }

/-- Publishes a set and forgets the keys that were fetched. -/
def publish (g : Gateway σ) (s : BindingSet) : Except (Stop ServiceError) (Gateway σ) := do
  let published ← ServiceError.lift .staleRevision (g.published.publish s)
  return { g with published := published, keys := g.keys.forget }

/-- Reloads a gateway from a configuration; what stopped that, if anything did, and the
gateway then. -/
def reload (g : Gateway σ) (c : Config) (now : Instant) :
    Except (Stop ServiceError) Unit × Gateway σ :=
  match g.compileNext c with
  | .error e => (.error e, g)
  | .ok s =>
    match g.save s now with
    | .error e => (.error e, g)
    | .ok saved =>
      match saved.publish s with
      | .error e => (.error e, saved)
      | .ok published => (.ok (), published)

end Gateway

/-! ### Deciding -/

/-- The decision on a token that proves no identity. -/
def Decision.unverified (e : TokenError) (revision : UInt64) (now : Instant) : Decision :=
  match e with
  | .unknownIssuer url => deny .issuerUnknown revision url "" now
  | _ => deny .unverified revision "" "" now

/-- Decides on a presented token by what its verification came to. -/
def decideVerified (s : BindingSet) (ctx : EvalContext) :
    Except TokenError IdentityToken → Except Interruption Decision
  | .error e => .ok (.unverified e s.revision ctx.now)
  | .ok token => evaluate s token ctx

/-- What limits an evaluation: whether it was cancelled, and whether its deadline has
passed from the beginning. -/
structure CallLimits where
  cancelled : Bool := false
  /-- Whether its deadline has passed. -/
  late : Bool := false

/-- What interrupts an evaluation under limits. -/
def CallLimits.interruption (l : CallLimits) : Option Interruption :=
  if l.cancelled then some .cancelled else if l.late then some .deadlineExceeded else none

/-- The context of an evaluation under limits. -/
def CallLimits.context (l : CallLimits) (now : Instant) (requestedTtl : Option UInt64) :
    EvalContext where
  now := now
  requestedTtl := requestedTtl
  interrupted := fun _ => l.interruption

namespace Gateway

/-- Decides on a token that proves its identity to the authenticator of a gateway, and
on one that does not; the keys that were fetched are kept. -/
def decideRaw (g : Gateway σ) (web : Web) (ctx : EvalContext) (raw : String) :
    Except Interruption Decision × Gateway σ :=
  let (r, keys) := (g.authenticator.decode web ctx.now .jwt raw g.snapshot).run.run g.keys
  (decideVerified g.snapshot ctx r, { g with keys := keys })

end Gateway
end Federation
