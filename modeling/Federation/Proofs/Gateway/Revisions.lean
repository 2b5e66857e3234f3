import Federation.Gateway
import Federation.Proofs.Evaluate
import Federation.Proofs.Snapshot.Store

/-!
# Revisions across restarts and reloads

A `Deployment` is a store of snapshots and, while one runs, the gateway that uses it.
Gateways start, reload and stop in any order and from any configurations; in between
keys are fetched, and the store may begin or cease to refuse what is saved.

What a gateway publishes is what its store keeps (`Gateway.Kept`).  A start that succeeds
and a reload that succeeds save what they publish, and any other reload leaves the gateway
as it was: it breaks off before the save if there is no next revision, and the only step
after the save is to publish, where the next revision is never stale
(`Gateway.reload_cases`).  So the two stay in step over every run
(`Deployment.kept_of_reachable`).  Main statement: `Deployment.revisions_of_reachable`.
-/

namespace Federation

open Keys

variable {σ : Type} [SnapshotStore σ]

/-! ### Single steps -/

theorem ServiceError.lift_eq_ok_iff {ε α : Type} {f : ε → ServiceError} {r : Except ε α} {a : α} :
  lift f r = .ok a ↔ r = .ok a
  := mapError_eq_ok_iff

/-- The number of a revision that comes after one that is not the last. -/
theorem toNat_add_one {revision : UInt64} (h : revision.toNat + 1 < 2 ^ 64) :
  (revision + 1).toNat = revision.toNat + 1
  := by
  rw [UInt64.toNat_add]
  apply Nat.mod_eq_of_lt h

theorem lt_add_one {revision : UInt64} (h : revision.toNat + 1 < 2 ^ 64) :
  revision < revision + 1
  := by
  rw [UInt64.lt_iff_toNat_lt, toNat_add_one h]
  apply Nat.lt_succ_self

theorem revisionAfter_eq_ok_iff {ε : Type} {revision next : UInt64} :
  revisionAfter (ε := ε) revision = .ok next
    ↔ revision.toNat + 1 < 2 ^ 64 ∧ next = revision + 1
  := by
  have hsize : UInt64.size = 2 ^ 64 := rfl
  rw [revisionAfter, hsize]
  split
  · rename_i h
    rw [and_iff_right h, Except.ok.injEq, eq_comm]
  · rename_i h
    apply iff_of_false
    · intro hnext
      cases hnext
    · rintro ⟨hlimit, -⟩
      exact h hlimit

theorem Domain.compile_eq_ok_iff {d : Domain} {previous s : BindingSet} :
  d.compile previous = .ok s
    ↔ previous.revision.toNat + 1 < 2 ^ 64 ∧ d.compileAt (previous.revision + 1) = .ok s
  := by
  rw [compile, bind_eq_ok_iff]
  simp only [revisionAfter_eq_ok_iff, mapError_eq_ok_iff]
  constructor
  · rintro ⟨_, ⟨hlimit, rfl⟩, hset⟩
    exact ⟨hlimit, hset⟩
  · rintro ⟨hlimit, hset⟩
    exact ⟨_, ⟨hlimit, rfl⟩, hset⟩

/-- A set is what a configuration compiles to, and its revision is the one after that of
the stored snapshot, or 1. -/
def Config.CompilesAfter (c : Config) (stored : Option PersistedSnapshot) (s : BindingSet) : Prop :=
  ∃ domain, c.domain = .ok domain ∧ domain.compileAt s.revision = .ok s
    ∧ s.revision.toNat = stored.elim 0 (fun p => p.revision.toNat) + 1

namespace Gateway

/-- A gateway that starts has compiled its configuration to the set after the stored
snapshot, and saved this set. -/
theorem of_start {c : Config} {store : σ} {authenticator : Authenticator} {now : Instant}
    {g : Gateway σ} (h : start c store authenticator now = .ok g) :
  ∃ domain stored revision, c.domain = .ok domain ∧ SnapshotStore.load store = .ok stored
    ∧ nextRevision stored = .ok revision ∧ domain.compileAt revision = .ok g.snapshot
    ∧ SnapshotStore.save store (.ofSet g.snapshot now) = .ok g.store
  := by
  obtain ⟨⟨s, store'⟩, hset, h⟩ := bind_eq_ok_iff.mp h
  cases h
  rw [Config.initialSet] at hset
  obtain ⟨domain, hdomain, hset⟩ := bind_eq_ok_iff.mp hset
  obtain ⟨stored, hstored, hset⟩ := bind_eq_ok_iff.mp hset
  obtain ⟨revision, hrevision, hset⟩ := bind_eq_ok_iff.mp hset
  obtain ⟨_, hcompile, hset⟩ := bind_eq_ok_iff.mp hset
  obtain ⟨_, hsave, hset⟩ := bind_eq_ok_iff.mp hset
  cases hset
  rw [ServiceError.lift_eq_ok_iff] at hdomain hstored hcompile hsave
  exact ⟨domain, stored, revision, hdomain, hstored, hrevision, hcompile, hsave⟩

omit [SnapshotStore σ] in
theorem of_compileNext {g : Gateway σ} {c : Config} {s : BindingSet}
    (h : g.compileNext c = .ok s) :
  ∃ domain, c.domain = .ok domain ∧ g.snapshot.revision.toNat + 1 < 2 ^ 64
    ∧ domain.compileAt (g.snapshot.revision + 1) = .ok s
  := by
  obtain ⟨domain, hdomain, hcompile⟩ := bind_eq_ok_iff.mp h
  rw [ServiceError.lift_eq_ok_iff] at hdomain
  rw [mapError_eq_ok_iff, Domain.compile_eq_ok_iff] at hcompile
  exact ⟨domain, hdomain, hcompile⟩

omit [SnapshotStore σ] in
/-- A set that comes after the published one is not refused as stale. -/
theorem publish_eq_ok {g : Gateway σ} {s : BindingSet}
    (h : g.snapshot.revision < s.revision) :
  g.publish s = .ok { g with published := ⟨s⟩, keys := g.keys.forget }
  := by
  have hpublish : g.published.publish s = .ok ⟨s⟩ := if_pos h
  rw [publish, hpublish]
  rfl

/-- What a reload can do: stop and leave the gateway as it was; or, if there is a next
revision, save the set that the configuration compiles to, publish it and forget the keys. -/
theorem reload_cases (g : Gateway σ) (c : Config) (now : Instant) :
  (∃ e, g.reload c now = (.error e, g))
    ∨ ∃ domain s store, c.domain = .ok domain
      ∧ g.snapshot.revision.toNat + 1 < 2 ^ 64
      ∧ domain.compileAt (g.snapshot.revision + 1) = .ok s
      ∧ SnapshotStore.save g.store (.ofSet s now) = .ok store
      ∧ g.reload c now
        = (.ok (), { g with published := ⟨s⟩, store := store, keys := g.keys.forget })
  := by
  rw [reload]
  cases hcompile : g.compileNext c with
  | error e =>
    left
    use e
  | ok s =>
    obtain ⟨domain, hdomain, hlimit, hset⟩ := of_compileNext hcompile
    cases hsave : g.save s now with
    | error e =>
      left
      use e
      simp only [hsave]
    | ok saved =>
      right
      obtain ⟨store, hstore, h⟩ := bind_eq_ok_iff.mp hsave
      cases h
      rw [ServiceError.lift_eq_ok_iff] at hstore
      have hnewer : g.snapshot.revision < s.revision := by
        rw [revision_of_compileAt hset]
        apply lt_add_one hlimit
      have hpublish := publish_eq_ok (g := { g with store := store }) hnewer
      refine ⟨domain, s, store, hdomain, hlimit, hset, hstore, ?_⟩
      simp only [hsave, hpublish]

/-- The store of a gateway keeps the set that is published, with its digest. -/
def Kept (g : Gateway σ) : Prop :=
  ∃ p, SnapshotStore.load g.store = .ok (some p) ∧ p.verify = .ok ()
    ∧ p.revision = g.snapshot.revision ∧ p.records = g.snapshot.records

variable [LawfulStore σ]

/-- A gateway that has saved what it publishes keeps it. -/
theorem kept_of_save {g : Gateway σ} {store : σ} {now : Instant}
    (h : SnapshotStore.save store (.ofSet g.snapshot now) = .ok g.store) :
  g.Kept
  := by
  use .ofSet g.snapshot now
  refine ⟨LawfulStore.load_of_save_ofSet h, ?_, rfl, rfl⟩
  apply PersistedSnapshot.verify_ofSet

theorem kept_of_start {c : Config} {store : σ} {authenticator : Authenticator} {now : Instant}
    {g : Gateway σ} (h : start c store authenticator now = .ok g) :
  g.Kept
  := by
  obtain ⟨-, -, -, -, -, -, -, hsave⟩ := of_start h
  apply kept_of_save hsave

/-- A reload keeps the store and the published set in step. -/
theorem Kept.reload {g : Gateway σ} (h : g.Kept) (c : Config) (now : Instant) :
  (g.reload c now).2.Kept
  := by
  obtain ⟨e, hreload⟩ | ⟨domain, s, store, -, -, -, hsave, hreload⟩ := g.reload_cases c now
  · rw [hreload]
    apply h
  · rw [hreload]
    apply kept_of_save hsave

end Gateway

/-! ### Runs -/

/-- A store of snapshots, and the gateway that uses it if one runs. -/
inductive Deployment (σ : Type) where
  | stopped (store : σ)
  | running (g : Gateway σ)

namespace Deployment

/-- One step of a deployment.  A start that fails is none: it leaves the store as it is. -/
inductive Step : Deployment σ → Deployment σ → Prop where
  | start {c : Config} {store : σ} {authenticator : Authenticator} {now : Instant}
      {g : Gateway σ} (h : Gateway.start c store authenticator now = .ok g) :
    Step (.stopped store) (.running g)
  /-- The first set is saved, but the gateway is given up before it serves. -/
  | abort {c : Config} {store : σ} {authenticator : Authenticator} {now : Instant}
      {g : Gateway σ} (h : Gateway.start c store authenticator now = .ok g) :
    Step (.stopped store) (.stopped g.store)
  /-- A reload, successful or not, as long as there is a next revision. -/
  | reload (g : Gateway σ) (c : Config) (now : Instant)
      (hlimit : g.snapshot.revision.toNat + 1 < 2 ^ 64) :
    Step (.running g) (.running (g.reload c now).2)
  /-- Keys are fetched, or lapse. -/
  | fetch (g : Gateway σ) (keys : KeyRing) : Step (.running g) (.running { g with keys := keys })
  | stop (g : Gateway σ) : Step (.running g) (.stopped g.store)
  /-- The store begins or ceases to refuse what is saved; it keeps what it has. -/
  | turn (g : Gateway σ) {store : σ}
      (h : SnapshotStore.load store = SnapshotStore.load g.store) :
    Step (.running g) (.running { g with store := store })
  | turnStopped {store store' : σ} (h : SnapshotStore.load store' = SnapshotStore.load store) :
    Step (.stopped store) (.stopped store')

/-- To decide on a presented token is to fetch keys, as far as a deployment goes. -/
theorem Step.decideRaw (g : Gateway σ) (web : Web) (ctx : EvalContext) (raw : String) :
  Step (.running g) (.running (g.decideRaw web ctx raw).2)
  := .fetch g _

/-- The deployments that a store can come to. -/
inductive Reachable (store : σ) : Deployment σ → Prop where
  | initial : Reachable store (.stopped store)
  | step {d d' : Deployment σ} (h : Reachable store d) (hstep : Step d d') : Reachable store d'

/-- The gateway that runs, if one does, publishes what the store keeps. -/
def Kept (d : Deployment σ) : Prop :=
  ∀ g, d = .running g → g.Kept

variable [LawfulStore σ]

theorem Kept.step {d d' : Deployment σ} (h : d.Kept) (hstep : Step d d') :
  d'.Kept
  := by
  rintro _ rfl
  cases hstep with
  | start hstart => apply Gateway.kept_of_start hstart
  | reload g c now => apply (h g rfl).reload c now
  | fetch g keys => apply h g rfl
  | turn g hload =>
    obtain ⟨p, hp⟩ := h g rfl
    use p
    rw [hload]
    apply hp

theorem kept_of_reachable {store : σ} {d : Deployment σ} (h : Reachable store d) :
  d.Kept
  := by
  induction h with
  | initial =>
    intro g h
    cases h
  | step _ hstep ih => apply ih.step hstep

end Deployment

/-! ### Revisions -/

/-- A gateway publishes what its configuration compiles to, after what was stored. -/
theorem Gateway.compilesAfter_of_start {c : Config} {store : σ} {authenticator : Authenticator}
    {now : Instant} {g : Gateway σ} (h : start c store authenticator now = .ok g) :
  ∃ stored, SnapshotStore.load store = .ok stored ∧ c.CompilesAfter stored g.snapshot
  := by
  obtain ⟨domain, stored, revision, hdomain, hstored, hnext, hcompile, -⟩ := of_start h
  have hrevision := revision_of_compileAt hcompile
  refine ⟨stored, hstored, domain, hdomain, ?_, ?_⟩
  · rw [hrevision]
    apply hcompile
  · rw [hrevision]
    cases stored with
    | none =>
      cases hnext
      rfl
    | some p =>
      obtain ⟨hlimit, rfl⟩ := revisionAfter_eq_ok_iff.mp hnext
      apply toNat_add_one hlimit

/-- A successful reload publishes what its configuration compiles to, after what was
stored; one that fails changes nothing. -/
theorem Gateway.Kept.compilesAfter_of_reload {g : Gateway σ} (h : g.Kept) (c : Config)
    (now : Instant) :
  (∃ e, g.reload c now = (.error e, g))
    ∨ ∃ g' stored, g.reload c now = (.ok (), g') ∧ SnapshotStore.load g.store = .ok stored
      ∧ c.CompilesAfter stored g'.snapshot ∧ g'.keys.keySets = {} ∧ g'.keys.keySetUrls = {}
  := by
  obtain herror | ⟨domain, s, store, hdomain, hlimit, hcompile, -, hreload⟩ :=
    g.reload_cases c now
  · left
    apply herror
  · right
    obtain ⟨p, hp, -, hstored, -⟩ := h
    have hrevision := revision_of_compileAt hcompile
    refine ⟨_, some p, hreload, hp, ⟨domain, hdomain, ?_, ?_⟩, rfl, rfl⟩
    · rw [← hrevision] at hcompile
      apply hcompile
    · rw [Option.elim_some, hstored, ← toNat_add_one hlimit, ← hrevision]
      rfl

/-- Over every run of a lawful store: a gateway that runs publishes what the store keeps;
one that starts, or reloads with success, publishes what its configuration compiles to,
at the revision after the one that was stored; a reload that fails changes nothing, and
one that succeeds forgets the keys. -/
theorem Deployment.revisions_of_reachable [LawfulStore σ] {store : σ} {d : Deployment σ}
    (h : Reachable store d) :
  (∀ g, d = .running g → g.Kept)
    ∧ (∀ store' c authenticator now g, d = .stopped store' →
      Gateway.start c store' authenticator now = .ok g →
      ∃ stored, SnapshotStore.load store' = .ok stored
        ∧ ((∀ p ∈ stored, p.revision.toNat + 1 < 2 ^ 64) → c.CompilesAfter stored g.snapshot))
    ∧ ∀ g c now, d = .running g → g.snapshot.revision.toNat + 1 < 2 ^ 64 →
      (∃ e, g.reload c now = (.error e, g))
        ∨ ∃ g' stored, g.reload c now = (.ok (), g') ∧ SnapshotStore.load g.store = .ok stored
          ∧ c.CompilesAfter stored g'.snapshot ∧ g'.keys.keySets = {} ∧ g'.keys.keySetUrls = {}
  := by
  refine ⟨kept_of_reachable h, ?_, ?_⟩
  · intro store' c authenticator now g _ hstart
    obtain ⟨stored, hstored, hcompiles⟩ := Gateway.compilesAfter_of_start hstart
    exact ⟨stored, hstored, fun _ => hcompiles⟩
  · intro g c now hrunning _
    apply (kept_of_reachable h g hrunning).compilesAfter_of_reload c now

/-! ### A gateway that starts and reloads -/

namespace Sample

/-- A configuration of the small domain. -/
def config : Config where
  issuers := [issuer]
  policies := [⟨"deploy", [⟨"secret/*", ["read"]⟩]⟩]
  bindings := [group]

/-- A file that is not there yet, and that can be written. -/
def noSnapshot : SwitchedStore SnapshotFile where
  store := {}

/-- The gateway that starts from the configuration. -/
def gateway : Gateway (SwitchedStore SnapshotFile) :=
  (Gateway.start config noSnapshot (.ofList [.jwt .default]) .epoch).toOption.getD
    { published := ⟨.empty⟩, store := noSnapshot, authenticator := .ofList [.jwt .default] }

theorem start_eq_gateway :
  Gateway.start config noSnapshot (.ofList [.jwt .default]) .epoch = .ok gateway
  := by
  have hok : (Gateway.start config noSnapshot (.ofList [.jwt .default]) .epoch).isOk = true := by
    decide +kernel
  apply eq_ok_getD_of_isOk hok

end Sample

theorem Deployment.revisions_of_reachable_sample :
  Gateway.start Sample.config Sample.noSnapshot (.ofList [.jwt .default]) .epoch
      = .ok Sample.gateway
    ∧ Sample.gateway.snapshot.revision = 1
    ∧ Sample.gateway.Kept
    ∧ ∃ g' stored, Sample.gateway.reload Sample.config .epoch = (.ok (), g')
      ∧ SnapshotStore.load Sample.gateway.store = .ok stored
      ∧ Sample.config.CompilesAfter stored g'.snapshot
      ∧ g'.keys.keySets = {} ∧ g'.keys.keySetUrls = {}
  := by
  have hreachable : Reachable Sample.noSnapshot (.running Sample.gateway) :=
    .step .initial (.start Sample.start_eq_gateway)
  obtain ⟨hkept, -, hreload⟩ := Deployment.revisions_of_reachable hreachable
  have hrevision : Sample.gateway.snapshot.revision = 1 := by decide +kernel
  refine ⟨Sample.start_eq_gateway, hrevision, hkept Sample.gateway rfl, ?_⟩
  obtain ⟨e, he⟩ | hdone := hreload Sample.gateway Sample.config .epoch rfl (by
    rw [hrevision]
    decide)
  · have hok : (Sample.gateway.reload Sample.config .epoch).1.isOk = true := by decide +kernel
    rw [he] at hok
    cases hok
  · apply hdone

end Federation
