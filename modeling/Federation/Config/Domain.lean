import Federation.Binding.Compile
import Federation.Config

/-!
# What a configuration trusts

A `Domain` holds the issuers and policies of a configuration, registered in a new
registry, so that an issuer that was removed cannot be referred to any more, and the
groups of bindings to be compiled against them.
-/

namespace Federation

/-- The issuers, policies and groups of a configuration. -/
structure Domain where
  /-- The issuers. -/
  registry : Registry
  policies : PolicyStore
  groups : List BindingGroup

/-- Registers issuers in order. -/
def Registry.registerAll (r : Registry) (issuers : List Issuer) : Except IssuerError Registry :=
  issuers.foldlM register r

/-- Inserts policies in order. -/
def PolicyStore.insertAll (s : PolicyStore) (policies : List Policy) :
    Except PolicyError PolicyStore :=
  policies.foldlM insert s

/-- The domain of a configuration. -/
def Config.domain (c : Config) : Except ConfigError Domain := do
  let registry ← (Registry.empty.beginCycle.registerAll c.issuers).mapError .issuer
  let policies ← (PolicyStore.empty.insertAll c.policies).mapError .policy
  return ⟨registry, policies, c.bindings⟩

/-- Compiles the groups to a set of a revision. -/
def Domain.compileAt (d : Domain) (revision : UInt64) : Except CompileError BindingSet :=
  Federation.compileAt d.registry d.policies revision d.groups

/-- Compiles the groups to the set that comes after another one. -/
def Domain.compile (d : Domain) (previous : BindingSet) :
    Except (Stop CompileError) BindingSet := do
  let revision ← revisionAfter previous.revision
  (d.compileAt revision).mapError .failed

end Federation
