import Federation.Proofs.Config.Domain
import Federation.Proofs.Evaluate.Isolation

/-!
# The order of declarations

A configuration lists its issuers, its policies and its groups of bindings, and a group its
environments and operations.  Everything that is made of these lists is made step by step
and stops at the first step that fails, but whether it fails, and what comes of it if it
does not, depends on what the lists hold and not on their order.  Main statement: two
configurations that differ in these orders alone compile to one and the same set, or neither
of them does (`Config.compiles_iff_of_reordered`).
-/

namespace Federation

/-! ### Groups -/

/-- Whether a group is another one with its environments and its operations in another
order. -/
inductive BindingGroup.Reordered (g : BindingGroup) : BindingGroup → Prop where
  | intro {environments operations : List String}
      (henvironments : g.environments.Perm environments)
      (hoperations : g.operations.Perm operations) :
      Reordered g { g with environments := environments, operations := operations }

/-- Whether groups are others in another order, with their environments and operations in
another order too. -/
def ReorderedGroups (groups groups' : List BindingGroup) : Prop :=
  ∃ permuted, groups.Perm permuted ∧ List.Forall₂ BindingGroup.Reordered permuted groups'

namespace BindingGroup

variable {registry : Registry} {policies : PolicyStore} {g g' : BindingGroup} {i : Issuer}

theorem Reordered.symm (h : g.Reordered g') :
  g'.Reordered g
  := by
  cases h with
  | intro henvironments hoperations => exact .intro henvironments.symm hoperations.symm

theorem Reordered.issuer_eq (h : g.Reordered g') :
  g.issuer = g'.issuer
  := by
  cases h with
  | intro henvironments hoperations => rfl

theorem Reordered.admissible (h : g.Reordered g') (hg : g.Admissible registry policies i) :
  g'.Admissible registry policies i
  := by
  cases h with
  | intro henvironments hoperations =>
    have hne : ∀ {l l' : List String}, l.Perm l' → l ≠ [] → l' ≠ [] :=
      fun hperm hl hl' => hl (List.perm_nil.mp (hl' ▸ hperm))
    exact { hg with
      environments_ne_nil := hne henvironments hg.environments_ne_nil
      operations_ne_nil := hne hoperations hg.operations_ne_nil
      environment_names := fun e he => hg.environment_names e (henvironments.mem_iff.mpr he)
      operation_names := fun o ho => hg.operation_names o (hoperations.mem_iff.mpr ho) }

/-- A group declares the same bindings in whatever order its lists are. -/
theorem Reordered.declarations_perm (h : g.Reordered g') (registry : Registry) :
  (g.declarations registry).Perm (g'.declarations registry)
  := by
  cases h with
  | intro henvironments hoperations =>
    rw [declarations, declarations]
    cases registry.resolve? g.issuer with
    | none => rfl
    | some i =>
      apply henvironments.flatMap
      intro environment _
      apply hoperations.map

end BindingGroup

namespace ReorderedGroups

variable {registry : Registry} {policies : PolicyStore} {revision : UInt64}
  {groups groups' : List BindingGroup}

theorem symm (h : ReorderedGroups groups groups') :
  ReorderedGroups groups' groups
  := by
  obtain ⟨permuted, hperm, hall⟩ := h
  have hflip : List.Forall₂ BindingGroup.Reordered groups' permuted :=
    (hall.imp fun _ _ hg => hg.symm).flip
  have hcomp : Relation.Comp (List.Forall₂ BindingGroup.Reordered) List.Perm groups' groups :=
    ⟨permuted, hflip, hperm.symm⟩
  rw [List.forall₂_comp_perm_eq_perm_comp_forall₂] at hcomp
  apply hcomp

theorem exists_mem (h : ReorderedGroups groups groups') {g : BindingGroup} (hg : g ∈ groups) :
  ∃ g' ∈ groups', g.Reordered g'
  := by
  obtain ⟨permuted, hperm, hall⟩ := h
  have hmem := hperm.mem_iff.mp hg
  clear hperm
  induction hall with
  | nil => cases hmem
  | cons hfirst hrest ih =>
    rcases List.mem_cons.mp hmem with rfl | hmem
    · exact ⟨_, List.mem_cons_self, hfirst⟩
    · obtain ⟨g', hg', hreordered⟩ := ih hmem
      exact ⟨g', List.mem_cons_of_mem _ hg', hreordered⟩

theorem declarations_perm (h : ReorderedGroups groups groups') (registry : Registry) :
  (declarations registry groups).Perm (declarations registry groups')
  := by
  obtain ⟨permuted, hperm, hall⟩ := h
  apply (hperm.flatMap_right _).trans
  clear hperm
  induction hall with
  | nil => rfl
  | cons hfirst hrest ih => apply (hfirst.declarations_perm registry).append ih

theorem compilable (h : ReorderedGroups groups groups')
    (hgroups : Compilable registry policies groups) :
  Compilable registry policies groups'
  := by
  constructor
  · intro g' hg'
    obtain ⟨g, hg, hreordered⟩ := h.symm.exists_mem hg'
    obtain ⟨i, hi⟩ := hgroups.admissible g hg
    use i
    apply hreordered.symm.admissible hi
  · apply (Distinct.perm (h.declarations_perm registry)).mp hgroups.distinct

theorem exists_resolves (h : ReorderedGroups groups groups') {i : Issuer}
    (hi : ∃ g ∈ groups, registry.resolve? g.issuer = some i) :
  ∃ g ∈ groups', registry.resolve? g.issuer = some i
  := by
  obtain ⟨g, hg, hi⟩ := hi
  obtain ⟨g', hg', hreordered⟩ := h.exists_mem hg
  refine ⟨g', hg', ?_⟩
  rw [← hreordered.issuer_eq]
  apply hi

/-- What a pass holds after groups it holds after them in any other order. -/
theorem holds (h : ReorderedGroups groups groups') {p : CompilePass}
    (hp : CompilePass.Holds registry policies revision groups p) :
  CompilePass.Holds registry policies revision groups' p
  := by
  constructor
  · apply hp.revision_eq
  · apply hp.keyed
  · apply hp.values_perm.trans (h.declarations_perm registry)
  · apply h.compilable hp.compilable
  · intro url i
    rw [hp.issuers_iff]
    apply and_congr_right
    intro _
    constructor
    · apply h.exists_resolves
    · apply h.symm.exists_resolves

end ReorderedGroups

/-! ### Passes -/

/-- In a map whose bindings stand under their keys they are found by these keys. -/
theorem Keyed.finds {bindings : StringMap Binding} (h : Keyed bindings) {l : List Binding}
    (hperm : bindings.values.Perm l) :
  Finds Binding.key l bindings.get?
  := by
  intro key b
  rw [← hperm.mem_iff, bindings.mem_values_iff]
  constructor
  · intro hb
    exact ⟨⟨key, hb⟩, h key b hb⟩
  · rintro ⟨⟨other, hb⟩, hkey⟩
    rw [← hkey, h other b hb]
    apply hb

section

variable {registry : Registry} {policies : PolicyStore} {revision : UInt64}
  {groups groups' : List BindingGroup}

/-- What a pass holds determines it. -/
theorem CompilePass.Holds.unique {p p' : CompilePass}
    (hp : Holds registry policies revision groups p)
    (hp' : Holds registry policies revision groups p') :
  p = p'
  := by
  have hrevision : p.revision = p'.revision := hp.revision_eq.trans hp'.revision_eq.symm
  have hbindings : p.bindings = p'.bindings :=
    StringMap.ext_get? ((hp.keyed.finds hp.values_perm).unique (hp'.keyed.finds hp'.values_perm))
  have hissuers : p.issuers = p'.issuers := by
    apply StringMap.ext_get?
    intro url
    apply Option.ext
    intro i
    rw [hp.issuers_iff, hp'.issuers_iff]
  cases p
  cases p'
  cases hrevision
  cases hbindings
  cases hissuers
  rfl

/-- Groups are compiled to the same set in whatever order they and their lists stand. -/
theorem compileAt_eq_ok_iff_of_reordered (h : ReorderedGroups groups groups') {s : BindingSet} :
  compileAt registry policies revision groups = .ok s
    ↔ compileAt registry policies revision groups' = .ok s
  := by
  have hpass : ∀ p, groups.foldlM (CompilePass.add registry policies) { revision := revision }
        = .ok p
      ↔ groups'.foldlM (CompilePass.add registry policies) { revision := revision } = .ok p := by
    intro p
    apply (CompilePass.accumulates_add registry policies revision).foldlM_eq_ok_iff
      (CompilePass.holds_begin registry policies revision)
    · constructor
      · apply h.compilable
      · apply h.symm.compilable
    · intro last last' hlast hlast'
      apply (h.holds hlast).unique hlast'
  rw [compileAt, compileAt, map_eq_ok_iff, map_eq_ok_iff]
  simp only [hpass]

end

/-! ### Configurations -/

namespace Config

/-- Whether two configurations hold the same issuers, policies and groups, in whatever order
they, their environments and their operations stand. -/
structure Reordered (c c' : Config) : Prop where
  issuers : c.issuers.Perm c'.issuers
  policies : c.policies.Perm c'.policies
  bindings : ReorderedGroups c.bindings c'.bindings

/-- Whether what a configuration trusts can be loaded and compiles to a set of a revision. -/
def Compiles (c : Config) (revision : UInt64) (s : BindingSet) : Prop :=
  ∃ d, c.domain = .ok d ∧ d.compileAt revision = .ok s

theorem domain_eq_ok_iff {c : Config} {d : Domain} :
  c.domain = .ok d
    ↔ Registry.empty.beginCycle.registerAll c.issuers = .ok d.registry
      ∧ PolicyStore.empty.insertAll c.policies = .ok d.policies ∧ c.bindings = d.groups
  := by
  rw [domain, bind_eq_ok_iff]
  simp only [bind_eq_ok_iff, mapError_eq_ok_iff]
  constructor
  · rintro ⟨registry, hregistry, policies, hpolicies, hd⟩
    cases hd
    exact ⟨hregistry, hpolicies, rfl⟩
  · rintro ⟨hregistry, hpolicies, hgroups⟩
    refine ⟨d.registry, hregistry, d.policies, hpolicies, ?_⟩
    rw [hgroups]
    rfl

theorem Reordered.compiles {c c' : Config} (h : c.Reordered c') {revision : UInt64}
    {s : BindingSet} (hs : c.Compiles revision s) :
  c'.Compiles revision s
  := by
  obtain ⟨d, hd, hcompile⟩ := hs
  obtain ⟨hregistry, hpolicies, hgroups⟩ := domain_eq_ok_iff.mp hd
  refine ⟨{ d with groups := c'.bindings }, domain_eq_ok_iff.mpr ⟨?_, ?_, rfl⟩, ?_⟩
  · apply (Registry.registerAll_eq_ok_iff_of_perm h.issuers).mp hregistry
  · apply (PolicyStore.insertAll_eq_ok_iff_of_perm h.policies).mp hpolicies
  · rw [Domain.compileAt, ← hgroups] at hcompile
    apply (compileAt_eq_ok_iff_of_reordered h.bindings).mp hcompile

theorem Reordered.symm {c c' : Config} (h : c.Reordered c') :
  c'.Reordered c
  := ⟨h.issuers.symm, h.policies.symm, h.bindings.symm⟩

/-- The order of what a configuration declares decides nothing: two configurations that differ
in it alone compile to one and the same set at a revision, with the same bindings, digest,
issuers, lists by issuer and by scope, and decisions on every token, or neither of them does. -/
theorem compiles_iff_of_reordered {c c' : Config} (h : c.Reordered c') (revision : UInt64)
    (s : BindingSet) :
  c.Compiles revision s ↔ c'.Compiles revision s
  := by
  constructor
  · apply h.compiles
  · apply h.symm.compiles

end Config

namespace Sample

/-- A configuration of two issuers with bindings for the same subjects. -/
def twoIssuers : Config where
  issuers := [issuer, otherIssuer]
  policies := [⟨"deploy", [⟨"secret/*", ["read"]⟩]⟩, ⟨"audit", [⟨"log/*", ["read"]⟩]⟩]
  bindings := [group, otherGroup]

/-- The same configuration, written down in another order throughout. -/
def twoIssuersReordered : Config where
  issuers := [otherIssuer, issuer]
  policies := [⟨"audit", [⟨"log/*", ["read"]⟩]⟩, ⟨"deploy", [⟨"secret/*", ["read"]⟩]⟩]
  bindings := [
    { otherGroup with operations := ["apply", "plan"] },
    { group with environments := ["dev", "prod"], operations := ["apply", "plan"] }]

def twoIssuersDomain : Domain := twoIssuers.domain.toOption.getD ⟨.empty, .empty, []⟩

def twoIssuersSet : BindingSet := (twoIssuersDomain.compileAt 1).toOption.getD .empty

theorem twoIssuers_compiles :
  twoIssuers.Compiles 1 twoIssuersSet
  := by
  have hdomain : twoIssuers.domain.isOk = true := by decide +kernel
  have hcompile : (twoIssuersDomain.compileAt 1).isOk = true := by decide +kernel
  exact ⟨twoIssuersDomain, eq_ok_getD_of_isOk hdomain _, eq_ok_getD_of_isOk hcompile _⟩

theorem twoIssuers_reordered :
  twoIssuers.Reordered twoIssuersReordered
  := by
  constructor
  · apply List.Perm.swap
  · apply List.Perm.swap
  · refine ⟨[otherGroup, group], List.Perm.swap _ _ _, ?_⟩
    apply List.Forall₂.cons
    · apply BindingGroup.Reordered.intro
      · rfl
      · apply List.Perm.swap
    · apply List.Forall₂.cons
      · apply BindingGroup.Reordered.intro
        · apply List.Perm.swap
        · apply List.Perm.swap
      · apply List.Forall₂.nil

end Sample

theorem Config.compiles_iff_of_reordered_sample :
  Sample.twoIssuers.Reordered Sample.twoIssuersReordered
    ∧ Sample.twoIssuersSet.records.length = 8
    ∧ Sample.twoIssuersReordered.Compiles 1 Sample.twoIssuersSet
  := by
  refine ⟨Sample.twoIssuers_reordered, ?_, ?_⟩
  · decide +kernel
  · apply (Config.compiles_iff_of_reordered Sample.twoIssuers_reordered 1 _).mp
    apply Sample.twoIssuers_compiles

end Federation
