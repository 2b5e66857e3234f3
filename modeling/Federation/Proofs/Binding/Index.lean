import Federation.Proofs.Evaluate
import Federation.Proofs.Issuer.Listing

/-!
# Indexes and records agree

A compiled set can be asked for the bindings of an issuer, for those of an environment and an
operation, for the binding of a key and for the issuer of a URL.  The first two answers come
from indexes that are made of the bindings, the last one from a table that is filled group by
group, whether a group refers to its issuer by identifier or by URL.  `BindingSet.Coherent`
says that all of them agree with the list of bindings and with the registry.  Main statement:
this holds of every compiled set (`coherent_of_compileAt`).
-/

namespace Federation

/-- Whether what a set of bindings can be asked for agrees with its bindings, and its issuers
with those of a registry. -/
structure BindingSet.Coherent (registry : Registry) (s : BindingSet) : Prop where
  records_ascending : s.records.Pairwise fun a b => a.key < b.key
  forIssuer_eq : ∀ url, s.forIssuer url = s.records.filter fun b => b.issuer = url
  forScope_eq : ∀ environment operation, s.forScope environment operation
    = s.records.filter fun b => b.environment = environment ∧ b.operation = operation
  /-- A binding is found by its key, and by no other one. -/
  get?_iff : ∀ key b, s.get? key = some b ↔ b ∈ s.records ∧ b.key = key
  /-- An issuer is known exactly when it has a binding. -/
  issuer?_iff : ∀ url, (∃ i, s.issuer? url = some i) ↔ s.forIssuer url ≠ []
  lookup?_eq : ∀ url i, s.issuer? url = some i → registry.lookup? url = some i
  issuerId_eq : ∀ url i, s.issuer? url = some i → ∀ b ∈ s.forIssuer url, b.issuerId = i.id
  audiences_accepted : ∀ url i, s.issuer? url = some i → ∀ b ∈ s.forIssuer url,
    ∀ a ∈ b.boundAudiences.elements, a ∈ i.audiences.elements

section

variable {registry : Registry} {policies : PolicyStore} {revision : UInt64}
  {groups : List BindingGroup} {s : BindingSet}

theorem mem_forIssuer_iff (h : compileAt registry policies revision groups = .ok s)
    {url : String} {b : Binding} :
  b ∈ s.forIssuer url ↔ b ∈ s.records ∧ b.issuer = url
  := by
  rw [forIssuer_of_compileAt h, List.mem_filter, decide_eq_true_iff]

/-- The issuer that a compiled set knows under a URL is the one that is registered under it. -/
theorem lookup?_of_issuer? (h : compileAt registry policies revision groups = .ok s)
    {url : String} {i : Issuer} (hi : s.issuer? url = some i) :
  registry.lookup? url = some i
  := by
  obtain ⟨hmem, -⟩ := (registry.get?_eq_some_iff i.id i).mp (get?_of_issuer? h hi)
  apply (registry.lookup?_eq_some_iff url i).mpr ⟨hmem, issuerUrl_of_issuer? h hi⟩

/-- A binding of a compiled set has the identifier of its issuer, and is for audiences that
the issuer accepts. -/
theorem fits_issuer_of_mem_forIssuer (h : compileAt registry policies revision groups = .ok s)
    {url : String} {i : Issuer} (hi : s.issuer? url = some i) {b : Binding}
    (hb : b ∈ s.forIssuer url) :
  b.issuerId = i.id ∧ ∀ a ∈ b.boundAudiences.elements, a ∈ i.audiences.elements
  := by
  obtain ⟨hmem, hurl⟩ := (mem_forIssuer_iff h).mp hb
  obtain ⟨g, -, j, hj, hissuer, environment, -, operation, -, rfl⟩ :=
    exists_declared_of_mem_records h hmem
  rw [hurl, hi] at hissuer
  cases hissuer
  exact ⟨rfl, hj.audiences_accepted⟩

/-- The indexes of a compiled set agree with its bindings: it lists exactly the bindings of an
issuer, and exactly those for an environment and an operation, in ascending order of their
keys, and finds each by its key; it knows the issuers of its bindings and no others, as they
are registered, with the identifier that the bindings have and all of their audiences. -/
theorem coherent_of_compileAt (h : compileAt registry policies revision groups = .ok s) :
  s.Coherent registry
  := by
  constructor
  · apply pairwise_key_lt_of_compileAt h
  · apply forIssuer_of_compileAt h
  · apply forScope_of_compileAt h
  · intro key b
    apply get?_eq_some_iff_of_compileAt h
  · intro url
    rw [issuer?_isSome_iff h]
    constructor
    · rintro ⟨b, hb⟩
      apply List.ne_nil_of_mem ((mem_forIssuer_iff h).mpr hb)
    · intro hne
      obtain ⟨b, hb⟩ := List.exists_mem_of_ne_nil _ hne
      exact ⟨b, (mem_forIssuer_iff h).mp hb⟩
  · intro url i hi
    apply lookup?_of_issuer? h hi
  · intro url i hi b hb
    apply (fits_issuer_of_mem_forIssuer h hi hb).1
  · intro url i hi b hb
    apply (fits_issuer_of_mem_forIssuer h hi hb).2

end

namespace Sample

/-- A binding for the issuer of `group`, which is referred to by its identifier here. -/
def byIdGroup : BindingGroup :=
  { group with
    issuer := "ci"
    environments := ["dev"]
    operations := ["plan"]
    subjectTemplate := "planner"
    keyPrefix := some "by-id" }

/-- The set of the bindings of both groups. -/
def referredSet : BindingSet :=
  (compileAt registry policies 1 [group, byIdGroup]).toOption.getD .empty

theorem compileAt_eq_referredSet :
  compileAt registry policies 1 [group, byIdGroup] = .ok referredSet
  := by
  have hok : (compileAt registry policies 1 [group, byIdGroup]).isOk = true := by decide +kernel
  apply eq_ok_getD_of_isOk hok

end Sample

theorem coherent_of_compileAt_sample :
  compileAt Sample.registry Sample.policies 1 [Sample.group, Sample.byIdGroup]
      = .ok Sample.referredSet
    ∧ (Sample.referredSet.forScope "dev" "plan").map Binding.key = ["by-id-plan-dev", "plan-dev"]
    ∧ Sample.referredSet.Coherent Sample.registry
  := by
  refine ⟨Sample.compileAt_eq_referredSet, ?_, ?_⟩
  · decide +kernel
  · apply coherent_of_compileAt Sample.compileAt_eq_referredSet

end Federation
