import Federation.Proofs.Except
import Federation.Proofs.StringMap
import Federation.Proofs.Template

/-!
# Groups that can be compiled

`BindingGroup.Admissible` says what a group has to satisfy, and `BindingGroup.declared`
which binding it declares for an environment and an operation, both without the checks
and templates that the compiler goes through.  Main statements: the checks pass exactly
for the admissible groups (`exists_check_iff`), and a group that has passed them is
expanded to what it declares (`binding_eq_declared`).
-/

namespace Federation

/-! ### Names -/

/-- Whether a character is an ASCII letter or digit, or one of `-`, `_` and `.`. -/
def IsNameChar (c : Char) : Prop :=
  ('A' ≤ c ∧ c ≤ 'Z') ∨ ('a' ≤ c ∧ c ≤ 'z') ∨ ('0' ≤ c ∧ c ≤ '9') ∨ c ∈ ['-', '_', '.']

/-- Whether a name can be part of a key. -/
def IsName (name : String) : Prop :=
  name ≠ "" ∧ ∀ c ∈ name.toList, IsNameChar c

theorem isKeyChar_iff (c : Char) :
  isKeyChar c = true ↔ IsNameChar c
  := by
  have halphanum : c.isAlphanum
      = (decide ('A' ≤ c ∧ c ≤ 'Z') || (decide ('a' ≤ c) && decide (c ≤ 'z'))
        || (decide ('0' ≤ c) && decide (c ≤ '9'))) := rfl
  simp only [isKeyChar, IsNameChar, halphanum, Bool.or_eq_true, Bool.and_eq_true,
    decide_eq_true_eq, List.mem_cons, List.not_mem_nil, or_false, or_assoc]

theorem isKeyName_iff (name : String) :
  isKeyName name = true ↔ IsName name
  := by
  simp [isKeyName, IsName, isKeyChar_iff]

theorem checkNames_eq_ok_iff {part : KeyPart} {names : List String} :
  checkNames part names = .ok () ↔ ∀ name ∈ names, IsName name
  := by
  rw [checkNames]
  constructor
  · intro h name hname
    split at h
    · cases h
    · rename_i hnone
      have hkey := List.find?_eq_none.mp hnone name hname
      apply (isKeyName_iff name).mp
      simpa using hkey
  · intro h
    rw [List.find?_eq_none.mpr]
    intro name hname
    simpa using (isKeyName_iff name).mpr (h name hname)

/-! ### Claims -/

/-- A claim can be compared with a text exactly when it has a type other than that of
lists. -/
theorem isComparable_iff {schema : ClaimSchema} {claim : String} :
  isComparable schema claim = true ↔ ∃ t, schema.claimType? claim = some t ∧ t ≠ .stringList
  := by
  have hscalar : ∀ t : ClaimType, t.isScalar = true ↔ t ≠ .stringList := by
    intro t
    cases t <;> simp [ClaimType.isScalar]
  rw [isComparable]
  cases schema.claimType? claim with
  | none => simp
  | some t => simp [hscalar]

theorem declares_iff {schema : ClaimSchema} {claim : String} :
  schema.declares claim = true ↔ ∃ t, schema.claimType? claim = some t
  := Option.isSome_iff_exists

theorem checkClaims_eq_ok_iff {i : Issuer} {g : BindingGroup} :
  checkClaims i g = .ok ()
    ↔ (∀ e ∈ g.boundClaims.entries,
        ∃ t, i.claimSchema.claimType? e.1 = some t ∧ t ≠ .stringList)
      ∧ ∀ e ∈ g.claimMappings.entries, ∃ t, i.claimSchema.claimType? e.1 = some t
  := by
  have hbound : g.boundClaims.keys.find? (fun claim => !isComparable i.claimSchema claim) = none
      ↔ ∀ e ∈ g.boundClaims.entries,
        ∃ t, i.claimSchema.claimType? e.1 = some t ∧ t ≠ .stringList := by
    simp [StringMap.keys, ← isComparable_iff]
  have hmapped : g.claimMappings.keys.find? (fun claim => !i.claimSchema.declares claim) = none
      ↔ ∀ e ∈ g.claimMappings.entries, ∃ t, i.claimSchema.claimType? e.1 = some t := by
    simp [StringMap.keys, ← declares_iff]
  rw [← hbound, ← hmapped, checkClaims]
  cases g.boundClaims.keys.find? fun claim => !isComparable i.claimSchema claim with
  | some claim => simp
  | none =>
    cases g.claimMappings.keys.find? fun claim => !i.claimSchema.declares claim with
    | some claim => simp
    | none => simp

/-! ### Audiences -/

/-- The audiences that the bindings of a group are for. -/
def BindingGroup.audiencesFor (g : BindingGroup) (i : Issuer) : StringSet :=
  g.boundAudiences.getD i.audiences

theorem resolveAudiences_eq_ok_iff {i : Issuer} {g : BindingGroup} {audiences : StringSet} :
  resolveAudiences i g = .ok audiences
    ↔ (g.audiencesFor i).elements ≠ []
      ∧ (∀ a ∈ (g.audiencesFor i).elements, a ∈ i.audiences.elements)
      ∧ audiences = g.audiencesFor i
  := by
  have hempty : (g.audiencesFor i).isEmpty = true ↔ (g.audiencesFor i).elements = [] :=
    List.isEmpty_iff
  have haccepted : (g.audiencesFor i).elements.find? (fun a => !i.audiences.contains a) = none
      ↔ ∀ a ∈ (g.audiencesFor i).elements, a ∈ i.audiences.elements := by
    simp [← StringSet.contains_iff]
  rw [ne_eq, ← hempty, ← haccepted]
  simp only [resolveAudiences]
  rw [← BindingGroup.audiencesFor]
  cases (g.audiencesFor i).isEmpty with
  | true => simp
  | false =>
    cases (g.audiencesFor i).elements.find? fun a => !i.audiences.contains a with
    | some a => simp
    | none => simp [eq_comm]

/-! ### Templates -/

theorem parseTemplate_eq_ok_iff {text : String} {t : Template} :
  parseTemplate text = .ok t ↔ Template.parse text = .ok t
  := by
  rw [parseTemplate]
  cases Template.parse text with
  | ok t => simp
  | error placeholder => simp

theorem exists_parseTemplate_iff {text : String} :
  (∃ t, parseTemplate text = .ok t) ↔ Template.IsTemplate text
  := by
  simp only [parseTemplate_eq_ok_iff, Template.exists_parse_iff]

theorem exists_parseClaims_iff {l : List (String × String)} :
  (∃ ts, parseClaims l = .ok ts) ↔ ∀ e ∈ l, Template.IsTemplate e.2
  := by
  induction l with
  | nil => simp [parseClaims]
  | cons e l ih =>
    rw [List.forall_mem_cons, ← ih, ← exists_parseTemplate_iff, parseClaims]
    constructor
    · rintro ⟨ts, h⟩
      obtain ⟨t, ht, h⟩ := bind_eq_ok_iff.mp h
      obtain ⟨rest, hrest, -⟩ := bind_eq_ok_iff.mp h
      exact ⟨⟨t, ht⟩, ⟨rest, hrest⟩⟩
    · rintro ⟨⟨t, ht⟩, ⟨rest, hrest⟩⟩
      use (e.1, t) :: rest
      rw [ht, hrest]
      rfl

/-- The bound claims of a group are filled in for the names of a binding. -/
theorem map_render_of_parseClaims {l : List (String × String)} {ts : List (String × Template)}
    (h : parseClaims l = .ok ts) (environment operation : String) :
  ts.map (fun e => (e.1, e.2.render environment operation))
    = l.map fun e => (e.1, Template.filled e.2 environment operation)
  := by
  induction l generalizing ts with
  | nil =>
    cases h
    rfl
  | cons e l ih =>
    obtain ⟨t, ht, h⟩ := bind_eq_ok_iff.mp h
    obtain ⟨rest, hrest, h⟩ := bind_eq_ok_iff.mp h
    cases h
    rw [List.map_cons, List.map_cons, ih hrest,
      Template.render_eq_filled (parseTemplate_eq_ok_iff.mp ht)]

/-! ### Groups -/

namespace BindingGroup

/-- What a group has to satisfy to be compiled for an issuer. -/
structure Admissible (registry : Registry) (policies : PolicyStore) (g : BindingGroup)
    (i : Issuer) : Prop where
  ttl_le : g.tokenTtl ≤ g.maxTtl
  resolves : registry.resolve? g.issuer = some i
  policy_stored : ∃ p, policies.get? g.policy = some p
  environments_ne_nil : g.environments ≠ []
  operations_ne_nil : g.operations ≠ []
  environment_names : ∀ e ∈ g.environments, IsName e
  operation_names : ∀ o ∈ g.operations, IsName o
  prefix_name : ∀ p ∈ g.keyPrefix, IsName p
  bound_declared : ∀ e ∈ g.boundClaims.entries,
    ∃ t, i.claimSchema.claimType? e.1 = some t ∧ t ≠ .stringList
  mapped_declared : ∀ e ∈ g.claimMappings.entries, ∃ t, i.claimSchema.claimType? e.1 = some t
  audiences_ne_nil : (g.audiencesFor i).elements ≠ []
  audiences_accepted : ∀ a ∈ (g.audiencesFor i).elements, a ∈ i.audiences.elements
  subject_template : Template.IsTemplate g.subjectTemplate
  claim_templates : ∀ e ∈ g.boundClaims.entries, Template.IsTemplate e.2

/-- The binding that a group declares for an environment and an operation. -/
def declared (g : BindingGroup) (i : Issuer) (environment operation : String) : Binding where
  key := bindingKey g.keyPrefix operation environment
  environment := environment
  operation := operation
  issuerId := i.id
  issuer := i.issuerUrl
  subject := Template.filled g.subjectTemplate environment operation
  boundAudiences := g.audiencesFor i
  boundClaims := g.boundClaims.map fun text => Template.filled text environment operation
  claimMappings := g.claimMappings
  tokenTtl := g.tokenTtl
  maxTtl := g.maxTtl
  policy := g.policy

theorem check_eq_ok_iff {registry : Registry} {policies : PolicyStore} {g : BindingGroup}
    {c : CheckedGroup} :
  g.check registry policies = .ok c
    ↔ ¬ g.maxTtl < g.tokenTtl ∧ ∃ i, registry.resolve? g.issuer = some i
      ∧ policies.contains g.policy = true ∧ g.environments ≠ [] ∧ g.operations ≠ []
      ∧ checkNames .environment g.environments = .ok ()
      ∧ checkNames .operation g.operations = .ok ()
      ∧ checkNames .keyPrefix g.keyPrefix.toList = .ok ()
      ∧ checkClaims i g = .ok ()
      ∧ ∃ audiences, resolveAudiences i g = .ok audiences
      ∧ ∃ subject, parseTemplate g.subjectTemplate = .ok subject
      ∧ ∃ claims, parseClaims g.boundClaims.entries = .ok claims
      ∧ ⟨g, i, audiences, subject, claims⟩ = c
  := by
  rw [check]
  simp only [Federation.check_eq_ok_iff]
  cases registry.resolve? g.issuer with
  | none => simp [bind, Except.bind]
  | some i =>
    have hunit : ∀ {P : Unit → Prop}, (∃ a, P a) ↔ P () := ⟨fun ⟨(), h⟩ => h, fun h => ⟨(), h⟩⟩
    simp only [Federation.check_eq_ok_iff, bind_eq_ok_iff, Option.some.injEq, exists_eq_left',
      Except.ok.injEq, hunit, List.isEmpty_iff, Bool.not_eq_true', Bool.not_eq_false, ne_eq]

/-- A group that has passed the checks can be compiled for the issuer that was found. -/
theorem admissible_of_check {registry : Registry} {policies : PolicyStore} {g : BindingGroup}
    {c : CheckedGroup} (h : g.check registry policies = .ok c) :
  g.Admissible registry policies c.issuer
  := by
  obtain ⟨httl, i, hi, hpolicy, henv, hop, hnames, honames, hprefix, hclaims, audiences, haud,
    subject, hsubject, claims, hparsed, rfl⟩ := check_eq_ok_iff.mp h
  obtain ⟨hbound, hmapped⟩ := checkClaims_eq_ok_iff.mp hclaims
  obtain ⟨hne, haccepted, -⟩ := resolveAudiences_eq_ok_iff.mp haud
  constructor
  · apply UInt64.not_lt.mp httl
  · apply hi
  · apply (policies.policies.contains_iff g.policy).mp hpolicy
  · apply henv
  · apply hop
  · apply checkNames_eq_ok_iff.mp hnames
  · apply checkNames_eq_ok_iff.mp honames
  · intro p hp
    apply checkNames_eq_ok_iff.mp hprefix p
    apply Option.mem_toList.mpr hp
  · apply hbound
  · apply hmapped
  · apply hne
  · apply haccepted
  · apply exists_parseTemplate_iff.mp ⟨subject, hsubject⟩
  · apply exists_parseClaims_iff.mp ⟨claims, hparsed⟩

/-- A group that can be compiled passes the checks. -/
theorem exists_check_of_admissible {registry : Registry} {policies : PolicyStore}
    {g : BindingGroup} {i : Issuer} (h : g.Admissible registry policies i) :
  ∃ c, g.check registry policies = .ok c
  := by
  obtain ⟨subject, hsubject⟩ := exists_parseTemplate_iff.mpr h.subject_template
  obtain ⟨claims, hclaims⟩ := exists_parseClaims_iff.mpr h.claim_templates
  use ⟨g, i, g.audiencesFor i, subject, claims⟩
  apply check_eq_ok_iff.mpr
  refine ⟨UInt64.not_lt.mpr h.ttl_le, i, h.resolves,
    (policies.policies.contains_iff g.policy).mpr h.policy_stored, h.environments_ne_nil,
    h.operations_ne_nil, checkNames_eq_ok_iff.mpr h.environment_names,
    checkNames_eq_ok_iff.mpr h.operation_names, checkNames_eq_ok_iff.mpr ?_,
    checkClaims_eq_ok_iff.mpr ⟨h.bound_declared, h.mapped_declared⟩, g.audiencesFor i,
    resolveAudiences_eq_ok_iff.mpr ⟨h.audiences_ne_nil, h.audiences_accepted, rfl⟩,
    subject, hsubject, claims, hclaims, rfl⟩
  intro p hp
  apply h.prefix_name p
  apply Option.mem_toList.mp hp

/-- The checks pass exactly for the groups that can be compiled. -/
theorem exists_check_iff {registry : Registry} {policies : PolicyStore} {g : BindingGroup} :
  (∃ c, g.check registry policies = .ok c) ↔ ∃ i, g.Admissible registry policies i
  := by
  constructor
  · rintro ⟨c, h⟩
    use c.issuer
    apply admissible_of_check h
  · rintro ⟨i, h⟩
    apply exists_check_of_admissible h

theorem group_of_check {registry : Registry} {policies : PolicyStore} {g : BindingGroup}
    {c : CheckedGroup} (h : g.check registry policies = .ok c) :
  c.group = g
  := by
  obtain ⟨-, i, -, -, -, -, -, -, -, -, audiences, -, subject, -, claims, -, rfl⟩ :=
    check_eq_ok_iff.mp h
  rfl

/-- A group that has passed the checks has the bindings that it declares. -/
theorem binding_eq_declared {registry : Registry} {policies : PolicyStore} {g : BindingGroup}
    {c : CheckedGroup} (h : g.check registry policies = .ok c) :
  c.binding = g.declared c.issuer
  := by
  obtain ⟨-, i, -, -, -, -, -, -, -, -, audiences, haud, subject, hsubject, claims, hclaims, rfl⟩ :=
    check_eq_ok_iff.mp h
  obtain ⟨-, -, rfl⟩ := resolveAudiences_eq_ok_iff.mp haud
  funext environment operation
  have hbound : StringMap.ofList (claims.map fun e => (e.1, e.2.render environment operation))
      = g.boundClaims.map fun text => Template.filled text environment operation := by
    rw [map_render_of_parseClaims hclaims, ← StringMap.ofList_entries (g.boundClaims.map _)]
    rfl
  rw [CheckedGroup.binding, declared, hbound,
    Template.render_eq_filled (parseTemplate_eq_ok_iff.mp hsubject)]

end BindingGroup
end Federation
