import Federation.Proofs.Binding.Compile

/-!
# Looking bindings up

The index of issuers of a compiled set lists, for each URL, exactly the bindings of that
issuer (`forIssuer_of_compileAt`), and the index of scopes those for each environment and
operation (`forScope_of_compileAt`); each binding of the set is one that some group
declares for an issuer that the set knows (`exists_declared_of_mem_records`), and a set
knows exactly the issuers that its groups refer to (`issuer?_eq_some_iff`), which are those
of its bindings (`issuer?_isSome_iff`).
-/

namespace Federation

variable {registry : Registry} {policies : PolicyStore} {revision : UInt64}
  {groups : List BindingGroup} {s : BindingSet}

namespace BindingSet

/-- Reading bindings one after another, of which those with a property are listed, lists these
in order. -/
theorem listed_foldl {Index : Type} (listed : Index → List String)
    {step : Index → Binding → Index} {P : Binding → Prop} [DecidablePred P]
    (hstep : ∀ index b, listed (step index b) = listed index ++ if P b then [b.key] else [])
    (l : List Binding) (index : Index) :
  listed (l.foldl step index) = listed index ++ (l.filter P).map Binding.key
  := by
  induction l generalizing index with
  | nil => simp
  | cons b l ih =>
    rw [List.foldl_cons, ih, hstep]
    by_cases hP : P b
    · simp [hP]
    · simp [hP]

/-- A key is listed under the name that it is added under, and no other. -/
theorem get?_appendKey (index : StringMap (List String)) (name key other : String) :
  ((appendKey index name key).get? other).getD []
    = (index.get? other).getD [] ++ if name = other then [key] else []
  := by
  rw [appendKey, StringMap.get?_insert]
  by_cases hname : name = other
  · simp [hname]
  · rw [if_neg (Ne.symm hname), if_neg hname, List.append_nil]

/-- Listing bindings under their issuers adds the keys of the bindings of an issuer to
those that are listed under its URL. -/
theorem get?_foldl_appendKey (l : List Binding) (index : StringMap (List String)) (url : String) :
  ((l.foldl (fun index b => appendKey index b.issuer b.key) index).get? url).getD []
    = (index.get? url).getD [] ++ (l.filter fun b => b.issuer = url).map Binding.key
  := listed_foldl (fun index => (index.get? url).getD [])
    (fun index b => get?_appendKey index b.issuer b.key url) l index

/-- The keys that are listed under an environment and an operation. -/
def scopeKeys (index : StringMap (StringMap (List String))) (environment operation : String) :
    List String :=
  ((index.get? environment).bind (·.get? operation)).getD []

/-- The key of a binding is listed under its environment and operation, and no others. -/
theorem scopeKeys_appendScope (index : StringMap (StringMap (List String))) (b : Binding)
    (environment operation : String) :
  scopeKeys (appendScope index b) environment operation
    = scopeKeys index environment operation
      ++ if b.environment = environment ∧ b.operation = operation then [b.key] else []
  := by
  rw [scopeKeys, appendScope, StringMap.get?_insert]
  by_cases henvironment : b.environment = environment
  · have hkeys : ((((index.get? environment).getD {}).get? operation).getD [])
        = scopeKeys index environment operation := by
      rw [scopeKeys]
      cases index.get? environment <;> rfl
    subst henvironment
    rw [if_pos rfl, Option.bind_some, get?_appendKey, hkeys]
    simp only [true_and]
  · rw [if_neg (Ne.symm henvironment), if_neg fun h => henvironment h.1, List.append_nil]
    rfl

/-- The keys of bindings of a map lead back to these bindings. -/
theorem filterMap_get?_map_key {bindings : StringMap Binding} (h : Keyed bindings)
    {l : List Binding} (hl : ∀ b ∈ l, b ∈ bindings.values) :
  (l.map Binding.key).filterMap bindings.get? = l
  := by
  induction l with
  | nil => rfl
  | cons b l ih =>
    obtain ⟨key, hkey⟩ := (bindings.mem_values_iff b).mp (hl b List.mem_cons_self)
    have hb : bindings.get? b.key = some b := by
      rw [h key b hkey, hkey]
    rw [List.map_cons, List.filterMap_cons_some hb,
      ih fun c hc => hl c (List.mem_cons_of_mem _ hc)]

/-- The index of issuers lists the bindings of each issuer. -/
theorem forIssuer_ofBindings {bindings : StringMap Binding} (h : Keyed bindings)
    (revision : UInt64) (issuers : StringMap Issuer) (url : String) :
  (ofBindings revision bindings issuers).forIssuer url
    = bindings.values.filter fun b => b.issuer = url
  := by
  have hkeys := get?_foldl_appendKey bindings.values {} url
  have hempty : (({} : StringMap (List String)).get? url).getD [] = [] := rfl
  rw [hempty, List.nil_append] at hkeys
  rw [forIssuer]
  simp only [ofBindings]
  rw [hkeys]
  apply filterMap_get?_map_key h
  intro b hb
  apply List.mem_of_mem_filter hb

/-- The index of scopes lists the bindings for each environment and operation. -/
theorem forScope_ofBindings {bindings : StringMap Binding} (h : Keyed bindings)
    (revision : UInt64) (issuers : StringMap Issuer) (environment operation : String) :
  (ofBindings revision bindings issuers).forScope environment operation
    = bindings.values.filter fun b => b.environment = environment ∧ b.operation = operation
  := by
  have hkeys := listed_foldl (fun index => scopeKeys index environment operation)
    (fun index b => scopeKeys_appendScope index b environment operation) bindings.values {}
  have hempty : scopeKeys {} environment operation = [] := rfl
  rw [hempty, List.nil_append, scopeKeys] at hkeys
  rw [forScope]
  simp only [ofBindings]
  rw [hkeys]
  apply filterMap_get?_map_key h
  intro b hb
  apply List.mem_of_mem_filter hb

end BindingSet

/-- A compiled set has the revision that it was compiled for. -/
theorem revision_of_compileAt (h : compileAt registry policies revision groups = .ok s) :
  s.revision = revision
  := by
  obtain ⟨p, hp, rfl⟩ := exists_holds_of_compileAt h
  apply hp.revision_eq

/-- The bindings of a compiled set are those that its groups declare. -/
theorem records_perm_of_compileAt (h : compileAt registry policies revision groups = .ok s) :
  s.records.Perm (declarations registry groups)
  := by
  obtain ⟨p, hp, rfl⟩ := exists_holds_of_compileAt h
  apply hp.values_perm

/-- The bindings of a compiled set stand in ascending order of their keys. -/
theorem pairwise_key_lt_of_compileAt (h : compileAt registry policies revision groups = .ok s) :
  s.records.Pairwise fun a b => a.key < b.key
  := by
  obtain ⟨p, hp, rfl⟩ := exists_holds_of_compileAt h
  apply hp.keyed.pairwise_key_lt

/-- Bindings in ascending order of their keys are in one order only. -/
theorem eq_of_perm_of_ascending {l l' : List Binding} (hl : l.Pairwise fun a b => a.key < b.key)
    (hl' : l'.Pairwise fun a b => a.key < b.key) (h : l.Perm l') :
  l = l'
  := by
  apply h.eq_of_pairwise _ hl hl'
  intro a b _ _ hab hba
  exact absurd hba (String.lt_asymm hab)

/-- The issuers of a compiled set are those that its groups refer to. -/
theorem issuer?_eq_some_iff (h : compileAt registry policies revision groups = .ok s)
    {url : String} {i : Issuer} :
  s.issuer? url = some i
    ↔ i.issuerUrl = url ∧ ∃ g ∈ groups, registry.resolve? g.issuer = some i
  := by
  obtain ⟨p, hp, rfl⟩ := exists_holds_of_compileAt h
  apply hp.issuers_iff

/-- A compiled set has a key exactly when it has a binding of that key. -/
theorem contains_iff_of_compileAt (h : compileAt registry policies revision groups = .ok s)
    (key : String) :
  s.contains key = true ↔ ∃ b ∈ s.records, b.key = key
  := by
  obtain ⟨p, hp, rfl⟩ := exists_holds_of_compileAt h
  apply (hp.keyed.contains_iff key).trans List.mem_map

/-- A binding of a compiled set is found by its key, and by no other one. -/
theorem get?_eq_some_iff_of_compileAt (h : compileAt registry policies revision groups = .ok s)
    {key : String} {b : Binding} :
  s.get? key = some b ↔ b ∈ s.records ∧ b.key = key
  := by
  obtain ⟨p, hp, rfl⟩ := exists_holds_of_compileAt h
  constructor
  · intro hget
    exact ⟨(StringMap.mem_values_iff _ b).mpr ⟨key, hget⟩, hp.keyed key b hget⟩
  · rintro ⟨hb, rfl⟩
    obtain ⟨key, hget⟩ := (StringMap.mem_values_iff _ b).mp hb
    rw [hp.keyed key b hget]
    exact hget

/-- The index of issuers of a compiled set lists the bindings of each issuer. -/
theorem forIssuer_of_compileAt (h : compileAt registry policies revision groups = .ok s)
    (url : String) :
  s.forIssuer url = s.records.filter fun b => b.issuer = url
  := by
  obtain ⟨p, hp, rfl⟩ := exists_holds_of_compileAt h
  apply BindingSet.forIssuer_ofBindings hp.keyed

/-- The index of scopes of a compiled set lists the bindings for each environment and
operation. -/
theorem forScope_of_compileAt (h : compileAt registry policies revision groups = .ok s)
    (environment operation : String) :
  s.forScope environment operation
    = s.records.filter fun b => b.environment = environment ∧ b.operation = operation
  := by
  obtain ⟨p, hp, rfl⟩ := exists_holds_of_compileAt h
  apply BindingSet.forScope_ofBindings hp.keyed

/-- The bindings that a group declares. -/
theorem BindingGroup.mem_declarations_iff {g : BindingGroup} {b : Binding} :
  b ∈ g.declarations registry
    ↔ ∃ i, registry.resolve? g.issuer = some i
      ∧ ∃ environment ∈ g.environments, ∃ operation ∈ g.operations,
        b = g.declared i environment operation
  := by
  rw [BindingGroup.declarations]
  cases registry.resolve? g.issuer with
  | none => simp
  | some i => simp [eq_comm]

/-- The issuer that a group of a compiled set refers to is one that the set knows. -/
theorem issuer?_of_resolve? (h : compileAt registry policies revision groups = .ok s)
    {g : BindingGroup} (hg : g ∈ groups) {i : Issuer} (hi : registry.resolve? g.issuer = some i) :
  s.issuer? i.issuerUrl = some i
  := (issuer?_eq_some_iff h).mpr ⟨rfl, g, hg, hi⟩

/-- A binding of a compiled set is one that an admissible group declares, for an issuer
that the set knows. -/
theorem exists_declared_of_mem_records
    (h : compileAt registry policies revision groups = .ok s) {b : Binding} (hb : b ∈ s.records) :
  ∃ g ∈ groups, ∃ i, g.Admissible registry policies i ∧ s.issuer? b.issuer = some i
    ∧ ∃ environment ∈ g.environments, ∃ operation ∈ g.operations,
      b = g.declared i environment operation
  := by
  obtain ⟨p, hp, hfinish⟩ := exists_holds_of_compileAt h
  subst hfinish
  obtain ⟨g, hg, hmem⟩ := List.mem_flatMap.mp (hp.values_perm.mem_iff.mp hb)
  obtain ⟨i, hi, environment, henv, operation, hop, rfl⟩ :=
    BindingGroup.mem_declarations_iff.mp hmem
  obtain ⟨j, hj⟩ := hp.compilable.admissible g hg
  have hij : j = i := by
    have hresolves := hj.resolves
    rw [hi] at hresolves
    cases hresolves
    rfl
  subst hij
  refine ⟨g, hg, j, hj, ?_, environment, henv, operation, hop, rfl⟩
  apply issuer?_of_resolve? h hg hi

/-- A compiled set knows an issuer under its own URL. -/
theorem issuerUrl_of_issuer? (h : compileAt registry policies revision groups = .ok s)
    {url : String} {i : Issuer} (hi : s.issuer? url = some i) :
  i.issuerUrl = url
  := ((issuer?_eq_some_iff h).mp hi).1

/-- A compiled set knows exactly the issuers of its bindings. -/
theorem issuer?_isSome_iff (h : compileAt registry policies revision groups = .ok s)
    {url : String} :
  (∃ i, s.issuer? url = some i) ↔ ∃ b ∈ s.records, b.issuer = url
  := by
  constructor
  · rintro ⟨i, hi⟩
    obtain ⟨hurl, g, hg, hresolves⟩ := (issuer?_eq_some_iff h).mp hi
    obtain ⟨p, hp, rfl⟩ := exists_holds_of_compileAt h
    obtain ⟨j, hj⟩ := hp.compilable.admissible g hg
    -- an admissible group declares a binding for its first environment and operation
    obtain ⟨environment, henv⟩ := List.exists_mem_of_ne_nil _ hj.environments_ne_nil
    obtain ⟨operation, hop⟩ := List.exists_mem_of_ne_nil _ hj.operations_ne_nil
    use g.declared i environment operation
    constructor
    · apply hp.values_perm.mem_iff.mpr
      apply List.mem_flatMap.mpr
      use g, hg
      apply BindingGroup.mem_declarations_iff.mpr
      exact ⟨i, hresolves, environment, henv, operation, hop, rfl⟩
    · apply hurl
  · rintro ⟨b, hb, rfl⟩
    obtain ⟨g, -, i, -, hi, -⟩ := exists_declared_of_mem_records h hb
    use i

end Federation
