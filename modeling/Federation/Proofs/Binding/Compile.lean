import Federation.Proofs.Binding.Group

/-!
# What compiling gives

`declarations` lists the bindings that groups declare, one for each occurrence of an
environment and of an operation in a group.  Compiling succeeds exactly when every group
is admissible and no two declared bindings have one key or accept the same tokens
(`Compilable`); it then gives a set of exactly the declared bindings.

A pass is followed group by group: `CompilePass.Holds` says what it holds after some
groups, and `holds_add` and `exists_add_iff` what one more group does to it.
-/

namespace Federation

/-- The bindings that a group declares, in the order of its lists. -/
def BindingGroup.declarations (registry : Registry) (g : BindingGroup) : List Binding :=
  match registry.resolve? g.issuer with
  | none => []
  | some i => g.environments.flatMap fun environment =>
      g.operations.map fun operation => g.declared i environment operation

/-- The bindings that groups declare. -/
def declarations (registry : Registry) (groups : List BindingGroup) : List Binding :=
  groups.flatMap fun g => g.declarations registry

theorem declarations_cons (registry : Registry) (g : BindingGroup) (groups : List BindingGroup) :
  declarations registry (g :: groups) = g.declarations registry ++ declarations registry groups
  := List.flatMap_cons

theorem declarations_append (registry : Registry) (before after : List BindingGroup) :
  declarations registry (before ++ after)
    = declarations registry before ++ declarations registry after
  := List.flatMap_append

theorem declarations_singleton (registry : Registry) (g : BindingGroup) :
  declarations registry [g] = g.declarations registry
  := List.flatMap_singleton _ _

/-- Whether no two bindings of a list have one key, and no two accept the same tokens. -/
def Distinct (bindings : List Binding) : Prop :=
  (bindings.map Binding.key).Nodup ∧ (bindings.map Binding.trustTuple).Nodup

/-- What groups have to satisfy to be compiled in one pass. -/
structure Compilable (registry : Registry) (policies : PolicyStore)
    (groups : List BindingGroup) : Prop where
  admissible : ∀ g ∈ groups, ∃ i, g.Admissible registry policies i
  distinct : Distinct (declarations registry groups)

theorem Distinct.perm {l₁ l₂ : List Binding} (h : l₁.Perm l₂) :
  Distinct l₁ ↔ Distinct l₂
  := and_congr (h.map Binding.key).nodup_iff (h.map Binding.trustTuple).nodup_iff

theorem Distinct.of_append_left {l₁ l₂ : List Binding} (h : Distinct (l₁ ++ l₂)) :
  Distinct l₁
  := by
  rw [Distinct, List.map_append, List.map_append] at h
  exact ⟨(List.nodup_append.mp h.1).1, (List.nodup_append.mp h.2).1⟩

theorem Compilable.of_append_left {registry : Registry} {policies : PolicyStore}
    {before groups : List BindingGroup} (h : Compilable registry policies (before ++ groups)) :
  Compilable registry policies before
  := by
  constructor
  · intro g hg
    apply h.admissible g (List.mem_append_left _ hg)
  · have hdistinct := h.distinct
    rw [declarations_append] at hdistinct
    apply hdistinct.of_append_left

theorem distinct_cons_iff {b : Binding} {l : List Binding} :
  Distinct (b :: l)
    ↔ b.key ∉ l.map Binding.key ∧ b.trustTuple ∉ l.map Binding.trustTuple ∧ Distinct l
  := by
  simp only [Distinct, List.map_cons, List.nodup_cons]
  constructor
  · rintro ⟨⟨hkey, hkeys⟩, ⟨htuple, htuples⟩⟩
    exact ⟨hkey, htuple, hkeys, htuples⟩
  · rintro ⟨hkey, htuple, hkeys, htuples⟩
    exact ⟨⟨hkey, hkeys⟩, ⟨htuple, htuples⟩⟩

/-! ### Inserting bindings -/

/-- Whether each binding of a map stands under its own key. -/
def Keyed (bindings : StringMap Binding) : Prop :=
  ∀ key b, bindings.get? key = some b → b.key = key

theorem keyed_empty :
  Keyed {}
  := by
  intro key b h
  cases h

theorem Keyed.insert {bindings : StringMap Binding} (h : Keyed bindings) (b : Binding) :
  Keyed (bindings.insert b.key b)
  := by
  intro key c hc
  rw [StringMap.get?_insert] at hc
  split at hc
  · rename_i hkey
    cases hc
    exact hkey.symm
  · apply h key c hc

theorem Keyed.contains_iff {bindings : StringMap Binding} (h : Keyed bindings) (key : String) :
  bindings.contains key = true ↔ key ∈ bindings.values.map Binding.key
  := by
  rw [StringMap.contains_iff]
  constructor
  · rintro ⟨b, hb⟩
    apply List.mem_map.mpr
    use b
    constructor
    · apply (bindings.mem_values_iff b).mpr ⟨key, hb⟩
    · apply h key b hb
  · intro hmem
    obtain ⟨b, hb, rfl⟩ := List.mem_map.mp hmem
    obtain ⟨key, hkey⟩ := (bindings.mem_values_iff b).mp hb
    use b
    rw [h key b hkey, hkey]

namespace CompilePass

/-- A binding is inserted exactly when it is distinct from those that are there. -/
theorem exists_insertBinding_iff {bindings : StringMap Binding} (hk : Keyed bindings)
    (hd : Distinct bindings.values) (b : Binding) :
  (∃ next, insertBinding bindings b = .ok next) ↔ Distinct (b :: bindings.values)
  := by
  rw [distinct_cons_iff, ← hk.contains_iff]
  have htuple : bindings.values.any (fun other => other.trustTuple = b.trustTuple) = true
      ↔ b.trustTuple ∈ bindings.values.map Binding.trustTuple := by
    simp
  rw [← htuple, insertBinding]
  cases bindings.contains b.key with
  | true => simp
  | false =>
    cases bindings.values.any fun other => other.trustTuple = b.trustTuple with
    | true => simp
    | false => simp [hd]

theorem of_insertBinding {bindings next : StringMap Binding} {b : Binding} (hk : Keyed bindings)
    (h : insertBinding bindings b = .ok next) :
  Keyed next ∧ next.values.Perm (b :: bindings.values)
  := by
  rw [insertBinding] at h
  split at h
  · cases h
  · rename_i hkey
    split at h
    · cases h
    · cases h
      constructor
      · apply hk.insert
      · apply StringMap.values_insert_perm
        simpa using hkey

/-- Inserting bindings into a map takes those that are distinct from each other and from
what the map starts with. -/
theorem accumulates_insertBinding (start : List Binding) :
  Accumulates insertBinding (fun l => Distinct (start ++ l))
    fun l bindings => Keyed bindings ∧ bindings.values.Perm (start ++ l) ∧ Distinct (start ++ l)
  := by
  have hfirst : ∀ {l : List Binding} {bindings : StringMap Binding} (b : Binding),
      bindings.values.Perm (start ++ l) → (b :: bindings.values).Perm (start ++ (l ++ [b])) := by
    intro l bindings b hperm
    rw [← List.append_assoc]
    apply (hperm.cons b).trans
    apply (List.perm_append_singleton b _).symm
  have hiff : ∀ {l : List Binding} {bindings : StringMap Binding}, Keyed bindings →
      bindings.values.Perm (start ++ l) → Distinct (start ++ l) → ∀ b,
      (∃ next, insertBinding bindings b = .ok next) ↔ Distinct (start ++ (l ++ [b])) := by
    intro l bindings hk hperm hd b
    rw [exists_insertBinding_iff hk ((Distinct.perm hperm).mpr hd)]
    apply Distinct.perm (hfirst b hperm)
  constructor
  · intro before after h
    rw [← List.append_assoc] at h
    apply h.of_append_left
  · rintro before bindings ⟨-, -, hd⟩
    apply hd
  · rintro before bindings ⟨hk, hperm, hd⟩ b
    apply hiff hk hperm hd
  · rintro before bindings next b ⟨hk, hperm, hd⟩ h
    obtain ⟨hnext, hvalues⟩ := of_insertBinding hk h
    refine ⟨hnext, ?_, ?_⟩
    · apply hvalues.trans (hfirst b hperm)
    · apply (hiff hk hperm hd b).mp ⟨next, h⟩

/-! ### Passes -/

/-- What a pass holds after some groups. -/
structure Holds (registry : Registry) (policies : PolicyStore) (revision : UInt64)
    (groups : List BindingGroup) (p : CompilePass) : Prop where
  revision_eq : p.revision = revision
  keyed : Keyed p.bindings
  values_perm : p.bindings.values.Perm (declarations registry groups)
  compilable : Compilable registry policies groups
  issuers_iff : ∀ url i, p.issuers.get? url = some i
    ↔ i.issuerUrl = url ∧ ∃ g ∈ groups, registry.resolve? g.issuer = some i

theorem holds_begin (registry : Registry) (policies : PolicyStore) (revision : UInt64) :
  Holds registry policies revision [] { revision := revision }
  := by
  constructor
  · rfl
  · apply keyed_empty
  · rfl
  · constructor
    · intro g hg
      cases hg
    · constructor
      · apply List.nodup_nil
      · apply List.nodup_nil
  · intro url i
    constructor
    · intro h
      cases h
    · rintro ⟨-, g, hg, -⟩
      cases hg

/-- The bindings of a pass are where inserting those of one more group starts. -/
theorem Holds.start {registry : Registry} {policies : PolicyStore} {revision : UInt64}
    {groups : List BindingGroup} {p : CompilePass} (h : Holds registry policies revision groups p) :
  Keyed p.bindings ∧ p.bindings.values.Perm (declarations registry groups ++ [])
    ∧ Distinct (declarations registry groups ++ [])
  := by
  rw [List.append_nil]
  exact ⟨h.keyed, h.values_perm, h.compilable.distinct⟩

theorem insertName_perm (name : String) (names : List String) :
  (CheckedGroup.insertName name names).Perm (name :: names)
  := by
  induction names with
  | nil => rfl
  | cons a names ih =>
    rw [CheckedGroup.insertName]
    split
    · rfl
    · apply (ih.cons a).trans
      apply List.Perm.swap

/-- Sorting keeps every name as often as it occurs. -/
theorem sorted_perm (names : List String) :
  (CheckedGroup.sorted names).Perm names
  := by
  induction names with
  | nil => rfl
  | cons name names ih =>
    apply (insertName_perm name _).trans
    apply ih.cons

/-- A checked group is expanded to the bindings that it declares. -/
theorem bindings_perm {registry : Registry} {policies : PolicyStore} {g : BindingGroup}
    {c : CheckedGroup} (h : g.check registry policies = .ok c) :
  c.bindings.Perm (g.declarations registry)
  := by
  rw [CheckedGroup.bindings, BindingGroup.declarations,
    (BindingGroup.admissible_of_check h).resolves, BindingGroup.binding_eq_declared h,
    BindingGroup.group_of_check h]
  apply List.Perm.flatMap (sorted_perm g.environments)
  intro environment _
  apply (sorted_perm g.operations).map

/-- Whether a group can be added to a pass. -/
theorem exists_add_iff {registry : Registry} {policies : PolicyStore} {revision : UInt64}
    {groups : List BindingGroup} {p : CompilePass} (hp : Holds registry policies revision groups p)
    (g : BindingGroup) :
  (∃ next, add registry policies p g = .ok next) ↔ Compilable registry policies (groups ++ [g])
  := by
  -- the declared bindings are distinct exactly when those of the group can be inserted
  have hall : ∀ c, g.check registry policies = .ok c →
      ((∃ last, c.bindings.foldlM insertBinding p.bindings = .ok last)
        ↔ Distinct (declarations registry (groups ++ [g]))) := by
    intro c hc
    rw [(accumulates_insertBinding _).exists_foldlM_iff hp.start]
    apply Distinct.perm
    rw [declarations_append, declarations_singleton, List.nil_append]
    apply (bindings_perm hc).append_left
  constructor
  · rintro ⟨next, h⟩
    obtain ⟨c, hc, h⟩ := bind_eq_ok_iff.mp h
    obtain ⟨last, hl, -⟩ := bind_eq_ok_iff.mp h
    constructor
    · intro g' hg'
      rcases List.mem_append.mp hg' with hg' | hg'
      · apply hp.compilable.admissible g' hg'
      · rw [List.mem_singleton.mp hg']
        exact ⟨c.issuer, BindingGroup.admissible_of_check hc⟩
    · apply (hall c hc).mp ⟨last, hl⟩
  · intro h
    obtain ⟨i, hi⟩ := h.admissible g (List.mem_append_right _ List.mem_cons_self)
    obtain ⟨c, hc⟩ := BindingGroup.exists_check_of_admissible hi
    obtain ⟨last, hl⟩ := (hall c hc).mpr h.distinct
    use { p with bindings := last, issuers := p.issuers.insert c.issuer.issuerUrl c.issuer }
    apply bind_eq_ok_iff.mpr
    use c, hc
    apply bind_eq_ok_iff.mpr
    use last, hl

theorem holds_add {registry : Registry} {policies : PolicyStore} {revision : UInt64}
    {groups : List BindingGroup} {p next : CompilePass} {g : BindingGroup}
    (hp : Holds registry policies revision groups p)
    (h : add registry policies p g = .ok next) :
  Holds registry policies revision (groups ++ [g]) next
  := by
  have hcompilable := (exists_add_iff hp g).mp ⟨next, h⟩
  obtain ⟨c, hc, h⟩ := bind_eq_ok_iff.mp h
  obtain ⟨last, hl, h⟩ := bind_eq_ok_iff.mp h
  cases h
  obtain ⟨hkeyed, hperm, -⟩ := (accumulates_insertBinding _).of_foldlM hp.start hl
  have hresolves := (BindingGroup.admissible_of_check hc).resolves
  constructor
  · apply hp.revision_eq
  · apply hkeyed
  · apply hperm.trans
    rw [declarations_append, declarations_singleton, List.nil_append]
    apply (bindings_perm hc).append_left
  · apply hcompilable
  · intro url i
    simp only [StringMap.get?_insert, List.mem_append, List.mem_singleton]
    constructor
    · intro hi
      split at hi
      · rename_i hurl
        cases hi
        exact ⟨hurl.symm, g, .inr rfl, hresolves⟩
      · obtain ⟨hurl, g', hg', hi⟩ := (hp.issuers_iff url i).mp hi
        exact ⟨hurl, g', .inl hg', hi⟩
    · rintro ⟨hurl, g', hg', hi⟩
      split
      · rename_i heq
        congr 1
        apply Registry.eq_of_issuerUrl_eq (Registry.get?_of_resolve? hresolves)
          (Registry.get?_of_resolve? hi)
        rw [hurl, heq]
      · rename_i hne
        apply (hp.issuers_iff url i).mpr
        rcases hg' with hg' | rfl
        · exact ⟨hurl, g', hg', hi⟩
        · rw [hresolves] at hi
          cases hi
          exact absurd hurl.symm hne

/-- A pass takes groups as long as they can be compiled together. -/
theorem accumulates_add (registry : Registry) (policies : PolicyStore) (revision : UInt64) :
  Accumulates (add registry policies) (Compilable registry policies)
    (Holds registry policies revision)
  := by
  constructor
  · intro before after h
    apply h.of_append_left
  · intro before p hp
    apply hp.compilable
  · intro before p hp g
    apply exists_add_iff hp g
  · intro before p next g hp h
    apply holds_add hp h

/-- Whether the groups of a list can be added to a pass. -/
theorem exists_foldlM_add_iff {registry : Registry} {policies : PolicyStore} {revision : UInt64}
    {before : List BindingGroup} {p : CompilePass} (hp : Holds registry policies revision before p)
    (groups : List BindingGroup) :
  (∃ last, groups.foldlM (add registry policies) p = .ok last)
    ↔ Compilable registry policies (before ++ groups)
  := (accumulates_add registry policies revision).exists_foldlM_iff hp groups

end CompilePass

/-! ### Compiled sets -/

/-- A compiled set is what a pass holds after all groups. -/
theorem exists_holds_of_compileAt {registry : Registry} {policies : PolicyStore}
    {revision : UInt64} {groups : List BindingGroup} {s : BindingSet}
    (h : compileAt registry policies revision groups = .ok s) :
  ∃ p, CompilePass.Holds registry policies revision groups p ∧ p.finish = s
  := by
  obtain ⟨p, hp, hs⟩ := map_eq_ok_iff.mp h
  use p
  constructor
  · apply (CompilePass.accumulates_add registry policies revision).of_foldlM
      (CompilePass.holds_begin registry policies revision) hp
  · apply hs

/-- The bindings of a map stand in ascending order of their keys. -/
theorem Keyed.pairwise_key_lt {bindings : StringMap Binding} (h : Keyed bindings) :
  bindings.values.Pairwise fun a b => a.key < b.key
  := by
  have hkey : ∀ e ∈ bindings.entries, e.2.key = e.1 :=
    fun e he => h e.1 e.2 ((bindings.get?_eq_some_iff e.1 e.2).mpr he)
  apply List.pairwise_map.mpr
  apply bindings.ascending.imp_of_mem
  intro a b ha hb hlt
  rw [hkey a ha, hkey b hb]
  apply hlt

/-- Compiling succeeds exactly for groups that are admissible and declare distinct
bindings.  The set has the revision, the declared bindings in ascending order of their
keys, each as often as it is declared, and the issuers that the groups refer to. -/
theorem compileAt_iff (registry : Registry) (policies : PolicyStore) (revision : UInt64)
    (groups : List BindingGroup) :
  ((∃ s, compileAt registry policies revision groups = .ok s)
      ↔ (∀ g ∈ groups, ∃ i, g.Admissible registry policies i)
        ∧ ((declarations registry groups).map Binding.key).Nodup
        ∧ ((declarations registry groups).map Binding.trustTuple).Nodup)
    ∧ ∀ s, compileAt registry policies revision groups = .ok s →
      s.revision = revision
        ∧ s.records.Perm (declarations registry groups)
        ∧ s.records.Pairwise (fun a b => a.key < b.key)
        ∧ ∀ url i, s.issuer? url = some i
          ↔ i.issuerUrl = url ∧ ∃ g ∈ groups, registry.resolve? g.issuer = some i
  := by
  constructor
  · have hiff := CompilePass.exists_foldlM_add_iff
      (CompilePass.holds_begin registry policies revision) groups
    constructor
    · rintro ⟨s, h⟩
      obtain ⟨p, hp, -⟩ := exists_holds_of_compileAt h
      exact ⟨hp.compilable.admissible, hp.compilable.distinct⟩
    · rintro ⟨hadmissible, hdistinct⟩
      obtain ⟨p, hp⟩ := hiff.mpr ⟨hadmissible, hdistinct⟩
      use p.finish
      apply map_eq_ok_iff.mpr ⟨p, hp, rfl⟩
  · intro s h
    obtain ⟨p, hp, rfl⟩ := exists_holds_of_compileAt h
    refine ⟨?_, ?_, ?_, ?_⟩
    · apply hp.revision_eq
    · apply hp.values_perm
    · apply hp.keyed.pairwise_key_lt
    · apply hp.issuers_iff

end Federation
