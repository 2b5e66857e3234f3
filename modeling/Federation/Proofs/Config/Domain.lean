import Federation.Config.Domain
import Federation.Proofs.Issuer.Registered

/-!
# Loading issuers and policies

The issuers of a configuration are registered in one cycle of a new registry, one after
another, and its policies are inserted into a new store.  Both are lists of named values
that are taken as long as each passes its checks and no two share a name (`Acceptable`), and
what has been taken is what is found by name afterwards (`Finds`).  So the order in which
they stand has no part in it: a permutation of them loads the same
(`Registry.registerAll_eq_ok_iff_of_perm`, `PolicyStore.insertAll_eq_ok_iff_of_perm`).
-/

namespace Federation

/-! ### Named values -/

section

variable {α : Type} {P : α → Prop} {names : List (α → String)} {name : α → String}

/-- Whether each value of a list passes a check and no two of them have one name, in any
kind of names that they have. -/
structure Acceptable (P : α → Prop) (names : List (α → String)) (l : List α) : Prop where
  passes : ∀ a ∈ l, P a
  nodup : ∀ name ∈ names, (l.map name).Nodup

theorem acceptable_nil :
  Acceptable P names []
  := by
  constructor
  · intro a ha
    cases ha
  · intro name _
    apply List.nodup_nil

theorem acceptable_cons_iff {a : α} {l : List α} :
  Acceptable P names (a :: l)
    ↔ P a ∧ (∀ name ∈ names, name a ∉ l.map name) ∧ Acceptable P names l
  := by
  constructor
  · rintro ⟨hpasses, hnodup⟩
    rw [List.forall_mem_cons] at hpasses
    refine ⟨hpasses.1, ?_, hpasses.2, ?_⟩
    · intro name hname
      apply (List.nodup_cons.mp (hnodup name hname)).1
    · intro name hname
      apply (List.nodup_cons.mp (hnodup name hname)).2
  · rintro ⟨ha, hnew, h⟩
    constructor
    · rw [List.forall_mem_cons]
      exact ⟨ha, h.passes⟩
    · intro name hname
      apply List.nodup_cons.mpr ⟨hnew name hname, h.nodup name hname⟩

theorem Acceptable.perm {l l' : List α} (h : Acceptable P names l) (hperm : l.Perm l') :
  Acceptable P names l'
  := by
  constructor
  · intro a ha
    apply h.passes a (hperm.mem_iff.mpr ha)
  · intro name hname
    apply (hperm.map name).nodup_iff.mp (h.nodup name hname)

theorem acceptable_perm_iff {l l' : List α} (hperm : l.Perm l') :
  Acceptable P names l ↔ Acceptable P names l'
  := by
  constructor
  · intro h
    apply h.perm hperm
  · intro h
    apply h.perm hperm.symm

theorem Acceptable.of_append {before after : List α} (h : Acceptable P names (before ++ after)) :
  Acceptable P names before
  := by
  induction after with
  | nil =>
    rw [List.append_nil] at h
    apply h
  | cons a after ih => apply ih (acceptable_cons_iff.mp (h.perm List.perm_middle)).2.2

/-- Whether a lookup finds the values of a list, and no others, by their names. -/
def Finds (name : α → String) (l : List α) (find : String → Option α) : Prop :=
  ∀ k a, find k = some a ↔ a ∈ l ∧ name a = k

theorem finds_nil {find : String → Option α} (h : ∀ k, find k = none) :
  Finds name [] find
  := by
  intro k a
  simp [h k]

/-- What is put under a new name is found beside what was found before. -/
theorem Finds.cons {l : List α} {find next : String → Option α} {a : α} (h : Finds name l find)
    (hnew : name a ∉ l.map name)
    (hnext : ∀ k, next k = if k = name a then some a else find k) :
  Finds name (a :: l) next
  := by
  intro k b
  rw [hnext, List.mem_cons]
  split
  · rename_i hk
    constructor
    · intro hb
      cases hb
      exact ⟨.inl rfl, hk.symm⟩
    · rintro ⟨rfl | hb, hbk⟩
      · rfl
      · have hmem := List.mem_map_of_mem (f := name) hb
        rw [hbk, hk] at hmem
        exact absurd hmem hnew
  · rename_i hk
    rw [h k b]
    constructor
    · rintro ⟨hb, hbk⟩
      exact ⟨.inr hb, hbk⟩
    · rintro ⟨rfl | hb, hbk⟩
      · exact absurd hbk.symm hk
      · exact ⟨hb, hbk⟩

theorem Finds.perm {l l' : List α} {find : String → Option α} (h : Finds name l find)
    (hperm : l.Perm l') :
  Finds name l' find
  := by
  intro k a
  rw [h k a, hperm.mem_iff]

theorem Finds.unique {l : List α} {find find' : String → Option α} (h : Finds name l find)
    (h' : Finds name l find') (k : String) :
  find k = find' k
  := by
  apply Option.ext
  intro a
  rw [h k a, h' k a]

theorem Finds.eq_none_iff {l : List α} {find : String → Option α} (h : Finds name l find)
    (k : String) :
  find k = none ↔ k ∉ l.map name
  := by
  rw [Option.eq_none_iff_forall_ne_some, List.mem_map, not_exists]
  simp only [ne_eq, h k]

end

/-! ### Issuers -/

/-- What issuers have to satisfy to be registered in one cycle. -/
def Registrable : List Issuer → Prop :=
  Acceptable (fun i => i.validate = .ok ()) [Issuer.id, Issuer.issuerUrl]

theorem registrable_cons_iff {i : Issuer} {issuers : List Issuer} :
  Registrable (i :: issuers)
    ↔ i.validate = .ok () ∧ i.id ∉ issuers.map Issuer.id
      ∧ i.issuerUrl ∉ issuers.map Issuer.issuerUrl ∧ Registrable issuers
  := by
  simp [Registrable, acceptable_cons_iff, and_assoc]

namespace Registry

/-- What a registry holds after some issuers were registered in its first cycle. -/
structure Loads (issuers : List Issuer) (r : Registry) : Prop where
  registrable : Registrable issuers
  finds : Finds Issuer.id issuers r.get?
  cycle_eq : r.cycle = 1
  cycleIds_iff : ∀ id, id ∈ r.cycleIds.elements ↔ id ∈ issuers.map Issuer.id
  cycleUrls_iff : ∀ url, url ∈ r.cycleUrls.elements ↔ url ∈ issuers.map Issuer.issuerUrl

theorem loads_begin :
  Loads [] empty.beginCycle
  := by
  constructor
  · apply acceptable_nil
  · apply finds_nil
    intro id
    rfl
  · rfl
  · intro id
    rfl
  · intro url
    rfl

theorem Loads.perm {l l' : List Issuer} {r : Registry} (h : Loads l r) (hperm : l.Perm l') :
  Loads l' r
  := by
  constructor
  · apply h.registrable.perm hperm
  · apply h.finds.perm hperm
  · apply h.cycle_eq
  · intro id
    rw [h.cycleIds_iff, (hperm.map _).mem_iff]
  · intro url
    rw [h.cycleUrls_iff, (hperm.map _).mem_iff]

theorem Loads.exists_register_iff {issuers : List Issuer} {r : Registry} (h : Loads issuers r)
    (i : Issuer) :
  (∃ next, r.register i = .ok next) ↔ Registrable (i :: issuers)
  := by
  simp only [registrable_cons_iff, register_eq_ok_iff, h.cycleIds_iff, h.cycleUrls_iff,
    h.registrable, exists_and_left, exists_eq', and_true]

theorem Loads.register {issuers : List Issuer} {r next : Registry} {i : Issuer}
    (h : Loads issuers r) (hi : r.register i = .ok next) :
  Loads (i :: issuers) next
  := by
  have hregistrable := (h.exists_register_iff i).mp ⟨next, hi⟩
  obtain ⟨-, hid, hurl, -⟩ := registrable_cons_iff.mp hregistrable
  obtain ⟨-, -, -, rfl⟩ := register_eq_ok_iff.mp hi
  -- no issuer of the cycle has the URL, so none has to leave
  have hstays : ∀ id, r.byUrl.get? i.issuerUrl ≠ some id := by
    intro id hleads
    obtain ⟨j, hj, hjurl⟩ := r.consistent.leads_to hleads
    apply hurl
    rw [← hjurl]
    apply List.mem_map_of_mem ((h.finds id j).mp hj).1
  constructor
  · apply hregistrable
  · apply h.finds.cons hid
    intro id
    rw [get?_replace, if_neg (hstays id)]
  · apply h.cycle_eq
  · intro id
    rw [replace, StringSet.mem_insert, h.cycleIds_iff, List.map_cons, List.mem_cons]
  · intro url
    rw [replace, StringSet.mem_insert, h.cycleUrls_iff, List.map_cons, List.mem_cons]

/-- A registry takes issuers as long as they can be registered together. -/
theorem accumulates_register :
  Accumulates register Registrable Loads
  := by
  constructor
  · intro before after h
    apply h.of_append
  · intro before r h
    apply h.registrable
  · intro before r h i
    rw [h.exists_register_iff]
    apply acceptable_perm_iff (List.perm_append_singleton i before).symm
  · intro before r next i h hi
    apply (h.register hi).perm (List.perm_append_singleton i before).symm

/-- The issuers of a registry and the names of its cycle determine it. -/
theorem ext_get? {r r' : Registry} (hget : ∀ id, r.get? id = r'.get? id)
    (hcycle : r.cycle = r'.cycle) (hids : r.cycleIds = r'.cycleIds)
    (hurls : r.cycleUrls = r'.cycleUrls) :
  r = r'
  := by
  have hbyId : r.byId = r'.byId := StringMap.ext_get? hget
  have hbyUrl : r.byUrl = r'.byUrl := by
    apply StringMap.ext_get?
    intro url
    apply Option.ext
    intro id
    -- a URL leads to an identifier when the issuer there has it
    have hleads : ∀ q : Registry, q.byUrl.get? url = some id
        ↔ ∃ i, q.byId.get? id = some i ∧ i.issuerUrl = url := by
      intro q
      constructor
      · apply q.consistent.leads_to
      · rintro ⟨i, hi, rfl⟩
        apply q.consistent.url_leads hi
    rw [hleads, hleads, hbyId]
  cases r
  cases r'
  cases hbyId
  cases hbyUrl
  cases hcycle
  cases hids
  cases hurls
  rfl

theorem Loads.unique {l : List Issuer} {r r' : Registry} (h : Loads l r) (h' : Loads l r') :
  r = r'
  := by
  apply ext_get?
  · apply h.finds.unique h'.finds
  · rw [h.cycle_eq, h'.cycle_eq]
  · apply StringSet.ext_contains
    intro id
    rw [h.cycleIds_iff, h'.cycleIds_iff]
  · apply StringSet.ext_contains
    intro url
    rw [h.cycleUrls_iff, h'.cycleUrls_iff]

/-- Issuers are loaded to the same registry in whatever order they stand. -/
theorem registerAll_eq_ok_iff_of_perm {l l' : List Issuer} (h : l.Perm l') {r : Registry} :
  empty.beginCycle.registerAll l = .ok r ↔ empty.beginCycle.registerAll l' = .ok r
  := by
  apply accumulates_register.foldlM_eq_ok_iff loads_begin (acceptable_perm_iff h)
  intro last last' hlast hlast'
  apply (hlast.perm h).unique hlast'

end Registry

/-! ### Policies -/

/-- What policies have to satisfy to be inserted into one store. -/
def Storable : List Policy → Prop := Acceptable (fun p => p.rules ≠ []) [Policy.name]

theorem storable_cons_iff {p : Policy} {policies : List Policy} :
  Storable (p :: policies)
    ↔ p.rules ≠ [] ∧ p.name ∉ policies.map Policy.name ∧ Storable policies
  := by
  simp [Storable, acceptable_cons_iff]

namespace PolicyStore

/-- What a store holds after some policies were inserted. -/
structure Loads (policies : List Policy) (s : PolicyStore) : Prop where
  storable : Storable policies
  finds : Finds Policy.name policies s.get?

theorem loads_empty :
  Loads [] empty
  := by
  constructor
  · apply acceptable_nil
  · apply finds_nil
    intro name
    rfl

theorem Loads.perm {l l' : List Policy} {s : PolicyStore} (h : Loads l s) (hperm : l.Perm l') :
  Loads l' s
  := by
  constructor
  · apply h.storable.perm hperm
  · apply h.finds.perm hperm

/-- A policy is inserted when it has rules and its name is new. -/
theorem insert_eq_ok_iff {s next : PolicyStore} {p : Policy} :
  s.insert p = .ok next
    ↔ p.rules ≠ [] ∧ s.get? p.name = none ∧ ⟨s.policies.insert p.name p⟩ = next
  := by
  have hcontains : s.policies.contains p.name = false ↔ s.get? p.name = none :=
    Option.isSome_eq_false_iff.trans Option.isNone_iff_eq_none
  rw [← hcontains, insert]
  cases p.rules with
  | nil => simp
  | cons rule rules =>
    cases s.policies.contains p.name with
    | true => simp
    | false => simp

theorem Loads.exists_insert_iff {policies : List Policy} {s : PolicyStore}
    (h : Loads policies s) (p : Policy) :
  (∃ next, s.insert p = .ok next) ↔ Storable (p :: policies)
  := by
  simp only [storable_cons_iff, insert_eq_ok_iff, h.finds.eq_none_iff, h.storable,
    exists_and_left, exists_eq', and_true]

theorem Loads.insert {policies : List Policy} {s next : PolicyStore} {p : Policy}
    (h : Loads policies s) (hp : s.insert p = .ok next) :
  Loads (p :: policies) next
  := by
  have hstorable := (h.exists_insert_iff p).mp ⟨next, hp⟩
  obtain ⟨-, hnew, rfl⟩ := insert_eq_ok_iff.mp hp
  constructor
  · apply hstorable
  · apply h.finds.cons ((h.finds.eq_none_iff _).mp hnew)
    intro name
    apply StringMap.get?_insert

/-- A store takes policies as long as they can be inserted together. -/
theorem accumulates_insert :
  Accumulates insert Storable Loads
  := by
  constructor
  · intro before after h
    apply h.of_append
  · intro before s h
    apply h.storable
  · intro before s h p
    rw [h.exists_insert_iff]
    apply acceptable_perm_iff (List.perm_append_singleton p before).symm
  · intro before s next p h hp
    apply (h.insert hp).perm (List.perm_append_singleton p before).symm

theorem Loads.unique {l : List Policy} {s s' : PolicyStore} (h : Loads l s) (h' : Loads l s') :
  s = s'
  := by
  have hpolicies : s.policies = s'.policies := StringMap.ext_get? (h.finds.unique h'.finds)
  cases s
  cases s'
  cases hpolicies
  rfl

/-- Policies are loaded to the same store in whatever order they stand. -/
theorem insertAll_eq_ok_iff_of_perm {l l' : List Policy} (h : l.Perm l') {s : PolicyStore} :
  empty.insertAll l = .ok s ↔ empty.insertAll l' = .ok s
  := by
  apply accumulates_insert.foldlM_eq_ok_iff loads_empty (acceptable_perm_iff h)
  intro last last' hlast hlast'
  apply (hlast.perm h).unique hlast'

end PolicyStore
end Federation
