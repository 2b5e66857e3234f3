import Federation.Issuer.Validation

/-!
# The registry of issuers

A `Registry` holds the registered issuers by identifier, and for each URL the
identifier of its issuer; that the two agree is part of the type.  Registrations come
in cycles: within a cycle an identifier and a URL may be registered once, and an issuer
of an earlier cycle stays until an issuer with its identifier or its URL takes its place.
-/

namespace Federation

/-- The two indexes of a registry list the same issuers: under an identifier stands an
issuer with it, its URL leads to the identifier, and every URL leads to an issuer. -/
structure Registry.Consistent (byId : StringMap Issuer) (byUrl : StringMap String) : Prop where
  /-- An issuer stands under its own identifier. -/
  id_eq : ∀ {id : String} {i : Issuer}, byId.get? id = some i → i.id = id
  /-- The URL of an issuer leads to its identifier. -/
  url_leads : ∀ {id : String} {i : Issuer},
    byId.get? id = some i → byUrl.get? i.issuerUrl = some id
  /-- A URL leads to an issuer that has it. -/
  leads_to : ∀ {url id : String},
    byUrl.get? url = some id → ∃ i, byId.get? id = some i ∧ i.issuerUrl = url

/-- The registered issuers. -/
structure Registry where
  /-- The issuers by identifier. -/
  byId : StringMap Issuer := {}
  /-- The identifiers of the issuers by URL. -/
  byUrl : StringMap String := {}
  /-- The two indexes list the same issuers. -/
  consistent : Registry.Consistent byId byUrl
  /-- The number of the current cycle. -/
  cycle : Nat := 0
  /-- The identifiers registered in the current cycle. -/
  cycleIds : StringSet := {}
  /-- The URLs registered in the current cycle. -/
  cycleUrls : StringSet := {}

namespace Registry

/-- The registry without an issuer, in cycle 0. -/
def empty : Registry where
  consistent := by
    constructor
    · intro id i h
      cases h
    · intro id i h
      cases h
    · intro url id h
      cases h

/-- Begins the next cycle. -/
def beginCycle (r : Registry) : Registry :=
  { r with cycle := r.cycle + 1, cycleIds := {}, cycleUrls := {} }

/-- The issuer with an identifier. -/
def get? (r : Registry) (id : String) : Option Issuer := r.byId.get? id

/-- The issuer with a URL. -/
def lookup? (r : Registry) (url : String) : Option Issuer := (r.byUrl.get? url).bind r.get?

/-- The issuer with an identifier or else a URL. -/
def resolve? (r : Registry) (reference : String) : Option Issuer :=
  (r.get? reference).or (r.lookup? reference)

/-- The issuers, by ascending identifier. -/
def issuers (r : Registry) : List Issuer := r.byId.values

/-- The number of issuers. -/
def size (r : Registry) : Nat := r.byId.size

/-- Whether there is no issuer. -/
def isEmpty (r : Registry) : Bool := r.byId.isEmpty

/-- Takes out the issuer that has the URL of `i` under another identifier. -/
def evictOwner (r : Registry) (i : Issuer) : StringMap Issuer :=
  match r.byUrl.get? i.issuerUrl with
  | some owner => if owner = i.id then r.byId else r.byId.erase owner
  | none => r.byId

/-- Takes out the URL that the identifier of `i` had before, unless it is the same. -/
def evictUrl (byId : StringMap Issuer) (byUrl : StringMap String) (i : Issuer) :
    StringMap String :=
  match byId.get? i.id with
  | some previous =>
    if previous.issuerUrl = i.issuerUrl then byUrl else byUrl.erase previous.issuerUrl
  | none => byUrl

/-- The issuers that stay when `i` is registered: none with its URL under another
identifier. -/
theorem get?_evictOwner (r : Registry) (i : Issuer) (id : String) :
  (r.evictOwner i).get? id
    = if r.byUrl.get? i.issuerUrl = some id ∧ id ≠ i.id then none else r.byId.get? id
  := by
  unfold evictOwner
  split
  · rename_i owner howner
    split
    · rename_i heq
      subst heq
      by_cases h : id = i.id
      · simp [h]
      · simp [howner, Ne.symm h]
    · rename_i hne
      rw [StringMap.get?_erase, howner]
      by_cases h : id = owner
      · subst h
        simp [hne]
      · simp [h, Ne.symm h]
  · rename_i howner
    simp [howner]

/-- The URLs that stay when `i` is registered: none that its identifier had before. -/
theorem get?_evictUrl {byId : StringMap Issuer} {byUrl : StringMap String} (i : Issuer)
    {url : String} (h : url ≠ i.issuerUrl) :
  (evictUrl byId byUrl i).get? url
    = if (byId.get? i.id).map Issuer.issuerUrl = some url then none else byUrl.get? url
  := by
  unfold evictUrl
  split
  · rename_i previous hprevious
    split
    · rename_i heq
      simp [hprevious, heq, Ne.symm h]
    · rw [StringMap.get?_erase, hprevious]
      simp [eq_comm]
  · rename_i hnone
    simp [hnone]

/-- Putting an issuer in place keeps the two indexes consistent. -/
theorem consistent_replace (r : Registry) (i : Issuer) :
  Consistent ((r.evictOwner i).insert i.id i)
    ((evictUrl (r.evictOwner i) r.byUrl i).insert i.issuerUrl i.id)
  := by
  -- an issuer that stays has neither the identifier nor the URL of `i`
  have hstays : ∀ {id : String} {j : Issuer}, id ≠ i.id → (r.evictOwner i).get? id = some j →
      r.byId.get? id = some j ∧ j.issuerUrl ≠ i.issuerUrl := by
    intro id j hid hj
    rw [get?_evictOwner] at hj
    split at hj
    · cases hj
    · rename_i howner
      constructor
      · exact hj
      · intro hurl
        apply howner
        constructor
        · rw [← hurl, r.consistent.url_leads hj]
        · exact hid
  constructor
  · intro id j hj
    rw [StringMap.get?_insert] at hj
    split at hj
    · cases hj
      symm
      assumption
    · rename_i hid
      apply r.consistent.id_eq (hstays hid hj).1
  · intro id j hj
    rw [StringMap.get?_insert] at hj
    split at hj
    · rename_i hid
      cases hj
      rw [StringMap.get?_insert_self, hid]
    · rename_i hid
      obtain ⟨hold, hurl⟩ := hstays hid hj
      rw [StringMap.get?_insert, if_neg hurl, get?_evictUrl i hurl, if_neg,
        r.consistent.url_leads hold]
      intro hprevious
      rw [Option.map_eq_some_iff] at hprevious
      obtain ⟨k, hk, hkurl⟩ := hprevious
      rw [get?_evictOwner] at hk
      simp only [ne_eq, not_true_eq_false, and_false, if_false] at hk
      have hlead := r.consistent.url_leads hk
      rw [hkurl, r.consistent.url_leads hold] at hlead
      cases hlead
      exact hid rfl
  · intro url id hurl
    rw [StringMap.get?_insert] at hurl
    split at hurl
    · rename_i heq
      cases hurl
      refine ⟨i, ?_, heq.symm⟩
      rw [StringMap.get?_insert_self]
    · rename_i hne
      rw [get?_evictUrl i hne] at hurl
      split at hurl
      · cases hurl
      · rename_i hprevious
        obtain ⟨j, hj, hjurl⟩ := r.consistent.leads_to hurl
        have hid : id ≠ i.id := by
          rintro rfl
          apply hprevious
          rw [get?_evictOwner]
          simp [hj, hjurl]
        refine ⟨j, ?_, hjurl⟩
        rw [StringMap.get?_insert, if_neg hid, get?_evictOwner, if_neg]
        · exact hj
        · rintro ⟨howner, -⟩
          obtain ⟨k, hk, hkurl⟩ := r.consistent.leads_to howner
          rw [hj] at hk
          cases hk
          exact hne (hjurl.symm.trans hkurl)

/-- Puts an issuer in the place of those with its identifier or its URL. -/
def replace (r : Registry) (i : Issuer) : Registry :=
  let byId := r.evictOwner i
  let byUrl := evictUrl byId r.byUrl i
  { r with
    byId := byId.insert i.id i
    byUrl := byUrl.insert i.issuerUrl i.id
    consistent := r.consistent_replace i
    cycleIds := r.cycleIds.insert i.id
    cycleUrls := r.cycleUrls.insert i.issuerUrl }

/-- Registers an issuer that is valid and new in the current cycle. -/
def register (r : Registry) (i : Issuer) : Except IssuerError Registry :=
  match i.validate with
  | .error e => .error e
  | .ok () =>
    if r.cycleIds.contains i.id then .error (.duplicate i.id)
    else if r.cycleUrls.contains i.issuerUrl then .error (.duplicate i.issuerUrl)
    else .ok (r.replace i)

/-- What a reference resolves to stands under its own identifier. -/
theorem get?_of_resolve? {r : Registry} {reference : String} {i : Issuer}
    (h : r.resolve? reference = some i) :
  r.get? i.id = some i
  := by
  have hget : ∀ {id : String}, r.get? id = some i → r.get? i.id = some i := by
    intro id hid
    rw [r.consistent.id_eq hid]
    exact hid
  rcases Option.or_eq_some_iff.mp h with h | ⟨-, h⟩
  · exact hget h
  · obtain ⟨id, -, hid⟩ := Option.bind_eq_some_iff.mp h
    exact hget hid

/-- Registered issuers differ in their URLs. -/
theorem eq_of_issuerUrl_eq {r : Registry} {i j : Issuer} (hi : r.get? i.id = some i)
    (hj : r.get? j.id = some j) (h : i.issuerUrl = j.issuerUrl) :
  i = j
  := by
  have hlead := r.consistent.url_leads hi
  rw [h, r.consistent.url_leads hj] at hlead
  rw [Option.some.inj hlead, hi] at hj
  exact Option.some.inj hj

end Registry
end Federation
