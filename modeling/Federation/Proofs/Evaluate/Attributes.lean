import Federation.Proofs.Evaluate.Evidence

/-!
# The attributes of a grant

A binding maps claims to attributes: a grant records, under the attribute, the value that the
token carries of the claim (`Binding.Maps`).  Nothing keeps a binding from mapping several
claims to one attribute.  Of a token that carries several of them, the value of the last one is
recorded, in the order of the names of the claims, and the other values are lost.

Main statement: the attributes of a grant are the values of the last claims
(`Binding.MapsLast`), and no mapped value is lost exactly when the values under one attribute
are the same (`attributes_of_granted`).
-/

namespace Federation

/-! ### Mapped values -/

/-- Whether a binding maps a claim to an attribute and a token carries the claim with a
value. -/
def Binding.Maps (t : IdentityToken) (b : Binding) (claim attr : String) (value : Json) : Prop :=
  b.claimMappings.get? claim = some attr ∧ t.claim? claim = some value

/-- Whether a token has the value under the last of the claims that it carries and that a
binding maps to an attribute. -/
def Binding.MapsLast (t : IdentityToken) (b : Binding) (attr : String) (value : Json) : Prop :=
  ∃ claim, b.Maps t claim attr value
    ∧ ∀ claim' value', b.Maps t claim' attr value' → ¬ claim < claim'

/-- Whether the claims that a token carries and that a binding maps to one attribute have one
value. -/
def Binding.MapsApart (t : IdentityToken) (b : Binding) : Prop :=
  ∀ attr claim claim' value value', b.Maps t claim attr value →
    b.Maps t claim' attr value' → value = value'

variable {t : IdentityToken} {b : Binding} {attr : String} {value : Json}

/-- An attribute of a binding has the value of the last claim that is mapped to it. -/
theorem get?_mappedAttributes_eq_some_iff :
  (mappedAttributes t b).get? attr = some value ↔ b.MapsLast t attr value
  := by
  have hvalues : ((b.claimMappings.entries.filterMap fun e =>
        (t.claim? e.1).map ((e.2, ·))).filter fun e => e.1 = attr).map Prod.snd
      = b.claimMappings.entries.filterMap fun e =>
        if e.2 = attr then t.claim? e.1 else none := by
    rw [List.filter_filterMap, List.map_filterMap]
    apply List.filterMap_congr
    intro e _
    by_cases h : e.2 = attr
    · cases t.claim? e.1 <;> simp [h]
    · cases t.claim? e.1 <;> simp [h]
  rw [mappedAttributes, StringMap.get?_ofList, hvalues, StringMap.getLast?_filterMap_entries]
  simp only [← StringMap.get?_eq_some_iff, Prod.exists, Prod.forall]
  constructor
  · rintro ⟨claim, attr', hmapped, hvalue, hlast⟩
    obtain ⟨rfl, hclaim⟩ := Option.ite_none_right_eq_some.mp hvalue
    refine ⟨claim, ⟨hmapped, hclaim⟩, ?_⟩
    intro claim' value' h hlt
    have hnone := hlast claim' attr' h.1 hlt
    rw [if_pos rfl, h.2] at hnone
    cases hnone
  · rintro ⟨claim, ⟨hmapped, hclaim⟩, hlast⟩
    refine ⟨claim, attr, hmapped, by rw [if_pos rfl, hclaim], ?_⟩
    intro claim' attr' hmapped' hlt
    split
    · rename_i hattr
      subst hattr
      apply Option.eq_none_iff_forall_ne_some.mpr
      intro value' hvalue'
      exact hlast claim' value' ⟨hmapped', hvalue'⟩ hlt
    · rfl

/-- An attribute that a carried claim is mapped to has a value. -/
theorem exists_get?_mappedAttributes {claim : String} (h : b.Maps t claim attr value) :
  ∃ value', (mappedAttributes t b).get? attr = some value'
  := by
  have hmem : (attr, value) ∈ b.claimMappings.entries.filterMap fun e =>
      (t.claim? e.1).map ((e.2, ·)) := by
    apply List.mem_filterMap.mpr
    exact ⟨(claim, attr), (b.claimMappings.get?_eq_some_iff claim attr).mp h.1, by simp [h.2]⟩
  rw [← Option.isSome_iff_exists, mappedAttributes, StringMap.get?_ofList, List.getLast?_isSome]
  apply List.ne_nil_of_mem (a := value)
  exact List.mem_map.mpr ⟨(attr, value), List.mem_filter.mpr ⟨hmem, by simp⟩, rfl⟩

/-- Every mapped value is an attribute exactly when no two differ on one. -/
theorem forall_get?_mappedAttributes_iff :
  (∀ claim attr value, b.Maps t claim attr value →
      (mappedAttributes t b).get? attr = some value) ↔ b.MapsApart t
  := by
  constructor
  · intro h attr claim claim' value value' hmaps hmaps'
    have heq := (h claim attr value hmaps).symm.trans (h claim' attr value' hmaps')
    exact Option.some.inj heq
  · intro h claim attr value hmaps
    obtain ⟨value', hvalue'⟩ := exists_get?_mappedAttributes hmaps
    obtain ⟨claim', hmaps', -⟩ := get?_mappedAttributes_eq_some_iff.mp hvalue'
    rw [hvalue', h attr claim claim' value value' hmaps hmaps']

/-! ### Grants -/

/-- A grant records, under each attribute, the value of the last claim that its binding maps to
it and the token carries, and nothing else; it records every mapped value exactly when no two
of them differ on an attribute. -/
theorem attributes_of_granted {registry : Registry} {policies : PolicyStore} {revision : UInt64}
    {groups : List BindingGroup} {s : BindingSet} {ctx : EvalContext}
    (h : compileAt registry policies revision groups = .ok s) {d : Decision}
    (hd : evaluate s t ctx = .ok d) {key policy : String} {ttl : UInt64}
    (hgranted : d.verdict = .granted key policy ttl) :
  ∃ b, s.get? key = some b
    ∧ (∀ attr value, d.attributes.get? attr = some value ↔ b.MapsLast t attr value)
    ∧ ((∀ claim attr value, b.Maps t claim attr value → d.attributes.get? attr = some value)
      ↔ b.MapsApart t)
  := by
  rcases evaluate_cases hd with
    ⟨-, rfl⟩ | ⟨-, -, rfl⟩ | ⟨-, -, -, rfl⟩ | ⟨-, -, i, -, rfl⟩
  · cases hgranted
  · cases hgranted
  · cases hgranted
  rcases settle_cases i.claimSchema s t ctx (s.candidates t) with
    ⟨b, hb, -, heq⟩ | ⟨reason, -, heq⟩
  · rw [heq] at hgranted ⊢
    obtain ⟨rfl, -, -⟩ := Verdict.granted.inj hgranted
    have hmem : b ∈ s.records := by
      rw [candidates_of_compileAt h] at hb
      exact List.mem_of_mem_filter (List.mem_of_mem_filter hb)
    refine ⟨b, (get?_eq_some_iff_of_compileAt h).mpr ⟨hmem, rfl⟩, ?_, ?_⟩
    · intro attr value
      exact get?_mappedAttributes_eq_some_iff
    · exact forall_get?_mappedAttributes_iff
  · rw [heq] at hgranted
    cases hgranted

/-! ### A mapping with two claims for one attribute -/

theorem attributes_of_granted_sample :
  compileAt Sample.registry Sample.policies 1 [Sample.mappedGroup] = .ok Sample.mappedSet
    ∧ ∃ d, evaluate Sample.mappedSet Sample.token ⟨.epoch, none, fun _ => none⟩ = .ok d
      ∧ d.verdict = .granted "apply-dev" "deploy" 900
      ∧ ∃ b, Sample.mappedSet.get? "apply-dev" = some b
        ∧ (∀ attr value, d.attributes.get? attr = some value ↔ b.MapsLast Sample.token attr value)
        ∧ ((∀ claim attr value, b.Maps Sample.token claim attr value →
            d.attributes.get? attr = some value) ↔ b.MapsApart Sample.token)
  := by
  obtain ⟨d, hd, hverdict, -, -⟩ := Sample.exists_granted_mappedSet
  exact ⟨Sample.compileAt_eq_mappedSet, d, hd, hverdict,
    attributes_of_granted Sample.compileAt_eq_mappedSet hd hverdict⟩

/-- The issuer of the sample token is mapped to an attribute that has another value. -/
theorem get?_attributes_ne_of_maps :
  compileAt Sample.registry Sample.policies 1 [Sample.mappedGroup] = .ok Sample.mappedSet
    ∧ ∃ d b, evaluate Sample.mappedSet Sample.token ⟨.epoch, none, fun _ => none⟩ = .ok d
      ∧ d.verdict = .granted "apply-dev" "deploy" 900
      ∧ Sample.mappedSet.get? "apply-dev" = some b
      ∧ b.Maps Sample.token "iss" "origin" (.string "https://ci.example")
      ∧ d.attributes.get? "origin" ≠ some (.string "https://ci.example")
  := by
  obtain ⟨d, hd, hverdict, -, hattributes⟩ := Sample.exists_granted_mappedSet
  have hmapped : (Sample.mappedSet.get? "apply-dev").bind (fun b => b.claimMappings.get? "iss")
      = some "origin" := by
    decide +kernel
  obtain ⟨b, hb, hclaim⟩ := Option.bind_eq_some_iff.mp hmapped
  refine ⟨Sample.compileAt_eq_mappedSet, d, b, hd, hverdict, hb, ⟨hclaim, ?_⟩, ?_⟩
  · decide +kernel
  · rw [hattributes]
    decide +kernel

end Federation
