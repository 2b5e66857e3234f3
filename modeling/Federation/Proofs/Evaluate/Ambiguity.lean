import Federation.Proofs.Evaluate
import Mathlib.Data.List.Nodup

/-!
# When a token is ambiguous

A token is ambiguous when it matches several bindings.  The compiler tells bindings
apart by their trust tuples, in which the bound claims have their values, while a token
is all that the evaluation knows.  The token decides these values, though
(`boundClaims_eq_of_agrees`), so two bindings that it matches have one trust tuple as
soon as they have the same audiences and bind the same claims (`trustTuple_eq`).

Main statement: two of the bindings that an ambiguous token matches differ in their
audiences or in the claims they bind (`Binding.Differ`), and no token is ambiguous in a set
that was compiled from one group (`differ_of_ambiguous`).
-/

namespace Federation

/-- What a token has to satisfy to match a binding of a set. -/
structure BindingSet.Matches (s : BindingSet) (t : IdentityToken) (b : Binding) : Prop where
  mem_records : b ∈ s.records
  issuer_eq : b.issuer = t.issuer
  shares_audience : b.SharesAudience t
  subject_eq : b.subject = t.subject
  agrees : ∃ i, s.issuer? t.issuer = some i ∧ b.Agrees i.claimSchema t

/-! ### Tokens decide the values of bound claims -/

/-- A claim of a token is written as one text only. -/
theorem ClaimSchema.Carries.text_eq {schema : ClaimSchema} {t : IdentityToken}
    {claim text text' : String} (h : schema.Carries t claim text)
    (h' : schema.Carries t claim text') :
  text = text'
  := by
  obtain ⟨-, -, value, hvalue, -, htext⟩ := h
  obtain ⟨-, -, value', hvalue', -, htext'⟩ := h'
  have hsame : value = value' := Option.mem_unique hvalue hvalue'
  rw [hsame, htext'] at htext
  exact (Option.some.inj htext).symm

/-- Two bindings that agree with one token and bind the same claims bind them to the same
texts. -/
theorem boundClaims_eq_of_agrees {schema : ClaimSchema} {t : IdentityToken} {b b' : Binding}
    (h : b.Agrees schema t) (h' : b'.Agrees schema t)
    (hkeys : b.boundClaims.keys = b'.boundClaims.keys) :
  b.boundClaims = b'.boundClaims
  := by
  apply StringMap.ext_get?
  intro claim
  have hbound := b.boundClaims.mem_keys_iff claim
  rw [hkeys, b'.boundClaims.mem_keys_iff] at hbound
  cases hget : b.boundClaims.get? claim with
  | none =>
    cases hget' : b'.boundClaims.get? claim with
    | none => rfl
    | some text' =>
      obtain ⟨text, htext⟩ := hbound.mp ⟨text', hget'⟩
      rw [hget] at htext
      cases htext
  | some text =>
    obtain ⟨text', hget'⟩ := hbound.mpr ⟨text, hget⟩
    have hcarries : schema.Carries t claim text :=
      h (claim, text) ((StringMap.get?_eq_some_iff _ claim text).mp hget)
    have hcarries' : schema.Carries t claim text' :=
      h' (claim, text') ((StringMap.get?_eq_some_iff _ claim text').mp hget')
    rw [hget', hcarries.text_eq hcarries']

/-- Two bindings that a token matches have one trust tuple if they are for the same
audiences and bind the same claims. -/
theorem BindingSet.Matches.trustTuple_eq {s : BindingSet} {t : IdentityToken} {b b' : Binding}
    (h : s.Matches t b) (h' : s.Matches t b') (haudiences : b.boundAudiences = b'.boundAudiences)
    (hkeys : b.boundClaims.keys = b'.boundClaims.keys) :
  b.trustTuple = b'.trustTuple
  := by
  obtain ⟨i, hi, hagrees⟩ := h.agrees
  obtain ⟨i', hi', hagrees'⟩ := h'.agrees
  rw [hi] at hi'
  cases hi'
  have hclaims := boundClaims_eq_of_agrees hagrees hagrees' hkeys
  rw [Binding.trustTuple, Binding.trustTuple, h.issuer_eq, h'.issuer_eq, h.subject_eq,
    h'.subject_eq, haudiences, hclaims]

/-! ### Compiled sets -/

section

variable {registry : Registry} {policies : PolicyStore} {revision : UInt64}
  {groups : List BindingGroup} {s : BindingSet}

/-- The bindings of a compiled set differ in their keys and in their trust tuples. -/
theorem distinct_of_compileAt (h : compileAt registry policies revision groups = .ok s) :
  Distinct s.records
  := by
  obtain ⟨p, hp, rfl⟩ := exists_holds_of_compileAt h
  apply (Distinct.perm hp.values_perm).mpr hp.compilable.distinct

/-- Whether two bindings differ in more than what a token decides: in their audiences or
in the claims they bind. -/
def Binding.Differ (b b' : Binding) : Prop :=
  b.boundAudiences ≠ b'.boundAudiences ∨ b.boundClaims.keys ≠ b'.boundClaims.keys

/-- Two bindings of a compiled set that a token matches differ. -/
theorem BindingSet.Matches.differ (h : compileAt registry policies revision groups = .ok s)
    {t : IdentityToken} {b b' : Binding} (hb : s.Matches t b) (hb' : s.Matches t b')
    (hne : b ≠ b') :
  b.Differ b'
  := by
  by_contra hsame
  rw [Binding.Differ, not_or, not_not, not_not] at hsame
  apply hne
  apply List.inj_on_of_nodup_map (distinct_of_compileAt h).2 hb.mem_records hb'.mem_records
  apply hb.trustTuple_eq hb' hsame.1 hsame.2

/-- The bindings of a set that was compiled from one group do not differ. -/
theorem not_differ_of_singleton {g : BindingGroup}
    (h : compileAt registry policies revision [g] = .ok s) {b b' : Binding}
    (hb : b ∈ s.records) (hb' : b' ∈ s.records) :
  ¬ b.Differ b'
  := by
  obtain ⟨_, hg, i, hi, -, environment, -, operation, -, rfl⟩ :=
    exists_declared_of_mem_records h hb
  obtain ⟨_, hg', i', hi', -, environment', -, operation', -, rfl⟩ :=
    exists_declared_of_mem_records h hb'
  cases List.mem_singleton.mp hg
  cases List.mem_singleton.mp hg'
  have hissuer := hi.resolves
  rw [hi'.resolves] at hissuer
  cases hissuer
  rintro (haudiences | hkeys)
  · apply haudiences
    rfl
  · apply hkeys
    simp only [BindingGroup.declared, StringMap.keys, StringMap.entries_map, List.map_map]
    rfl

/-! ### Ambiguous tokens -/

/-- Only the comparison of candidates finds a token ambiguous. -/
theorem eq_settle_of_ambiguous {t : IdentityToken} {ctx : EvalContext} {d : Decision}
    (he : evaluate s t ctx = .ok d) (hd : d.verdict = .denied .ambiguous) :
  ∃ i, s.issuer? t.issuer = some i ∧ d = settle i.claimSchema s t ctx (s.candidates t)
  := by
  rcases evaluate_cases he with ⟨-, rfl⟩ | ⟨-, -, rfl⟩ | ⟨-, -, -, rfl⟩ | ⟨-, -, i, hi, h⟩
  · cases hd
  · cases hd
  · cases hd
  · exact ⟨i, hi, h⟩

/-- The bound claims of the candidates of a token are declared by its issuer. -/
theorem declared_of_mem_candidates (h : compileAt registry policies revision groups = .ok s)
    {t : IdentityToken} {i : Issuer} (hi : s.issuer? t.issuer = some i) {b : Binding}
    (hb : b ∈ s.candidates t) :
  ∀ e ∈ b.boundClaims.entries, ∃ type, i.claimSchema.claimType? e.1 = some type
  := by
  rw [candidates_of_compileAt h] at hb
  obtain ⟨hmem, hissuer⟩ := List.mem_filter.mp (List.mem_of_mem_filter hb)
  apply declared_of_mem_records h hmem
  rw [of_decide_eq_true hissuer]
  apply hi

theorem nodup_candidates (h : compileAt registry policies revision groups = .ok s)
    (t : IdentityToken) :
  (s.candidates t).Nodup
  := by
  rw [candidates_of_compileAt h]
  apply (((distinct_of_compileAt h).1.of_map _).filter _).filter

/-- The candidates of a token with its subject that agree with it are the bindings it
matches. -/
theorem matches_of_mem_filter (h : compileAt registry policies revision groups = .ok s)
    {t : IdentityToken} {i : Issuer} (hi : s.issuer? t.issuer = some i) {b : Binding}
    (hb : b ∈ (s.candidates t).filter fun b => b.subject = t.subject ∧ b.Agrees i.claimSchema t) :
  s.Matches t b
  := by
  rw [candidates_of_compileAt h] at hb
  simp only [List.mem_filter, decide_eq_true_eq] at hb
  obtain ⟨⟨⟨hmem, hissuer⟩, haudience⟩, hsubject, hagrees⟩ := hb
  exact ⟨hmem, hissuer, haudience, hsubject, i, hi, hagrees⟩

/-- An ambiguous token matches two bindings. -/
theorem exists_matches_of_ambiguous (h : compileAt registry policies revision groups = .ok s)
    {t : IdentityToken} {ctx : EvalContext} {d : Decision} (he : evaluate s t ctx = .ok d)
    (hd : d.verdict = .denied .ambiguous) :
  ∃ b b', s.Matches t b ∧ s.Matches t b' ∧ b ≠ b'
  := by
  obtain ⟨i, hi, rfl⟩ := eq_settle_of_ambiguous he hd
  have hmatches := fun b => matches_of_mem_filter h hi (b := b)
  have hnodup := (nodup_candidates h t).filter
    fun b => decide (b.subject = t.subject ∧ b.Agrees i.claimSchema t)
  rw [verdict_settle fun b hb => declared_of_mem_candidates h hi hb] at hd
  -- only the case of several bindings that are left is denied as ambiguous
  split at hd
  · cases hd
  · rename_i b b' rest heq
    rw [heq] at hmatches hnodup
    refine ⟨b, b', hmatches b List.mem_cons_self,
      hmatches b' (List.mem_cons_of_mem _ List.mem_cons_self), ?_⟩
    rintro rfl
    apply (List.nodup_cons.mp hnodup).1 List.mem_cons_self
  · split at hd
    · cases hd
    · cases hd

/-- Two of the bindings that an ambiguous token matches differ in their audiences or in the
claims they bind.  So no token is ambiguous, at whatever time and for whatever it requests,
in a set that was compiled from one group. -/
theorem differ_of_ambiguous (h : compileAt registry policies revision groups = .ok s)
    (t : IdentityToken) (ctx : EvalContext) :
  ((evaluate s t ctx).map Decision.verdict = .ok (.denied .ambiguous) →
      ∃ b b', s.Matches t b ∧ s.Matches t b' ∧ b.Differ b')
    ∧ ((∃ g, groups = [g]) →
      (evaluate s t ctx).map Decision.verdict ≠ .ok (.denied .ambiguous))
  := by
  constructor
  · intro hambiguous
    obtain ⟨d, he, hd⟩ := map_eq_ok_iff.mp hambiguous
    obtain ⟨b, b', hb, hb', hne⟩ := exists_matches_of_ambiguous h he hd
    use b, b', hb, hb'
    apply hb.differ h hb' hne
  · rintro ⟨g, rfl⟩ hambiguous
    obtain ⟨d, he, hd⟩ := map_eq_ok_iff.mp hambiguous
    obtain ⟨b, b', hb, hb', hne⟩ := exists_matches_of_ambiguous h he hd
    apply not_differ_of_singleton h hb.mem_records hb'.mem_records
    apply hb.differ h hb' hne

end

namespace Sample

/-- Bindings for the subjects of `group` that bind no claims. -/
def laxGroup : BindingGroup := { group with boundClaims := {}, keyPrefix := some "lax" }

/-- The set of two groups that are for the same subjects. -/
def laxSet : BindingSet :=
  (compileAt registry policies 1 [group, laxGroup]).toOption.getD .empty

theorem compileAt_eq_laxSet :
  compileAt registry policies 1 [group, laxGroup] = .ok laxSet
  := by
  have hok : (compileAt registry policies 1 [group, laxGroup]).isOk = true := by decide +kernel
  apply eq_ok_getD_of_isOk hok

end Sample

theorem differ_of_ambiguous_sample :
  compileAt Sample.registry Sample.policies 1 [Sample.group, Sample.laxGroup] = .ok Sample.laxSet
    ∧ (evaluate Sample.laxSet Sample.token ⟨.epoch, none, fun _ => none⟩).map Decision.verdict
      = .ok (.denied .ambiguous)
    ∧ (∃ b b', Sample.laxSet.Matches Sample.token b ∧ Sample.laxSet.Matches Sample.token b'
      ∧ b.Differ b')
    ∧ compileAt Sample.registry Sample.policies 1 [Sample.group] = .ok Sample.set
    ∧ (evaluate Sample.set Sample.token ⟨.epoch, none, fun _ => none⟩).map Decision.verdict
      ≠ .ok (.denied .ambiguous)
  := by
  have hambiguous : (evaluate Sample.laxSet Sample.token ⟨.epoch, none, fun _ => none⟩).map
      Decision.verdict = .ok (.denied .ambiguous) := by
    decide +kernel
  refine ⟨Sample.compileAt_eq_laxSet, hambiguous, ?_, Sample.compileAt_eq_set, ?_⟩
  · apply (differ_of_ambiguous Sample.compileAt_eq_laxSet _ _).1 hambiguous
  · apply (differ_of_ambiguous Sample.compileAt_eq_set _ _).2 ⟨Sample.group, rfl⟩

end Federation
