import Federation.Proofs.Token.Carried

/-!
# What an evaluation reads of a token

Of a token an evaluation looks at issuer and subject, at whether it is expired, at the
audience that decides which bindings it may be for, and at the claims that these bindings
refer to.  Nothing else of it matters: two tokens that agree in this get the same decision
(`evaluate_congr_token`).
-/

namespace Federation

variable {s : BindingSet} {t t' : IdentityToken} {ctx : EvalContext}

theorem claimMatches_congr {claim : String} (h : t.claim? claim = t'.claim? claim)
    (schema : ClaimSchema) (expected : String) :
  claimMatches schema t claim expected = claimMatches schema t' claim expected
  := by rw [claimMatches, h, claimMatches]

/-- The claims that are compared are all that a comparison looks at. -/
theorem compareClaims_congr {l : List (String × String)}
    (h : ∀ e ∈ l, t.claim? e.1 = t'.claim? e.1) (schema : ClaimSchema) :
  compareClaims schema t l = compareClaims schema t' l
  := by
  induction l with
  | nil => rfl
  | cons e l ih =>
    obtain ⟨he, hrest⟩ := List.forall_mem_cons.mp h
    rw [compareClaims, compareClaims, claimMatches_congr he, he, ih hrest]

/-- The claims that a binding maps are all that it records. -/
theorem mappedClaims_congr {b : Binding}
    (h : ∀ name ∈ b.claimMappings.keys, t.claim? name = t'.claim? name) :
  mappedClaims t b = mappedClaims t' b ∧ mappedAttributes t b = mappedAttributes t' b
  := by
  have hentries : ∀ e ∈ b.claimMappings.entries, t.claim? e.1 = t'.claim? e.1 := by
    intro e he
    exact h e.1 (List.mem_map_of_mem he)
  constructor
  · apply List.filterMap_congr
    intro e he
    rw [hentries e he]
  · apply congrArg StringMap.ofList
    apply List.filterMap_congr
    intro e he
    rw [hentries e he]

/-- The comparison of candidates depends on issuer and subject of a token and on the claims that the
candidates refer to. -/
theorem settle_congr {candidates : List Binding} (hissuer : t.issuer = t'.issuer)
    (hsubject : t.subject = t'.subject)
    (hclaims : ∀ b ∈ candidates, ∀ name, b.RefersTo name → t.claim? name = t'.claim? name)
    (schema : ClaimSchema) :
  settle schema s t ctx candidates = settle schema s t' ctx candidates
  := by
  have hcompared : (candidates.map fun b => (b, compareClaims schema t b.boundClaims.entries))
      = candidates.map fun b => (b, compareClaims schema t' b.boundClaims.entries) := by
    apply List.map_congr_left
    intro b hb
    rw [compareClaims_congr fun e he => hclaims b hb e.1 (.inl (List.mem_map_of_mem he))]
  have hmapped : ∀ b ∈ candidates, mappedClaims t b = mappedClaims t' b
      ∧ mappedAttributes t b = mappedAttributes t' b := by
    intro b hb
    exact mappedClaims_congr fun name hname => hclaims b hb name (.inr hname)
  simp only [settle, hcompared, hissuer, hsubject]
  split
  · rename_i b heq
    have hb : b ∈ candidates := by
      have hmem := heq ▸ List.mem_singleton_self b
      rw [map_fst_filter_compared] at hmem
      exact List.mem_of_mem_filter (List.mem_of_mem_filter hmem)
    rw [(hmapped b hb).1, (hmapped b hb).2]
  · rfl
  · rfl

/-- An evaluation depends on issuer and subject of a token, on whether it is expired, on the
bindings it may be for and on the claims that these refer to. -/
theorem evaluate_congr_token (hissuer : t.issuer = t'.issuer) (hsubject : t.subject = t'.subject)
    (hexpired : t.isExpiredAt ctx.now = t'.isExpiredAt ctx.now)
    (hcandidates : s.candidates t = s.candidates t')
    (hclaims : ∀ b ∈ s.candidates t, ∀ name, b.RefersTo name → t.claim? name = t'.claim? name) :
  evaluate s t ctx = evaluate s t' ctx
  := by
  have hsettle : ∀ schema, settle schema s t ctx (s.candidates t')
      = settle schema s t' ctx (s.candidates t') := by
    intro schema
    rw [← hcandidates]
    apply settle_congr hissuer hsubject hclaims
  simp only [evaluate, hsettle, hissuer, hsubject, hexpired, hcandidates]

end Federation
