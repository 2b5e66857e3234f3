import Federation.Evaluate
import Federation.Proofs.Binding.Set

/-!
# What an evaluation decides

`specified` says which verdict a token should get from a list of bindings, by filtering
the list, without the indexes and the order in which claims are compared.  Main
statement: an evaluation against a compiled set that is not interrupted decides this
(`evaluate_eq_specified`).
-/

namespace Federation

/-! ### The specification -/

/-- Whether a token has a claim, of the type that a schema declares, that is written as
the text `expected`. -/
def ClaimSchema.Carries (schema : ClaimSchema) (t : IdentityToken) (claim expected : String) :
    Prop :=
  ∃ type ∈ schema.claimType? claim, ∃ value ∈ t.claim? claim,
    type.accepts value = true ∧ scalarText? value = some expected

instance (schema : ClaimSchema) (t : IdentityToken) (claim expected : String) :
    Decidable (schema.Carries t claim expected) :=
  inferInstanceAs (Decidable (∃ type ∈ schema.claimType? claim, ∃ value ∈ t.claim? claim,
    type.accepts value = true ∧ scalarText? value = some expected))

/-- Whether a token carries all bound claims of a binding. -/
def Binding.Agrees (schema : ClaimSchema) (t : IdentityToken) (b : Binding) : Prop :=
  ∀ e ∈ b.boundClaims.entries, schema.Carries t e.1 e.2

instance (schema : ClaimSchema) (t : IdentityToken) (b : Binding) :
    Decidable (b.Agrees schema t) :=
  inferInstanceAs (Decidable (∀ e ∈ b.boundClaims.entries, schema.Carries t e.1 e.2))

/-- Whether a token has one of the audiences of a binding. -/
def Binding.SharesAudience (t : IdentityToken) (b : Binding) : Prop :=
  ∃ a ∈ b.boundAudiences.elements, a ∈ t.audience.elements

instance (t : IdentityToken) (b : Binding) : Decidable (b.SharesAudience t) :=
  inferInstanceAs (Decidable (∃ a ∈ b.boundAudiences.elements, a ∈ t.audience.elements))

/-- The least of the two bounds of a binding and the seconds that are requested, if
any are. -/
def Binding.leastTtl (b : Binding) (requested : Option UInt64) : UInt64 :=
  requested.toList.foldr min (min b.tokenTtl b.maxTtl)

/-- The verdict on a token that some bindings give: the first check that fails denies it,
and it is granted the one binding that is left. -/
def specified (records : List Binding) (schema : ClaimSchema) (t : IdentityToken)
    (now : Instant) (requested : Option UInt64) : Verdict :=
  let ofIssuer := records.filter fun b => b.issuer = t.issuer
  let candidates := ofIssuer.filter fun b => b.SharesAudience t
  let matching := candidates.filter fun b => b.subject = t.subject ∧ b.Agrees schema t
  if t.expiry ≤ now then .denied .expired
  else if ofIssuer = [] then .denied .issuerUnknown
  else if candidates = [] then .denied .audienceMismatch
  else
    match matching with
    | [b] => .granted b.key b.policy (b.leastTtl requested)
    | _ :: _ :: _ => .denied .ambiguous
    | [] =>
      if ∃ b ∈ candidates, b.Agrees schema t then .denied .subjectMismatch
      else .denied .claimMismatch

/-! ### Comparing claims -/

/-- A declared claim matches exactly when the token carries it. -/
theorem claimMatches_iff {schema : ClaimSchema} {t : IdentityToken} {claim : String}
    (h : ∃ type, schema.claimType? claim = some type) (expected : String) :
  claimMatches schema t claim expected = true ↔ schema.Carries t claim expected
  := by
  obtain ⟨type, htype⟩ := h
  unfold claimMatches ClaimSchema.Carries
  cases t.claim? claim with
  | none => simp
  | some value => simp [htype]

/-- All claims are compared, and match, exactly when each of them matches. -/
theorem compareClaims_snd_iff {schema : ClaimSchema} {t : IdentityToken}
    (l : List (String × String)) :
  (compareClaims schema t l).2 = true ↔ ∀ e ∈ l, claimMatches schema t e.1 e.2 = true
  := by
  induction l with
  | nil => simp [compareClaims]
  | cons e l ih =>
    rw [List.forall_mem_cons, ← ih, compareClaims]
    split
    · rename_i h
      simp [h]
    · rename_i h
      simp [h]

theorem effectiveTtl_eq_leastTtl (b : Binding) (requested : Option UInt64) :
  b.effectiveTtl requested = b.leastTtl requested
  := by
  cases requested with
  | none => rfl
  | some ttl => rfl

/-! ### Deciding -/

/-- What an evaluation can come to: the first check that fails denies the token, and the
comparison of the candidates settles it if none does. -/
theorem evaluate_cases {s : BindingSet} {t : IdentityToken} {ctx : EvalContext} {d : Decision}
    (h : evaluate s t ctx = .ok d) :
  (t.expiry ≤ ctx.now ∧ d = .deny .expired s.revision t.issuer t.subject ctx.now)
    ∨ (¬ t.expiry ≤ ctx.now ∧ s.issuer? t.issuer = none
      ∧ d = .deny .issuerUnknown s.revision t.issuer t.subject ctx.now)
    ∨ (¬ t.expiry ≤ ctx.now ∧ (∃ i, s.issuer? t.issuer = some i) ∧ s.candidates t = []
      ∧ d = .deny .audienceMismatch s.revision t.issuer t.subject ctx.now)
    ∨ (¬ t.expiry ≤ ctx.now ∧ s.candidates t ≠ [] ∧ ∃ i, s.issuer? t.issuer = some i
      ∧ d = settle i.claimSchema s t ctx (s.candidates t))
  := by
  have hexpired : t.isExpiredAt ctx.now = true ↔ t.expiry ≤ ctx.now := decide_eq_true_iff
  simp only [evaluate, hexpired] at h
  split at h
  · cases h
  split at h
  · rename_i hexpiry
    cases h
    exact .inl ⟨hexpiry, rfl⟩
  rename_i hexpiry
  right
  split at h
  · rename_i hi
    cases h
    exact .inl ⟨hexpiry, hi, rfl⟩
  rename_i i hi
  right
  split at h
  · rename_i hempty
    cases h
    exact .inl ⟨hexpiry, ⟨i, hi⟩, List.isEmpty_iff.mp hempty, rfl⟩
  rename_i hcandidates
  split at h
  · cases h
  · cases h
    refine .inr ⟨hexpiry, ?_, i, hi, rfl⟩
    intro hnil
    apply hcandidates (List.isEmpty_iff.mpr hnil)

theorem EvalContext.firstInterruption?_eq_none {ctx : EvalContext}
    (hctx : ∀ checkpoint, ctx.interrupted checkpoint = none) (n : Nat) :
  ctx.firstInterruption? n = none
  := by
  apply List.findSome?_eq_none_iff.mpr
  intro checkpoint _
  apply hctx

/-- An evaluation that nothing interrupts comes to a decision. -/
theorem exists_decision (s : BindingSet) (t : IdentityToken) {ctx : EvalContext}
    (hctx : ∀ checkpoint, ctx.interrupted checkpoint = none) :
  ∃ d, evaluate s t ctx = .ok d
  := by
  simp only [evaluate, hctx, EvalContext.firstInterruption?_eq_none hctx]
  split
  · exact ⟨_, rfl⟩
  split
  · exact ⟨_, rfl⟩
  split
  · exact ⟨_, rfl⟩
  · exact ⟨_, rfl⟩

/-- A token that no check denies is settled by the comparison of its candidates, unless
something interrupts it. -/
theorem evaluate_eq_settle {s : BindingSet} {t : IdentityToken} {ctx : EvalContext} {i : Issuer}
    (hctx : ∀ checkpoint, ctx.interrupted checkpoint = none) (hexpiry : ¬ t.expiry ≤ ctx.now)
    (hi : s.issuer? t.issuer = some i) (hcandidates : s.candidates t ≠ []) :
  evaluate s t ctx = .ok (settle i.claimSchema s t ctx (s.candidates t))
  := by
  have hempty : (s.candidates t).isEmpty = false := by
    simpa using hcandidates
  have hunexpired : t.isExpiredAt ctx.now = false := by
    simpa [IdentityToken.isExpiredAt] using hexpiry
  simp only [evaluate, hctx, hunexpired, hi, hempty, EvalContext.firstInterruption?_eq_none hctx,
    Bool.false_eq_true, if_false]

theorem map_fst_filter_compared (schema : ClaimSchema) (t : IdentityToken)
    (candidates : List Binding) :
  ((candidates.map fun b => (b, compareClaims schema t b.boundClaims.entries)).filter
      fun c => c.2.2).map Prod.fst
    = candidates.filter fun b => (compareClaims schema t b.boundClaims.entries).2
  := by
  rw [List.filter_map, List.map_map]
  apply List.map_id

/-- What is decided on candidates, once it is known which of them agree. -/
theorem verdict_settle {schema : ClaimSchema} {t : IdentityToken} {candidates : List Binding}
    (hdeclared : ∀ b ∈ candidates, ∀ e ∈ b.boundClaims.entries,
      ∃ type, schema.claimType? e.1 = some type)
    (s : BindingSet) (ctx : EvalContext) :
  (settle schema s t ctx candidates).verdict
    = match candidates.filter fun b => b.subject = t.subject ∧ b.Agrees schema t with
      | [b] => .granted b.key b.policy (b.leastTtl ctx.requestedTtl)
      | _ :: _ :: _ => .denied .ambiguous
      | [] =>
        if ∃ b ∈ candidates, b.Agrees schema t then .denied .subjectMismatch
        else .denied .claimMismatch
  := by
  have hagrees : candidates.filter (fun b => (compareClaims schema t b.boundClaims.entries).2)
      = candidates.filter fun b => b.Agrees schema t := by
    apply List.filter_congr
    intro b hb
    rw [Bool.eq_iff_iff, compareClaims_snd_iff, decide_eq_true_iff]
    apply forall₂_congr
    intro e he
    apply claimMatches_iff (hdeclared b hb e he)
  have hmatching : (candidates.filter fun b => b.Agrees schema t).filter
        (fun b => t.subject = b.subject)
      = candidates.filter fun b => b.subject = t.subject ∧ b.Agrees schema t := by
    rw [List.filter_filter]
    apply List.filter_congr
    intro b _
    simp [eq_comm]
  have hany : (candidates.filter fun b => b.Agrees schema t).isEmpty = true
      ↔ ¬ ∃ b ∈ candidates, b.Agrees schema t := by
    simp
  simp only [settle, map_fst_filter_compared, hagrees, hmatching]
  split
  · rename_i b heq
    rw [heq, effectiveTtl_eq_leastTtl]
  · rename_i heq
    rw [heq]
    by_cases h : ∃ b ∈ candidates, b.Agrees schema t
    · rw [if_pos h, if_neg fun hempty => hany.mp hempty h]
      rfl
    · rw [if_neg h, if_pos (hany.mpr h)]
      rfl
  · rename_i hone hnone
    split
    · rename_i b heq
      exact absurd heq (hone b)
    · rfl
    · rename_i heq
      exact absurd heq hnone

/-- The candidates of a token are the bindings of its issuer that share an audience
with it. -/
theorem candidates_of_compileAt {registry : Registry} {policies : PolicyStore}
    {revision : UInt64} {groups : List BindingGroup} {s : BindingSet}
    (h : compileAt registry policies revision groups = .ok s) (t : IdentityToken) :
  s.candidates t
    = (s.records.filter fun b => b.issuer = t.issuer).filter fun b => b.SharesAudience t
  := by
  rw [BindingSet.candidates, forIssuer_of_compileAt h]
  apply List.filter_congr
  intro b _
  rw [Bool.eq_iff_iff, StringSet.meets_iff, decide_eq_true_iff]
  rfl

/-- The bound claims of a binding are declared by its issuer. -/
theorem declared_of_mem_records {registry : Registry} {policies : PolicyStore}
    {revision : UInt64} {groups : List BindingGroup} {s : BindingSet}
    (h : compileAt registry policies revision groups = .ok s) {b : Binding} (hb : b ∈ s.records)
    {i : Issuer} (hi : s.issuer? b.issuer = some i) :
  ∀ e ∈ b.boundClaims.entries, ∃ type, i.claimSchema.claimType? e.1 = some type
  := by
  obtain ⟨g, -, j, hj, hissuer, environment, -, operation, -, rfl⟩ :=
    exists_declared_of_mem_records h hb
  rw [hissuer] at hi
  cases hi
  intro e he
  simp only [BindingGroup.declared, StringMap.entries_map, List.mem_map] at he
  obtain ⟨e', he', rfl⟩ := he
  obtain ⟨type, htype, -⟩ := hj.bound_declared e' he'
  use type

/-- A compiled set has bindings for the issuers that it knows, and for no others. -/
theorem filter_issuer_eq_nil_iff {registry : Registry} {policies : PolicyStore}
    {revision : UInt64} {groups : List BindingGroup} {s : BindingSet}
    (h : compileAt registry policies revision groups = .ok s) {issuer : String} :
  (s.records.filter fun b => b.issuer = issuer) = [] ↔ s.issuer? issuer = none
  := by
  rw [List.filter_eq_nil_iff, Option.eq_none_iff_forall_ne_some, ← not_exists,
    issuer?_isSome_iff h]
  simp

/-- An evaluation against a compiled set that nothing interrupts comes to the verdict
that the bindings give. -/
theorem evaluate_eq_specified {registry : Registry} {policies : PolicyStore}
    {revision : UInt64} {groups : List BindingGroup} {s : BindingSet}
    (h : compileAt registry policies revision groups = .ok s) (t : IdentityToken)
    {ctx : EvalContext} (hctx : ∀ checkpoint, ctx.interrupted checkpoint = none) :
  (evaluate s t ctx).map Decision.verdict
    = .ok (specified s.records ((s.issuer? t.issuer).elim {} Issuer.claimSchema) t ctx.now
        ctx.requestedTtl)
  := by
  have hcandidates := candidates_of_compileAt h t
  have hissuer : _ ↔ s.issuer? t.issuer = none := filter_issuer_eq_nil_iff h
  obtain ⟨d, hd⟩ := exists_decision s t hctx
  rw [hd]
  apply congrArg Except.ok
  simp only [specified, ← hcandidates, hissuer]
  rcases evaluate_cases hd with
    ⟨hexpired, rfl⟩ | ⟨hexpired, hnone, rfl⟩ | ⟨hexpired, ⟨i, hi⟩, hempty, rfl⟩
      | ⟨hexpired, hne, i, hi, rfl⟩
  · rw [if_pos hexpired]
    rfl
  · rw [if_neg hexpired, if_pos hnone]
    rfl
  · rw [if_neg hexpired, hi, if_neg (Option.some_ne_none i), if_pos hempty]
    rfl
  · have hdeclared : ∀ b ∈ s.candidates t, ∀ e ∈ b.boundClaims.entries,
        ∃ type, i.claimSchema.claimType? e.1 = some type := by
      intro b hb
      rw [hcandidates] at hb
      obtain ⟨hmem, hof⟩ := List.mem_filter.mp (List.mem_of_mem_filter hb)
      apply declared_of_mem_records h hmem
      rw [of_decide_eq_true hof]
      apply hi
    rw [if_neg hexpired, hi, if_neg (Option.some_ne_none i), if_neg hne]
    apply verdict_settle hdeclared

/-! ### A small domain -/

namespace Sample

/-- An issuer with two audiences and a claim that is a number. -/
def issuer : Issuer where
  id := "ci"
  discoveryUrl := "https://ci.example/.well-known/openid-configuration"
  issuerUrl := "https://ci.example"
  audiences := .ofList ["vault", "registry"]
  trustAnchors := []
  claimSchema := ⟨StringMap.ofList [("attempt", .number)]⟩

/-- Four bindings for the issuer, which is referred to by its URL. -/
def group : BindingGroup where
  issuer := "https://ci.example"
  environments := ["prod", "dev"]
  operations := ["plan", "apply"]
  subjectTemplate := "\x7boperation\x7d@\x7benvironment\x7d"
  boundClaims := StringMap.ofList [("attempt", "1")]
  policy := "deploy"

def registry : Registry := Registry.empty.replace issuer

def policies : PolicyStore := ⟨StringMap.ofList [("deploy", ⟨"deploy", [⟨"secret/*", ["read"]⟩]⟩)]⟩

def set : BindingSet := (compileAt registry policies 1 [group]).toOption.getD .empty

theorem compileAt_eq_set :
  compileAt registry policies 1 [group] = .ok set
  := by
  have hok : (compileAt registry policies 1 [group]).isOk = true := by decide +kernel
  apply eq_ok_getD_of_isOk hok

/-- A token that one of the bindings accepts. -/
def token : IdentityToken where
  issuer := "https://ci.example"
  subject := "apply@dev"
  audience := .ofList ["elsewhere", "vault"]
  claims := StringMap.ofList [("attempt", .number (.natural 1))]
  expiry := .addMillis .epoch 1
  issuedAt := .epoch

end Sample

theorem evaluate_eq_specified_sample :
  compileAt Sample.registry Sample.policies 1 [Sample.group] = .ok Sample.set
    ∧ (evaluate Sample.set Sample.token ⟨.epoch, some 60, fun _ => none⟩).map Decision.verdict
      = .ok (.granted "apply-dev" "deploy" 60)
  := by
  constructor
  · apply Sample.compileAt_eq_set
  · rw [evaluate_eq_specified Sample.compileAt_eq_set Sample.token fun _ => rfl]
    decide +kernel

end Federation
