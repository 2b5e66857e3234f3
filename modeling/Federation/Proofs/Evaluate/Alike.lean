import Federation.Proofs.Evaluate.Attributes
import Federation.Proofs.Evaluate.Reference

/-!
# Tokens that a set does not tell apart

The bindings of an issuer name audiences, and claims that they bind or map.  Two tokens of the
issuer are alike for a set when they differ in none of these, are for the same subject and
expire on the same side of the time of the evaluation (`BindingSet.Alike`); their other
claims and audiences and their times may differ.  Main statement: alike tokens come to one
decision, with the same verdict, claims and attributes (`evaluate_alike`).
-/

namespace Federation

/-- Whether two tokens differ in nothing that the bindings of their issuer refer to. -/
structure BindingSet.Alike (s : BindingSet) (now : Instant) (t t' : IdentityToken) : Prop where
  issuer_eq : t.issuer = t'.issuer
  subject_eq : t.subject = t'.subject
  /-- Both are expired, or neither is. -/
  expired_iff : t.expiry ≤ now ↔ t'.expiry ≤ now
  /-- They have the same of the audiences that a binding of their issuer is for. -/
  audience_iff : ∀ b ∈ s.records, b.issuer = t.issuer → ∀ a ∈ b.boundAudiences.elements,
    (a ∈ t.audience.elements ↔ a ∈ t'.audience.elements)
  /-- A claim that a binding of their issuer binds or maps has one value in both, or none. -/
  claim?_eq : ∀ b ∈ s.records, b.issuer = t.issuer → ∀ name, b.RefersTo name →
    t.claim? name = t'.claim? name

section

variable {registry : Registry} {policies : PolicyStore} {revision : UInt64}
  {groups : List BindingGroup} {s : BindingSet} {t t' : IdentityToken} {ctx : EvalContext}

/-- A binding of their issuer accepts an audience of both of two alike tokens, or of
neither. -/
theorem BindingSet.Alike.sharesAudience_iff {now : Instant} (halike : s.Alike now t t')
    {b : Binding} (hb : b ∈ s.records) (hissuer : b.issuer = t.issuer) :
  b.SharesAudience t ↔ b.SharesAudience t'
  := by
  apply exists_congr
  intro a
  apply and_congr_right
  intro ha
  apply halike.audience_iff b hb hissuer a ha

/-- Alike tokens have the same candidates. -/
theorem BindingSet.Alike.candidates_eq (h : compileAt registry policies revision groups = .ok s)
    {now : Instant} (halike : s.Alike now t t') :
  s.candidates t = s.candidates t'
  := by
  rw [candidates_of_compileAt h, candidates_of_compileAt h, ← halike.issuer_eq]
  apply List.filter_congr
  intro b hb
  obtain ⟨hmem, hissuer⟩ := List.mem_filter.mp hb
  rw [decide_eq_decide]
  apply halike.sharesAudience_iff hmem (of_decide_eq_true hissuer)

/-- What becomes of a token depends on its issuer and subject, on whether it is expired, and on
the audiences and claims that the bindings of its issuer refer to: tokens that are alike in
these come to one and the same decision. -/
theorem evaluate_alike (h : compileAt registry policies revision groups = .ok s)
    (hctx : ∀ checkpoint, ctx.interrupted checkpoint = none) (halike : s.Alike ctx.now t t') :
  ∃ d, evaluate s t ctx = .ok d ∧ evaluate s t' ctx = .ok d
  := by
  have hexpired : t.isExpiredAt ctx.now = t'.isExpiredAt ctx.now :=
    decide_eq_decide.mpr halike.expired_iff
  have hclaims : ∀ b ∈ s.candidates t, ∀ name, b.RefersTo name →
      t.claim? name = t'.claim? name := by
    intro b hb
    rw [candidates_of_compileAt h] at hb
    obtain ⟨hmem, hissuer⟩ := List.mem_filter.mp (List.mem_of_mem_filter hb)
    apply halike.claim?_eq b hmem (of_decide_eq_true hissuer)
  obtain ⟨d, hd⟩ := exists_decision s t hctx
  refine ⟨d, hd, ?_⟩
  rw [← evaluate_congr_token halike.issuer_eq halike.subject_eq hexpired
    (halike.candidates_eq h) hclaims]
  apply hd

end

/-! ### A token with more to it -/

namespace Sample

/-- The sample token as issued later and for longer, with another audience in the place of the
one that no binding names, and with a claim that no binding refers to. -/
def strayToken : IdentityToken :=
  { token with
    audience := .ofList ["vault", "registry-mirror"]
    claims := StringMap.ofList [("attempt", .number (.natural 1)), ("actor", .string "octocat")]
    expiry := .addMillis .epoch 5000
    issuedAt := .addMillis .epoch 1 }

theorem alike_strayToken :
  mappedSet.Alike .epoch token strayToken
  := by
  constructor
  · rfl
  · rfl
  · decide +kernel
  · decide +kernel
  · have hnames : ∀ b ∈ mappedSet.records, ∀ name ∈ b.boundClaims.keys ++ b.claimMappings.keys,
        token.claim? name = strayToken.claim? name := by
      decide +kernel
    intro b hb _ name hname
    apply hnames b hb name
    apply List.mem_append.mpr hname

end Sample

theorem evaluate_alike_sample :
  compileAt Sample.registry Sample.policies 1 [Sample.mappedGroup] = .ok Sample.mappedSet
    ∧ Sample.mappedSet.Alike .epoch Sample.token Sample.strayToken
    ∧ Sample.token.audience ≠ Sample.strayToken.audience
    ∧ Sample.token.claims ≠ Sample.strayToken.claims
    ∧ ∃ d, d.verdict = .granted "apply-dev" "deploy" 900
      ∧ evaluate Sample.mappedSet Sample.token ⟨.epoch, none, fun _ => none⟩ = .ok d
      ∧ evaluate Sample.mappedSet Sample.strayToken ⟨.epoch, none, fun _ => none⟩ = .ok d
  := by
  have hone : ∃ d, evaluate Sample.mappedSet Sample.token ⟨.epoch, none, fun _ => none⟩ = .ok d
      ∧ evaluate Sample.mappedSet Sample.strayToken ⟨.epoch, none, fun _ => none⟩ = .ok d :=
    evaluate_alike Sample.compileAt_eq_mappedSet (fun _ => rfl) Sample.alike_strayToken
  obtain ⟨d, hd, hstray⟩ := hone
  obtain ⟨d', hd', hverdict, -⟩ := Sample.exists_granted_mappedSet
  obtain rfl : d' = d := Except.ok.inj (hd'.symm.trans hd)
  refine ⟨Sample.compileAt_eq_mappedSet, Sample.alike_strayToken, ?_, ?_, d', hverdict, hd, hstray⟩
  · decide +kernel
  · decide +kernel

end Federation
