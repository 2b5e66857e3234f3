import Federation.Proofs.Evaluate.Outcome
import Federation.Proofs.Json.Number

/-!
# What a grant pins down

A bound claim is compared by the text that its value is written as.  Values of one type are
told apart by their texts (`ClaimType.eq_of_scalarText?_eq`), so a claim that is declared
has one value only with which it can match a binding (`ClaimSchema.Carries.value_eq`).

Main statement: two tokens that are granted the same key of a compiled set are of the same
issuer, have the same subject and carry the same values of the bound claims
(`claims_eq_of_granted`).
-/

namespace Federation

/-! ### Values of one type -/

namespace ClaimType

/-- The values that a type accepts. -/
theorem exists_eq_of_accepts {type : ClaimType} {v : Json} (h : type.accepts v = true) :
  match type with
  | string => ∃ s, v = .string s
  | bool => ∃ b, v = .bool b
  | number => ∃ n, v = .number n
  | stringList => ∃ items, v = .array items
  := by cases type <;> cases v <;> simp [accepts] at h ⊢

theorem scalarText?_bool_injective {a b : Bool}
    (h : scalarText? (.bool a) = scalarText? (.bool b)) :
  a = b
  := by cases a <;> cases b <;> simp [scalarText?] at h ⊢

/-- Values of one type that are written alike are the same. -/
theorem eq_of_scalarText?_eq {type : ClaimType} {v w : Json} {text : String}
    (hv : type.accepts v = true) (hw : type.accepts w = true)
    (htext : scalarText? v = some text) (htext' : scalarText? w = some text) :
  v = w
  := by
  have hsame := htext.trans htext'.symm
  cases type with
  | string =>
    obtain ⟨s, rfl⟩ := exists_eq_of_accepts hv
    obtain ⟨s', rfl⟩ := exists_eq_of_accepts hw
    rw [Option.some.inj hsame]
  | bool =>
    obtain ⟨b, rfl⟩ := exists_eq_of_accepts hv
    obtain ⟨b', rfl⟩ := exists_eq_of_accepts hw
    rw [scalarText?_bool_injective hsame]
  | number =>
    obtain ⟨n, rfl⟩ := exists_eq_of_accepts hv
    obtain ⟨n', rfl⟩ := exists_eq_of_accepts hw
    rw [Json.Number.text_injective (Option.some.inj hsame)]
  | stringList =>
    -- lists have no text
    obtain ⟨items, rfl⟩ := exists_eq_of_accepts hv
    cases htext

end ClaimType

/-- A claim matches a text with one value only. -/
theorem ClaimSchema.Carries.value_eq {schema : ClaimSchema} {t t' : IdentityToken}
    {claim text : String} (h : schema.Carries t claim text)
    (h' : schema.Carries t' claim text) :
  ∃ value, t.claim? claim = some value ∧ t'.claim? claim = some value
  := by
  obtain ⟨type, htype, v, hv, haccepts, htext⟩ := h
  obtain ⟨type', htype', w, hw, haccepts', htext'⟩ := h'
  obtain rfl := Option.mem_unique htype htype'
  obtain rfl := ClaimType.eq_of_scalarText?_eq haccepts haccepts' htext htext'
  exact ⟨v, hv, hw⟩

/-! ### Grants -/

variable {registry : Registry} {policies : PolicyStore} {revision : UInt64}
  {groups : List BindingGroup} {s : BindingSet} {t t' : IdentityToken} {ctx ctx' : EvalContext}

/-- A token that is granted a key matches the binding of that key. -/
theorem exists_matches_of_granted (h : compileAt registry policies revision groups = .ok s)
    {key policy : String} {ttl : UInt64}
    (hgranted : (evaluate s t ctx).map Decision.verdict = .ok (.granted key policy ttl)) :
  ∃ b, s.get? key = some b ∧ s.Matches t b
  := by
  obtain ⟨-, b, hmatches, hverdict⟩ := matches_of_granted h hgranted
  obtain ⟨rfl, -, -⟩ := Verdict.granted.inj hverdict
  have hb : s.Matches t b := (hmatches b).mpr rfl
  exact ⟨b, (get?_eq_some_iff_of_compileAt h).mpr ⟨hb.mem_records, rfl⟩, hb⟩

/-- Two tokens that are granted one key, at whatever times and for whatever they request,
have the issuer and the subject of its binding and carry one value of each claim that it
binds. -/
theorem claims_eq_of_granted (h : compileAt registry policies revision groups = .ok s)
    {key policy policy' : String} {ttl ttl' : UInt64}
    (hgranted : (evaluate s t ctx).map Decision.verdict = .ok (.granted key policy ttl))
    (hgranted' : (evaluate s t' ctx').map Decision.verdict = .ok (.granted key policy' ttl')) :
  ∃ b, s.get? key = some b
    ∧ (t.issuer = b.issuer ∧ t'.issuer = b.issuer)
    ∧ (t.subject = b.subject ∧ t'.subject = b.subject)
    ∧ ∀ e ∈ b.boundClaims.entries,
      ∃ value, t.claim? e.1 = some value ∧ t'.claim? e.1 = some value
  := by
  obtain ⟨b, hget, hb⟩ := exists_matches_of_granted h hgranted
  obtain ⟨b', hget', hb'⟩ := exists_matches_of_granted h hgranted'
  rw [hget] at hget'
  cases hget'
  refine ⟨b, hget, ⟨hb.issuer_eq.symm, hb'.issuer_eq.symm⟩,
    ⟨hb.subject_eq.symm, hb'.subject_eq.symm⟩, ?_⟩
  intro e he
  obtain ⟨i, hi, hagrees⟩ := hb.agrees
  obtain ⟨i', hi', hagrees'⟩ := hb'.agrees
  rw [← hb.issuer_eq] at hi
  rw [← hb'.issuer_eq, hi] at hi'
  cases hi'
  exact (hagrees e he).value_eq (hagrees' e he)

namespace Sample

/-- Another token of the subject, with other audiences, times and claims. -/
def laterToken : IdentityToken :=
  { token with
    audience := .ofList ["registry"]
    claims := StringMap.ofList [("actor", .string "robot"), ("attempt", .number (.natural 1))]
    expiry := .addMillis .epoch 120000
    issuedAt := .addMillis .epoch 60000 }

end Sample

theorem claims_eq_of_granted_sample :
  compileAt Sample.registry Sample.policies 1 [Sample.group] = .ok Sample.set
    ∧ (evaluate Sample.set Sample.token ⟨.epoch, none, fun _ => none⟩).map Decision.verdict
      = .ok (.granted "apply-dev" "deploy" 900)
    ∧ (evaluate Sample.set Sample.laterToken
        ⟨.addMillis .epoch 60000, some 60, fun _ => none⟩).map Decision.verdict
      = .ok (.granted "apply-dev" "deploy" 60)
    ∧ ∃ b, Sample.set.get? "apply-dev" = some b
      ∧ (Sample.token.issuer = b.issuer ∧ Sample.laterToken.issuer = b.issuer)
      ∧ (Sample.token.subject = b.subject ∧ Sample.laterToken.subject = b.subject)
      ∧ ∀ e ∈ b.boundClaims.entries,
        ∃ value, Sample.token.claim? e.1 = some value ∧ Sample.laterToken.claim? e.1 = some value
  := by
  have hgranted : (evaluate Sample.set Sample.token ⟨.epoch, none, fun _ => none⟩).map
      Decision.verdict = .ok (.granted "apply-dev" "deploy" 900) := by
    decide +kernel
  have hgranted' : (evaluate Sample.set Sample.laterToken
      ⟨.addMillis .epoch 60000, some 60, fun _ => none⟩).map Decision.verdict
      = .ok (.granted "apply-dev" "deploy" 60) := by
    decide +kernel
  exact ⟨Sample.compileAt_eq_set, hgranted, hgranted',
    claims_eq_of_granted Sample.compileAt_eq_set hgranted hgranted'⟩

end Federation
