import Federation.Proofs.Evaluate.Outcome

/-!
# What a decision records of a token

A decision keeps the claims that took part in it, for those who read the trail afterwards.
What it keeps is evidence: each value is what the token carries under that name
(`StringMap.TakenFrom`), and a name is there only because a binding asks for it.

Main statement: an evaluation against a compiled set that nothing interrupts comes to a
decision that records no more than this and, of a grant, no less (`Decision.Evidences`,
`evidences_of_evaluate`).
-/

namespace Federation

/-! ### Maps of claims -/

/-- Whether all values of a map are claims of a token, under the same names. -/
def StringMap.TakenFrom (m : StringMap Json) (t : IdentityToken) : Prop :=
  ∀ name value, m.get? name = some value → t.claim? name = some value

namespace StringMap.TakenFrom

variable {m : StringMap Json} {t : IdentityToken}

theorem empty (t : IdentityToken) :
  (StringMap.empty : StringMap Json).TakenFrom t
  := by
  intro name value h
  rw [get?_empty] at h
  cases h

theorem insert (h : m.TakenFrom t) {name : String} {value : Json}
    (hvalue : t.claim? name = some value) :
  (m.insert name value).TakenFrom t
  := by
  intro n v hget
  rw [get?_insert] at hget
  split at hget
  · rename_i hn
    rw [hn, hvalue, hget]
  · exact h n v hget

theorem recordClaims (h : m.TakenFrom t) {seen : List (String × Json)}
    (hseen : ∀ e ∈ seen, t.claim? e.1 = some e.2) :
  (recordClaims m seen).TakenFrom t
  := by
  induction seen generalizing m with
  | nil => exact h
  | cons e seen ih =>
    obtain ⟨he, hrest⟩ := List.forall_mem_cons.mp hseen
    apply ih (h.insert he) hrest

end StringMap.TakenFrom

/-- A map that values are added to has their names and those it had. -/
theorem mem_keys_recordClaims {m : StringMap Json} {seen : List (String × Json)} {name : String} :
  name ∈ (recordClaims m seen).keys ↔ name ∈ m.keys ∨ name ∈ seen.map Prod.fst
  := by
  induction seen generalizing m with
  | nil => simp [recordClaims]
  | cons e seen ih =>
    have hinsert : name ∈ (m.insert e.1 e.2).keys ↔ name = e.1 ∨ name ∈ m.keys := by
      rw [StringMap.mem_keys_iff, StringMap.get?_insert, StringMap.mem_keys_iff]
      split
      · rename_i hname
        simp [hname]
      · rename_i hname
        simp [hname]
    rw [recordClaims, List.foldl_cons, ← recordClaims, ih, hinsert, List.map_cons,
      List.mem_cons, or_left_comm, or_assoc]

/-! ### What is looked at -/

/-- The values that are looked at are claims of the token that are asked for. -/
theorem of_mem_compareClaims {schema : ClaimSchema} {t : IdentityToken}
    {l : List (String × String)} {e : String × Json} (h : e ∈ (compareClaims schema t l).1) :
  t.claim? e.1 = some e.2 ∧ e.1 ∈ l.map Prod.fst
  := by
  have hseen : ∀ claim, e ∈ (t.claim? claim).toList.map ((claim, ·)) →
      t.claim? e.1 = some e.2 ∧ e.1 = claim := by
    intro claim he
    obtain ⟨value, hvalue, rfl⟩ := List.mem_map.mp he
    exact ⟨Option.mem_toList.mp hvalue, rfl⟩
  induction l with
  | nil => cases h
  | cons bound l ih =>
    rw [compareClaims] at h
    split at h
    · rcases List.mem_append.mp h with h | h
      · exact ⟨(hseen _ h).1, List.mem_cons.mpr (.inl (hseen _ h).2)⟩
      · exact ⟨(ih h).1, List.mem_cons_of_mem _ (ih h).2⟩
    · exact ⟨(hseen _ h).1, List.mem_cons.mpr (.inl (hseen _ h).2)⟩

/-- A claim that matches is carried by the token. -/
theorem exists_claim?_of_claimMatches {schema : ClaimSchema} {t : IdentityToken}
    {claim expected : String} (h : claimMatches schema t claim expected = true) :
  ∃ value, t.claim? claim = some value
  := by
  rw [claimMatches] at h
  split at h
  · cases h
  · rename_i value hvalue
    exact ⟨value, hvalue⟩

/-- If all claims match, all of them are looked at. -/
theorem mem_compareClaims_of_matches {schema : ClaimSchema} {t : IdentityToken}
    {l : List (String × String)} (h : (compareClaims schema t l).2 = true) {name : String}
    (hname : name ∈ l.map Prod.fst) :
  name ∈ (compareClaims schema t l).1.map Prod.fst
  := by
  induction l with
  | nil => cases hname
  | cons bound l ih =>
    obtain ⟨hbound, hrest⟩ := List.forall_mem_cons.mp ((compareClaims_snd_iff _).mp h)
    rw [compareClaims, if_pos hbound, List.map_append, List.mem_append]
    rcases List.mem_cons.mp hname with rfl | hname
    · obtain ⟨value, hvalue⟩ := exists_claim?_of_claimMatches hbound
      simp [hvalue]
    · exact .inr (ih ((compareClaims_snd_iff l).mpr hrest) hname)

/-- The mapped values are claims of the token that the binding maps. -/
theorem mem_mappedClaims_iff {t : IdentityToken} {b : Binding} {e : String × Json} :
  e ∈ mappedClaims t b ↔ t.claim? e.1 = some e.2 ∧ e.1 ∈ b.claimMappings.keys
  := by
  obtain ⟨name, value⟩ := e
  simp only [mappedClaims, List.mem_filterMap, Option.map_eq_some_iff, Prod.mk.injEq,
    StringMap.keys, List.mem_map]
  constructor
  · rintro ⟨mapping, hmapping, _, hvalue, rfl, rfl⟩
    exact ⟨hvalue, mapping, hmapping, rfl⟩
  · rintro ⟨hvalue, mapping, hmapping, rfl⟩
    exact ⟨mapping, hmapping, value, hvalue, rfl, rfl⟩

/-! ### What is recorded -/

/-- The values that are looked at while candidates are compared. -/
def seenClaims (schema : ClaimSchema) (t : IdentityToken) (candidates : List Binding) :
    List (String × Json) :=
  candidates.flatMap fun b => (compareClaims schema t b.boundClaims.entries).1

/-- The claims that take part while candidates are compared: the subject and what is looked
at. -/
def consideredClaims (schema : ClaimSchema) (t : IdentityToken) (candidates : List Binding) :
    StringMap Json :=
  recordClaims (StringMap.empty.insert "sub" (.string t.subject)) (seenClaims schema t candidates)

section

variable {schema : ClaimSchema} {t : IdentityToken} {candidates : List Binding}

theorem of_mem_seenClaims {e : String × Json} (h : e ∈ seenClaims schema t candidates) :
  t.claim? e.1 = some e.2 ∧ ∃ b ∈ candidates, e.1 ∈ b.boundClaims.keys
  := by
  obtain ⟨b, hb, he⟩ := List.mem_flatMap.mp h
  obtain ⟨hvalue, hname⟩ := of_mem_compareClaims he
  exact ⟨hvalue, b, hb, hname⟩

theorem takenFrom_consideredClaims :
  (consideredClaims schema t candidates).TakenFrom t
  := by
  apply ((StringMap.TakenFrom.empty t).insert rfl).recordClaims
  intro e he
  exact (of_mem_seenClaims he).1

/-- The subject takes part, and beside it what is looked at. -/
theorem mem_keys_consideredClaims {name : String} :
  name ∈ (consideredClaims schema t candidates).keys
    ↔ name = "sub" ∨ name ∈ (seenClaims schema t candidates).map Prod.fst
  := by
  have hsubject : name ∈ (StringMap.empty.insert "sub" (Json.string t.subject)).keys
      ↔ name = "sub" := by
    simp [StringMap.mem_keys_iff, StringMap.get?_insert, StringMap.get?_empty]
  rw [consideredClaims, mem_keys_recordClaims, hsubject]

/-- A claim that takes part beside the subject is bound by a candidate. -/
theorem exists_candidate_of_mem_keys {name : String}
    (h : name ∈ (consideredClaims schema t candidates).keys) (hname : name ≠ "sub") :
  ∃ b ∈ candidates, name ∈ b.boundClaims.keys
  := by
  rcases mem_keys_consideredClaims.mp h with h | h
  · exact absurd h hname
  · obtain ⟨e, he, rfl⟩ := List.mem_map.mp h
    apply (of_mem_seenClaims he).2

/-- All bound claims of a candidate that agrees take part. -/
theorem mem_keys_of_agreeing {b : Binding} (hb : b ∈ candidates)
    (h : (compareClaims schema t b.boundClaims.entries).2 = true) {name : String}
    (hname : name ∈ b.boundClaims.keys) :
  name ∈ (consideredClaims schema t candidates).keys
  := by
  obtain ⟨e, he, rfl⟩ := List.mem_map.mp (mem_compareClaims_of_matches h hname)
  apply mem_keys_consideredClaims.mpr
  right
  apply List.mem_map_of_mem
  exact List.mem_flatMap.mpr ⟨b, hb, he⟩

/-- What the comparison of candidates comes to: a grant of one of them that agrees, with
the mapped claims recorded as well, or a denial with the claims that took part. -/
theorem settle_cases (schema : ClaimSchema) (s : BindingSet) (t : IdentityToken)
    (ctx : EvalContext) (candidates : List Binding) :
  (∃ b ∈ candidates, (compareClaims schema t b.boundClaims.entries).2 = true
      ∧ settle schema s t ctx candidates
        = { verdict := .granted b.key b.policy (b.effectiveTtl ctx.requestedTtl)
            revision := s.revision
            issuer := t.issuer
            subject := t.subject
            claims := recordClaims (consideredClaims schema t candidates) (mappedClaims t b)
            attributes := mappedAttributes t b
            evaluatedAt := ctx.now })
    ∨ ∃ reason ∈ [DenialReason.claimMismatch, .subjectMismatch, .ambiguous],
      settle schema s t ctx candidates
        = { Decision.deny reason s.revision t.issuer t.subject ctx.now with
            claims := consideredClaims schema t candidates }
  := by
  have hconsidered : recordClaims (StringMap.empty.insert "sub" (.string t.subject))
        ((candidates.map fun b => (b, compareClaims schema t b.boundClaims.entries)).flatMap
          fun c => c.2.1)
      = consideredClaims schema t candidates := by
    rw [List.flatMap_map]
    rfl
  simp only [settle, map_fst_filter_compared, hconsidered]
  split
  · rename_i b heq
    have hb : b ∈ (candidates.filter fun b =>
        (compareClaims schema t b.boundClaims.entries).2).filter
        fun b => t.subject = b.subject := by
      rw [heq]
      apply List.mem_cons_self
    obtain ⟨hmem, hagrees⟩ := List.mem_filter.mp (List.mem_of_mem_filter hb)
    exact .inl ⟨b, hmem, hagrees, rfl⟩
  · right
    split
    · exact ⟨.claimMismatch, by simp, rfl⟩
    · exact ⟨.subjectMismatch, by simp, rfl⟩
  · exact .inr ⟨.ambiguous, by simp, rfl⟩

end

/-- The verdicts on tokens that are not compared with a binding. -/
def Verdict.unexamined : List Verdict :=
  [.denied .expired, .denied .issuerUnknown, .denied .audienceMismatch]

/-- What a decision on a token may and has to record. -/
structure Decision.Evidences (s : BindingSet) (t : IdentityToken) (d : Decision) : Prop where
  /-- The values are those of the token. -/
  carried : d.claims.TakenFrom t
  /-- Nothing is recorded of a token that is not compared with a binding. -/
  unexamined : d.verdict ∈ Verdict.unexamined → d.claims = {}
  /-- Of any other one the subject is. -/
  subject : d.verdict ∉ Verdict.unexamined → "sub" ∈ d.claims.keys
  /-- Everything else is bound by a binding that the token may be for, or mapped by the one
  that is granted. -/
  named : ∀ name ∈ d.claims.keys, name ≠ "sub" →
    (∃ b ∈ s.records, b.issuer = t.issuer ∧ b.SharesAudience t ∧ name ∈ b.boundClaims.keys)
      ∨ ∃ key policy ttl b, d.verdict = .granted key policy ttl ∧ s.get? key = some b
        ∧ name ∈ b.claimMappings.keys
  /-- A grant records all claims that its binding binds, and all that it maps and the token
  carries. -/
  granted : ∀ key policy ttl, d.verdict = .granted key policy ttl → ∃ b, s.get? key = some b
    ∧ (∀ name ∈ b.boundClaims.keys, name ∈ d.claims.keys)
    ∧ ∀ name ∈ b.claimMappings.keys, ∀ value, t.claim? name = some value →
      name ∈ d.claims.keys
  /-- A denial has no attributes. -/
  denied : ∀ reason, d.verdict = .denied reason → d.attributes = {}

namespace Decision.Evidences

variable {s : BindingSet} {t : IdentityToken}

/-- A denial of a token that is not compared with a binding records nothing. -/
theorem deny {reason : DenialReason} (h : .denied reason ∈ Verdict.unexamined)
    (revision : UInt64) (issuer subject : String) (now : Instant) :
  (Decision.deny reason revision issuer subject now).Evidences s t
  where
  carried := StringMap.TakenFrom.empty t
  unexamined _ := rfl
  subject hexamined := absurd h hexamined
  named _ hname := by cases hname
  granted _ _ _ hgranted := by cases hgranted
  denied _ _ := rfl

/-- The comparison of the candidates of a token records what it has to. -/
theorem settle {registry : Registry} {policies : PolicyStore} {revision : UInt64}
    {groups : List BindingGroup} (h : compileAt registry policies revision groups = .ok s)
    (schema : ClaimSchema) (t : IdentityToken) (ctx : EvalContext) :
  (settle schema s t ctx (s.candidates t)).Evidences s t
  := by
  have hcandidate : ∀ b ∈ s.candidates t,
      b ∈ s.records ∧ b.issuer = t.issuer ∧ b.SharesAudience t := by
    intro b hb
    rw [candidates_of_compileAt h] at hb
    simp only [List.mem_filter, decide_eq_true_eq, and_assoc] at hb
    exact hb
  have hbound : ∀ name ∈ (consideredClaims schema t (s.candidates t)).keys, name ≠ "sub" →
      ∃ b ∈ s.records, b.issuer = t.issuer ∧ b.SharesAudience t ∧ name ∈ b.boundClaims.keys := by
    intro name hname hsub
    obtain ⟨b, hb, hkey⟩ := exists_candidate_of_mem_keys hname hsub
    obtain ⟨hmem, hissuer, haudience⟩ := hcandidate b hb
    exact ⟨b, hmem, hissuer, haudience, hkey⟩
  rcases settle_cases schema s t ctx (s.candidates t) with
    ⟨b, hb, hagrees, heq⟩ | ⟨reason, hreason, heq⟩
  · rw [heq]
    have hget : s.get? b.key = some b :=
      (get?_eq_some_iff_of_compileAt h).mpr ⟨(hcandidate b hb).1, rfl⟩
    refine ⟨?_, ?_, ?_, ?_, ?_, ?_⟩
    · apply takenFrom_consideredClaims.recordClaims
      intro e he
      exact (mem_mappedClaims_iff.mp he).1
    · intro hunexamined
      simp [Verdict.unexamined] at hunexamined
    · intro _
      exact mem_keys_recordClaims.mpr (.inl (mem_keys_consideredClaims.mpr (.inl rfl)))
    · intro name hname hsub
      rcases mem_keys_recordClaims.mp hname with hname | hname
      · exact .inl (hbound name hname hsub)
      · obtain ⟨e, he, rfl⟩ := List.mem_map.mp hname
        exact .inr ⟨_, _, _, b, rfl, hget, (mem_mappedClaims_iff.mp he).2⟩
    · rintro _ _ _ ⟨⟩
      refine ⟨b, hget, ?_, ?_⟩
      · intro name hname
        exact mem_keys_recordClaims.mpr (.inl (mem_keys_of_agreeing hb hagrees hname))
      · intro name hname value hvalue
        apply mem_keys_recordClaims.mpr
        right
        exact List.mem_map.mpr ⟨(name, value), mem_mappedClaims_iff.mpr ⟨hvalue, hname⟩, rfl⟩
    · rintro _ ⟨⟩
  · rw [heq]
    refine ⟨takenFrom_consideredClaims, ?_, ?_, ?_, ?_, ?_⟩
    · intro hunexamined
      -- the comparison has reasons of its own
      simp only [List.mem_cons, List.not_mem_nil, or_false] at hreason
      rcases hreason with rfl | rfl | rfl
      all_goals simp [Verdict.unexamined, Decision.deny] at hunexamined
    · intro _
      exact mem_keys_consideredClaims.mpr (.inl rfl)
    · intro name hname hsub
      exact .inl (hbound name hname hsub)
    · rintro _ _ _ ⟨⟩
    · intro _ _
      rfl

end Decision.Evidences

/-- An evaluation against a compiled set that nothing interrupts comes to a decision that
records what it has to and no more. -/
theorem evidences_of_evaluate {registry : Registry} {policies : PolicyStore} {revision : UInt64}
    {groups : List BindingGroup} {s : BindingSet}
    (h : compileAt registry policies revision groups = .ok s) (t : IdentityToken)
    {ctx : EvalContext} (hctx : ∀ checkpoint, ctx.interrupted checkpoint = none) :
  ∃ d, evaluate s t ctx = .ok d ∧ d.Evidences s t
  := by
  obtain ⟨d, hd⟩ := exists_decision s t hctx
  use d, hd
  rcases evaluate_cases hd with
    ⟨-, rfl⟩ | ⟨-, -, rfl⟩ | ⟨-, -, -, rfl⟩ | ⟨-, -, i, -, rfl⟩
  · apply Decision.Evidences.deny
    simp [Verdict.unexamined]
  · apply Decision.Evidences.deny
    simp [Verdict.unexamined]
  · apply Decision.Evidences.deny
    simp [Verdict.unexamined]
  · apply Decision.Evidences.settle h

namespace Sample

/-- The group, which records issuer and subject under one attribute. -/
def mappedGroup : BindingGroup :=
  { group with
    claimMappings := StringMap.ofList [("attempt", "run"), ("iss", "origin"), ("sub", "origin")] }

def mappedSet : BindingSet := (compileAt registry policies 1 [mappedGroup]).toOption.getD .empty

theorem compileAt_eq_mappedSet :
  compileAt registry policies 1 [mappedGroup] = .ok mappedSet
  := by
  have hok : (compileAt registry policies 1 [mappedGroup]).isOk = true := by decide +kernel
  apply eq_ok_getD_of_isOk hok

/-- The claims that a grant of the group records of the token: `attempt` is bound and mapped,
`iss` is mapped. -/
def recordedClaims : StringMap Json :=
  StringMap.ofList
    [("attempt", .number (.natural 1)), ("iss", .string "https://ci.example"),
      ("sub", .string "apply@dev")]

/-- What the sample token is decided to, with the claims and attributes that are recorded. -/
theorem exists_granted_mappedSet :
  ∃ d, evaluate mappedSet token ⟨.epoch, none, fun _ => none⟩ = .ok d
    ∧ d.verdict = .granted "apply-dev" "deploy" 900
    ∧ d.claims = recordedClaims
    ∧ d.attributes = StringMap.ofList
      [("origin", .string "apply@dev"), ("run", .number (.natural 1))]
  := by
  have heq : (evaluate mappedSet token ⟨.epoch, none, fun _ => none⟩).map
        (fun d => (d.verdict, d.claims, d.attributes))
      = .ok (.granted "apply-dev" "deploy" 900, recordedClaims, StringMap.ofList
        [("origin", .string "apply@dev"), ("run", .number (.natural 1))]) := by
    decide +kernel
  obtain ⟨d, hd, hparts⟩ := map_eq_ok_iff.mp heq
  simp only [Prod.mk.injEq] at hparts
  exact ⟨d, hd, hparts⟩

end Sample

theorem evidences_of_evaluate_sample :
  compileAt Sample.registry Sample.policies 1 [Sample.mappedGroup] = .ok Sample.mappedSet
    ∧ ∃ d, evaluate Sample.mappedSet Sample.token ⟨.epoch, none, fun _ => none⟩ = .ok d
      ∧ d.verdict = .granted "apply-dev" "deploy" 900
      ∧ d.claims = Sample.recordedClaims
      ∧ d.Evidences Sample.mappedSet Sample.token
  := by
  obtain ⟨d, hd, hverdict, hclaims, -⟩ := Sample.exists_granted_mappedSet
  have hevidences : ∃ d, evaluate Sample.mappedSet Sample.token ⟨.epoch, none, fun _ => none⟩
      = .ok d ∧ d.Evidences Sample.mappedSet Sample.token :=
    evidences_of_evaluate Sample.compileAt_eq_mappedSet Sample.token fun _ => rfl
  obtain ⟨d', hd', hevidences⟩ := hevidences
  cases hd.symm.trans hd'
  exact ⟨Sample.compileAt_eq_mappedSet, d, hd, hverdict, hclaims, hevidences⟩

end Federation
