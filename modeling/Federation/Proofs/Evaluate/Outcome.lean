import Federation.Proofs.Evaluate.Ambiguity

/-!
# What a token is granted

An evaluation against a compiled set that nothing interrupts is decided by the bindings that
the token matches.  A token that is not expired is granted the binding it matches if that is
the only one (`granted_iff`), and is ambiguous if there are several (`ambiguous_iff`).
-/

namespace Federation

variable {registry : Registry} {policies : PolicyStore} {revision : UInt64}
  {groups : List BindingGroup} {s : BindingSet} {t : IdentityToken} {ctx : EvalContext}

/-- The candidates with the subject of a token that agree with it are the bindings it
matches. -/
theorem mem_filter_iff_matches (h : compileAt registry policies revision groups = .ok s)
    {i : Issuer} (hi : s.issuer? t.issuer = some i) (b : Binding) :
  b ∈ (s.candidates t).filter (fun b => b.subject = t.subject ∧ b.Agrees i.claimSchema t)
    ↔ s.Matches t b
  := by
  constructor
  · intro hb
    apply matches_of_mem_filter h hi hb
  · intro hb
    obtain ⟨j, hj, hagrees⟩ := hb.agrees
    rw [hi] at hj
    cases hj
    rw [candidates_of_compileAt h]
    simp only [List.mem_filter, decide_eq_true_eq]
    exact ⟨⟨⟨hb.mem_records, hb.issuer_eq⟩, hb.shares_audience⟩, hb.subject_eq, hagrees⟩

theorem candidates_ne_nil (h : compileAt registry policies revision groups = .ok s) {b : Binding}
    (hb : s.Matches t b) :
  s.candidates t ≠ []
  := by
  obtain ⟨i, hi, -⟩ := hb.agrees
  apply List.ne_nil_of_mem
  apply List.mem_of_mem_filter ((mem_filter_iff_matches h hi b).mpr hb)

/-- A token that is granted a binding is not expired and matches that binding and no other
one. -/
theorem matches_of_granted (h : compileAt registry policies revision groups = .ok s)
    {key policy : String} {ttl : UInt64}
    (hgranted : (evaluate s t ctx).map Decision.verdict = .ok (.granted key policy ttl)) :
  ¬ t.expiry ≤ ctx.now ∧ ∃ b, (∀ c, s.Matches t c ↔ c = b)
    ∧ Verdict.granted b.key b.policy (b.leastTtl ctx.requestedTtl) = .granted key policy ttl
  := by
  obtain ⟨d, he, hd⟩ := map_eq_ok_iff.mp hgranted
  rcases evaluate_cases he with
    ⟨-, rfl⟩ | ⟨-, -, rfl⟩ | ⟨-, -, -, rfl⟩ | ⟨hexpiry, -, i, hi, rfl⟩
  · cases hd
  · cases hd
  · cases hd
  have hmatches := mem_filter_iff_matches (t := t) h hi
  rw [verdict_settle fun b hb => declared_of_mem_candidates h hi hb] at hd
  split at hd
  · rename_i b heq
    rw [heq] at hmatches
    refine ⟨hexpiry, b, ?_, hd⟩
    intro c
    rw [← hmatches, List.mem_singleton]
  · cases hd
  · split at hd
    · cases hd
    · cases hd

/-- A token is granted a binding exactly when it is not expired and matches that binding and
no other one. -/
theorem granted_iff (h : compileAt registry policies revision groups = .ok s)
    (hctx : ∀ checkpoint, ctx.interrupted checkpoint = none) {key policy : String}
    {ttl : UInt64} :
  (evaluate s t ctx).map Decision.verdict = .ok (.granted key policy ttl)
    ↔ ¬ t.expiry ≤ ctx.now ∧ ∃ b, (∀ c, s.Matches t c ↔ c = b)
      ∧ Verdict.granted b.key b.policy (b.leastTtl ctx.requestedTtl) = .granted key policy ttl
  := by
  constructor
  · exact matches_of_granted h
  · rintro ⟨hexpiry, b, hmatches, hverdict⟩
    have hb := (hmatches b).mpr rfl
    obtain ⟨i, hi, -⟩ := hb.agrees
    -- the bindings that are left are without repetition, and `b` is the only one
    have hleft : (s.candidates t).filter
        (fun b => b.subject = t.subject ∧ b.Agrees i.claimSchema t) = [b] := by
      apply List.perm_singleton.mp
      apply (List.perm_ext_iff_of_nodup ((nodup_candidates h t).filter _)
        (List.nodup_singleton b)).mpr
      intro c
      rw [mem_filter_iff_matches h hi, hmatches, List.mem_singleton]
    rw [evaluate_eq_settle hctx hexpiry hi (candidates_ne_nil h hb), Except.map,
      verdict_settle fun b hb => declared_of_mem_candidates h hi hb, hleft, ← hverdict]

/-- A token is ambiguous exactly when it is not expired and matches several bindings. -/
theorem ambiguous_iff (h : compileAt registry policies revision groups = .ok s)
    (hctx : ∀ checkpoint, ctx.interrupted checkpoint = none) :
  (evaluate s t ctx).map Decision.verdict = .ok (.denied .ambiguous)
    ↔ ¬ t.expiry ≤ ctx.now ∧ ∃ b b', s.Matches t b ∧ s.Matches t b' ∧ b ≠ b'
  := by
  constructor
  · intro hambiguous
    obtain ⟨d, he, hd⟩ := map_eq_ok_iff.mp hambiguous
    refine ⟨?_, exists_matches_of_ambiguous h he hd⟩
    rcases evaluate_cases he with ⟨-, rfl⟩ | ⟨hexpiry, -⟩ | ⟨hexpiry, -⟩ | ⟨hexpiry, -⟩
    · cases hd
    · apply hexpiry
    · apply hexpiry
    · apply hexpiry
  · rintro ⟨hexpiry, b, b', hb, hb', hne⟩
    obtain ⟨i, hi, -⟩ := hb.agrees
    have hmem := (mem_filter_iff_matches h hi b).mpr hb
    have hmem' := (mem_filter_iff_matches h hi b').mpr hb'
    rw [evaluate_eq_settle hctx hexpiry hi (candidates_ne_nil h hb), Except.map,
      verdict_settle fun b hb => declared_of_mem_candidates h hi hb]
    split
    · rename_i c heq
      rw [heq, List.mem_singleton] at hmem hmem'
      exact absurd (hmem.trans hmem'.symm) hne
    · rfl
    · rename_i heq
      rw [heq] at hmem
      cases hmem

end Federation
