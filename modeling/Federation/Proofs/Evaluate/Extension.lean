import Federation.Proofs.Evaluate.Outcome

/-!
# Adding bindings

A set extends another one when it has all of its bindings and knows all of its issuers, as
it does when it was compiled from more groups (`extends_of_compileAt`).  Between the
bindings that both sets have, a token matches the same ones in both (`Extends.matches_iff`),
and all that is new is bindings it may match beside them.  So a grant is never redirected:
it stays what it is, or the token becomes ambiguous.  Main statement:
`verdict_of_more_groups`.
-/

namespace Federation

/-- Whether a set `s'` has all bindings of a set `s` and knows all its issuers. -/
structure BindingSet.Extends (s' s : BindingSet) : Prop where
  records : ∀ b ∈ s.records, b ∈ s'.records
  issuers : ∀ {url : String} {i : Issuer}, s.issuer? url = some i → s'.issuer? url = some i

section

variable {registry : Registry} {policies : PolicyStore} {revision revision' : UInt64}
  {groups groups' more : List BindingGroup} {s s' : BindingSet} {t : IdentityToken}

/-- What is compiled from more groups, in any order, extends what is compiled from some. -/
theorem extends_of_compileAt (h : compileAt registry policies revision groups = .ok s)
    (h' : compileAt registry policies revision' groups' = .ok s')
    (hgroups : groups'.Perm (groups ++ more)) :
  s'.Extends s
  := by
  constructor
  · intro b hb
    have hdeclared := (records_perm_of_compileAt h).mem_iff.mp hb
    apply (records_perm_of_compileAt h').mem_iff.mpr
    apply (hgroups.flatMap_right _).mem_iff.mpr
    rw [List.flatMap_append]
    apply List.mem_append_left _ hdeclared
  · intro url i hi
    obtain ⟨hurl, g, hg, hresolves⟩ := (issuer?_eq_some_iff h).mp hi
    apply (issuer?_eq_some_iff h').mpr
    exact ⟨hurl, g, hgroups.mem_iff.mpr (List.mem_append_left _ hg), hresolves⟩

theorem BindingSet.Extends.matches (h : s'.Extends s) {b : Binding} (hb : s.Matches t b) :
  s'.Matches t b
  := by
  obtain ⟨i, hi, hagrees⟩ := hb.agrees
  constructor
  · apply h.records b hb.mem_records
  · apply hb.issuer_eq
  · apply hb.shares_audience
  · apply hb.subject_eq
  · exact ⟨i, h.issuers hi, hagrees⟩

/-- A binding that was there before is matched as before. -/
theorem BindingSet.Extends.matches_iff (h : s'.Extends s)
    (hs : compileAt registry policies revision groups = .ok s) {b : Binding}
    (hb : b ∈ s.records) :
  s.Matches t b ↔ s'.Matches t b
  := by
  constructor
  · apply h.matches
  · intro hb'
    obtain ⟨i, hi⟩ := (issuer?_isSome_iff hs).mpr ⟨b, hb, hb'.issuer_eq⟩
    obtain ⟨j, hj, hagrees⟩ := hb'.agrees
    rw [h.issuers hi] at hj
    cases hj
    exact ⟨hb, hb'.issuer_eq, hb'.shares_audience, hb'.subject_eq, i, hi, hagrees⟩

/-- More groups never redirect a grant: a token that was granted a binding is granted the
same or becomes ambiguous, an ambiguous token stays ambiguous, and a token that is granted
a binding that was there before was granted the same. -/
theorem verdict_of_more_groups (h : compileAt registry policies revision groups = .ok s)
    (h' : compileAt registry policies revision' groups' = .ok s')
    (hgroups : groups'.Perm (groups ++ more)) (t : IdentityToken) {ctx : EvalContext}
    (hctx : ∀ checkpoint, ctx.interrupted checkpoint = none) :
  (∀ key policy ttl, (evaluate s t ctx).map Decision.verdict = .ok (.granted key policy ttl) →
      (evaluate s' t ctx).map Decision.verdict = .ok (.granted key policy ttl)
        ∨ (evaluate s' t ctx).map Decision.verdict = .ok (.denied .ambiguous))
    ∧ ((evaluate s t ctx).map Decision.verdict = .ok (.denied .ambiguous) →
      (evaluate s' t ctx).map Decision.verdict = .ok (.denied .ambiguous))
    ∧ ∀ key policy ttl, s.contains key = true →
      (evaluate s' t ctx).map Decision.verdict = .ok (.granted key policy ttl) →
      (evaluate s t ctx).map Decision.verdict = .ok (.granted key policy ttl)
  := by
  have hext := extends_of_compileAt h h' hgroups
  refine ⟨?_, ?_, ?_⟩
  · intro key policy ttl hgranted
    obtain ⟨hexpiry, b, hb, hverdict⟩ := (granted_iff h hctx).mp hgranted
    have hb' := hext.matches ((hb b).mpr rfl)
    by_cases hone : ∀ c, s'.Matches t c → c = b
    · left
      apply (granted_iff h' hctx).mpr
      refine ⟨hexpiry, b, ?_, hverdict⟩
      intro c
      constructor
      · apply hone
      · rintro rfl
        apply hb'
    · right
      simp only [not_forall, exists_prop] at hone
      obtain ⟨c, hc, hne⟩ := hone
      exact (ambiguous_iff h' hctx).mpr ⟨hexpiry, c, b, hc, hb', hne⟩
  · intro hambiguous
    obtain ⟨hexpiry, b, c, hb, hc, hne⟩ := (ambiguous_iff h hctx).mp hambiguous
    exact (ambiguous_iff h' hctx).mpr ⟨hexpiry, b, c, hext.matches hb, hext.matches hc, hne⟩
  · intro key policy ttl hkey hgranted
    obtain ⟨hexpiry, b', hb', hverdict⟩ := (granted_iff h' hctx).mp hgranted
    obtain ⟨b, hb, hbkey⟩ := (contains_iff_of_compileAt h key).mp hkey
    -- the binding that is granted is the one that was there before, by its key
    have hsame : b = b' := by
      apply List.inj_on_of_nodup_map (distinct_of_compileAt h').1 (hext.records b hb)
        ((hb' b').mpr rfl).mem_records
      cases hverdict
      apply hbkey
    subst hsame
    apply (granted_iff h hctx).mpr
    refine ⟨hexpiry, b, ?_, hverdict⟩
    intro c
    constructor
    · intro hc
      apply (hb' c).mp (hext.matches hc)
    · rintro rfl
      apply (hext.matches_iff h hb).mpr ((hb' c).mpr rfl)

end

namespace Sample

/-- The set of the bindings that bind no claims. -/
def laxOnlySet : BindingSet := (compileAt registry policies 1 [laxGroup]).toOption.getD .empty

theorem compileAt_eq_laxOnlySet :
  compileAt registry policies 1 [laxGroup] = .ok laxOnlySet
  := by
  have hok : (compileAt registry policies 1 [laxGroup]).isOk = true := by decide +kernel
  apply eq_ok_getD_of_isOk hok

end Sample

theorem verdict_of_more_groups_sample :
  compileAt Sample.registry Sample.policies 1 [Sample.laxGroup] = .ok Sample.laxOnlySet
    ∧ compileAt Sample.registry Sample.policies 1 [Sample.group, Sample.laxGroup]
      = .ok Sample.laxSet
    ∧ [Sample.group, Sample.laxGroup].Perm ([Sample.laxGroup] ++ [Sample.group])
    ∧ (evaluate Sample.laxOnlySet Sample.token ⟨.epoch, none, fun _ => none⟩).map
        Decision.verdict = .ok (.granted "lax-apply-dev" "deploy" 900)
    ∧ ((evaluate Sample.laxSet Sample.token ⟨.epoch, none, fun _ => none⟩).map
          Decision.verdict = .ok (.granted "lax-apply-dev" "deploy" 900)
        ∨ (evaluate Sample.laxSet Sample.token ⟨.epoch, none, fun _ => none⟩).map
          Decision.verdict = .ok (.denied .ambiguous))
  := by
  have hgroups : [Sample.group, Sample.laxGroup].Perm ([Sample.laxGroup] ++ [Sample.group]) :=
    .swap _ _ _
  have hgranted : (evaluate Sample.laxOnlySet Sample.token ⟨.epoch, none, fun _ => none⟩).map
      Decision.verdict = .ok (.granted "lax-apply-dev" "deploy" 900) := by
    decide +kernel
  refine ⟨Sample.compileAt_eq_laxOnlySet, Sample.compileAt_eq_laxSet, hgroups, hgranted, ?_⟩
  apply (verdict_of_more_groups Sample.compileAt_eq_laxOnlySet Sample.compileAt_eq_laxSet hgroups
    Sample.token fun _ => rfl).1 _ _ _ hgranted

end Federation
