import Federation.Proofs.Evaluate.Ambiguity

/-!
# Issuers apart from each other

An evaluation looks at nothing of a set but its revision, the issuer that the token names
and the candidates among its bindings (`evaluate_congr`).  The bindings of an issuer come
from the groups that refer to it (`records_filter_eq`), so what other groups declare, and for
whatever subjects, audiences and claims, has no part in what becomes of its tokens.  Main
statement: `evaluate_isolated`.
-/

namespace Federation

/-- What is read of a set decides what an evaluation against it comes to. -/
theorem evaluate_congr {s s' : BindingSet} {t : IdentityToken}
    (hrevision : s.revision = s'.revision) (hissuer : s.issuer? t.issuer = s'.issuer? t.issuer)
    (hcandidates : s.candidates t = s'.candidates t) (ctx : EvalContext) :
  evaluate s t ctx = evaluate s' t ctx
  := by
  simp only [evaluate, settle, hrevision, hissuer, hcandidates]

/-! ### The groups of an issuer -/

/-- Whether a group refers to an issuer with a URL, by its identifier or by the URL. -/
def BindingGroup.RefersTo (registry : Registry) (url : String) (g : BindingGroup) : Prop :=
  ∃ i ∈ registry.resolve? g.issuer, i.issuerUrl = url

instance (registry : Registry) (url : String) : DecidablePred (BindingGroup.RefersTo registry url) :=
  fun g => inferInstanceAs (Decidable (∃ i ∈ registry.resolve? g.issuer, i.issuerUrl = url))

section

variable {registry : Registry} {policies : PolicyStore} {revision : UInt64}
  {groups groups' : List BindingGroup} {s s' : BindingSet}

/-- A group declares bindings for the issuer it refers to. -/
theorem refersTo_iff_of_mem_declarations {g : BindingGroup} {b : Binding}
    (hb : b ∈ g.declarations registry) (url : String) :
  g.RefersTo registry url ↔ b.issuer = url
  := by
  obtain ⟨i, hi, environment, -, operation, -, rfl⟩ := BindingGroup.mem_declarations_iff.mp hb
  simp [BindingGroup.RefersTo, hi, BindingGroup.declared]

/-- The declared bindings of an issuer are those that the groups declare that refer to it. -/
theorem filter_declarations (registry : Registry) (url : String) (groups : List BindingGroup) :
  (declarations registry groups).filter (fun b => b.issuer = url)
    = declarations registry (groups.filter fun g => g.RefersTo registry url)
  := by
  induction groups with
  | nil => rfl
  | cons g groups ih =>
    have hissuer : ∀ b ∈ g.declarations registry, b.issuer = url ↔ g.RefersTo registry url :=
      fun b hb => (refersTo_iff_of_mem_declarations hb url).symm
    rw [declarations_cons, List.filter_append, ih]
    by_cases hg : g.RefersTo registry url
    · rw [List.filter_cons_of_pos (by simpa using hg), declarations_cons,
        List.filter_eq_self.mpr]
      intro b hb
      apply decide_eq_true ((hissuer b hb).mpr hg)
    · rw [List.filter_cons_of_neg (by simpa using hg), List.filter_eq_nil_iff.mpr,
        List.nil_append]
      intro b hb hurl
      apply hg ((hissuer b hb).mp (of_decide_eq_true hurl))

/-- Two sets have the same bindings of an issuer when they were compiled from the same groups
that refer to it. -/
theorem records_filter_eq (h : compileAt registry policies revision groups = .ok s)
    (h' : compileAt registry policies revision groups' = .ok s') {url : String}
    (hgroups : (groups.filter fun g => g.RefersTo registry url).Perm
      (groups'.filter fun g => g.RefersTo registry url)) :
  s.records.filter (fun b => b.issuer = url) = s'.records.filter (fun b => b.issuer = url)
  := by
  apply eq_of_perm_of_ascending ((pairwise_key_lt_of_compileAt h).filter _)
    ((pairwise_key_lt_of_compileAt h').filter _)
  apply ((records_perm_of_compileAt h).filter _).trans
  rw [filter_declarations]
  apply (hgroups.flatMap_right _).trans
  rw [← declarations, ← filter_declarations]
  apply ((records_perm_of_compileAt h').filter _).symm

/-- Two sets know the same issuer under a URL when they were compiled from the same groups
that refer to it. -/
theorem issuer?_eq (h : compileAt registry policies revision groups = .ok s)
    (h' : compileAt registry policies revision groups' = .ok s') {url : String}
    (hgroups : (groups.filter fun g => g.RefersTo registry url).Perm
      (groups'.filter fun g => g.RefersTo registry url)) :
  s.issuer? url = s'.issuer? url
  := by
  have hmem : ∀ {g : BindingGroup}, g.RefersTo registry url → (g ∈ groups ↔ g ∈ groups') := by
    intro g hg
    have hfilter := hgroups.mem_iff (a := g)
    simpa [hg] using hfilter
  apply Option.ext
  intro i
  rw [issuer?_eq_some_iff h, issuer?_eq_some_iff h']
  apply and_congr_right
  intro hurl
  constructor
  · rintro ⟨g, hg, hi⟩
    exact ⟨g, (hmem ⟨i, hi, hurl⟩).mp hg, hi⟩
  · rintro ⟨g, hg, hi⟩
    exact ⟨g, (hmem ⟨i, hi, hurl⟩).mpr hg, hi⟩

/-- What becomes of the tokens of an issuer depends on the groups that refer to it alone: two
sets of one revision that were compiled from the same of these, in whatever order, come to
one decision on a token, with the same verdict, claims and attributes. -/
theorem evaluate_isolated (h : compileAt registry policies revision groups = .ok s)
    (h' : compileAt registry policies revision groups' = .ok s') (t : IdentityToken)
    (hgroups : (groups.filter fun g => g.RefersTo registry t.issuer).Perm
      (groups'.filter fun g => g.RefersTo registry t.issuer))
    {ctx : EvalContext} (hctx : ∀ checkpoint, ctx.interrupted checkpoint = none) :
  ∃ d, evaluate s t ctx = .ok d ∧ evaluate s' t ctx = .ok d
  := by
  have hcandidates : s.candidates t = s'.candidates t := by
    rw [candidates_of_compileAt h, candidates_of_compileAt h', records_filter_eq h h' hgroups]
  have hrevision : s.revision = s'.revision :=
    (revision_of_compileAt h).trans (revision_of_compileAt h').symm
  obtain ⟨d, hd⟩ := exists_decision s t hctx
  refine ⟨d, hd, ?_⟩
  rw [← evaluate_congr hrevision (issuer?_eq h h' hgroups) hcandidates]
  apply hd

end

namespace Sample

/-- An issuer with the audiences and claims of `issuer`. -/
def otherIssuer : Issuer := { issuer with id := "sts", issuerUrl := "https://sts.example" }

/-- Bindings of the other issuer for the subjects and claims of `group`. -/
def otherGroup : BindingGroup := { group with issuer := "sts", keyPrefix := some "sts" }

def sharedRegistry : Registry := registry.replace otherIssuer

/-- The set of the bindings of one issuer. -/
def aloneSet : BindingSet := (compileAt sharedRegistry policies 1 [group]).toOption.getD .empty

/-- The set of the bindings of both issuers. -/
def sharedSet : BindingSet :=
  (compileAt sharedRegistry policies 1 [otherGroup, group]).toOption.getD .empty

theorem compileAt_eq_aloneSet :
  compileAt sharedRegistry policies 1 [group] = .ok aloneSet
  := by
  have hok : (compileAt sharedRegistry policies 1 [group]).isOk = true := by decide +kernel
  apply eq_ok_getD_of_isOk hok

theorem compileAt_eq_sharedSet :
  compileAt sharedRegistry policies 1 [otherGroup, group] = .ok sharedSet
  := by
  have hok : (compileAt sharedRegistry policies 1 [otherGroup, group]).isOk = true := by
    decide +kernel
  apply eq_ok_getD_of_isOk hok

end Sample

theorem evaluate_isolated_sample :
  compileAt Sample.sharedRegistry Sample.policies 1 [Sample.group] = .ok Sample.aloneSet
    ∧ compileAt Sample.sharedRegistry Sample.policies 1 [Sample.otherGroup, Sample.group]
      = .ok Sample.sharedSet
    ∧ ([Sample.group].filter fun g => g.RefersTo Sample.sharedRegistry Sample.token.issuer).Perm
      ([Sample.otherGroup, Sample.group].filter fun g =>
        g.RefersTo Sample.sharedRegistry Sample.token.issuer)
    ∧ ∃ d, evaluate Sample.aloneSet Sample.token ⟨.epoch, none, fun _ => none⟩ = .ok d
      ∧ evaluate Sample.sharedSet Sample.token ⟨.epoch, none, fun _ => none⟩ = .ok d
  := by
  have hgroups : ([Sample.group].filter fun g =>
        g.RefersTo Sample.sharedRegistry Sample.token.issuer).Perm
      ([Sample.otherGroup, Sample.group].filter fun g =>
        g.RefersTo Sample.sharedRegistry Sample.token.issuer) := by
    decide +kernel
  refine ⟨Sample.compileAt_eq_aloneSet, Sample.compileAt_eq_sharedSet, hgroups, ?_⟩
  apply evaluate_isolated Sample.compileAt_eq_aloneSet Sample.compileAt_eq_sharedSet Sample.token
    hgroups fun _ => rfl

end Federation
