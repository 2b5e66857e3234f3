import Federation.Proofs.Issuer.Listing
import Mathlib.Data.List.Induction

/-!
# What a registration changes

The calls that a registry was given say which issuers were registered in the current cycle
(`RegisteredInCycle`): those that were accepted after the last call that began a cycle.  The
names of the cycle, which a registration is checked against, are the identifiers and the
URLs of these issuers, and none of them has left the registry since (`Tracks`).

Main statement: an issuer is accepted exactly when it is valid and shares neither its
identifier nor its URL with an issuer of the cycle; it then takes the place of the issuers
that have one of them, all of which are of earlier cycles (`register_performAll`).
-/

namespace Federation.Registry

variable {calls : List Call} {r : Registry}

theorem performAll_append (calls later : List Call) :
  r.performAll (calls ++ later) = (r.performAll calls).performAll later
  := List.foldl_append

/-- A registration that is refused changes nothing. -/
theorem perform_register_of_error {i : Issuer} {e : IssuerError} (h : r.register i = .error e) :
  r.perform (.register i) = r
  := by
  rw [perform, h]
  rfl

theorem perform_register_of_ok {i : Issuer} {next : Registry} (h : r.register i = .ok next) :
  r.perform (.register i) = next
  := by
  rw [perform, h]
  rfl

/-! ### Issuers of the cycle -/

/-- Whether an issuer was registered by one of some calls to an empty registry, and no cycle
was begun after that. -/
def RegisteredInCycle (calls : List Call) (i : Issuer) : Prop :=
  ∃ before after, calls = before ++ .register i :: after ∧ Call.beginCycle ∉ after
    ∧ ∃ next, (empty.performAll before).register i = .ok next

/-- The issuers of the cycle after one more call: those before it, unless it begins a cycle,
and the one it registers. -/
theorem registeredInCycle_append_iff {call : Call} {j : Issuer} :
  RegisteredInCycle (calls ++ [call]) j
    ↔ (call ≠ .beginCycle ∧ RegisteredInCycle calls j)
      ∨ (call = .register j ∧ ∃ next, (empty.performAll calls).register j = .ok next)
  := by
  constructor
  · rintro ⟨before, after, heq, hcycle, hnext⟩
    rcases List.eq_nil_or_concat after with rfl | ⟨init, last, rfl⟩
    · obtain ⟨rfl, hcall⟩ := List.append_inj' heq rfl
      cases hcall
      exact .inr ⟨rfl, hnext⟩
    · rw [List.concat_eq_append, ← List.cons_append, ← List.append_assoc] at heq
      obtain ⟨rfl, hcall⟩ := List.append_inj' heq rfl
      cases hcall
      rw [List.concat_eq_append, List.mem_append, List.mem_singleton, not_or] at hcycle
      exact .inl ⟨Ne.symm hcycle.2, before, init, rfl, hcycle.1, hnext⟩
  · rintro (⟨hcall, before, after, rfl, hcycle, hnext⟩ | ⟨rfl, hnext⟩)
    · refine ⟨before, after ++ [call], ?_, ?_, hnext⟩
      · rw [List.append_assoc, List.cons_append]
      · rw [List.mem_append, List.mem_singleton, not_or]
        exact ⟨hcycle, Ne.symm hcall⟩
    · refine ⟨calls, [], rfl, ?_, hnext⟩
      apply List.not_mem_nil

/-! ### Issuers that stay -/

/-- The issuers after one is put in its place: it, and those before that have neither its
identifier nor its URL. -/
theorem mem_issuers_replace {i j : Issuer} :
  j ∈ (r.replace i).issuers
    ↔ j = i ∨ (j ∈ r.issuers ∧ j.id ≠ i.id ∧ j.issuerUrl ≠ i.issuerUrl)
  := by
  have hmem : ∀ q : Registry, j ∈ q.issuers ↔ q.get? j.id = some j := by
    intro q
    rw [get?_eq_some_iff]
    simp
  rw [hmem, hmem, get?_replace]
  by_cases hid : j.id = i.id
  · simp [hid, eq_comm]
  · have hne : j ≠ i := by
      rintro rfl
      exact hid rfl
    have howner : r.get? j.id = some j →
        (r.byUrl.get? i.issuerUrl = some j.id ↔ j.issuerUrl = i.issuerUrl) := by
      intro hj
      constructor
      · intro hleads
        obtain ⟨k, hk, hurl⟩ := r.consistent.leads_to hleads
        rw [get?, hk] at hj
        cases hj
        exact hurl
      · intro hurl
        rw [← hurl]
        apply r.consistent.url_leads hj
    rw [if_neg hid]
    split
    · rename_i hleads
      simp only [hne, false_or, reduceCtorEq, false_iff, not_and, not_not]
      intro hj _
      exact (howner hj).mp hleads
    · rename_i hleads
      simp only [hne, hid, ne_eq, not_false_eq_true, true_and, false_or]
      constructor
      · intro hj
        exact ⟨hj, fun hurl => hleads ((howner hj).mpr hurl)⟩
      · exact fun hj => hj.1

/-- The list of the issuers after one is put in its place. -/
theorem issuers_replace_perm (r : Registry) (i : Issuer) :
  (r.replace i).issuers.Perm
    (i :: r.issuers.filter fun j => j.id ≠ i.id ∧ j.issuerUrl ≠ i.issuerUrl)
  := by
  have hnodup : ∀ q : Registry, q.issuers.Nodup := by
    intro q
    apply q.pairwise_differ.imp
    rintro a _ ⟨hid, -⟩ rfl
    exact hid rfl
  apply (List.perm_ext_iff_of_nodup (hnodup _) _).mpr
  · intro j
    rw [mem_issuers_replace, List.mem_cons, List.mem_filter, decide_eq_true_eq]
  · apply List.nodup_cons.mpr
    refine ⟨?_, (hnodup r).filter _⟩
    intro hi
    apply (of_decide_eq_true (List.mem_filter.mp hi).2).1 rfl

/-- What a registry keeps track of: the names of the cycle are those of its issuers, and
these are still there. -/
structure Tracks (calls : List Call) (r : Registry) : Prop where
  ids : ∀ id, id ∈ r.cycleIds.elements ↔ ∃ j, RegisteredInCycle calls j ∧ j.id = id
  urls : ∀ url, url ∈ r.cycleUrls.elements ↔ ∃ j, RegisteredInCycle calls j ∧ j.issuerUrl = url
  stays : ∀ j, RegisteredInCycle calls j → j ∈ r.issuers

/-- A registration succeeds exactly when the issuer is valid and shares no name with an
issuer of the cycle. -/
theorem Tracks.exists_register_iff (h : Tracks calls r) (i : Issuer) :
  (∃ next, r.register i = .ok next)
    ↔ i.validate = .ok ()
      ∧ ¬ ∃ j, RegisteredInCycle calls j ∧ (j.id = i.id ∨ j.issuerUrl = i.issuerUrl)
  := by
  have hnames : (¬ ∃ j, RegisteredInCycle calls j ∧ (j.id = i.id ∨ j.issuerUrl = i.issuerUrl))
      ↔ i.id ∉ r.cycleIds.elements ∧ i.issuerUrl ∉ r.cycleUrls.elements := by
    rw [h.ids, h.urls, ← not_or, ← exists_or]
    simp only [and_or_left]
  simp only [register_eq_ok_iff, hnames, exists_and_left, exists_eq', and_true]

/-- When no issuer is of the cycle, there are no names to keep track of. -/
theorem tracks_of_none (hnone : ∀ j, ¬ RegisteredInCycle calls j) (hids : r.cycleIds = {})
    (hurls : r.cycleUrls = {}) :
  Tracks calls r
  := by
  constructor
  · intro id
    rw [hids]
    constructor
    · rintro ⟨⟩
    · rintro ⟨j, hj, -⟩
      exact absurd hj (hnone j)
  · intro url
    rw [hurls]
    constructor
    · rintro ⟨⟩
    · rintro ⟨j, hj, -⟩
      exact absurd hj (hnone j)
  · intro j hj
    exact absurd hj (hnone j)

theorem tracks_empty :
  Tracks [] empty
  := by
  apply tracks_of_none _ rfl rfl
  rintro j ⟨before, after, heq, -⟩
  simp at heq

/-- No issuer is of a cycle that has just begun. -/
theorem tracks_beginCycle (calls : List Call) (r : Registry) :
  Tracks (calls ++ [.beginCycle]) r.beginCycle
  := by
  apply tracks_of_none _ rfl rfl
  simp [registeredInCycle_append_iff]

/-- A registration that succeeds adds its issuer to the cycle, and the issuers that leave
are of no name in the cycle. -/
theorem Tracks.register {i : Issuer} {next : Registry}
    (h : Tracks calls (empty.performAll calls))
    (hi : (empty.performAll calls).register i = .ok next) :
  Tracks (calls ++ [.register i]) next
  := by
  have hcycle : ∀ j, RegisteredInCycle (calls ++ [.register i]) j
      ↔ j = i ∨ RegisteredInCycle calls j := by
    intro j
    rw [registeredInCycle_append_iff]
    constructor
    · rintro (⟨-, hj⟩ | ⟨heq, -⟩)
      · exact .inr hj
      · cases heq
        exact .inl rfl
    · rintro (rfl | hj)
      · exact .inr ⟨rfl, next, hi⟩
      · refine .inl ⟨?_, hj⟩
        rintro ⟨⟩
  have hnames : ∀ (f : Issuer → String) (name : String),
      (∃ j, RegisteredInCycle (calls ++ [.register i]) j ∧ f j = name)
        ↔ name = f i ∨ ∃ j, RegisteredInCycle calls j ∧ f j = name := by
    intro f name
    simp only [hcycle, or_and_right, exists_or, exists_eq_left]
    rw [eq_comm]
  have hnew := ((h.exists_register_iff i).mp ⟨next, hi⟩).2
  obtain ⟨-, -, -, rfl⟩ := register_eq_ok_iff.mp hi
  constructor
  · intro id
    rw [replace, StringSet.mem_insert, h.ids, hnames]
  · intro url
    rw [replace, StringSet.mem_insert, h.urls, hnames]
  · intro j hj
    apply mem_issuers_replace.mpr
    rcases (hcycle j).mp hj with rfl | hj
    · exact .inl rfl
    · refine .inr ⟨h.stays j hj, ?_, ?_⟩
      · intro hid
        exact hnew ⟨j, hj, .inl hid⟩
      · intro hurl
        exact hnew ⟨j, hj, .inr hurl⟩

/-- A registration that is refused adds no issuer to the cycle. -/
theorem Tracks.refuse {i : Issuer} {e : IssuerError}
    (h : Tracks calls (empty.performAll calls))
    (hi : (empty.performAll calls).register i = .error e) :
  Tracks (calls ++ [.register i]) (empty.performAll calls)
  := by
  have hcycle : ∀ j, RegisteredInCycle (calls ++ [.register i]) j
      ↔ RegisteredInCycle calls j := by
    intro j
    rw [registeredInCycle_append_iff]
    constructor
    · rintro (⟨-, hj⟩ | ⟨heq, next, hnext⟩)
      · exact hj
      · cases heq
        rw [hi] at hnext
        cases hnext
    · intro hj
      refine .inl ⟨?_, hj⟩
      rintro ⟨⟩
  constructor
  · simpa only [hcycle] using h.ids
  · simpa only [hcycle] using h.urls
  · simpa only [hcycle] using h.stays

theorem tracks_performAll (calls : List Call) :
  Tracks calls (empty.performAll calls)
  := by
  -- calls are read from the last one back, as `RegisteredInCycle` looks back at them
  induction calls using List.reverseRecOn with
  | nil => apply tracks_empty
  | append_singleton calls call ih =>
    rw [performAll_append]
    cases call with
    | beginCycle => apply tracks_beginCycle
    | register i =>
      cases hi : (empty.performAll calls).register i with
      | error e =>
        rw [performAll, List.foldl_cons, List.foldl_nil, perform_register_of_error hi]
        apply ih.refuse hi
      | ok next =>
        rw [performAll, List.foldl_cons, List.foldl_nil, perform_register_of_ok hi]
        apply ih.register hi

/-- Whatever a registry was asked, an issuer is registered exactly when it is valid and
shares neither its identifier nor its URL with an issuer of the cycle.  It then takes the
place of the issuers that share one of them with it, and all others stay; a registration
that is refused makes no difference to any later call.  So each issuer of the cycle is found
as it was registered, by its identifier and by its URL. -/
theorem register_performAll (calls : List Call) (i : Issuer) :
  ((∃ next, (empty.performAll calls).register i = .ok next)
      ↔ i.validate = .ok ()
        ∧ ¬ ∃ j, RegisteredInCycle calls j ∧ (j.id = i.id ∨ j.issuerUrl = i.issuerUrl))
    ∧ (∀ next, (empty.performAll calls).register i = .ok next →
      empty.performAll (calls ++ [.register i]) = next
        ∧ next.issuers.Perm (i :: (empty.performAll calls).issuers.filter
          fun j => j.id ≠ i.id ∧ j.issuerUrl ≠ i.issuerUrl))
    ∧ (∀ e, (empty.performAll calls).register i = .error e →
      ∀ later, empty.performAll (calls ++ .register i :: later)
        = empty.performAll (calls ++ later))
    ∧ ∀ j, RegisteredInCycle calls j →
      (empty.performAll calls).get? j.id = some j
        ∧ (empty.performAll calls).lookup? j.issuerUrl = some j
  := by
  have htracks := tracks_performAll calls
  refine ⟨htracks.exists_register_iff i, ?_, ?_, ?_⟩
  · intro next hi
    constructor
    · rw [performAll_append]
      apply perform_register_of_ok hi
    · obtain ⟨-, -, -, rfl⟩ := register_eq_ok_iff.mp hi
      apply issuers_replace_perm
  · intro e hi later
    rw [performAll_append, performAll_append, performAll, List.foldl_cons,
      perform_register_of_error hi, ← performAll]
  · intro j hj
    have hmem := htracks.stays j hj
    exact ⟨(get?_eq_some_iff _ _ _).mpr ⟨hmem, rfl⟩, (lookup?_eq_some_iff _ _ _).mpr ⟨hmem, rfl⟩⟩

end Federation.Registry
