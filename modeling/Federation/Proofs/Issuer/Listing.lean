import Federation.Proofs.Issuer.Registered

/-!
# Looking issuers up

A registry is asked to begin a cycle or to register an issuer, any number of times and in
any order (`performAll`); a registration that is refused changes nothing.  Whatever it was
asked, its two indexes are read off the list of its issuers: they differ in their
identifiers and in their URLs, an identifier leads to the issuer that has it, and so does
a URL.  Main statement: `lookups_performAll`.
-/

namespace Federation.Registry

/-! ### Calls -/

/-- What a registry can be asked to do. -/
inductive Call where
  /-- To begin the next cycle. -/
  | beginCycle
  /-- To register an issuer. -/
  | register (i : Issuer)

/-- The registry after a call: it is as it was before a registration that is refused. -/
def perform (r : Registry) : Call → Registry
  | .beginCycle => r.beginCycle
  | .register i => (r.register i).toOption.getD r

/-- The registry after calls, one after another. -/
def performAll (r : Registry) (calls : List Call) : Registry := calls.foldl perform r

theorem Reachable.perform {r : Registry} (h : Reachable r) (call : Call) :
  Reachable (r.perform call)
  := by
  cases call with
  | beginCycle => apply h.beginCycle
  | register i =>
    rw [Registry.perform]
    cases hi : r.register i with
    | error e => apply h
    | ok next => apply h.register hi

theorem Reachable.performAll {r : Registry} (h : Reachable r) (calls : List Call) :
  Reachable (r.performAll calls)
  := by
  induction calls generalizing r with
  | nil => apply h
  | cons call calls ih => apply ih (h.perform call)

/-! ### Lookups -/

/-- An identifier leads to the listed issuer that has it. -/
theorem get?_eq_some_iff (r : Registry) (id : String) (i : Issuer) :
  r.get? id = some i ↔ i ∈ r.issuers ∧ i.id = id
  := by
  rw [issuers, StringMap.mem_values_iff]
  constructor
  · intro h
    exact ⟨⟨id, h⟩, r.consistent.id_eq h⟩
  · rintro ⟨⟨id', h⟩, rfl⟩
    rw [r.consistent.id_eq h]
    apply h

/-- A URL leads to the listed issuer that has it. -/
theorem lookup?_eq_some_iff (r : Registry) (url : String) (i : Issuer) :
  r.lookup? url = some i ↔ i ∈ r.issuers ∧ i.issuerUrl = url
  := by
  rw [lookup?, Option.bind_eq_some_iff]
  constructor
  · rintro ⟨id, hurl, hget⟩
    obtain ⟨j, hj, hjurl⟩ := r.consistent.leads_to hurl
    have hij : some i = some j := hget.symm.trans hj
    cases hij
    exact ⟨((r.get?_eq_some_iff id i).mp hget).1, hjurl⟩
  · rintro ⟨hmem, rfl⟩
    have hget := (r.get?_eq_some_iff i.id i).mpr ⟨hmem, rfl⟩
    exact ⟨i.id, r.consistent.url_leads hget, hget⟩

/-- The issuers are listed in ascending order of their identifiers. -/
theorem pairwise_id_lt (r : Registry) :
  r.issuers.Pairwise fun i j => i.id < j.id
  := by
  have hid : ∀ e ∈ r.byId.entries, e.2.id = e.1 :=
    fun e he => r.consistent.id_eq ((r.byId.get?_eq_some_iff e.1 e.2).mpr he)
  apply List.pairwise_map.mpr
  apply r.byId.ascending.imp_of_mem
  intro a b ha hb hlt
  rw [hid a ha, hid b hb]
  apply hlt

/-- Listed issuers differ in their identifiers and in their URLs. -/
theorem pairwise_differ (r : Registry) :
  r.issuers.Pairwise fun i j => i.id ≠ j.id ∧ i.issuerUrl ≠ j.issuerUrl
  := by
  have hget : ∀ i ∈ r.issuers, r.get? i.id = some i :=
    fun i hi => (r.get?_eq_some_iff i.id i).mpr ⟨hi, rfl⟩
  apply r.pairwise_id_lt.imp_of_mem
  intro i j hi hj hlt
  have hid : i.id ≠ j.id := by
    intro heq
    rw [heq] at hlt
    apply String.lt_irrefl _ hlt
  constructor
  · apply hid
  · intro hurl
    apply hid
    rw [eq_of_issuerUrl_eq (hget i hi) (hget j hj) hurl]

/-- Whatever a registry was asked, its listed issuers pass every check and differ in their
identifiers and in their URLs, as many as it counts; an identifier and a URL lead exactly
to the listed issuer that has them, and a reference is taken for an identifier first and
for a URL if no issuer has it as that. -/
theorem lookups_performAll (calls : List Call) :
  (empty.performAll calls).issuers.Pairwise
      (fun i j => i.id ≠ j.id ∧ i.issuerUrl ≠ j.issuerUrl)
    ∧ (∀ k i, (empty.performAll calls).get? k = some i
      ↔ i ∈ (empty.performAll calls).issuers ∧ i.id = k)
    ∧ (∀ k i, (empty.performAll calls).lookup? k = some i
      ↔ i ∈ (empty.performAll calls).issuers ∧ i.issuerUrl = k)
    ∧ (∀ k, (empty.performAll calls).resolve? k
      = ((empty.performAll calls).get? k).or ((empty.performAll calls).lookup? k))
    ∧ (empty.performAll calls).size = (empty.performAll calls).issuers.length
    ∧ ∀ i ∈ (empty.performAll calls).issuers, i.validate = .ok ()
  := by
  have hreachable := Reachable.empty.performAll calls
  generalize empty.performAll calls = r at hreachable ⊢
  refine ⟨r.pairwise_differ, r.get?_eq_some_iff, r.lookup?_eq_some_iff, ?_, ?_, ?_⟩
  · intro k
    rfl
  · symm
    apply List.length_map
  · intro i hi
    apply validate_of_reachable hreachable
    apply (r.get?_eq_some_iff i.id i).mpr ⟨hi, rfl⟩

end Federation.Registry
