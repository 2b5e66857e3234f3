import Federation.Proofs.StringMap
import Federation.Proofs.Toml.Distinct
import Mathlib.Data.List.Forall2

/-!
# What of a document is read

A document is read table by table.  The tables come out in ascending order of key
(`ordered_of_resolve?`), with all the keys of the tables that are read as tables
(`hasKey_iff_of_resolve?`).  The others are stamps, and what stands in a stamp behind its
first key is lost.  A document without stamps is always read, with every key that stands
anywhere in it (`exists_resolve?_of_plain`, `hasReadKey_iff_of_plain`).
-/

namespace Federation.Toml

variable {key : String}

/-- The keys of each table within a value ascend. -/
def Ordered (v : Toml) : Prop :=
  v.EachTable fun entries => entries.Pairwise fun a b => a.1 < b.1

/-- No table within a value is a stamp. -/
def Plain (v : Toml) : Prop := v.EachTable fun entries => stamp? entries = none

/-- A key stands in a table that is no stamp nor within one, however deep it is. -/
inductive HasReadKey (key : String) : Toml → Prop where
  | item {v : Toml} {items : List Toml} (hmem : v ∈ items) (h : HasReadKey key v) :
    HasReadKey key (.array items)
  | here {entries : List (String × Toml)} (hstamp : stamp? entries = none)
      (hkey : key ∈ entries.map Prod.fst) :
    HasReadKey key (.table entries)
  | entry {e : String × Toml} {entries : List (String × Toml)} (hstamp : stamp? entries = none)
      (hmem : e ∈ entries) (h : HasReadKey key e.2) :
    HasReadKey key (.table entries)

theorem hasReadKey_array_iff {items : List Toml} :
  (Toml.array items).HasReadKey key ↔ ∃ v ∈ items, v.HasReadKey key
  := by
  constructor
  · intro h
    cases h with
    | item hmem h => exact ⟨_, hmem, h⟩
  · rintro ⟨v, hmem, h⟩
    exact .item hmem h

theorem hasReadKey_table_iff {entries : List (String × Toml)} (hstamp : stamp? entries = none) :
  (Toml.table entries).HasReadKey key
    ↔ key ∈ entries.map Prod.fst ∨ ∃ e ∈ entries, e.2.HasReadKey key
  := by
  constructor
  · intro h
    cases h with
    | here _ hkey => exact .inl hkey
    | entry _ hmem h => exact .inr ⟨_, hmem, h⟩
  · rintro (hkey | ⟨e, hmem, h⟩)
    · exact .here hstamp hkey
    · exact .entry hstamp hmem h

theorem IsScalar.not_hasReadKey {v : Toml} (h : v.IsScalar) (key : String) :
  ¬ v.HasReadKey key
  := by
  intro hkey
  cases hkey with
  | item | here | entry => exact h

/-- A key that is read stands in the document. -/
theorem HasReadKey.hasKey {v : Toml} (h : v.HasReadKey key) :
  v.HasKey key
  := by
  induction h with
  | item hmem _ ih => exact hasKey_array_iff.mpr ⟨_, hmem, ih⟩
  | here _ hkey => exact hasKey_table_iff.mpr (.inl hkey)
  | entry _ hmem _ ih => exact hasKey_table_iff.mpr (.inr ⟨_, hmem, ih⟩)

/-- In a document without stamps, every key is one that is read. -/
theorem hasReadKey_iff_of_plain {d : Toml} (h : d.Plain) :
  d.HasReadKey key ↔ d.HasKey key
  := by
  induction d using nestedInduction with
  | scalar d hd => exact iff_of_false (hd.not_hasReadKey key) (hd.not_hasKey key)
  | array items ih =>
    rw [hasReadKey_array_iff, hasKey_array_iff]
    apply exists_congr
    intro v
    apply and_congr_right
    intro hv
    apply ih v hv (eachTable_array_iff.mp h v hv)
  | table entries ih =>
    obtain ⟨hstamp, hvalues⟩ := eachTable_table_iff.mp h
    rw [hasReadKey_table_iff hstamp, hasKey_table_iff]
    apply or_congr_right
    apply exists_congr
    intro e
    apply and_congr_right
    intro he
    apply ih e he (hvalues e he)

/-! ### Lists and tables that are read -/

theorem exists_mem_of_forall₂ {α β : Type} {R : α → β → Prop} {l : List α} {l' : List β}
    (h : List.Forall₂ R l l') {b : β} (hb : b ∈ l') :
  ∃ a ∈ l, R a b
  := by
  induction h with
  | nil => cases hb
  | cons hr _ ih =>
    rcases List.mem_cons.mp hb with rfl | hb
    · exact ⟨_, List.mem_cons_self, hr⟩
    · obtain ⟨a, ha, hr⟩ := ih hb
      exact ⟨a, List.mem_cons_of_mem _ ha, hr⟩

/-- Lists whose members correspond agree on whether a member has a property, if those that
correspond do. -/
theorem exists_mem_iff_of_forall₂ {α β : Type} {R : α → β → Prop} {l : List α} {l' : List β}
    (h : List.Forall₂ R l l') {p : α → Prop} {q : β → Prop}
    (hpq : ∀ a ∈ l, ∀ b, R a b → (q b ↔ p a)) :
  (∃ b ∈ l', q b) ↔ ∃ a ∈ l, p a
  := by
  constructor
  · rintro ⟨b, hb, hq⟩
    obtain ⟨a, ha, hr⟩ := exists_mem_of_forall₂ h hb
    exact ⟨a, ha, (hpq a ha b hr).mp hq⟩
  · rintro ⟨a, ha, hp⟩
    obtain ⟨b, hb, hr⟩ := exists_mem_of_forall₂ h.flip ha
    exact ⟨b, hb, (hpq a ha b hr).mpr hp⟩

theorem IsScalar.resolve?_eq {v : Toml} (h : v.IsScalar) :
  resolve? v = some v
  := by
  cases v with
  | array | table => cases h
  | string | integer | float | boolean | datetime => rfl

theorem isScalar_of_stampedValue? {u v : Toml} (h : stampedValue? u = some v) :
  v.IsScalar
  := by
  cases u with
  | string s =>
    obtain ⟨d, -, hd⟩ := Option.map_eq_some_iff.mp h
    cases hd
    trivial
  | integer | float | boolean | datetime | array | table => cases h

theorem forall₂_of_resolveItems? {items read : List Toml} (h : resolveItems? items = some read) :
  List.Forall₂ (fun v w => resolve? v = some w) items read
  := by
  induction items generalizing read with
  | nil =>
    cases h
    exact .nil
  | cons v items ih =>
    obtain ⟨w, hw, h⟩ := Option.bind_eq_some_iff.mp h
    obtain ⟨ws, hws, h⟩ := Option.bind_eq_some_iff.mp h
    cases h
    exact .cons hw (ih hws)

theorem forall₂_of_resolveEntries? {entries read : List (String × Toml)}
    (h : resolveEntries? entries = some read) :
  List.Forall₂ (fun e f => e.1 = f.1 ∧ resolve? e.2 = some f.2) entries read
  := by
  induction entries generalizing read with
  | nil =>
    cases h
    exact .nil
  | cons e entries ih =>
    obtain ⟨w, hw, h⟩ := Option.bind_eq_some_iff.mp h
    obtain ⟨ws, hws, h⟩ := Option.bind_eq_some_iff.mp h
    cases h
    exact .cons ⟨rfl, hw⟩ (ih hws)

theorem map_fst_of_resolveEntries? {entries read : List (String × Toml)}
    (h : resolveEntries? entries = some read) :
  read.map Prod.fst = entries.map Prod.fst
  := by
  have heq : List.Forall₂ (· = ·) (entries.map Prod.fst) (read.map Prod.fst) := by
    rw [List.forall₂_map_left_iff, List.forall₂_map_right_iff]
    exact (forall₂_of_resolveEntries? h).imp fun _ _ h => h.1
  rw [List.forall₂_eq_eq_eq] at heq
  exact heq.symm

theorem exists_resolveItems? {items : List Toml} (h : ∀ v ∈ items, ∃ w, resolve? v = some w) :
  ∃ read, resolveItems? items = some read
  := by
  induction items with
  | nil => exact ⟨[], rfl⟩
  | cons v items ih =>
    obtain ⟨⟨w, hw⟩, hitems⟩ := List.forall_mem_cons.mp h
    obtain ⟨ws, hws⟩ := ih hitems
    use w :: ws
    rw [resolveItems?, hw, hws]
    rfl

theorem exists_resolveEntries? {entries : List (String × Toml)}
    (h : ∀ e ∈ entries, ∃ w, resolve? e.2 = some w) :
  ∃ read, resolveEntries? entries = some read
  := by
  induction entries with
  | nil => exact ⟨[], rfl⟩
  | cons e entries ih =>
    obtain ⟨⟨w, hw⟩, hentries⟩ := List.forall_mem_cons.mp h
    obtain ⟨ws, hws⟩ := ih hentries
    use (e.1, w) :: ws
    rw [resolveEntries?, hw, hws]
    rfl

/-- A document without stamps is read. -/
theorem exists_resolve?_of_plain {d : Toml} (h : d.Plain) :
  ∃ v, resolve? d = some v
  := by
  induction d using nestedInduction with
  | scalar d hd => exact ⟨d, hd.resolve?_eq⟩
  | array items ih =>
    have hitems : ∀ v ∈ items, ∃ w, resolve? v = some w := by
      intro v hv
      apply ih v hv (eachTable_array_iff.mp h v hv)
    obtain ⟨read, hread⟩ := exists_resolveItems? hitems
    use .array read
    rw [resolve?, hread]
    rfl
  | table entries ih =>
    obtain ⟨hstamp, hvalues⟩ := eachTable_table_iff.mp h
    have hentries : ∀ e ∈ entries, ∃ w, resolve? e.2 = some w := by
      intro e he
      apply ih e he (hvalues e he)
    obtain ⟨read, hread⟩ := exists_resolveEntries? hentries
    use ofEntries read
    rw [resolve?, hstamp, hread]
    rfl

/-! ### The tables that come out -/

theorem hasKey_ofEntries_iff {entries : List (String × Toml)}
    (h : (entries.map Prod.fst).Nodup) :
  (ofEntries entries).HasKey key ↔ (Toml.table entries).HasKey key
  := by
  simp only [ofEntries, hasKey_table_iff, List.mem_map, StringMap.mem_entries_ofList_iff h]

/-- The tables that are read are ordered, however deep they stand. -/
theorem ordered_of_resolve? {d v : Toml} (h : resolve? d = some v) :
  v.Ordered
  := by
  induction d using nestedInduction generalizing v with
  | scalar d hd =>
    cases hd.resolve?_eq.symm.trans h
    exact hd.eachTable
  | array items ih =>
    rw [resolve?] at h
    obtain ⟨read, hread, rfl⟩ := Option.map_eq_some_iff.mp h
    refine eachTable_array_iff.mpr ?_
    intro w hw
    obtain ⟨u, hu, hresolved⟩ := exists_mem_of_forall₂ (forall₂_of_resolveItems? hread) hw
    apply ih u hu hresolved
  | table entries ih =>
    rw [resolve?] at h
    split at h
    · exact (isScalar_of_stampedValue? h).eachTable
    obtain ⟨read, hread, rfl⟩ := Option.map_eq_some_iff.mp h
    refine eachTable_table_iff.mpr ⟨(StringMap.ofList read).ascending, ?_⟩
    intro f hf
    have hmem := StringMap.mem_of_mem_entries_ofList hf
    obtain ⟨e, he, -, hresolved⟩ := exists_mem_of_forall₂ (forall₂_of_resolveEntries? hread) hmem
    apply ih e he hresolved

/-- Of a document without repeated keys, all keys are read but those within stamps. -/
theorem hasKey_iff_of_resolve? {d v : Toml} (hd : d.Distinct) (h : resolve? d = some v) :
  v.HasKey key ↔ d.HasReadKey key
  := by
  induction d using nestedInduction generalizing v with
  | scalar d hscalar =>
    cases hscalar.resolve?_eq.symm.trans h
    exact iff_of_false (hscalar.not_hasKey key) (hscalar.not_hasReadKey key)
  | array items ih =>
    rw [resolve?] at h
    obtain ⟨read, hread, rfl⟩ := Option.map_eq_some_iff.mp h
    rw [hasKey_array_iff, hasReadKey_array_iff]
    apply exists_mem_iff_of_forall₂ (forall₂_of_resolveItems? hread)
    intro u hu w hw
    apply ih u hu (eachTable_array_iff.mp hd u hu) hw
  | table entries ih =>
    rw [resolve?] at h
    split at h
    · rename_i stamped hstamp
      apply iff_of_false ((isScalar_of_stampedValue? h).not_hasKey key)
      intro hkey
      cases hkey with
      | here hnone | entry hnone =>
        rw [hstamp] at hnone
        cases hnone
    rename_i hstamp
    obtain ⟨read, hread, rfl⟩ := Option.map_eq_some_iff.mp h
    obtain ⟨hkeys, hvalues⟩ := eachTable_table_iff.mp hd
    have hsame := map_fst_of_resolveEntries? hread
    have hnodup : (read.map Prod.fst).Nodup := by rwa [hsame]
    rw [hasKey_ofEntries_iff hnodup, hasKey_table_iff, hasReadKey_table_iff hstamp, hsame]
    apply or_congr_right
    apply exists_mem_iff_of_forall₂ (forall₂_of_resolveEntries? hread)
    rintro e he f ⟨-, hf⟩
    apply ih e he (hvalues e he) hf

end Federation.Toml
