import Federation.Json.Decoder
import Federation.Proofs.StringMap
import Federation.Proofs.Toml.Keys

/-!
# Reading records from tables

A record takes from a table what stands under its declared names.  A closed record refuses
other keys (`keysIn_of_closedRecord`), any other record passes them over, so that leaving
them out changes nothing of what is read (`record_keepKeys`).

A decoder absorbs a way to change values if it reads the same as before from each value
that it has read something from (`Absorbs`).  A union whose alternatives are told apart by a
member absorbs what these absorb (`absorbs_keepTagged`), and what is absorbed under one name
of a record is absorbed by the record (`absorbs_mapUnder`).
-/

namespace Federation

open Toml

theorem Toml.documents_eq (items : List Toml) :
  documents items = items.map document
  := by
  induction items with
  | nil => rfl
  | cons v items ih => rw [documents, ih, List.map_cons]

namespace Json.Decoder

variable {α β : Type} {closed : Bool} {names : List String} {name key : String}
  {f g : Toml → Toml} {depth : Nat} {v : Toml}

/-! ### Members that are collected -/

/-- What has been collected stays, and so does what is collected under a declared name. -/
theorem get?_of_collect? {entries : List (String × Toml)} {given collected : StringMap Document}
    (h : collect? closed names given (entryDocuments entries) = some collected) :
  (∀ {key doc}, given.get? key = some doc → collected.get? key = some doc)
  ∧ ∀ e ∈ entries, e.1 ∈ names → collected.get? e.1 = some e.2.document
  := by
  induction entries generalizing given with
  | nil =>
    cases h
    exact ⟨id, List.forall_mem_nil _⟩
  | cons e entries ih =>
    rw [entryDocuments, collect?] at h
    split at h
    · rename_i hname
      split at h
      · cases h
      rename_i hnew
      obtain ⟨hkept, hcollected⟩ := ih h
      constructor
      · intro key doc hdoc
        apply hkept
        rw [StringMap.get?_insert, if_neg, hdoc]
        rintro rfl
        rw [StringMap.contains, hdoc] at hnew
        exact hnew rfl
      · intro e' he' hname'
        rcases List.mem_cons.mp he' with rfl | he'
        · apply hkept
          rw [StringMap.get?_insert, if_pos rfl]
        · apply hcollected e' he' hname'
    · rename_i hname
      split at h
      · cases h
      obtain ⟨hkept, hcollected⟩ := ih h
      refine ⟨hkept, ?_⟩
      intro e' he' hname'
      rcases List.mem_cons.mp he' with rfl | he'
      · exact absurd (List.contains_iff_mem.mpr hname') hname
      · apply hcollected e' he' hname'

theorem mem_of_collect? {entries : List (String × Toml)} {given collected : StringMap Document}
    (h : collect? true names given (entryDocuments entries) = some collected) :
  ∀ e ∈ entries, e.1 ∈ names
  := by
  induction entries generalizing given with
  | nil => apply List.forall_mem_nil
  | cons e entries ih =>
    rw [entryDocuments, collect?] at h
    split at h
    · rename_i hname
      split at h
      · cases h
      · exact List.forall_mem_cons.mpr ⟨List.contains_iff_mem.mp hname, ih h⟩
    · cases h

theorem collect?_filter (names : List String) (given : StringMap Document)
    (entries : List (String × Toml)) :
  collect? false names given (entryDocuments (entries.filter (·.1 ∈ names)))
    = collect? false names given (entryDocuments entries)
  := by
  induction entries generalizing given with
  | nil => rfl
  | cons e entries ih =>
    by_cases hname : e.1 ∈ names
    · have hkept : (e :: entries).filter (·.1 ∈ names) = e :: entries.filter (·.1 ∈ names) :=
        List.filter_cons_of_pos (decide_eq_true hname)
      rw [hkept]
      simp only [entryDocuments, collect?, ih]
    · have hdropped : (e :: entries).filter (·.1 ∈ names) = entries.filter (·.1 ∈ names) :=
        List.filter_cons_of_neg fun h => hname (of_decide_eq_true h)
      rw [hdropped, ih, entryDocuments, collect?, List.contains_eq_mem, decide_eq_false hname]
      rfl

/-! ### Closed records -/

theorem keysIn_of_fields? {r : Fields} (h : fields? true names depth v.document = some r) :
  v.KeysIn names
  := by
  cases v with
  | table entries =>
    cases depth with
    | zero => cases h
    | succ depth =>
      obtain ⟨collected, hcollected, -⟩ := Option.map_eq_some_iff.mp h
      apply mem_of_collect? hcollected
  | _ => trivial

/-- A closed record refuses tables with keys that it does not declare. -/
theorem keysIn_of_closedRecord {read : Fields → Option α} {a : α}
    (h : closedRecord names read depth v.document = some a) :
  v.KeysIn names
  := by
  obtain ⟨r, hr, -⟩ := Option.bind_eq_some_iff.mp h
  apply keysIn_of_fields? hr

/-- What is read under a declared name is read from all that stands under it. -/
theorem under_of_defaulted {r : Fields} {d : Decoder α} {a b : α} {p : Toml → Prop}
    (h : fields? closed names depth v.document = some r) (hname : name ∈ names)
    (hread : r.defaulted name d a = some b)
    (hp : ∀ {depth : Nat} {v : Toml} {b : α}, d depth v.document = some b → p v) :
  v.Under name p
  := by
  cases v with
  | table entries =>
    cases depth with
    | zero => cases h
    | succ depth =>
      obtain ⟨collected, hcollected, rfl⟩ := Option.map_eq_some_iff.mp h
      rintro e he rfl
      rw [Fields.defaulted, (get?_of_collect? hcollected).2 e he hname] at hread
      apply hp hread
  | _ => trivial

/-! ### Changes that are absorbed -/

/-- A change of values makes no difference to a decoder that reads a value. -/
structure Absorbs (d : Decoder α) (f : Toml → Toml) : Prop where
  read : ∀ {depth : Nat} {v : Toml} {a : α}, d depth v.document = some a →
    d depth (f v).document = some a

theorem Absorbs.comp {d : Decoder α} (hf : Absorbs d f) (hg : Absorbs d g) :
  Absorbs d fun v => g (f v)
  := by
  constructor
  intro depth v a h
  apply hg.read (hf.read h)

/-- A list absorbs a change of its items that these absorb. -/
theorem Absorbs.list {d : Decoder α} (h : Absorbs d f) :
  Absorbs (list d) (mapEach f)
  := by
  constructor
  intro depth v as hread
  cases v with
  | array items =>
    cases depth with
    | zero => cases hread
    | succ depth =>
      rw [Toml.document, Decoder.list, documents_eq] at hread
      rw [mapEach, Toml.document, Decoder.list, documents_eq]
      induction items generalizing as with
      | nil => exact hread
      | cons w items ih =>
        rw [List.map_cons, List.mapM_cons] at hread
        obtain ⟨b, hb, hread⟩ := Option.bind_eq_some_iff.mp hread
        obtain ⟨bs, hbs, hread⟩ := Option.bind_eq_some_iff.mp hread
        rw [List.map_cons, List.map_cons, List.mapM_cons, h.read hb, ih hbs]
        exact hread
  | _ => exact hread

/-- A record that is not closed passes over keys that it does not declare. -/
theorem record_keepKeys (names : List String) (read : Fields → Option α) (depth : Nat)
    (v : Toml) :
  record names read depth (v.keepKeys names).document = record names read depth v.document
  := by
  cases v with
  | table entries =>
    cases depth with
    | zero => rfl
    | succ depth =>
      simp only [keepKeys, Toml.document, record, fields?, collect?_filter]
  | _ => rfl

theorem absorbs_keepKeys (names : List String) (read : Fields → Option α) :
  Absorbs (record names read) (keepKeys names)
  := by
  constructor
  intro depth v a h
  rw [record_keepKeys, h]

/-! ### Unions told apart by a member -/

/-- Leaving out entries of a table leaves the others readable as values. -/
theorem exists_membersToJson?_filter {depth : Nat} {entries : List (String × Toml)}
    {members : List (String × Json)}
    (h : Document.membersToJson? depth (entryDocuments entries) = some members)
    (names : List String) :
  ∃ members', Document.membersToJson? depth (entryDocuments (entries.filter (·.1 ∈ names)))
    = some members'
  := by
  induction entries generalizing members with
  | nil => exact ⟨members, h⟩
  | cons e entries ih =>
    rw [entryDocuments, Document.membersToJson?] at h
    obtain ⟨_, -, h⟩ := Option.bind_eq_some_iff.mp h
    obtain ⟨j, hj, h⟩ := Option.bind_eq_some_iff.mp h
    obtain ⟨rest, hrest, -⟩ := Option.bind_eq_some_iff.mp h
    obtain ⟨rest', hrest'⟩ := ih hrest
    rw [List.filter_cons]
    split
    · rw [entryDocuments, Document.membersToJson?, hj, hrest']
      exact ⟨(e.1, j) :: rest', rfl⟩
    · exact ⟨rest', hrest'⟩

/-- The values under a tag, and the other entries. -/
theorem splitTag_entryDocuments (tag : String) (entries : List (String × Toml)) :
  splitTag tag (entryDocuments entries)
    = ((entries.filter (·.1 = tag)).map fun e => e.2.document,
      entryDocuments (entries.filter (·.1 ≠ tag)))
  := by
  induction entries with
  | nil => rfl
  | cons e entries ih =>
    rw [entryDocuments, splitTag, ih]
    by_cases htag : e.1 = tag
    · simp [htag]
    · simp [htag, entryDocuments]

/-- Leaving out keys keeps the entries of a key that stays. -/
theorem filter_keys_of_mem {entries : List (String × Toml)} {key : String} {names : List String}
    (hkey : key ∈ names) :
  (entries.filter (·.1 ∈ names)).filter (·.1 = key) = entries.filter (·.1 = key)
  := by
  rw [List.filter_filter]
  apply List.filter_congr
  intro e _
  by_cases he : e.1 = key
  · simp [he, hkey]
  · simp [he]

/-- Leaving out keys besides one is leaving them out of the other entries. -/
theorem filter_cons_other_keys {entries : List (String × Toml)} {key : String}
    {names : List String} :
  (entries.filter (·.1 ∈ key :: names)).filter (·.1 ≠ key)
    = (entries.filter (·.1 ≠ key)).filter (·.1 ∈ names)
  := by
  rw [List.filter_filter, List.filter_filter]
  apply List.filter_congr
  intro e _
  by_cases he : e.1 = key
  · simp [he]
  · simp [he]

/-- The names of the members of the alternative that a table is, if each kind of alternative
has the given ones beside its tag. -/
def taggedNames (tag : String) (fieldNames : String → List String) : Toml → List String
  | .table entries =>
    match (entries.find? (·.1 = tag)).map fun e => e.2.document with
    | some (Document.string (some kind)) => tag :: fieldNames kind
    | _ => [tag]
  | _ => []

theorem taggedNames_keepTagged (tag : String) (fieldNames : String → List String) (v : Toml) :
  taggedNames tag fieldNames (v.keepKeys (taggedNames tag fieldNames v))
    = taggedNames tag fieldNames v
  := by
  cases v with
  | table entries =>
    have htag : tag ∈ taggedNames tag fieldNames (.table entries) := by
      rw [taggedNames]
      split
      · apply List.mem_cons_self
      · apply List.mem_cons_self
    rw [keepKeys, taggedNames, ← List.head?_filter, filter_keys_of_mem htag, List.head?_filter,
      ← taggedNames]
  | _ => rfl

/-- A union absorbs leaving out keys that its alternatives do not declare, if each of these
does. -/
theorem absorbs_keepTagged {tag : String} {alternative : String → Decoder α}
    {fieldNames : String → List String}
    (h : ∀ kind, Absorbs (alternative kind) (keepKeys (fieldNames kind))) :
  Absorbs (tagged tag alternative) fun v => v.keepKeys (taggedNames tag fieldNames v)
  := by
  constructor
  intro depth v a hread
  cases v with
  | table entries =>
    cases depth with
    | zero => cases hread
    | succ depth =>
      obtain ⟨members, hmembers, hread⟩ := Option.bind_eq_some_iff.mp hread
      rw [splitTag_entryDocuments] at hread
      split at hread
      · rename_i kind others heq
        obtain ⟨htags, hothers⟩ := Prod.mk.inj heq
        have hkind : (entries.find? (·.1 = tag)).map (fun e => e.2.document)
            = some (.string (some kind)) := by
          rw [← List.head?_filter, ← List.head?_map, htags, List.head?_cons]
        have hnames : taggedNames tag fieldNames (.table entries) = tag :: fieldNames kind := by
          rw [taggedNames, hkind]
        obtain ⟨members', hmembers'⟩ :=
          exists_membersToJson?_filter hmembers (tag :: fieldNames kind)
        rw [hnames, keepKeys, Toml.document]
        apply Option.bind_eq_some_iff.mpr
        refine ⟨members', hmembers', ?_⟩
        rw [splitTag_entryDocuments, filter_keys_of_mem List.mem_cons_self, htags,
          filter_cons_other_keys]
        rw [← hothers] at hread
        exact (h kind).read (v := .table _) hread
      · cases hread
  | _ => exact hread

/-! ### Changes under one name -/

/-- Two collections of members that differ in a change of what stands under a name. -/
structure ChangedUnder (name : String) (f : Toml → Toml) (given given' : StringMap Document) :
    Prop where
  get?_of_ne : ∀ {key}, key ≠ name → given'.get? key = given.get? key
  get?_name : given.get? name = none ∧ given'.get? name = none
    ∨ ∃ v : Toml, given.get? name = some v.document ∧ given'.get? name = some (f v).document

namespace ChangedUnder

variable {given given' : StringMap Document}

theorem contains_eq (h : ChangedUnder name f given given') (key : String) :
  given'.contains key = given.contains key
  := by
  rw [StringMap.contains, StringMap.contains]
  by_cases hkey : key = name
  · subst hkey
    rcases h.get?_name with ⟨hnone, hnone'⟩ | ⟨v, hsome, hsome'⟩
    · rw [hnone, hnone']
    · rw [hsome, hsome', Option.isSome_some, Option.isSome_some]
  · rw [h.get?_of_ne hkey]

theorem insert (h : ChangedUnder name f given given') (key : String) (v : Toml) :
  ChangedUnder name f (given.insert key v.document)
    (given'.insert key (if key = name then f v else v).document)
  := by
  constructor
  · intro k hk
    rw [StringMap.get?_insert, StringMap.get?_insert, h.get?_of_ne hk]
    split
    · rename_i hkey
      rw [if_neg (hkey ▸ hk)]
    · rfl
  · rw [StringMap.get?_insert, StringMap.get?_insert]
    by_cases hkey : name = key
    · rw [if_pos hkey, if_pos hkey, if_pos hkey.symm]
      exact .inr ⟨v, rfl, rfl⟩
    · rw [if_neg hkey, if_neg hkey]
      apply h.get?_name

/-- What is collected from changed entries differs from what is collected from the entries
in the change only. -/
theorem exists_collect? (h : ChangedUnder name f given given') {entries : List (String × Toml)}
    {collected : StringMap Document}
    (hcollect : collect? closed names given (entryDocuments entries) = some collected) :
  ∃ collected',
    collect? closed names given'
      (entryDocuments (entries.map fun e => (e.1, if e.1 = name then f e.2 else e.2)))
        = some collected'
    ∧ ChangedUnder name f collected collected'
  := by
  induction entries generalizing given given' with
  | nil =>
    cases hcollect
    exact ⟨given', rfl, h⟩
  | cons e entries ih =>
    rw [entryDocuments, collect?] at hcollect
    rw [List.map_cons, entryDocuments, collect?, h.contains_eq]
    split at hcollect
    · rename_i hname
      split at hcollect
      · cases hcollect
      · rename_i hnew
        rw [if_pos hname, if_neg hnew]
        apply ih (h.insert e.1 e.2) hcollect
    · rename_i hname
      split at hcollect
      · cases hcollect
      · rename_i hopen
        rw [if_neg hname, if_neg hopen]
        apply ih h hcollect

variable {r : Fields}

theorem required_of_ne (h : ChangedUnder name f r.given given') (hne : key ≠ name)
    (d : Decoder α) :
  Fields.required { r with given := given' } key d = r.required key d
  := by rw [Fields.required, Fields.required, h.get?_of_ne hne]

/-- A field is read as before if its decoder absorbs the change, in case that the change is
under its name. -/
theorem defaulted (h : ChangedUnder name f r.given given') {d : Decoder α} {a b : α}
    (habsorbs : key = name → Absorbs d f) (hread : r.defaulted key d a = some b) :
  Fields.defaulted { r with given := given' } key d a = some b
  := by
  rw [Fields.defaulted] at hread ⊢
  by_cases hkey : key = name
  · subst hkey
    rcases h.get?_name with ⟨hnone, hnone'⟩ | ⟨v, hsome, hsome'⟩
    · rw [hnone] at hread
      rw [hnone']
      exact hread
    · rw [hsome] at hread
      rw [hsome']
      apply (habsorbs rfl).read hread
  · rw [h.get?_of_ne hkey]
    exact hread

end ChangedUnder

/-- A change of what stands under a name of a table changes the fields of a record under
this name. -/
theorem exists_fields?_mapUnder {r : Fields}
    (h : fields? closed names depth v.document = some r) (name : String) (f : Toml → Toml) :
  fields? closed names depth (v.mapUnder name f).document = some r
  ∨ ∃ given',
    fields? closed names depth (v.mapUnder name f).document = some { r with given := given' }
    ∧ ChangedUnder name f r.given given'
  := by
  cases v with
  | table entries =>
    right
    cases depth with
    | zero => cases h
    | succ depth =>
      obtain ⟨collected, hcollected, rfl⟩ := Option.map_eq_some_iff.mp h
      have hempty : ChangedUnder name f {} {} := by
        constructor
        · intro key _
          rfl
        · exact .inl ⟨rfl, rfl⟩
      obtain ⟨collected', hcollected', hchanged⟩ := hempty.exists_collect? hcollected
      exact ⟨collected', Option.map_eq_some_iff.mpr ⟨collected', hcollected', rfl⟩, hchanged⟩
  | _ =>
    left
    exact h

/-- A record absorbs a change under a name if its fields are read as before. -/
theorem absorbs_mapUnder {read : Fields → Option α}
    (hread : ∀ {r : Fields} {given' : StringMap Document} {a : α},
      ChangedUnder name f r.given given' → read r = some a →
        read { r with given := given' } = some a)
    (closed : Bool) (names : List String) :
  Absorbs (fun depth doc => (fields? closed names depth doc).bind read) (mapUnder name f)
  := by
  constructor
  intro depth v a h
  obtain ⟨r, hr, hr'⟩ := Option.bind_eq_some_iff.mp h
  rcases exists_fields?_mapUnder hr name f with hsame | ⟨given', hfields, hchanged⟩
  · exact Option.bind_eq_some_iff.mpr ⟨r, hsame, hr'⟩
  · exact Option.bind_eq_some_iff.mpr ⟨_, hfields, hread hchanged hr'⟩

end Json.Decoder

end Federation
