import Federation.Toml.Basic

/-!
# Keys within values

Lists and tables of a document nest without limit.  `Within u v` says that a value `u`
stands somewhere in a value `v`, `v.EachTable P` that the tables within `v` have a property,
however deep they stand, and `v.HasKey key` that one of them has a key.  `v.keys` lists the
keys depth first: each key of a table is followed by those within its value.  The list is
complete (`mem_keys_iff`).  Proofs about all values go by `nestedInduction`.
-/

namespace Federation.Toml

/-- A value stands somewhere within another one, or is that one. -/
inductive Within : Toml → Toml → Prop where
  | self (v : Toml) : Within v v
  | item {u v : Toml} {items : List Toml} (hmem : v ∈ items) (h : Within u v) :
    Within u (.array items)
  | entry {u v : Toml} {key : String} {entries : List (String × Toml)}
      (hmem : (key, v) ∈ entries) (h : Within u v) :
    Within u (.table entries)

/-- Some table within a value, however deep, has a key. -/
def HasKey (v : Toml) (key : String) : Prop :=
  ∃ entries, Within (.table entries) v ∧ key ∈ entries.map Prod.fst

/-- The entries of each table within a value, however deep it stands, have a property. -/
def EachTable (P : List (String × Toml) → Prop) (v : Toml) : Prop :=
  ∀ entries, Within (.table entries) v → P entries

/-- Whether a value is no list and no table. -/
def IsScalar : Toml → Prop
  | .array _ | .table _ => False
  | _ => True

/-- What holds of lists and tables if it holds of all that is directly in them, and of what
is neither, holds of every value. -/
@[elab_as_elim]
theorem nestedInduction {motive : Toml → Prop} (scalar : ∀ v : Toml, v.IsScalar → motive v)
    (array : ∀ items : List Toml, (∀ v ∈ items, motive v) → motive (.array items))
    (table : ∀ entries : List (String × Toml), (∀ e ∈ entries, motive e.2) →
      motive (.table entries))
    (v : Toml) :
  motive v
  := by
  apply @Toml.rec motive (fun items => ∀ v ∈ items, motive v)
    (fun entries => ∀ e ∈ entries, motive e.2) (fun e => motive e.2)
  case array => exact array
  case table => exact table
  case nil | nil => exact List.forall_mem_nil _
  case cons | cons => exact fun _ _ h hs => List.forall_mem_cons.mpr ⟨h, hs⟩
  case mk => exact fun _ _ h => h
  all_goals
    intros
    apply scalar
    trivial

/-! ### Properties of tables -/

section EachTable

variable {P : List (String × Toml) → Prop}

theorem IsScalar.eachTable {v : Toml} (h : v.IsScalar) :
  v.EachTable P
  := by
  intro entries hwithin
  cases hwithin with
  | self | item | entry => exact h.elim

theorem eachTable_array_iff {items : List Toml} :
  (Toml.array items).EachTable P ↔ ∀ v ∈ items, v.EachTable P
  := by
  constructor
  · intro h v hmem entries hwithin
    exact h entries (.item hmem hwithin)
  · intro h entries hwithin
    cases hwithin with
    | item hmem hwithin => exact h _ hmem entries hwithin

theorem eachTable_table_iff {entries : List (String × Toml)} :
  (Toml.table entries).EachTable P ↔ P entries ∧ ∀ e ∈ entries, e.2.EachTable P
  := by
  constructor
  · intro h
    constructor
    · exact h entries (.self _)
    · intro e hmem es hwithin
      exact h es (.entry hmem hwithin)
  · rintro ⟨hentries, h⟩ es hwithin
    cases hwithin with
    | self => exact hentries
    | entry hmem hwithin => exact h _ hmem es hwithin

end EachTable

/-! ### The list of keys -/

mutual

/-- The keys of all tables within a value, depth first: each one is followed by those within
its own value. -/
def keys : Toml → List String
  | .array items => itemsKeys items
  | .table entries => entriesKeys entries
  | _ => []

/-- The keys within the items of a list, depth first. -/
def itemsKeys : List Toml → List String
  | [] => []
  | v :: vs => keys v ++ itemsKeys vs

/-- The keys of a table and within its values, depth first. -/
def entriesKeys : List (String × Toml) → List String
  | [] => []
  | (key, v) :: es => key :: keys v ++ entriesKeys es

end

theorem itemsKeys_eq (items : List Toml) :
  itemsKeys items = items.flatMap keys
  := by
  induction items with
  | nil => rfl
  | cons v vs ih => rw [itemsKeys, ih, List.flatMap_cons]

theorem entriesKeys_eq (entries : List (String × Toml)) :
  entriesKeys entries = entries.flatMap fun e => e.1 :: keys e.2
  := by
  induction entries with
  | nil => rfl
  | cons e es ih => rw [entriesKeys, ih, List.flatMap_cons]

theorem hasKey_array_iff {items : List Toml} {key : String} :
  (Toml.array items).HasKey key ↔ ∃ v ∈ items, v.HasKey key
  := by
  constructor
  · rintro ⟨entries, hentries, hkey⟩
    cases hentries with
    | item hmem h => exact ⟨_, hmem, entries, h, hkey⟩
  · rintro ⟨v, hmem, entries, h, hkey⟩
    exact ⟨entries, .item hmem h, hkey⟩

theorem hasKey_table_iff {entries : List (String × Toml)} {key : String} :
  (Toml.table entries).HasKey key
    ↔ key ∈ entries.map Prod.fst ∨ ∃ e ∈ entries, e.2.HasKey key
  := by
  constructor
  · rintro ⟨es, hes, hkey⟩
    cases hes with
    | self => exact .inl hkey
    | entry hmem h => exact .inr ⟨_, hmem, es, h, hkey⟩
  · rintro (hkey | ⟨e, hmem, es, h, hkey⟩)
    · exact ⟨entries, .self _, hkey⟩
    · exact ⟨es, .entry hmem h, hkey⟩

theorem IsScalar.not_hasKey {v : Toml} (h : v.IsScalar) (key : String) :
  ¬ v.HasKey key
  := by
  rintro ⟨entries, hentries, -⟩
  cases hentries with
  | self | item | entry => exact h

theorem IsScalar.keys_eq {v : Toml} (h : v.IsScalar) :
  v.keys = []
  := by
  cases v with
  | array | table => cases h
  | string | integer | float | boolean | datetime => rfl

/-- The keys that are listed are those of the tables within a value. -/
theorem mem_keys_iff {v : Toml} {key : String} :
  key ∈ v.keys ↔ v.HasKey key
  := by
  induction v using nestedInduction with
  | scalar v hv =>
    rw [hv.keys_eq]
    exact iff_of_false List.not_mem_nil (hv.not_hasKey key)
  | array items ih =>
    rw [keys, itemsKeys_eq, List.mem_flatMap, hasKey_array_iff]
    apply exists_congr
    intro v
    apply and_congr_right (ih v)
  | table entries ih =>
    have hentry : ∀ e ∈ entries, key ∈ e.1 :: keys e.2 ↔ e.1 = key ∨ e.2.HasKey key := by
      intro e he
      rw [List.mem_cons, eq_comm, ih e he]
    rw [keys, entriesKeys_eq, List.mem_flatMap, hasKey_table_iff, List.mem_map,
      exists_congr fun e => and_congr_right (hentry e)]
    simp only [and_or_left, exists_or]

end Federation.Toml
