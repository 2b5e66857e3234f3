import Federation.Proofs.Toml.Nested
import Federation.Toml
import Mathlib.Data.List.Nodup

/-!
# No table of a document repeats a key

A table has each of its keys once, however its lines stand in the document: entries,
headers, dotted keys and tables in braces all go through `setPart` and `putLast`, which
replace what stands under a key.  While a document is put together, this is kept of all
tables that are begun and of the values under them (`Part.Tidy`).  Main statement:
`distinct_of_written?`.
-/

namespace Federation.Toml

/-- No table within a value has a key twice. -/
def Distinct (v : Toml) : Prop := v.EachTable fun entries => (entries.map Prod.fst).Nodup

/-! ### Tables that are put together -/

/-- No table under a part has a key twice. -/
inductive Part.Tidy : Part → Prop where
  | value {v : Toml} (h : v.Distinct) : Tidy (.value v)
  | table {origin : Origin} {entries : Entries} (hkeys : (entries.map Prod.fst).Nodup)
      (h : ∀ e ∈ entries, Tidy e.2) :
    Tidy (.table origin entries)
  | tables {elements : List Entries} (hkeys : ∀ entries ∈ elements, (entries.map Prod.fst).Nodup)
      (h : ∀ entries ∈ elements, ∀ e ∈ entries, Tidy e.2) :
    Tidy (.tables elements)

/-- No key stands twice among the entries of a table or in a table under them. -/
structure Entries.Tidy (entries : Entries) : Prop where
  keys : (entries.map Prod.fst).Nodup
  parts : ∀ e ∈ entries, e.2.Tidy

theorem Entries.Tidy.nil :
  Entries.Tidy []
  := ⟨List.nodup_nil, List.forall_mem_nil _⟩

theorem Part.Tidy.of_table {origin : Origin} {entries : Entries} (h : entries.Tidy) :
  Part.Tidy (.table origin entries)
  := .table h.keys h.parts

theorem Part.Tidy.of_tables {elements : List Entries} (h : ∀ es ∈ elements, Entries.Tidy es) :
  Part.Tidy (.tables elements)
  := .tables (fun es hes => (h es hes).keys) (fun es hes => (h es hes).parts)

theorem Part.Tidy.of_append {elements : List Entries} {last : Entries}
    (helements : ∀ es ∈ elements, Entries.Tidy es) (hlast : last.Tidy) :
  Part.Tidy (.tables (elements ++ [last]))
  := by
  apply Part.Tidy.of_tables
  intro es hes
  rcases List.mem_append.mp hes with hes | hes
  · apply helements es hes
  · cases List.mem_singleton.mp hes
    exact hlast

/-- A part that is put under a key leaves the keys as they are, or adds one at the end. -/
theorem map_fst_setPart (key : String) (p : Part) (entries : Entries) :
  (setPart key p entries).map Prod.fst
    = if key ∈ entries.map Prod.fst then entries.map Prod.fst
      else entries.map Prod.fst ++ [key]
  := by
  induction entries with
  | nil => rfl
  | cons e rest ih =>
    rw [setPart]
    split
    · rename_i hkey
      rw [if_pos (by simp [hkey])]
      rfl
    · rename_i hkey
      rw [List.map_cons, ih, List.map_cons]
      simp only [List.mem_cons, hkey, false_or]
      split
      · rfl
      · rfl

theorem mem_of_mem_setPart {key : String} {p : Part} {entries : Entries} {e : String × Part}
    (h : e ∈ setPart key p entries) :
  e.2 = p ∨ e ∈ entries
  := by
  induction entries with
  | nil =>
    cases List.mem_singleton.mp h
    exact .inl rfl
  | cons a rest ih =>
    rw [setPart] at h
    split at h
    · rcases List.mem_cons.mp h with rfl | h
      · exact .inl rfl
      · exact .inr (List.mem_cons_of_mem a h)
    · rcases List.mem_cons.mp h with rfl | h
      · exact .inr List.mem_cons_self
      · exact (ih h).imp_right (List.mem_cons_of_mem a)

theorem Entries.Tidy.setPart {entries : Entries} (h : entries.Tidy) (key : String) {p : Part}
    (hp : p.Tidy) :
  Entries.Tidy (setPart key p entries)
  := by
  constructor
  · rw [map_fst_setPart]
    split
    · exact h.keys
    · rename_i hnew
      rw [← List.concat_eq_append]
      apply h.keys.concat hnew
  · intro e he
    rcases mem_of_mem_setPart he with rfl | he
    · exact hp
    · exact h.parts e he

theorem Entries.Tidy.putLast {entries : Entries} (h : entries.Tidy) (key : String) {p : Part}
    (hp : p.Tidy) :
  Entries.Tidy (putLast key p entries)
  := by
  constructor
  · rw [Toml.putLast, List.map_append, List.map_singleton, ← List.concat_eq_append]
    apply List.Nodup.concat
    · intro hmem
      obtain ⟨e, he, hkey⟩ := List.mem_map.mp hmem
      exact of_decide_eq_true (List.mem_filter.mp he).2 hkey
    · apply h.keys.sublist (List.filter_sublist.map _)
  · intro e he
    rcases List.mem_append.mp he with he | he
    · exact h.parts e (List.mem_filter.mp he).1
    · cases List.mem_singleton.mp he
      exact hp

theorem Entries.Tidy.of_lookup {entries : Entries} (h : entries.Tidy) {key : String} {p : Part}
    (hp : entries.lookup key = some p) :
  p.Tidy
  := by
  obtain ⟨l₁, l₂, rfl, -⟩ := List.lookup_eq_some_iff.mp hp
  exact h.parts (key, p) (List.mem_append_right _ List.mem_cons_self)

/-- A change deep in a table repeats no key if it repeats none in each table that it is made
in. -/
theorem Entries.Tidy.of_modifyAt {step : Origin} {change : Origin → Entries → Option Entries}
    (hchange : ∀ {origin : Origin} {entries result : Entries}, entries.Tidy →
      change origin entries = some result → result.Tidy)
    {path : List String} {origin : Origin} {entries result : Entries} (h : entries.Tidy)
    (hresult : modifyAt step change path origin entries = some result) :
  result.Tidy
  := by
  induction path generalizing origin entries result with
  | nil => exact hchange h hresult
  | cons key path ih =>
    -- The way leads into a new table, into the last one of a list, or into a table that is
    -- there; it does not lead into a value.
    rw [modifyAt] at hresult
    split at hresult
    · obtain ⟨inner, hinner, hset⟩ := Option.bind_eq_some_iff.mp hresult
      cases hset
      exact h.setPart key (.of_table (ih Entries.Tidy.nil hinner))
    · cases hresult
    · rename_i elements hlookup
      obtain ⟨last, hlast, hrest⟩ := Option.bind_eq_some_iff.mp hresult
      obtain ⟨inner, hinner, hset⟩ := Option.bind_eq_some_iff.mp hrest
      cases hset
      cases h.of_lookup hlookup with
      | tables hkeys helements =>
        apply h.setPart
        apply Part.Tidy.of_append
        · intro es hes
          have hmem := List.dropLast_subset elements hes
          exact ⟨hkeys es hmem, helements es hmem⟩
        · have hmem := List.mem_of_getLast? hlast
          apply ih ⟨hkeys last hmem, helements last hmem⟩ hinner
    · rename_i inner hlookup
      split at hresult
      · cases hresult
      obtain ⟨changed, hchanged, hset⟩ := Option.bind_eq_some_iff.mp hresult
      cases hset
      cases h.of_lookup hlookup with
      | table hkeys hinner => exact h.setPart key (.of_table (ih ⟨hkeys, hinner⟩ hchanged))

theorem Entries.Tidy.of_addEntry {dotted : Bool} {key : String} {v : Toml} {origin : Origin}
    {entries result : Entries} (hv : v.Distinct) (h : entries.Tidy)
    (hresult : addEntry dotted key v origin entries = some result) :
  result.Tidy
  := by
  rw [addEntry] at hresult
  split at hresult
  · cases hresult
  · cases hresult
    exact h.setPart key (.value hv)

theorem Entries.Tidy.of_addKeyed {key : List String} {v : Toml} {entries result : Entries}
    (hv : v.Distinct) (h : entries.Tidy) (hresult : addKeyed key v entries = some result) :
  result.Tidy
  := by
  rw [addKeyed] at hresult
  split at hresult
  · cases hresult
  · exact h.of_modifyAt (Entries.Tidy.of_addEntry hv) hresult

/-- Adding lines repeats no key if their values repeat none. -/
theorem Entries.Tidy.of_addAll {lines : List (List String × Toml)} {entries result : Entries}
    (hlines : ∀ l ∈ lines, l.2.Distinct) (h : entries.Tidy)
    (hresult : addAll lines entries = some result) :
  result.Tidy
  := by
  rw [addAll] at hresult
  induction lines generalizing entries with
  | nil =>
    cases hresult
    exact h
  | cons l lines ih =>
    obtain ⟨hl, hlines⟩ := List.forall_mem_cons.mp hlines
    obtain ⟨added, hadded, hrest⟩ := Option.bind_eq_some_iff.mp hresult
    exact ih hlines (h.of_addKeyed hl hadded) hrest

theorem Entries.Tidy.of_begun? {entries begun : Entries} (h : entries.Tidy) {key : String}
    (hbegun : begun? (entries.lookup key) = some begun) :
  begun.Tidy
  := by
  rw [Toml.begun?.eq_def] at hbegun
  split at hbegun
  · cases hbegun
    exact Entries.Tidy.nil
  · rename_i inner hlookup
    cases hbegun
    cases h.of_lookup hlookup with
    | table hkeys hinner => exact ⟨hkeys, hinner⟩
  · cases hbegun

theorem Entries.Tidy.of_elements? {entries : Entries} {elements : List Entries}
    (h : entries.Tidy) {key : String}
    (helements : elements? (entries.lookup key) = some elements) :
  ∀ es ∈ elements, Entries.Tidy es
  := by
  rw [Toml.elements?.eq_def] at helements
  split at helements
  · cases helements
    apply List.forall_mem_nil
  · rename_i held hlookup
    cases helements
    cases h.of_lookup hlookup with
    | tables hkeys hheld => exact fun es hes => ⟨hkeys es hes, hheld es hes⟩
  · cases helements

theorem Entries.Tidy.of_putTable {key : String} {lines : List (List String × Toml)}
    {origin : Origin} {entries result : Entries} (hlines : ∀ l ∈ lines, l.2.Distinct)
    (h : entries.Tidy) (hresult : putTable key lines origin entries = some result) :
  result.Tidy
  := by
  obtain ⟨begun, hbegun, hrest⟩ := Option.bind_eq_some_iff.mp hresult
  obtain ⟨inner, hinner, hset⟩ := Option.bind_eq_some_iff.mp hrest
  cases hset
  apply h.putLast
  apply Part.Tidy.of_table
  apply (h.of_begun? hbegun).of_addAll hlines hinner

theorem Entries.Tidy.of_putElement {key : String} {lines : List (List String × Toml)}
    {origin : Origin} {entries result : Entries} (hlines : ∀ l ∈ lines, l.2.Distinct)
    (h : entries.Tidy) (hresult : putElement key lines origin entries = some result) :
  result.Tidy
  := by
  obtain ⟨elements, helements, hrest⟩ := Option.bind_eq_some_iff.mp hresult
  obtain ⟨last, hlast, hset⟩ := Option.bind_eq_some_iff.mp hrest
  cases hset
  apply h.setPart
  apply Part.Tidy.of_append (h.of_elements? helements)
  apply Entries.Tidy.nil.of_addAll hlines hlast

/-- Adding a block of lines repeats no key if their values repeat none. -/
theorem Entries.Tidy.of_close {b : Block} {entries result : Entries}
    (hlines : ∀ l ∈ b.lines, l.2.Distinct) (h : entries.Tidy)
    (hresult : b.close entries = some result) :
  result.Tidy
  := by
  have hreverse : ∀ l ∈ b.lines.reverse, l.2.Distinct := by
    intro l hl
    apply hlines l (List.mem_reverse.mp hl)
  rw [Block.close] at hresult
  split at hresult
  · apply h.of_addAll hreverse hresult
  · obtain ⟨last, -, hmodified⟩ := Option.bind_eq_some_iff.mp hresult
    apply h.of_modifyAt (Entries.Tidy.of_putTable hreverse) hmodified
  · obtain ⟨last, -, hmodified⟩ := Option.bind_eq_some_iff.mp hresult
    apply h.of_modifyAt (Entries.Tidy.of_putElement hreverse) hmodified

/-- Whether the value of a line, if it has one, repeats no key. -/
def Line.Distinct : Line → Prop
  | .entry _ v => v.Distinct
  | .table _ | .element _ => True

theorem Entries.Tidy.of_assemble? {b : Block} {lines : List Line} {entries result : Entries}
    (hblock : ∀ l ∈ b.lines, l.2.Distinct) (hlines : ∀ l ∈ lines, l.Distinct) (h : entries.Tidy)
    (hresult : assemble? b entries lines = some result) :
  result.Tidy
  := by
  induction lines generalizing b entries with
  | nil => exact h.of_close hblock hresult
  | cons l lines ih =>
    obtain ⟨hl, hrest⟩ := List.forall_mem_cons.mp hlines
    cases l with
    | entry key v =>
      have hlonger : ∀ l ∈ (key, v) :: b.lines, l.2.Distinct :=
        List.forall_mem_cons.mpr ⟨hl, hblock⟩
      apply ih hlonger hrest h hresult
    | table | element =>
      obtain ⟨closed, hclosed, hassembled⟩ := Option.bind_eq_some_iff.mp hresult
      apply ih (List.forall_mem_nil _) hrest (h.of_close hblock hclosed) hassembled

/-! ### Finished tables -/

theorem finishEntries_eq (entries : Entries) :
  finishEntries entries = entries.map fun e => (e.1, e.2.finish)
  := by
  induction entries with
  | nil => rfl
  | cons e entries ih => rw [finishEntries, ih, List.map_cons]

theorem finishElements_eq (elements : List Entries) :
  finishElements elements = elements.map fun entries => .table (finishEntries entries)
  := by
  induction elements with
  | nil => rfl
  | cons entries elements ih => rw [finishElements, ih, List.map_cons]

theorem distinct_finishEntries {entries : Entries} (hkeys : (entries.map Prod.fst).Nodup)
    (h : ∀ e ∈ entries, e.2.finish.Distinct) :
  (Toml.table (finishEntries entries)).Distinct
  := by
  rw [finishEntries_eq]
  refine eachTable_table_iff.mpr ⟨?_, ?_⟩
  · rw [List.map_map]
    exact hkeys
  · exact List.forall_mem_map.mpr h

theorem Part.Tidy.distinct_finish {p : Part} (h : p.Tidy) :
  p.finish.Distinct
  := by
  induction h with
  | value h =>
    rw [finish]
    exact h
  | table hkeys _ ih =>
    rw [finish]
    exact distinct_finishEntries hkeys ih
  | tables hkeys _ ih =>
    rw [finish, finishElements_eq]
    refine eachTable_array_iff.mpr ?_
    intro v hv
    obtain ⟨entries, hentries, rfl⟩ := List.mem_map.mp hv
    apply distinct_finishEntries (hkeys entries hentries) (ih entries hentries)

theorem Entries.Tidy.distinct {entries : Entries} (h : entries.Tidy) :
  (Toml.table (finishEntries entries)).Distinct
  := by
  apply distinct_finishEntries h.keys
  intro e he
  exact (h.parts e he).distinct_finish

/-! ### Values that are read -/

theorem isScalar_of_integerOf? {base : Nat} {negative : Bool} {ds : List Nat} {v : Toml}
    (h : integerOf? base negative ds = some v) :
  v.IsScalar
  := by
  simp only [integerOf?] at h
  split at h
  all_goals
    split at h
    · cases h
      trivial
    · cases h

theorem isScalar_of_floatOf? {negative : Bool} {whole fraction : List Nat} {exponent : Int}
    {v : Toml} (h : floatOf? negative whole fraction exponent = some v) :
  v.IsScalar
  := by
  simp only [floatOf?] at h
  split at h
  · cases h
  · cases h
    trivial

theorem isScalar_of_unsigned? {negative : Bool} {cs rest : List Char} {v : Toml}
    (h : unsigned? negative cs = some (v, rest)) :
  v.IsScalar
  := by
  rw [unsigned?.eq_def] at h
  split at h
  · cases h
    trivial
  · cases h
    trivial
  obtain ⟨⟨whole, more⟩, -, hmore⟩ := Option.bind_eq_some_iff.mp h
  dsimp only at hmore
  split at hmore
  · split at hmore
    · obtain ⟨⟨fraction, _⟩, -, hmore⟩ := Option.bind_eq_some_iff.mp hmore
      obtain ⟨⟨exponent, _⟩, -, hmore⟩ := Option.bind_eq_some_iff.mp hmore
      obtain ⟨w, hw, hpair⟩ := Option.bind_eq_some_iff.mp hmore
      cases hpair
      apply isScalar_of_floatOf? hw
    · obtain ⟨w, hw, hpair⟩ := Option.bind_eq_some_iff.mp hmore
      cases hpair
      apply isScalar_of_integerOf? hw
  · obtain ⟨w, hw, hpair⟩ := Option.bind_eq_some_iff.mp hmore
    cases hpair
    apply isScalar_of_integerOf? hw

theorem isScalar_of_inBase? {base : Nat} {cs rest : List Char} {v : Toml}
    (h : inBase? base cs = some (v, rest)) :
  v.IsScalar
  := by
  obtain ⟨⟨ds, _⟩, -, hmore⟩ := Option.bind_eq_some_iff.mp h
  obtain ⟨w, hw, hpair⟩ := Option.bind_eq_some_iff.mp hmore
  cases hpair
  apply isScalar_of_integerOf? hw

theorem isScalar_of_numeral? {cs rest : List Char} {v : Toml}
    (h : numeral? cs = some (v, rest)) :
  v.IsScalar
  := by
  rw [numeral?.eq_def] at h
  split at h
  · apply isScalar_of_inBase? h
  · apply isScalar_of_inBase? h
  · apply isScalar_of_inBase? h
  · apply isScalar_of_unsigned? h
  · apply isScalar_of_unsigned? h
  · apply isScalar_of_unsigned? h

theorem distinct_of_ofLines? {lines : List (List String × Toml)} {v : Toml}
    (hlines : ∀ l ∈ lines, l.2.Distinct) (h : ofLines? lines = some v) :
  v.Distinct
  := by
  obtain ⟨entries, hentries, rfl⟩ := Option.map_eq_some_iff.mp h
  apply Entries.Tidy.distinct
  apply Entries.Tidy.nil.of_addAll hlines hentries

-- Values, items and entries are read by recursion on one another; of scalars nothing is to
-- be shown but that they are scalars.
mutual

theorem distinct_of_value? : ∀ {fuel depth : Nat} {cs rest : List Char} {v : Toml},
    value? fuel depth cs = some (v, rest) → v.Distinct
  | 0, _, _, _, _, h => by cases h
  | fuel + 1, depth, cs, _, v, h => by
    rw [value?.eq_def] at h
    dsimp only at h
    split at h
    · cases h
      apply IsScalar.eachTable
      trivial
    · cases h
      apply IsScalar.eachTable
      trivial
    · split at h
      · cases h
      obtain ⟨⟨vs, _⟩, hvs, hpair⟩ := Option.map_eq_some_iff.mp h
      cases hpair
      exact eachTable_array_iff.mpr (distinct_of_items? hvs)
    · split at h
      · cases h
      split at h
      · cases h
        exact eachTable_table_iff.mpr ⟨List.nodup_nil, List.forall_mem_nil _⟩
      · obtain ⟨⟨lines, _⟩, hlines, hmore⟩ := Option.bind_eq_some_iff.mp h
        obtain ⟨w, hw, hpair⟩ := Option.bind_eq_some_iff.mp hmore
        cases hpair
        apply distinct_of_ofLines? (distinct_of_entries? hlines) hw
    · apply IsScalar.eachTable
      split at h
      · obtain ⟨⟨s, _⟩, -, hpair⟩ := Option.map_eq_some_iff.mp h
        cases hpair
        trivial
      · split at h
        · cases h
          trivial
        · apply isScalar_of_numeral? h
    · cases h

theorem distinct_of_items? : ∀ {fuel depth : Nat} {cs rest : List Char} {vs : List Toml},
    items? fuel depth cs = some (vs, rest) → ∀ v ∈ vs, v.Distinct
  | 0, _, _, _, _, h => by cases h
  | fuel + 1, depth, cs, _, vs, h => by
    rw [items?.eq_def] at h
    dsimp only at h
    split at h
    · cases h
      apply List.forall_mem_nil
    obtain ⟨⟨v, _⟩, hv, hmore⟩ := Option.bind_eq_some_iff.mp h
    split at hmore
    · obtain ⟨⟨ws, _⟩, hws, hpair⟩ := Option.bind_eq_some_iff.mp hmore
      cases hpair
      apply List.forall_mem_cons.mpr ⟨distinct_of_value? hv, distinct_of_items? hws⟩
    · cases hmore
      apply List.forall_mem_singleton.mpr (distinct_of_value? hv)
    · cases hmore

theorem distinct_of_entries? : ∀ {fuel depth : Nat} {cs rest : List Char}
    {lines : List (List String × Toml)},
    entries? fuel depth cs = some (lines, rest) → ∀ l ∈ lines, l.2.Distinct
  | 0, _, _, _, _, h => by cases h
  | fuel + 1, depth, cs, _, lines, h => by
    obtain ⟨⟨key, _⟩, -, h⟩ := Option.bind_eq_some_iff.mp h
    obtain ⟨_, -, h⟩ := Option.bind_eq_some_iff.mp h
    obtain ⟨⟨v, _⟩, hv, hmore⟩ := Option.bind_eq_some_iff.mp h
    dsimp only at hmore
    split at hmore
    · obtain ⟨⟨es, _⟩, hes, hpair⟩ := Option.bind_eq_some_iff.mp hmore
      cases hpair
      exact List.forall_mem_cons.mpr ⟨distinct_of_value? hv, distinct_of_entries? hes⟩
    · cases hmore
      exact List.forall_mem_singleton.mpr (distinct_of_value? hv)
    · cases hmore

end

theorem Line.distinct_of_line? {cs rest : List Char} {l : Line}
    (h : line? cs = some (l, rest)) :
  l.Distinct
  := by
  rw [line?.eq_def] at h
  split at h
  · obtain ⟨⟨key, _⟩, -, h⟩ := Option.bind_eq_some_iff.mp h
    obtain ⟨_, -, h⟩ := Option.bind_eq_some_iff.mp h
    obtain ⟨_, -, h⟩ := Option.bind_eq_some_iff.mp h
    cases h
    trivial
  · obtain ⟨⟨key, _⟩, -, h⟩ := Option.bind_eq_some_iff.mp h
    obtain ⟨_, -, h⟩ := Option.bind_eq_some_iff.mp h
    cases h
    trivial
  · obtain ⟨⟨key, _⟩, -, h⟩ := Option.bind_eq_some_iff.mp h
    obtain ⟨_, -, h⟩ := Option.bind_eq_some_iff.mp h
    obtain ⟨⟨v, _⟩, hv, h⟩ := Option.bind_eq_some_iff.mp h
    cases h
    apply distinct_of_value? hv

theorem Line.distinct_of_documentLines? {fuel : Nat} {cs : List Char} {lines : List Line}
    (h : documentLines? fuel cs = some lines) :
  ∀ l ∈ lines, l.Distinct
  := by
  induction fuel generalizing cs lines with
  | zero => cases h
  | succ fuel ih =>
    rw [documentLines?] at h
    split at h
    · cases h
      apply List.forall_mem_nil
    · split at h
      · cases h
        apply List.forall_mem_nil
      · cases h
    · obtain ⟨⟨l, _⟩, hl, h⟩ := Option.bind_eq_some_iff.mp h
      obtain ⟨_, -, h⟩ := Option.bind_eq_some_iff.mp h
      obtain ⟨ls, hls, h⟩ := Option.bind_eq_some_iff.mp h
      cases h
      apply List.forall_mem_cons.mpr ⟨Line.distinct_of_line? hl, ih hls⟩

/-- No table of a document has a key twice, however deep it stands. -/
theorem distinct_of_written? {text : String} {d : Toml} (h : written? text = some d) :
  d.Distinct
  := by
  obtain ⟨lines, hlines, h⟩ := Option.bind_eq_some_iff.mp h
  obtain ⟨entries, hentries, h⟩ := Option.bind_eq_some_iff.mp h
  cases h
  apply Entries.Tidy.distinct
  apply Entries.Tidy.nil.of_assemble? (List.forall_mem_nil _)
    (Line.distinct_of_documentLines? hlines) hentries

end Federation.Toml
