import Federation.Toml.Basic

/-!
# Keys of tables

What can be asked of the tables of a configuration document and of what they hold: whether
all keys of a table are among some names (`KeysIn`), and whether what stands under a key
(`Under`), or each item of a list (`Each`), has a property.  To each of them belongs a way
to change a value so that it holds: `keepKeys` leaves other keys out, `mapUnder` changes
what stands under a key, and `mapEach` the items of a list.
-/

namespace Federation.Toml

variable {names : List String} {key : String} {p : Toml → Prop} {f : Toml → Toml} {v : Toml}

/-- The keys of a table are among some names. -/
def KeysIn (names : List String) : Toml → Prop
  | .table entries => ∀ e ∈ entries, e.1 ∈ names
  | _ => True

/-- What a table has under a key has a property. -/
def Under (key : String) (p : Toml → Prop) : Toml → Prop
  | .table entries => ∀ e ∈ entries, e.1 = key → p e.2
  | _ => True

/-- Each item of a list has a property. -/
def Each (p : Toml → Prop) : Toml → Prop
  | .array items => ∀ v ∈ items, p v
  | _ => True

instance : DecidablePred (KeysIn names)
  | .table entries => inferInstanceAs (Decidable (∀ e ∈ entries, e.1 ∈ names))
  | .string _ | .integer _ | .float | .boolean _ | .datetime _ | .array _ => .isTrue trivial

instance [DecidablePred p] : DecidablePred (Under key p)
  | .table entries => inferInstanceAs (Decidable (∀ e ∈ entries, e.1 = key → p e.2))
  | .string _ | .integer _ | .float | .boolean _ | .datetime _ | .array _ => .isTrue trivial

instance [DecidablePred p] : DecidablePred (Each p)
  | .array items => inferInstanceAs (Decidable (∀ v ∈ items, p v))
  | .string _ | .integer _ | .float | .boolean _ | .datetime _ | .table _ => .isTrue trivial

/-- A table without the entries of other keys than some. -/
def keepKeys (names : List String) : Toml → Toml
  | .table entries => .table (entries.filter (·.1 ∈ names))
  | v => v

/-- A table with what stands under a key changed. -/
def mapUnder (key : String) (f : Toml → Toml) : Toml → Toml
  | .table entries => .table (entries.map fun e => (e.1, if e.1 = key then f e.2 else e.2))
  | v => v

/-- A list with its items changed. -/
def mapEach (f : Toml → Toml) : Toml → Toml
  | .array items => .array (items.map f)
  | v => v

theorem keysIn_keepKeys (names : List String) (v : Toml) :
  (v.keepKeys names).KeysIn names
  := by
  cases v with
  | table entries =>
    intro e he
    apply of_decide_eq_true (List.mem_filter.mp he).2
  | _ => trivial

theorem each_mapEach (h : ∀ v, p (f v)) (v : Toml) :
  (v.mapEach f).Each p
  := by
  cases v with
  | array items =>
    intro w hw
    obtain ⟨u, -, rfl⟩ := List.mem_map.mp hw
    apply h
  | _ => trivial

theorem under_mapUnder (h : ∀ v, p (f v)) (key : String) (v : Toml) :
  (v.mapUnder key f).Under key p
  := by
  cases v with
  | table entries =>
    intro e he hkey
    obtain ⟨e', -, rfl⟩ := List.mem_map.mp he
    rw [if_pos hkey]
    apply h
  | _ => trivial

/-- Leaving entries out keeps what is known of the others. -/
theorem Under.keepKeys (h : v.Under key p) (names : List String) :
  (v.keepKeys names).Under key p
  := by
  cases v with
  | table entries =>
    intro e he
    apply h e (List.mem_filter.mp he).1
  | _ => trivial

/-- A change under one key keeps what is known of another one. -/
theorem Under.mapUnder (h : v.Under key p) {key' : String} (hne : key ≠ key')
    (f : Toml → Toml) :
  (v.mapUnder key' f).Under key p
  := by
  cases v with
  | table entries =>
    intro e he hkey
    obtain ⟨e', he', rfl⟩ := List.mem_map.mp he
    rw [if_neg (hkey ▸ hne)]
    apply h e' he' hkey
  | _ => trivial

theorem KeysIn.mapUnder (h : v.KeysIn names) (key : String) (f : Toml → Toml) :
  (v.mapUnder key f).KeysIn names
  := by
  cases v with
  | table entries =>
    intro e he
    obtain ⟨e', he', rfl⟩ := List.mem_map.mp he
    apply h e' he'
  | _ => trivial

end Federation.Toml
