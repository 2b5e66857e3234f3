/-!
# Maps from names

A `StringMap α` is a finite map from strings to `α`.  It is held as the list of its
entries in strictly ascending order of key, the order of strings being that of their
code points, so a map has one representation and its entries come out sorted.
Main statements: what `insert` and `erase` do to the lookups, and that the lookups
determine the map (`StringMap.ext_get?`).
-/

namespace Federation

/-- A finite map from strings, as its entries in strictly ascending order of key. -/
structure StringMap (α : Type) where
  /-- The entries, by ascending key. -/
  entries : List (String × α)
  /-- No key occurs twice, and the keys ascend. -/
  ascending : entries.Pairwise (fun a b => a.1 < b.1)
deriving DecidableEq

namespace StringMap

variable {α β : Type}

theorem lt_of_not_lt_of_ne {a b : String} (h : ¬ a < b) (hne : a ≠ b) :
  b < a
  := by
  rcases Decidable.em (b < a) with hba | hba
  · exact hba
  · exact absurd (String.le_antisymm (String.not_lt.1 hba) (String.not_lt.1 h)) hne

/-! ### Association lists in key order -/

/-- Binds `key` in a list of entries in key order, in place of an entry of that key. -/
def insertEntry (key : String) (value : α) : List (String × α) → List (String × α)
  | [] => [(key, value)]
  | (k, v) :: rest =>
    if key < k then (key, value) :: (k, v) :: rest
    else if key = k then (key, value) :: rest
    else (k, v) :: insertEntry key value rest

theorem mem_insertEntry {key : String} {value : α} {e : String × α}
    {l : List (String × α)} (h : e ∈ insertEntry key value l) :
  e = (key, value) ∨ e ∈ l
  := by
  induction l with
  | nil => simpa [insertEntry] using h
  | cons a l ih =>
    simp only [insertEntry] at h
    split at h
    · simpa using h
    · split at h
      · simp only [List.mem_cons] at h ⊢
        exact h.imp_right Or.inr
      · simp only [List.mem_cons] at h ⊢
        rcases h with h | h
        · exact Or.inr (Or.inl h)
        · exact (ih h).imp_right Or.inr

theorem ascending_insertEntry (key : String) (value : α) {l : List (String × α)}
    (h : l.Pairwise (fun a b => a.1 < b.1)) :
  (insertEntry key value l).Pairwise (fun a b => a.1 < b.1)
  := by
  induction l with
  | nil => simp [insertEntry]
  | cons a l ih =>
    obtain ⟨ha, hl⟩ := List.pairwise_cons.1 h
    simp only [insertEntry]
    split
    · rename_i hlt
      refine List.pairwise_cons.2 ⟨fun b hb => ?_, h⟩
      rcases List.mem_cons.1 hb with rfl | hb
      · exact hlt
      · exact String.lt_trans hlt (ha b hb)
    · rename_i hnlt
      split
      · rename_i heq
        exact List.pairwise_cons.2 ⟨fun b hb => heq ▸ ha b hb, hl⟩
      · rename_i hne
        refine List.pairwise_cons.2 ⟨fun b hb => ?_, ih hl⟩
        rcases mem_insertEntry hb with rfl | hb
        · exact lt_of_not_lt_of_ne hnlt hne
        · exact ha b hb

/-- The value under `key` in a list of entries. -/
def lookupEntry (key : String) : List (String × α) → Option α
  | [] => none
  | (k, v) :: rest => if key = k then some v else lookupEntry key rest

theorem lookupEntry_insertEntry (key : String) (value : α) (l : List (String × α))
    (k : String) :
  lookupEntry k (insertEntry key value l) = if k = key then some value else lookupEntry k l
  := by
  induction l with
  | nil => simp [insertEntry, lookupEntry]
  | cons a l ih =>
    simp only [insertEntry]
    split
    · simp [lookupEntry]
    · split
      · rename_i heq
        by_cases hk : k = key
        · simp [lookupEntry, hk]
        · simp [lookupEntry, hk, heq ▸ hk]
      · rename_i hne
        simp only [lookupEntry, ih]
        by_cases hk : k = a.1
        · subst hk
          simp [Ne.symm hne]
        · simp [hk]

theorem lookupEntry_eq_none {key : String} {l : List (String × α)} :
  lookupEntry key l = none ↔ ∀ e ∈ l, e.1 ≠ key
  := by
  induction l with
  | nil => simp [lookupEntry]
  | cons a l ih =>
    by_cases h : key = a.1
    · simp [lookupEntry, h]
    · simp [lookupEntry, h, ih, Ne.symm h]

theorem lookupEntry_eq_some {key : String} {value : α} {l : List (String × α)}
    (h : l.Pairwise (fun a b => a.1 < b.1)) :
  lookupEntry key l = some value ↔ (key, value) ∈ l
  := by
  induction l with
  | nil => simp [lookupEntry]
  | cons a l ih =>
    obtain ⟨ha, hl⟩ := List.pairwise_cons.1 h
    by_cases hk : key = a.1
    · subst hk
      have hnot : ∀ v, (a.1, v) ∉ l := fun v hv => String.lt_irrefl _ (ha (a.1, v) hv)
      simp only [lookupEntry, if_true, Option.some.injEq, List.mem_cons, hnot, or_false]
      exact ⟨fun e => by rw [← e], fun e => by rw [← e]⟩
    · have hne : (key, value) ≠ a := fun e => hk (congrArg Prod.fst e)
      simp [lookupEntry, hk, ih hl, hne]

theorem eq_of_lookupEntry_eq {l₁ l₂ : List (String × α)}
    (h₁ : l₁.Pairwise (fun a b => a.1 < b.1)) (h₂ : l₂.Pairwise (fun a b => a.1 < b.1))
    (h : ∀ key, lookupEntry key l₁ = lookupEntry key l₂) :
  l₁ = l₂
  := by
  have hmem : ∀ e : String × α, e ∈ l₁ ↔ e ∈ l₂ := fun e => by
    obtain ⟨key, value⟩ := e
    rw [← lookupEntry_eq_some h₁, h, lookupEntry_eq_some h₂]
  clear h
  induction l₁ generalizing l₂ with
  | nil =>
    cases l₂ with
    | nil => rfl
    | cons b l₂ => exact absurd ((hmem b).2 List.mem_cons_self) (List.not_mem_nil)
  | cons a l₁ ih =>
    cases l₂ with
    | nil => exact absurd ((hmem a).1 List.mem_cons_self) (List.not_mem_nil)
    | cons b l₂ =>
      obtain ⟨ha, hl₁⟩ := List.pairwise_cons.1 h₁
      obtain ⟨hb, hl₂⟩ := List.pairwise_cons.1 h₂
      have hab : a = b := by
        rcases List.mem_cons.1 ((hmem a).1 List.mem_cons_self) with h | h
        · exact h
        · rcases List.mem_cons.1 ((hmem b).2 List.mem_cons_self) with h' | h'
          · exact h'.symm
          · exact absurd (ha b h') (String.lt_asymm (hb a h))
      subst hab
      congr 1
      refine ih hl₁ hl₂ fun e => ⟨fun he => ?_, fun he => ?_⟩
      · rcases List.mem_cons.1 ((hmem e).1 (List.mem_cons_of_mem _ he)) with rfl | h
        · exact absurd (ha _ he) (String.lt_irrefl _)
        · exact h
      · rcases List.mem_cons.1 ((hmem e).2 (List.mem_cons_of_mem _ he)) with rfl | h
        · exact absurd (hb _ he) (String.lt_irrefl _)
        · exact h

/-! ### Operations -/

/-- The map with no entry. -/
def empty : StringMap α := ⟨[], List.Pairwise.nil⟩

instance : EmptyCollection (StringMap α) := ⟨empty⟩

instance : Inhabited (StringMap α) := ⟨empty⟩

/-- Binds `key` to `value`, in place of what it was bound to. -/
def insert (m : StringMap α) (key : String) (value : α) : StringMap α :=
  ⟨insertEntry key value m.entries, ascending_insertEntry key value m.ascending⟩

/-- The value bound to `key`. -/
def get? (m : StringMap α) (key : String) : Option α := lookupEntry key m.entries

/-- Whether `key` is bound. -/
def contains (m : StringMap α) (key : String) : Bool := (m.get? key).isSome

/-- The map without `key`. -/
def erase (m : StringMap α) (key : String) : StringMap α :=
  ⟨m.entries.filter (fun e => e.1 ≠ key), m.ascending.filter _⟩

/-- The bindings of a list, a later one in place of an earlier one of the same key. -/
def ofList (l : List (String × α)) : StringMap α :=
  l.foldl (fun m e => m.insert e.1 e.2) empty

/-- The keys, ascending. -/
def keys (m : StringMap α) : List String := m.entries.map Prod.fst

/-- The values, by ascending key. -/
def values (m : StringMap α) : List α := m.entries.map Prod.snd

/-- The number of entries. -/
def size (m : StringMap α) : Nat := m.entries.length

/-- Whether no key is bound. -/
def isEmpty (m : StringMap α) : Bool := m.entries.isEmpty

/-- Applies `f` to every value. -/
def map (f : α → β) (m : StringMap α) : StringMap β :=
  ⟨m.entries.map (fun e => (e.1, f e.2)), List.pairwise_map.2 m.ascending⟩

/-! ### Lookups -/

@[simp]
theorem get?_empty (key : String) :
  (empty : StringMap α).get? key = none
  := rfl

theorem get?_insert (m : StringMap α) (key : String) (value : α) (k : String) :
  (m.insert key value).get? k = if k = key then some value else m.get? k
  := lookupEntry_insertEntry key value m.entries k

@[simp]
theorem get?_insert_self (m : StringMap α) (key : String) (value : α) :
  (m.insert key value).get? key = some value
  := by simp [get?_insert]

theorem get?_eq_some_iff (m : StringMap α) (key : String) (value : α) :
  m.get? key = some value ↔ (key, value) ∈ m.entries
  := lookupEntry_eq_some m.ascending

theorem get?_eq_none_iff (m : StringMap α) (key : String) :
  m.get? key = none ↔ ∀ e ∈ m.entries, e.1 ≠ key
  := lookupEntry_eq_none

theorem get?_erase (m : StringMap α) (key k : String) :
  (m.erase key).get? k = if k = key then none else m.get? k
  := by
  apply Option.ext
  intro v
  rw [get?_eq_some_iff]
  split
  · rename_i h
    simp [erase, h]
  · rename_i h
    simp [erase, get?_eq_some_iff, h]

/-- The lookups determine a map. -/
theorem ext_get? {m₁ m₂ : StringMap α} (h : ∀ key, m₁.get? key = m₂.get? key) :
  m₁ = m₂
  := by
  obtain ⟨l₁, h₁⟩ := m₁
  obtain ⟨l₂, h₂⟩ := m₂
  have : l₁ = l₂ := eq_of_lookupEntry_eq h₁ h₂ h
  subst this
  rfl

theorem mem_keys_iff (m : StringMap α) (key : String) :
  key ∈ m.keys ↔ ∃ value, m.get? key = some value
  := by
  simp [keys, get?_eq_some_iff]

theorem contains_iff (m : StringMap α) (key : String) :
  m.contains key = true ↔ ∃ value, m.get? key = some value
  := Option.isSome_iff_exists

end StringMap
end Federation
