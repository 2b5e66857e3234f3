import Federation.StringMap

/-!
# Sets of names

A `StringSet` is a finite set of strings, held as the list of its members in strictly
ascending order; the members determine the set (`StringSet.ext_contains`).
-/

namespace Federation

/-- A finite set of strings, as its members in strictly ascending order. -/
structure StringSet where
  /-- The members, ascending. -/
  elements : List String
  /-- No member occurs twice, and the members ascend. -/
  ascending : elements.Pairwise (· < ·)
deriving DecidableEq

namespace StringSet

/-- Adds `name` to an ascending list unless it is there. -/
def insertElement (name : String) : List String → List String
  | [] => [name]
  | a :: rest =>
    if name < a then name :: a :: rest
    else if name = a then a :: rest
    else a :: insertElement name rest

theorem mem_insertElement {name a : String} {l : List String} :
  a ∈ insertElement name l ↔ a = name ∨ a ∈ l
  := by
  induction l with
  | nil => simp [insertElement]
  | cons b l ih =>
    simp only [insertElement]
    split
    · simp
    · split
      · rename_i h
        subst h
        simp
      · simp only [List.mem_cons, ih]
        constructor
        · rintro (h | h | h)
          · exact Or.inr (Or.inl h)
          · exact Or.inl h
          · exact Or.inr (Or.inr h)
        · rintro (h | h | h)
          · exact Or.inr (Or.inl h)
          · exact Or.inl h
          · exact Or.inr (Or.inr h)

theorem ascending_insertElement (name : String) {l : List String}
    (h : l.Pairwise (· < ·)) :
  (insertElement name l).Pairwise (· < ·)
  := by
  induction l with
  | nil => simp [insertElement]
  | cons a l ih =>
    obtain ⟨ha, hl⟩ := List.pairwise_cons.1 h
    simp only [insertElement]
    split
    · rename_i hlt
      refine List.pairwise_cons.2 ⟨fun b hb => ?_, h⟩
      rcases List.mem_cons.1 hb with rfl | hb
      · exact hlt
      · exact String.lt_trans hlt (ha b hb)
    · rename_i hnlt
      split
      · exact h
      · rename_i hne
        refine List.pairwise_cons.2 ⟨fun b hb => ?_, ih hl⟩
        rcases mem_insertElement.1 hb with rfl | hb
        · exact StringMap.lt_of_not_lt_of_ne hnlt hne
        · exact ha b hb

/-! ### Operations -/

/-- The set with no member. -/
def empty : StringSet := ⟨[], List.Pairwise.nil⟩

instance : EmptyCollection StringSet := ⟨empty⟩

instance : Inhabited StringSet := ⟨empty⟩

/-- Adds a member. -/
def insert (s : StringSet) (name : String) : StringSet :=
  ⟨insertElement name s.elements, ascending_insertElement name s.ascending⟩

/-- Whether `name` is a member. -/
def contains (s : StringSet) (name : String) : Bool := s.elements.contains name

/-- The members of a list. -/
def ofList (l : List String) : StringSet := l.foldl insert empty

/-- Whether there is no member. -/
def isEmpty (s : StringSet) : Bool := s.elements.isEmpty

/-- Whether the sets share a member. -/
def meets (s t : StringSet) : Bool := s.elements.any t.contains

/-! ### Membership -/

theorem contains_iff (s : StringSet) (name : String) :
  s.contains name = true ↔ name ∈ s.elements
  := by simp [contains]

theorem mem_insert (s : StringSet) (name a : String) :
  a ∈ (s.insert name).elements ↔ a = name ∨ a ∈ s.elements
  := mem_insertElement

theorem mem_foldl_insert (l : List String) (s : StringSet) (a : String) :
  a ∈ (l.foldl insert s).elements ↔ a ∈ l ∨ a ∈ s.elements
  := by
  induction l generalizing s with
  | nil => simp
  | cons b l ih =>
    simp only [List.foldl_cons, ih, mem_insert, List.mem_cons]
    constructor
    · rintro (h | h | h)
      · exact Or.inl (Or.inr h)
      · exact Or.inl (Or.inl h)
      · exact Or.inr h
    · rintro ((h | h) | h)
      · exact Or.inr (Or.inl h)
      · exact Or.inl h
      · exact Or.inr (Or.inr h)

@[simp]
theorem mem_ofList (l : List String) (a : String) :
  a ∈ (ofList l).elements ↔ a ∈ l
  := by simp [ofList, mem_foldl_insert, empty]

theorem meets_iff (s t : StringSet) :
  s.meets t = true ↔ ∃ a, a ∈ s.elements ∧ a ∈ t.elements
  := by simp [meets, contains]

/-- The members determine a set. -/
theorem ext_contains {s t : StringSet} (h : ∀ a, a ∈ s.elements ↔ a ∈ t.elements) :
  s = t
  := by
  have hs : (s.elements.map (fun a => (a, ()))).Pairwise (fun a b => a.1 < b.1) :=
    List.pairwise_map.2 s.ascending
  have ht : (t.elements.map (fun a => (a, ()))).Pairwise (fun a b => a.1 < b.1) :=
    List.pairwise_map.2 t.ascending
  have heq := StringMap.eq_of_lookupEntry_eq hs ht fun key => by
    apply Option.ext
    intro u
    rw [StringMap.lookupEntry_eq_some hs, StringMap.lookupEntry_eq_some ht]
    simp [h]
  have hmap := congrArg (List.map Prod.fst) heq
  simp only [List.map_map, Function.comp_def, List.map_id'] at hmap
  obtain ⟨l₁, h₁⟩ := s
  obtain ⟨l₂, h₂⟩ := t
  subst hmap
  rfl

end StringSet
end Federation
