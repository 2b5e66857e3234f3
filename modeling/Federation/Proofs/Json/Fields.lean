import Federation.Proofs.Json.Legible
import Federation.Proofs.Json.Members

/-!
# Records are read back

A record that is written as an object with each name once is read from the text of the
object field by field (`record_object`); `Fields.Holds` says what the fields then hold.
-/

namespace Federation.Json

variable {α : Type}

/-! ### Members that are left out -/

theorem lookup_optionalMember (name n : String) (f : α → Json) (o : Option α) :
  (optionalMember n f o).lookup name = if name = n then o.map f else none
  := by
  cases o with
  | none => simp [optionalMember]
  | some a =>
    rw [optionalMember, List.lookup_cons, List.lookup_nil]
    by_cases h : name = n
    · rw [if_pos h, beq_iff_eq.mpr h]
      rfl
    · rw [if_neg h, beq_eq_false_iff_ne.mpr h]

theorem forall_mem_optionalMember {n : String} {f : α → Json} {o : Option α}
    {P : String × Json → Prop} :
  (∀ m ∈ optionalMember n f o, P m) ↔ ∀ a ∈ o, P (n, f a)
  := by cases o <;> simp [optionalMember]

theorem map_fst_optionalMember_sublist (n : String) (f : α → Json) (o : Option α) :
  ((optionalMember n f o).map Prod.fst).Sublist [n]
  := by cases o <;> simp [optionalMember]

namespace Decoder

/-! ### Collecting -/

theorem isSome_collect? (names : List String) {members : List (String × Json)}
    {collected : StringMap Document} (hnodup : (members.map Prod.fst).Nodup)
    (hnew : ∀ m ∈ members, collected.contains m.1 = false) :
  (collect? false names collected (rereadMembers members)).isSome = true
  := by
  induction members generalizing collected with
  | nil => rfl
  | cons m members ih =>
    obtain ⟨hm, hmembers⟩ := List.nodup_cons.mp hnodup
    rw [rereadMembers, collect?, hnew m List.mem_cons_self]
    split
    · apply ih hmembers
      intro m' hm'
      have hne : m'.1 ≠ m.1 := by
        intro heq
        apply hm
        rw [← heq]
        exact List.mem_map_of_mem hm'
      rw [StringMap.contains, StringMap.get?_insert, if_neg hne]
      exact hnew m' (List.mem_cons_of_mem m hm')
    · exact ih hmembers fun m' hm' => hnew m' (List.mem_cons_of_mem m hm')

/-- A name that occurs once in an object gives one document. -/
theorem given_rereadMembers {members : List (String × Json)}
    (hnodup : (members.map Prod.fst).Nodup) (name : String) :
  Document.given (rereadMembers members) name = ((members.lookup name).map reread).toList
  := by
  induction members with
  | nil => rfl
  | cons m members ih =>
    obtain ⟨hm, hmembers⟩ := List.nodup_cons.mp hnodup
    rw [rereadMembers]
    by_cases hname : m.1 = name
    · subst hname
      have hnone : members.lookup m.1 = none := by
        apply List.lookup_eq_none_iff.mpr
        intro m' hm'
        apply bne_iff_ne.mpr
        rintro heq
        exact hm (heq ▸ List.mem_map_of_mem hm')
      rw [Document.given_cons_self, ih hmembers, hnone, List.lookup_cons_self]
      rfl
    · rw [Document.given_cons_of_ne hname, ih hmembers, List.lookup_cons]
      rw [beq_false_of_ne (Ne.symm hname)]

/-! ### Fields -/

/-- The fields that the members of an object make, as they are read from its text. -/
structure Fields.Holds (r : Fields) (depth : Nat) (names : List String)
    (members : List (String × Json)) : Prop where
  depth : r.depth = depth
  given : ∀ name ∈ names, r.given.get? name = (members.lookup name).map reread

namespace Fields.Holds

variable {r : Fields} {depth : Nat} {names : List String} {members : List (String × Json)}

theorem required (h : r.Holds depth names members) (name : String) (hname : name ∈ names)
    {a : Json} (ha : members.lookup name = some a) (d : Decoder α) :
  r.required name d = d depth a.reread
  := by rw [Fields.required, h.given name hname, ha, h.depth, Option.map_some, Option.bind_some]

theorem defaulted (h : r.Holds depth names members) (name : String) (hname : name ∈ names)
    {a : Json} (ha : members.lookup name = some a) (d : Decoder α) (x : α) :
  r.defaulted name d x = d depth a.reread
  := by
  rw [Fields.defaulted, h.given name hname, ha, h.depth]
  rfl

/-- A field that is left out when it has no value. -/
theorem optional (h : r.Holds depth names members) (name : String) (hname : name ∈ names)
    {f : α → Json} {o : Option α} (ha : members.lookup name = o.map f) {d : Decoder α}
    (hd : ∀ a, orNull d depth (f a).reread = some (some a)) :
  r.optional name d = some o
  := by
  rw [Fields.optional, Fields.defaulted, h.given name hname, ha, h.depth]
  cases o with
  | none => rfl
  | some a => exact hd a

/-- A field that is null when it has no value. -/
theorem optional_orNull (h : r.Holds depth names members) (name : String) (hname : name ∈ names)
    {f : α → Json} {o : Option α} (ha : members.lookup name = some (Json.orNull f o))
    {d : Decoder α} (hd : ∀ a, orNull d depth (f a).reread = some (some a)) :
  r.optional name d = some o
  := by
  rw [Fields.optional, h.defaulted name hname ha]
  cases o with
  | none => rfl
  | some a => exact hd a

end Fields.Holds

/-- A record is read from the text of an object with each name once by reading the fields
that the object makes. -/
theorem record_object (names : List String) (members : List (String × Json))
    (hnodup : (members.map Prod.fst).Nodup) (depth : Nat) :
  ∃ r : Fields, r.Holds depth names members
    ∧ ∀ read : Fields → Option α,
      record names read (depth + 1) (reread (.object members)) = read r
  := by
  have hsome : (collect? false names {} (rereadMembers members)).isSome = true :=
    isSome_collect? names hnodup fun _ _ => rfl
  obtain ⟨collected, hcollected⟩ := Option.isSome_iff_exists.mp hsome
  refine ⟨⟨false, depth, collected⟩, ⟨rfl, ?_⟩, ?_⟩
  · intro name hname
    have hgiven := congrArg List.head? (given_of_collect? hcollected hname)
    rw [given_rereadMembers hnodup, Option.head?_toList, Option.head?_toList] at hgiven
    exact hgiven.symm
  · intro read
    rw [record, reread, fields?, hcollected, Option.map_some, Option.bind_some]

end Decoder
end Federation.Json
