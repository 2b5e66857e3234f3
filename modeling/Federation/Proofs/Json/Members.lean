import Federation.Json.Decoder
import Federation.Proofs.StringMap
import Mathlib.Tactic.Use

/-!
# Members of objects

`given members name` lists what the members of a name hold, in the order of the text.  A
record reads a declared name that is given once (`given_of_collect?`), and an object that
is read as a value holds, under each name, the last one given (`get?_ofList_filter`).
-/

namespace Federation.Json

variable {α : Type}

/-- The documents that stand under a name, in the order of the text. -/
def Document.given (members : List (Option String × Document)) (name : String) : List Document :=
  (members.filter fun m => m.1 = some name).map Prod.snd

namespace Document

variable {members : List (Option String × Document)}

theorem given_cons_self (name : String) (doc : Document)
    (members : List (Option String × Document)) :
  given ((some name, doc) :: members) name = doc :: given members name
  := by
  simp [given]

theorem given_cons_of_ne {key name : String} (h : key ≠ name) (doc : Document)
    (members : List (Option String × Document)) :
  given ((some key, doc) :: members) name = given members name
  := by
  simp [given, h]

/-- The values that the members of an object hold are those of the documents that stand
under their names. -/
theorem map_given_of_membersToJson? {depth : Nat} {all : List (String × Json)}
    (h : membersToJson? depth members = some all) (name : String) :
  (given members name).map (toJson? depth)
    = (all.filter fun e => e.1 = name).map fun e => some e.2
  := by
  induction members generalizing all with
  | nil =>
    rw [membersToJson?] at h
    cases h
    rfl
  | cons m members ih =>
    obtain ⟨key, doc⟩ := m
    rw [membersToJson?] at h
    simp only [Option.bind_eq_bind, Option.bind_eq_some_iff, Option.some.injEq] at h
    obtain ⟨key, rfl, j, hj, rest, hrest, rfl⟩ := h
    by_cases hkey : key = name
    · subst hkey
      rw [given_cons_self, List.map_cons, ih hrest, hj]
      simp
    · rw [given_cons_of_ne hkey, ih hrest]
      simp [hkey]

end Document

/-! ### Records -/

namespace Decoder

open Document (given)

variable {members : List (Option String × Document)}

/-- A declared name is given at most once, and what is collected under it is what is
given. -/
theorem given_of_collect?_append {closed : Bool} {names : List String}
    {collected collected' : StringMap Document}
    (h : collect? closed names collected members = some collected') {name : String}
    (hname : name ∈ names) :
  (collected'.get? name).toList = (collected.get? name).toList ++ given members name
  := by
  induction members generalizing collected with
  | nil =>
    rw [collect?] at h
    cases h
    simp [given]
  | cons m members ih =>
    obtain ⟨key, doc⟩ := m
    cases key with
    | none =>
      rw [collect?] at h
      cases h
    | some key =>
      rw [collect?] at h
      split at h
      · split at h
        · cases h
        · rename_i hnew
          rw [ih h, StringMap.get?_insert]
          by_cases hkey : key = name
          · subst hkey
            have hnone : collected.get? key = none := by
              simpa [StringMap.contains] using hnew
            rw [Document.given_cons_self, hnone, if_pos rfl]
            rfl
          · rw [Document.given_cons_of_ne hkey, if_neg (Ne.symm hkey)]
      · rename_i hundeclared
        have hkey : key ≠ name := by
          rintro rfl
          apply hundeclared
          simpa using hname
        split at h
        · cases h
        · rw [ih h, Document.given_cons_of_ne hkey]

theorem given_of_collect? {closed : Bool} {names : List String} {collected : StringMap Document}
    (h : collect? closed names {} members = some collected) {name : String}
    (hname : name ∈ names) :
  given members name = (collected.get? name).toList
  := by
  rw [given_of_collect?_append h hname]
  rfl

theorem eq_null_or_of_orNull {depth : Nat} {d : Decoder α} {doc : Document} {x : Option α}
    (h : orNull d depth doc = some x) :
  (doc = .null ∧ x = none) ∨ ∃ a, x = some a ∧ d depth doc = some a
  := by
  unfold orNull at h
  split at h
  · left
    cases h
    exact ⟨rfl, rfl⟩
  · right
    obtain ⟨a, ha, rfl⟩ := Option.map_eq_some_iff.mp h
    use a

/-- How members give an optional field: not at all, as null, or as something that can be
read. -/
def GivesOptional (members : List (Option String × Document)) (name : String) (d : Decoder α)
    (depth : Nat) : Option α → Prop
  | none => given members name = [] ∨ given members name = [.null]
  | some a => ∃ doc, given members name = [doc] ∧ d depth doc = some a

theorem givesOptional_of_optional {closed : Bool} {names : List String}
    {collected : StringMap Document}
    (h : collect? closed names {} members = some collected) {name : String} (hname : name ∈ names)
    {depth : Nat} {d : Decoder α} {x : Option α}
    (hx : (⟨false, depth, collected⟩ : Fields).optional name d = some x) :
  GivesOptional members name d depth x
  := by
  have hgiven := given_of_collect? h hname
  rw [Fields.optional, Fields.defaulted] at hx
  cases hget : collected.get? name with
  | none =>
    rw [hget] at hx hgiven
    cases hx
    left
    apply hgiven
  | some doc =>
    rw [hget] at hx hgiven
    rcases eq_null_or_of_orNull hx with ⟨rfl, rfl⟩ | ⟨a, rfl, ha⟩
    · right
      apply hgiven
    · use doc
      constructor
      · apply hgiven
      · apply ha

end Decoder
end Federation.Json
