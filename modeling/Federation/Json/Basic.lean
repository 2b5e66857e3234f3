import Federation.Json.Number
import Federation.StringMap

/-!
# JSON values

A `Json` is a JSON value.  The members of an object are a list: records are written
with their fields in the order they declare them, while an object that has been read
as a value has its members in ascending order of name, each name once
(`Json.ofMembers`).
-/

namespace Federation

/-- A JSON value. -/
inductive Json where
  /-- The null value. -/
  | null
  /-- A truth value. -/
  | bool (b : Bool)
  /-- A number. -/
  | number (n : Json.Number)
  /-- A text. -/
  | string (s : String)
  /-- A list of values. -/
  | array (items : List Json)
  /-- Named values. -/
  | object (members : List (String × Json))
deriving Inhabited

namespace Json

/-! ### Equality -/

mutual

/-- Whether two values are the same. -/
def same : Json → Json → Bool
  | .null, .null => true
  | .bool a, .bool b => a == b
  | .number a, .number b => a == b
  | .string a, .string b => a == b
  | .array a, .array b => sameItems a b
  | .object a, .object b => sameMembers a b
  | _, _ => false

/-- Whether two lists of values are the same. -/
def sameItems : List Json → List Json → Bool
  | [], [] => true
  | a :: as, b :: bs => same a b && sameItems as bs
  | _, _ => false

/-- Whether two lists of members are the same. -/
def sameMembers : List (String × Json) → List (String × Json) → Bool
  | [], [] => true
  | (k, a) :: as, (l, b) :: bs => k == l && same a b && sameMembers as bs
  | _, _ => false

end

mutual

theorem same_iff : ∀ a b : Json,
  same a b = true ↔ a = b
  | .null, b => by cases b <;> simp [same]
  | .bool _, b => by cases b <;> simp [same]
  | .number _, b => by cases b <;> simp [same]
  | .string _, b => by cases b <;> simp [same]
  | .array a, .array b => by simp [same, sameItems_iff a b]
  | .array _, .null | .array _, .bool _ | .array _, .number _ | .array _, .string _
  | .array _, .object _ => by simp [same]
  | .object a, .object b => by simp [same, sameMembers_iff a b]
  | .object _, .null | .object _, .bool _ | .object _, .number _ | .object _, .string _
  | .object _, .array _ => by simp [same]

theorem sameItems_iff : ∀ a b : List Json,
  sameItems a b = true ↔ a = b
  | [], b => by cases b <;> simp [sameItems]
  | _ :: _, [] => by simp [sameItems]
  | a :: as, b :: bs => by simp [sameItems, same_iff a b, sameItems_iff as bs]

theorem sameMembers_iff : ∀ a b : List (String × Json),
  sameMembers a b = true ↔ a = b
  | [], b => by cases b <;> simp [sameMembers]
  | _ :: _, [] => by simp [sameMembers]
  | (k, a) :: as, (l, b) :: bs => by
    simp [sameMembers, same_iff a b, sameMembers_iff as bs]

end

instance : DecidableEq Json := fun a b => decidable_of_iff _ (same_iff a b)

/-! ### Shapes -/

/-- The object of a map. -/
def ofMap (m : StringMap Json) : Json := .object m.entries

/-- The object of a list of members, a later one in place of an earlier one of the same
name. -/
def ofMembers (members : List (String × Json)) : Json := ofMap (StringMap.ofList members)

/-- The object of a map of texts. -/
def ofTexts (m : StringMap String) : Json := ofMap (m.map .string)

/-- A list of texts. -/
def texts (l : List String) : Json := .array (l.map .string)

/-- A natural number below `2 ^ 64`. -/
def natural (n : UInt64) : Json := .number (.natural n)

/-- A count. -/
def count (n : Nat) : Json := .number (.natural (UInt64.ofNat n))

/-- A value that may be missing, which is written as null. -/
def orNull {α : Type} (f : α → Json) : Option α → Json
  | none => .null
  | some a => f a

/-- The member of an object that is left out when there is no value. -/
def optionalMember {α : Type} (name : String) (f : α → Json) : Option α → List (String × Json)
  | none => []
  | some a => [(name, f a)]

end Json
end Federation
