import Federation.Json.Decoder

/-!
# Policies

A `Policy` is a name for a list of rules, each of which allows some actions on a path.
What the rules allow is not looked at here: a binding refers to a policy by name, and a
`PolicyStore` holds the policies of one configuration, none of them without rules.
-/

namespace Federation

/-- What may be done on a path. -/
structure CapabilityRule where
  /-- The path, or the beginning of paths. -/
  path : String
  /-- The actions that are allowed. -/
  capabilities : List String
deriving DecidableEq

/-- A named list of rules. -/
structure Policy where
  /-- The name that bindings refer to. -/
  name : String
  /-- The rules, in order. -/
  rules : List CapabilityRule := []
deriving DecidableEq

namespace CapabilityRule

/-- The JSON form of a rule. -/
def toJson (r : CapabilityRule) : Json :=
  .object [("path", .string r.path), ("capabilities", .texts r.capabilities)]

/-- The names of the members of a rule, in order. -/
def fieldNames : List String := ["path", "capabilities"]

/-- Reads a rule from its JSON form. -/
def decoder : Json.Decoder CapabilityRule := .record fieldNames fun r => do
  let path ← r.required "path" .text
  let capabilities ← r.required "capabilities" (.list .text)
  some ⟨path, capabilities⟩

end CapabilityRule

namespace Policy

/-- The JSON form of a policy. -/
def toJson (p : Policy) : Json :=
  .object [("name", .string p.name), ("rules", .array (p.rules.map CapabilityRule.toJson))]

/-- The names of the members of a policy, in order. -/
def fieldNames : List String := ["name", "rules"]

/-- Reads a policy from its JSON form. -/
def decoder : Json.Decoder Policy := .record fieldNames fun r => do
  let name ← r.required "name" .text
  let rules ← r.defaulted "rules" (.list CapabilityRule.decoder) []
  some ⟨name, rules⟩

end Policy

/-- Why a policy is refused. -/
inductive PolicyError where
  /-- It has no rules. -/
  | empty (name : String)
  /-- Its name is taken. -/
  | duplicate (name : String)
deriving DecidableEq

/-- The text of an error. -/
def PolicyError.message : PolicyError → String
  | .empty name => "Policy '" ++ name ++ "' has no capability rules"
  | .duplicate name => "Duplicate policy: " ++ name

/-- Policies by name. -/
structure PolicyStore where
  policies : StringMap Policy := {}

namespace PolicyStore

/-- The store without a policy. -/
def empty : PolicyStore := {}

/-- Adds a policy with rules and a new name. -/
def insert (s : PolicyStore) (p : Policy) : Except PolicyError PolicyStore :=
  if p.rules.isEmpty then .error (.empty p.name)
  else if s.policies.contains p.name then .error (.duplicate p.name)
  else .ok ⟨s.policies.insert p.name p⟩

/-- The policy with a name. -/
def get? (s : PolicyStore) (name : String) : Option Policy := s.policies.get? name

/-- Whether there is a policy with a name. -/
def contains (s : PolicyStore) (name : String) : Bool := s.policies.contains name

/-- The names, ascending. -/
def names (s : PolicyStore) : List String := s.policies.keys

/-- The number of policies. -/
def size (s : PolicyStore) : Nat := s.policies.size

/-- Whether there is no policy. -/
def isEmpty (s : PolicyStore) : Bool := s.policies.isEmpty

end PolicyStore
end Federation
