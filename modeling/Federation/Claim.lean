import Federation.Json.Decoder

/-!
# Claims

A claim is a named JSON value that a token carries.  An issuer declares the types of
its claims in a `ClaimSchema`; five standard claims have their types without being
declared.  A bound claim is compared with the text that a scalar value is written as
(`scalarText?`).
-/

namespace Federation

/-- The declared type of a claim. -/
inductive ClaimType where
  | string
  | bool
  | number
  | stringList
deriving DecidableEq, Repr

namespace ClaimType

/-- The types by name. -/
def names : List (String × ClaimType) :=
  [("string", string), ("bool", bool), ("number", number), ("string_list", stringList)]

/-- The name of a type. -/
def name : ClaimType → String
  | string => "string"
  | bool => "bool"
  | number => "number"
  | stringList => "string_list"

/-- Whether a value is a text. -/
def isText : Json → Bool
  | .string _ => true
  | _ => false

/-- Whether a value has the type. -/
def accepts : ClaimType → Json → Bool
  | string, .string _ => true
  | bool, .bool _ => true
  | number, .number _ => true
  | stringList, .array items => items.all isText
  | _, _ => false

/-- Whether the values of the type can be compared with a text. -/
def isScalar : ClaimType → Bool
  | stringList => false
  | _ => true

/-- The JSON form of a type. -/
def toJson (t : ClaimType) : Json := .string t.name

/-- Reads a type given by its name, or as the only member of an object with a value that
stands for nothing. -/
def decoderOf (isNothing : Json.Document → Bool) : Json.Decoder ClaimType :=
  .nameOf isNothing names

/-- Reads a type from its JSON form. -/
def decoder : Json.Decoder ClaimType := decoderOf Json.Decoder.isNull

end ClaimType

/-- The text that a scalar claim value is compared by; lists, objects and null have
none. -/
def scalarText? : Json → Option String
  | .string s => some s
  | .bool true => some "true"
  | .bool false => some "false"
  | .number n => some n.text
  | _ => none

/-- The claims that an issuer declares beside the standard ones. -/
structure ClaimSchema where
  /-- The declared types by claim name. -/
  claims : StringMap ClaimType := {}
deriving DecidableEq

namespace ClaimSchema

/-- The type of a claim that every token carries. -/
def standard? (name : String) : Option ClaimType :=
  if name = "sub" then some .string
  else if name = "iss" then some .string
  else if name = "aud" then some .stringList
  else if name = "exp" then some .number
  else if name = "iat" then some .number
  else none

/-- The type of a claim; a standard claim keeps its type. -/
def claimType? (s : ClaimSchema) (name : String) : Option ClaimType :=
  match standard? name with
  | some t => some t
  | none => s.claims.get? name

/-- Whether a claim has a type. -/
def declares (s : ClaimSchema) (name : String) : Bool := (s.claimType? name).isSome

/-- Declares a claim. -/
def declare (s : ClaimSchema) (name : String) (t : ClaimType) : ClaimSchema :=
  ⟨s.claims.insert name t⟩

/-- The JSON form of a schema. -/
def toJson (s : ClaimSchema) : Json := .ofMap (s.claims.map ClaimType.toJson)

/-- Reads a schema of which the types are read by `d`. -/
def decoderOf (d : Json.Decoder ClaimType) : Json.Decoder ClaimSchema :=
  (Json.Decoder.mapOf d).map ClaimSchema.mk

/-- Reads a schema from its JSON form. -/
def decoder : Json.Decoder ClaimSchema := decoderOf ClaimType.decoder

end ClaimSchema
end Federation
