import Federation.Json.Decoder

/-!
# Token formats

The forms in which a token may be presented, by name.
-/

namespace Federation

/-- A form in which a token is presented. -/
inductive TokenFormat where
  /-- A signed web token. -/
  | jwt
  /-- A JSON object of claims, for trying out. -/
  | sample
deriving DecidableEq, Repr

namespace TokenFormat

/-- The name of a format. -/
def name : TokenFormat → String
  | jwt => "jwt"
  | sample => "sample"

/-- The formats by name. -/
def names : List (String × TokenFormat) := [("jwt", jwt), ("sample", sample)]

/-- A text is the name of no format. -/
structure Unknown where
  text : String

/-- The text of the error. -/
def Unknown.message (e : Unknown) : String := "Unknown token format: " ++ e.text

/-- Reads one of the words for a format, in letters of either case. -/
def parse (text : String) : Except Unknown TokenFormat :=
  let word := text.map Char.toLower
  if word = "jwt" ∨ word = "oidc" then .ok jwt
  else if word = "sample" ∨ word = "json" then .ok sample
  else .error ⟨text⟩

/-- The JSON form of a format. -/
def toJson (f : TokenFormat) : Json := .string f.name

/-- Reads a format from its JSON form. -/
def decoder : Json.Decoder TokenFormat := .name names

end TokenFormat
end Federation
