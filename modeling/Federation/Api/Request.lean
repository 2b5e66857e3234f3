import Federation.Api.MediaType

/-!
# Requests

A request names a method and a target, and has headers and a body.
-/

namespace Federation

/-- A request. -/
structure Request where
  /-- What to do. -/
  method : String
  /-- What to do it to. -/
  target : String
  /-- The headers in their order. -/
  headers : List (String × String) := []
  /-- The body. -/
  body : String := ""
deriving DecidableEq, Repr

namespace Request

/-- The path of a request: its target without query and fragment. -/
def path (r : Request) : String :=
  String.ofList (r.target.toList.takeWhile fun c => c ≠ '?' && c ≠ '#')

/-- Whether a character may stand in the value of a header that is read. -/
def isVisible (c : Char) : Bool := c = '\t' || (32 ≤ c.toNat && c.toNat < 127)

/-- The value of the first header of a name, which is given in lower case, if all of it
is visible. -/
def header? (r : Request) (name : String) : Option String :=
  ((r.headers.find? fun h => h.1.map Char.toLower = name).map Prod.snd).filter
    fun value => value.toList.all isVisible

/-- Whether the body is said to be JSON. -/
def saysJson (r : Request) : Bool :=
  ((r.header? "content-type").bind MediaType.parse?).any MediaType.isJson

end Request
end Federation
