/-!
# Media types

A media type has a main type, a subtype and at most one suffix, as in
`application/problem+json; charset=utf-8`.  Its parameters are read for their form
only.  The case of letters does not matter.
-/

namespace Federation

/-- A media type in lower case, without its parameters. -/
structure MediaType where
  /-- What stands before the slash. -/
  main : String
  /-- What stands after it. -/
  subtype : String
  /-- What stands after the last plus sign. -/
  suffix : Option String := none
deriving DecidableEq, Repr

namespace MediaType

/-- Whether a character may stand in a name. -/
def isTokenChar (c : Char) : Bool := c.isAlphanum || "!#$%&'*+-.^_`|~".toList.contains c

/-- Whether a character may stand between quotes. -/
def isQuotedChar (c : Char) : Bool := 32 ≤ c.toNat && c.toNat < 127

/-! ### Parameters -/

/-- Where a reader of parameters stands. -/
inductive ParameterState where
  /-- Before a parameter. -/
  | start
  /-- In its name. -/
  | name
  /-- Before its value. -/
  | equals
  /-- In its value. -/
  | value
  /-- After an opening quote. -/
  | opened
  /-- Between quotes. -/
  | quoted
  /-- After a closing quote. -/
  | closed
deriving DecidableEq, Repr

/-- Reads one character of the parameters.  A quote right after an opening quote does
not close it. -/
def ParameterState.step (s : ParameterState) (c : Char) : Option ParameterState :=
  match s with
  | start => if c = ' ' then some start else if isTokenChar c then some name else none
  | name => if c = '=' then some equals else if isTokenChar c then some name else none
  | equals => if c = '"' then some opened else if isTokenChar c then some value else none
  | value => if c = ';' then some start else if isTokenChar c then some value else none
  | opened => if isQuotedChar c then some quoted else none
  | quoted => if c = '"' then some closed else if isQuotedChar c then some quoted else none
  | closed => if c = ';' then some start else if c = ' ' then some closed else none

/-- Whether the parameters may end here. -/
def ParameterState.isFinal : ParameterState → Bool
  | start | equals | value | closed => true
  | _ => false

/-- Whether a text lists parameters. -/
def areParameters (cs : List Char) : Bool :=
  (cs.foldlM ParameterState.step .start).any ParameterState.isFinal

/-! ### Names -/

/-- Splits a subtype at its last plus sign, unless it begins with that. -/
def splitSuffix (cs : List Char) : String × Option String :=
  let suffix := (cs.reverse.takeWhile (· ≠ '+')).reverse
  let rest := cs.take (cs.length - suffix.length - 1)
  if rest.isEmpty then (String.ofList cs, none)
  else (String.ofList rest, some (String.ofList suffix))

/-- Reads a media type. -/
def parse? (text : String) : Option MediaType :=
  let cs := text.toList.map Char.toLower
  let main := cs.takeWhile isTokenChar
  match cs.drop main.length with
  | '/' :: rest =>
    let name := rest.takeWhile isTokenChar
    let (subtype, suffix) := splitSuffix name
    let m : MediaType := ⟨String.ofList main, subtype, suffix⟩
    if main.isEmpty then none
    else match rest.drop name.length with
      | [] => some m
      | ';' :: parameters => if !name.isEmpty && areParameters parameters then some m else none
      | _ => none
  | _ => none

/-- Whether a media type says that something is JSON. -/
def isJson (m : MediaType) : Bool :=
  m.main = "application" && (m.subtype = "json" || m.suffix = some "json")

end MediaType
end Federation
