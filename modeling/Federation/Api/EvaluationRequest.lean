import Federation.Json.Document

/-!
# Requests for an evaluation

The body of a request for an evaluation is read from front to back, and what is wrong
first decides how it is refused: a text that is no JSON is `malformed`, JSON of another
form is `mismatched`.  A list or an object in the place of a text or a number is of
another form as soon as it is opened; a field that is given twice is so before its
value.
-/

namespace Federation

open Json (Document)

/-- What a request for an evaluation asks. -/
structure EvaluationRequest where
  /-- The token. -/
  token : String
  /-- The seconds that a credential is requested for. -/
  requestedTtl : Option UInt64 := none
  /-- The milliseconds that the evaluation may take. -/
  deadlineMillis : Option UInt64 := none
deriving DecidableEq

/-- Why a body is refused. -/
inductive BodyError where
  /-- It is no JSON. -/
  | malformed
  /-- It is JSON of another form. -/
  | mismatched
deriving DecidableEq, Repr

/-- Reads from the front of a text. -/
abbrev Reading : Type → Type := StateT (List Char) (Except BodyError)

namespace Reading

/-! ### Values -/

/-- The next character that is no blank. -/
def peek : Reading (Option Char) := do
  modify Document.skipBlanks
  return (← get).head?

/-- Passes over a character. -/
def skip : Reading Unit := modify List.tail

/-- Passes over the given character, blanks before it included. -/
def expect (c : Char) : Reading Unit := do
  if (← peek) = some c then skip else throw .malformed

/-- Goes on after what was read from the front, if anything was. -/
def continued {α : Type} : Option (α × List Char) → Reading α
  | none => throw .malformed
  | some (a, rest) => do
    set rest
    return a

/-- Any value. -/
def document : Reading Document := do
  let cs ← get
  continued (Document.value? (2 * cs.length + 2) cs)

/-- A value that is neither a list nor an object. -/
def scalar : Reading Document := do
  match ← peek with
  | some '[' | some '{' => throw .mismatched
  | _ =>
    match ← document with
    | .number none | .string none => throw .malformed
    | doc => return doc

/-- A text. -/
def text : Reading String := do
  match ← scalar with
  | .string (some s) => return s
  | _ => throw .mismatched

/-- A natural number or null. -/
def naturalOrNull : Reading (Option UInt64) := do
  match ← scalar with
  | .null => return none
  | .number (some (.natural n)) => return some n
  | _ => throw .mismatched

/-! ### Objects -/

/-- The fields that were given so far. -/
structure Given where
  /-- The token. -/
  token : Option String := none
  /-- The requested seconds. -/
  requestedTtl : Option (Option UInt64) := none
  /-- The milliseconds allowed. -/
  deadlineMillis : Option (Option UInt64) := none

/-- The name of a member. -/
def name : Reading String := do
  expect '"'
  match ← continued (Document.quoted? (← get)) with
  | some s => return s
  | none => throw .malformed

/-- The value of a field that is not to be given twice. -/
def once {α : Type} (given : Option α) (value : Reading α) : Reading α := do
  if given.isSome then throw .mismatched
  expect ':'
  value

/-- A member of an object. -/
def member (g : Given) : Reading Given := do
  match ← name with
  | "token" => return { g with token := some (← once g.token text) }
  | "requested_ttl" =>
    return { g with requestedTtl := some (← once g.requestedTtl naturalOrNull) }
  | "deadline_ms" =>
    return { g with deadlineMillis := some (← once g.deadlineMillis naturalOrNull) }
  | _ => do
    expect ':'
    let _ ← document
    return g

/-- One or more members, up to the closing brace. -/
def members : Nat → Given → Reading Given
  | 0, _ => throw .malformed
  | fuel + 1, g => do
    let g ← member g
    match ← peek with
    | some '}' => return g
    | some ',' => do
      skip
      members fuel g
    | _ => throw .malformed

/-- What an object asks, after its opening brace. -/
def object : Reading EvaluationRequest := do
  let g ← if (← peek) = some '}' then pure {} else members ((← get).length + 1) {}
  match g.token with
  | none => throw .mismatched
  | some token => do
    expect '}'
    return ⟨token, g.requestedTtl.join, g.deadlineMillis.join⟩

/-! ### Lists -/

/-- Whether a list goes on after at least one item; it does not where a bracket closes
it. -/
def another : Reading Bool := do
  match ← peek with
  | some ']' => return false
  | some ',' => do
    skip
    if (← peek) = some ']' then throw .malformed
    return true
  | _ => throw .malformed

/-- What a list asks, after its opening bracket. -/
def list : Reading EvaluationRequest := do
  if (← peek) = some ']' then throw .mismatched
  let token ← text
  let requestedTtl ← if ← another then naturalOrNull else pure none
  let deadlineMillis ← if ← another then naturalOrNull else pure none
  expect ']'
  return ⟨token, requestedTtl, deadlineMillis⟩

/-- What a body asks. -/
def evaluationRequest : Reading EvaluationRequest := do
  match ← peek with
  | some '{' => do
    skip
    object
  | some '[' => do
    skip
    list
  | _ => do
    let _ ← scalar
    throw .mismatched

end Reading

/-- Reads the body of a request for an evaluation. -/
def EvaluationRequest.read (body : String) : Except BodyError EvaluationRequest := do
  let (r, rest) ← Reading.evaluationRequest.run body.toList
  if (Document.skipBlanks rest).isEmpty then return r else throw .malformed

end Federation
