import Federation.Json.Document
import Federation.StringSet

/-!
# Reading typed values from JSON

A `Decoder α` reads a value of type `α` from a document that may nest a given number
of levels.  A record is read by `Decoder.record`: its fields are given by name, where
names that the record does not declare are passed over unread, or as a list in the
order of declaration; a declared name may be given once.  A union whose alternatives
are told apart by a member is read by `Decoder.tagged`, a union of plain names by
`Decoder.name`.
-/

namespace Federation.Json

/-- Reads a value from a document that may nest the given number of levels. -/
def Decoder (α : Type) : Type := Nat → Document → Option α

namespace Decoder

variable {α β : Type}

/-- Reads a document as a whole. -/
def run (d : Decoder α) (doc : Document) : Option α := d Document.maxDepth doc

/-- Reads a text. -/
def ofText? (d : Decoder α) (text : String) : Option α := (Document.parse? text).bind d.run

/-- Reads a text given in bytes. -/
def ofBytes? (d : Decoder α) (bytes : Bytes) : Option α :=
  (Document.parseBytes? bytes).bind d.run

/-- Reads a value that is there already. -/
def ofJson? (d : Decoder α) (j : Json) : Option α := d.run j.document

/-- Applies a function that may fail to what is read. -/
def filterMap (d : Decoder α) (f : α → Option β) : Decoder β := fun depth doc =>
  (d depth doc).bind f

/-- Applies a function to what is read. -/
def map (f : α → β) (d : Decoder α) : Decoder β := fun depth doc => (d depth doc).map f

/-- Any value. -/
def json : Decoder Json := Document.toJson?

/-- A text. -/
def text : Decoder String
  | _, .string s => s
  | _, _ => none

/-- A truth value. -/
def bool : Decoder Bool
  | _, .bool b => some b
  | _, _ => none

/-- A natural number below `2 ^ 64`. -/
def natural : Decoder UInt64
  | _, .number (some (.natural n)) => some n
  | _, _ => none

/-- An integer that fits 64 bits with a sign. -/
def integer : Decoder Int
  | _, .number (some (.natural n)) => if n.toNat < 9223372036854775808 then some n.toNat else none
  | _, .number (some (.negative n)) => some (Int.negSucc n.val)
  | _, _ => none

/-- Null or a value. -/
def orNull (d : Decoder α) : Decoder (Option α)
  | _, .null => some none
  | depth, doc => (d depth doc).map some

/-- A list. -/
def list (d : Decoder α) : Decoder (List α)
  | depth + 1, .array items => items.mapM (d depth)
  | _, _ => none

/-- A list of two different things. -/
def pair (d : Decoder α) (e : Decoder β) : Decoder (α × β)
  | depth + 1, .array [a, b] => do
    let a ← d depth a
    let b ← e depth b
    some (a, b)
  | _, _ => none

/-- A set of texts, given as a list. -/
def set : Decoder StringSet := (list text).map StringSet.ofList

/-- A member of a map. -/
def entry (d : Decoder α) (depth : Nat) (member : Option String × Document) :
    Option (String × α) := do
  let key ← member.1
  let a ← d depth member.2
  some (key, a)

/-- A map; of several members of one name the last one counts. -/
def mapOf (d : Decoder α) : Decoder (StringMap α)
  | depth + 1, .object members => (members.mapM (entry d depth)).map StringMap.ofList
  | _, _ => none

/-! ### Records -/

/-- The fields of a record that a document gives. -/
structure Fields where
  /-- Whether they are given as a list. -/
  positional : Bool
  /-- How many levels they may nest. -/
  depth : Nat
  /-- The fields by name. -/
  given : StringMap Document

/-- Collects the members whose names are declared; one that is given twice or a name
that cannot be read is refused, and with `closed` so is a name that is not declared. -/
def collect? (closed : Bool) (names : List String) :
    StringMap Document → List (Option String × Document) → Option (StringMap Document)
  | given, [] => some given
  | _, (none, _) :: _ => none
  | given, (some key, doc) :: rest =>
    if names.contains key then
      if given.contains key then none
      else collect? closed names (given.insert key doc) rest
    else if closed then none
    else collect? closed names given rest

/-- The fields of a record with the declared names. -/
def fields? (closed : Bool) (names : List String) : Nat → Document → Option Fields
  | depth + 1, .object members => (collect? closed names {} members).map (⟨false, depth, ·⟩)
  | depth + 1, .array items =>
    if items.length ≤ names.length then
      some ⟨true, depth, StringMap.ofList (names.zip items)⟩
    else none
  | _, _ => none

namespace Fields

variable (r : Fields)

/-- A field that has to be given. -/
def required (name : String) (d : Decoder α) : Option α := (r.given.get? name).bind (d r.depth)

/-- A field with a value that stands for it when it is not given. -/
def defaulted (name : String) (d : Decoder α) (a : α) : Option α :=
  match r.given.get? name with
  | none => some a
  | some doc => d r.depth doc

/-- A field that may be null or not given at all. -/
def optional (name : String) (d : Decoder α) : Option (Option α) :=
  r.defaulted name (orNull d) none

/-- A field that may be null; among named fields it need not be given. -/
def nullable (name : String) (d : Decoder α) : Option (Option α) :=
  if r.positional then r.required name (orNull d) else r.optional name d

end Fields

/-- A record with the declared names. -/
def record (names : List String) (read : Fields → Option α) : Decoder α := fun depth doc =>
  (fields? false names depth doc).bind read

/-- A record that refuses names other than the declared ones. -/
def closedRecord (names : List String) (read : Fields → Option α) : Decoder α :=
  fun depth doc => (fields? true names depth doc).bind read

/-! ### Unions -/

/-- One of the listed names, as a text or as the only member of an object, with a value
that stands for nothing. -/
def nameOf (isNothing : Document → Bool) (values : List (String × α)) : Decoder α
  | _, .string (some s) => values.lookup s
  | _ + 1, .object [(some s, doc)] => if isNothing doc then values.lookup s else none
  | _, _ => none

/-- Whether a document is null. -/
def isNull : Document → Bool
  | .null => true
  | _ => false

/-- Whether a document is null or an object without members. -/
def isUnit : Document → Bool
  | .null => true
  | .object [] => true
  | _ => false

/-- One of the listed names, as a text or as the only member of an object, with null. -/
def name (values : List (String × α)) : Decoder α := nameOf isNull values

/-- Takes the members of one name out of a list of members. -/
def splitTag (tag : String) :
    List (Option String × Document) → List Document × List (Option String × Document)
  | [] => ([], [])
  | (key, doc) :: rest =>
    let (tags, others) := splitTag tag rest
    if key = some tag then (doc :: tags, others) else (tags, (key, doc) :: others)

/-- A union whose alternatives are told apart by the member `tag`, which is given once;
the other members are the fields of the alternative.  The whole has to be readable.
In list form the tag comes first. -/
def tagged (tag : String) (alternative : String → Decoder α) : Decoder α
  | depth + 1, .object members => do
    let _ ← Document.membersToJson? depth members
    match splitTag tag members with
    | ([.string (some s)], others) => alternative s (depth + 1) (.object others)
    | _ => none
  | depth + 1, .array (.string (some s) :: items) => do
    let _ ← Document.itemsToJson? depth items
    alternative s (depth + 1) (.array items)
  | _, _ => none

end Decoder
end Federation.Json
