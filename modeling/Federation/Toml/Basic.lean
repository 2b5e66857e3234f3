import Federation.Json.Document
import Federation.Toml.Datetime

/-!
# Configuration documents

A `Toml` is the value of a configuration document or of a part of it.  As a document is
written, the entries of a table are in the order in which they come; as it is read, they
are in ascending order of key.

A document can be read as a record like a JSON text (`Toml.document`): a date or time
then counts as the text that writes it.
-/

namespace Federation

/-- A value of a configuration document. -/
inductive Toml where
  /-- A text. -/
  | string (s : String)
  | integer (n : Int)
  /-- A floating-point number; no setting is one, so its value is not kept. -/
  | float
  | boolean (b : Bool)
  | datetime (d : Toml.Datetime)
  | array (items : List Toml)
  /-- A table with its entries. -/
  | table (entries : List (String × Toml))
deriving Inhabited

namespace Toml

/-- The number that an integer reads as. -/
def number (n : Int) : Json.Document :=
  match n with
  | .ofNat n => .number (some (.natural (UInt64.ofNat n)))
  | .negSucc n => .number (if h : n < 9223372036854775808 then some (.negative ⟨n, h⟩) else none)

mutual

/-- The document that a value is read as. -/
def document : Toml → Json.Document
  | string s => .string (some s)
  | integer n => number n
  | float => .number (some (.double (Binary64.zero false)))
  | boolean b => .bool b
  | datetime d => .string (some d.text)
  | array items => .array (documents items)
  | table entries => .object (entryDocuments entries)

/-- The documents that the items of a list are read as. -/
def documents : List Toml → List Json.Document
  | [] => []
  | v :: vs => document v :: documents vs

/-- The members that the entries of a table are read as. -/
def entryDocuments : List (String × Toml) → List (Option String × Json.Document)
  | [] => []
  | (key, v) :: es => (some key, document v) :: entryDocuments es

end

mutual

/-- How deep lists and tables nest. -/
def depth : Toml → Nat
  | array items => itemsDepth items + 1
  | table entries => entriesDepth entries + 1
  | _ => 0

/-- How deep the items of a list nest. -/
def itemsDepth : List Toml → Nat
  | [] => 0
  | v :: vs => max (depth v) (itemsDepth vs)

/-- How deep the values of a table nest. -/
def entriesDepth : List (String × Toml) → Nat
  | [] => 0
  | (_, v) :: es => max (depth v) (entriesDepth es)

end

end Toml
end Federation
