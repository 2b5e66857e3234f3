import Federation.StringMap
import Federation.Toml.Basic

/-!
# What a document is read as

As it is read, a table has its entries in ascending order of key, whatever their order in
the document.  But a table that begins with a certain key is a stamp: the text under this
key says which date or time the table is read as, and nothing else in it is looked at
(`Toml.stamp?`).  `Toml.resolve?` reads a value in this way, with all that is in it.
-/

namespace Federation.Toml

/-- The key that a stamp begins with. -/
def stampKey : String := "$__toml_private_datetime"

/-- What a table has under the key of a stamp, if it begins with that key. -/
def stamp? : List (String × Toml) → Option Toml
  | [] => none
  | (key, v) :: _ => if key = stampKey then some v else none

/-- The date or time that a stamp is read as. -/
def stampedValue? : Toml → Option Toml
  | string s => (Datetime.ofText? s).map datetime
  | _ => none

/-- The table of some entries, in ascending order of key. -/
def ofEntries (entries : List (String × Toml)) : Toml := .table (StringMap.ofList entries).entries

mutual

/-- What a value is read as. -/
def resolve? : Toml → Option Toml
  | array items => (resolveItems? items).map array
  | table entries =>
    match stamp? entries with
    | some v => stampedValue? v
    | none => (resolveEntries? entries).map ofEntries
  | v => some v

/-- What the items of a list are read as. -/
def resolveItems? : List Toml → Option (List Toml)
  | [] => some []
  | v :: vs => do
    let w ← resolve? v
    let ws ← resolveItems? vs
    some (w :: ws)

/-- What the entries of a table are read as. -/
def resolveEntries? : List (String × Toml) → Option (List (String × Toml))
  | [] => some []
  | (key, v) :: es => do
    let w ← resolve? v
    let ws ← resolveEntries? es
    some ((key, w) :: ws)

end

end Federation.Toml
