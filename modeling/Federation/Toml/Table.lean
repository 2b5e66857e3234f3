import Federation.Toml.Basic

/-!
# Putting tables together

The lines of a document add to its tables one after another.  A `Part` is what stands
under a key so far: a value, a table that may still be added to, or a list of tables of
which the last one may be added to.  `Origin` says how a table came about, which decides
what may still be done with it:

* a table that a header names is complete when its own lines are;
* a table on the way to another one may get a header of its own later;
* a table that a dotted key made may be added to by dotted keys only.

The entries of a table stay in the order in which they came.
-/

namespace Federation.Toml

/-- How a table came about. -/
inductive Origin where
  /-- A header names it. -/
  | header
  /-- The path of a header leads through it. -/
  | path
  /-- A dotted key leads through it. -/
  | dotted
deriving DecidableEq

/-- What stands under a key so far. -/
inductive Part where
  | value (v : Toml)
  | table (origin : Origin) (entries : List (String × Part))
  /-- A list of tables with their entries. -/
  | tables (elements : List (List (String × Part)))

/-- The entries of a table so far, in the order of their lines. -/
abbrev Entries : Type := List (String × Part)

/-- Puts a part under a key, in place of what stands there. -/
def setPart (key : String) (p : Part) : Entries → Entries
  | [] => [(key, p)]
  | (k, q) :: rest => if key = k then (k, p) :: rest else (k, q) :: setPart key p rest

/-- Puts a part under a key at the end of a table. -/
def putLast (key : String) (p : Part) (entries : Entries) : Entries :=
  entries.filter (fun e => e.1 ≠ key) ++ [(key, p)]

/-- Changes the entries of the table that a path leads to, from a table of a given
origin on.  Missing tables on the way are made; the way leads into the last of a list of
tables, but not into a value, and a dotted key does not lead into a table with a
header. -/
def modifyAt (step : Origin) (change : Origin → Entries → Option Entries) :
    List String → Origin → Entries → Option Entries
  | [], origin, entries => change origin entries
  | key :: path, _, entries =>
    match entries.lookup key with
    | none => do
      let inner ← modifyAt step change path step []
      some (setPart key (.table step inner) entries)
    | some (.value _) => none
    | some (.tables elements) => do
      let last ← elements.getLast?
      let inner ← modifyAt step change path .header last
      some (setPart key (.tables (elements.dropLast ++ [inner])) entries)
    | some (.table origin inner) =>
      if step = .dotted ∧ origin = .header then none
      else do
        let inner ← modifyAt step change path origin inner
        some (setPart key (.table origin inner) entries)

/-- Adds an entry to a table; the table must come from dotted keys if and only if the
key of the entry is one. -/
def addEntry (dotted : Bool) (key : String) (v : Toml) (origin : Origin) (entries : Entries) :
    Option Entries :=
  if (origin = .dotted) ≠ dotted ∨ (entries.lookup key).isSome then none
  else some (setPart key (.value v) entries)

/-- Adds an entry under a key that may be dotted. -/
def addKeyed (key : List String) (v : Toml) (entries : Entries) : Option Entries :=
  match key.getLast? with
  | none => none
  | some last =>
    let path := key.dropLast
    modifyAt .dotted (addEntry (!path.isEmpty) last v) path .header entries

/-- Adds several entries. -/
def addAll (lines : List (List String × Toml)) (entries : Entries) : Option Entries :=
  lines.foldlM (fun entries line => addKeyed line.1 line.2 entries) entries

/-- The entries that the table of a header begins with, given what stands under its key. -/
def begun? : Option Part → Option Entries
  | none => some []
  | some (.table .path inner) => some inner
  | some _ => none

/-- The elements that a header adds one to, given what stands under its key. -/
def elements? : Option Part → Option (List Entries)
  | none => some []
  | some (.tables elements) => some elements
  | some _ => none

/-- Puts a table with the given lines under a key of a table.  A table that had no header of
its own yet moves to the place where it gets one. -/
def putTable (key : String) (lines : List (List String × Toml)) (_ : Origin)
    (entries : Entries) : Option Entries := do
  let inner ← addAll lines (← begun? (entries.lookup key))
  some (putLast key (.table .header inner) entries)

/-- Puts a table with the given lines at the end of a list under a key of a table. -/
def putElement (key : String) (lines : List (List String × Toml)) (_ : Origin)
    (entries : Entries) : Option Entries := do
  let elements ← elements? (entries.lookup key)
  let last ← addAll lines []
  some (setPart key (.tables (elements ++ [last])) entries)

/-- Adds the table of a header with its lines. -/
def addTable (header : List String) (lines : List (List String × Toml)) (entries : Entries) :
    Option Entries := do
  modifyAt .path (putTable (← header.getLast?) lines) header.dropLast .header entries

/-- Adds a table with its lines to the list of tables of a header. -/
def addElement (header : List String) (lines : List (List String × Toml)) (entries : Entries) :
    Option Entries := do
  modifyAt .path (putElement (← header.getLast?) lines) header.dropLast .header entries

/-! ### Finished tables -/

mutual

/-- The value that a part stands for. -/
def Part.finish : Part → Toml
  | .value v => v
  | .table _ entries => .table (finishEntries entries)
  | .tables elements => .array (finishElements elements)

/-- The values that entries stand for. -/
def finishEntries : List (String × Part) → List (String × Toml)
  | [] => []
  | (key, p) :: rest => (key, p.finish) :: finishEntries rest

/-- The values that a list of tables stands for. -/
def finishElements : List (List (String × Part)) → List Toml
  | [] => []
  | entries :: rest => .table (finishEntries entries) :: finishElements rest

end

/-- The table of some lines. -/
def ofLines? (lines : List (List String × Toml)) : Option Toml :=
  (addAll lines []).map fun entries => .table (finishEntries entries)

end Federation.Toml
