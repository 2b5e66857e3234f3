import Federation.Toml.Line
import Federation.Toml.Resolve

/-!
# Reading configuration documents

`Toml.written?` gives a document as it is written: its lines make blocks, each a header with
the entries that follow it, and the blocks add to the tables of the document one after
another.  `Toml.parse?` gives the value that it is read as.
-/

namespace Federation.Toml

/-- What a block begins with. -/
inductive Header where
  /-- The beginning of the document. -/
  | start
  /-- The header of a table. -/
  | table (key : List String)
  /-- The header of an element of a list of tables. -/
  | element (key : List String)

/-- A header and the entries that follow it. -/
structure Block where
  header : Header
  /-- The entries, the latest first. -/
  lines : List (List String × Toml)

/-- Adds a block to the tables of a document. -/
def Block.close (b : Block) (entries : Entries) : Option Entries :=
  match b.header with
  | .start => addAll b.lines.reverse entries
  | .table key => addTable key b.lines.reverse entries
  | .element key => addElement key b.lines.reverse entries

/-- Adds lines to the tables of a document; entries go to the block that was begun
last. -/
def assemble? (b : Block) (entries : Entries) : List Line → Option Entries
  | [] => b.close entries
  | .entry key v :: rest => assemble? ⟨b.header, (key, v) :: b.lines⟩ entries rest
  | .table key :: rest => do assemble? ⟨.table key, []⟩ (← b.close entries) rest
  | .element key :: rest => do assemble? ⟨.element key, []⟩ (← b.close entries) rest

/-- A document as it is written; a mark of the byte order at its beginning does not count. -/
def written? (text : String) : Option Toml := do
  let cs := match text.toList with
    | '\uFEFF' :: rest => rest
    | cs => cs
  let lines ← documentLines? (cs.length + 1) cs
  let entries ← assemble? ⟨.start, []⟩ [] lines
  some (.table (finishEntries entries))

/-- Reads a document. -/
def parse? (text : String) : Option Toml := (written? text).bind resolve?

end Federation.Toml
