import Federation.Toml.Numeral
import Federation.Toml.Quoted
import Federation.Toml.Table

/-!
# Lines of configuration documents

A document is a sequence of lines: an entry, a header of a table, a header of a list of
tables, or nothing, each with a comment after it if need be.

A list may stretch over several lines, with comments, and may have a comma after its
last item; a table in braces may do neither.
-/

namespace Federation.Toml

/-- Skips a comment, if there is one, up to the end of its line. -/
def skipComment : List Char → List Char
  | '#' :: rest => rest.dropWhile isPlain
  | cs => cs

/-- Skips the rest of a line without an entry. -/
def endOfLine? (cs : List Char) : Option (List Char) :=
  match skipComment (skipBlanks cs) with
  | [] => some []
  | rest => lineBreak? rest

/-- Skips blanks, comments and line breaks. -/
def skipLines : Nat → List Char → List Char
  | 0, cs => cs
  | fuel + 1, cs =>
    let rest := skipBlanks cs
    match lineBreak? (skipComment rest) with
    | some rest => skipLines fuel rest
    | none => rest

mutual

/-- A value at the front, in which lists and tables may nest so deep. -/
def value? : Nat → Nat → List Char → Option (Toml × List Char)
  | 0, _, _ => none
  | fuel + 1, depth, cs =>
    match cs with
    | 't' :: 'r' :: 'u' :: 'e' :: rest => some (.boolean true, rest)
    | 'f' :: 'a' :: 'l' :: 's' :: 'e' :: rest => some (.boolean false, rest)
    | '[' :: rest =>
      match depth with
      | 0 => none
      | depth + 1 => (items? fuel depth (skipLines rest.length rest)).map fun r => (.array r.1, r.2)
    | '{' :: rest =>
      match depth with
      | 0 => none
      | depth + 1 =>
        match skipBlanks rest with
        | '}' :: rest => some (.table [], rest)
        | rest => do
          let (entries, rest) ← entries? fuel depth rest
          some (← ofLines? entries, rest)
    | c :: rest =>
      if c = '"' ∨ c = '\'' then (quoted? (c :: rest)).map fun r => (.string r.1, r.2)
      else
        match Datetime.read? (c :: rest) with
        | some (d, rest) => some (.datetime d, rest)
        | none => numeral? (c :: rest)
    | [] => none

/-- The items of a list and its closing bracket. -/
def items? : Nat → Nat → List Char → Option (List Toml × List Char)
  | 0, _, _ => none
  | fuel + 1, depth, cs =>
    match cs with
    | ']' :: rest => some ([], rest)
    | cs => do
      let (v, rest) ← value? fuel depth cs
      match skipLines rest.length rest with
      | ',' :: rest => do
        let (vs, rest) ← items? fuel depth (skipLines rest.length rest)
        some (v :: vs, rest)
      | ']' :: rest => some ([v], rest)
      | _ => none

/-- The entries of a table in braces, of which there is at least one, and its closing
brace. -/
def entries? : Nat → Nat → List Char → Option (List (List String × Toml) × List Char)
  | 0, _, _ => none
  | fuel + 1, depth, cs => do
    let (key, rest) ← key? cs
    let (v, rest) ← value? fuel depth (skipBlanks (← mark? '=' rest))
    match skipBlanks rest with
    | ',' :: rest => do
      let (es, rest) ← entries? fuel depth rest
      some ((key, v) :: es, rest)
    | '}' :: rest => some ([(key, v)], rest)
    | _ => none

end

/-- What a line says. -/
inductive Line where
  /-- An entry. -/
  | entry (key : List String) (v : Toml)
  /-- The header of a table. -/
  | table (key : List String)
  /-- The header of an element of a list of tables. -/
  | element (key : List String)

/-- What stands at the beginning of a line that is not blank. -/
def line? (cs : List Char) : Option (Line × List Char) :=
  match cs with
  | '[' :: '[' :: rest => do
    let (key, rest) ← key? rest
    some (.element key, ← mark? ']' (← mark? ']' rest))
  | '[' :: rest => do
    let (key, rest) ← key? rest
    some (.table key, ← mark? ']' rest)
  | cs => do
    let (key, rest) ← key? cs
    let rest := skipBlanks (← mark? '=' rest)
    let (v, rest) ← value? (rest.length + 1) (levelLimit - 1) rest
    some (.entry key v, rest)

/-- The lines of a document. -/
def documentLines? : Nat → List Char → Option (List Line)
  | 0, _ => none
  | fuel + 1, cs =>
    match skipLines cs.length cs with
    | [] => some []
    | '#' :: rest => if (rest.dropWhile isPlain).isEmpty then some [] else none
    | cs => do
      let (line, rest) ← line? cs
      let lines ← documentLines? fuel (← endOfLine? rest)
      some (line :: lines)

end Federation.Toml
