/-!
# Templates of names

A template is a text in which the placeholders `environment` and `operation`, each in
braces, stand for the name of an environment and of an operation.  `Template.parse`
reads a text as a list of pieces or finds the first brace that does not open a known
placeholder; `Template.render` writes the pieces out.  The inserted names are not
looked at again.
-/

namespace Federation

namespace Template

/-- A piece of a template. -/
inductive Piece where
  /-- A character that stands for itself. -/
  | char (c : Char)
  /-- The name of the environment. -/
  | environment
  /-- The name of the operation. -/
  | operation
deriving DecidableEq

/-- The placeholder of a name in braces. -/
def placeholder? (name : List Char) : Option Piece :=
  if name = "environment".toList then some .environment
  else if name = "operation".toList then some .operation
  else none

/-- Reads the characters of a template.  Inside braces, `name` holds what stands since
the opening brace, the last character first.  Fails with the text after the first brace
that opens no placeholder, up to the next closing brace. -/
def scan (name : Option (List Char)) : List Char → Except (List Char) (List Piece)
  | [] =>
    match name with
    | none => .ok []
    | some name => .error name.reverse
  | c :: rest =>
    match name with
    | none =>
      if c = '\x7b' then scan (some []) rest
      else (scan none rest).map (.char c :: ·)
    | some name =>
      if c = '\x7d' then
        match placeholder? name.reverse with
        | some piece => (scan none rest).map (piece :: ·)
        | none => .error name.reverse
      else scan (some (c :: name)) rest

end Template

/-- A text with placeholders, as its pieces. -/
structure Template where
  /-- The pieces in order. -/
  pieces : List Template.Piece
deriving DecidableEq

namespace Template

/-- Reads a template; fails with the name of the first placeholder that is not known. -/
def parse (text : String) : Except String Template :=
  match scan none text.toList with
  | .ok pieces => .ok ⟨pieces⟩
  | .error name => .error (String.ofList name)

/-- What a piece stands for. -/
def Piece.render (environment operation : String) : Piece → List Char
  | .char c => [c]
  | .environment => environment.toList
  | .operation => operation.toList

/-- The text of a template for an environment and an operation. -/
def render (t : Template) (environment operation : String) : String :=
  String.ofList (t.pieces.flatMap (Piece.render environment operation))

end Template
end Federation
