import Federation.Json.Basic
import Federation.Text.Hex

/-!
# Writing JSON

`Json.compact` writes a value without blanks, `Json.pretty` one item a line, indented
by two blanks a level, empty lists and objects in one piece.  Of a text the quote, the
backslash and the control characters below U+0020 are escaped, all else stands for
itself.
-/

namespace Federation.Json

/-- A character inside a quoted text. -/
def escapeChar (c : Char) : List Char :=
  if c = '"' then ['\\', '"']
  else if c = '\\' then ['\\', '\\']
  else if c.toNat = 8 then ['\\', 'b']
  else if c.toNat = 12 then ['\\', 'f']
  else if c = '\n' then ['\\', 'n']
  else if c = '\r' then ['\\', 'r']
  else if c = '\t' then ['\\', 't']
  else if c.toNat < 32 then
    ['\\', 'u', '0', '0', Hex.digit (c.toNat / 16), Hex.digit (c.toNat % 16)]
  else [c]

/-- A text in quotes. -/
def quoted (s : String) : List Char := '"' :: s.toList.flatMap escapeChar ++ ['"']

mutual

/-- The characters of a value without blanks. -/
def compactChars : Json → List Char
  | .null => ['n', 'u', 'l', 'l']
  | .bool true => ['t', 'r', 'u', 'e']
  | .bool false => ['f', 'a', 'l', 's', 'e']
  | .number n => n.chars
  | .string s => quoted s
  | .array [] => ['[', ']']
  | .array (a :: as) => '[' :: compactChars a ++ compactItems as
  | .object [] => ['{', '}']
  | .object ((k, a) :: as) => '{' :: quoted k ++ ':' :: compactChars a ++ compactMembers as

/-- The items after the first one, and the closing bracket. -/
def compactItems : List Json → List Char
  | [] => [']']
  | a :: as => ',' :: compactChars a ++ compactItems as

/-- The members after the first one, and the closing brace. -/
def compactMembers : List (String × Json) → List Char
  | [] => ['}']
  | (k, a) :: as => ',' :: quoted k ++ ':' :: compactChars a ++ compactMembers as

end

/-- The text of a value without blanks. -/
def compact (j : Json) : String := String.ofList j.compactChars

/-- A new line with the indentation of a level. -/
def newLine (level : Nat) : List Char := '\n' :: List.replicate (2 * level) ' '

mutual

/-- The characters of a value at a level of indentation, one item a line. -/
def prettyChars (level : Nat) : Json → List Char
  | .array (a :: as) =>
    '[' :: newLine (level + 1) ++ prettyChars (level + 1) a ++ prettyItems level as
  | .object ((k, a) :: as) =>
    '{' :: newLine (level + 1) ++ quoted k ++ ':' :: ' ' :: prettyChars (level + 1) a
      ++ prettyMembers level as
  | .null => compactChars .null
  | .bool b => compactChars (.bool b)
  | .number n => compactChars (.number n)
  | .string s => compactChars (.string s)
  | .array [] => compactChars (.array [])
  | .object [] => compactChars (.object [])

/-- The items after the first one, and the closing bracket. -/
def prettyItems (level : Nat) : List Json → List Char
  | [] => newLine level ++ [']']
  | a :: as => ',' :: newLine (level + 1) ++ prettyChars (level + 1) a ++ prettyItems level as

/-- The members after the first one, and the closing brace. -/
def prettyMembers (level : Nat) : List (String × Json) → List Char
  | [] => newLine level ++ ['}']
  | (k, a) :: as =>
    ',' :: newLine (level + 1) ++ quoted k ++ ':' :: ' ' :: prettyChars (level + 1) a
      ++ prettyMembers level as

end

/-- The text of a value with one item a line. -/
def pretty (j : Json) : String := String.ofList (prettyChars 0 j)

end Federation.Json
