import Federation.Json.Basic
import Federation.Text.Hex

/-!
# JSON texts

A `Document` is a JSON text as it is written: the members of an object are in the order
of the text with repetitions kept, and a numeral too large for a double or a text with
an unpaired surrogate is kept as a leaf without a value.  Such leaves matter only where
they are read: a member that nobody asks for may hold them.

`Document.parse?` reads a text.  `Document.toJson?` reads a document as a value, in
which the last of several members of one name counts and which may nest only so deep.
-/

namespace Federation.Json

/-- A JSON text as it is written. -/
inductive Document where
  /-- The null value. -/
  | null
  /-- A truth value. -/
  | bool (b : Bool)
  /-- A number, unless its numeral is too large. -/
  | number (n : Option Number)
  /-- A text, unless it has an unpaired surrogate. -/
  | string (s : Option String)
  /-- The items in brackets. -/
  | array (items : List Document)
  /-- The members in braces. -/
  | object (members : List (Option String × Document))
deriving Inhabited

namespace Document

/-! ### Lexemes -/

/-- Blanks between lexemes: space, tab, line feed and carriage return. -/
def isBlank (c : Char) : Bool := c = ' ' || c = '\t' || c = '\n' || c = '\r'

/-- Skips blanks. -/
def skipBlanks (cs : List Char) : List Char := cs.dropWhile isBlank

/-- A unit of a quoted text: a code point, surrogates included. -/
abbrev CodeUnit := Nat

/-- Four hexadecimal digits at the front. -/
def hexQuad? : List Char → Option (CodeUnit × List Char)
  | a :: b :: c :: d :: rest => do
    let a ← Hex.value? a
    let b ← Hex.value? b
    let c ← Hex.value? c
    let d ← Hex.value? d
    some (((a * 16 + b) * 16 + c) * 16 + d, rest)
  | _ => none

/-- The character that a one-letter escape stands for. -/
def escaped? (c : Char) : Option CodeUnit :=
  if c = '"' ∨ c = '\\' ∨ c = '/' then some c.toNat
  else if c = 'b' then some 8
  else if c = 'f' then some 12
  else if c = 'n' then some 10
  else if c = 'r' then some 13
  else if c = 't' then some 9
  else none

/-- The units of a quoted text up to its closing quote, and what follows it.  A control
character below U+0020 ends the reading. -/
def units? : Nat → List Char → Option (List CodeUnit × List Char)
  | 0, _ => none
  | fuel + 1, cs =>
    match cs with
    | [] => none
    | '"' :: rest => some ([], rest)
    | '\\' :: 'u' :: rest => do
      let (u, rest) ← hexQuad? rest
      let (us, rest) ← units? fuel rest
      some (u :: us, rest)
    | '\\' :: c :: rest => do
      let u ← escaped? c
      let (us, rest) ← units? fuel rest
      some (u :: us, rest)
    | c :: rest =>
      if c.toNat < 32 ∨ c = '\\' then none
      else do
        let (us, rest) ← units? fuel rest
        some (c.toNat :: us, rest)

/-- The text that units write: a high surrogate and the low one after it make one
character; an unpaired surrogate makes no text. -/
def ofUnits? : List CodeUnit → Option (List Char)
  | [] => some []
  | [u] => if 0xD800 ≤ u ∧ u < 0xE000 then none else some [Char.ofNat u]
  | u :: v :: rest =>
    if 0xD800 ≤ u ∧ u < 0xDC00 then
      if 0xDC00 ≤ v ∧ v < 0xE000 then
        (ofUnits? rest).map (Char.ofNat (0x10000 + (u - 0xD800) * 0x400 + (v - 0xDC00)) :: ·)
      else none
    else if 0xDC00 ≤ u ∧ u < 0xE000 then none
    else (ofUnits? (v :: rest)).map (Char.ofNat u :: ·)

/-- A quoted text, after its opening quote. -/
def quoted? (cs : List Char) : Option (Option String × List Char) := do
  let (us, rest) ← units? (cs.length + 1) cs
  some ((ofUnits? us).map String.ofList, rest)

/-- A fraction part at the front, if there is one; a point needs a digit after it. -/
def fraction? : List Char → Option (Option (List Nat) × List Char)
  | '.' :: rest =>
    match Digits.span rest with
    | ([], _) => none
    | (ds, rest) => some (some ds, rest)
  | cs => some (none, cs)

/-- The digits of an exponent, of which there is at least one. -/
def exponentDigits? (minus : Bool) (cs : List Char) :
    Option (Option (Bool × List Nat) × List Char) :=
  match Digits.span cs with
  | ([], _) => none
  | (ds, rest) => some (some (minus, ds), rest)

/-- An exponent part at the front, if there is one. -/
def exponent? : List Char → Option (Option (Bool × List Nat) × List Char)
  | c :: rest =>
    if c = 'e' ∨ c = 'E' then
      match rest with
      | '-' :: rest => exponentDigits? true rest
      | '+' :: rest => exponentDigits? false rest
      | rest => exponentDigits? false rest
    else some (none, c :: rest)
  | [] => some (none, [])

/-- A numeral at the front; its integer part has no leading zero. -/
def numeral? (cs : List Char) : Option (Numeral × List Char) := do
  let (minus, cs) := match cs with
    | '-' :: rest => (true, rest)
    | cs => (false, cs)
  let (whole, rest) ← match Digits.span cs with
    | ([], _) => none
    | (0 :: _ :: _, _) => none
    | (ds, rest) => some (ds, rest)
  let (fraction, rest) ← fraction? rest
  let (exponent, rest) ← exponent? rest
  some (⟨minus, whole, fraction, exponent⟩, rest)

/-! ### Grammar -/

mutual

/-- A value at the front, blanks before it skipped. -/
def value? : Nat → List Char → Option (Document × List Char)
  | 0, _ => none
  | fuel + 1, cs =>
    match skipBlanks cs with
    | 'n' :: 'u' :: 'l' :: 'l' :: rest => some (.null, rest)
    | 't' :: 'r' :: 'u' :: 'e' :: rest => some (.bool true, rest)
    | 'f' :: 'a' :: 'l' :: 's' :: 'e' :: rest => some (.bool false, rest)
    | '"' :: rest => do
      let (s, rest) ← quoted? rest
      some (.string s, rest)
    | '[' :: rest =>
      match skipBlanks rest with
      | ']' :: rest => some (.array [], rest)
      | rest => do
        let (items, rest) ← items? fuel rest
        some (.array items, rest)
    | '{' :: rest =>
      match skipBlanks rest with
      | '}' :: rest => some (.object [], rest)
      | rest => do
        let (members, rest) ← members? fuel rest
        some (.object members, rest)
    | rest => do
      let (n, rest) ← numeral? rest
      some (.number n.read?, rest)

/-- One or more items and the closing bracket. -/
def items? : Nat → List Char → Option (List Document × List Char)
  | 0, _ => none
  | fuel + 1, cs => do
    let (d, rest) ← value? fuel cs
    match skipBlanks rest with
    | ']' :: rest => some ([d], rest)
    | ',' :: rest => do
      let (ds, rest) ← items? fuel rest
      some (d :: ds, rest)
    | _ => none

/-- One or more members and the closing brace. -/
def members? : Nat → List Char → Option (List (Option String × Document) × List Char)
  | 0, _ => none
  | fuel + 1, cs =>
    match skipBlanks cs with
    | '"' :: rest => do
      let (key, rest) ← quoted? rest
      match skipBlanks rest with
      | ':' :: rest => do
        let (d, rest) ← value? fuel rest
        match skipBlanks rest with
        | '}' :: rest => some ([(key, d)], rest)
        | ',' :: rest => do
          let (ms, rest) ← members? fuel rest
          some ((key, d) :: ms, rest)
        | _ => none
      | _ => none
    | _ => none

end

/-- Reads a text that holds one value and nothing else but blanks. -/
def parseChars? (cs : List Char) : Option Document := do
  let (d, rest) ← value? (2 * cs.length + 2) cs
  if (skipBlanks rest).isEmpty then some d else none

/-- Reads a text that holds one value and nothing else but blanks. -/
def parse? (text : String) : Option Document := parseChars? text.toList

/-- A character of a text in bytes.  Bytes that are no character stand for an unpaired
surrogate between two letters: the first keeps a backslash in front of them from being
taken for an escape, the second keeps a surrogate after them from making it a pair. -/
def charOrSurrogate : Option Char → List Char
  | some c => [c]
  | none => ['x', '\\', 'u', 'd', '8', '0', '0', 'x']

/-- Reads a text given in bytes; only quoted texts may have bytes that are no
character. -/
def parseBytes? (bytes : Bytes) : Option Document :=
  parseChars? ((Utf8.scan none bytes).flatMap charOrSurrogate)

/-! ### Reading as a value -/

mutual

/-- Reads a document that nests at most `depth` lists and objects as a value. -/
def toJson? : Nat → Document → Option Json
  | _, .null => some .null
  | _, .bool b => some (.bool b)
  | _, .number n => n.map .number
  | _, .string s => s.map .string
  | 0, .array _ => none
  | depth + 1, .array items => (itemsToJson? depth items).map .array
  | 0, .object _ => none
  | depth + 1, .object members => (membersToJson? depth members).map ofMembers

/-- Reads the items of a list as values. -/
def itemsToJson? : Nat → List Document → Option (List Json)
  | _, [] => some []
  | depth, d :: ds => do
    let j ← toJson? depth d
    let js ← itemsToJson? depth ds
    some (j :: js)

/-- Reads the members of an object as values. -/
def membersToJson? : Nat → List (Option String × Document) → Option (List (String × Json))
  | _, [] => some []
  | depth, (key, d) :: ms => do
    let k ← key
    let j ← toJson? depth d
    let rest ← membersToJson? depth ms
    some ((k, j) :: rest)

end

/-- How deep the lists and objects of a value that is read from a text may nest. -/
def maxDepth : Nat := 127

end Document

/-! ### Values as documents -/

mutual

/-- The document that writes a value. -/
def document : Json → Document
  | .null => .null
  | .bool b => .bool b
  | .number n => .number (some n)
  | .string s => .string (some s)
  | .array items => .array (documents items)
  | .object members => .object (memberDocuments members)

/-- The documents that write the items of a list. -/
def documents : List Json → List Document
  | [] => []
  | a :: as => document a :: documents as

/-- The documents that write the members of an object. -/
def memberDocuments : List (String × Json) → List (Option String × Document)
  | [] => []
  | (k, a) :: as => (some k, document a) :: memberDocuments as

end

/-- Reads a text as a value. -/
def parse? (text : String) : Option Json :=
  (Document.parse? text).bind (Document.toJson? Document.maxDepth)

end Federation.Json
