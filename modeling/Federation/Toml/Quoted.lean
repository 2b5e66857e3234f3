import Federation.Text.Hex

/-!
# Quoted texts of configuration documents

A text stands in quotation marks, where a backslash begins an escape, or in apostrophes,
where nothing does.  Three marks make a text of several lines: a line break right after
them does not count, and in quotation marks a backslash at the end of a line skips all
blanks and line breaks that follow.  Before the three marks that end it, such a text may
have one or two marks of its own.
-/

namespace Federation.Toml

/-- Whether a character is a blank within a line. -/
def isBlank (c : Char) : Bool := c = ' ' || c = '\t'

/-- Skips blanks within a line. -/
def skipBlanks (cs : List Char) : List Char := cs.dropWhile isBlank

/-- Whether a character may stand for itself: all but control characters, and tab. -/
def isPlain (c : Char) : Bool := c = '\t' || (32 ≤ c.toNat && c.toNat != 127)

/-- Skips a line break. -/
def lineBreak? : List Char → Option (List Char)
  | '\n' :: rest => some rest
  | '\r' :: '\n' :: rest => some rest
  | _ => none

/-- A character given by so many hexadecimal digits at the front. -/
def hexChar? (width : Nat) (cs : List Char) : Option (Char × List Char) := do
  let ds ← (cs.take width).mapM Hex.value?
  let n := ds.foldl (fun n d => 16 * n + d) 0
  if ds.length = width ∧ n.isValidChar then some (Char.ofNat n, cs.drop width) else none

/-- The character that an escape stands for, after its backslash. -/
def escape? : List Char → Option (Char × List Char)
  | 'b' :: rest => some ('\x08', rest)
  | 'f' :: rest => some ('\x0c', rest)
  | 'n' :: rest => some ('\n', rest)
  | 'r' :: rest => some ('\r', rest)
  | 't' :: rest => some ('\t', rest)
  | '"' :: rest => some ('"', rest)
  | '\\' :: rest => some ('\\', rest)
  | 'u' :: rest => hexChar? 4 rest
  | 'U' :: rest => hexChar? 8 rest
  | _ => none

/-- A text in quotation marks, after the opening one. -/
def basic? : Nat → List Char → Option (List Char × List Char)
  | 0, _ => none
  | fuel + 1, cs =>
    match cs with
    | [] => none
    | '"' :: rest => some ([], rest)
    | '\\' :: rest => do
      let (c, rest) ← escape? rest
      let (text, rest) ← basic? fuel rest
      some (c :: text, rest)
    | c :: rest =>
      if isPlain c then do
        let (text, rest) ← basic? fuel rest
        some (c :: text, rest)
      else none

/-- A text in apostrophes, after the opening one. -/
def literal? : List Char → Option (List Char × List Char)
  | [] => none
  | '\'' :: rest => some ([], rest)
  | c :: rest =>
    if isPlain c then do
      let (text, rest) ← literal? rest
      some (c :: text, rest)
    else none

/-! ### Several lines -/

/-- The number of marks at the front. -/
def markCount (mark : Char) (cs : List Char) : Nat := (cs.takeWhile (· = mark)).length

/-- Skips blanks and line breaks. -/
def skipBlankLines : Nat → List Char → List Char
  | 0, cs => cs
  | fuel + 1, cs =>
    let rest := skipBlanks cs
    match lineBreak? rest with
    | some rest => skipBlankLines fuel rest
    | none => rest

/-- What follows a backslash at the end of a line. -/
def continued? (cs : List Char) : Option (List Char) :=
  (lineBreak? (skipBlanks cs)).map fun rest => skipBlankLines (rest.length + 1) rest

/-- The rest of a text of several lines; `escapes` says whether a backslash begins an
escape. -/
def lines? (mark : Char) (escapes : Bool) : Nat → List Char → Option (List Char × List Char)
  | 0, _ => none
  | fuel + 1, cs =>
    match cs with
    | [] => none
    | c :: rest =>
      if c = mark then
        let n := min (markCount mark cs) 5
        if 3 ≤ n then some (List.replicate (n - 3) mark, cs.drop n)
        else do
          let (text, rest) ← lines? mark escapes fuel rest
          some (c :: text, rest)
      else if c = '\\' ∧ escapes then
        match continued? rest with
        | some rest => lines? mark escapes fuel rest
        | none => do
          let (c, rest) ← escape? rest
          let (text, rest) ← lines? mark escapes fuel rest
          some (c :: text, rest)
      else
        match lineBreak? cs with
        | some rest => do
          let (text, rest) ← lines? mark escapes fuel rest
          some ('\n' :: text, rest)
        | none =>
          if isPlain c then do
            let (text, rest) ← lines? mark escapes fuel rest
            some (c :: text, rest)
          else none

/-- A text of several lines, after the opening marks. -/
def multiline? (mark : Char) (escapes : Bool) (cs : List Char) :
    Option (List Char × List Char) :=
  lines? mark escapes (cs.length + 1) ((lineBreak? cs).getD cs)

/-- A quoted text at the front. -/
def quoted? : List Char → Option (String × List Char)
  | '"' :: '"' :: '"' :: rest => (multiline? '"' true rest).map fun r => (String.ofList r.1, r.2)
  | '"' :: rest => (basic? (rest.length + 1) rest).map fun r => (String.ofList r.1, r.2)
  | '\'' :: '\'' :: '\'' :: rest =>
    (multiline? '\'' false rest).map fun r => (String.ofList r.1, r.2)
  | '\'' :: rest => (literal? rest).map fun r => (String.ofList r.1, r.2)
  | _ => none

/-! ### Keys -/

/-- Whether a character may stand in a key without quotes. -/
def isBare (c : Char) : Bool := c.isAlphanum || c = '-' || c = '_'

/-- A key without points at the front. -/
def simpleKey? : List Char → Option (String × List Char)
  | '"' :: rest => (basic? (rest.length + 1) rest).map fun r => (String.ofList r.1, r.2)
  | '\'' :: rest => (literal? rest).map fun r => (String.ofList r.1, r.2)
  | cs =>
    match cs.takeWhile isBare with
    | [] => none
    | bare => some (String.ofList bare, cs.dropWhile isBare)

/-- The parts of a key at the front, with points between them and blanks around them. -/
def keyParts? : Nat → List Char → Option (List String × List Char)
  | 0, _ => none
  | fuel + 1, cs => do
    let (part, rest) ← simpleKey? (skipBlanks cs)
    match skipBlanks rest with
    | '.' :: rest => do
      let (parts, rest) ← keyParts? fuel rest
      some (part :: parts, rest)
    | rest => some ([part], rest)

/-- How many levels a key or a value may have: fewer than this. -/
def levelLimit : Nat := 80

/-- A key at the front. -/
def key? (cs : List Char) : Option (List String × List Char) := do
  let (parts, rest) ← keyParts? (cs.length + 1) cs
  if parts.length < levelLimit then some (parts, rest) else none

end Federation.Toml
