import Federation.Instant
import Federation.Json.Decoder
import Federation.Text.Blank

/-!
# Dates as text

`Instant.text` writes an instant in the format of RFC 3339: universal time with `Z` and
a fraction of no, three, six or nine digits; a year outside 0 to 9999 has a sign.

`Instant.parse?` reads the format in a wider form: the parts may have blanks in front, a
year may have a sign and then any number of digits, months and days may be one digit,
`t` or a space may stand for `T`, the fraction may have any number of digits of which
nine count, and the offset may be `UTC`, `z` or a signed time with a colon or blanks
between hours and minutes.
-/

namespace Federation.Instant

/-! ### Writing -/

/-- The digits of a year; outside 0 to 9999 with a sign. -/
def yearChars (y : Int) : List Char :=
  if 0 ≤ y ∧ y ≤ 9999 then Digits.padded 4 y.toNat
  else if y < 0 then '-' :: Digits.padded 4 y.natAbs
  else '+' :: Digits.padded 4 y.natAbs

/-- The fraction of a second, in thousands as short as it can be. -/
def fractionChars (nanos : Nat) : List Char :=
  if nanos = 0 then []
  else if nanos % 1000000 = 0 then '.' :: Digits.padded 3 (nanos / 1000000)
  else if nanos % 1000 = 0 then '.' :: Digits.padded 6 (nanos / 1000)
  else '.' :: Digits.padded 9 nanos

/-- The characters of an instant. -/
def chars (t : Instant) : List Char :=
  let date := dateOfDays (t.seconds / 86400)
  let time := (t.seconds % 86400).toNat
  let leap := t.nanos / 1000000000
  yearChars date.year ++ '-' :: Digits.padded 2 date.month ++ '-' :: Digits.padded 2 date.day
    ++ 'T' :: Digits.padded 2 (time / 3600) ++ ':' :: Digits.padded 2 (time / 60 % 60)
    ++ ':' :: Digits.padded 2 (time % 60 + leap) ++ fractionChars (t.nanos % 1000000000) ++ ['Z']

/-- The text of an instant. -/
def text (t : Instant) : String := String.ofList t.chars

/-- The text of an instant with a space before the time and the name of the zone. -/
def spaced (t : Instant) : String := String.ofList (t.chars.flatMap fun c =>
  if c = 'T' then [' '] else if c = 'Z' then [' ', 'U', 'T', 'C'] else [c])

/-! ### Reading -/

/-- At least one and at most `width` digits at the front, and what follows them. -/
def digits? (width : Nat) (cs : List Char) : Option (List Nat × List Char) :=
  match Digits.span (cs.take width) with
  | ([], _) => none
  | (ds, _) => some (ds, cs.drop ds.length)

/-- A number of at most `width` digits, blanks in front of it skipped. -/
def number? (width : Nat) (cs : List Char) : Option (Nat × List Char) :=
  (digits? width (Text.trimStart cs)).map fun (ds, rest) => (Digits.ofDigits ds, rest)

/-- A year: four digits at most, or a sign and any number of digits. -/
def year? (cs : List Char) : Option (Int × List Char) :=
  match Text.trimStart cs with
  | '-' :: rest =>
    (digits? rest.length rest).map fun (ds, rest) => (- (Digits.ofDigits ds : Int), rest)
  | '+' :: rest => (digits? rest.length rest).map fun (ds, rest) => (Digits.ofDigits ds, rest)
  | rest => (digits? 4 rest).map fun (ds, rest) => (Digits.ofDigits ds, rest)

/-- A character after blanks. -/
def mark? (c : Char) (cs : List Char) : Option (List Char) :=
  match Text.trimStart cs with
  | d :: rest => if d = c then some rest else none
  | [] => none

/-- The nanoseconds of a fraction, if a point stands in front. -/
def nanos? : List Char → Option (Nat × List Char)
  | '.' :: rest =>
    match Digits.span rest with
    | ([], _) => none
    | (ds, rest) => some (Digits.ofDigits ((ds ++ List.replicate 9 0).take 9), rest)
  | cs => some (0, cs)

/-- Whether a character may separate the hours of an offset from its minutes. -/
def isOffsetGap (c : Char) : Bool := c = ':' || Text.isBlank c

/-- The seconds of an offset without its sign. -/
def offsetSeconds? : List Char → Option (Nat × List Char)
  | a :: b :: rest => do
    let a ← Digits.value? a
    let b ← Digits.value? b
    match rest.dropWhile isOffsetGap with
    | c :: d :: rest =>
      let c ← Digits.value? c
      let d ← Digits.value? d
      if c < 6 then some ((10 * a + b) * 3600 + (10 * c + d) * 60, rest) else none
    | _ => none
  | _ => none

/-- The seconds that local time is ahead of universal time. -/
def offset? : List Char → Option (Int × List Char)
  | 'Z' :: rest => some (0, rest)
  | 'z' :: rest => some (0, rest)
  | '+' :: rest => (offsetSeconds? rest).map fun (n, rest) => (n, rest)
  | '-' :: rest => (offsetSeconds? rest).map fun (n, rest) => (- (n : Int), rest)
  | '−' :: rest => (offsetSeconds? rest).map fun (n, rest) => (- (n : Int), rest)
  | a :: b :: c :: rest =>
    if a.toUpper = 'U' ∧ b.toUpper = 'T' ∧ c.toUpper = 'C' then some (0, rest) else none
  | _ => none

/-- The instant at which a local clock with the given offset shows a date and time. -/
def ofLocal? (date : Date) (hour minute second nanos : Nat) (offset : Int) : Option Instant :=
  if 1 ≤ date.month ∧ date.month ≤ 12 ∧ 1 ≤ date.day ∧ date.day ≤ daysInMonth date.year date.month
      ∧ hour < 24 ∧ minute < 60 ∧ second ≤ 60 ∧ offset.natAbs < 86400 then do
    let seconds := daysOfDate date * 86400 + hour * 3600 + minute * 60 + (min second 59 : Nat)
    let nanos := if second = 60 then nanos + 1000000000 else nanos
    let _ ← ofParts? seconds nanos
    ofParts? (seconds - offset) nanos
  else none

/-- Reads the characters of a date and time. -/
def parseChars? (cs : List Char) : Option Instant := do
  let (year, cs) ← year? cs
  let cs ← mark? '-' cs
  let (month, cs) ← number? 2 cs
  let cs ← mark? '-' cs
  let (day, cs) ← number? 2 cs
  let cs ← match cs with
    | c :: rest => if c = 'T' ∨ c = 't' ∨ c = ' ' then some rest else none
    | [] => none
  let (hour, cs) ← number? 2 cs
  let cs ← mark? ':' cs
  let (minute, cs) ← number? 2 cs
  let cs ← mark? ':' cs
  let (second, cs) ← number? 2 cs
  let (nanos, cs) ← nanos? cs
  let (offset, cs) ← offset? (Text.trimStart cs)
  if cs.all Text.isBlank then ofLocal? ⟨year, month, day⟩ hour minute second nanos offset else none

/-- Reads a date and time. -/
def parse? (text : String) : Option Instant := parseChars? text.toList

/-- The JSON form of an instant. -/
def toJson (t : Instant) : Json := .string t.text

/-- Reads an instant from its JSON form. -/
def decoder : Json.Decoder Instant := Json.Decoder.text.filterMap parse?

end Federation.Instant
