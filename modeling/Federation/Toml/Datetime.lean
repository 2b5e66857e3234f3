import Federation.Instant
import Federation.Text.Digits

/-!
# Dates and times of configuration documents

A `Toml.Datetime` has a date, a time of day, or both; one with both may say how far it
is from universal time.  `Datetime.read?` reads what stands at the front of a text.  A
space between date and time counts only when a time follows.

`Datetime.ofText?` reads a whole text, and takes a little more: the hour 24, and an offset
of a day, however it is written.
-/

namespace Federation.Toml

/-- A time of day. -/
structure Time where
  hour : Nat
  minute : Nat
  /-- The second, at most 60. -/
  second : Nat
  nanos : Nat
deriving DecidableEq

/-- How far a time is from universal time. -/
inductive Offset where
  | utc
  /-- A number of minutes. -/
  | minutes (m : Int)
deriving DecidableEq

/-- A date, a time of day, or both. -/
inductive Datetime where
  /-- A date. -/
  | date (d : Instant.Date)
  | time (t : Time)
  /-- A date and a time of day. -/
  | both (d : Instant.Date) (t : Time) (offset : Option Offset)
deriving DecidableEq

/-! ### Writing -/

/-- The fraction part of a second, without zeros at its end. -/
def fractionText (nanos : Nat) : List Char :=
  if nanos = 0 then []
  else '.' :: ((Digits.padded 9 nanos).reverse.dropWhile (· = '0')).reverse

/-- The text of a date. -/
def dateText (d : Instant.Date) : List Char :=
  Digits.padded 4 d.year.toNat ++ '-' :: Digits.padded 2 d.month ++ '-' :: Digits.padded 2 d.day

/-- The text of a time of day. -/
def Time.text (t : Time) : List Char :=
  Digits.padded 2 t.hour ++ ':' :: Digits.padded 2 t.minute ++ ':' :: Digits.padded 2 t.second
    ++ fractionText t.nanos

/-- The text of an offset. -/
def Offset.text : Offset → List Char
  | .utc => ['Z']
  | .minutes m =>
    (if m < 0 then '-' else '+') :: Digits.padded 2 (m.natAbs / 60)
      ++ ':' :: Digits.padded 2 (m.natAbs % 60)

/-- The text of a date or time. -/
def Datetime.text : Datetime → String
  | .date d => String.ofList (dateText d)
  | .time t => String.ofList t.text
  | .both d t offset =>
    String.ofList (dateText d ++ 'T' :: t.text ++ (offset.map Offset.text).getD [])

/-! ### Reading -/

/-- A number of exactly `width` digits at the front. -/
def digits? (width : Nat) (cs : List Char) : Option (Nat × List Char) := do
  let ds ← (cs.take width).mapM Digits.value?
  if ds.length = width then some (Digits.ofDigits ds, cs.drop width) else none

/-- Two digits within bounds at the front. -/
def twoDigits? (least greatest : Nat) (cs : List Char) : Option (Nat × List Char) := do
  let (n, rest) ← digits? 2 cs
  if least ≤ n ∧ n ≤ greatest then some (n, rest) else none

/-- Skips a mark. -/
def mark? (c : Char) : List Char → Option (List Char)
  | [] => none
  | d :: rest => if d = c then some rest else none

/-- A date at the front. -/
def date? (cs : List Char) : Option (Instant.Date × List Char) := do
  let (year, rest) ← digits? 4 cs
  let (month, rest) ← twoDigits? 1 12 (← mark? '-' rest)
  let (day, rest) ← twoDigits? 1 (Instant.daysInMonth year month) (← mark? '-' rest)
  some (⟨year, month, day⟩, rest)

/-- The fraction part of a second at the front; digits after the ninth do not count. -/
def fraction? : List Char → Option (Nat × List Char)
  | '.' :: rest =>
    match Digits.span rest with
    | ([], _) => none
    | (ds, rest) =>
      let kept := ds.take 9
      some (Digits.ofDigits kept * Nat.pow 10 (9 - kept.length), rest)
  | cs => some (0, cs)

/-- What the ways to read a date or time differ in. -/
structure Clock where
  /-- The greatest hour of a day. -/
  lastHour : Nat
  /-- The greatest hours and minutes of an offset. -/
  lastOffset : Nat × Nat
  /-- The most minutes of an offset altogether. -/
  offsetLimit : Nat

namespace Clock

/-- How a date or time stands in a document. -/
def strict : Clock := ⟨23, (23, 59), 1439⟩

/-- How a date or time stands in a text of its own. -/
def lenient : Clock := ⟨24, (99, 99), 1440⟩

/-- A time of day at the front. -/
def time? (k : Clock) (cs : List Char) : Option (Time × List Char) := do
  let (hour, rest) ← twoDigits? 0 k.lastHour cs
  let (minute, rest) ← twoDigits? 0 59 (← mark? ':' rest)
  let (second, rest) ← twoDigits? 0 60 (← mark? ':' rest)
  let (nanos, rest) ← fraction? rest
  some (⟨hour, minute, second, nanos⟩, rest)

/-- The minutes of an offset at the front. -/
def offsetMinutes? (k : Clock) (cs : List Char) : Option (Nat × List Char) := do
  let (hours, rest) ← twoDigits? 0 k.lastOffset.1 cs
  let (minutes, rest) ← twoDigits? 0 k.lastOffset.2 (← mark? ':' rest)
  let m := 60 * hours + minutes
  if m ≤ k.offsetLimit then some (m, rest) else none

/-- An offset at the front, if there is one. -/
def offset? (k : Clock) : List Char → Option (Option Offset × List Char)
  | 'Z' :: rest => some (some .utc, rest)
  | 'z' :: rest => some (some .utc, rest)
  | '+' :: rest => do
    let (m, rest) ← k.offsetMinutes? rest
    some (some (.minutes m), rest)
  | '-' :: rest => do
    let (m, rest) ← k.offsetMinutes? rest
    some (some (.minutes (-m)), rest)
  | cs => some (none, cs)

/-- A time of day and an offset after a date. -/
def afterDate? (k : Clock) (cs : List Char) : Option (Time × Option Offset × List Char) := do
  let rest ← mark? 'T' cs <|> mark? 't' cs <|> mark? ' ' cs
  let (t, rest) ← k.time? rest
  let (offset, rest) ← k.offset? rest
  some (t, offset, rest)

/-- A date or time at the front. -/
def datetime? (k : Clock) (cs : List Char) : Option (Datetime × List Char) :=
  match date? cs with
  | some (d, rest) =>
    match k.afterDate? rest with
    | some (t, offset, rest) => some (.both d t offset, rest)
    | none => some (.date d, rest)
  | none => (k.time? cs).map fun r => (.time r.1, r.2)

end Clock

/-- A date or time of a document, at the front. -/
def Datetime.read? : List Char → Option (Datetime × List Char) := Clock.strict.datetime?

/-- The date or time that a text is. -/
def Datetime.ofText? (text : String) : Option Datetime :=
  match Clock.lenient.datetime? text.toList with
  | some (d, []) => some d
  | _ => none

end Federation.Toml
