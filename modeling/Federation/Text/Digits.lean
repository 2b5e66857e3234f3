/-!
# Decimal digits

The decimal numeral of a natural number as characters, and the number that a list of
digit values writes.
-/

namespace Federation.Digits

/-- The character of a digit value below ten. -/
def toChar (d : Nat) : Char := Char.ofNat (48 + d)

/-- The value of a decimal digit. -/
def value? (c : Char) : Option Nat :=
  if '0' ≤ c ∧ c ≤ '9' then some (c.toNat - 48) else none

/-- Whether `c` is a decimal digit. -/
def isDigit (c : Char) : Bool := (value? c).isSome

/-- The numeral of `n` in front of `rest`, by repeated division. -/
def prependNumeral : Nat → Nat → List Char → List Char
  | 0, _, rest => rest
  | fuel + 1, n, rest =>
    if n < 10 then toChar n :: rest
    else prependNumeral fuel (n / 10) (toChar (n % 10) :: rest)

/-- The decimal numeral of `n`, without leading zeros. -/
def numeral (n : Nat) : List Char := prependNumeral (n.log2 + 1) n []

/-- The decimal numeral of `n` as a string. -/
def text (n : Nat) : String := String.ofList (numeral n)

/-- The decimal numeral of an integer. -/
def integerNumeral : Int → List Char
  | .ofNat n => numeral n
  | .negSucc n => '-' :: numeral (n + 1)

/-- The numeral of `n` with zeros in front up to `width` characters. -/
def padded (width n : Nat) : List Char :=
  let cs := numeral n
  List.replicate (width - cs.length) '0' ++ cs

/-- The number that digit values write, most significant first. -/
def ofDigits (ds : List Nat) : Nat := ds.foldl (fun n d => 10 * n + d) 0

/-- The longest run of digits at the front, as values, and what follows it. -/
def span : List Char → List Nat × List Char
  | [] => ([], [])
  | c :: rest =>
    match value? c with
    | some d => let (ds, after) := span rest; (d :: ds, after)
    | none => ([], c :: rest)

/-- The number that a text of one or more digits writes. -/
def natural? (cs : List Char) : Option Nat :=
  match span cs with
  | (d :: ds, []) => some (ofDigits (d :: ds))
  | _ => none

end Federation.Digits
