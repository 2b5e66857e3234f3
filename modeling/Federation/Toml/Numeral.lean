import Federation.Binary64
import Federation.Text.Digits
import Federation.Text.Hex
import Federation.Toml.Basic

/-!
# Numerals of configuration documents

An integer is written in decimal, or after `0x`, `0o` or `0b` in another base; between
two digits there may be an underscore.  A decimal numeral with a fraction or an exponent
is a floating-point number, which must not be too large for a double unless it is
negative.
-/

namespace Federation.Toml

/-- The digits that follow a first one. -/
def moreDigits? (digit? : Char → Option Nat) : List Char → Option (List Nat × List Char)
  | [] => some ([], [])
  | '_' :: rest =>
    match rest with
    | [] => none
    | c :: rest => do
      let d ← digit? c
      let (ds, rest) ← moreDigits? digit? rest
      some (d :: ds, rest)
  | c :: rest =>
    match digit? c with
    | none => some ([], c :: rest)
    | some d => do
      let (ds, rest) ← moreDigits? digit? rest
      some (d :: ds, rest)

/-- One or more digits at the front. -/
def digitRun? (digit? : Char → Option Nat) : List Char → Option (List Nat × List Char)
  | [] => none
  | c :: rest => do
    let d ← digit? c
    let (ds, rest) ← moreDigits? digit? rest
    some (d :: ds, rest)

/-- The digits of a decimal integer at the front; a zero stands alone. -/
def decimalRun? : List Char → Option (List Nat × List Char)
  | '0' :: rest => some ([0], rest)
  | cs => digitRun? Digits.value? cs

/-- A digit of a base up to sixteen. -/
def digitOf? (base : Nat) (c : Char) : Option Nat := (Hex.value? c).filter (· < base)

/-- The integer with some digits, if 64 bits hold it. -/
def integerOf? (base : Nat) (negative : Bool) (ds : List Nat) : Option Toml :=
  let n := ds.foldl (fun n d => base * n + d) 0
  if negative then if n ≤ 9223372036854775808 then some (.integer (-(n : Int))) else none
  else if n < 9223372036854775808 then some (.integer n) else none

/-- Whether `m · 10 ^ e` is too large for a double; the number has so many digits before
the point. -/
def isTooLarge (m : Nat) (e : Int) (digits : Int) : Bool :=
  if m = 0 ∨ digits < 308 then false
  else if 310 < digits then true
  else
    match e with
    | .ofNat k => Binary64.infinity ≤ Binary64.nearest (m * Nat.pow 10 k) 1
    | .negSucc k => Binary64.infinity ≤ Binary64.nearest m (Nat.pow 10 (k + 1))

/-- The fraction part of a numeral at the front, if there is one. -/
def fractionRun? : List Char → Option (List Nat × List Char)
  | '.' :: rest => digitRun? Digits.value? rest
  | cs => some ([], cs)

/-- The exponent part of a numeral at the front, if there is one. -/
def exponentRun? : List Char → Option (Int × List Char)
  | c :: rest =>
    if c = 'e' ∨ c = 'E' then
      let (negative, rest) := match rest with
        | '-' :: rest => (true, rest)
        | '+' :: rest => (false, rest)
        | rest => (false, rest)
      (digitRun? Digits.value? rest).map fun r =>
        let n : Int := Digits.ofDigits r.1
        (if negative then -n else n, r.2)
    else some (0, c :: rest)
  | [] => some (0, [])

/-- The number that a numeral with a fraction or an exponent writes. -/
def floatOf? (negative : Bool) (whole fraction : List Nat) (exponent : Int) : Option Toml :=
  let ds := (whole ++ fraction).dropWhile (· = 0)
  let e := exponent - fraction.length
  if !negative && isTooLarge (Digits.ofDigits ds) e (ds.length + e) then none else some .float

/-- A numeral without its sign at the front. -/
def unsigned? (negative : Bool) (cs : List Char) : Option (Toml × List Char) :=
  match cs with
  | 'i' :: 'n' :: 'f' :: rest => some (.float, rest)
  | 'n' :: 'a' :: 'n' :: rest => some (.float, rest)
  | cs => do
    let (whole, rest) ← decimalRun? cs
    match rest with
    | c :: _ =>
      if c = '.' ∨ c = 'e' ∨ c = 'E' then do
        let (fraction, rest) ← fractionRun? rest
        let (exponent, rest) ← exponentRun? rest
        some (← floatOf? negative whole fraction exponent, rest)
      else some (← integerOf? 10 negative whole, rest)
    | [] => some (← integerOf? 10 negative whole, [])

/-- An integer in a base at the front. -/
def inBase? (base : Nat) (cs : List Char) : Option (Toml × List Char) := do
  let (ds, rest) ← digitRun? (digitOf? base) cs
  some (← integerOf? base false ds, rest)

/-- A numeral at the front. -/
def numeral? : List Char → Option (Toml × List Char)
  | '0' :: 'x' :: rest => inBase? 16 rest
  | '0' :: 'o' :: rest => inBase? 8 rest
  | '0' :: 'b' :: rest => inBase? 2 rest
  | '+' :: rest => unsigned? false rest
  | '-' :: rest => unsigned? true rest
  | cs => unsigned? false cs

end Federation.Toml
