import Federation.Decimal.Shortest
import Federation.Text.Digits

/-!
# Numbers of JSON texts

A number is an integer when its numeral has neither fraction nor exponent and the
value fits 64 bits, signed or unsigned; any other numeral is read as a double.

`Numeral.read?` reads a numeral: the digits that fit 64 bits are taken as an integer,
which is rounded to a double and then multiplied or divided by the double nearest to a
power of ten.  Each step rounds, so the result may differ from the nearest double in
its last bit, and a double need not be what its own numeral reads as.

`Number.text` writes a number: a double in its fewest digits, positional for decimal
exponents from -5 to 15.
-/

namespace Federation.Json

/-- A number: a natural number, a negative integer or a double. -/
inductive Number where
  /-- A natural number below `2 ^ 64`. -/
  | natural (n : UInt64)
  /-- The negative integer `-(n + 1)`, at least `- 2 ^ 63`. -/
  | negative (n : Fin 9223372036854775808)
  /-- A double. -/
  | double (x : Binary64)
deriving DecidableEq

/-- A numeral as written. -/
structure Numeral where
  /-- Whether a minus sign stands in front. -/
  negative : Bool
  /-- The digits before the point. -/
  whole : List Nat
  /-- The digits after the point, if there is one. -/
  fraction : Option (List Nat)
  /-- Whether the exponent, if there is one, is negative, and its digits. -/
  exponent : Option (Bool × List Nat)
deriving DecidableEq

namespace Numeral

/-- Appends digits to `n` while the result is below `2 ^ 64`; the digits left over. -/
def accumulate (n : Nat) : List Nat → Nat × List Nat
  | [] => (n, [])
  | d :: ds => if 10 * n + d < UInt64.size then accumulate (10 * n + d) ds else (n, d :: ds)

/-- The position of the double nearest to `10 ^ k`. -/
def powerOfTen (k : Nat) : Nat := Binary64.nearest (Nat.pow 10 k) 1

/-- Divides the double at position `i` by `10 ^ k`, by `10 ^ 308` at a time. -/
def divideByPower (i : Nat) : Nat → Nat → Nat
  | 0, _ => 0
  | fuel + 1, k =>
    if k ≤ 308 then Binary64.div i (powerOfTen k)
    else if i = 0 then 0
    else divideByPower (Binary64.div i (powerOfTen 308)) fuel (k - 308)

/-- The position of the double that `n · 10 ^ e` is read as. -/
def scaled? (n : Nat) (e : Int) : Option Nat :=
  let i := Binary64.nearest n 1
  match e with
  | .ofNat k =>
    if k ≤ 308 then
      let j := Binary64.mul i (powerOfTen k)
      if j < Binary64.infinity then some j else none
    else if i = 0 then some 0
    else none
  | .negSucc k => some (divideByPower i 4 (k + 1))

/-- The double of the given sign at a position. -/
def double? (negative : Bool) (i : Nat) : Option Number :=
  if h : i < Binary64.infinity then some (.double ⟨negative, ⟨i, h⟩⟩) else none

/-- Reads a numeral; one that is too large for a double cannot be read. -/
def read? (s : Numeral) : Option Number :=
  let (n, left) := accumulate 0 s.whole
  match s.fraction, s.exponent, left with
  | none, none, [] =>
    if s.negative then
      if h : 0 < n ∧ n ≤ 9223372036854775808 then some (.negative ⟨n - 1, by omega⟩)
      else double? true (Binary64.nearest n 1)
    else some (.natural (UInt64.ofNat n))
  | fraction, exponent, _ =>
    let ds := fraction.getD []
    let (m, dropped) := accumulate n ds
    let e : Int := left.length - (ds.length - dropped.length : Nat)
    let i? :=
      match exponent with
      | none => scaled? m e
      | some (minus, es) =>
        let k := Digits.ofDigits es
        if k < 2147483648 then scaled? m (if minus then e - k else e + k)
        else if m ≠ 0 ∧ ¬ minus then none
        else some 0
    i?.bind (double? s.negative)

end Numeral

namespace Number

/-- Decimal exponents written without an exponent part. -/
def positional (k : Int) : Bool := -5 ≤ k && k ≤ 15

/-- A text of digits, without the zeros at its end. -/
def stripZeros (cs : List Char) : List Char := (cs.reverse.dropWhile (· = '0')).reverse

/-- A fraction part, which has at least one digit. -/
def fractionOr0 (cs : List Char) : List Char := if cs.isEmpty then ['0'] else cs

/-- The text of a positive decimal. -/
def decimalChars (d : Decimal) : List Char :=
  let all := Digits.numeral d.digits
  let cs := stripZeros all
  let k : Int := d.exponent + (all.length - 1 : Nat)
  if positional k then
    match k with
    | .ofNat n =>
      let whole := cs.take (n + 1)
      whole ++ List.replicate (n + 1 - whole.length) '0' ++ '.' :: fractionOr0 (cs.drop (n + 1))
    | .negSucc n => '0' :: '.' :: List.replicate n '0' ++ cs
  else
    let mantissa := match cs with
      | c :: rest => if rest.isEmpty then [c] else c :: '.' :: rest
      | [] => []
    mantissa ++ 'e' :: (if 0 ≤ k then '+' :: Digits.integerNumeral k else Digits.integerNumeral k)

/-- The text of a double. -/
def doubleChars (x : Binary64) : List Char :=
  let body := if x.magnitude.val = 0 then ['0', '.', '0']
    else decimalChars (Decimal.shortest x.magnitude)
  if x.negative then '-' :: body else body

/-- The text of a number. -/
def chars : Number → List Char
  | .natural n => Digits.numeral n.toNat
  | .negative n => '-' :: Digits.numeral (n.val + 1)
  | .double x => doubleChars x

/-- The text of a number. -/
def text (n : Number) : String := String.ofList n.chars

end Number
end Federation.Json
