/-!
# Finite doubles

A `Binary64` is a finite number of the IEEE 754 double format: a sign and a magnitude,
the magnitude being the position of its absolute value among all non-negative finite
values in ascending order, zero first.  The value at position `i` is
`significand i · 2 ^ exponent i`.

`nearest p q` is the position of the value nearest to `p / q`, a tie going to the even
significand; it is past the last finite position when `p / q` rounds to infinity.
Multiplication and division are exact arithmetic followed by `nearest`.
-/

namespace Federation

/-- The number of values with one exponent, which is `2 ^ 52`. -/
def Binary64.binade : Nat := 4503599627370496

/-- The number of finite non-negative values: the position that stands for infinity. -/
def Binary64.infinity : Nat := 2047 * binade

/-- A finite double: its sign and the position of its absolute value. -/
structure Binary64 where
  /-- Whether the sign is minus. -/
  negative : Bool
  /-- The position of the absolute value among the non-negative finite values. -/
  magnitude : Fin Binary64.infinity
deriving DecidableEq

namespace Binary64

/-- The significand of the value at a position. -/
def significand (i : Nat) : Nat := if i < binade then i else binade + i % binade

/-- The binary exponent of the value at a position. -/
def exponent (i : Nat) : Int := if i < binade then -1074 else (i / binade : Nat) - 1075

/-- The quotient `p / q` scaled by `2 ^ (-s)`, as numerator and denominator. -/
def scale (p q : Nat) (s : Int) : Nat × Nat :=
  if 0 ≤ s then (p, q <<< s.toNat) else (p <<< (-s).toNat, q)

/-- The integer nearest to `p / q`, a tie going to the even one. -/
def roundHalfEven (p q : Nat) : Nat :=
  let n := p / q
  let r := p % q
  if 2 * r < q then n
  else if q < 2 * r then n + 1
  else if n % 2 = 0 then n else n + 1

/-- The greatest `e` with `2 ^ e ≤ p / q`, for positive `p` and `q`. -/
def log2Quotient (p q : Nat) : Int :=
  let e : Int := (p.log2 : Int) - q.log2
  let (a, b) := scale p q e
  if b ≤ a then e else e - 1

/-- The position of the value nearest to `p / q`, at least `infinity` if that is
infinite. -/
def nearest (p q : Nat) : Nat :=
  if p = 0 then 0
  else
    let s := max (log2Quotient p q - 52) (-1074)
    let (a, b) := scale p q s
    (s + 1074).toNat * binade + roundHalfEven a b

/-- The double of the given sign nearest to `p / q`, unless that is infinite. -/
def ofQuotient? (negative : Bool) (p q : Nat) : Option Binary64 :=
  let i := nearest p q
  if h : i < infinity then some ⟨negative, ⟨i, h⟩⟩ else none

/-- Zero, of the given sign. -/
def zero (negative : Bool) : Binary64 := ⟨negative, ⟨0, by decide⟩⟩

/-- The absolute value at a position, as numerator and denominator. -/
def quotient (i : Nat) : Nat × Nat :=
  let e := exponent i
  if 0 ≤ e then (significand i <<< e.toNat, 1) else (significand i, 1 <<< (-e).toNat)

/-- The position nearest to the product of two values. -/
def mul (i j : Nat) : Nat :=
  let (a, b) := quotient i
  let (c, d) := quotient j
  nearest (a * c) (b * d)

/-- The position nearest to the quotient of two values, the second one not zero. -/
def div (i j : Nat) : Nat :=
  let (a, b) := quotient i
  let (c, d) := quotient j
  nearest (a * d) (b * c)

/-- The natural number nearest to the absolute value, a half going up. -/
def roundHalfUp (x : Binary64) : Nat :=
  let (a, b) := quotient x.magnitude
  (2 * a + b) / (2 * b)

end Binary64
end Federation
