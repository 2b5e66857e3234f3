import Federation.Binary64

/-!
# The shortest decimal of a double

The decimals that read back as a double form an interval: from halfway to the value
below to halfway to the value above, its ends included when the significand is even.
`Decimal.shortest` finds in it the decimal of fewest digits, and of those the nearest
to the value.  For each number of digits only the two points of that decimal grid next
to the value are tried: if a point of the grid lies in the interval, one of these does.
-/

namespace Federation

/-- A positive decimal `digits · 10 ^ exponent`. -/
structure Decimal where
  /-- The digits, read as a natural number. -/
  digits : Nat
  /-- The power of ten they are scaled by. -/
  exponent : Int
deriving DecidableEq, Repr

namespace Decimal

/-- Four times the value at a position, the ends of its rounding interval, all as
multiples of one power of two, and the exponent of that power. -/
def interval (i : Nat) : Nat × Nat × Nat × Int :=
  let m := Binary64.significand i
  let below := if m = Binary64.binade ∧ 2 * Binary64.binade ≤ i then 4 * m - 1 else 4 * m - 2
  (below, 4 * m, 4 * m + 2, Binary64.exponent i - 2)

/-- The products `a · 2 ^ e` and `b · 10 ^ k` scaled to a common integral unit. -/
def align (a : Nat) (e : Int) (b : Nat) (k : Int) : Nat × Nat :=
  ((a <<< e.toNat) * Nat.pow 10 (-k).toNat, (b * Nat.pow 10 k.toNat) <<< (-e).toNat)

/-- Whether `c · 10 ^ k` lies in the rounding interval of the value at position `i`. -/
def readsBack (i c : Nat) (k : Int) : Bool :=
  let (lo, _, hi, e) := interval i
  let (l, x) := align lo e c k
  let (h, _) := align hi e c k
  if Binary64.significand i % 2 = 0 then l ≤ x && x ≤ h else l < x && x < h

/-- The greatest `k` with `10 ^ k ≤ p / q`, found from an upper bound by steps down. -/
def log10Below (p q : Nat) : Nat → Int → Int
  | 0, k => k
  | fuel + 1, k =>
    if q * Nat.pow 10 k.toNat ≤ p * Nat.pow 10 (-k).toNat then k else log10Below p q fuel (k - 1)

/-- The greatest `k` with `10 ^ k ≤` the value at a position that is not zero. -/
def log10 (i : Nat) : Int :=
  let (p, q) := Binary64.quotient i
  let start : Int := (Binary64.log2Quotient p q + 1) * 30103 / 100000 + 1
  log10Below p q 8 start

/-- The point of the grid of `10 ^ k` that reads back, the nearer one if both
neighbours of the value do, and of two equally near the even one. -/
def gridPoint? (i : Nat) (k : Int) : Option Nat :=
  let (_, mid, _, e) := interval i
  let (v, unit) := align mid e 1 k
  let c := v / unit
  let r := v % unit
  match readsBack i c k && c != 0, readsBack i (c + 1) k with
  | true, true => some (if 2 * r < unit ∨ (2 * r = unit ∧ c % 2 = 0) then c else c + 1)
  | true, false => some c
  | false, true => some (c + 1)
  | false, false => none

/-- The first grid with a point that reads back, from `10 ^ k` on down. -/
def search (i : Nat) : Nat → Int → Decimal
  | 0, k => ⟨0, k⟩
  | fuel + 1, k =>
    match gridPoint? i k with
    | some c => ⟨c, k⟩
    | none => search i fuel (k - 1)

/-- The shortest decimal that reads back as the value at a position that is not
zero. -/
def shortest (i : Nat) : Decimal := search i 18 (log10 i)

end Decimal
end Federation
