import Federation.Sha256
import Federation.Signature.Modular

/-!
# Elliptic curve signatures

The curve P-256 is the set of solutions of `y ^ 2 = x ^ 3 - 3 x + b` modulo the prime
`prime`, with a point at infinity; chord and tangent make it a group of the prime order
`order`, which `generator` generates.

A public key is a point.  A signature of a message is a pair `(r, s)` for which the
point that the SHA-256 digest of the message and `r`, both divided by `s`, combine out
of the generator and the public key has a first coordinate congruent to `r`.
-/

namespace Federation.Ecdsa

/-- The number of elements of the field. -/
def prime : Nat := 0xffffffff00000001000000000000000000000000ffffffffffffffffffffffff

/-- The constant of the curve. -/
def curveConstant : Nat := 0x5ac635d8aa3a93e7b3ebbd55769886bc651d06b0cc53b0f63bce3c3e27d2604b

/-- The number of points. -/
def order : Nat := 0xffffffff00000000ffffffffffffffffbce6faada7179e84f3b9cac2fc632551

/-- A point of the curve. -/
inductive Point where
  /-- The point at infinity. -/
  | infinity
  /-- The point with the given coordinates. -/
  | affine (x y : Nat)
deriving DecidableEq

/-- The point that generates the group. -/
def generator : Point :=
  .affine 0x6b17d1f2e12c4247f8bce6e563a440f277037d812deb33a0f4a13945d898c296
    0x4fe342e2fe1a7f9b8ee7eb4a7c0f9e162bce33576b315ececbb6406837bf51f5

/-- The difference modulo the field prime. -/
def sub (a b : Nat) : Nat := (a + (prime - b)) % prime

/-- The inverse modulo a prime of 256 bits: the power with the prime less two. -/
def inverse (p a : Nat) : Nat := Modular.powMod p 256 a (p - 2)

/-- Whether coordinates solve the equation of the curve. -/
def isOnCurve (x y : Nat) : Bool :=
  x < prime && y < prime
    && y * y % prime = (x * x * x + (prime - 3) * x + curveConstant) % prime

/-- The third point on the line through `(x, y)` with a slope and a second first
coordinate, mirrored. -/
def Point.onLine (slope x y x' : Nat) : Point :=
  let x'' := sub (sub (slope * slope % prime) x) x'
  .affine x'' (sub (slope * sub x x'' % prime) y)

/-- The sum of two points. -/
def Point.add : Point → Point → Point
  | .infinity, q => q
  | p, .infinity => p
  | .affine x y, .affine x' y' =>
    if x = x' then
      if y = y' ∧ y ≠ 0 then
        onLine ((3 * x * x + (prime - 3)) * inverse prime (2 * y) % prime) x y x
      else .infinity
    else onLine (sub y' y * inverse prime (sub x' x) % prime) x y x'

/-- The point `u · p + v · q`, for multipliers below `2 ^ bits`; `sum` is `p + q`. -/
def combine (p q sum : Point) : Nat → Nat → Nat → Point
  | 0, _, _ => .infinity
  | bits + 1, u, v =>
    let half := combine p q sum bits (u / 2) (v / 2)
    let double := half.add half
    match u % 2, v % 2 with
    | 0, 0 => double
    | 1, 0 => double.add p
    | 0, _ => double.add q
    | _, _ => double.add sum

/-- A public key: the two coordinates as written. -/
structure PublicKey where
  /-- The first coordinate. -/
  x : Bytes
  /-- The second coordinate. -/
  y : Bytes
deriving DecidableEq

/-- The point of a key: the coordinates take up sixty-four bytes together. -/
def PublicKey.point? (k : PublicKey) : Option Point :=
  let bytes := k.x ++ k.y
  let x := Modular.ofBytes (bytes.take 32)
  let y := Modular.ofBytes (bytes.drop 32)
  if bytes.length = 64 ∧ isOnCurve x y then some (.affine x y) else none

/-- Whether a number may be a half of a signature. -/
def isMultiplier (n : Nat) : Bool := 0 < n && n < order

/-- Whether a signature of a message was made with the private half of a key. -/
def verify (k : PublicKey) (message signature : Bytes) : Bool :=
  let r := Modular.ofBytes (signature.take 32)
  let s := Modular.ofBytes (signature.drop 32)
  match k.point? with
  | none => false
  | some q =>
    if signature.length = 64 ∧ isMultiplier r ∧ isMultiplier s then
      let w := inverse order s
      let u := Modular.ofBytes (Sha256.digest message) * w % order
      let v := r * w % order
      match combine generator q (generator.add q) 256 u v with
      | .infinity => false
      | .affine x _ => x % order = r
    else false

end Federation.Ecdsa
