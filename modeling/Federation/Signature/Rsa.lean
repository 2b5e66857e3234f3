import Federation.Sha256
import Federation.Signature.Modular

/-!
# RSA signatures

An RSA key is a modulus and an exponent.  A signature of a message is a number below
the modulus whose power with that exponent is the padded digest of the message: the
bytes 0 and 1, as many bytes 255 as there is room for, a byte 0, the fixed description
of the digest, and the SHA-256 digest.

Keys with a modulus of less than 256 or more than 1024 bytes are refused, and so are
even numbers, exponents beyond 33 bits and numbers with a leading byte 0.
-/

namespace Federation.Rsa

/-- A public key, as written. -/
structure PublicKey where
  modulus : Bytes
  exponent : Bytes
deriving DecidableEq

/-- Whether the number that bytes write is odd and does not begin with a byte 0. -/
def isOddMinimal (bytes : Bytes) : Bool :=
  bytes.head?.any (· != 0) && bytes.getLast?.any (·.toNat % 2 = 1)

/-- The greatest number of bits of a modulus. -/
def maxModulusBits : Nat := 8192

/-- Whether a key may be used. -/
def PublicKey.isUsable (k : PublicKey) : Bool :=
  let e := Modular.ofBytes k.exponent
  isOddMinimal k.modulus && 256 ≤ k.modulus.length
    && Modular.ofBytes k.modulus < 1 <<< maxModulusBits
    && isOddMinimal k.exponent && k.exponent.length ≤ 5 && 3 ≤ e && e < 8589934592

/-- The description of a SHA-256 digest that stands in front of it. -/
def digestInfo : Bytes :=
  [0x30, 0x31, 0x30, 0x0d, 0x06, 0x09, 0x60, 0x86, 0x48, 0x01, 0x65, 0x03, 0x04, 0x02, 0x01,
   0x05, 0x00, 0x04, 0x20]

/-- The padded digest of a message, in so many bytes. -/
def paddedDigest (size : Nat) (message : Bytes) : Bytes :=
  let info := digestInfo ++ Sha256.digest message
  0 :: 1 :: List.replicate (size - info.length - 3) 255 ++ 0 :: info

/-- Whether a signature of a message was made with the private half of a key. -/
def verify (k : PublicKey) (message signature : Bytes) : Bool :=
  let n := Modular.ofBytes k.modulus
  let s := Modular.ofBytes signature
  k.isUsable && signature.length = k.modulus.length && s < n
    && Modular.powMod n 33 s (Modular.ofBytes k.exponent)
      = Modular.ofBytes (paddedDigest k.modulus.length message)

end Federation.Rsa
