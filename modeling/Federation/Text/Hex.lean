import Federation.Text.Utf8

/-!
# Hexadecimal text of bytes

`Hex.encode` writes two lower-case digits a byte; `Hex.decode?` reads digits of either
case.
-/

namespace Federation.Hex

/-- A hexadecimal digit, in lower case. -/
def digit (n : Nat) : Char := if n < 10 then Char.ofNat (48 + n) else Char.ofNat (87 + n)

/-- The value of a hexadecimal digit. -/
def value? (c : Char) : Option Nat :=
  if '0' ≤ c ∧ c ≤ '9' then some (c.toNat - 48)
  else if 'a' ≤ c ∧ c ≤ 'f' then some (c.toNat - 87)
  else if 'A' ≤ c ∧ c ≤ 'F' then some (c.toNat - 55)
  else none

/-- The two digits of a byte. -/
def byteChars (b : UInt8) : List Char := [digit (b.toNat / 16), digit (b.toNat % 16)]

/-- The digits of bytes. -/
def encode (bytes : Bytes) : String := String.ofList (bytes.flatMap byteChars)

/-- The bytes that digits write, two each. -/
def decode? : List Char → Option Bytes
  | [] => some []
  | a :: b :: rest => do
    let a ← value? a
    let b ← value? b
    let bytes ← decode? rest
    some (UInt8.ofNat (16 * a + b) :: bytes)
  | [_] => none

end Federation.Hex
