import Federation.Text.Utf8

/-!
# Base64 in the alphabet for URLs

Three bytes are written as four characters of an alphabet of sixty-four, without
padding at the end.  `Base64Url.decode?` reads what `encode` writes and nothing else:
bits of the last character that belong to no byte have to be zero.
-/

namespace Federation.Base64Url

/-- The character of a value below sixty-four. -/
def toChar (n : Nat) : Char :=
  if n < 26 then Char.ofNat (65 + n)
  else if n < 52 then Char.ofNat (97 + (n - 26))
  else if n < 62 then Char.ofNat (48 + (n - 52))
  else if n = 62 then '-'
  else '_'

/-- The value of a character. -/
def value? (c : Char) : Option Nat :=
  if 'A' ≤ c ∧ c ≤ 'Z' then some (c.toNat - 65)
  else if 'a' ≤ c ∧ c ≤ 'z' then some (c.toNat - 97 + 26)
  else if '0' ≤ c ∧ c ≤ '9' then some (c.toNat - 48 + 52)
  else if c = '-' then some 62
  else if c = '_' then some 63
  else none

/-- The characters of bytes. -/
def encodeChars : Bytes → List Char
  | [] => []
  | [a] =>
    let n := a.toNat
    [toChar (n / 4), toChar (n % 4 * 16)]
  | [a, b] =>
    let n := a.toNat * 256 + b.toNat
    [toChar (n / 1024), toChar (n / 16 % 64), toChar (n % 16 * 4)]
  | a :: b :: c :: rest =>
    let n := (a.toNat * 256 + b.toNat) * 256 + c.toNat
    toChar (n / 262144) :: toChar (n / 4096 % 64) :: toChar (n / 64 % 64) :: toChar (n % 64)
      :: encodeChars rest

/-- The text of bytes. -/
def encode (bytes : Bytes) : String := String.ofList (encodeChars bytes)

/-- The bytes of values below sixty-four. -/
def ofValues? : List Nat → Option Bytes
  | [] => some []
  | [_] => none
  | [a, b] => if b % 16 = 0 then some [UInt8.ofNat (a * 4 + b / 16)] else none
  | [a, b, c] =>
    let n := (a * 64 + b) * 64 + c
    if c % 4 = 0 then some [UInt8.ofNat (n / 1024), UInt8.ofNat (n / 4 % 256)] else none
  | a :: b :: c :: d :: rest =>
    let n := ((a * 64 + b) * 64 + c) * 64 + d
    (ofValues? rest).map fun bytes =>
      UInt8.ofNat (n / 65536) :: UInt8.ofNat (n / 256 % 256) :: UInt8.ofNat (n % 256) :: bytes

/-- The bytes of a text. -/
def decode? (cs : List Char) : Option Bytes := (cs.mapM value?).bind ofValues?

end Federation.Base64Url
