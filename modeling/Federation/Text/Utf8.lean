/-!
# UTF-8

`Utf8.encode` writes a string as bytes.  `Utf8.scan` reads bytes as characters; bytes
that begin no character, up to the first one that cannot continue it, make one
unreadable piece.  `Utf8.decode?` refuses such pieces and `Utf8.decodeLossy` replaces
each of them by U+FFFD.
-/

namespace Federation

/-- A sequence of bytes. -/
abbrev Bytes : Type := List UInt8

namespace Utf8

/-- The bytes of a string. -/
def encode (s : String) : Bytes := s.toList.flatMap String.utf8EncodeChar

/-- A character of which some bytes have been read. -/
structure Pending where
  /-- The number of bytes still to come. -/
  need : Nat
  /-- The least byte that may come next. -/
  least : Nat
  /-- The greatest byte that may come next. -/
  greatest : Nat
  /-- The bits read so far. -/
  bits : Nat

/-- What a byte between two characters begins. -/
inductive Lead where
  /-- A character of one byte. -/
  | char (c : Char)
  /-- A character of several bytes. -/
  | pending (p : Pending)
  /-- No character. -/
  | invalid

/-- What a byte between two characters begins. -/
def lead (byte : UInt8) : Lead :=
  let b := byte.toNat
  if b < 0x80 then .char (Char.ofNat b)
  else if b < 0xC2 then .invalid
  else if b < 0xE0 then .pending ⟨1, 0x80, 0xBF, b % 32⟩
  else if b = 0xE0 then .pending ⟨2, 0xA0, 0xBF, 0⟩
  else if b = 0xED then .pending ⟨2, 0x80, 0x9F, 13⟩
  else if b < 0xF0 then .pending ⟨2, 0x80, 0xBF, b % 16⟩
  else if b = 0xF0 then .pending ⟨3, 0x90, 0xBF, 0⟩
  else if b < 0xF4 then .pending ⟨3, 0x80, 0xBF, b % 8⟩
  else if b = 0xF4 then .pending ⟨3, 0x80, 0x8F, 4⟩
  else .invalid

/-- Reads bytes as characters; an unreadable piece is no character. -/
def scan (state : Option Pending) : Bytes → List (Option Char)
  | [] =>
    match state with
    | none => []
    | some _ => [none]
  | byte :: rest =>
    let b := byte.toNat
    let start := match lead byte with
      | .char c => some c :: scan none rest
      | .pending p => scan (some p) rest
      | .invalid => none :: scan none rest
    match state with
    | none => start
    | some p =>
      if p.least ≤ b ∧ b ≤ p.greatest then
        let bits := 64 * p.bits + b % 64
        if p.need ≤ 1 then some (Char.ofNat bits) :: scan none rest
        else scan (some ⟨p.need - 1, 0x80, 0xBF, bits⟩) rest
      else none :: start

/-- Reads bytes that are all readable. -/
def decode? (bytes : Bytes) : Option String := ((scan none bytes).mapM id).map String.ofList

/-- Reads bytes, with U+FFFD for each unreadable piece. -/
def decodeLossy (bytes : Bytes) : String :=
  String.ofList ((scan none bytes).map (·.getD '\uFFFD'))

end Utf8
end Federation
