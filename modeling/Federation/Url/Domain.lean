import Federation.Text.Split
import Federation.Text.Utf8
import Federation.Url.Punycode

/-!
# Domain names

`Domain.ofBytes?` reads the bytes of a domain name: letters are taken in lower case,
full-width letters and dots as the usual ones, invisible characters are passed over,
and characters that cannot stand in a domain are refused.  A label that begins with
`xn--` must encode a label with characters beyond ASCII.
-/

namespace Federation.Domain

/-- Whether a code point is in one of the ranges. -/
def within (ranges : List (Nat × Nat)) (n : Nat) : Bool :=
  ranges.any fun r => r.1 ≤ n && n ≤ r.2

/-- ASCII characters that cannot stand in a domain, beside the control characters. -/
def forbidden : List Char :=
  [' ', '%', '#', '/', ':', '<', '>', '?', '@', '[', '\\', ']', '^', '|']

/-- Code points that are passed over. -/
def ignored : List (Nat × Nat) :=
  [(0xAD, 0xAD), (0x34F, 0x34F), (0x180B, 0x180D), (0x180F, 0x180F), (0x200B, 0x200B),
    (0x2060, 0x2060), (0x2064, 0x2064), (0xFE00, 0xFE0F), (0xFEFF, 0xFEFF),
    (0x1BCA0, 0x1BCA3), (0xE0100, 0xE01EF)]

/-- Code points beyond ASCII that are refused: controls, blanks, joiners, marks of
direction, private use and points without a character. -/
def refused : List (Nat × Nat) :=
  [(0x80, 0xA0), (0x61C, 0x61C), (0x1680, 0x1680), (0x180E, 0x180E), (0x2000, 0x200A),
    (0x200C, 0x200F), (0x2028, 0x202F), (0x205F, 0x205F), (0x2061, 0x2063), (0x2065, 0x206F),
    (0x2FF0, 0x2FFF), (0x3000, 0x3000), (0xE000, 0xF8FF), (0xFDD0, 0xFDEF), (0xFFF0, 0xFFFF),
    (0x1FFFE, 0x1FFFF), (0xE0000, 0xE00FF), (0xE01F0, 0x10FFFF)]

/-- Code points that join the character before them. -/
def combining : List (Nat × Nat) :=
  [(0x300, 0x36F), (0x483, 0x489), (0x591, 0x5BD), (0x610, 0x61A), (0x64B, 0x65F),
    (0x900, 0x903), (0x93C, 0x93C), (0x93E, 0x94F), (0x1AB0, 0x1ACE), (0x1DC0, 0x1DFF),
    (0x20D0, 0x20F0), (0x302A, 0x302F), (0x3099, 0x309A), (0xFE20, 0xFE2F)]

/-- A character in its usual form. -/
def usual (c : Char) : Char :=
  let n := c.toNat
  if n = 0x3002 ∨ n = 0xFF0E ∨ n = 0xFF61 then '.'
  else if 0xFF01 ≤ n ∧ n ≤ 0xFF5E then Char.ofNat (n - 0xFEE0)
  else c

/-- What a character of a domain is taken as, if it is not refused. -/
def fold? (c : Char) : Option (List Char) :=
  let c := usual c
  let n := c.toNat
  if n < 128 then
    if n ≤ 32 ∨ n = 127 ∨ forbidden.contains c then none else some [c.toLower]
  else if within ignored n then some []
  else if within refused n then none
  else some [c]

/-- Whether a character is beyond ASCII. -/
def isExtended (c : Char) : Bool := 128 ≤ c.toNat

/-- Whether a label may stand in a domain. -/
def isLabel (label : List Char) : Bool :=
  match label with
  | 'x' :: 'n' :: '-' :: '-' :: rest =>
    match Punycode.decode? rest with
    | none => false
    | some cs =>
      cs.any isExtended && cs.all (fun c => fold? c = some [c])
        && !(cs.head?.any fun c => within combining c.toNat)
  | _ => !(label.head?.any fun c => within combining c.toNat)

/-- Reads a domain name. -/
def ofBytes? (bytes : Bytes) : Option (List Char) := do
  let text ← Utf8.decode? bytes
  let cs := (← text.toList.mapM fold?).flatten
  if (Text.splitOn '.' cs).all isLabel then some cs else none

end Federation.Domain
