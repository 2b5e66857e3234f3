/-!
# Punycode

The decoding of RFC 3492: a label in ASCII stands for one in Unicode.  The characters
up to the last hyphen stand for themselves; the digits after it say which characters
are inserted where, each number relative to the one before.
-/

namespace Federation.Punycode

/-- The value of a digit in base 36. -/
def digit? (c : Char) : Option Nat :=
  if 'a' ≤ c ∧ c ≤ 'z' then some (c.toNat - 97)
  else if 'A' ≤ c ∧ c ≤ 'Z' then some (c.toNat - 65)
  else if '0' ≤ c ∧ c ≤ '9' then some (c.toNat - 48 + 26)
  else none

/-- The least digit that goes on at a position. -/
def threshold (k bias : Nat) : Nat :=
  if k ≤ bias then 1 else if bias + 26 ≤ k then 26 else k - bias

/-- Scales a delta down for the next bias. -/
def scaleDown : Nat → Nat → Nat → Nat
  | 0, delta, k => k + 36 * delta / (delta + 38)
  | fuel + 1, delta, k =>
    if 455 < delta then scaleDown fuel (delta / 35) (k + 36) else k + 36 * delta / (delta + 38)

/-- The bias after a delta that inserts into a text which then has `size` characters. -/
def adapt (delta size : Nat) (first : Bool) : Nat :=
  let d := if first then delta / 700 else delta / 2
  scaleDown d (d + d / size) 0

/-- The state between two digits. -/
structure State where
  /-- The characters so far. -/
  out : List Char
  /-- The code point to insert next, at least. -/
  point : Nat := 128
  /-- The position of the last insertion, past it. -/
  start : Nat := 0
  /-- The bias of the number being read. -/
  bias : Nat := 72
  /-- The position that the number being read has come to. -/
  position : Nat := 0
  /-- The weight of the next digit. -/
  weight : Nat := 1
  /-- The place of the next digit. -/
  place : Nat := 36

/-- Reads digits and inserts characters. -/
def run (s : State) : List Char → Option (List Char)
  | [] => if s.place = 36 then some s.out else none
  | c :: rest => do
    let d ← digit? c
    let position := s.position + d * s.weight
    let t := threshold s.place s.bias
    if d < t then
      let size := s.out.length + 1
      let point := s.point + position / size
      let i := position % size
      if point < 0xD800 ∨ (0xE000 ≤ point ∧ point < 0x110000) then
        run {
          out := s.out.take i ++ Char.ofNat point :: s.out.drop i
          point := point
          start := i + 1
          bias := adapt (position - s.start) size (s.start = 0)
          position := i + 1 } rest
      else none
    else
      run { s with
        position := position
        weight := s.weight * (36 - t)
        place := s.place + 36 } rest

/-- The label that a text stands for. -/
def decode? (cs : List Char) : Option (List Char) :=
  let tail := (cs.reverse.takeWhile (· ≠ '-')).reverse
  let basic := cs.take (cs.length - tail.length - 1)
  if basic.all (·.toNat < 128) then run { out := basic } tail else none

end Federation.Punycode
