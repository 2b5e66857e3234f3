import Federation.Text.Digits
import Federation.Text.Hex
import Federation.Url.Domain

/-!
# Hosts

The host of a URL is a name or an address.  An IPv4 address is one to four numbers, of
which the last one fills the remaining bytes, in decimal, octal or hexadecimal; a name
whose last label is a number has to be such an address.  An IPv6 address stands in
brackets: eight groups, of which a run may be left out at one double colon and the last
two may be an IPv4 address in plain decimal.
-/

namespace Federation

/-- What can be wrong with a URL. -/
inductive UrlError where
  | relative
  | emptyHost
  /-- The port is not a number below 65536. -/
  | port
  /-- The host ends in a number but is no IPv4 address. -/
  | ipv4
  /-- The host is in brackets but is no IPv6 address. -/
  | ipv6
  /-- The host is no domain name. -/
  | domain
  /-- The host has a character that cannot stand in a name. -/
  | name
deriving DecidableEq, Repr

/-- The text of an error. -/
def UrlError.message : UrlError → String
  | .relative => "relative URL without a base"
  | .emptyHost => "empty host"
  | .port => "invalid port number"
  | .ipv4 => "invalid IPv4 address"
  | .ipv6 => "invalid IPv6 address"
  | .domain => "invalid international domain name"
  | .name => "invalid domain character"

/-- The host of a URL. -/
inductive Host where
  | name (text : String)
  | ipv4 (address : UInt32)
  /-- An IPv6 address, as eight groups. -/
  | ipv6 (groups : List UInt16)
deriving DecidableEq

namespace Host

/-! ### IPv4 -/

/-- A number with the digits of a base. -/
def numberIn? (base : Nat) (cs : List Char) : Option Nat :=
  cs.foldlM (fun n c => do
    let d ← Hex.value? c
    if d < base then some (base * n + d) else none) 0

/-- A number of an IPv4 address: hexadecimal after `0x`, octal after `0`. -/
def ipv4Number? : List Char → Option Nat
  | [] => none
  | '0' :: 'x' :: rest => numberIn? 16 rest
  | '0' :: 'X' :: rest => numberIn? 16 rest
  | '0' :: rest => numberIn? 8 rest
  | cs => numberIn? 10 cs

/-- The labels of a name, without an empty one at the end. -/
def labels (cs : List Char) : List (List Char) :=
  match (Text.splitOn '.' cs).reverse with
  | [] :: a :: rest => (a :: rest).reverse
  | parts => parts.reverse

/-- Whether the last label of a name is a number. -/
def endsInNumber (cs : List Char) : Bool :=
  match (labels cs).getLast? with
  | none => false
  | some last =>
    (!last.isEmpty && last.all Digits.isDigit) || (ipv4Number? last).isSome

/-- The address of the numbers in front of the last one, and the last one. -/
def ipv4Address? (front : List Nat) (last : Nat) : Option UInt32 :=
  let bound := Nat.pow 256 (4 - front.length)
  if front.length ≤ 3 ∧ front.all (· < 256) ∧ last < bound then
    some (UInt32.ofNat (front.foldl (fun n b => 256 * n + b) 0 * bound + last))
  else none

/-- Reads an IPv4 address. -/
def ipv4? (cs : List Char) : Option UInt32 := do
  let numbers ← (labels cs).mapM ipv4Number?
  let last ← numbers.getLast?
  ipv4Address? numbers.dropLast last

/-! ### IPv6 -/

/-- A group of one to four hexadecimal digits. -/
def group? (cs : List Char) : Option Nat :=
  if cs.isEmpty ∨ 4 < cs.length then none else numberIn? 16 cs

/-- A decimal number below 256 without a leading zero. -/
def octet? (cs : List Char) : Option Nat :=
  match cs with
  | '0' :: _ :: _ => none
  | _ => (Digits.natural? cs).bind fun n => if n < 256 then some n else none

/-- Four decimal numbers with dots between them, as two groups. -/
def dotted? (cs : List Char) : Option (List Nat) := do
  match ← (Text.splitOn '.' cs).mapM octet? with
  | [a, b, c, d] => some [256 * a + b, 256 * c + d]
  | _ => none

/-- Groups of which the last may be an IPv4 address. -/
def lastGroups? : List (List Char) → Option (List Nat)
  | [] => some []
  | [cs] => if cs.contains '.' then dotted? cs else (group? cs).map ([·])
  | cs :: rest => do
    let g ← group? cs
    let gs ← lastGroups? rest
    some (g :: gs)

/-- Groups with colons between them; an empty text has none. -/
def groupsOf (cs : List Char) : List (List Char) :=
  if cs.isEmpty then [] else Text.splitOn ':' cs

/-- The parts of a text before and after its first double colon. -/
def splitGap : List Char → List Char × Option (List Char)
  | [] => ([], none)
  | ':' :: ':' :: rest => ([], some rest)
  | c :: rest => let (before, after) := splitGap rest; (c :: before, after)

/-- Reads an IPv6 address. -/
def ipv6? (cs : List Char) : Option (List UInt16) := do
  let (before, after) := splitGap cs
  let groups ← match after with
    | none => do
      let gs ← lastGroups? (groupsOf before)
      if gs.length = 8 then some gs else none
    | some after => do
      let front ← (groupsOf before).mapM group?
      let back ← lastGroups? (groupsOf after)
      if front.length + back.length ≤ 7 then
        some (front ++ List.replicate (8 - front.length - back.length) 0 ++ back)
      else none
  some (groups.map UInt16.ofNat)

/-- Reads an address in brackets. -/
def bracketed? (cs : List Char) : Except UrlError Host :=
  match cs.reverse with
  | ']' :: rest =>
    match ipv6? rest.reverse with
    | some gs => .ok (.ipv6 gs)
    | none => .error .ipv6
  | _ => .error .ipv6

/-! ### Names -/

/-- The bytes of a text in which a percent sign and two hexadecimal digits stand for a
byte. -/
def percentDecode : List Char → Bytes
  | '%' :: a :: b :: rest =>
    match Hex.value? a, Hex.value? b with
    | some h, some l => UInt8.ofNat (16 * h + l) :: percentDecode rest
    | _, _ => 0x25 :: percentDecode (a :: b :: rest)
  | c :: rest => String.utf8EncodeChar c ++ percentDecode rest
  | [] => []

/-- Reads the host of a scheme whose hosts are domains or addresses. -/
def parse (cs : List Char) : Except UrlError Host :=
  match cs with
  | '[' :: rest => bracketed? rest
  | _ =>
    match Domain.ofBytes? (percentDecode cs) with
    | none => .error .domain
    | some domain =>
      if domain.isEmpty then .error .emptyHost
      else if endsInNumber domain then
        match ipv4? domain with
        | some a => .ok (.ipv4 a)
        | none => .error .ipv4
      else .ok (.name (String.ofList domain))

/-- Characters that cannot stand in a host of any scheme. -/
def forbidden : List Char :=
  ['\x00', '\t', '\n', '\r', ' ', '#', '/', ':', '<', '>', '?', '@', '[', '\\', ']', '^', '|']

/-- Reads the host of a scheme whose hosts are plain names. -/
def parseOpaque (cs : List Char) : Except UrlError Host :=
  match cs with
  | '[' :: rest => bracketed? rest
  | _ =>
    if cs.any forbidden.contains then .error .name else .ok (.name (String.ofList cs))

/-- Whether the host is the machine itself. -/
def isLoopback : Host → Bool
  | .name text => text = "localhost"
  | .ipv4 address => address = 0x7F000001
  | .ipv6 groups => groups = [0, 0, 0, 0, 0, 0, 0, 1]

end Host
end Federation
