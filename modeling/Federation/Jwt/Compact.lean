import Federation.Jwt.Header
import Federation.Text.Base64Url
import Federation.Token.ClaimSet

/-!
# Web tokens in compact form

A token is a header, a payload and a signature, each in base64, with points between
them; the signature signs what stands in front of the last point.  `Compact.ofChars?`
cuts a token at its last two points, so that `header`, `payload` and `signature` put
together again are the token.
-/

namespace Federation.Jwt

/-- A token cut into its parts. -/
structure Compact where
  header : List Char
  payload : List Char
  signature : List Char
deriving DecidableEq

/-- Cuts a text at its last point. -/
def cutAtLastPoint? : List Char → Option (List Char × List Char)
  | [] => none
  | c :: rest =>
    match cutAtLastPoint? rest with
    | some (before, after) => some (c :: before, after)
    | none => if c = '.' then some ([], rest) else none

theorem eq_of_cutAtLastPoint? {cs before after : List Char}
    (h : cutAtLastPoint? cs = some (before, after)) :
  cs = before ++ '.' :: after
  := by
  induction cs generalizing before with
  | nil => simp [cutAtLastPoint?] at h
  | cons c rest ih =>
    simp only [cutAtLastPoint?] at h
    split at h
    · rename_i b a hrest
      cases h
      simp [ih hrest]
    · split at h
      · rename_i hc
        cases h
        simp [hc]
      · cases h

/-- What a signature signs. -/
def Compact.signedPart (t : Compact) : List Char := t.header ++ '.' :: t.payload

/-- Cuts a token at its last two points. -/
def Compact.ofChars? (cs : List Char) : Option Compact := do
  let (message, signature) ← cutAtLastPoint? cs
  let (header, payload) ← cutAtLastPoint? message
  some ⟨header, payload, signature⟩

/-- Nothing is lost by the cuts. -/
theorem Compact.signedPart_append {cs : List Char} {t : Compact}
    (h : Compact.ofChars? cs = some t) :
  t.signedPart ++ '.' :: t.signature = cs
  := by
  simp only [ofChars?, Option.bind_eq_bind, Option.bind_eq_some_iff, Option.some.injEq] at h
  obtain ⟨⟨message, signature⟩, hm, ⟨header, payload⟩, hp, rfl⟩ := h
  have hmessage : message = header ++ '.' :: payload := eq_of_cutAtLastPoint? hp
  have hcs : cs = message ++ '.' :: signature := eq_of_cutAtLastPoint? hm
  subst hmessage
  exact hcs.symm

/-- What is used of the payload of a token. -/
structure Payload where
  claims : ClaimSet
  /-- The seconds of the instant before which it is not valid, if it names one. -/
  notBefore : Option Nat

namespace Payload

/-- The instant that a member of a payload names: a number of seconds, which is rounded.
Any other value names none; a value with parts cannot be read. -/
def seconds? : Json.Document → Option (Option Nat)
  | .number (some (.natural n)) => some (some n.toNat)
  | .number (some (.double x)) =>
    if (!x.negative || x.magnitude.val = 0) && x.magnitude.val < Binary64.nearest UInt64.size 1 then
      some (some x.roundHalfUp)
    else some none
  | .array (_ :: _) | .object (_ :: _) => none
  | _ => some none

/-- The instant before which a token is not valid: a member that is given at most
once. -/
def notBefore? : Json.Document → Option (Option Nat)
  | .object members =>
    match members.filter fun m => m.1 = some "nbf" with
    | [] => some none
    | [m] => seconds? m.2
    | _ => none
  | _ => none

/-- Reads a payload. -/
def decoder : Json.Decoder Payload := fun depth doc => do
  let claims ← ClaimSet.decoder depth doc
  let notBefore ← notBefore? doc
  some ⟨claims, notBefore⟩

end Payload

namespace Compact

/-- The header of a token. -/
def header? (t : Compact) : Option Header :=
  (Base64Url.decode? t.header).bind Header.decoder.ofBytes?

/-- The text of the payload of a token. -/
def payloadText? (t : Compact) : Option String := (Base64Url.decode? t.payload).bind Utf8.decode?

/-- The payload of a token; all of it is read, so it has to be a text. -/
def payload? (t : Compact) : Option Payload := t.payloadText?.bind Payload.decoder.ofText?

end Compact
end Federation.Jwt
