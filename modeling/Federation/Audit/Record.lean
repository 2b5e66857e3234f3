import Federation.Decision
import Federation.Json.Printer
import Federation.Sha256

/-!
# Audit records

An `AuditRecord` is one entry of the audit trail: a decision, or the news that an
earlier entry is void because its decision never reached the caller.  Its hash covers
the hash of the entry before it and the JSON text of its own body.
-/

namespace Federation

/-- What can go wrong with an audit trail. -/
inductive AuditError where
  /-- No record can be taken. -/
  | unavailable (why : String)
  /-- The trail cannot be read or written. -/
  | io
  /-- A whole line of a trail is no record. -/
  | corruptLine (line : Nat)
  /-- A record does not follow from the one before it. -/
  | chainBroken (sequence : UInt64)
deriving DecidableEq

/-- The text of an error. -/
def AuditError.message : AuditError → String
  | .unavailable why => "audit sink unavailable: " ++ why
  | .io => "audit I/O error"
  | .corruptLine line => "audit line " ++ Digits.text line ++ " is not a valid record"
  | .chainBroken sequence => "audit chain broken at sequence " ++ Digits.text sequence.toNat

/-- What the hash of a record covers beside the hash of the record before it. -/
structure AuditBody where
  /-- The position in the trail, from 1. -/
  sequence : UInt64
  /-- When the record was made. -/
  recordedAt : Instant
  /-- The decision. -/
  decision : Decision
  /-- The position of the record that this one makes void. -/
  voids : Option UInt64
deriving DecidableEq

/-- An entry of the audit trail. -/
structure AuditRecord extends AuditBody where
  /-- The hash of the record before, if there is one. -/
  prevHash : Option String
  /-- The hash of the record. -/
  hash : String
deriving DecidableEq

namespace AuditBody

/-- The members of the JSON form of a body. -/
def members (b : AuditBody) : List (String × Json) :=
  [("sequence", .natural b.sequence), ("recorded_at", b.recordedAt.toJson),
    ("decision", b.decision.toJson)] ++ Json.optionalMember "voids" .natural b.voids

/-- The JSON form of a body. -/
def toJson (b : AuditBody) : Json := .object b.members

/-- The bytes that the hash of a record is taken of. -/
def hashInput (prevHash : Option String) (b : AuditBody) : Bytes :=
  Utf8.encode (prevHash.getD "") ++ Utf8.encode b.toJson.compact

/-- The hash of a record with this body that comes after a record of the given hash. -/
def computeHash (prevHash : Option String) (b : AuditBody) : String :=
  Sha256.hexDigest (b.hashInput prevHash)

end AuditBody

namespace AuditRecord

/-- The JSON form of a record. -/
def toJson (r : AuditRecord) : Json :=
  .object (r.toAuditBody.members ++ Json.optionalMember "prev_hash" .string r.prevHash
    ++ [("hash", .string r.hash)])

/-- The names of the members of a record, in order. -/
def fieldNames : List String :=
  ["sequence", "recorded_at", "decision", "voids", "prev_hash", "hash"]

/-- Reads a record from its JSON form. -/
def decoder : Json.Decoder AuditRecord := .record fieldNames fun r => do
  let sequence ← r.required "sequence" .natural
  let recordedAt ← r.required "recorded_at" Instant.decoder
  let decision ← r.required "decision" Decision.decoder
  let voids ← r.optional "voids" .natural
  let prevHash ← r.optional "prev_hash" .text
  let hash ← r.required "hash" .text
  some ⟨⟨sequence, recordedAt, decision, voids⟩, prevHash, hash⟩

/-- Whether the hash is the one that the record should have. -/
def hashOk (r : AuditRecord) : Bool := r.toAuditBody.computeHash r.prevHash = r.hash

end AuditRecord
end Federation
