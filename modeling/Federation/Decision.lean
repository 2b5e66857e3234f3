import Federation.Instant.Rfc3339

/-!
# Decisions

A `Decision` says what became of one presented token: granted by a binding or denied
for a reason, together with the claims that took part and the set it was evaluated
against.
-/

namespace Federation

/-- Why a token is denied. -/
inductive DenialReason where
  /-- The token is expired. -/
  | expired
  /-- No binding is for the issuer. -/
  | issuerUnknown
  /-- No binding of the issuer accepts an audience of the token. -/
  | audienceMismatch
  /-- No binding has its bound claims matched. -/
  | claimMismatch
  /-- No binding with its bound claims matched is for the subject. -/
  | subjectMismatch
  /-- Several bindings match. -/
  | ambiguous
  /-- The evaluation took too long. -/
  | timeout
  /-- The decision could not be recorded. -/
  | auditUnavailable
  /-- The token could not be verified. -/
  | unverified
deriving DecidableEq, Repr

namespace DenialReason

/-- The reasons by name. -/
def names : List (String × DenialReason) :=
  [("expired", expired), ("issuer_unknown", issuerUnknown),
    ("audience_mismatch", audienceMismatch), ("claim_mismatch", claimMismatch),
    ("subject_mismatch", subjectMismatch), ("ambiguous", ambiguous), ("timeout", timeout),
    ("audit_unavailable", auditUnavailable), ("unverified", unverified)]

/-- The name of a reason. -/
def name : DenialReason → String
  | expired => "expired"
  | issuerUnknown => "issuer_unknown"
  | audienceMismatch => "audience_mismatch"
  | claimMismatch => "claim_mismatch"
  | subjectMismatch => "subject_mismatch"
  | ambiguous => "ambiguous"
  | timeout => "timeout"
  | auditUnavailable => "audit_unavailable"
  | unverified => "unverified"

/-- The code that programs tell reasons apart by. -/
def code : DenialReason → String
  | expired => "EXPIRED"
  | issuerUnknown => "ISSUER_UNKNOWN"
  | audienceMismatch => "AUDIENCE_MISMATCH"
  | claimMismatch => "CLAIM_MISMATCH"
  | subjectMismatch => "SUBJECT_MISMATCH"
  | ambiguous => "AMBIGUOUS"
  | timeout => "TIMEOUT"
  | auditUnavailable => "AUDIT_UNAVAILABLE"
  | unverified => "UNVERIFIED"

/-- The text of a reason. -/
def message : DenialReason → String
  | expired => "token expired"
  | issuerUnknown => "issuer unknown"
  | audienceMismatch => "no binding accepts the token audience"
  | claimMismatch => "bound claims did not match"
  | subjectMismatch => "subject did not match"
  | ambiguous => "more than one binding matched"
  | timeout => "evaluation deadline exceeded"
  | auditUnavailable => "audit trail unavailable"
  | unverified => "token could not be verified"

/-- The JSON form of a reason. -/
def toJson (r : DenialReason) : Json := .string r.name

/-- Reads a reason from its JSON form. -/
def decoder : Json.Decoder DenialReason := .name names

end DenialReason

/-- What became of a token. -/
inductive Verdict where
  /-- It is granted the policy of a binding for so many seconds. -/
  | granted (binding policy : String) (effectiveTtl : UInt64)
  | denied (reason : DenialReason)
deriving DecidableEq

namespace Verdict

/-- The JSON form of a verdict. -/
def toJson : Verdict → Json
  | granted binding policy effectiveTtl =>
    .object [
      ("decision", .string "granted"),
      ("binding", .string binding),
      ("policy", .string policy),
      ("effective_ttl", .natural effectiveTtl)]
  | denied reason => .object [("decision", .string "denied"), ("reason", reason.toJson)]

/-- Reads the fields of a kind of verdict. -/
def alternative (kind : String) : Json.Decoder Verdict :=
  if kind = "granted" then
    .record ["binding", "policy", "effective_ttl"] fun r => do
      let binding ← r.required "binding" .text
      let policy ← r.required "policy" .text
      let effectiveTtl ← r.required "effective_ttl" .natural
      some (granted binding policy effectiveTtl)
  else if kind = "denied" then
    .record ["reason"] fun r => do
      let reason ← r.required "reason" DenialReason.decoder
      some (denied reason)
  else fun _ _ => none

/-- Reads a verdict from its JSON form. -/
def decoder : Json.Decoder Verdict := .tagged "decision" alternative

end Verdict

/-- What became of one presented token. -/
structure Decision where
  /-- Granted or denied. -/
  verdict : Verdict
  /-- The revision of the set that the token was evaluated against. -/
  revision : UInt64
  /-- The issuer that the token names. -/
  issuer : String
  /-- The subject of the token. -/
  subject : String
  /-- The claims that took part. -/
  claims : StringMap Json := {}
  /-- The attributes that claims are recorded as. -/
  attributes : StringMap Json := {}
  /-- When the token was evaluated. -/
  evaluatedAt : Instant
deriving DecidableEq

namespace Decision

/-- Whether the token is granted something. -/
def isGranted (d : Decision) : Bool :=
  match d.verdict with
  | .granted .. => true
  | .denied _ => false

/-- Why the token is denied, if it is. -/
def reason? (d : Decision) : Option DenialReason :=
  match d.verdict with
  | .granted .. => none
  | .denied reason => some reason

/-- The decision turned into a denial, without attributes. -/
def toDenied (d : Decision) (reason : DenialReason) : Decision :=
  { d with verdict := .denied reason, attributes := {} }

/-- A denial without claims. -/
def deny (reason : DenialReason) (revision : UInt64) (issuer subject : String)
    (evaluatedAt : Instant) : Decision where
  verdict := .denied reason
  revision := revision
  issuer := issuer
  subject := subject
  evaluatedAt := evaluatedAt

/-- The JSON form of a decision. -/
def toJson (d : Decision) : Json :=
  .object [
    ("verdict", d.verdict.toJson),
    ("revision", .natural d.revision),
    ("issuer", .string d.issuer),
    ("subject", .string d.subject),
    ("claims", .ofMap d.claims),
    ("attributes", .ofMap d.attributes),
    ("evaluated_at", d.evaluatedAt.toJson)]

/-- The names of the members of a decision, in order. -/
def fieldNames : List String :=
  ["verdict", "revision", "issuer", "subject", "claims", "attributes", "evaluated_at"]

/-- Reads a decision from its JSON form. -/
def decoder : Json.Decoder Decision := .record fieldNames fun r => do
  let verdict ← r.required "verdict" Verdict.decoder
  let revision ← r.required "revision" .natural
  let issuer ← r.required "issuer" .text
  let subject ← r.required "subject" .text
  let claims ← r.defaulted "claims" (.mapOf .json) {}
  let attributes ← r.defaulted "attributes" (.mapOf .json) {}
  let evaluatedAt ← r.required "evaluated_at" Instant.decoder
  some ⟨verdict, revision, issuer, subject, claims, attributes, evaluatedAt⟩

end Decision
end Federation
