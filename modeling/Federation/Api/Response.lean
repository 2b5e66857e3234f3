import Federation.Credential
import Federation.Gateway.Error

/-!
# What requests are answered with

A response has a status and a body.  `Decision.response` says what a caller learns of a
decision: never the values of claims.  `ApiError` says why a request has no other
answer.
-/

namespace Federation

/-- The answer to a request. -/
structure Response where
  status : Nat
  body : Option Json
deriving DecidableEq

/-- An answer with a JSON body. -/
def Response.json (status : Nat) (body : Json) : Response := ⟨status, some body⟩

/-! ### Decisions -/

/-- The status that a denial is answered with. -/
def DenialReason.status : DenialReason → Nat
  | .timeout | .auditUnavailable => 503
  | _ => 403

/-- The answer to a caller whose token was decided on. -/
def Decision.response (d : Decision) : Response :=
  match d.verdict with
  | .granted binding policy effectiveTtl => .json 200 (.object [
      ("decision", .string "granted"),
      ("binding", .string binding),
      ("policy", .string policy),
      ("effective_ttl", .natural effectiveTtl),
      ("revision", .natural d.revision)])
  | .denied reason => .json reason.status (.object [
      ("decision", .string "denied"),
      ("reason", reason.toJson),
      ("code", .string reason.code),
      ("revision", .natural d.revision)])

/-! ### Errors -/

/-- Why a request is refused. -/
inductive ApiError where
  /-- The request makes no sense. -/
  | badRequest (why : String)
  /-- The request is not allowed. -/
  | unauthorized (why : String)
  /-- The service cannot do what is asked. -/
  | internal (why : String)
  /-- A configuration is refused. -/
  | config (e : ConfigError)
  /-- A reload is refused. -/
  | reloadRejected (e : ServiceError)

namespace ApiError

/-- The error that a failure of the service is reported as. -/
def ofService : ServiceError → ApiError
  | .config e => config e
  | .storage e => internal e.message
  | .audit e => internal e.message
  | e => reloadRejected e

/-- The error that a wrong credential is reported as. -/
def ofCredential (e : CredentialError) : ApiError := unauthorized e.message

/-- The status of an error. -/
def status : ApiError → Nat
  | badRequest _ => 400
  | unauthorized _ => 401
  | internal _ => 500
  | config _ => 422
  | reloadRejected _ => 422

/-- The code of an error. -/
def code : ApiError → String
  | badRequest _ => "BAD_REQUEST"
  | unauthorized _ => "UNAUTHORIZED"
  | internal _ => "INTERNAL_ERROR"
  | config _ => "CONFIG_ERROR"
  | reloadRejected _ => "RELOAD_REJECTED"

/-- What an error tells the caller. -/
def reason : ApiError → String
  | badRequest why => why
  | unauthorized why => why
  | internal why => why
  | config e => e.message
  | reloadRejected e => e.message

/-- The text of an error. -/
def message (e : ApiError) : String :=
  (match e with
    | badRequest _ => "Invalid request: "
    | unauthorized _ => "Unauthorized: "
    | internal _ => "Internal error: "
    | config _ => "Configuration error: "
    | reloadRejected _ => "Reload rejected: ") ++ e.reason

/-- What else there is to say about an error. -/
def details : ApiError → Option Json
  | reloadRejected (.staleRevision e) => some (.object [
      ("current_revision", .natural e.current),
      ("offered_revision", .natural e.offered)])
  | _ => none

/-- The answer that an error gives. -/
def response (e : ApiError) : Response :=
  .json e.status (.object ([("error", .string e.reason), ("code", .string e.code)]
    ++ Json.optionalMember "details" id e.details))

end ApiError
end Federation
