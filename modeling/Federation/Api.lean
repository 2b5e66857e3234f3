import Federation.Api.EvaluationRequest
import Federation.Api.Request
import Federation.Api.Response
import Federation.Gateway.Call
import Federation.Text.Blank
import Federation.Text.Split
import Federation.Version

/-!
# The interface to a service

An `Api` answers requests to a service: `/health` and `/ready` tell how it is, a token
is evaluated at `/v1/evaluate`, `/v1/bindings` lists what is published, and
`/v1/admin/reload` reads the configuration again.  Reloading takes the secret of a
credential as a bearer token; an `Api` without a credential never reloads.
-/

namespace Federation

variable {σ : Type} [SnapshotStore σ]

/-- A service with what its requests need. -/
structure Api (σ : Type) where
  /-- The service. -/
  service : Service σ
  /-- The credential for reloading, if that is enabled. -/
  credential : Option Credential := none
  /-- The path of the file to reload from. -/
  configPath : Option String := none
  /-- The milliseconds that an evaluation may take at most. -/
  deadlineMillis : Nat

/-- What surrounds a service when a request is answered. -/
structure Surroundings where
  /-- The present. -/
  now : Instant
  /-- The web that keys are fetched from. -/
  web : Keys.Web
  /-- The texts of the files that can be read. -/
  files : String → Option String
  /-- The environment variables. -/
  env : String → Option String

/-! ### Routes -/

/-- What can be requested. -/
inductive Route where
  /-- Whether the service runs. -/
  | health
  /-- Whether it can evaluate. -/
  | ready
  /-- An evaluation. -/
  | evaluate
  /-- The published bindings. -/
  | bindings
  /-- Reading the configuration again. -/
  | reload
deriving DecidableEq, Repr

namespace Route

/-- What can be requested at a path. -/
def ofPath? (path : String) : Option Route :=
  [("/health", health), ("/ready", ready), ("/v1/evaluate", evaluate), ("/v1/bindings", bindings),
    ("/v1/admin/reload", reload)].lookup path

/-- Whether a request changes what it is made to. -/
def isPosted : Route → Bool
  | evaluate | reload => true
  | _ => false

/-- Whether a route is requested by a method. -/
def accepts (route : Route) (method : String) : Bool :=
  if route.isPosted then method = "POST" else method = "GET" || method = "HEAD"

end Route

/-- An answer without JSON. -/
def Response.bare (status : Nat) : Response := ⟨status, none⟩

/-- The bearer token of a request. -/
def Request.bearer? (r : Request) : Option String := do
  let value ← r.header? "authorization"
  let token ← Text.afterPrefix? "Bearer ".toList value.toList
  let token := Text.trim token
  if token.isEmpty then none else some (String.ofList token)

namespace Api

/-! ### What is read -/

/-- That the service runs. -/
def health : Json := .object [("status", .string "ok"), ("version", .string version)]

/-- Whether a service with a set can evaluate. -/
def readiness (s : BindingSet) : Json := .object [
  ("ready", .bool (s.revision > 0)),
  ("revision", .natural s.revision),
  ("binding_count", .count s.size),
  ("issuer_count", .count s.issuers.size)]

/-- The bindings of a set. -/
def listing (s : BindingSet) : Json := .object [
  ("revision", .natural s.revision),
  ("digest", .string s.digest),
  ("count", .count s.size),
  ("records", .array (s.records.map Binding.toJson))]

/-! ### Evaluation -/

/-- The milliseconds that a request may take, which are at most those of any request. -/
def allowed (a : Api σ) (r : EvaluationRequest) : Nat :=
  match r.deadlineMillis with
  | none => a.deadlineMillis
  | some ms => min ms.toNat a.deadlineMillis

/-- The largest body that is read, in bytes. -/
def maxBody : Nat := 2097152

/-- What a request for an evaluation asks, or the answer that refuses it. -/
def evaluationRequest (r : Request) : Except Response EvaluationRequest :=
  if !r.saysJson then .error (.bare 415)
  else if r.body.utf8ByteSize > maxBody then .error (.bare 413)
  else match EvaluationRequest.read r.body with
    | .error .malformed => .error (.bare 400)
    | .error .mismatched => .error (.bare 422)
    | .ok q =>
      if Text.isAllBlank q.token then
        .error (ApiError.badRequest "token cannot be empty").response
      else .ok q

/-- Answers a request for an evaluation. -/
def evaluate (a : Api σ) (w : Surroundings) (r : Request) : Response × Api σ :=
  match evaluationRequest r with
  | .error refusal => (refusal, a)
  | .ok q =>
    let options : CallOptions := ⟨a.allowed q, q.requestedTtl, false⟩
    let (service, d) := a.service.evaluateRaw w.web w.now options q.token
    (d.response, { a with service := service })

/-! ### Reloading -/

/-- Checks that a request may reload. -/
def authorize (a : Api σ) (now : Instant) (r : Request) : Except ApiError Unit :=
  match a.credential with
  | none => .error (.unauthorized "administrative endpoints are disabled")
  | some c =>
    match r.bearer? with
    | none => .error (.unauthorized "missing bearer credential")
    | some secret => (c.verify secret .reload now).mapError ApiError.ofCredential

/-- The configuration to reload. -/
def configuration (a : Api σ) (w : Surroundings) : Except ApiError Config :=
  match a.configPath with
  | none => .error (.internal "no configuration file to reload from")
  | some path => (Config.load path (w.files path) w.env).mapError ApiError.config

/-- That a set was published. -/
def published (s : BindingSet) : Json := .object [
  ("revision", .natural s.revision),
  ("bindings", .count s.size),
  ("digest", .string s.digest)]

/-- Answers a request to reload, unless that breaks off. -/
def reload (a : Api σ) (w : Surroundings) (r : Request) : Option Response × Api σ :=
  match a.authorize w.now r, a.configuration w with
  | .error e, _ => (some e.response, a)
  | .ok (), .error e => (some e.response, a)
  | .ok (), .ok c =>
    let (result, service) := a.service.reload c w.now
    let response := match result with
      | .error (.failed e) => some (ApiError.ofService e).response
      | .error .overflow => none
      | .ok () => some (.json 200 (published service.gateway.snapshot))
    (response, { a with service := service })

/-! ### Requests -/

/-- Answers a request on a route. -/
def onRoute (a : Api σ) (w : Surroundings) (r : Request) : Route → Option Response × Api σ
  | .health => (some (.json 200 health), a)
  | .ready => (some (.json 200 (readiness a.service.gateway.snapshot)), a)
  | .bindings => (some (.json 200 (listing a.service.gateway.snapshot)), a)
  | .evaluate => (a.evaluate w r).map some id
  | .reload => a.reload w r

/-- Leaves the body out of an answer to a request for the head of it. -/
def withoutBody (r : Request) (response : Response) : Response :=
  if r.method = "HEAD" then .bare response.status else response

/-- Answers a request, unless a reload breaks off.  What may be requested from elsewhere is
answered the same for every path: anything may. -/
def respond (a : Api σ) (w : Surroundings) (r : Request) : Option Response × Api σ :=
  if r.method = "OPTIONS" then (some (.bare 200), a)
  else match Route.ofPath? r.path with
    | none => (some (.bare 404), a)
    | some route =>
      if route.accepts r.method then
        let (response, a) := a.onRoute w r route
        (response.map (withoutBody r), a)
      else (some (.bare 405), a)

end Api
end Federation
