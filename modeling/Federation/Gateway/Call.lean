import Federation.Audit.Timeline
import Federation.Gateway

/-!
# Calls

A call to a gateway decides on a token and returns when the decision is recorded, at
the latest at its deadline.  A call without an answer by then, or one that was
interrupted, is denied for lack of time; that denial is not recorded.
-/

namespace Federation

variable {σ : Type} [SnapshotStore σ]

/-- What a call asks for beside the token. -/
structure CallOptions where
  /-- The milliseconds that the call may take. -/
  deadlineMillis : Nat
  /-- The seconds that a credential is requested for. -/
  requestedTtl : Option UInt64 := none
  /-- Whether the call was cancelled. -/
  cancelled : Bool := false

/-- The context of the evaluation for a call. -/
def CallOptions.context (o : CallOptions) (now : Instant) : EvalContext :=
  CallLimits.context ⟨o.cancelled, o.deadlineMillis = 0⟩ now o.requestedTtl

/-- A gateway with the audit writer that records its decisions. -/
structure Service (σ : Type) where
  gateway : Gateway σ
  /-- The audit writer. -/
  audit : AuditTimeline

namespace Service

/-- Records what was decided, if anything was. -/
def record (v : Service σ) (now : Instant) (o : CallOptions) (r : Except Interruption Decision) :
    Service σ × Except Interruption Decision :=
  match r with
  | .error i => ({ v with audit := v.audit.skip }, .error i)
  | .ok d =>
    let (audit, result) := v.audit.record now d (v.audit.clock + o.deadlineMillis)
    ({ v with audit := audit }, result)

/-- Evaluates a token against a set. -/
def evaluateAgainst (v : Service σ) (s : BindingSet) (now : Instant) (o : CallOptions)
    (token : IdentityToken) : Service σ × Except Interruption Decision :=
  v.record now o (evaluate s token (o.context now))

/-- The denial of a call that came to no decision in time. -/
def settle (s : BindingSet) (now : Instant) (issuer subject : String) :
    Except Interruption Decision → Decision
  | .ok d => d
  | .error _ => .deny .timeout s.revision issuer subject now

/-- Evaluates a token. -/
def evaluateToken (v : Service σ) (now : Instant) (o : CallOptions) (token : IdentityToken) :
    Service σ × Decision :=
  let s := v.gateway.snapshot
  let (v, r) := v.evaluateAgainst s now o token
  (v, settle s now token.issuer token.subject r)

/-- Evaluates a token that is yet to be verified. -/
def evaluateRaw (v : Service σ) (web : Keys.Web) (now : Instant) (o : CallOptions)
    (raw : String) : Service σ × Decision :=
  let s := v.gateway.snapshot
  let (r, gateway) := v.gateway.decideRaw web (o.context now) raw
  let (v, r) := { v with gateway := gateway }.record now o r
  (v, settle s now "" "" r)

/-- Reloads the gateway from a configuration; what stopped that, if anything did. -/
def reload (v : Service σ) (c : Config) (now : Instant) :
    Except (Stop ServiceError) Unit × Service σ :=
  let (r, gateway) := v.gateway.reload c now
  (r, { v with gateway := gateway })

end Service
end Federation
