import Federation.Audit.Record
import Federation.Binding.Compile
import Federation.Config
import Federation.Snapshot
import Federation.Token.Error

/-!
# What can go wrong in the service
-/

namespace Federation

/-- What can go wrong in the service. -/
inductive ServiceError where
  /-- A configuration is refused. -/
  | config (e : ConfigError)
  /-- Its bindings do not compile. -/
  | compile (e : CompileError)
  /-- A snapshot cannot be stored or loaded. -/
  | storage (e : StorageError)
  /-- The audit trail cannot be read or written. -/
  | audit (e : AuditError)
  /-- A token gives no identity. -/
  | token (e : TokenError)
  /-- A set does not come after the published one. -/
  | staleRevision (e : StaleRevision)

/-- The text of an error. -/
def ServiceError.message : ServiceError → String
  | config e => e.message
  | compile e => e.message
  | storage e => e.message
  | audit e => e.message
  | token e => "token error: " ++ e.message
  | staleRevision e => e.message

end Federation
