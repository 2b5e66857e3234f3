import Federation.Binding.Group
import Federation.Issuer.Validation
import Federation.Policy
import Federation.Toml

/-!
# Configuration

A `Config` names the trusted issuers, the policies and the groups of bindings, and sets
up server, audit trail and storage.  `Config.parse` reads it from a document; a document
with a secret in it is refused whatever else it says.  Some settings can be overridden
by environment variables.
-/

namespace Federation

/-- Why a configuration is refused. -/
inductive ConfigError where
  | unreadable (path : String)
  /-- It is no document, or its settings are not as they should be. -/
  | malformed
  /-- It holds a secret, under a key. -/
  | staticSecret (key : String)
  | issuer (e : IssuerError)
  | policy (e : PolicyError)
  /-- An environment variable has a value that cannot be used. -/
  | invalidVariable (name value : String)
deriving DecidableEq

/-- The text of an error. -/
def ConfigError.message : ConfigError → String
  | unreadable path => "failed to read config file " ++ path
  | malformed => "failed to parse config TOML"
  | staticSecret key =>
    "static bootstrap secrets are not accepted ('" ++ key
      ++ "'); a scoped bootstrap credential is minted at startup"
  | issuer e => e.message
  | policy e => e.message
  | invalidVariable name value => "invalid value for " ++ name ++ ": '" ++ value ++ "'"

/-! ### Secrets -/

/-- The keys under which a secret would stand. -/
def secretKeys : List String := ["bootstrap_token", "root_token"]

mutual

/-- The first key of a secret, depth first and by ascending key. -/
def Toml.secret? : Toml → Option String
  | .array items => itemsSecret? items
  | .table entries => entriesSecret? entries
  | _ => none

/-- The first key of a secret in the items of a list. -/
def Toml.itemsSecret? : List Toml → Option String
  | [] => none
  | v :: vs => (Toml.secret? v).or (itemsSecret? vs)

/-- The first key of a secret in the entries of a table. -/
def Toml.entriesSecret? : List (String × Toml) → Option String
  | [] => none
  | (key, v) :: es =>
    if secretKeys.contains key then some key else (Toml.secret? v).or (entriesSecret? es)

end

/-! ### Settings -/

/-- A number below `2 ^ 16`. -/
def portDecoder : Json.Decoder UInt16 :=
  Json.Decoder.natural.filterMap fun n => if n < 65536 then some n.toUInt16 else none

/-- The settings of the server. -/
structure ServerConfig where
  /-- The address to listen at. -/
  bind : String := "0.0.0.0"
  /-- The port to listen at. -/
  port : UInt16 := 8080
  /-- The milliseconds that an evaluation may take. -/
  deadlineMillis : UInt64 := 2000
  /-- The seconds that the credential of the administrator is asked to be valid for. -/
  credentialTtl : UInt64 := 900
deriving DecidableEq

namespace ServerConfig

/-- The most seconds that the credential of the administrator is valid for. -/
def maxCredentialSeconds : UInt64 := 86400

/-- The seconds that the credential of the administrator is valid for. -/
def credentialSeconds (s : ServerConfig) : UInt64 := min s.credentialTtl maxCredentialSeconds

/-- The names of the settings of the server, in order. -/
def fieldNames : List String := ["bind", "port", "deadline_ms", "bootstrap_ttl_secs"]

/-- Reads the settings of the server. -/
def decoder : Json.Decoder ServerConfig := .closedRecord fieldNames fun r => do
  let d : ServerConfig := {}
  let bind ← r.defaulted "bind" .text d.bind
  let port ← r.defaulted "port" portDecoder d.port
  let deadlineMillis ← r.defaulted "deadline_ms" .natural d.deadlineMillis
  let credentialTtl ← r.defaulted "bootstrap_ttl_secs" .natural d.credentialTtl
  some ⟨bind, port, deadlineMillis, credentialTtl⟩

end ServerConfig

/-- The settings of the audit trail. -/
structure AuditConfig where
  /-- The file that the trail is kept in. -/
  path : String := "trustbind-audit.jsonl"
  /-- How many decisions may wait to be recorded. -/
  queueDepth : UInt64 := 1024
deriving DecidableEq

namespace AuditConfig

/-- The names of the settings of the audit trail, in order. -/
def fieldNames : List String := ["path", "queue_depth"]

/-- Reads the settings of the audit trail. -/
def decoder : Json.Decoder AuditConfig := .closedRecord fieldNames fun r => do
  let d : AuditConfig := {}
  let path ← r.defaulted "path" .text d.path
  let queueDepth ← r.defaulted "queue_depth" .natural d.queueDepth
  some ⟨path, queueDepth⟩

end AuditConfig

/-- The settings of the storage. -/
structure StateConfig where
  /-- The directory that snapshots are kept in. -/
  dir : String := "trustbind-state"
deriving DecidableEq

namespace StateConfig

/-- The names of the settings of the storage. -/
def fieldNames : List String := ["dir"]

/-- Reads the settings of the storage. -/
def decoder : Json.Decoder StateConfig := .closedRecord fieldNames fun r => do
  let d : StateConfig := {}
  let dir ← r.defaulted "dir" .text d.dir
  some ⟨dir⟩

end StateConfig

/-- A configuration. -/
structure Config where
  server : ServerConfig := {}
  audit : AuditConfig := {}
  state : StateConfig := {}
  issuers : List Issuer := []
  policies : List Policy := []
  bindings : List BindingGroup := []
deriving DecidableEq

namespace Config

/-- Whether a document is an empty list or table. -/
def isEmptyCollection : Json.Document → Bool
  | .array [] => true
  | .object [] => true
  | _ => false

/-- The names of the parts of a configuration, in order. -/
def fieldNames : List String := ["server", "audit", "state", "issuers", "policies", "bindings"]

/-- Reads a configuration. -/
def decoder : Json.Decoder Config := .closedRecord fieldNames fun r => do
  let issuer := Issuer.decoderOf (ClaimType.decoderOf isEmptyCollection)
  let server ← r.defaulted "server" ServerConfig.decoder {}
  let audit ← r.defaulted "audit" AuditConfig.decoder {}
  let state ← r.defaulted "state" StateConfig.decoder {}
  let issuers ← r.defaulted "issuers" (.list issuer) []
  let policies ← r.defaulted "policies" (.list Policy.decoder) []
  let bindings ← r.defaulted "bindings" (.list BindingGroup.decoder) []
  some ⟨server, audit, state, issuers, policies, bindings⟩

/-- The configuration that a document says. -/
def ofToml (v : Toml) : Except ConfigError Config :=
  match v.secret? with
  | some key => .error (.staticSecret key)
  | none =>
    match decoder v.depth v.document with
    | some c => .ok c
    | none => .error .malformed

/-- Reads a configuration from the text of a document. -/
def parse (text : String) : Except ConfigError Config :=
  match Toml.parse? text with
  | some v => ofToml v
  | none => .error .malformed

/-! ### Environment variables -/

/-- A number of a port, which may have a plus sign. -/
def port? (text : String) : Option UInt16 := do
  let digits := match text.toList with
    | '+' :: rest => rest
    | cs => cs
  let n ← Digits.natural? digits
  if n < 65536 then some (UInt16.ofNat n) else none

/-- The port, unless a variable sets another one. -/
def portOr (port : UInt16) (env : String → Option String) : Except ConfigError UInt16 :=
  match env "TRUSTBIND_PORT" with
  | none => .ok port
  | some value =>
    match port? value with
    | some port => .ok port
    | none => .error (.invalidVariable "TRUSTBIND_PORT" value)

/-- The configuration with the settings that environment variables override. -/
def withVariables (c : Config) (env : String → Option String) :
    Except ConfigError Config := do
  let port ← portOr c.server.port env
  let path := (env "TRUSTBIND_AUDIT_LOG").getD c.audit.path
  let dir := (env "TRUSTBIND_STATE_DIR").getD c.state.dir
  return { c with
    server := { c.server with port := port }
    audit := { c.audit with path := path }
    state := ⟨dir⟩ }

/-- The configuration that a file of the given content and environment variables make;
there is no content where the file cannot be read. -/
def load (path : String) (content : Option String) (env : String → Option String) :
    Except ConfigError Config :=
  match content with
  | none => .error (.unreadable path)
  | some text => do (← parse text).withVariables env

end Config
end Federation
