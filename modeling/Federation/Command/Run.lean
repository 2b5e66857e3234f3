import Federation.Api
import Federation.Audit.Trail
import Federation.Command.ExitCode
import Federation.Command.Line
import Federation.FileSystem

/-!
# Running commands

A command reads and writes files, prints a text and ends with an outcome.  A command
that fails prints nothing; `serve` has started by the time it prints the secret of the
credential.  A server that finds no next revision breaks off before that.
-/

namespace Federation.Command

/-- Why a command fails. -/
inductive CommandError where
  /-- The service cannot do what is asked. -/
  | service (e : ServiceError)
  /-- A file cannot be used. -/
  | file (path : String)

/-- The text of an error. -/
def CommandError.message : CommandError → String
  | service e => e.message
  | file path => "I/O error: " ++ path

/-- What a command knows beside its arguments. -/
structure Session where
  /-- The present. -/
  now : Instant
  /-- Random bytes for a secret. -/
  random : Bytes
  /-- The environment variables. -/
  env : String → Option String

/-- What a command leaves behind. -/
structure Report where
  /-- The text that it prints. -/
  output : String
  /-- How it ends. -/
  outcome : Outcome
deriving DecidableEq

/-- The report of a command that prints JSON. -/
def Report.json (j : Json) (outcome : Outcome) : Report := ⟨j.pretty ++ "\n", outcome⟩

/-- What runs in `m` and may fail or break off. -/
abbrev Run (m : Type → Type) : Type → Type := ExceptT (Stop CommandError) m

section

variable {m : Type → Type} [Monad m] [FileSystem m]

/-! ### Files -/

/-- Goes on with a result, unless it is an error. -/
def lift {ε α : Type} (f : ε → ServiceError) (r : Except ε α) : Run m α :=
  ExceptT.mk (pure (r.mapError fun e => .failed (.service (f e))))

/-- Goes on with a result, unless something stopped the work for it. -/
def liftWork {ε α : Type} (f : ε → ServiceError) (r : Except (Stop ε) α) : Run m α :=
  ExceptT.mk (pure (r.mapError (Stop.map fun e => .service (f e))))

/-- The content of a file, if there is one. -/
def readIfThere (path : String) (e : CommandError) : Run m (Option Bytes) :=
  ExceptT.mk do
    match ← FileSystem.read path with
    | .ok content => return .ok (some content)
    | .error .notFound => return .ok none
    | .error .refused => return .error (.failed e)

/-- The text of a file. -/
def readText (path : String) : Run m String :=
  ExceptT.mk do
    match ((← FileSystem.read path).toOption).bind Utf8.decode? with
    | some text => return .ok text
    | none => return .error (.failed (.file path))

/-- Does something with files that must not fail. -/
def must (action : m (Except FileError Unit)) (e : CommandError) : Run m Unit :=
  ExceptT.mk do return (← action).mapError fun _ => .failed e

/-! ### What commands share -/

/-- The configuration of a file. -/
def loadConfig (s : Session) (path : String) : Run m Config := do
  let content : Except FileError Bytes ← ExceptT.lift (FileSystem.read path)
  lift .config (Config.load path (content.toOption.bind Utf8.decode?) s.env)

/-- The set that a configuration compiles to at first. -/
def firstSet (c : Config) : Run m BindingSet := do
  let domain ← lift .config c.domain
  liftWork .compile (domain.compile .empty)

/-- The store of snapshots in a directory. -/
def openStore (dir : String) : Run m SnapshotFile := do
  return ⟨← readIfThere (Path.join dir SnapshotFile.fileName) (.service (.storage .io))⟩

/-- The content of an audit trail, which is empty where there is none. -/
def readTrail (path : String) : Run m Bytes := do
  return (← readIfThere path (.service (.audit .io))).getD []

/-! ### Compiling -/

/-- Compiles a configuration. -/
def compileRecords (s : Session) (configPath : String) (out : Option String) : Run m Report := do
  let set ← firstSet (← loadConfig s configPath)
  let records := Json.array (set.records.map Binding.toJson)
  match out with
  | none => pure ()
  | some path => must (FileSystem.write path (Utf8.encode records.pretty)) (.file path)
  return .json records .success

/-! ### Evaluating -/

/-- Decides on the claims of a file. -/
def decideOn (s : Session) (configPath tokenPath : String) (requestedTtl : Option UInt64)
    (deadlineMillis : UInt64) : Run m Report := do
  let set ← firstSet (← loadConfig s configPath)
  let raw ← readText tokenPath
  let (result, _) :=
    ((Authenticator.ofList [.sample]).decode (fun _ => .unreachable) s.now .sample raw set).run.run
      {}
  let token ← lift .token result
  let context := CallLimits.context ⟨false, deadlineMillis = 0⟩ s.now requestedTtl
  let d := Service.settle set s.now token.issuer token.subject
    (Federation.evaluate set token context)
  return .json (d.response.body.getD .null) (ofDecision d)

/-! ### Comparing -/

/-- The differences between the kept snapshot, if there is one, and a compiled set. -/
def driftFrom (stored : Option PersistedSnapshot) (compiled : BindingSet) : BindingDiff :=
  match stored with
  | none => ⟨compiled.records.map (·.key), [], []⟩
  | some p => p.diff compiled

/-- Compares a configuration with the snapshot that is kept. -/
def reportDrift (s : Session) (configPath : String) (stateDir : Option String) : Run m Report := do
  let c ← loadConfig s configPath
  let store ← openStore (stateDir.getD c.state.dir)
  let stored ← lift .storage store.load
  let domain ← lift .config c.domain
  let compiled ← lift .compile (domain.compileAt ((stored.map (·.revision)).getD 1))
  let drift := driftFrom stored compiled
  let report := Json.object [
    ("persisted_revision", .orNull (fun p => .natural p.revision) stored),
    ("added", .texts drift.added),
    ("removed", .texts drift.removed),
    ("changed", .texts drift.changed)]
  return .json report (if drift.isEmpty then .success else .drift)

/-! ### Checking the audit trail -/

/-- The report on an audit trail. -/
def trailReport (records : List AuditRecord) (brokenAt : Option String) : Report :=
  .json (.object ([
    ("records", .count records.length),
    ("head", .orNull (fun r => .string r.hash) records.getLast?),
    ("intact", .bool brokenAt.isNone)] ++ Json.optionalMember "broken_at" .string brokenAt))
    (if brokenAt.isNone then .success else .broken)

/-- Checks the content of an audit trail. -/
def checkTrail (content : Bytes) : Except AuditError Report :=
  match Trail.read content with
  | .error (.corruptLine line) => .ok (trailReport [] (some ("line " ++ Digits.text line)))
  | .error e => .error e
  | .ok records =>
    match verifyChain records with
    | .ok () => .ok (trailReport records none)
    | .error (.chainBroken sequence) =>
      .ok (trailReport records (some ("sequence " ++ Digits.text sequence.toNat)))
    | .error e => .error e

/-- Checks an audit trail. -/
def verifyTrail (s : Session) (configPath : String) (path : Option String) : Run m Report := do
  let trail ← match path with
    | some path => pure path
    | none => do
      let c ← loadConfig s configPath
      pure c.audit.path
  lift .audit (checkTrail (← readTrail trail))

/-! ### Serving -/

/-- Opens an audit trail for appending: its directory and it itself are created, and an
incomplete last line is cut off. -/
def openTrail (path : String) : Run m Bytes := do
  let failure := CommandError.service (.audit .io)
  match Path.directory? path with
  | none => pure ()
  | some dir => must (FileSystem.makeDirectories dir) failure
  let content ← readIfThere path failure
  let kept := Trail.complete (content.getD [])
  if content ≠ some kept then must (FileSystem.write path kept) failure
  return kept

/-- Saves the first set of a service, made from a configuration, and keeps the store. -/
def startGateway (c : Config) (now : Instant) : Run m (Gateway SnapshotFile) := do
  let store ← openStore c.state.dir
  let gateway ← liftWork id (Gateway.start c store (.ofList [.jwt .default]) now)
  let failure := CommandError.service (.storage .io)
  must (FileSystem.makeDirectories c.state.dir) failure
  must (FileSystem.write (Path.join c.state.dir SnapshotFile.fileName)
    (gateway.store.content.getD [])) failure
  return gateway

/-- What a server tells of the credential that guards it. -/
def credentialNotice (c : Credential) (secret : String) : String :=
  "bootstrap credential (scope: " ++ c.scope.name ++ ", expires: " ++ c.expiresAt.spaced ++ "): "
    ++ secret ++ "\n"

/-- Starts a server; gives its interface and the text that it prints. -/
def startServer (s : Session) (configPath : String) : Run m (Api SnapshotFile × String) := do
  let c ← loadConfig s configPath
  let kept ← openTrail c.audit.path
  let gateway ← startGateway c s.now
  let records ← lift .audit (Trail.read kept)
  let (credential, secret) := Credential.mint s.random .reload s.now
    c.server.credentialSeconds.toNat
  let api : Api SnapshotFile :=
    { service := ⟨gateway, { writer := .resume records }⟩
      credential := some credential
      configPath := some configPath
      deadlineMillis := c.server.deadlineMillis.toNat }
  return (api, credentialNotice credential secret)

/-! ### All commands -/

/-- Runs a command; a server that has started is handed over to `listen`. -/
def run (s : Session) (listen : Api SnapshotFile → m Outcome) (line : CommandLine) :
    Run m Report :=
  match line.command with
  | .compile out => compileRecords s line.configPath out
  | .evaluate token requestedTtl deadlineMillis =>
    decideOn s line.configPath token requestedTtl deadlineMillis
  | .serve => do
    let (api, notice) ← startServer s line.configPath
    return ⟨notice, ← ExceptT.lift (listen api)⟩
  | .diff stateDir => reportDrift s line.configPath stateDir
  | .verifyAudit path => verifyTrail s line.configPath path

/-- What a command leaves behind, also if it fails, and why it fails; nothing if it breaks
off. -/
def Report.ofResult : Except (Stop CommandError) Report → Option (Report × Option String)
  | .ok r => some (r, none)
  | .error (.failed e) => some (⟨"", .failure⟩, some e.message)
  | .error .overflow => none

end

end Federation.Command
