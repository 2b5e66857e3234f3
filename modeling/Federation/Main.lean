import Federation.Command.Run
import Std.Time.DateTime.Timestamp

/-!
# The program

Runs the command that the arguments name.  Connections are not taken here: a server that
has started says so and ends.
-/

namespace Federation.Program

/-- Does something with files and says why it failed. -/
def attempt {α : Type} (action : IO α) : IO (Except FileError α) := do
  try
    return .ok (← action)
  catch
    | .noFileOrDirectory .. => return .error .notFound
    | _ => return .error .refused

instance : FileSystem IO where
  read path := attempt do return (← IO.FS.readBinFile ⟨path⟩).toList
  write path content := attempt (IO.FS.writeBinFile ⟨path⟩ ⟨content.toArray⟩)
  makeDirectories path := attempt (IO.FS.createDirAll ⟨path⟩)

/-- The environment variables that are looked at. -/
def variableNames : List String :=
  ["TRUSTBIND_CONFIG", "TRUSTBIND_PORT", "TRUSTBIND_AUDIT_LOG", "TRUSTBIND_STATE_DIR"]

/-- The present. -/
def present : IO Instant := do
  let nanos := (← Std.Time.Timestamp.now).toNanosecondsSinceUnixEpoch.val
  return (Instant.ofParts? (nanos / 1000000000) (nanos % 1000000000).toNat).getD default

/-- What a command knows beside its arguments. -/
def session : IO Command.Session := do
  let env ← variableNames.mapM fun name => do return (name, ← IO.getEnv name)
  return {
    now := ← present
    random := (← IO.getRandomBytes (USize.ofNat Credential.secretSize)).toList
    env := fun name => (env.lookup name).join }

/-- What is printed about the use of the program. -/
def usageText : String :=
  "Usage: trustbind [-c FILE] COMMAND\n\n"
    ++ "Commands:\n"
    ++ "  compile [--out FILE]\n"
    ++ "  evaluate --token FILE [--requested-ttl SECONDS] [--deadline-ms MILLISECONDS]\n"
    ++ "  serve\n"
    ++ "  diff [--state-dir DIRECTORY]\n"
    ++ "  verify-audit [--path FILE]\n"

/-- What is printed where the arguments name nothing to run, and the exit code. -/
def explain : Command.Usage → IO UInt32
  | .help => do
    IO.print usageText
    return 0
  | .version => do
    IO.println ("trustbind " ++ version)
    return 0
  | _ => do
    IO.eprint usageText
    return 2

/-- Says that a server is not listening. -/
def listen (_ : Api SnapshotFile) : IO Command.Outcome := do
  IO.eprintln "error: not listening for connections"
  return .failure

end Federation.Program

open Federation in
/-- Runs the command that the arguments name. -/
def main (arguments : List String) : IO UInt32 := do
  let session ← Program.session
  match CommandLine.parse session.env arguments with
  | .error u => Program.explain u
  | .ok line =>
    match Command.Report.ofResult (← (Command.run session Program.listen line).run) with
    | none => return UInt32.ofNat Command.brokenOffCode
    | some (report, failure) =>
      IO.print report.output
      match failure with
      | none => pure ()
      | some why => IO.eprintln ("error: " ++ why)
      return UInt32.ofNat report.outcome.exitCode
