import Federation.Command.Arguments

/-!
# Command lines

A command line names the file of the configuration and a command.  The file may be named
before the command or after it; the latter counts more, and an environment variable
counts less than both.
-/

namespace Federation

/-- What to do. -/
inductive Command where
  /-- Print the bindings of a configuration, and write them to a file if one is named. -/
  | compile (out : Option String)
  /-- Decide on a token from a file without recording it. -/
  | evaluate (token : String) (requestedTtl : Option UInt64) (deadlineMillis : UInt64)
  /-- Serve evaluations. -/
  | serve
  /-- Compare a configuration with the snapshot that is kept. -/
  | diff (stateDir : Option String)
  /-- Check an audit trail. -/
  | verifyAudit (path : Option String)
deriving DecidableEq

/-- A command with the file of the configuration. -/
structure CommandLine where
  /-- The path of the configuration. -/
  configPath : String
  command : Command
deriving DecidableEq

namespace CommandLine

open Command

/-- The parameter for the file of the configuration. -/
def configParameter : Parameter :=
  { name := "config", kind := .path, letter := some 'c', variableName := some "TRUSTBIND_CONFIG" }

/-- The path of the configuration where none is named. -/
def defaultConfigPath : String := "trustbind.toml"

/-- The milliseconds that an evaluation may take where nothing else is said. -/
def defaultDeadlineMillis : UInt64 := 2000

/-- The commands and their parameters. -/
def commands : List (String × List Parameter) := [
  ("compile", [{ name := "out", kind := .path }]),
  ("evaluate", [{ name := "token", kind := .path }, { name := "requested-ttl", kind := .natural },
    { name := "deadline-ms", kind := .natural }]),
  ("serve", []),
  ("diff", [{ name := "state-dir", kind := .path }]),
  ("verify-audit", [{ name := "path", kind := .path }]),
  ("help", [])]

/-- What may be said before a command. -/
def top : Level :=
  { parameters := [configParameter], commands := commands.map Prod.fst, hasVersion := true }

/-- What may be said after a command. -/
def level (name : String) : Level :=
  { parameters := configParameter :: (commands.lookup name).getD [] }

/-- The command of a name with the values of its parameters. -/
def commandOf (name : String) (given : StringMap String) : Except Usage Command :=
  match name with
  | "compile" => .ok (.compile (given.get? "out"))
  | "evaluate" =>
    match given.get? "token" with
    | none => .error .missingArgument
    | some token => .ok (.evaluate token ((given.get? "requested-ttl").bind natural?)
        (((given.get? "deadline-ms").bind natural?).getD defaultDeadlineMillis))
  | "serve" => .ok .serve
  | "diff" => .ok (.diff (given.get? "state-dir"))
  | "verify-audit" => .ok (.verifyAudit (given.get? "path"))
  | _ => .error .unknownCommand

/-- What is wrong with arguments that name no command. -/
def noCommand (given : StringMap String) (env : String → Option String) : Usage :=
  if given.isEmpty && (configParameter.fromVariable env).isNone then .nothingSaid
  else .missingCommand

/-- Reads the arguments of the program. -/
def parse (env : String → Option String) (arguments : List String) :
    Except Usage CommandLine := do
  let (before, named) ← top.scan {} arguments
  match named with
  | none => .error (noCommand (← top.finish env before) env)
  | some (name, rest) =>
    let (after, _) ← (level name).scan {} rest
    let after ← (level name).finish env after
    let command ← commandOf name after
    let before ← top.finish env before
    let configPath := (after.get? "config").or
      ((before.get? "config").or (configParameter.fromVariable env))
    return ⟨configPath.getD defaultConfigPath, command⟩

end CommandLine
end Federation
