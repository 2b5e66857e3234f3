import Federation.StringMap
import Federation.Text.Digits

/-!
# Arguments

The arguments of a program give values to parameters and name a command.  A parameter is
written out, as in `--name value` or `--name=value`, or has a letter, as in `-n value`,
`-n=value` or `-nvalue`.  A value does not begin with a dash.  An option is complete
only when the next one begins, and what is wrong with its value shows no sooner.
-/

namespace Federation.Command

/-- Why arguments give nothing to run. -/
inductive Usage where
  | help
  /-- They say nothing at all. -/
  | nothingSaid
  | version
  | unknownArgument
  | unknownCommand
  | missingCommand
  /-- A parameter that is needed has no value. -/
  | missingArgument
  /-- A parameter is given more than once. -/
  | repeatedArgument
  /-- A parameter is named without a value. -/
  | emptyValue
  | wrongValue
  /-- Something that takes no value is given one. -/
  | excessValue
deriving DecidableEq, Repr

/-! ### Parameters -/

/-- What the value of a parameter is. -/
inductive ValueKind where
  | path
  /-- A number below `2 ^ 64`. -/
  | natural
deriving DecidableEq, Repr

/-- The number that a text writes; a plus sign may stand before it. -/
def natural? (text : String) : Option UInt64 := do
  let n ← Digits.natural? (match text.toList with
    | '+' :: rest => rest
    | cs => cs)
  if n < UInt64.size then some (UInt64.ofNat n) else none

/-- Checks a value. -/
def ValueKind.check (k : ValueKind) (value : String) : Except Usage Unit :=
  match k with
  | path => if value.isEmpty then .error .emptyValue else .ok ()
  | natural => if (natural? value).isNone then .error .wrongValue else .ok ()

/-- A parameter. -/
structure Parameter where
  name : String
  kind : ValueKind
  letter : Option Char := none
  /-- The environment variable that gives its value where no argument does. -/
  variableName : Option String := none

/-- What may be said at one point of the arguments. -/
structure Level where
  parameters : List Parameter
  commands : List String := []
  /-- Whether the version can be asked for. -/
  hasVersion : Bool := false

/-- What a name without a value asks for. -/
def Level.flag? (l : Level) (name : String) : Option Usage :=
  if name = "help" then some .help
  else if name = "version" && l.hasVersion then some .version
  else none

/-- The name that a letter without a value stands for. -/
def flagName : Char → String
  | 'h' => "help"
  | 'V' => "version"
  | _ => ""

/-! ### Single arguments -/

/-- The form of an argument. -/
inductive Argument where
  /-- Two dashes alone, after which no options come. -/
  | escape
  /-- A name after two dashes, with the value after an equals sign. -/
  | long (name : String) (value : Option String)
  /-- A letter after a dash, and what follows it. -/
  | short (letter : Char) (rest : List Char)
  | plain
deriving DecidableEq, Repr

/-- The form of an argument. -/
def Argument.ofText (text : String) : Argument :=
  match text.toList with
  | ['-', '-'] => escape
  | '-' :: '-' :: rest =>
    let name := rest.takeWhile (· ≠ '=')
    long (String.ofList name) (match rest.drop name.length with
      | _ :: value => some (String.ofList value)
      | [] => none)
  | '-' :: letter :: rest => short letter rest
  | _ => plain

/-- The value that follows a letter in the same argument. -/
def attached : List Char → Option String
  | [] => none
  | '=' :: value => some (String.ofList value)
  | value => some (String.ofList value)

/-! ### Sequences of arguments -/

/-- What was said so far. -/
structure Said where
  /-- The values of parameters. -/
  given : StringMap String := {}
  /-- The option that was begun last, with its value once that is known. -/
  begun : Option (Parameter × Option String) := none

namespace Said

/-- Whether the next argument is the value of an option. -/
def isWaiting (s : Said) : Bool := s.begun.any fun b => b.2.isNone

/-- Gives a value to a parameter. -/
def give (s : Said) (p : Parameter) (value : String) : Except Usage Said :=
  if s.given.contains p.name then .error .repeatedArgument
  else do
    p.kind.check value
    return { s with given := s.given.insert p.name value }

/-- Completes the option that was begun last. -/
def complete (s : Said) : Except Usage Said :=
  match s.begun with
  | none => .ok s
  | some (_, none) => .error .emptyValue
  | some (p, some value) => ({ s with begun := none } : Said).give p value

/-- Begins an option, which has a value at once if that is attached. -/
def begin (s : Said) (p : Parameter) (value : Option String) : Except Usage Said := do
  let s ← s.complete
  match value with
  | none => return { s with begun := some (p, none) }
  | some value => s.give p value

/-- Takes an argument as the value of the option that was begun last. -/
def supply (s : Said) (value : String) : Said :=
  { s with begun := s.begun.map fun b => (b.1, some value) }

/-- Ends by what a name without a value asks for. -/
def ask (s : Said) (u : Usage) : Except Usage Said := do
  let _ ← s.complete
  .error u

/-- Takes a name after two dashes. -/
def long (s : Said) (l : Level) (name : String) (value : Option String) : Except Usage Said :=
  match l.parameters.find? (·.name = name) with
  | some p => s.begin p value
  | none =>
    match l.flag? name with
    | none => .error .unknownArgument
    | some u => if value.isSome then .error .excessValue else s.ask u

/-- Takes a letter after a dash and what follows it. -/
def short (s : Said) (l : Level) (letter : Char) (rest : List Char) : Except Usage Said :=
  match l.parameters.find? (·.letter = some letter) with
  | some p => s.begin p (attached rest)
  | none =>
    match l.flag? (flagName letter) with
    | none => .error .unknownArgument
    | some u => s.ask u

end Said

/-- What is wrong with an argument that is neither an option nor a value nor a command. -/
def Level.stray (l : Level) : Usage :=
  if l.commands.isEmpty then .unknownArgument else .unknownCommand

/-- What is wrong with the first argument after two dashes alone, if there is any. -/
def Level.escaped (l : Level) : List String → Except Usage Unit
  | [] => .ok ()
  | argument :: _ =>
    .error (if l.commands.contains argument then .unknownArgument else l.stray)

/-- What arguments ask that name the command `help` and are followed by others: help, on
a command if they name one. -/
def Level.helpOn (l : Level) : List String → Usage
  | [] => .help
  | [command] => if l.commands.contains command then .help else .unknownCommand
  | _ => .unknownCommand

/-- What arguments say up to a command, with that command and the arguments after it. -/
def Level.scan (l : Level) :
    Said → List String → Except Usage (Said × Option (String × List String))
  | s, [] => .ok (s, none)
  | s, argument :: rest =>
    if !s.isWaiting && l.commands.contains argument then
      if argument = "help" then .error (l.helpOn rest) else .ok (s, some (argument, rest))
    else match Argument.ofText argument with
      | .escape => (l.escaped rest).map fun _ => (s, none)
      | .long name value => do l.scan (← s.long l name value) rest
      | .short letter tail => do l.scan (← s.short l letter tail) rest
      | .plain => if s.isWaiting then l.scan (s.supply argument) rest else .error l.stray

/-- The value that a variable gives to a parameter. -/
def Parameter.fromVariable (p : Parameter) (env : String → Option String) : Option String :=
  p.variableName.bind env

/-- Completes what was said: a parameter without a value must have an acceptable one in
its variable, if that is set. -/
def Level.finish (l : Level) (env : String → Option String) (s : Said) :
    Except Usage (StringMap String) := do
  let s ← s.complete
  l.parameters.forM fun p =>
    match p.fromVariable env with
    | some value => if s.given.contains p.name then .ok () else p.kind.check value
    | none => .ok ()
  return s.given

end Federation.Command
