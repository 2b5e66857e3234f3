import Federation.Binding.Group
import Federation.Binding.Set
import Federation.Issuer.Registry
import Federation.Policy
import Federation.Revision
import Federation.Template

/-!
# Compiling groups of bindings

`CompilePass.add` checks a group against the registered issuers and the policies and
adds a binding for each of its environments and operations, in ascending order.  No two
bindings of a pass may have one key or accept the same tokens.  A pass that fails
leaves nothing behind: `compileAt` gives a whole set or an error.
-/

namespace Federation

/-- A list that a group has to fill. -/
inductive Domain.Kind where
  | environment
  | operation
  | audience
deriving DecidableEq

/-- The word for a list. -/
def Domain.Kind.word : Domain.Kind → String
  | .environment => "environment"
  | .operation => "operation"
  | .audience => "audience"

/-- A name that goes into the key of a binding. -/
inductive KeyPart where
  | environment
  | operation
  | keyPrefix
deriving DecidableEq

/-- The words for a part of a key. -/
def KeyPart.word : KeyPart → String
  | .environment => "environment"
  | .operation => "operation"
  | .keyPrefix => "key prefix"

/-- Why groups cannot be compiled. -/
inductive CompileError where
  /-- Two bindings have one key or accept the same tokens. -/
  | duplicateBinding (key : String)
  /-- Credentials would be granted for longer than they may. -/
  | invalidTtl (tokenTtl maxTtl : UInt64)
  | unknownIssuer (reference : String)
  /-- There is no policy of that name. -/
  | unknownPolicy (name : String)
  /-- A template has a brace that opens no placeholder. -/
  | unknownPlaceholder (template placeholder : String)
  /-- The issuer does not declare a claim, or not as one that can be compared. -/
  | unknownClaim (issuer claim : String)
  | emptyDomain (kind : Domain.Kind)
  | invalidName (part : KeyPart) (name : String)
  | audienceNotAccepted (issuer audience : String)
deriving DecidableEq

/-- The text of an error. -/
def CompileError.message : CompileError → String
  | .duplicateBinding key => "Duplicate binding: " ++ key
  | .invalidTtl tokenTtl maxTtl =>
    "Invalid TTL: token TTL " ++ Digits.text tokenTtl.toNat ++ "s exceeds max TTL "
      ++ Digits.text maxTtl.toNat ++ "s"
  | .unknownIssuer reference => "Unknown issuer: " ++ reference
  | .unknownPolicy name => "Unknown policy: " ++ name
  | .unknownPlaceholder template placeholder =>
    "Unknown placeholder '" ++ placeholder ++ "' in template '" ++ template ++ "'"
  | .unknownClaim issuer claim =>
    "Claim '" ++ claim ++ "' is not declared by issuer '" ++ issuer ++ "'"
  | .emptyDomain kind => "Empty " ++ kind.word ++ " domain"
  | .invalidName part name => "Invalid " ++ part.word ++ " name: '" ++ name ++ "'"
  | .audienceNotAccepted issuer audience =>
    "Audience '" ++ audience ++ "' is not accepted by issuer '" ++ issuer ++ "'"

/-- Reads a template; an unknown placeholder is an error that names the template. -/
def parseTemplate (text : String) : Except CompileError Template :=
  match Template.parse text with
  | .ok t => .ok t
  | .error placeholder => .error (.unknownPlaceholder text placeholder)

/-- The text of a template for an environment and an operation. -/
def interpolate (text environment operation : String) : Except CompileError String :=
  (parseTemplate text).map fun t => t.render environment operation

/-! ### Checking a group -/

/-- Whether a character may stand in a name that goes into a key. -/
def isKeyChar (c : Char) : Bool := c.isAlphanum || c = '-' || c = '_' || c = '.'

/-- Whether a name may go into a key. -/
def isKeyName (name : String) : Bool := !name.isEmpty && name.toList.all isKeyChar

/-- Refuses the first name that cannot go into a key. -/
def checkNames (part : KeyPart) (names : List String) : Except CompileError Unit :=
  match names.find? fun name => !isKeyName name with
  | some name => .error (.invalidName part name)
  | none => .ok ()

/-- Whether a claim can be compared with a text. -/
def isComparable (schema : ClaimSchema) (claim : String) : Bool :=
  (schema.claimType? claim).any ClaimType.isScalar

/-- Refuses the first bound claim that cannot be compared, then the first mapped claim
that is not declared. -/
def checkClaims (issuer : Issuer) (g : BindingGroup) : Except CompileError Unit :=
  match g.boundClaims.keys.find? fun claim => !isComparable issuer.claimSchema claim with
  | some claim => .error (.unknownClaim issuer.id claim)
  | none =>
    match g.claimMappings.keys.find? fun claim => !issuer.claimSchema.declares claim with
    | some claim => .error (.unknownClaim issuer.id claim)
    | none => .ok ()

/-- The audiences of a group, all of them accepted by the issuer. -/
def resolveAudiences (issuer : Issuer) (g : BindingGroup) : Except CompileError StringSet :=
  let audiences := g.boundAudiences.getD issuer.audiences
  if audiences.isEmpty then .error (.emptyDomain .audience)
  else
    match audiences.elements.find? fun a => !issuer.audiences.contains a with
    | some a => .error (.audienceNotAccepted issuer.id a)
    | none => .ok audiences

/-- Reads the templates of bound claims, by ascending claim. -/
def parseClaims : List (String × String) → Except CompileError (List (String × Template))
  | [] => .ok []
  | (claim, text) :: rest => do
    let t ← parseTemplate text
    let ts ← parseClaims rest
    .ok ((claim, t) :: ts)

/-- A group that has passed its checks. -/
structure CheckedGroup where
  group : BindingGroup
  /-- The issuer it refers to. -/
  issuer : Issuer
  audiences : StringSet
  subject : Template
  /-- The templates of the bound claims. -/
  claims : List (String × Template)

/-- Checks a group against the registered issuers and the policies. -/
def BindingGroup.check (registry : Registry) (policies : PolicyStore) (g : BindingGroup) :
    Except CompileError CheckedGroup := do
  if g.maxTtl < g.tokenTtl then .error (.invalidTtl g.tokenTtl g.maxTtl)
  let issuer ← match registry.resolve? g.issuer with
    | some issuer => .ok issuer
    | none => .error (.unknownIssuer g.issuer)
  if !policies.contains g.policy then .error (.unknownPolicy g.policy)
  if g.environments.isEmpty then .error (.emptyDomain .environment)
  if g.operations.isEmpty then .error (.emptyDomain .operation)
  checkNames .environment g.environments
  checkNames .operation g.operations
  checkNames .keyPrefix g.keyPrefix.toList
  checkClaims issuer g
  let audiences ← resolveAudiences issuer g
  let subject ← parseTemplate g.subjectTemplate
  let claims ← parseClaims g.boundClaims.entries
  .ok ⟨g, issuer, audiences, subject, claims⟩

/-! ### Expanding a group -/

/-- The key of a binding. -/
def bindingKey (keyPrefix : Option String) (operation environment : String) : String :=
  match keyPrefix with
  | some p => p ++ "-" ++ operation ++ "-" ++ environment
  | none => operation ++ "-" ++ environment

namespace CheckedGroup

/-- The binding of a group for an environment and an operation. -/
def binding (c : CheckedGroup) (environment operation : String) : Binding where
  key := bindingKey c.group.keyPrefix operation environment
  environment := environment
  operation := operation
  issuerId := c.issuer.id
  issuer := c.issuer.issuerUrl
  subject := c.subject.render environment operation
  boundAudiences := c.audiences
  boundClaims := StringMap.ofList (c.claims.map fun e => (e.1, e.2.render environment operation))
  claimMappings := c.group.claimMappings
  tokenTtl := c.group.tokenTtl
  maxTtl := c.group.maxTtl
  policy := c.group.policy

/-- Puts a name in its place in an ascending list. -/
def insertName (name : String) : List String → List String
  | [] => [name]
  | a :: rest => if name ≤ a then name :: a :: rest else a :: insertName name rest

/-- A list of names in ascending order, repetitions kept. -/
def sorted (names : List String) : List String := names.foldr insertName []

/-- The bindings of a group, by ascending environment and then operation. -/
def bindings (c : CheckedGroup) : List Binding :=
  (sorted c.group.environments).flatMap fun environment =>
    (sorted c.group.operations).map (c.binding environment)

end CheckedGroup

/-! ### Passes -/

/-- The bindings compiled so far. -/
structure CompilePass where
  /-- The revision of the set that the pass will give. -/
  revision : UInt64
  /-- The bindings by key. -/
  bindings : StringMap Binding := {}
  /-- The issuers they refer to, by URL. -/
  issuers : StringMap Issuer := {}

namespace CompilePass

/-- Adds a binding whose key is new and that accepts other tokens than the ones before. -/
def insertBinding (bindings : StringMap Binding) (b : Binding) :
    Except CompileError (StringMap Binding) :=
  if bindings.contains b.key then .error (.duplicateBinding b.key)
  else if bindings.values.any fun other => other.trustTuple = b.trustTuple then
    .error (.duplicateBinding b.key)
  else .ok (bindings.insert b.key b)

/-- Adds the bindings of a group. -/
def add (registry : Registry) (policies : PolicyStore) (p : CompilePass) (g : BindingGroup) :
    Except CompileError CompilePass := do
  let c ← g.check registry policies
  let bindings ← c.bindings.foldlM insertBinding p.bindings
  .ok { p with bindings := bindings, issuers := p.issuers.insert c.issuer.issuerUrl c.issuer }

/-- The number of bindings. -/
def size (p : CompilePass) : Nat := p.bindings.size

/-- Whether there is no binding. -/
def isEmpty (p : CompilePass) : Bool := p.bindings.isEmpty

/-- The set of the compiled bindings. -/
def finish (p : CompilePass) : BindingSet := .ofBindings p.revision p.bindings p.issuers

end CompilePass

/-- Compiles groups to a set of a revision. -/
def compileAt (registry : Registry) (policies : PolicyStore) (revision : UInt64)
    (groups : List BindingGroup) : Except CompileError BindingSet :=
  (groups.foldlM (CompilePass.add registry policies) { revision := revision }).map
    CompilePass.finish

/-- Compiles groups to the set that comes after `previous`. -/
def compileAll (registry : Registry) (policies : PolicyStore) (previous : BindingSet)
    (groups : List BindingGroup) : Except (Stop CompileError) BindingSet := do
  let revision ← revisionAfter previous.revision
  (compileAt registry policies revision groups).mapError .failed

end Federation
