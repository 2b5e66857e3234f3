import Federation.Binding.Set
import Federation.Decision
import Federation.Token

/-!
# Evaluating tokens

`evaluate` decides what a token is granted from a set of bindings.  The first check
that fails denies it: the token is not expired, its issuer is known, some binding of
the issuer accepts one of its audiences, and of these exactly one has its bound claims
matched and is for the subject.  Several matches are never told apart, they deny.

An evaluation passes a checkpoint at its beginning and one for each binding that is
compared; it may be interrupted at any of them and then decides nothing.
-/

namespace Federation

/-- Why an evaluation did not come to a decision. -/
inductive Interruption where
  /-- Its deadline passed. -/
  | deadlineExceeded
  | cancelled
deriving DecidableEq, Repr

/-- The text of an interruption. -/
def Interruption.message : Interruption → String
  | .deadlineExceeded => "evaluation deadline exceeded"
  | .cancelled => "evaluation cancelled"

/-- What an evaluation depends on beside the token and the set. -/
structure EvalContext where
  /-- The time of the evaluation. -/
  now : Instant
  /-- The seconds that a credential is requested for. -/
  requestedTtl : Option UInt64 := none
  /-- What interrupts the evaluation at each of its checkpoints. -/
  interrupted : Nat → Option Interruption := fun _ => none

/-! ### Comparing claims -/

/-- Whether a token has a claim with a value of the declared type whose text is
`expected`. -/
def claimMatches (schema : ClaimSchema) (t : IdentityToken) (claim expected : String) : Bool :=
  match t.claim? claim with
  | none => false
  | some value =>
    (schema.claimType? claim).all (·.accepts value) && scalarText? value = some expected

/-- Whether a token matches all bound claims, and the values that were looked at up to
the first one that does not match. -/
def compareClaims (schema : ClaimSchema) (t : IdentityToken) :
    List (String × String) → List (String × Json) × Bool
  | [] => ([], true)
  | (claim, expected) :: rest =>
    let seen := (t.claim? claim).toList.map ((claim, ·))
    if claimMatches schema t claim expected then
      let (more, ok) := compareClaims schema t rest
      (seen ++ more, ok)
    else (seen, false)

/-- Adds values to a map of claims. -/
def recordClaims (claims : StringMap Json) (seen : List (String × Json)) : StringMap Json :=
  seen.foldl (fun m e => m.insert e.1 e.2) claims

/-- The values that a binding maps claims of a token to, by claim. -/
def mappedClaims (t : IdentityToken) (b : Binding) : List (String × Json) :=
  b.claimMappings.entries.filterMap fun e => (t.claim? e.1).map ((e.1, ·))

/-- The attributes that a binding records for a token. -/
def mappedAttributes (t : IdentityToken) (b : Binding) : StringMap Json :=
  StringMap.ofList
    (b.claimMappings.entries.filterMap fun e => (t.claim? e.1).map ((e.2, ·)))

/-! ### Deciding -/

/-- The decision on a token for the bindings that accept one of its audiences. -/
def settle (schema : ClaimSchema) (s : BindingSet) (t : IdentityToken) (ctx : EvalContext)
    (candidates : List Binding) : Decision :=
  let compared := candidates.map fun b => (b, compareClaims schema t b.boundClaims.entries)
  let considered := recordClaims (StringMap.empty.insert "sub" (.string t.subject))
    (compared.flatMap fun c => c.2.1)
  let agreeing := (compared.filter fun c => c.2.2).map Prod.fst
  let deny (reason : DenialReason) : Decision :=
    { Decision.deny reason s.revision t.issuer t.subject ctx.now with claims := considered }
  match agreeing.filter fun b => t.subject = b.subject with
  | [b] =>
    { verdict := .granted b.key b.policy (b.effectiveTtl ctx.requestedTtl)
      revision := s.revision
      issuer := t.issuer
      subject := t.subject
      claims := recordClaims considered (mappedClaims t b)
      attributes := mappedAttributes t b
      evaluatedAt := ctx.now }
  | [] => if agreeing.isEmpty then deny .claimMismatch else deny .subjectMismatch
  | _ => deny .ambiguous

/-- The first interruption at the checkpoints of so many candidates. -/
def EvalContext.firstInterruption? (ctx : EvalContext) (candidates : Nat) : Option Interruption :=
  (List.range candidates).findSome? fun i => ctx.interrupted (i + 1)

/-- The bindings of a token's issuer that accept one of its audiences. -/
def BindingSet.candidates (s : BindingSet) (t : IdentityToken) : List Binding :=
  (s.forIssuer t.issuer).filter fun b => b.boundAudiences.meets t.audience

/-- Evaluates a token against a set. -/
def evaluate (s : BindingSet) (t : IdentityToken) (ctx : EvalContext) :
    Except Interruption Decision :=
  let deny (reason : DenialReason) : Decision :=
    Decision.deny reason s.revision t.issuer t.subject ctx.now
  match ctx.interrupted 0 with
  | some i => .error i
  | none =>
    if t.isExpiredAt ctx.now then .ok (deny .expired)
    else
      match s.issuer? t.issuer with
      | none => .ok (deny .issuerUnknown)
      | some issuer =>
        let candidates := s.candidates t
        if candidates.isEmpty then .ok (deny .audienceMismatch)
        else
          match ctx.firstInterruption? candidates.length with
          | some i => .error i
          | none => .ok (settle issuer.claimSchema s t ctx candidates)

end Federation
