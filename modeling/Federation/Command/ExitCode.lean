import Federation.Decision

/-!
# Exit codes

What a command tells by its exit code.
-/

namespace Federation.Command

/-- How a command ended. -/
inductive Outcome where
  | success
  | failure
  | denied
  | ambiguous
  | timeout
  | drift
  | broken
deriving DecidableEq, Repr

/-- The exit code of an outcome. -/
def Outcome.exitCode : Outcome → Nat
  | success => 0
  | failure => 1
  | denied => 2
  | ambiguous => 3
  | timeout => 4
  | drift => 5
  | broken => 6

/-- The exit code of a command that breaks off. -/
def brokenOffCode : Nat := 101

/-- How a command that decides on a token ends. -/
def ofDecision (d : Decision) : Outcome :=
  match d.reason? with
  | none => .success
  | some .ambiguous => .ambiguous
  | some .timeout => .timeout
  | some _ => .denied

end Federation.Command
