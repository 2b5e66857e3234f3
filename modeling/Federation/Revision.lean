/-!
# Revisions

Every set of bindings has a revision, a number of 64 bits, and the set that comes after it
has the next one.  No revision comes after the last: work that needs one breaks off, with
neither a result nor an error, and leaves everything as it is.
-/

namespace Federation

/-- How work ends that comes to no result. -/
inductive Stop (ε : Type) where
  /-- It fails. -/
  | failed (e : ε)
  /-- It breaks off, since no revision comes after the last. -/
  | overflow
deriving DecidableEq

/-- How work ends that another part of it stops. -/
def Stop.map {ε ε' : Type} (f : ε → ε') : Stop ε → Stop ε'
  | failed e => failed (f e)
  | overflow => overflow

/-- The revision after another one. -/
def revisionAfter {ε : Type} (revision : UInt64) : Except (Stop ε) UInt64 :=
  if revision.toNat + 1 < UInt64.size then .ok (revision + 1) else .error .overflow

end Federation
