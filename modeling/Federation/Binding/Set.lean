import Federation.Binding.Diff
import Federation.Binding.Digest
import Federation.Issuer

/-!
# Sets of bindings

A `BindingSet` is what tokens are evaluated against: bindings by key, the issuers they
refer to by URL, and a revision that grows with every new set.  Two indexes list the
keys of the bindings of an issuer and of the bindings for an environment and an
operation.
-/

namespace Federation

/-- A set of bindings with the issuers they refer to. -/
structure BindingSet where
  revision : UInt64
  /-- The bindings by key. -/
  bindings : StringMap Binding
  issuers : StringMap Issuer
  /-- The keys of the bindings of an issuer, by its URL. -/
  byIssuer : StringMap (List String)
  /-- The keys of the bindings by environment and operation. -/
  byScope : StringMap (StringMap (List String))

namespace BindingSet

/-- Adds a key to the list under a name. -/
def appendKey (index : StringMap (List String)) (name key : String) : StringMap (List String) :=
  index.insert name ((index.get? name).getD [] ++ [key])

/-- Adds a key to the list under an environment and an operation. -/
def appendScope (index : StringMap (StringMap (List String))) (b : Binding) :
    StringMap (StringMap (List String)) :=
  index.insert b.environment
    (appendKey ((index.get? b.environment).getD {}) b.operation b.key)

/-- The set of some bindings and issuers. -/
def ofBindings (revision : UInt64) (bindings : StringMap Binding) (issuers : StringMap Issuer) :
    BindingSet where
  revision := revision
  bindings := bindings
  issuers := issuers
  byIssuer := bindings.values.foldl (fun index b => appendKey index b.issuer b.key) {}
  byScope := bindings.values.foldl appendScope {}

/-- The set without a binding, at revision 0. -/
def empty : BindingSet := ofBindings 0 {} {}

instance : Inhabited BindingSet := ⟨empty⟩

/-- The number of bindings. -/
def size (s : BindingSet) : Nat := s.bindings.size

/-- Whether there is no binding. -/
def isEmpty (s : BindingSet) : Bool := s.bindings.isEmpty

/-- The binding of a key. -/
def get? (s : BindingSet) (key : String) : Option Binding := s.bindings.get? key

/-- Whether there is a binding of a key. -/
def contains (s : BindingSet) (key : String) : Bool := s.bindings.contains key

/-- The issuer with a URL. -/
def issuer? (s : BindingSet) (url : String) : Option Issuer := s.issuers.get? url

/-- The bindings of an issuer, by ascending key. -/
def forIssuer (s : BindingSet) (url : String) : List Binding :=
  ((s.byIssuer.get? url).getD []).filterMap s.get?

/-- The bindings for an environment and an operation, by ascending key. -/
def forScope (s : BindingSet) (environment operation : String) : List Binding :=
  (((s.byScope.get? environment).bind (·.get? operation)).getD []).filterMap s.get?

/-- The bindings, by ascending key. -/
def records (s : BindingSet) : List Binding := s.bindings.values

/-- The digest of the bindings. -/
def digest (s : BindingSet) : String := Binding.digest s.records

/-- The difference between a set and the one after it. -/
def diff (s next : BindingSet) : BindingDiff := .between s.records next.records

end BindingSet
end Federation
