import Federation.Issuer.Registry
import Federation.Proofs.Binding.Set

/-!
# Registered issuers

A registry is filled by registering issuers, cycle by cycle, and an issuer is registered
only when it passes every check (`validate_of_reachable`).  A compiled set knows only
issuers of its registry, so the discovery document of each of them is reached over a
protected channel (`isProtectedUrl_of_issuer?`).
-/

namespace Federation

/-! ### Protected channels -/

/-- The hosts that are the machine itself: `localhost`, `127.0.0.1` and `::1`. -/
def loopbackHosts : List Host :=
  [.name "localhost", .ipv4 0x7F000001, .ipv6 [0, 0, 0, 0, 0, 0, 0, 1]]

/-- Whether what is fetched from a URL cannot be changed on the way: it has a host, and
it is fetched over HTTPS, or over HTTP from the machine itself. -/
def IsProtectedUrl (text : String) : Prop :=
  ∃ url host, Url.parse text = .ok url ∧ url.host = some host
    ∧ (url.scheme = "https" ∨ url.scheme = "http" ∧ host ∈ loopbackHosts)

theorem mem_loopbackHosts_iff (host : Host) :
  host ∈ loopbackHosts ↔ host.isLoopback = true
  := by
  cases host <;> simp [loopbackHosts, Host.isLoopback]

theorem isProtected_iff (scheme : String) (host : Host) :
  isProtected scheme host = true ↔ scheme = "https" ∨ scheme = "http" ∧ host ∈ loopbackHosts
  := by
  rw [mem_loopbackHosts_iff]
  simp [isProtected]

/-- The URLs that pass the check of discovery documents are protected. -/
theorem isProtectedUrl_of_checkDiscoveryUrl {text : String}
    (h : checkDiscoveryUrl text = .ok ()) :
  IsProtectedUrl text
  := by
  rw [checkDiscoveryUrl] at h
  split at h
  · cases h
  rename_i url hparse
  split at h
  · cases h
  rename_i host hhost
  split at h
  · cases h
  rename_i hprotected
  use url, host, hparse, hhost
  apply (isProtected_iff url.scheme host).mp
  simpa using hprotected

theorem isProtectedUrl_of_validate {i : Issuer} (h : i.validate = .ok ()) :
  IsProtectedUrl i.discoveryUrl
  := by
  rw [Issuer.validate] at h
  split at h
  · cases h
  · rename_i hcheck
    apply isProtectedUrl_of_checkDiscoveryUrl hcheck

/-! ### Registries -/

namespace Registry

/-- The registries that are filled by registering issuers. -/
inductive Reachable : Registry → Prop where
  | empty : Reachable empty
  | beginCycle {r : Registry} (h : Reachable r) : Reachable r.beginCycle
  | register {r r' : Registry} {i : Issuer} (h : Reachable r) (hi : r.register i = .ok r') :
    Reachable r'

/-- The issuers after a registration: the new one, and those before that have neither its
identifier nor its URL. -/
theorem get?_replace (r : Registry) (i : Issuer) (id : String) :
  (r.replace i).get? id
    = if id = i.id then some i
      else if r.byUrl.get? i.issuerUrl = some id then none else r.get? id
  := by
  rw [get?, replace, StringMap.get?_insert, get?_evictOwner]
  split
  · rfl
  · rename_i hid
    simp [hid, get?]

/-- An issuer is registered when it passes every check and is new in the cycle. -/
theorem register_eq_ok_iff {r next : Registry} {i : Issuer} :
  r.register i = .ok next
    ↔ i.validate = .ok () ∧ i.id ∉ r.cycleIds.elements ∧ i.issuerUrl ∉ r.cycleUrls.elements
      ∧ r.replace i = next
  := by
  rw [← StringSet.contains_iff, ← StringSet.contains_iff, register]
  cases i.validate with
  | error e => simp
  | ok u =>
    cases r.cycleIds.contains i.id with
    | true => simp
    | false =>
      cases r.cycleUrls.contains i.issuerUrl with
      | true => simp
      | false => simp

/-- Registered issuers pass every check. -/
theorem validate_of_reachable {r : Registry} (h : Reachable r) {id : String} {i : Issuer}
    (hi : r.get? id = some i) :
  i.validate = .ok ()
  := by
  induction h with
  | empty => cases hi
  | beginCycle _ ih => apply ih hi
  | register _ hregister ih =>
    obtain ⟨hvalid, -, -, rfl⟩ := register_eq_ok_iff.mp hregister
    rw [get?_replace] at hi
    split at hi
    · cases hi
      apply hvalid
    · split at hi
      · cases hi
      · apply ih hi

end Registry

/-! ### Compiled sets -/

section

variable {registry : Registry} {policies : PolicyStore} {revision : UInt64}
  {groups : List BindingGroup} {s : BindingSet}

/-- A compiled set knows only issuers of its registry. -/
theorem get?_of_issuer? (h : compileAt registry policies revision groups = .ok s) {url : String}
    {i : Issuer} (hi : s.issuer? url = some i) :
  registry.get? i.id = some i
  := by
  obtain ⟨-, g, -, hresolves⟩ := (issuer?_eq_some_iff h).mp hi
  apply Registry.get?_of_resolve? hresolves

/-- The discovery documents of the issuers of a compiled set are reached over a protected
channel. -/
theorem isProtectedUrl_of_issuer? (hr : registry.Reachable)
    (h : compileAt registry policies revision groups = .ok s) {url : String} {i : Issuer}
    (hi : s.issuer? url = some i) :
  IsProtectedUrl i.discoveryUrl
  := by
  apply isProtectedUrl_of_validate
  apply Registry.validate_of_reachable hr (get?_of_issuer? h hi)

end
end Federation
