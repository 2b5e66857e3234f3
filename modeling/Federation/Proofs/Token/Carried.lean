import Federation.Authenticator
import Federation.Proofs.Json.Document
import Federation.Proofs.Jwt

/-!
# What of a claim object can be looked up

`carried? members name` is the value that the members of a claim object hold under a name.
An identity that is decoded from the object has this value under the name, except for the
names of audience, expiry and time of issue: these have a place of their own in an identity,
and looking them up as claims gives nothing (`Authenticator.sees_of_decode`).

Groups of bindings may refer to these three nevertheless, since every issuer is taken to
declare them.  So of the claims that a binding refers to and that a token carries all are
seen but these (`claim?_eq_some_iff_of_refersTo`): a binding that binds one of them agrees
with no identity that is decoded, and none of them is mapped to an attribute.
-/

namespace Federation

open Json (Document)

/-! ### Claim objects -/

/-- The value under a name in a claim object: of several ones, the last. -/
def carried? (members : List (Option String × Document)) (name : String) : Option Json :=
  (Document.given members name).getLast?.bind (Document.toJson? (Document.maxDepth - 1))

/-- The claims that have a place of their own in an identity and are not looked up there. -/
def IdentityToken.unseen : List String := ["aud", "exp", "iat"]

/-- An identity has the claims of a claim object, but those that are not looked up. -/
def IdentityToken.Sees (t : IdentityToken) (members : List (Option String × Document)) : Prop :=
  ∀ name, t.claim? name = if name ∈ unseen then none else carried? members name

theorem IdentityToken.Sees.claim?_eq_none {t : IdentityToken}
    {members : List (Option String × Document)} (h : t.Sees members) {name : String}
    (hunseen : name ∈ unseen) :
  t.claim? name = none
  := by rw [h name, if_pos hunseen]

/-- The text of a token in a format has a claim object with the given members. -/
def TokenFormat.Presents (raw : String) (members : List (Option String × Document)) :
    TokenFormat → Prop
  | .jwt => ∃ t, Jwt.Compact.ofChars? raw.toList = some t ∧ t.Carries members
  | .sample => Document.parse? raw = some (.object members)

/-- The text of a token has one claim object. -/
theorem TokenFormat.Presents.unique {format : TokenFormat} {raw : String}
    {members members' : List (Option String × Document)} (h : format.Presents raw members)
    (h' : format.Presents raw members') :
  members = members'
  := by
  cases format with
  | jwt =>
    obtain ⟨t, ht, bytes, hbytes, hdoc⟩ := h
    obtain ⟨t', ht', bytes', hbytes', hdoc'⟩ := h'
    obtain rfl : t = t' := Option.some.inj (ht.symm.trans ht')
    obtain rfl : bytes = bytes' := Option.some.inj (hbytes.symm.trans hbytes')
    exact Document.object.inj (Option.some.inj (hdoc.symm.trans hdoc'))
  | sample => exact Document.object.inj (Option.some.inj (Eq.trans (Eq.symm h) h'))

theorem ClaimSet.ReadFrom.sees_of_toToken {c : ClaimSet}
    {members : List (Option String × Document)} (hc : c.ReadFrom (Document.maxDepth - 1) members)
    {now : Instant} {defaultExpiry : Option Instant} {token : IdentityToken}
    (h : c.toToken now defaultExpiry = .ok token) :
  token.Sees members
  := by
  intro name
  obtain ⟨hissuer, hsubject, hothers, -⟩ := ClaimSet.eq_of_toToken h
  have hothers := hothers ▸ hc.others name
  rw [IdentityToken.claim?]
  -- subject and issuer are kept apart as well, but looked up where they are kept
  by_cases hsub : name = "sub"
  · obtain ⟨doc, hgiven, hread⟩ := hsubject ▸ hc.subject
    subst hsub
    rw [if_pos rfl, if_neg (by decide), carried?, hgiven, eq_string_of_text hread]
    rfl
  by_cases hiss : name = "iss"
  · obtain ⟨doc, hgiven, hread⟩ := hissuer ▸ hc.issuer
    subst hiss
    rw [if_neg hsub, if_pos rfl, if_neg (by decide), carried?, hgiven, eq_string_of_text hread]
    rfl
  have hunseen : name ∈ ClaimSet.fieldNames ↔ name ∈ IdentityToken.unseen := by
    simp [ClaimSet.fieldNames, IdentityToken.unseen, hsub, hiss]
  simp only [if_neg hsub, if_neg hiss, hothers, hunseen, carried?]

/-! ### Tokens that are decoded -/

namespace Keys.Fetch

variable {α β : Type}

theorem exists_of_bind_eq_ok {m : Fetch α} {f : α → Fetch β} {ring : KeyRing} {b : β}
    (h : ((m >>= f).run.run ring).1 = .ok b) :
  ∃ a ring', (m.run.run ring).1 = .ok a ∧ ((f a).run.run ring').1 = .ok b
  := by
  rw [ExceptT.run_bind, StateT.run_bind] at h
  rcases hrun : m.run.run ring with ⟨r, ring'⟩
  rw [hrun] at h
  cases r with
  | error e => cases h
  | ok a => exact ⟨a, ring', rfl, h⟩

theorem run_lift (x : Except TokenError α) (ring : KeyRing) :
  ((liftM x : Fetch α).run.run ring).1 = x
  := by cases x <;> rfl

end Keys.Fetch

open Keys

/-- A web token that is decoded has a claim object, whatever was fetched before. -/
theorem Jwt.sees_of_decode {verifies : Jwt.Verifier} {web : Web} {accepted : Jwt.Accepted}
    {now : Instant} {raw : String} {s : BindingSet} {ring : KeyRing} {token : IdentityToken}
    (h : ((Jwt.decode verifies web accepted now raw s).run.run ring).1 = .ok token) :
  ∃ members, TokenFormat.jwt.Presents raw members ∧ token.Sees members
  := by
  rw [decode] at h
  obtain ⟨p, ring', hinspect, h⟩ := Fetch.exists_of_bind_eq_ok h
  obtain ⟨k, ring'', -, h⟩ := Fetch.exists_of_bind_eq_ok h
  rw [Fetch.run_lift] at hinspect h
  have hp := readFrom_of_inspect hinspect
  obtain ⟨members, hcarries, hread⟩ := Compact.exists_carries_of_payload? hp.payload
  exact ⟨members, ⟨p.token, hp.token, hcarries⟩,
    hread.sees_of_toToken (exists_key_of_verifyWith h).2⟩

theorem sees_of_readSample {now : Instant} {raw : String} {token : IdentityToken}
    (h : readSample now raw = .ok token) :
  ∃ members, TokenFormat.sample.Presents raw members ∧ token.Sees members
  := by
  rw [readSample] at h
  split at h
  · cases h
  · rename_i c hc
    obtain ⟨doc, hdoc, hread⟩ := Option.bind_eq_some_iff.mp hc
    obtain ⟨members, rfl, hmembers⟩ := ClaimSet.readFrom_of_decoder hread
    exact ⟨members, hdoc, hmembers.sees_of_toToken h⟩

namespace Authenticator

variable {a : Authenticator} {web : Web} {now : Instant} {format : TokenFormat} {raw : String}
  {s : BindingSet} {ring : KeyRing} {token : IdentityToken}

theorem format_of_handler? {h : TokenHandler} (hhandler : a.handler? format = some h) :
  h.format = format
  := by
  have hformat := List.find?_some hhandler
  apply of_decide_eq_true hformat

/-- The identity that a token proves has the claims of the claim object of the token. -/
theorem sees_of_decode (h : ((a.decode web now format raw s).run.run ring).1 = .ok token)
    {members : List (Option String × Document)} (hmembers : format.Presents raw members) :
  token.Sees members
  := by
  rw [decode] at h
  split at h
  · cases h
  · rename_i hhandler
    obtain rfl : TokenFormat.sample = format := format_of_handler? hhandler
    rw [Fetch.run_lift] at h
    obtain ⟨members', hmembers', hsees⟩ := sees_of_readSample h
    rwa [hmembers.unique hmembers']
  · rename_i hhandler
    obtain rfl : TokenFormat.jwt = format := format_of_handler? hhandler
    obtain ⟨members', hmembers', hsees⟩ := Jwt.sees_of_decode h
    rwa [hmembers.unique hmembers']

end Authenticator

/-! ### What bindings refer to -/

/-- A binding refers to the claims that it binds and to those that it maps to attributes. -/
def Binding.RefersTo (b : Binding) (name : String) : Prop :=
  name ∈ b.boundClaims.keys ∨ name ∈ b.claimMappings.keys

section Compiled

variable {registry : Registry} {policies : PolicyStore} {revision : UInt64}
  {groups : List BindingGroup} {s s' : BindingSet} {b : Binding} {name : String}

/-- The claims that a compiled binding refers to are declared by its issuer. -/
theorem declares_of_refersTo (h : compileAt registry policies revision groups = .ok s)
    (hb : b ∈ s.records) (hname : b.RefersTo name) :
  ∃ i, s.issuer? b.issuer = some i ∧ i.claimSchema.declares name = true
  := by
  obtain ⟨g, -, i, hi, hissuer, environment, -, operation, -, rfl⟩ :=
    exists_declared_of_mem_records h hb
  refine ⟨i, hissuer, declares_iff.mpr ?_⟩
  rcases hname with hbound | hmapped
  · obtain ⟨e, he, rfl⟩ := List.mem_map.mp hbound
    apply declared_of_mem_records h hb hissuer e he
  · obtain ⟨e, he, rfl⟩ := List.mem_map.mp hmapped
    apply hi.mapped_declared e he

variable {a : Authenticator} {web : Web} {now : Instant} {format : TokenFormat} {raw : String}
  {ring : KeyRing} {token : IdentityToken} {members : List (Option String × Document)}

/-- A claim that a compiled binding refers to is declared by its issuer; if a token carries
it, its value can be looked up in the identity exactly when the claim is none of audience,
expiry and time of issue. -/
theorem claim?_eq_some_iff_of_refersTo
    (hs : compileAt registry policies revision groups = .ok s) (hb : b ∈ s.records)
    (hname : b.RefersTo name)
    (h : ((a.decode web now format raw s').run.run ring).1 = .ok token)
    (hmembers : format.Presents raw members) {v : Json} (hv : carried? members name = some v) :
  (∃ i, s.issuer? b.issuer = some i ∧ i.claimSchema.declares name = true)
    ∧ (token.claim? name = some v ↔ name ∉ IdentityToken.unseen)
  := by
  refine ⟨declares_of_refersTo hs hb hname, ?_⟩
  rw [Authenticator.sees_of_decode h hmembers name, hv]
  by_cases hunseen : name ∈ IdentityToken.unseen
  · simp [hunseen]
  · simp [hunseen]

/-- A binding that binds one of these three claims agrees with no identity that is decoded. -/
theorem not_agrees_of_unseen (h : ((a.decode web now format raw s').run.run ring).1 = .ok token)
    (hmembers : format.Presents raw members) (hname : name ∈ b.boundClaims.keys)
    (hunseen : name ∈ IdentityToken.unseen) (schema : ClaimSchema) :
  ¬ b.Agrees schema token
  := by
  intro hagrees
  obtain ⟨e, he, rfl⟩ := List.mem_map.mp hname
  obtain ⟨-, -, value, hvalue, -⟩ := hagrees e he
  rw [(Authenticator.sees_of_decode h hmembers).claim?_eq_none hunseen] at hvalue
  cases hvalue

/-- None of these three claims of an identity that is decoded is mapped to an attribute. -/
theorem seen_of_mem_mappedClaims
    (h : ((a.decode web now format raw s').run.run ring).1 = .ok token)
    (hmembers : format.Presents raw members) (b : Binding) :
  ∀ e ∈ mappedClaims token b, e.1 ∉ IdentityToken.unseen
  := by
  intro e he hunseen
  obtain ⟨m, -, hmapped⟩ := List.mem_filterMap.mp he
  obtain ⟨value, hvalue, rfl⟩ := Option.map_eq_some_iff.mp hmapped
  rw [(Authenticator.sees_of_decode h hmembers).claim?_eq_none hunseen] at hvalue
  cases hvalue

end Compiled

/-! ### A sample token -/

namespace Sample

/-- The claim object of a token for one of the bindings. -/
def claimObject : Json := .object
  [("iss", .string "https://ci.example"), ("sub", .string "apply@dev"),
    ("exp", .number (.natural 60)), ("attempt", .number (.natural 1))]

def claimMembers : List (Option String × Document) :=
  [(some "iss", .string (some "https://ci.example")), (some "sub", .string (some "apply@dev")),
    (some "exp", .number (some (.natural 60))), (some "attempt", .number (some (.natural 1)))]

theorem presents_claimObject :
  TokenFormat.sample.Presents claimObject.compact claimMembers
  := by
  rw [TokenFormat.Presents, Document.parse?_compact]
  rfl

/-- The identity that the sample token proves. -/
def claimedToken : IdentityToken where
  issuer := "https://ci.example"
  subject := "apply@dev"
  claims := StringMap.ofList [("attempt", .number (.natural 1))]
  expiry := .addMillis .epoch 60000
  issuedAt := .epoch

def sampleBridge : Authenticator := .ofList [.sample]

theorem decode_claimObject (web : Web) (s : BindingSet) :
  ((sampleBridge.decode web .epoch .sample claimObject.compact s).run.run {}).1
    = .ok claimedToken
  := by
  have hread : readSample .epoch claimObject.compact = .ok claimedToken := by
    rw [readSample, Json.Decoder.ofText?, Document.parse?_compact]
    decide +kernel
  have hhandler : sampleBridge.handler? .sample = some .sample := rfl
  rw [Authenticator.decode, hhandler]
  exact (Fetch.run_lift _ _).trans hread

/-- The group, with a bound expiry in place of its bound claim. -/
def timedGroup : BindingGroup :=
  { group with
    boundClaims := StringMap.ofList [("exp", "60")]
    claimMappings := StringMap.ofList [("exp", "expires")] }

def timedSet : BindingSet := (compileAt registry policies 1 [timedGroup]).toOption.getD .empty

theorem compileAt_eq_timedSet :
  compileAt registry policies 1 [timedGroup] = .ok timedSet
  := by
  have hok : (compileAt registry policies 1 [timedGroup]).isOk = true := by decide +kernel
  apply eq_ok_getD_of_isOk hok

end Sample

theorem claim?_eq_some_iff_of_refersTo_sample :
  (∃ i, Sample.set.issuer? "https://ci.example" = some i ∧ i.claimSchema.declares "attempt" = true)
    ∧ (Sample.claimedToken.claim? "attempt" = some (.number (.natural 1))
      ↔ "attempt" ∉ IdentityToken.unseen)
  := by
  obtain ⟨b, hb, hissuer, hname⟩ : ∃ b ∈ Sample.set.records, b.issuer = "https://ci.example"
      ∧ "attempt" ∈ b.boundClaims.keys := by decide +kernel
  rw [← hissuer]
  apply claim?_eq_some_iff_of_refersTo Sample.compileAt_eq_set hb (.inl hname)
    (Sample.decode_claimObject (fun _ => .unreachable) Sample.set) Sample.presents_claimObject
    (by decide +kernel)

/-- The sample token carries its expiry, which a compiled binding refers to, but it cannot be
looked up in the identity. -/
theorem claim?_eq_none_of_carried :
  compileAt Sample.registry Sample.policies 1 [Sample.timedGroup] = .ok Sample.timedSet
    ∧ (∃ b ∈ Sample.timedSet.records, "exp" ∈ b.boundClaims.keys ∧ "exp" ∈ b.claimMappings.keys)
    ∧ ((Sample.sampleBridge.decode (fun _ => .unreachable) .epoch .sample
        Sample.claimObject.compact Sample.timedSet).run.run {}).1 = .ok Sample.claimedToken
    ∧ TokenFormat.sample.Presents Sample.claimObject.compact Sample.claimMembers
    ∧ carried? Sample.claimMembers "exp" = some (.number (.natural 60))
    ∧ Sample.claimedToken.claim? "exp" = none
  := by
  refine ⟨Sample.compileAt_eq_timedSet, ?_, Sample.decode_claimObject _ _,
    Sample.presents_claimObject, ?_, ?_⟩
  · decide +kernel
  · decide +kernel
  · decide +kernel

end Federation
