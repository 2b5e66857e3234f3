import Federation.Proofs.Except
import Federation.Proofs.Json.Members
import Federation.Token.ClaimSet

/-!
# What a claim set states

`t.StatedBy now members` says that a token holds exactly what the members of a JSON
object state: issuer, subject and expiry once each, the audiences as a text or a list of
texts, the time of issue unless there is none, and under every other name the value that
stands there last.  A claim set that is read from an object gives only a token that the
object states (`statedBy_of_toToken`).
-/

namespace Federation

open Json Json.Document

/-- The value of a number that is an integer. -/
def Json.Number.toInt? : Json.Number → Option Int
  | .natural n => some n.toNat
  | .negative n => some (Int.negSucc n.val)
  | .double _ => none

/-- The documents under a name state an instant: one number of seconds. -/
def StatesInstant (docs : List Document) (t : Instant) : Prop :=
  ∃ n, docs = [.number (some n)] ∧ n.toInt? = some t.seconds ∧ t.nanos = 0

/-- The documents under a name state a set of audiences. -/
inductive StatesAudience : List Document → StringSet → Prop where
  | absent : StatesAudience [] {}
  | null : StatesAudience [.null] {}
  | one (name : String) : StatesAudience [.string (some name)] (.ofList [name])
  | many (names : List String) :
    StatesAudience [.array (names.map fun name => .string (some name))] (.ofList names)

/-- A token holds what the members of an object state, and is issued now if they do not
say when. -/
structure IdentityToken.StatedBy (t : IdentityToken) (now : Instant)
    (members : List (Option String × Document)) : Prop where
  issuer : given members "iss" = [.string (some t.issuer)]
  subject : given members "sub" = [.string (some t.subject)]
  audience : StatesAudience (given members "aud") t.audience
  expiry : StatesInstant (given members "exp") t.expiry
  issuedAt : StatesInstant (given members "iat") t.issuedAt
    ∨ (given members "iat" = [] ∨ given members "iat" = [.null]) ∧ t.issuedAt = now
  claims : ∀ name, t.claims.get? name = if name ∈ ClaimSet.fieldNames then none
    else (given members name).getLast?.bind (toJson? (maxDepth - 1))

/-! ### Values that are read -/

section Values

variable {depth : Nat} {doc : Document}

theorem eq_string_of_text {s : String} (h : Decoder.text depth doc = some s) :
  doc = .string (some s)
  := by
  cases doc with
  | string s' =>
    cases h
    rfl
  | _ => cases h

theorem eq_number_of_integer {n : Int} (h : Decoder.integer depth doc = some n) :
  ∃ x, doc = .number (some x) ∧ x.toInt? = some n
  := by
  unfold Decoder.integer at h
  split at h
  · rename_i m
    split at h
    · cases h
      use .natural m
      constructor <;> rfl
    · cases h
  · rename_i m
    cases h
    use .negative m
    constructor <;> rfl
  · cases h

theorem eq_string_of_toJson? {s : String} (h : toJson? depth doc = some (.string s)) :
  doc = .string (some s)
  := by
  cases doc with
  | string s' => simpa [toJson?] using h
  | array items => cases depth <;> simp [toJson?] at h
  | object members => cases depth <;> simp [toJson?, ofMembers, ofMap] at h
  | _ => simp [toJson?] at h

theorem eq_array_of_toJson? {items : List Json} (h : toJson? depth doc = some (.array items)) :
  ∃ docs depth', doc = .array docs ∧ itemsToJson? depth' docs = some items
  := by
  cases doc with
  | array docs =>
    cases depth with
    | zero => simp [toJson?] at h
    | succ depth =>
      use docs, depth
      simpa [toJson?] using h
  | object members => cases depth <;> simp [toJson?, ofMembers, ofMap] at h
  | _ => simp [toJson?] at h

theorem eq_map_of_audienceEntries {items : List Json} {names : List String}
    (h : ClaimSet.audienceEntries items = .ok names) :
  items = names.map .string
  := by
  induction items generalizing names with
  | nil =>
    cases h
    rfl
  | cons item items ih =>
    cases item with
    | string s =>
      obtain ⟨names', hnames', rfl⟩ := map_eq_ok_iff.mp h
      rw [ih hnames']
      rfl
    | _ => cases h

theorem eq_map_of_itemsToJson? {docs : List Document} {names : List String}
    (h : itemsToJson? depth docs = some (names.map .string)) :
  docs = names.map fun name => .string (some name)
  := by
  induction docs generalizing names with
  | nil =>
    cases names with
    | nil => rfl
    | cons name names => cases h
  | cons d docs ih =>
    rw [itemsToJson?] at h
    simp only [Option.bind_eq_bind, Option.bind_eq_some_iff, Option.some.injEq] at h
    obtain ⟨j, hj, js, hjs, heq⟩ := h
    cases names with
    | nil => cases heq
    | cons name names =>
      obtain ⟨rfl, rfl⟩ := List.cons.inj heq
      rw [eq_string_of_toJson? hj, ih hjs]
      rfl

end Values

/-! ### Claim sets that are read -/

/-- A claim set holds what the members of an object give. -/
structure ClaimSet.ReadFrom (c : ClaimSet) (depth : Nat)
    (members : List (Option String × Document)) : Prop where
  issuer : Decoder.GivesOptional members "iss" .text depth c.issuer
  subject : Decoder.GivesOptional members "sub" .text depth c.subject
  audience : Decoder.GivesOptional members "aud" .json depth c.audience
  expiry : Decoder.GivesOptional members "exp" .integer depth c.expiry
  issuedAt : Decoder.GivesOptional members "iat" .integer depth c.issuedAt
  others : ∀ name, c.others.get? name = if name ∈ ClaimSet.fieldNames then none
    else (given members name).getLast?.bind (toJson? depth)

/-- Under a name without a place of its own stands the value that is given last. -/
theorem get?_others {depth : Nat} {members : List (Option String × Document)}
    {all : List (String × Json)} (h : membersToJson? depth members = some all) (name : String) :
  (StringMap.ofList (all.filter fun m => !ClaimSet.fieldNames.contains m.1)).get? name
    = if name ∈ ClaimSet.fieldNames then none
      else (given members name).getLast?.bind (toJson? depth)
  := by
  rw [StringMap.get?_ofList, List.filter_filter]
  split
  · rename_i hname
    have hnone : (all.filter fun m =>
        decide (m.1 = name) && !ClaimSet.fieldNames.contains m.1) = [] := by
      apply List.filter_eq_nil_iff.mpr
      intro m _ hm
      simp only [Bool.and_eq_true, decide_eq_true_iff, Bool.not_eq_true'] at hm
      obtain ⟨rfl, hm⟩ := hm
      rw [List.contains_iff_mem.mpr hname] at hm
      cases hm
    rw [hnone]
    rfl
  · rename_i hname
    have hall : (all.filter fun m =>
        decide (m.1 = name) && !ClaimSet.fieldNames.contains m.1)
          = all.filter fun m => m.1 = name := by
      apply List.filter_congr
      intro m _
      by_cases hm : m.1 = name
      · simp [hm, hname]
      · simp [hm]
    have hlast := congrArg List.getLast? (map_given_of_membersToJson? h name)
    rw [List.getLast?_map, List.getLast?_map] at hlast
    rw [hall, List.getLast?_map]
    cases hdoc : (given members name).getLast? with
    | none =>
      rw [hdoc, Option.map_none] at hlast
      rw [Option.map_eq_none_iff.mp hlast.symm]
      rfl
    | some doc =>
      rw [hdoc, Option.map_some] at hlast
      obtain ⟨e, he, hvalue⟩ := Option.map_eq_some_iff.mp hlast.symm
      rw [he, Option.bind_some, ← hvalue]
      rfl

theorem ClaimSet.readFrom_of_decoder {c : ClaimSet} {depth : Nat} {doc : Document}
    (h : ClaimSet.decoder (depth + 1) doc = some c) :
  ∃ members, doc = .object members ∧ c.ReadFrom depth members
  := by
  unfold ClaimSet.decoder at h
  split at h
  · rename_i depth' members hdepth
    cases hdepth
    simp only [Option.bind_eq_bind, Option.bind_eq_some_iff, Option.some.injEq] at h
    obtain ⟨collected, hcollected, all, hall, issuer, hissuer, subject, hsubject, audience,
      haudience, expiry, hexpiry, issuedAt, hissuedAt, rfl⟩ := h
    use members, rfl
    constructor
    · apply Decoder.givesOptional_of_optional hcollected _ hissuer
      decide
    · apply Decoder.givesOptional_of_optional hcollected _ hsubject
      decide
    · apply Decoder.givesOptional_of_optional hcollected _ haudience
      decide
    · apply Decoder.givesOptional_of_optional hcollected _ hexpiry
      decide
    · apply Decoder.givesOptional_of_optional hcollected _ hissuedAt
      decide
    · apply get?_others hall
  · cases h

/-! ### Tokens that are made -/

theorem ClaimSet.required_eq_ok_iff {α : Type} {claim : String} {o : Option α} {a : α} :
  ClaimSet.required claim o = .ok a ↔ o = some a
  := by
  cases o <;> simp [ClaimSet.required]

theorem ClaimSet.eq_of_instant {claim : String} {seconds : Int} {t : Instant}
    (h : ClaimSet.instant claim seconds = .ok t) :
  seconds = t.seconds ∧ t.nanos = 0
  := by
  rw [ClaimSet.instant] at h
  split at h
  · rename_i t' ht
    cases h
    unfold Instant.ofSeconds? Instant.ofParts? at ht
    split at ht
    · cases ht
      exact ⟨rfl, rfl⟩
    · cases ht
  · cases h

theorem statesInstant_of_instant {depth : Nat} {members : List (Option String × Document)}
    {claim : String} {seconds : Int} {t : Instant}
    (hgiven : Decoder.GivesOptional members claim .integer depth (some seconds))
    (h : ClaimSet.instant claim seconds = .ok t) :
  StatesInstant (given members claim) t
  := by
  obtain ⟨doc, hdoc, hread⟩ := hgiven
  obtain ⟨n, rfl, hn⟩ := eq_number_of_integer hread
  obtain ⟨rfl, hnanos⟩ := ClaimSet.eq_of_instant h
  use n

theorem statesAudience_of_audiences {depth : Nat} {members : List (Option String × Document)}
    {audience : Option Json} {set : StringSet}
    (hgiven : Decoder.GivesOptional members "aud" .json depth audience)
    (h : ClaimSet.audiences audience = .ok set) :
  StatesAudience (given members "aud") set
  := by
  unfold ClaimSet.audiences at h
  split at h
  · cases h
    rcases hgiven with hgiven | hgiven
    · rw [hgiven]
      apply StatesAudience.absent
    · rw [hgiven]
      apply StatesAudience.null
  · rename_i name
    cases h
    obtain ⟨doc, hdoc, hread⟩ := hgiven
    rw [hdoc, eq_string_of_toJson? hread]
    apply StatesAudience.one
  · rename_i items
    obtain ⟨names, hnames, rfl⟩ := map_eq_ok_iff.mp h
    obtain ⟨doc, hdoc, hread⟩ := hgiven
    obtain ⟨docs, depth', rfl, hitems⟩ := eq_array_of_toJson? hread
    rw [eq_map_of_audienceEntries hnames] at hitems
    rw [hdoc, eq_map_of_itemsToJson? hitems]
    apply StatesAudience.many
  · cases h

/-- The expiry that claims give, or the one that stands for it. -/
def ClaimSet.expiryOr (c : ClaimSet) (default : Option Instant) : Except TokenError Instant :=
  match c.expiry with
  | some seconds => instant "exp" seconds
  | none => required "exp" default

/-- The time of issue that claims give, or the present. -/
def ClaimSet.issuedAtOr (c : ClaimSet) (now : Instant) : Except TokenError Instant :=
  match c.issuedAt with
  | some seconds => instant "iat" seconds
  | none => .ok now

theorem ClaimSet.toToken_eq (c : ClaimSet) (now : Instant) (defaultExpiry : Option Instant) :
  c.toToken now defaultExpiry = (do
    let issuer ← required "iss" c.issuer
    let subject ← required "sub" c.subject
    let expiry ← c.expiryOr defaultExpiry
    let issuedAt ← c.issuedAtOr now
    let audience ← audiences c.audience
    return ⟨issuer, subject, audience, c.others, expiry, issuedAt⟩)
  := by
  rw [toToken, expiryOr, issuedAtOr]
  cases c.expiry <;> cases c.issuedAt <;> rfl

/-- The token of a claim set holds what the claim set holds, and what stands for an expiry
or a time of issue that it does not give. -/
theorem ClaimSet.eq_of_toToken {c : ClaimSet} {now : Instant} {defaultExpiry : Option Instant}
    {t : IdentityToken} (h : c.toToken now defaultExpiry = .ok t) :
  c.issuer = some t.issuer ∧ c.subject = some t.subject ∧ c.others = t.claims
    ∧ ClaimSet.audiences c.audience = .ok t.audience
    ∧ c.expiryOr defaultExpiry = .ok t.expiry ∧ c.issuedAtOr now = .ok t.issuedAt
  := by
  simp only [ClaimSet.toToken_eq, bind_eq_ok_iff, ClaimSet.required_eq_ok_iff] at h
  obtain ⟨issuer, hissuer, subject, hsubject, expiry, hexpiry, issuedAt, hissuedAt, audience,
    haudience, ht⟩ := h
  cases ht
  exact ⟨hissuer, hsubject, rfl, haudience, hexpiry, hissuedAt⟩

/-- A claim set that is read from an object gives only a token that the object states. -/
theorem statedBy_of_toToken {c : ClaimSet} {members : List (Option String × Document)}
    (hc : c.ReadFrom (maxDepth - 1) members) {now : Instant} {t : IdentityToken}
    (h : c.toToken now none = .ok t) :
  t.StatedBy now members
  := by
  obtain ⟨hissuer, hsubject, hothers, haudience, hexpiry, hissuedAt⟩ := ClaimSet.eq_of_toToken h
  constructor
  · obtain ⟨doc, hdoc, hread⟩ := hissuer ▸ hc.issuer
    rw [hdoc, eq_string_of_text hread]
  · obtain ⟨doc, hdoc, hread⟩ := hsubject ▸ hc.subject
    rw [hdoc, eq_string_of_text hread]
  · apply statesAudience_of_audiences hc.audience haudience
  · have hgiven := hc.expiry
    unfold ClaimSet.expiryOr at hexpiry
    split at hexpiry
    · rename_i seconds hseconds
      apply statesInstant_of_instant (hseconds ▸ hgiven) hexpiry
    · cases hexpiry
  · have hgiven := hc.issuedAt
    unfold ClaimSet.issuedAtOr at hissuedAt
    split at hissuedAt
    · rename_i seconds hseconds
      left
      apply statesInstant_of_instant (hseconds ▸ hgiven) hissuedAt
    · rename_i hnone
      cases hissuedAt
      rw [hnone] at hgiven
      exact .inr ⟨hgiven, rfl⟩
  · rw [← hothers]
    apply hc.others

end Federation
