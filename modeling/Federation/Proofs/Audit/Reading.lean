import Federation.Proofs.Audit.Record
import Federation.Proofs.Json.Typed

/-!
# Records are read back

A record is read from its own text as what it is (`AuditRecord.ofText?_compact`), as
long as the claims and attributes of its decision come back with the levels of nesting
that are left for them (`Decision.Legible`): the record, its decision and the map that
they stand in take three of them.
-/

namespace Federation

open Json Decoder

namespace Json.Decoder

/-! ### Maps and unions -/

theorem mapM_entry_json (depth : Nat) (members : List (Option String × Document)) :
  members.mapM (entry json depth) = Document.membersToJson? depth members
  := by
  induction members with
  | nil => rfl
  | cons m members ih =>
    obtain ⟨k, doc⟩ := m
    rw [List.mapM_cons, ih, Document.membersToJson?, entry, json]
    cases k with
    | none => rfl
    | some k => cases Document.toJson? depth doc <;> rfl

/-- A map of values comes back exactly when its values are legible. -/
theorem mapOf_json_iff {depth : Nat} {m : StringMap Json} :
  mapOf json (depth + 1) (ofMap m).reread = some m ↔ ∀ e ∈ m.entries, e.2.Legible depth
  := by
  rw [ofMap, reread, mapOf, mapM_entry_json, ← membersToJson?_rereadMembers_iff]
  constructor
  · intro h
    obtain ⟨members, hmembers, rfl⟩ := Option.map_eq_some_iff.mp h
    rw [hmembers, Document.membersToJson?_of_ofMembers hmembers rfl, StringMap.ofList_entries]
  · intro h
    rw [h, Option.map_some, StringMap.ofList_entries]

theorem splitTag_rereadMembers {tag : String} {members : List (String × Json)}
    (h : ∀ m ∈ members, m.1 ≠ tag) :
  splitTag tag (rereadMembers members) = ([], rereadMembers members)
  := by
  induction members with
  | nil => rfl
  | cons m members ih =>
    have hne : some m.1 ≠ some tag := by
      simpa using h m List.mem_cons_self
    rw [rereadMembers, splitTag, ih fun m' hm' => h m' (List.mem_cons_of_mem m hm')]
    simp only [if_neg hne]

/-- A union is read from the text of an object with the tag in front. -/
theorem tagged_object {α : Type} {tag kind : String} {members : List (String × Json)}
    (htag : ∀ m ∈ members, m.1 ≠ tag) {depth : Nat} (h : ∀ m ∈ members, m.2.Legible depth)
    (alternative : String → Decoder α) :
  tagged tag alternative (depth + 1) (reread (.object ((tag, .string kind) :: members)))
    = alternative kind (depth + 1) (reread (.object members))
  := by
  have hall : ∀ m ∈ (tag, Json.string kind) :: members, m.2.Legible depth :=
    List.forall_mem_cons.mpr ⟨legible_string depth kind, h⟩
  rw [reread, tagged, membersToJson?_rereadMembers_iff.mpr hall, rereadMembers, splitTag, splitTag_rereadMembers htag]
  simp only [Option.bind_eq_bind, Option.bind_some, if_true]
  rfl

end Json.Decoder

/-! ### Decisions -/

theorem DenialReason.decoder_reread (depth : Nat) (r : DenialReason) :
  decoder depth r.toJson.reread = some r
  := by
  rw [decoder, Decoder.name, toJson, reread, nameOf]
  exact r.lookup_name

namespace Verdict

theorem alternative_granted :
  alternative "granted" = .record ["binding", "policy", "effective_ttl"] (fun r => do
    let binding ← r.required "binding" .text
    let policy ← r.required "policy" .text
    let effectiveTtl ← r.required "effective_ttl" .natural
    some (granted binding policy effectiveTtl))
  := rfl

theorem alternative_denied :
  alternative "denied" = .record ["reason"] (fun r => do
    let reason ← r.required "reason" DenialReason.decoder
    some (denied reason))
  := rfl

/-- The kind of a verdict, which is its first member. -/
def kind : Verdict → String
  | granted .. => "granted"
  | denied _ => "denied"

/-- The members of the JSON form of a verdict after the first one. -/
def members : Verdict → List (String × Json)
  | granted binding policy ttl =>
    [("binding", .string binding), ("policy", .string policy), ("effective_ttl", .natural ttl)]
  | denied reason => [("reason", reason.toJson)]

theorem toJson_eq (v : Verdict) :
  v.toJson = .object (("decision", .string v.kind) :: v.members)
  := by cases v <;> rfl

theorem ne_decision_of_mem_members (v : Verdict) :
  ∀ m ∈ v.members, m.1 ≠ "decision"
  := by cases v <;> simp [members]

theorem legible_of_mem_members (depth : Nat) (v : Verdict) :
  ∀ m ∈ v.members, m.2.Legible depth
  := by cases v <;> simp [members, DenialReason.toJson, legible_string, legible_natural]

theorem decoder_reread (depth : Nat) (v : Verdict) :
  decoder (depth + 1) v.toJson.reread = some v
  := by
  rw [decoder, toJson_eq,
    tagged_object v.ne_decision_of_mem_members (legible_of_mem_members depth v)]
  cases v with
  | granted binding policy ttl =>
    obtain ⟨r, hr, hrecord⟩ := record_object ["binding", "policy", "effective_ttl"]
      (granted binding policy ttl).members (by simp [members]) depth
    rw [kind, alternative_granted, hrecord, hr.required "binding" (by simp) rfl,
      hr.required "policy" (by simp) rfl, hr.required "effective_ttl" (by simp) rfl,
      text_reread, text_reread, natural_reread]
    rfl
  | denied reason =>
    obtain ⟨r, hr, hrecord⟩ := record_object ["reason"] (denied reason).members
      (by simp [members]) depth
    rw [kind, alternative_denied, hrecord, hr.required "reason" (by simp) rfl,
      DenialReason.decoder_reread]
    rfl

end Verdict

namespace Decision

/-- A decision whose claims and attributes are legible with a number of levels. -/
structure Legible (depth : Nat) (d : Decision) : Prop where
  claims : ∀ e ∈ d.claims.entries, e.2.Legible depth
  attributes : ∀ e ∈ d.attributes.entries, e.2.Legible depth

/-- The members of the JSON form of a decision. -/
def members (d : Decision) : List (String × Json) :=
  [("verdict", d.verdict.toJson), ("revision", .natural d.revision), ("issuer", .string d.issuer),
    ("subject", .string d.subject), ("claims", .ofMap d.claims),
    ("attributes", .ofMap d.attributes), ("evaluated_at", d.evaluatedAt.toJson)]

theorem nodup_members (d : Decision) :
  (d.members.map Prod.fst).Nodup
  := by simp [members]

/-- A decision comes back exactly when it is legible. -/
theorem decoder_reread_iff {depth : Nat} {d : Decision} :
  decoder (depth + 2) d.toJson.reread = some d ↔ d.Legible depth
  := by
  obtain ⟨r, hr, hrecord⟩ := record_object fieldNames d.members d.nodup_members (depth + 1)
  rw [decoder, toJson, ← members, hrecord,
    hr.required "verdict" (by simp [fieldNames]) rfl,
    hr.required "revision" (by simp [fieldNames]) rfl,
    hr.required "issuer" (by simp [fieldNames]) rfl,
    hr.required "subject" (by simp [fieldNames]) rfl,
    hr.defaulted "claims" (by simp [fieldNames]) rfl,
    hr.defaulted "attributes" (by simp [fieldNames]) rfl,
    hr.required "evaluated_at" (by simp [fieldNames]) rfl,
    Verdict.decoder_reread, natural_reread, text_reread, text_reread, Instant.decoder_reread]
  simp only [Option.bind_eq_bind, Option.bind_some]
  constructor
  · intro h
    obtain ⟨claims, hclaims, h⟩ := Option.bind_eq_some_iff.mp h
    obtain ⟨attributes, hattributes, h⟩ := Option.bind_eq_some_iff.mp h
    obtain rfl : claims = d.claims := congrArg Decision.claims (Option.some.inj h)
    obtain rfl : attributes = d.attributes := congrArg Decision.attributes (Option.some.inj h)
    exact ⟨mapOf_json_iff.mp hclaims, mapOf_json_iff.mp hattributes⟩
  · rintro ⟨hclaims, hattributes⟩
    rw [mapOf_json_iff.mpr hclaims, mapOf_json_iff.mpr hattributes]
    rfl

end Decision

/-! ### Records -/

namespace AuditRecord

/-- The members of the JSON form of a record. -/
def allMembers (r : AuditRecord) : List (String × Json) :=
  r.toAuditBody.members ++ optionalMember "prev_hash" .string r.prevHash ++ [("hash", .string r.hash)]

theorem nodup_allMembers (r : AuditRecord) :
  (r.allMembers.map Prod.fst).Nodup
  := by
  rw [allMembers, AuditBody.members]
  cases r.voids <;> cases r.prevHash <;> simp [optionalMember]

/-- The optional members of a record, and the one that comes after them. -/
theorem lookup_allMembers (r : AuditRecord) :
  r.allMembers.lookup "voids" = r.voids.map Json.natural
    ∧ r.allMembers.lookup "prev_hash" = r.prevHash.map Json.string
    ∧ r.allMembers.lookup "hash" = some (.string r.hash)
  := by
  obtain ⟨⟨sequence, recordedAt, decision, voids⟩, prevHash, hash⟩ := r
  cases voids <;> cases prevHash <;> exact ⟨rfl, rfl, rfl⟩

/-- A record comes back exactly when its decision is legible. -/
theorem decoder_reread_iff {depth : Nat} {r : AuditRecord} :
  decoder (depth + 3) r.toJson.reread = some r ↔ r.decision.Legible depth
  := by
  obtain ⟨hvoids, hprev, hhash⟩ := r.lookup_allMembers
  obtain ⟨f, hf, hrecord⟩ := record_object fieldNames r.allMembers r.nodup_allMembers (depth + 2)
  rw [← Decision.decoder_reread_iff, decoder, toJson, ← allMembers, hrecord,
    hf.required "sequence" (by simp [fieldNames]) rfl,
    hf.required "recorded_at" (by simp [fieldNames]) rfl,
    hf.required "decision" (by simp [fieldNames]) rfl,
    hf.optional "voids" (by simp [fieldNames]) hvoids (orNull_natural_reread _),
    hf.optional "prev_hash" (by simp [fieldNames]) hprev (fun _ => rfl),
    hf.required "hash" (by simp [fieldNames]) hhash, natural_reread, Instant.decoder_reread,
    text_reread]
  simp only [Option.bind_eq_bind, Option.bind_some]
  constructor
  · intro h
    obtain ⟨decision, hdecision, h⟩ := Option.bind_eq_some_iff.mp h
    obtain rfl : decision = r.decision :=
      congrArg (fun r : AuditRecord => r.decision) (Option.some.inj h)
    exact hdecision
  · intro h
    rw [h]
    rfl

/-- How many levels of nesting are left for the claims and attributes of a record. -/
def claimDepth : Nat := 124

/-- A record is read from its own text as what it is exactly when its decision is
legible. -/
theorem ofText?_compact_iff {r : AuditRecord} :
  decoder.ofText? r.toJson.compact = some r ↔ r.decision.Legible claimDepth
  := by
  rw [ofText?, Document.parse?_compact, Option.bind_some, run]
  exact decoder_reread_iff

end AuditRecord
end Federation
