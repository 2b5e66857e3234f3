import Federation.Audit.Record
import Federation.Proofs.Instant
import Federation.Proofs.Json.Compact
import Federation.Proofs.Text.Hex
import Federation.Proofs.Text.Utf8

/-!
# What the hash of a record covers

The JSON form of the body of a record leaves nothing out: no two bodies have the same
(`AuditBody.toJson_injective`).  Nor do two pairs of a body and the hash that stands in
front of it give the same bytes to be hashed, although nothing separates the two
(`AuditBody.hashInput_inj`): a hash has digits only, and the text of a body begins with a
brace.
-/

namespace Federation

/-! ### Decisions -/

theorem DenialReason.lookup_name (r : DenialReason) :
  names.lookup r.name = some r
  := by cases r <;> decide

theorem DenialReason.name_injective {r s : DenialReason} (h : r.name = s.name) :
  r = s
  := by
  have hr := lookup_name r
  rw [h, lookup_name s] at hr
  exact (Option.some.inj hr).symm

theorem Verdict.toJson_injective {v w : Verdict} (h : v.toJson = w.toJson) :
  v = w
  := by
  cases v with
  | granted binding policy ttl =>
    cases w with
    | granted binding' policy' ttl' => simpa [toJson, Json.natural] using h
    | denied reason => simp [toJson] at h
  | denied reason =>
    cases w with
    | granted binding policy ttl => simp [toJson] at h
    | denied reason' =>
      have hname : reason.name = reason'.name := by
        simpa [toJson, DenialReason.toJson] using h
      rw [DenialReason.name_injective hname]

theorem Json.ofMap_injective {m m' : StringMap Json} (h : Json.ofMap m = Json.ofMap m') :
  m = m'
  := by
  cases m
  cases m'
  simpa [Json.ofMap] using h

theorem Instant.toJson_injective {t u : Instant} (h : t.toJson = u.toJson) :
  t = u
  := by
  apply Instant.text_injective
  simpa [Instant.toJson] using h

theorem Decision.toJson_injective {d e : Decision} (h : d.toJson = e.toJson) :
  d = e
  := by
  obtain ⟨verdict, revision, issuer, subject, claims, attributes, evaluatedAt⟩ := d
  obtain ⟨verdict', revision', issuer', subject', claims', attributes', evaluatedAt'⟩ := e
  simp only [toJson, Json.object.injEq, List.cons.injEq, Prod.mk.injEq, true_and, and_true,
    Json.natural, Json.number.injEq, Json.Number.natural.injEq, Json.string.injEq] at h
  obtain ⟨hverdict, rfl, rfl, rfl, hclaims, hattributes, htime⟩ := h
  obtain rfl := Verdict.toJson_injective hverdict
  obtain rfl := Json.ofMap_injective hclaims
  obtain rfl := Json.ofMap_injective hattributes
  obtain rfl := Instant.toJson_injective htime
  rfl

/-! ### Bodies -/

theorem Json.optionalMember_injective {α : Type} {name : String} {f : α → Json}
    (hf : ∀ a b, f a = f b → a = b) {o o' : Option α}
    (h : optionalMember name f o = optionalMember name f o') :
  o = o'
  := by
  cases o with
  | none =>
    cases o' with
    | none => rfl
    | some b => simp [optionalMember] at h
  | some a =>
    cases o' with
    | none => simp [optionalMember] at h
    | some b => rw [hf a b (by simpa [optionalMember] using h)]

namespace AuditBody

theorem toJson_injective {b c : AuditBody} (h : b.toJson = c.toJson) :
  b = c
  := by
  have hnatural : ∀ m n : UInt64, Json.natural m = Json.natural n → m = n := by
    intro m n hmn
    simpa [Json.natural] using hmn
  obtain ⟨sequence, recordedAt, decision, voids⟩ := b
  obtain ⟨sequence', recordedAt', decision', voids'⟩ := c
  simp only [toJson, members, Json.object.injEq, List.cons_append, List.nil_append,
    List.cons.injEq, Prod.mk.injEq, true_and] at h
  obtain ⟨hsequence, htime, hdecision, hvoids⟩ := h
  obtain rfl := hnatural _ _ hsequence
  obtain rfl := Instant.toJson_injective htime
  obtain rfl := Decision.toJson_injective hdecision
  obtain rfl := Json.optionalMember_injective hnatural hvoids
  rfl

end AuditBody

/-! ### Hashes -/

/-- A text that hashes of records are. -/
def IsHash (s : String) : Prop := ∃ message, s = Sha256.hexDigest message

theorem Sha256.digest_ne_nil (message : Bytes) :
  digest message ≠ []
  := by simp [digest, wordBytes]

theorem IsHash.ne_brace {s : String} (h : IsHash s) :
  s ≠ "" ∧ ∀ c ∈ s.toList, c ≠ '{'
  := by
  obtain ⟨message, rfl⟩ := h
  constructor
  · intro hempty
    have hread := Hex.decode?_encode (Sha256.digest message)
    rw [← Sha256.hexDigest, hempty] at hread
    exact Sha256.digest_ne_nil message (Option.some.inj hread).symm
  · rintro c hc rfl
    cases Hex.isSome_value?_of_mem_encode hc

/-- What stands in front of the first brace, and what comes after. -/
theorem append_brace_inj {cs ds rest rest' : List Char} (hcs : ∀ c ∈ cs, c ≠ '{')
    (hds : ∀ c ∈ ds, c ≠ '{') (h : cs ++ '{' :: rest = ds ++ '{' :: rest') :
  cs = ds ∧ rest = rest'
  := by
  induction cs generalizing ds with
  | nil =>
    cases ds with
    | nil => exact ⟨rfl, (List.cons.inj h).2⟩
    | cons d ds => exact absurd (List.cons.inj h).1.symm (hds d List.mem_cons_self)
  | cons c cs ih =>
    cases ds with
    | nil => exact absurd (List.cons.inj h).1 (hcs c List.mem_cons_self)
    | cons d ds =>
      obtain ⟨rfl, htail⟩ := List.cons.inj h
      obtain ⟨rfl, hrest⟩ := ih (fun c hc => hcs c (List.mem_cons_of_mem _ hc))
        (fun c hc => hds c (List.mem_cons_of_mem _ hc)) htail
      exact ⟨rfl, hrest⟩

/-- A hash and a body are told apart where they meet. -/
theorem AuditBody.hashInput_inj {p p' : Option String} {b b' : AuditBody}
    (hp : ∀ s ∈ p, IsHash s) (hp' : ∀ s ∈ p', IsHash s)
    (h : b.hashInput p = b'.hashInput p') :
  p = p' ∧ b = b'
  := by
  have hplain : ∀ o : Option String, (∀ s ∈ o, IsHash s) → ∀ c ∈ (o.getD "").toList, c ≠ '{' := by
    intro o ho
    cases o with
    | none => simp
    | some s => apply (ho s rfl).ne_brace.2
  obtain ⟨cs, hcs⟩ := Json.exists_compact_object b.members
  obtain ⟨cs', hcs'⟩ := Json.exists_compact_object b'.members
  rw [hashInput, hashInput, ← Utf8.encode_append, ← Utf8.encode_append] at h
  have htext := congrArg String.toList (Utf8.encode_injective h)
  rw [String.toList_append, String.toList_append, toJson, toJson, hcs, hcs'] at htext
  obtain ⟨hfront, htail⟩ := append_brace_inj (hplain p hp) (hplain p' hp') htext
  constructor
  · have hgetD := String.toList_injective hfront
    cases p with
    | none =>
      cases p' with
      | none => rfl
      | some s => exact absurd hgetD.symm (hp' s rfl).ne_brace.1
    | some s =>
      cases p' with
      | none => exact absurd hgetD (hp s rfl).ne_brace.1
      | some s' => exact congrArg some hgetD
  · apply toJson_injective
    apply Json.compact_injective
    apply String.toList_injective
    rw [toJson, toJson, hcs, hcs', htail]

end Federation
