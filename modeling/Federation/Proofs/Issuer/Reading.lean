import Federation.Issuer
import Federation.Proofs.Audit.Reading

/-!
# Issuers are read back

A key is written without the members that it has no value for.  What is written has each
name at most once, since the names are among those of a key in their order, and looking a
name up gives the value, if there is one; so the key is read back.  A trust anchor is a
key with one more member in front, the kind, or the place of a document of keys.

With its trust anchors and the types of its claims an issuer is read back as well
(`Issuer.decoder_reread`).
-/

namespace Federation

open Json Json.Decoder

/-! ### Keys -/

namespace Jwk

/-- The names of the members of a key are names of its fields, in their order. -/
theorem map_fst_members_sublist (k : Jwk) :
  (k.members.map Prod.fst).Sublist fieldNames
  := by
  -- each member is there under its name, or not at all
  simp only [members, List.map_append, List.map_cons, List.append_assoc, List.cons_append]
  apply (map_fst_optionalMember_sublist "kid" .string k.kid).append
  apply List.Sublist.cons_cons
  apply (map_fst_optionalMember_sublist "alg" .string k.alg).append
  apply (map_fst_optionalMember_sublist "use" .string k.keyUse).append
  apply (map_fst_optionalMember_sublist "n" .string k.n).append
  apply (map_fst_optionalMember_sublist "e" .string k.e).append
  apply (map_fst_optionalMember_sublist "crv" .string k.crv).append
  apply (map_fst_optionalMember_sublist "x" .string k.x).append
  apply map_fst_optionalMember_sublist "y" .string k.y

theorem nodup_members (k : Jwk) :
  (k.members.map Prod.fst).Nodup
  := k.map_fst_members_sublist.nodup (by decide)

/-- No member of a key has the name that the kind of a trust anchor goes by. -/
theorem ne_kind_of_mem_members (k : Jwk) :
  ∀ m ∈ k.members, m.1 ≠ "kind"
  := by
  intro m hm heq
  have hkind : "kind" ∈ fieldNames := by
    rw [← heq]
    apply k.map_fst_members_sublist.subset (List.mem_map_of_mem hm)
  exact absurd hkind (by decide)

theorem legible_of_mem_members (depth : Nat) (k : Jwk) :
  ∀ m ∈ k.members, m.2.Legible depth
  := by
  simp only [members, List.forall_mem_append, List.forall_mem_cons, forall_mem_optionalMember,
    legible_string, implies_true, and_self]

/-- Looking up the names of the fields in the members of a key gives the fields. -/
theorem lookup_members (k : Jwk) :
  k.members.lookup "kid" = k.kid.map .string
    ∧ k.members.lookup "kty" = some (.string k.kty)
    ∧ k.members.lookup "alg" = k.alg.map .string
    ∧ k.members.lookup "use" = k.keyUse.map .string
    ∧ k.members.lookup "n" = k.n.map .string
    ∧ k.members.lookup "e" = k.e.map .string
    ∧ k.members.lookup "crv" = k.crv.map .string
    ∧ k.members.lookup "x" = k.x.map .string
    ∧ k.members.lookup "y" = k.y.map .string
  := by
  simp [members, List.lookup_append, List.lookup_cons, lookup_optionalMember]

theorem decoder_reread (depth : Nat) (k : Jwk) :
  decoder (depth + 1) k.toJson.reread = some k
  := by
  obtain ⟨hkid, hkty, halg, huse, hn, he, hcrv, hx, hy⟩ := k.lookup_members
  obtain ⟨r, hr, hrecord⟩ := record_object fieldNames k.members k.nodup_members depth
  have htext := orNull_text_reread depth
  rw [decoder, toJson, hrecord,
    hr.optional "kid" (by simp [fieldNames]) hkid htext,
    hr.required "kty" (by simp [fieldNames]) hkty,
    hr.optional "alg" (by simp [fieldNames]) halg htext,
    hr.optional "use" (by simp [fieldNames]) huse htext,
    hr.optional "n" (by simp [fieldNames]) hn htext,
    hr.optional "e" (by simp [fieldNames]) he htext,
    hr.optional "crv" (by simp [fieldNames]) hcrv htext,
    hr.optional "x" (by simp [fieldNames]) hx htext,
    hr.optional "y" (by simp [fieldNames]) hy htext]
  rfl

end Jwk

/-! ### Trust anchors -/

namespace TrustAnchor

theorem alternative_jwk :
  alternative "jwk" = Jwk.decoder.map key
  := rfl

theorem alternative_jwks_uri :
  alternative "jwks_uri" = .record ["url"] (fun r => do
    let url ← r.required "url" .text
    some (keySet url))
  := rfl

theorem decoder_reread (depth : Nat) (a : TrustAnchor) :
  decoder (depth + 1) a.toJson.reread = some a
  := by
  cases a with
  | key k =>
    rw [decoder, toJson, tagged_object k.ne_kind_of_mem_members (k.legible_of_mem_members depth),
      alternative_jwk, map, ← Jwk.toJson, k.decoder_reread, Option.map_some]
  | keySet url =>
    have hlegible : ∀ m ∈ [("url", Json.string url)], m.2.Legible depth :=
      List.forall_mem_singleton.mpr (legible_string depth url)
    obtain ⟨r, hr, hrecord⟩ := record_object ["url"] [("url", .string url)] (by simp) depth
    rw [decoder, toJson, tagged_object (by simp) hlegible, alternative_jwks_uri, hrecord,
      hr.required "url" (by simp) rfl, text_reread]
    rfl

end TrustAnchor

/-! ### Claims -/

theorem ClaimType.decoder_reread (depth : Nat) (t : ClaimType) :
  decoder depth t.toJson.reread = some t
  := by cases t <;> rfl

theorem ClaimSchema.decoder_reread (depth : Nat) (s : ClaimSchema) :
  decoder (depth + 1) s.toJson.reread = some s
  := by
  have hclaims : mapOf ClaimType.decoder (depth + 1) s.toJson.reread = some s.claims :=
    mapOf_reread fun e _ => ClaimType.decoder_reread depth e.2
  rw [decoder, decoderOf, map, hclaims, Option.map_some]

/-! ### Issuers -/

namespace Issuer

/-- The members of the JSON form of an issuer. -/
def members (i : Issuer) : List (String × Json) :=
  [("id", .string i.id), ("discovery_url", .string i.discoveryUrl),
    ("issuer_url", .string i.issuerUrl), ("audiences", .texts i.audiences.elements),
    ("trust_anchors", .array (i.trustAnchors.map TrustAnchor.toJson)),
    ("claim_schema", i.claimSchema.toJson)]

theorem decoder_reread (depth : Nat) (i : Issuer) :
  decoder (depth + 3) i.toJson.reread = some i
  := by
  obtain ⟨r, hr, hrecord⟩ := record_object fieldNames i.members (by simp [members]) (depth + 2)
  have htrustAnchors : list TrustAnchor.decoder (depth + 2)
      (Json.array (i.trustAnchors.map TrustAnchor.toJson)).reread = some i.trustAnchors :=
    list_reread fun a _ => a.decoder_reread depth
  have hclaimSchema : ClaimSchema.decoderOf ClaimType.decoder (depth + 2)
      i.claimSchema.toJson.reread = some i.claimSchema :=
    i.claimSchema.decoder_reread (depth + 1)
  rw [decoder, decoderOf, toJson, ← members, hrecord,
    hr.required "id" (by simp [fieldNames]) rfl,
    hr.required "discovery_url" (by simp [fieldNames]) rfl,
    hr.required "issuer_url" (by simp [fieldNames]) rfl,
    hr.required "audiences" (by simp [fieldNames]) rfl,
    hr.defaulted "trust_anchors" (by simp [fieldNames]) rfl,
    hr.defaulted "claim_schema" (by simp [fieldNames]) rfl]
  simp only [text_reread, set_reread, htrustAnchors, hclaimSchema, Option.bind_eq_bind,
    Option.bind_some]

end Issuer
end Federation
