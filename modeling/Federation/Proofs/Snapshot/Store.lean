import Federation.Proofs.Except
import Federation.Proofs.Json.Indented
import Federation.Proofs.Json.Typed
import Federation.Snapshot.Store

/-!
# Stores keep what is saved

A binding and a snapshot are read back as what they are (`PersistedSnapshot.ofBytes?_text`):
they have no claims, and so no numbers but natural ones.  A store is lawful when it
loads, after a snapshot was saved, exactly this snapshot, its digest checked; the memory
and the file are lawful stores, and so is a lawful store that can be switched off.

Whatever was kept before, a lawful store that has saved the snapshot of a set loads it
(`LawfulStore.load_of_save_ofSet`).
-/

namespace Federation

open Json Json.Decoder

/-! ### Snapshots are read back -/

namespace Binding

/-- The members of the JSON form of a binding. -/
def members (b : Binding) : List (String × Json) :=
  [("key", .string b.key), ("environment", .string b.environment),
    ("operation", .string b.operation), ("issuer_id", .string b.issuerId),
    ("issuer", .string b.issuer), ("subject", .string b.subject),
    ("bound_audiences", .texts b.boundAudiences.elements),
    ("bound_claims", .ofTexts b.boundClaims), ("claim_mappings", .ofTexts b.claimMappings),
    ("token_ttl", .natural b.tokenTtl), ("max_ttl", .natural b.maxTtl),
    ("policy", .string b.policy)]

theorem decoder_reread (depth : Nat) (b : Binding) :
  decoder (depth + 2) b.toJson.reread = some b
  := by
  obtain ⟨r, hr, hrecord⟩ := record_object fieldNames b.members (by simp [members]) (depth + 1)
  rw [decoder, toJson, ← members, hrecord,
    hr.required "key" (by simp [fieldNames]) rfl,
    hr.required "environment" (by simp [fieldNames]) rfl,
    hr.required "operation" (by simp [fieldNames]) rfl,
    hr.required "issuer_id" (by simp [fieldNames]) rfl,
    hr.required "issuer" (by simp [fieldNames]) rfl,
    hr.required "subject" (by simp [fieldNames]) rfl,
    hr.required "bound_audiences" (by simp [fieldNames]) rfl,
    hr.defaulted "bound_claims" (by simp [fieldNames]) rfl,
    hr.defaulted "claim_mappings" (by simp [fieldNames]) rfl,
    hr.required "token_ttl" (by simp [fieldNames]) rfl,
    hr.required "max_ttl" (by simp [fieldNames]) rfl,
    hr.required "policy" (by simp [fieldNames]) rfl]
  simp only [text_reread, set_reread, mapOf_text_reread, natural_reread, Option.bind_eq_bind,
    Option.bind_some]

end Binding

namespace PersistedSnapshot

/-- The members of the JSON form of a snapshot. -/
def members (p : PersistedSnapshot) : List (String × Json) :=
  [("revision", .natural p.revision), ("digest", .string p.digest),
    ("saved_at", p.savedAt.toJson), ("records", .array (p.records.map Binding.toJson))]

theorem decoder_reread (depth : Nat) (p : PersistedSnapshot) :
  decoder (depth + 4) p.toJson.reread = some p
  := by
  obtain ⟨r, hr, hrecord⟩ := record_object fieldNames p.members (by simp [members]) (depth + 3)
  have hrecords : list Binding.decoder (depth + 3)
      (Json.array (p.records.map Binding.toJson)).reread = some p.records :=
    list_reread fun b _ => b.decoder_reread depth
  rw [decoder, toJson, ← members, hrecord,
    hr.required "revision" (by simp [fieldNames]) rfl,
    hr.required "digest" (by simp [fieldNames]) rfl,
    hr.required "saved_at" (by simp [fieldNames]) rfl,
    hr.required "records" (by simp [fieldNames]) rfl]
  simp only [text_reread, natural_reread, Instant.decoder_reread, hrecords, Option.bind_eq_bind,
    Option.bind_some]

/-- A snapshot is read from its own text as what it is. -/
theorem ofBytes?_text (p : PersistedSnapshot) :
  decoder.ofBytes? (Utf8.encode (SnapshotFile.text p)) = some p
  := by
  rw [ofBytes?, Document.parseBytes?_encode, SnapshotFile.text, Document.parse?_pretty,
    Option.bind_some, run]
  apply decoder_reread

/-- The snapshot of a set has the digest of its bindings. -/
theorem verify_ofSet (s : BindingSet) (now : Instant) :
  (ofSet s now).verify = .ok ()
  := if_pos rfl

end PersistedSnapshot

/-! ### Lawful stores -/

/-- A store that loads what was saved in it. -/
class LawfulStore (σ : Type) [SnapshotStore σ] : Prop where
  load_of_save : ∀ {store store' : σ} {p : PersistedSnapshot},
    SnapshotStore.save store p = .ok store' →
      SnapshotStore.load store' = p.verify.map fun _ => some p

instance : LawfulStore SnapshotMemory where
  load_of_save h := by
    cases h
    rfl

/-- The file is read as the snapshot that was written. -/
theorem SnapshotFile.load_save (f : SnapshotFile) (p : PersistedSnapshot) :
  (f.save p).load = p.verify.map fun _ => some p
  := by simp only [SnapshotFile.load, SnapshotFile.save, p.ofBytes?_text]

instance : LawfulStore SnapshotFile where
  load_of_save {store store' p} h := by
    obtain rfl : store.save p = store' := Except.ok.inj h
    apply SnapshotFile.load_save

variable {σ : Type} [SnapshotStore σ] [LawfulStore σ]

instance : LawfulStore (SwitchedStore σ) where
  load_of_save {store store' p} h := by
    have hsave : SwitchedStore.save store p = .ok store' := h
    rw [SwitchedStore.save] at hsave
    split at hsave
    · cases hsave
    · obtain ⟨inner, hinner, rfl⟩ := map_eq_ok_iff.mp hsave
      apply LawfulStore.load_of_save hinner

/-- The snapshot of a set that was saved is loaded. -/
theorem LawfulStore.load_of_save_ofSet {store store' : σ} {s : BindingSet} {now : Instant}
    (h : SnapshotStore.save store (.ofSet s now) = .ok store') :
  SnapshotStore.load store' = .ok (some (.ofSet s now))
  := by
  rw [load_of_save h, PersistedSnapshot.verify_ofSet]
  rfl

end Federation
