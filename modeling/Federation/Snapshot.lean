import Federation.Binding.Set
import Federation.Instant.Rfc3339

/-!
# Snapshots

A `PersistedSnapshot` is a set of bindings as it is kept across restarts: its revision,
its bindings with their digest, and when it was saved.  `Published` holds the set that
tokens are evaluated against; only a set with a higher revision takes its place.
-/

namespace Federation

/-- What can go wrong with kept snapshots. -/
inductive StorageError where
  /-- It cannot be read or written. -/
  | io
  /-- It is no snapshot. -/
  | malformed
  /-- Its bindings do not have its digest. -/
  | corrupt (why : String)
deriving DecidableEq

/-- The text of an error. -/
def StorageError.message : StorageError → String
  | .io => "Storage I/O error"
  | .malformed => "Serialization error"
  | .corrupt why => "Persisted snapshot is corrupt: " ++ why

/-- A set of bindings as it is kept. -/
structure PersistedSnapshot where
  revision : UInt64
  /-- The digest of the bindings. -/
  digest : String
  savedAt : Instant
  /-- The bindings, by ascending key. -/
  records : List Binding
deriving DecidableEq

namespace PersistedSnapshot

/-- The snapshot of a set. -/
def ofSet (s : BindingSet) (savedAt : Instant) : PersistedSnapshot :=
  ⟨s.revision, Binding.digest s.records, savedAt, s.records⟩

/-- Checks that the bindings have the digest. -/
def verify (p : PersistedSnapshot) : Except StorageError Unit :=
  let actual := Binding.digest p.records
  if actual = p.digest then .ok ()
  else .error (.corrupt ("digest " ++ p.digest ++ " does not match records (" ++ actual ++ ")"))

/-- The difference between a snapshot and a set compiled later. -/
def diff (p : PersistedSnapshot) (compiled : BindingSet) : BindingDiff :=
  .between p.records compiled.records

/-- The JSON form of a snapshot. -/
def toJson (p : PersistedSnapshot) : Json :=
  .object [
    ("revision", .natural p.revision),
    ("digest", .string p.digest),
    ("saved_at", p.savedAt.toJson),
    ("records", .array (p.records.map Binding.toJson))]

/-- The names of the members of a snapshot, in order. -/
def fieldNames : List String := ["revision", "digest", "saved_at", "records"]

/-- Reads a snapshot from its JSON form. -/
def decoder : Json.Decoder PersistedSnapshot := .record fieldNames fun r => do
  let revision ← r.required "revision" .natural
  let digest ← r.required "digest" .text
  let savedAt ← r.required "saved_at" Instant.decoder
  let records ← r.required "records" (.list Binding.decoder)
  some ⟨revision, digest, savedAt, records⟩

end PersistedSnapshot

/-- A set was offered that does not come after the published one. -/
structure StaleRevision where
  /-- The revision of the published set. -/
  current : UInt64
  /-- The revision of the offered set. -/
  offered : UInt64
deriving DecidableEq

/-- The text of the error. -/
def StaleRevision.message (e : StaleRevision) : String :=
  "snapshot revision " ++ Digits.text e.offered.toNat
    ++ " does not supersede published revision " ++ Digits.text e.current.toNat

/-- The set that tokens are evaluated against. -/
structure Published where
  current : BindingSet

namespace Published

/-- Puts a set with a higher revision in place. -/
def publish (p : Published) (next : BindingSet) : Except StaleRevision Published :=
  if p.current.revision < next.revision then .ok ⟨next⟩
  else .error ⟨p.current.revision, next.revision⟩

end Published
end Federation
