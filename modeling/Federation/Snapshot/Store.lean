import Federation.Json.Printer
import Federation.Snapshot

/-!
# Stores of snapshots

A store keeps one snapshot.  `SnapshotFile` is the content of a file that keeps it as
JSON text, `SnapshotMemory` keeps the value; both check the digest of what they load.
A `SwitchedStore` fails to save while it is switched off.
-/

namespace Federation

/-- What keeps a snapshot. -/
class SnapshotStore (σ : Type) where
  /-- The kept snapshot, checked. -/
  load : σ → Except StorageError (Option PersistedSnapshot)
  /-- Keeps a snapshot in place of the one before. -/
  save : σ → PersistedSnapshot → Except StorageError σ

/-- A snapshot in memory. -/
structure SnapshotMemory where
  /-- The snapshot, if one was saved. -/
  stored : Option PersistedSnapshot := none

namespace SnapshotMemory

/-- Keeps a snapshot in place of the one before. -/
def save (_ : SnapshotMemory) (p : PersistedSnapshot) : SnapshotMemory := ⟨some p⟩

/-- The kept snapshot, checked. -/
def load (m : SnapshotMemory) : Except StorageError (Option PersistedSnapshot) :=
  match m.stored with
  | none => .ok none
  | some p => p.verify.map fun _ => some p

instance : SnapshotStore SnapshotMemory where
  load := load
  save m p := .ok (m.save p)

end SnapshotMemory

/-- The file of a snapshot. -/
structure SnapshotFile where
  /-- The content, if there is a file. -/
  content : Option Bytes := none

namespace SnapshotFile

/-- The name of the file in the directory that keeps it. -/
def fileName : String := "bindings.json"

/-- The text that a snapshot is kept as. -/
def text (p : PersistedSnapshot) : String := p.toJson.pretty

/-- Keeps a snapshot in place of the one before. -/
def save (_ : SnapshotFile) (p : PersistedSnapshot) : SnapshotFile := ⟨some (Utf8.encode (text p))⟩

/-- The kept snapshot, checked. -/
def load (f : SnapshotFile) : Except StorageError (Option PersistedSnapshot) :=
  match f.content with
  | none => .ok none
  | some bytes =>
    match PersistedSnapshot.decoder.ofBytes? bytes with
    | none => .error .malformed
    | some p => p.verify.map fun _ => some p

instance : SnapshotStore SnapshotFile where
  load := load
  save f p := .ok (f.save p)

end SnapshotFile

/-- A store that can be switched off. -/
structure SwitchedStore (σ : Type) where
  store : σ
  /-- Whether it is switched off. -/
  off : Bool := false

namespace SwitchedStore

variable {σ : Type} [SnapshotStore σ]

/-- Keeps a snapshot unless the store is switched off. -/
def save (s : SwitchedStore σ) (p : PersistedSnapshot) : Except StorageError (SwitchedStore σ) :=
  if s.off then .error (.corrupt "store switched off")
  else (SnapshotStore.save s.store p).map fun store => { s with store := store }

instance : SnapshotStore (SwitchedStore σ) where
  load s := SnapshotStore.load s.store
  save := save

end SwitchedStore
end Federation
