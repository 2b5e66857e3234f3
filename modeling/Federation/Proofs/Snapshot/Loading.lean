import Federation.Proofs.Binding.Diff
import Federation.Proofs.Snapshot.Store

/-!
# What stores load

A store loads what it keeps, in memory or in a file, when the bindings have the digest that
is kept with them (`load_of_stored`), and refuses it as corrupt when they do not.  The
snapshot of a set has the digest of its bindings, so it is loaded as it was saved, and there
is no difference between it and the set (`PersistedSnapshot.load_save_ofSet`).
-/

namespace Federation

namespace PersistedSnapshot

/-- Bindings that do not have the digest are told from those that have. -/
theorem verify_of_digest_ne {p : PersistedSnapshot} (h : p.digest ≠ Binding.digest p.records) :
  ∃ why, p.verify = .error (.corrupt why)
  := ⟨_, if_neg (Ne.symm h)⟩

/-- A set has not drifted from its own snapshot. -/
theorem isEmpty_diff_ofSet (s : BindingSet) (now : Instant) :
  ((ofSet s now).diff s).isEmpty = true
  := BindingDiff.isEmpty_between_iff_byKey.mpr rfl

end PersistedSnapshot

/-! ### What is kept -/

namespace SnapshotMemory

theorem load_of_stored {m : SnapshotMemory} {p : PersistedSnapshot} (h : m.stored = some p) :
  m.load = p.verify.map fun _ => some p
  := by rw [load, h]

end SnapshotMemory

namespace SnapshotFile

/-- The snapshot in a file, whether or not its bindings have the digest. -/
def stored? (f : SnapshotFile) : Option PersistedSnapshot :=
  f.content.bind PersistedSnapshot.decoder.ofBytes?

theorem load_of_stored {f : SnapshotFile} {p : PersistedSnapshot} (h : f.stored? = some p) :
  f.load = p.verify.map fun _ => some p
  := by
  obtain ⟨bytes, hcontent, hread⟩ := Option.bind_eq_some_iff.mp h
  simp only [load, hcontent, hread]

/-- A file that a snapshot was saved in has the snapshot in it. -/
theorem stored?_save (f : SnapshotFile) (p : PersistedSnapshot) :
  (f.save p).stored? = some p
  := by rw [stored?, save, Option.bind_some, p.ofBytes?_text]

end SnapshotFile

/-- The snapshot of a set that was saved, at whatever time, in memory or in a file is loaded
as what it is: its bindings have their digest, and none of them differs from those of the
set.  A snapshot whose bindings do not have the digest that is kept with them is loaded from
neither. -/
theorem PersistedSnapshot.load_save_ofSet (s : BindingSet) (now : Instant) (m : SnapshotMemory)
    (f : SnapshotFile) :
  (m.save (ofSet s now)).load = .ok (some (ofSet s now))
    ∧ (f.save (ofSet s now)).load = .ok (some (ofSet s now))
    ∧ (ofSet s now).verify = .ok ()
    ∧ ((ofSet s now).diff s).isEmpty = true
    ∧ ∀ p : PersistedSnapshot, p.digest ≠ Binding.digest p.records →
      (m.stored = some p → ∃ why, m.load = .error (.corrupt why))
        ∧ (f.stored? = some p → ∃ why, f.load = .error (.corrupt why))
  := by
  have hverify := verify_ofSet s now
  refine ⟨?_, ?_, hverify, isEmpty_diff_ofSet s now, ?_⟩
  · have hstored : (m.save (ofSet s now)).stored = some (ofSet s now) := rfl
    rw [SnapshotMemory.load_of_stored hstored, hverify]
    rfl
  · rw [SnapshotFile.load_of_stored (f.stored?_save _), hverify]
    rfl
  · intro p hdigest
    obtain ⟨why, hcorrupt⟩ := verify_of_digest_ne hdigest
    constructor
    · intro hstored
      use why
      rw [SnapshotMemory.load_of_stored hstored, hcorrupt]
      rfl
    · intro hstored
      use why
      rw [SnapshotFile.load_of_stored hstored, hcorrupt]
      rfl

end Federation
