import Federation.Proofs.Audit.Commitment
import Federation.Proofs.Binding.Diff
import Federation.Proofs.Binding.Set
import Federation.Proofs.Evaluate
import Federation.Proofs.Snapshot.Store

/-!
# Digests and differences agree

Whether bindings have drifted is told in two ways: by the digests of two sets, and by the
difference between them.  The message that is hashed for a list of bindings leaves nothing
out (`Binding.digestInput_injective`), for it is read back as the list, so the digests agree
exactly when the difference is empty, as long as the two messages that are hashed do not
collide (`digest_eq_iff_isEmpty_diff`).
-/

namespace Federation

/-! ### Digests -/

namespace Binding

/-- The JSON form of a binding leaves nothing out. -/
theorem toJson_injective {b c : Binding} (h : b.toJson = c.toJson) :
  b = c
  := by
  have hb := b.decoder_reread 0
  have hc := c.decoder_reread 0
  rw [h, hc] at hb
  exact (Option.some.inj hb).symm

theorem digestInput_injective {l l' : List Binding} (h : digestInput l = digestInput l') :
  l = l'
  := by
  have hitems := Json.array.inj (Json.compact_injective (Utf8.encode_injective h))
  apply List.map_injective_iff.mpr (fun _ _ => toJson_injective) hitems

/-- The digests of two lists whose messages do not collide agree for the same lists only. -/
theorem digest_eq_iff {l l' : List Binding}
    (hfree : CollisionFree [digestInput l, digestInput l']) :
  digest l = digest l' ↔ l = l'
  := by
  constructor
  · intro h
    apply digestInput_injective
    apply hfree _ (by simp) _ (by simp)
    apply Hex.encode_injective h
  · rintro rfl
    rfl

end Binding

/-! ### Drift -/

section

variable {registry registry' : Registry} {policies policies' : PolicyStore}
  {revision revision' : UInt64} {groups groups' : List BindingGroup} {s s' : BindingSet}

/-- The digests of two compiled sets agree exactly when the difference between the sets is
empty, whatever their revisions, as long as the two messages that are hashed do not
collide. -/
theorem digest_eq_iff_isEmpty_diff (h : compileAt registry policies revision groups = .ok s)
    (h' : compileAt registry' policies' revision' groups' = .ok s')
    (hfree : CollisionFree [Binding.digestInput s.records, Binding.digestInput s'.records]) :
  s.digest = s'.digest ↔ (s.diff s').isEmpty = true
  := by
  rw [BindingSet.digest, BindingSet.digest, Binding.digest_eq_iff hfree, BindingSet.diff,
    BindingDiff.isEmpty_between_iff (pairwise_key_lt_of_compileAt h)
      (pairwise_key_lt_of_compileAt h')]

end

namespace Sample

/-- One binding of `group`. -/
def devGroup : BindingGroup := { group with environments := ["dev"], operations := ["plan"] }

def devSet : BindingSet := (compileAt registry policies 1 [devGroup]).toOption.getD .empty

/-- The set of a later revision, in which credentials are granted for less time. -/
def shorterSet : BindingSet :=
  (compileAt registry policies 2 [{ devGroup with tokenTtl := 600 }]).toOption.getD .empty

theorem compileAt_eq_devSet :
  compileAt registry policies 1 [devGroup] = .ok devSet
  := by
  have hok : (compileAt registry policies 1 [devGroup]).isOk = true := by decide +kernel
  apply eq_ok_getD_of_isOk hok

theorem compileAt_eq_shorterSet :
  compileAt registry policies 2 [{ devGroup with tokenTtl := 600 }] = .ok shorterSet
  := by
  have hok : (compileAt registry policies 2 [{ devGroup with tokenTtl := 600 }]).isOk = true := by
    decide +kernel
  apply eq_ok_getD_of_isOk hok

theorem digest_digestInput_ne :
  Sha256.digest (Binding.digestInput devSet.records)
    ≠ Sha256.digest (Binding.digestInput shorterSet.records)
  := by
  simp only [Binding.digestInput, Utf8.encode, Json.compact, String.toList_ofList]
  decide +kernel

end Sample

theorem digest_eq_iff_isEmpty_diff_sample :
  compileAt Sample.registry Sample.policies 1 [Sample.devGroup] = .ok Sample.devSet
    ∧ compileAt Sample.registry Sample.policies 2 [{ Sample.devGroup with tokenTtl := 600 }]
      = .ok Sample.shorterSet
    ∧ CollisionFree [Binding.digestInput Sample.devSet.records,
      Binding.digestInput Sample.shorterSet.records]
    ∧ (Sample.devSet.digest = Sample.shorterSet.digest
      ↔ (Sample.devSet.diff Sample.shorterSet).isEmpty = true)
  := ⟨Sample.compileAt_eq_devSet, Sample.compileAt_eq_shorterSet,
    CollisionFree.pair Sample.digest_digestInput_ne,
    digest_eq_iff_isEmpty_diff Sample.compileAt_eq_devSet Sample.compileAt_eq_shorterSet
      (CollisionFree.pair Sample.digest_digestInput_ne)⟩

end Federation
