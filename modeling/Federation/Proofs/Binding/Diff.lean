import Federation.Binding.Diff
import Federation.Proofs.StringMap

/-!
# Differences of lists of bindings

A difference is empty exactly when both lists hold the same bindings by key
(`BindingDiff.isEmpty_between_iff_byKey`).  A list in ascending order of its keys is given
back by what it holds by key (`BindingDiff.values_byKey`), so among such lists only a list
and itself have no difference (`BindingDiff.isEmpty_between_iff`).
-/

namespace Federation.BindingDiff

/-! ### Bindings by key -/

/-- A list in ascending order of its keys as a map. -/
def sorted (records : List Binding) (h : records.Pairwise fun a b => a.key < b.key) :
    StringMap Binding :=
  ⟨records.map fun b => (b.key, b), List.pairwise_map.mpr h⟩

theorem byKey_eq_sorted {records : List Binding}
    (h : records.Pairwise fun a b => a.key < b.key) :
  byKey records = sorted records h
  := (sorted records h).ofList_entries

theorem values_byKey {records : List Binding} (h : records.Pairwise fun a b => a.key < b.key) :
  (byKey records).values = records
  := by
  rw [byKey_eq_sorted h, StringMap.values, sorted, List.map_map]
  apply List.map_id

/-! ### What is listed -/

theorem added_eq_nil_iff {old new : List Binding} :
  (between old new).added = []
    ↔ ∀ key b, (byKey new).get? key = some b → ∃ a, (byKey old).get? key = some a
  := by
  simp only [between, List.filter_eq_nil_iff, StringMap.mem_keys_iff, Bool.not_eq_true',
    Bool.not_eq_false, StringMap.contains_iff, forall_exists_index]

theorem removed_eq_nil_iff {old new : List Binding} :
  (between old new).removed = []
    ↔ ∀ key a, (byKey old).get? key = some a → ∃ b, (byKey new).get? key = some b
  := added_eq_nil_iff

theorem changed_eq_nil_iff {old new : List Binding} :
  (between old new).changed = []
    ↔ ∀ key a b, (byKey old).get? key = some a → (byKey new).get? key = some b → a = b
  := by
  simp only [between, List.filter_eq_nil_iff, StringMap.mem_keys_iff, Bool.and_eq_true,
    StringMap.contains_iff, bne_iff_ne]
  constructor
  · intro h key a b ha hb
    by_contra hne
    apply h key ⟨b, hb⟩ ⟨⟨a, ha⟩, _⟩
    rw [ha, hb]
    simpa using hne
  · rintro h key ⟨b, hb⟩ ⟨⟨a, ha⟩, hne⟩
    rw [ha, hb, h key a b ha hb] at hne
    exact hne rfl

theorem isEmpty_iff {d : BindingDiff} :
  d.isEmpty = true ↔ d.added = [] ∧ d.removed = [] ∧ d.changed = []
  := by simp only [isEmpty, Bool.and_eq_true, List.isEmpty_iff, and_assoc]

/-- There is no difference exactly when the lists hold the same bindings by key. -/
theorem isEmpty_between_iff_byKey {old new : List Binding} :
  (between old new).isEmpty = true ↔ byKey old = byKey new
  := by
  rw [isEmpty_iff, added_eq_nil_iff, removed_eq_nil_iff, changed_eq_nil_iff]
  constructor
  · rintro ⟨hadded, hremoved, hchanged⟩
    apply StringMap.ext_get?
    intro key
    apply Option.ext
    intro b
    constructor
    · intro hold
      obtain ⟨c, hnew⟩ := hremoved key b hold
      rw [hchanged key b c hold hnew, hnew]
    · intro hnew
      obtain ⟨a, hold⟩ := hadded key b hnew
      rw [← hchanged key a b hold hnew, hold]
  · intro h
    rw [h]
    refine ⟨fun key b hb => ⟨b, hb⟩, fun key a ha => ⟨a, ha⟩, ?_⟩
    intro key a b ha hb
    exact Option.some.inj (ha.symm.trans hb)

/-- Between lists in ascending order of their keys there is no difference exactly when they
are the same. -/
theorem isEmpty_between_iff {old new : List Binding}
    (hold : old.Pairwise fun a b => a.key < b.key)
    (hnew : new.Pairwise fun a b => a.key < b.key) :
  (between old new).isEmpty = true ↔ old = new
  := by
  rw [isEmpty_between_iff_byKey]
  constructor
  · intro h
    rw [← values_byKey hold, h, values_byKey hnew]
  · rintro rfl
    rfl

end Federation.BindingDiff
