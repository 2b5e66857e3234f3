import Federation.Proofs.Binding.Diff

/-!
# Differences as patches

`BindingDiff.Exact` says what a difference between two lists has to name: in ascending order,
the keys that one list has and the other has not, and those under which both have bindings
that differ.  Only one difference is exact (`Exact.unique`); the other way round it is
exact with what is added and what is removed exchanged (`Exact.swap`), and it leads from the
old list to the new one (`Exact.patch_perm`).  Main statement: all this holds of the
difference of lists in which no key occurs twice (`between_of_nodup`).
-/

namespace Federation

namespace BindingDiff

variable {old new records : List Binding} {d d' : BindingDiff}

/-- Whether a difference names the keys that are new, gone and changed from an old list to a
new one, each in ascending order. -/
structure Exact (old new : List Binding) (d : BindingDiff) : Prop where
  added_ascending : d.added.Pairwise (· < ·)
  removed_ascending : d.removed.Pairwise (· < ·)
  changed_ascending : d.changed.Pairwise (· < ·)
  mem_added_iff : ∀ key, key ∈ d.added ↔ key ∈ new.map Binding.key ∧ key ∉ old.map Binding.key
  mem_removed_iff : ∀ key,
    key ∈ d.removed ↔ key ∈ old.map Binding.key ∧ key ∉ new.map Binding.key
  mem_changed_iff : ∀ key,
    key ∈ d.changed ↔ ∃ a ∈ old, ∃ b ∈ new, a.key = key ∧ b.key = key ∧ a ≠ b

/-- The difference the other way round: what was added is removed. -/
def swap (d : BindingDiff) : BindingDiff where
  added := d.removed
  removed := d.added
  changed := d.changed

/-- Takes from an old list what is neither gone nor changed, and from a new one what is new or
changed. -/
def patch (d : BindingDiff) (old new : List Binding) : List Binding :=
  old.filter (fun a => a.key ∉ d.removed ∧ a.key ∉ d.changed)
    ++ new.filter fun b => b.key ∈ d.added ∨ b.key ∈ d.changed

/-! ### Exact differences -/

/-- Names in ascending order are in one order only. -/
theorem eq_of_mem_iff_of_ascending {l l' : List String} (hl : l.Pairwise (· < ·))
    (hl' : l'.Pairwise (· < ·)) (h : ∀ name, name ∈ l ↔ name ∈ l') :
  l = l'
  := congrArg StringSet.elements (StringSet.ext_contains (s := ⟨l, hl⟩) (t := ⟨l', hl'⟩) h)

namespace Exact

/-- Only one difference is exact. -/
theorem unique (h : d.Exact old new) (h' : d'.Exact old new) :
  d = d'
  := by
  have hadded : d.added = d'.added := by
    apply eq_of_mem_iff_of_ascending h.added_ascending h'.added_ascending
    intro key
    rw [h.mem_added_iff, h'.mem_added_iff]
  have hremoved : d.removed = d'.removed := by
    apply eq_of_mem_iff_of_ascending h.removed_ascending h'.removed_ascending
    intro key
    rw [h.mem_removed_iff, h'.mem_removed_iff]
  have hchanged : d.changed = d'.changed := by
    apply eq_of_mem_iff_of_ascending h.changed_ascending h'.changed_ascending
    intro key
    rw [h.mem_changed_iff, h'.mem_changed_iff]
  cases d
  cases d'
  rw [BindingDiff.mk.injEq]
  exact ⟨hadded, hremoved, hchanged⟩

theorem swap (h : d.Exact old new) :
  d.swap.Exact new old
  := by
  constructor
  · apply h.removed_ascending
  · apply h.added_ascending
  · apply h.changed_ascending
  · apply h.mem_removed_iff
  · apply h.mem_added_iff
  · intro key
    rw [BindingDiff.swap, h.mem_changed_iff]
    constructor
    · rintro ⟨a, ha, b, hb, hakey, hbkey, hne⟩
      exact ⟨b, hb, a, ha, hbkey, hakey, hne.symm⟩
    · rintro ⟨b, hb, a, ha, hbkey, hakey, hne⟩
      exact ⟨a, ha, b, hb, hakey, hbkey, hne.symm⟩

/-- An old binding whose key is neither gone nor changed is there still. -/
theorem mem_new_of_mem_old (h : d.Exact old new) {a : Binding} (ha : a ∈ old)
    (hremoved : a.key ∉ d.removed) (hchanged : a.key ∉ d.changed) :
  a ∈ new
  := by
  have hkey : a.key ∈ new.map Binding.key := by
    apply Decidable.byContradiction
    intro hnone
    apply hremoved
    apply (h.mem_removed_iff a.key).mpr ⟨List.mem_map_of_mem ha, hnone⟩
  obtain ⟨b, hb, hbkey⟩ := List.mem_map.mp hkey
  have heq : a = b := by
    apply Decidable.byContradiction
    intro hne
    apply hchanged
    apply (h.mem_changed_iff a.key).mpr ⟨a, ha, b, hb, rfl, hbkey, hne⟩
  rw [heq]
  apply hb

/-- The key of a binding that both lists have is not named. -/
theorem not_named_of_mem (h : d.Exact old new) (hold : (old.map Binding.key).Nodup)
    (hnew : (new.map Binding.key).Nodup) {b : Binding} (hmem : b ∈ old) (hmem' : b ∈ new) :
  b.key ∉ d.added ∧ b.key ∉ d.removed ∧ b.key ∉ d.changed
  := by
  refine ⟨?_, ?_, ?_⟩
  · intro hadded
    apply ((h.mem_added_iff b.key).mp hadded).2
    apply List.mem_map_of_mem hmem
  · intro hremoved
    apply ((h.mem_removed_iff b.key).mp hremoved).2
    apply List.mem_map_of_mem hmem'
  · intro hchanged
    obtain ⟨a, ha, c, hc, hakey, hckey, hne⟩ := (h.mem_changed_iff b.key).mp hchanged
    apply hne
    rw [List.inj_on_of_nodup_map hold ha hmem hakey, List.inj_on_of_nodup_map hnew hc hmem' hckey]

theorem mem_patch_iff (h : d.Exact old new) (hold : (old.map Binding.key).Nodup)
    (hnew : (new.map Binding.key).Nodup) (b : Binding) :
  b ∈ d.patch old new ↔ b ∈ new
  := by
  rw [patch, List.mem_append, List.mem_filter, List.mem_filter, decide_eq_true_iff,
    decide_eq_true_iff]
  constructor
  · rintro (⟨hb, hremoved, hchanged⟩ | ⟨hb, -⟩)
    · apply h.mem_new_of_mem_old hb hremoved hchanged
    · apply hb
  · intro hb
    by_cases hkey : b.key ∈ d.added ∨ b.key ∈ d.changed
    · exact .inr ⟨hb, hkey⟩
    · -- read backwards, a binding that is not taken from the new list is one of the old list
      obtain ⟨hadded, hchanged⟩ := not_or.mp hkey
      have hmem := h.swap.mem_new_of_mem_old hb hadded hchanged
      obtain ⟨-, hremoved, -⟩ := h.not_named_of_mem hold hnew hmem hb
      exact .inl ⟨hmem, hremoved, hchanged⟩

/-- An exact difference leads from the old list to the new one. -/
theorem patch_perm (h : d.Exact old new) (hold : (old.map Binding.key).Nodup)
    (hnew : (new.map Binding.key).Nodup) :
  (d.patch old new).Perm new
  := by
  have hnodup : (d.patch old new).Nodup := by
    apply List.nodup_append'.mpr
    refine ⟨hold.of_map.filter _, hnew.of_map.filter _, ?_⟩
    -- what stays has another key than what is new or changed
    intro b hstays htaken
    obtain ⟨hmem, -⟩ := List.mem_filter.mp hstays
    obtain ⟨hmem', hkey⟩ := List.mem_filter.mp htaken
    obtain ⟨hadded, -, hchanged⟩ := h.not_named_of_mem hold hnew hmem hmem'
    rcases of_decide_eq_true hkey with hkey | hkey
    · apply hadded hkey
    · apply hchanged hkey
  apply (List.perm_ext_iff_of_nodup hnodup hnew.of_map).mpr
  apply h.mem_patch_iff hold hnew

end Exact

/-! ### Lists with distinct keys -/

/-- A list in which no key occurs twice holds each of its bindings by its key. -/
theorem get?_byKey_eq_some_iff (h : (records.map Binding.key).Nodup) {key : String}
    {b : Binding} :
  (byKey records).get? key = some b ↔ b ∈ records ∧ b.key = key
  := by
  have hentries : ((records.map fun b => (b.key, b)).map Prod.fst).Nodup := by
    rwa [List.map_map]
  rw [byKey, StringMap.get?_ofList_eq_some_iff hentries]
  simp [and_comm]

theorem mem_keys_byKey_iff (h : (records.map Binding.key).Nodup) (key : String) :
  key ∈ (byKey records).keys ↔ key ∈ records.map Binding.key
  := by
  simp only [StringMap.mem_keys_iff, get?_byKey_eq_some_iff h, List.mem_map]

theorem contains_byKey_iff (h : (records.map Binding.key).Nodup) (key : String) :
  (byKey records).contains key = true ↔ key ∈ records.map Binding.key
  := by
  rw [StringMap.contains_iff, ← StringMap.mem_keys_iff, mem_keys_byKey_iff h]

/-- Such lists hold the same by key exactly when they have the same bindings. -/
theorem byKey_eq_iff (hold : (old.map Binding.key).Nodup) (hnew : (new.map Binding.key).Nodup) :
  byKey old = byKey new ↔ old.Perm new
  := by
  constructor
  · intro h
    apply (List.perm_ext_iff_of_nodup hold.of_map hnew.of_map).mpr
    intro b
    have hiff : (byKey old).get? b.key = some b ↔ b ∈ old ∧ b.key = b.key :=
      get?_byKey_eq_some_iff hold
    rw [h, get?_byKey_eq_some_iff hnew] at hiff
    simpa using hiff.symm
  · intro hperm
    apply StringMap.ext_get?
    intro key
    apply Option.ext
    intro b
    rw [get?_byKey_eq_some_iff hold, get?_byKey_eq_some_iff hnew, hperm.mem_iff]

/-- The difference of lists in which no key occurs twice is exact. -/
theorem exact_between (hold : (old.map Binding.key).Nodup)
    (hnew : (new.map Binding.key).Nodup) :
  (between old new).Exact old new
  := by
  have hkeys : ∀ l : List Binding, (byKey l).keys.Pairwise (· < ·) :=
    fun l => List.pairwise_map.mpr (byKey l).ascending
  constructor
  · apply (hkeys new).filter
  · apply (hkeys old).filter
  · apply (hkeys new).filter
  · intro key
    simp only [between, List.mem_filter, mem_keys_byKey_iff hnew, Bool.not_eq_true',
      ← Bool.not_eq_true, contains_byKey_iff hold]
  · intro key
    simp only [between, List.mem_filter, mem_keys_byKey_iff hold, Bool.not_eq_true',
      ← Bool.not_eq_true, contains_byKey_iff hnew]
  · intro key
    simp only [between, List.mem_filter, mem_keys_byKey_iff hnew, Bool.and_eq_true,
      contains_byKey_iff hold, bne_iff_ne, List.mem_map]
    constructor
    · rintro ⟨⟨b, hb, hbkey⟩, ⟨a, ha, hakey⟩, hne⟩
      refine ⟨a, ha, b, hb, hakey, hbkey, ?_⟩
      rw [(get?_byKey_eq_some_iff hold).mpr ⟨ha, hakey⟩,
        (get?_byKey_eq_some_iff hnew).mpr ⟨hb, hbkey⟩] at hne
      simpa using hne
    · rintro ⟨a, ha, b, hb, hakey, hbkey, hne⟩
      refine ⟨⟨b, hb, hbkey⟩, ⟨a, ha, hakey⟩, ?_⟩
      rw [(get?_byKey_eq_some_iff hold).mpr ⟨ha, hakey⟩,
        (get?_byKey_eq_some_iff hnew).mpr ⟨hb, hbkey⟩]
      simpa using hne

/-- Between lists in which no key occurs twice, in whatever order, the difference names exactly
the keys that are new, gone and changed.  It is empty exactly when the lists have the same
bindings, the other way round it has additions and removals exchanged, and taking from the new
list what it names as new or changed makes the old list the new one. -/
theorem between_of_nodup (hold : (old.map Binding.key).Nodup)
    (hnew : (new.map Binding.key).Nodup) :
  (between old new).Exact old new
    ∧ ((between old new).isEmpty = true ↔ old.Perm new)
    ∧ between new old = (between old new).swap
    ∧ ((between old new).patch old new).Perm new
  := by
  have hexact := exact_between hold hnew
  refine ⟨hexact, ?_, ?_, ?_⟩
  · rw [isEmpty_between_iff_byKey, byKey_eq_iff hold hnew]
  · apply (exact_between hnew hold).unique hexact.swap
  · apply hexact.patch_perm hold hnew

end BindingDiff

namespace Sample

/-- A binding of a key to a policy. -/
def bindingOf (key policy : String) : Binding where
  key := key
  environment := "dev"
  operation := "plan"
  issuerId := "ci"
  issuer := "https://ci.example"
  subject := key
  boundAudiences := .ofList ["vault"]
  boundClaims := {}
  claimMappings := {}
  tokenTtl := 600
  maxTtl := 900
  policy := policy

/-- The bindings that were. -/
def formerBindings : List Binding :=
  [bindingOf "plan" "deploy", bindingOf "apply" "deploy", bindingOf "drop" "deploy"]

/-- The bindings that are, one of them with another policy. -/
def laterBindings : List Binding :=
  [bindingOf "test" "deploy", bindingOf "plan" "deploy", bindingOf "apply" "read"]

end Sample

namespace BindingDiff

theorem between_of_nodup_sample :
  (Sample.formerBindings.map Binding.key).Nodup ∧ (Sample.laterBindings.map Binding.key).Nodup
    ∧ between Sample.formerBindings Sample.laterBindings = ⟨["test"], ["drop"], ["apply"]⟩
    ∧ (between Sample.formerBindings Sample.laterBindings).Exact
      Sample.formerBindings Sample.laterBindings
    ∧ ((between Sample.formerBindings Sample.laterBindings).isEmpty = true
      ↔ Sample.formerBindings.Perm Sample.laterBindings)
    ∧ between Sample.laterBindings Sample.formerBindings
      = (between Sample.formerBindings Sample.laterBindings).swap
    ∧ ((between Sample.formerBindings Sample.laterBindings).patch
      Sample.formerBindings Sample.laterBindings).Perm Sample.laterBindings
  := by
  have hold : (Sample.formerBindings.map Binding.key).Nodup := by decide
  have hnew : (Sample.laterBindings.map Binding.key).Nodup := by decide
  refine ⟨hold, hnew, ?_, between_of_nodup hold hnew⟩
  decide +kernel

end BindingDiff
end Federation
