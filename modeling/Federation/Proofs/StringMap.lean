import Federation.StringMap
import Mathlib.Data.List.Nodup
import Mathlib.Data.List.Perm.Basic

/-!
# Entries of maps

What a map holds, seen through the list of its entries: a new key adds one value
(`values_insert_perm`), entries inserted in order give the map back
(`ofList_entries`), what a function gives last along the entries is what it gives on the
greatest key (`getLast?_filterMap_entries`), and a map that is changed value by value is
looked up as before (`get?_map`).
-/

namespace Federation.StringMap

variable {α β : Type}

/-- Of several entries of one key, the last one is found. -/
theorem get?_foldl_insert (l : List (String × α)) (m : StringMap α) (key : String) :
  (l.foldl (fun m e => m.insert e.1 e.2) m).get? key
    = ((l.filter fun e => e.1 = key).map Prod.snd).getLast?.or (m.get? key)
  := by
  induction l generalizing m with
  | nil => rfl
  | cons e l ih =>
    rw [List.foldl_cons, ih, get?_insert]
    by_cases hkey : e.1 = key
    · rw [List.filter_cons_of_pos (by simpa using hkey), List.map_cons, List.getLast?_cons,
        if_pos hkey.symm]
      cases ((l.filter fun e => e.1 = key).map Prod.snd).getLast? <;> rfl
    · rw [List.filter_cons_of_neg (by simpa using hkey), if_neg (Ne.symm hkey)]

theorem get?_ofList (l : List (String × α)) (key : String) :
  (ofList l).get? key = ((l.filter fun e => e.1 = key).map Prod.snd).getLast?
  := by
  rw [ofList, get?_foldl_insert, get?_empty, Option.or_none]

/-- Where no key occurs twice, exactly the listed entries are found. -/
theorem get?_ofList_eq_some_iff {l : List (String × α)} (h : (l.map Prod.fst).Nodup)
    {key : String} {value : α} :
  (ofList l).get? key = some value ↔ (key, value) ∈ l
  := by
  rw [get?_ofList]
  constructor
  · intro hlast
    obtain ⟨e, he, rfl⟩ := List.mem_map.mp (List.mem_of_getLast? hlast)
    obtain ⟨hmem, hkey⟩ := List.mem_filter.mp he
    rw [← of_decide_eq_true hkey]
    apply hmem
  · intro hmem
    have honly : l.filter (fun e => e.1 = key) = [(key, value)] := by
      apply List.perm_singleton.mp
      apply (List.perm_ext_iff_of_nodup (h.of_map.filter _) (List.nodup_singleton _)).mpr
      intro e
      rw [List.mem_filter, List.mem_singleton, decide_eq_true_iff]
      constructor
      · rintro ⟨he, hkey⟩
        apply List.inj_on_of_nodup_map h he hmem hkey
      · rintro rfl
        exact ⟨hmem, rfl⟩
    rw [honly]
    rfl

/-- Where no key occurs twice, exactly the listed entries are kept. -/
theorem mem_entries_ofList_iff {l : List (String × α)} (h : (l.map Prod.fst).Nodup)
    {e : String × α} :
  e ∈ (ofList l).entries ↔ e ∈ l
  := by
  rw [← get?_eq_some_iff, get?_ofList_eq_some_iff h]

theorem nodup_keys (m : StringMap α) :
  m.keys.Nodup
  := by
  apply List.pairwise_map.mpr
  apply m.ascending.imp
  intro a b hlt heq
  rw [heq] at hlt
  apply String.lt_irrefl _ hlt

theorem ofList_entries (m : StringMap α) :
  ofList m.entries = m
  := by
  apply ext_get?
  intro key
  apply Option.ext
  intro value
  rw [get?_ofList_eq_some_iff m.nodup_keys, get?_eq_some_iff]

/-- What the entries of a map give last is what the entry gives after which no entry of a
greater key gives anything. -/
theorem getLast?_filterMap_entries (m : StringMap α) (f : String × α → Option β) (b : β) :
  (m.entries.filterMap f).getLast? = some b
    ↔ ∃ e ∈ m.entries, f e = some b ∧ ∀ e' ∈ m.entries, e.1 < e'.1 → f e' = none
  := by
  have hascending := m.ascending
  rw [List.getLast?_filterMap, List.findSome?_eq_some_iff]
  constructor
  · rintro ⟨after, e, before, hsplit, hb, hnone⟩
    rw [List.reverse_eq_iff, List.reverse_append, List.reverse_cons, List.append_assoc,
      List.singleton_append] at hsplit
    rw [hsplit, List.pairwise_append] at hascending
    obtain ⟨-, -, hbefore⟩ := hascending
    rw [hsplit]
    refine ⟨e, by simp, hb, ?_⟩
    intro e' he' hlt
    rcases List.mem_append.mp he' with he' | he'
    · have hgt := hbefore e' he' e List.mem_cons_self
      exact absurd hgt (String.lt_asymm hlt)
    · rcases List.mem_cons.mp he' with rfl | he'
      · exact absurd hlt (String.lt_irrefl _)
      · exact hnone e' (List.mem_reverse.mp he')
  · rintro ⟨e, he, hb, hnone⟩
    obtain ⟨before, after, hsplit⟩ := List.append_of_mem he
    rw [hsplit] at hascending hnone ⊢
    obtain ⟨-, hafter, -⟩ := List.pairwise_append.mp hascending
    refine ⟨after.reverse, e, before.reverse, by simp, hb, ?_⟩
    intro e' he'
    have hmem : e' ∈ after := List.mem_reverse.mp he'
    apply hnone e'
    · simp [hmem]
    · exact List.rel_of_pairwise_cons hafter hmem

theorem mem_of_mem_entries_ofList {l : List (String × α)} {e : String × α}
    (h : e ∈ (ofList l).entries) :
  e ∈ l
  := by
  have hget := ((ofList l).get?_eq_some_iff e.1 e.2).mpr h
  rw [get?_ofList] at hget
  obtain ⟨f, hf, hvalue⟩ := List.mem_map.mp (List.mem_of_getLast? hget)
  obtain ⟨hmem, hkey⟩ := List.mem_filter.mp hf
  rw [← Prod.ext (of_decide_eq_true hkey) hvalue]
  apply hmem

theorem entries_map (f : α → β) (m : StringMap α) :
  (m.map f).entries = m.entries.map fun e => (e.1, f e.2)
  := rfl

theorem get?_map (f : α → β) (m : StringMap α) (key : String) :
  (m.map f).get? key = (m.get? key).map f
  := by
  apply Option.ext
  intro value
  simp only [get?_eq_some_iff, Option.map_eq_some_iff, entries_map, List.mem_map, Prod.mk.injEq,
    Prod.exists]
  constructor
  · rintro ⟨k, v, hmem, rfl, rfl⟩
    use v
  · rintro ⟨v, hmem, rfl⟩
    use key, v

theorem insertEntry_perm {key : String} {l : List (String × α)}
    (h : ∀ e ∈ l, e.1 ≠ key) (value : α) :
  (insertEntry key value l).Perm ((key, value) :: l)
  := by
  induction l with
  | nil => rfl
  | cons e l ih =>
    rw [insertEntry]
    split
    · rfl
    · rw [if_neg (Ne.symm (h e List.mem_cons_self))]
      apply List.Perm.trans ((ih fun a ha => h a (List.mem_cons_of_mem _ ha)).cons e)
      apply List.Perm.swap

theorem values_insert_perm {m : StringMap α} {key : String} (h : m.contains key = false)
    (value : α) :
  (m.insert key value).values.Perm (value :: m.values)
  := by
  have hnew : ∀ e ∈ m.entries, e.1 ≠ key := by
    apply (m.get?_eq_none_iff key).mp
    simpa [contains] using h
  apply (insertEntry_perm hnew value).map Prod.snd

theorem mem_values_iff (m : StringMap α) (value : α) :
  value ∈ m.values ↔ ∃ key, m.get? key = some value
  := by
  simp [values, get?_eq_some_iff]

end Federation.StringMap
