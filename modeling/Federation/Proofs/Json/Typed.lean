import Federation.Proofs.Instant
import Federation.Proofs.Json.Fields

/-!
# Single values and collections are read back

What the parts of a record are written as is read as what they are: texts, natural numbers
and instants, lists of what is read back itself (`list_reread`), sets of texts and maps from
texts to texts.
-/

namespace Federation

namespace Json.Decoder

/-! ### Single values -/

theorem text_reread (depth : Nat) (s : String) :
  text depth (reread (.string s)) = some s
  := rfl

theorem orNull_text_reread (depth : Nat) (s : String) :
  orNull text depth (reread (.string s)) = some (some s)
  := rfl

theorem legible_string (depth : Nat) (s : String) :
  (Json.string s).Legible depth
  := toJson?_reread_iff.mp rfl

theorem reread_natural (n : UInt64) :
  (Json.natural n).reread = .number (some (.natural n))
  := by rw [Json.natural, reread, Number.read?_natural]

theorem natural_reread (depth : Nat) (n : UInt64) :
  natural depth (Json.natural n).reread = some n
  := by
  rw [reread_natural]
  rfl

theorem orNull_natural_reread (depth : Nat) (n : UInt64) :
  orNull natural depth (Json.natural n).reread = some (some n)
  := by
  rw [reread_natural]
  rfl

theorem legible_natural (depth : Nat) (n : UInt64) :
  (Json.natural n).Legible depth
  := by
  apply toJson?_reread_iff.mp
  rw [reread_natural]
  rfl

/-! ### Collections -/

/-- A list comes back if each of its items does. -/
theorem list_reread {α : Type} {d : Decoder α} {f : α → Json} {depth : Nat} {l : List α}
    (h : ∀ a ∈ l, d depth (f a).reread = some a) :
  list d (depth + 1) (Json.array (l.map f)).reread = some l
  := by
  rw [reread, list]
  induction l with
  | nil => rfl
  | cons a l ih =>
    have hl := ih fun b hb => h b (List.mem_cons_of_mem a hb)
    rw [List.map_cons, rereadItems, List.mapM_cons, h a List.mem_cons_self, hl]
    rfl

theorem set_reread (depth : Nat) (s : StringSet) :
  set (depth + 1) (Json.texts s.elements).reread = some s
  := by
  have helements : StringSet.ofList s.elements = s := by
    apply StringSet.ext_contains
    apply StringSet.mem_ofList
  have hlist : list text (depth + 1) (Json.texts s.elements).reread = some s.elements :=
    list_reread fun a _ => text_reread depth a
  rw [set, map, hlist, Option.map_some, helements]

theorem orNull_set_reread (depth : Nat) (s : StringSet) :
  orNull set (depth + 1) (Json.texts s.elements).reread = some (some s)
  := congrArg (Option.map some) (set_reread depth s)

/-- A map comes back if each of its values does. -/
theorem mapOf_reread {α : Type} {d : Decoder α} {f : α → Json} {depth : Nat} {m : StringMap α}
    (h : ∀ e ∈ m.entries, d depth (f e.2).reread = some e.2) :
  mapOf d (depth + 1) (ofMap (m.map f)).reread = some m
  := by
  have hentries : ∀ entries : List (String × α),
      (∀ e ∈ entries, d depth (f e.2).reread = some e.2) →
      (rereadMembers (entries.map fun e => (e.1, f e.2))).mapM (entry d depth) = some entries := by
    intro entries hall
    induction entries with
    | nil => rfl
    | cons e entries ih =>
      obtain ⟨he, hrest⟩ := List.forall_mem_cons.mp hall
      have hentry : entry d depth (some e.1, (f e.2).reread) = some e := by
        simp only [entry, he, Option.bind_eq_bind, Option.bind_some]
      rw [List.map_cons, rereadMembers, List.mapM_cons, hentry, ih hrest]
      rfl
  rw [ofMap, reread, mapOf, StringMap.entries_map, hentries m.entries h, Option.map_some,
    StringMap.ofList_entries]

theorem mapOf_text_reread (depth : Nat) (m : StringMap String) :
  mapOf text (depth + 1) (Json.ofTexts m).reread = some m
  := mapOf_reread fun e _ => text_reread depth e.2

end Json.Decoder

open Json.Decoder in
theorem Instant.decoder_reread (depth : Nat) (t : Instant) :
  decoder depth t.toJson.reread = some t
  := by rw [decoder, filterMap, toJson, text_reread, Option.bind_some, t.parse?_text]

end Federation
