import Federation.Proofs.Json.Compact
import Mathlib.Data.List.DropRight

/-!
# Texts of values are read back

`reread a` is the document that the text of a value `a` is read as
(`parse?_compact`).  It is the document of the value but for its numbers, which are
what their numerals are read as: a double may come back as another one.
-/

namespace Federation.Json

mutual

/-- The document that the text of a value is read as. -/
def reread : Json → Document
  | .null => .null
  | .bool b => .bool b
  | .number n => .number n.numeral.read?
  | .string s => .string (some s)
  | .array items => .array (rereadItems items)
  | .object members => .object (rereadMembers members)

/-- The documents that the texts of the items of a list are read as. -/
def rereadItems : List Json → List Document
  | [] => []
  | a :: as => reread a :: rereadItems as

/-- The members that the texts of the members of an object are read as. -/
def rereadMembers : List (String × Json) → List (Option String × Document)
  | [] => []
  | (k, a) :: as => (some k, reread a) :: rereadMembers as

end

namespace Document

open Numeral

/-! ### One step of reading -/

theorem isBlank_of_leadOf {c : Char} {l : Lead} (h : leadOf c = some l) :
  isBlank c = false
  := by
  apply Bool.eq_false_iff.mpr
  intro hblank
  simp only [isBlank, Bool.or_eq_true, decide_eq_true_eq] at hblank
  obtain ((rfl | rfl) | rfl) | rfl := hblank <;> cases h

theorem skipBlanks_cons {c : Char} (h : isBlank c = false) (cs : List Char) :
  skipBlanks (c :: cs) = c :: cs
  := by rw [skipBlanks, List.dropWhile_cons, h, if_neg (by simp)]

/-- Blanks in front of a value do not matter. -/
theorem value?_skipBlanks (fuel : Nat) (cs : List Char) :
  value? fuel (skipBlanks cs) = value? fuel cs
  := by
  cases fuel with
  | zero => rfl
  | succ fuel => rw [value?, value?, skipBlanks, skipBlanks, List.dropWhile_idempotent]

theorem items?_skipBlanks (fuel : Nat) (cs : List Char) :
  items? fuel (skipBlanks cs) = items? fuel cs
  := by
  cases fuel with
  | zero => rfl
  | succ fuel => rw [items?, items?, value?_skipBlanks]

theorem members?_skipBlanks (fuel : Nat) (cs : List Char) :
  members? fuel (skipBlanks cs) = members? fuel cs
  := by
  cases fuel with
  | zero => rfl
  | succ fuel => rw [members?, members?, skipBlanks, skipBlanks, List.dropWhile_idempotent]

/-- A closing bracket is no item. -/
theorem items?_of_close {fuel : Nat} {cs rest : List Char} (h : skipBlanks cs = ']' :: rest) :
  items? fuel cs = none
  := by
  rw [← items?_skipBlanks, h]
  match fuel with
  | 0 => rfl
  | 1 => rfl
  | fuel + 2 => rfl

/-- A closing brace is no member. -/
theorem members?_of_close {fuel : Nat} {cs rest : List Char} (h : skipBlanks cs = '}' :: rest) :
  members? fuel cs = none
  := by
  rw [← members?_skipBlanks, h]
  cases fuel <;> rfl

theorem length_compactChars_pos (a : Json) :
  0 < (compactChars a).length
  := by
  obtain ⟨c, cs, ha, -⟩ := exists_compactChars_eq_cons a
  rw [ha]
  simp

theorem value?_number (fuel : Nat) (n : Number) {rest : List Char} (hrest : Follows rest) :
  value? (fuel + 1) (n.chars ++ rest) = some (.number n.numeral.read?, rest)
  := by
  have hread := numeral?_chars_append n.wellFormed_numeral hrest
  rw [n.chars_numeral] at hread
  obtain ⟨c, cs, hn, hc⟩ := exists_chars_eq_cons n
  rw [hn, List.cons_append] at hread ⊢
  rw [value?, skipBlanks_cons (isBlank_of_leadOf hc)]
  split
  case h_7 =>
    rw [hread]
    rfl
  -- The other cases are of values that begin otherwise.
  all_goals
    rename_i h
    rw [(List.cons.inj h).1] at hc
    cases hc

theorem value?_string (fuel : Nat) (s : String) (rest : List Char) :
  value? (fuel + 1) (quoted s ++ rest) = some (.string (some s), rest)
  := by
  have hread := quoted?_escaped s rest
  rw [quoted, List.append_assoc, List.cons_append, List.cons_append, List.nil_append, value?,
    skipBlanks_cons rfl]
  simp only [hread]
  rfl

/-- The items of a list are read after its bracket. -/
theorem value?_array {fuel : Nat} {cs : List Char} {ds : List Document} {rest : List Char}
    (h : items? fuel cs = some (ds, rest)) :
  value? (fuel + 1) ('[' :: cs) = some (.array ds, rest)
  := by
  rw [value?, skipBlanks_cons rfl]
  simp only
  split
  · rename_i hclose
    rw [items?_of_close hclose] at h
    cases h
  · rw [items?_skipBlanks, h]
    rfl

/-- The members of an object are read after its brace. -/
theorem value?_object {fuel : Nat} {cs : List Char} {ms : List (Option String × Document)}
    {rest : List Char} (h : members? fuel cs = some (ms, rest)) :
  value? (fuel + 1) ('{' :: cs) = some (.object ms, rest)
  := by
  rw [value?, skipBlanks_cons rfl]
  simp only
  split
  · rename_i hclose
    rw [members?_of_close hclose] at h
    cases h
  · rw [members?_skipBlanks, h]
    rfl

/-- The last item is read up to the closing bracket. -/
theorem items?_last {fuel : Nat} {cs cs' : List Char} {d : Document} {rest : List Char}
    (h : value? fuel cs = some (d, cs')) (hclose : skipBlanks cs' = ']' :: rest) :
  items? (fuel + 1) cs = some ([d], rest)
  := by
  rw [items?, h]
  simp only [Option.bind_eq_bind, Option.bind_some, hclose]

theorem items?_next {fuel : Nat} {cs cs' : List Char} {d : Document} {ds : List Document}
    {rest : List Char} (h : value? fuel cs = some (d, ',' :: cs'))
    (hnext : items? fuel cs' = some (ds, rest)) :
  items? (fuel + 1) cs = some (d :: ds, rest)
  := by
  rw [items?, h]
  simp only [Option.bind_eq_bind, Option.bind_some,
    skipBlanks_cons (show isBlank ',' = false from rfl), hnext]

/-- The last member is read up to the closing brace. -/
theorem members?_last {fuel : Nat} {k : String} {cs cs' : List Char} {d : Document}
    {rest : List Char} (h : value? fuel cs = some (d, cs'))
    (hclose : skipBlanks cs' = '}' :: rest) :
  members? (fuel + 1) (quoted k ++ ':' :: cs) = some ([(some k, d)], rest)
  := by
  have hread := quoted?_escaped k (':' :: cs)
  rw [quoted, List.append_assoc, List.cons_append, List.cons_append, List.nil_append, members?,
    skipBlanks_cons rfl]
  simp only [hread, Option.bind_eq_bind, Option.bind_some,
    skipBlanks_cons (show isBlank ':' = false from rfl), h, hclose]

theorem members?_next {fuel : Nat} {k : String} {cs cs' : List Char} {d : Document}
    {ms : List (Option String × Document)} {rest : List Char}
    (h : value? fuel cs = some (d, ',' :: cs')) (hnext : members? fuel cs' = some (ms, rest)) :
  members? (fuel + 1) (quoted k ++ ':' :: cs) = some ((some k, d) :: ms, rest)
  := by
  have hread := quoted?_escaped k (':' :: cs)
  rw [quoted, List.append_assoc, List.cons_append, List.cons_append, List.nil_append, members?,
    skipBlanks_cons rfl]
  simp only [hread, Option.bind_eq_bind, Option.bind_some,
    skipBlanks_cons (show isBlank ':' = false from rfl),
    skipBlanks_cons (show isBlank ',' = false from rfl), h, hnext]

/-! ### Reading whole values -/

mutual

/-- A value is read up to its end. -/
theorem value?_compactChars : ∀ (a : Json) (fuel : Nat) {rest : List Char},
    2 * (compactChars a).length ≤ fuel → Follows rest →
  value? fuel (compactChars a ++ rest) = some (reread a, rest)
  | .null, _ + 1, _, _, _ => rfl
  | .bool true, _ + 1, _, _, _ => rfl
  | .bool false, _ + 1, _, _, _ => rfl
  | .number n, fuel + 1, _, _, hrest => value?_number fuel n hrest
  | .string s, fuel + 1, rest, _, _ => value?_string fuel s rest
  | .array [], _ + 1, _, _, _ => rfl
  | .array (a :: as), fuel + 1, rest, hfuel, _ => by
    have hitems := items?_compactItems (a :: as) fuel rest (by simp)
      (by simpa [compactItems, compactChars] using hfuel)
    rw [compactItems, List.append_assoc, List.cons_append, List.tail_cons] at hitems
    rw [compactChars, List.append_assoc, List.cons_append]
    exact value?_array hitems
  | .object [], _ + 1, _, _, _ => rfl
  | .object ((k, a) :: ms), fuel + 1, rest, hfuel, _ => by
    have hmembers := members?_compactMembers ((k, a) :: ms) fuel rest (by simp)
      (by simpa [compactMembers, compactChars] using hfuel)
    rw [compactMembers] at hmembers
    rw [compactChars]
    exact value?_object hmembers
  | a, 0, _, hfuel, _ => by
    have hlength := length_compactChars_pos a
    omega

/-- Items are read up to the closing bracket, after the comma that goes before them. -/
theorem items?_compactItems : ∀ (items : List Json) (fuel : Nat) (rest : List Char),
    items ≠ [] → 2 * (compactItems items).length ≤ fuel + 1 →
  items? fuel (compactItems items ++ rest).tail = some (rereadItems items, rest)
  | [], _, _, hne, _ => absurd rfl hne
  | [a], fuel + 1, rest, _, hfuel => by
    rw [compactItems, compactItems, List.length_append, List.length_cons] at hfuel
    rw [compactItems, compactItems, List.append_assoc, List.cons_append, List.tail_cons]
    apply items?_last
    · exact value?_compactChars a fuel (by omega) (follows_compactItems_append [] rest)
    · rfl
  | a :: b :: bs, fuel + 1, rest, _, hfuel => by
    rw [compactItems, List.length_append, List.length_cons] at hfuel
    have hnext := items?_compactItems (b :: bs) fuel rest (by simp) (by omega)
    rw [compactItems, List.append_assoc, List.cons_append, List.tail_cons]
    apply items?_next _ hnext
    exact value?_compactChars a fuel (by omega) (follows_compactItems_append (b :: bs) rest)
  | a :: as, 0, _, _, hfuel => by
    have hlength := length_compactChars_pos a
    rw [compactItems, List.length_append, List.length_cons] at hfuel
    omega

/-- Members are read up to the closing brace, after the comma that goes before them. -/
theorem members?_compactMembers : ∀ (members : List (String × Json)) (fuel : Nat)
    (rest : List Char), members ≠ [] → 2 * (compactMembers members).length ≤ fuel + 1 →
  members? fuel (compactMembers members ++ rest).tail = some (rereadMembers members, rest)
  | [], _, _, hne, _ => absurd rfl hne
  | [(k, a)], fuel + 1, rest, _, hfuel => by
    rw [compactMembers, compactMembers] at hfuel
    simp only [List.length_append, List.length_cons] at hfuel
    rw [compactMembers, compactMembers, List.append_assoc, List.append_assoc, List.cons_append,
      List.tail_cons, List.cons_append]
    apply members?_last
    · exact value?_compactChars a fuel (by omega) (follows_compactMembers_append [] rest)
    · rfl
  | (k, a) :: m :: ms, fuel + 1, rest, _, hfuel => by
    rw [compactMembers] at hfuel
    simp only [List.length_append, List.length_cons] at hfuel
    have hnext := members?_compactMembers (m :: ms) fuel rest (by simp) (by omega)
    rw [compactMembers, List.append_assoc, List.append_assoc, List.cons_append, List.tail_cons,
      List.cons_append]
    apply members?_next _ hnext
    exact value?_compactChars a fuel (by omega) (follows_compactMembers_append (m :: ms) rest)
  | (k, a) :: ms, 0, _, _, hfuel => by
    rw [compactMembers] at hfuel
    simp only [List.length_append, List.length_cons] at hfuel
    omega

end

/-- The text of a value is read as its document, but for its numbers. -/
theorem parse?_compact (a : Json) :
  parse? a.compact = some (reread a)
  := by
  have hread := value?_compactChars a (2 * (compactChars a).length + 2) (by omega) follows_nil
  rw [List.append_nil] at hread
  rw [parse?, compact, String.toList_ofList, parseChars?, hread]
  rfl

end Document
end Federation.Json
