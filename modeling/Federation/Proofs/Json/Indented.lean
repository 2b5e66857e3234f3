import Federation.Json.Printer
import Federation.Proofs.Json.Document
import Federation.Proofs.Text.Utf8

/-!
# Indented texts are read back

The text of a value with one item a line differs from the one without blanks only by
blanks between lexemes, which the reader skips: it is read as the same document
(`parse?_pretty`), and its bytes are read as the text is (`parseBytes?_encode`).
-/

namespace Federation.Json.Document

open Numeral

/-! ### Blanks -/

/-- A new line and the indentation after it are skipped. -/
theorem skipBlanks_newLine (level : Nat) (cs : List Char) :
  skipBlanks (newLine level ++ cs) = skipBlanks cs
  := by
  apply List.dropWhile_append_of_pos
  intro c hc
  rcases List.mem_cons.mp hc with rfl | hc
  · rfl
  · rw [List.eq_of_mem_replicate hc]
    rfl

theorem value?_newLine (fuel level : Nat) (cs : List Char) :
  value? fuel (newLine level ++ cs) = value? fuel cs
  := by rw [← value?_skipBlanks, skipBlanks_newLine, value?_skipBlanks]

theorem members?_newLine (fuel level : Nat) (cs : List Char) :
  members? fuel (newLine level ++ cs) = members? fuel cs
  := by rw [← members?_skipBlanks, skipBlanks_newLine, members?_skipBlanks]

/-- The space in front of the value of a member is skipped. -/
theorem value?_space (fuel : Nat) (cs : List Char) :
  value? fuel (' ' :: cs) = value? fuel cs
  := by
  rw [← value?_skipBlanks fuel (' ' :: cs), ← value?_skipBlanks fuel cs]
  rfl

/-- The closing bracket stands on a line of its own. -/
theorem skipBlanks_newLine_close {c : Char} (h : isBlank c = false) (level : Nat)
    (rest : List Char) :
  skipBlanks (newLine level ++ c :: rest) = c :: rest
  := by rw [skipBlanks_newLine, skipBlanks_cons h]

theorem follows_newLine (level : Nat) (cs : List Char) :
  Follows (newLine level ++ cs)
  := follows_cons (by decide) _

/-! ### Reading whole values -/

theorem length_prettyChars_pos (level : Nat) (a : Json) :
  0 < (prettyChars level a).length
  := by
  match a with
  | .array (a :: as) => simp [prettyChars]
  | .object ((k, a) :: as) => simp [prettyChars]
  | .null => apply length_compactChars_pos
  | .bool b => apply length_compactChars_pos
  | .number n => apply length_compactChars_pos
  | .string s => apply length_compactChars_pos
  | .array [] => apply length_compactChars_pos
  | .object [] => apply length_compactChars_pos

mutual

/-- A value is read up to its end. -/
theorem value?_prettyChars : ∀ (level : Nat) (a : Json) (fuel : Nat) {rest : List Char},
    2 * (prettyChars level a).length ≤ fuel → Follows rest →
  value? fuel (prettyChars level a ++ rest) = some (reread a, rest)
  | _, .null, fuel, _, hfuel, hrest => value?_compactChars .null fuel hfuel hrest
  | _, .bool b, fuel, _, hfuel, hrest => value?_compactChars (.bool b) fuel hfuel hrest
  | _, .number n, fuel, _, hfuel, hrest => value?_compactChars (.number n) fuel hfuel hrest
  | _, .string s, fuel, _, hfuel, hrest => value?_compactChars (.string s) fuel hfuel hrest
  | _, .array [], fuel, _, hfuel, hrest => value?_compactChars (.array []) fuel hfuel hrest
  | _, .object [], fuel, _, hfuel, hrest => value?_compactChars (.object []) fuel hfuel hrest
  | level, .array (a :: as), fuel + 1, rest, hfuel, _ => by
    have hitems := items?_prettyItems level (a :: as) fuel rest (by simp)
      (by simpa [prettyItems, prettyChars] using hfuel)
    exact value?_array hitems
  | level, .object ((k, a) :: ms), fuel + 1, rest, hfuel, _ => by
    have hmembers := members?_prettyMembers level ((k, a) :: ms) fuel rest (by simp)
      (by simpa [prettyMembers, prettyChars] using hfuel)
    exact value?_object hmembers
  | level, .array (a :: as), 0, _, hfuel, _ => by
    have hlength := length_prettyChars_pos level (.array (a :: as))
    omega
  | level, .object ((k, a) :: ms), 0, _, hfuel, _ => by
    have hlength := length_prettyChars_pos level (.object ((k, a) :: ms))
    omega

/-- Items are read up to the closing bracket, after the comma that goes before them. -/
theorem items?_prettyItems : ∀ (level : Nat) (items : List Json) (fuel : Nat) (rest : List Char),
    items ≠ [] → 2 * (prettyItems level items).length ≤ fuel + 1 →
  items? fuel (prettyItems level items ++ rest).tail = some (rereadItems items, rest)
  | _, [], _, _, hne, _ => absurd rfl hne
  | level, [a], fuel + 1, rest, _, hfuel => by
    rw [prettyItems] at hfuel
    simp only [List.length_append, List.length_cons] at hfuel
    rw [prettyItems]
    simp only [List.append_assoc, List.cons_append, List.tail_cons]
    apply items?_last
    · rw [value?_newLine]
      apply value?_prettyChars (level + 1) a fuel (by omega)
      rw [prettyItems, List.append_assoc]
      apply follows_newLine
    · rw [prettyItems, List.append_assoc]
      apply skipBlanks_newLine_close rfl
  | level, a :: b :: bs, fuel + 1, rest, _, hfuel => by
    rw [prettyItems] at hfuel
    simp only [List.length_append, List.length_cons] at hfuel
    have hnext := items?_prettyItems level (b :: bs) fuel rest (by simp) (by omega)
    rw [prettyItems]
    simp only [List.append_assoc, List.cons_append, List.tail_cons]
    apply items?_next _ hnext
    rw [value?_newLine]
    apply value?_prettyChars (level + 1) a fuel (by omega)
    exact follows_cons (by decide) _
  | level, a :: as, 0, _, _, hfuel => by
    rw [prettyItems] at hfuel
    simp only [List.length_append, List.length_cons] at hfuel
    omega

/-- Members are read up to the closing brace, after the comma that goes before them. -/
theorem members?_prettyMembers : ∀ (level : Nat) (members : List (String × Json)) (fuel : Nat)
    (rest : List Char), members ≠ [] → 2 * (prettyMembers level members).length ≤ fuel + 1 →
  members? fuel (prettyMembers level members ++ rest).tail = some (rereadMembers members, rest)
  | _, [], _, _, hne, _ => absurd rfl hne
  | level, [(k, a)], fuel + 1, rest, _, hfuel => by
    rw [prettyMembers] at hfuel
    simp only [List.length_append, List.length_cons] at hfuel
    rw [prettyMembers]
    simp only [List.append_assoc, List.cons_append, List.tail_cons]
    rw [members?_newLine]
    apply members?_last
    · rw [value?_space]
      apply value?_prettyChars (level + 1) a fuel (by omega)
      rw [prettyMembers, List.append_assoc]
      apply follows_newLine
    · rw [prettyMembers, List.append_assoc]
      apply skipBlanks_newLine_close rfl
  | level, (k, a) :: m :: ms, fuel + 1, rest, _, hfuel => by
    rw [prettyMembers] at hfuel
    simp only [List.length_append, List.length_cons] at hfuel
    have hnext := members?_prettyMembers level (m :: ms) fuel rest (by simp) (by omega)
    rw [prettyMembers]
    simp only [List.append_assoc, List.cons_append, List.tail_cons]
    rw [members?_newLine]
    apply members?_next _ hnext
    rw [value?_space]
    apply value?_prettyChars (level + 1) a fuel (by omega)
    exact follows_cons (by decide) _
  | level, (k, a) :: ms, 0, _, _, hfuel => by
    rw [prettyMembers] at hfuel
    simp only [List.length_append, List.length_cons] at hfuel
    omega

end

/-- The indented text of a value is read as its document, but for its numbers. -/
theorem parse?_pretty (a : Json) :
  parse? a.pretty = some (reread a)
  := by
  have hread := value?_prettyChars 0 a (2 * (prettyChars 0 a).length + 2) (by omega) follows_nil
  rw [List.append_nil] at hread
  rw [parse?, pretty, String.toList_ofList, parseChars?, hread]
  rfl

/-- Bytes that are a text are read as the text is. -/
theorem parseBytes?_of_decode? {bytes : Bytes} {text : String}
    (h : Utf8.decode? bytes = some text) :
  parseBytes? bytes = parse? text
  := by
  have hchars : (text.toList.map some).flatMap charOrSurrogate = text.toList := by
    rw [List.flatMap_map]
    apply List.flatMap_singleton'
  rw [parseBytes?, Utf8.scan_of_decode? h, hchars, parse?]

/-- The bytes of a text are read as the text is. -/
theorem parseBytes?_encode (text : String) :
  parseBytes? (Utf8.encode text) = parse? text
  := parseBytes?_of_decode? (Utf8.decode?_encode text)

end Federation.Json.Document
