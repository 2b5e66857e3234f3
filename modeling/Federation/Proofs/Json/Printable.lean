import Federation.Proofs.Json.Compact

/-!
# Texts of values take one line

The text of a value has no control characters below U+0020 (`printable_compactChars`):
in a quoted text they are escaped, and nowhere else do they stand.
-/

namespace Federation.Json

open Numeral

/-- Characters among which there is no control character below U+0020. -/
def Printable (cs : List Char) : Prop := ∀ c ∈ cs, 32 ≤ c.toNat

@[simp]
theorem printable_nil :
  Printable []
  := by
  intro c hc
  cases hc

@[simp]
theorem printable_cons {c : Char} {cs : List Char} :
  Printable (c :: cs) ↔ 32 ≤ c.toNat ∧ Printable cs
  := List.forall_mem_cons

@[simp]
theorem printable_append {cs ds : List Char} :
  Printable (cs ++ ds) ↔ Printable cs ∧ Printable ds
  := List.forall_mem_append

/-! ### Texts -/

theorem printable_digit {n : Nat} (h : n < 16) :
  32 ≤ (Hex.digit n).toNat
  := by interval_cases n <;> decide

theorem printable_escapeChar (c : Char) :
  Printable (escapeChar c)
  := by
  rw [escapeChar]
  split
  · simp
  split
  · simp
  split
  · simp
  split
  · simp
  split
  · simp
  split
  · simp
  split
  · simp
  split
  · rename_i hc
    simp [printable_digit (show c.toNat / 16 < 16 by omega),
      printable_digit (Nat.mod_lt c.toNat (show 0 < 16 by decide))]
  · rename_i hc
    simpa using hc

theorem printable_quoted (s : String) :
  Printable (quoted s)
  := by
  have hescaped : Printable (s.toList.flatMap escapeChar) := by
    intro d hd
    obtain ⟨c, -, hd⟩ := List.mem_flatMap.mp hd
    exact printable_escapeChar c d hd
  simp [quoted, hescaped]

/-! ### Numbers -/

theorem printable_map_toChar {ds : List Nat} (h : ∀ d ∈ ds, d < 10) :
  Printable (ds.map Digits.toChar)
  := by
  have hdigit : ∀ d < 10, 32 ≤ (Digits.toChar d).toNat := by decide
  intro c hc
  obtain ⟨d, hd, rfl⟩ := List.mem_map.mp hc
  exact hdigit d (h d hd)

theorem printable_numeral {s : Numeral} (hs : s.WellFormed) :
  Printable s.chars
  := by
  have hfraction : Printable (fractionChars s.fraction) := by
    cases h : s.fraction with
    | none => simp [fractionChars]
    | some ds => simp [fractionChars, printable_map_toChar (hs.fraction ds h).2]
  have hexponent : Printable (exponentChars s.exponent) := by
    cases h : s.exponent with
    | none => simp [exponentChars]
    | some e =>
      have hsign : 32 ≤ (if e.1 then '-' else '+').toNat := by split <;> decide
      simp [exponentChars, printable_map_toChar (hs.exponent e h).2, hsign]
  have hbody : Printable s.bodyChars := by
    simp [bodyChars, printable_map_toChar hs.whole.2, hfraction, hexponent]
  rw [Numeral.chars]
  split
  · simp [hbody]
  · exact hbody

/-! ### Values -/

mutual

theorem printable_compactChars : ∀ a : Json,
  Printable (compactChars a)
  | .null => by simp [compactChars]
  | .bool true => by simp [compactChars]
  | .bool false => by simp [compactChars]
  | .number n => by
    rw [compactChars, ← n.chars_numeral]
    exact printable_numeral n.wellFormed_numeral
  | .string s => printable_quoted s
  | .array [] => by simp [compactChars]
  | .array (a :: as) => by
    simp [compactChars, printable_compactChars a, printable_compactItems as]
  | .object [] => by simp [compactChars]
  | .object ((k, a) :: ms) => by
    simp [compactChars, printable_quoted k, printable_compactChars a, printable_compactMembers ms]

theorem printable_compactItems : ∀ items : List Json,
  Printable (compactItems items)
  | [] => by simp [compactItems]
  | a :: as => by simp [compactItems, printable_compactChars a, printable_compactItems as]

theorem printable_compactMembers : ∀ members : List (String × Json),
  Printable (compactMembers members)
  | [] => by simp [compactMembers]
  | (k, a) :: ms => by
    simp [compactMembers, printable_quoted k, printable_compactChars a,
      printable_compactMembers ms]

end

end Federation.Json
