import Federation.Json.Document
import Federation.Json.Printer
import Federation.Proofs.Text.Hex

/-!
# Quoted texts are read back

A string in quotes, whatever follows, is read as the string (`quoted?_quoted`).
-/

namespace Federation.Json.Document

/-- A control character is read from its four digits. -/
theorem hexQuad?_control {n : Nat} (h : n < 32) (rest : List Char) :
  hexQuad? ('0' :: '0' :: Hex.digit (n / 16) :: Hex.digit (n % 16) :: rest) = some (n, rest)
  := by
  have hzero : Hex.value? '0' = some 0 := rfl
  have hvalue : ((0 * 16 + 0) * 16 + n / 16) * 16 + n % 16 = n := by omega
  simp only [hexQuad?, hzero, Hex.value?_digit (show n / 16 < 16 by omega),
    Hex.value?_digit (Nat.mod_lt n (by omega)), Option.bind_eq_bind, Option.bind_some, hvalue]

theorem units?_escape {c : Char} {u : CodeUnit} (hc : c ≠ 'u') (h : escaped? c = some u)
    (fuel : Nat) (rest : List Char) :
  units? (fuel + 1) ('\\' :: c :: rest)
    = (units? fuel rest).map fun (us, rest) => (u :: us, rest)
  := by
  rw [units?]
  · rw [h]
    cases units? fuel rest <;> rfl
  · intro h'
    exact hc h'

theorem units?_control {n : Nat} (h : n < 32) (fuel : Nat) (rest : List Char) :
  units? (fuel + 1)
      ('\\' :: 'u' :: '0' :: '0' :: Hex.digit (n / 16) :: Hex.digit (n % 16) :: rest)
    = (units? fuel rest).map fun (us, rest) => (n :: us, rest)
  := by
  rw [units?, hexQuad?_control h]
  simp only [Option.bind_eq_bind, Option.bind_some]
  cases units? fuel rest <;> rfl

theorem units?_plain {c : Char} (hquote : c ≠ '"') (hbackslash : c ≠ '\\')
    (hcontrol : ¬ c.toNat < 32) (fuel : Nat) (rest : List Char) :
  units? (fuel + 1) (c :: rest) = (units? fuel rest).map fun (us, rest) => (c.toNat :: us, rest)
  := by
  rw [units?]
  · rw [if_neg (by simp [hcontrol, hbackslash])]
    cases units? fuel rest <;> rfl
  · apply hquote
  · intro _ h _
    exact hbackslash h
  · intro _ _ h _
    exact hbackslash h

/-- A character of a quoted text is read as itself. -/
theorem units?_escapeChar (fuel : Nat) (c : Char) (rest : List Char) :
  units? (fuel + 1) (escapeChar c ++ rest)
    = (units? fuel rest).map fun (us, rest) => (c.toNat :: us, rest)
  := by
  rw [escapeChar]
  split
  · rename_i hc
    subst hc
    apply units?_escape (by decide) rfl
  split
  · rename_i hc
    subst hc
    apply units?_escape (by decide) rfl
  split
  · rename_i hc
    rw [hc]
    apply units?_escape (by decide) rfl
  split
  · rename_i hc
    rw [hc]
    apply units?_escape (by decide) rfl
  split
  · rename_i hc
    subst hc
    apply units?_escape (by decide) rfl
  split
  · rename_i hc
    subst hc
    apply units?_escape (by decide) rfl
  split
  · rename_i hc
    subst hc
    apply units?_escape (by decide) rfl
  split
  · rename_i hc
    apply units?_control hc
  · rename_i hquote hbackslash _ _ _ _ _ hcontrol
    apply units?_plain hquote hbackslash hcontrol

theorem units?_escaped {fuel : Nat} {cs : List Char} (h : cs.length < fuel) (rest : List Char) :
  units? fuel (cs.flatMap escapeChar ++ '"' :: rest) = some (cs.map Char.toNat, rest)
  := by
  induction cs generalizing fuel with
  | nil =>
    obtain ⟨fuel, rfl⟩ := Nat.exists_eq_succ_of_ne_zero (Nat.ne_of_gt h)
    rfl
  | cons c cs ih =>
    obtain ⟨fuel, rfl⟩ := Nat.exists_eq_succ_of_ne_zero (Nat.ne_of_gt (Nat.zero_lt_of_lt h))
    rw [List.flatMap_cons, List.append_assoc, units?_escapeChar,
      ih (Nat.lt_of_succ_lt_succ h)]
    rfl

/-- No character is a surrogate. -/
theorem ofUnits?_map_toNat (cs : List Char) :
  ofUnits? (cs.map Char.toNat) = some cs
  := by
  have hvalid : ∀ c : Char, ¬ (0xD800 ≤ c.toNat ∧ c.toNat < 0xE000) := by
    intro c h
    have hc : c.toNat < 0xD800 ∨ (0xDFFF < c.toNat ∧ c.toNat < 0x110000) := c.valid
    omega
  induction cs with
  | nil => rfl
  | cons c cs ih =>
    cases cs with
    | nil => simp [ofUnits?, hvalid c]
    | cons c' cs =>
      have hc := hvalid c
      have hhigh : ¬ (0xD800 ≤ c.toNat ∧ c.toNat < 0xDC00) := by omega
      have hlow : ¬ (0xDC00 ≤ c.toNat ∧ c.toNat < 0xE000) := by omega
      rw [List.map_cons, List.map_cons, ofUnits?, if_neg hhigh, if_neg hlow, ← List.map_cons, ih]
      simp

theorem length_le_length_escaped (cs : List Char) :
  cs.length ≤ (cs.flatMap escapeChar).length
  := by
  have hone : ∀ c, 1 ≤ (escapeChar c).length := by
    intro c
    rw [escapeChar]
    repeat' split
    all_goals simp
  induction cs with
  | nil => rfl
  | cons c cs ih =>
    have hc := hone c
    rw [List.flatMap_cons, List.length_append, List.length_cons]
    omega

/-- The text in quotes is read up to its closing quote, as what it is. -/
theorem quoted?_escaped (s : String) (rest : List Char) :
  quoted? (s.toList.flatMap escapeChar ++ '"' :: rest) = some (some s, rest)
  := by
  have hlength := length_le_length_escaped s.toList
  rw [quoted?, units?_escaped (by rw [List.length_append]; omega)]
  simp [ofUnits?_map_toNat]

/-- What stands in quotes and what follows are told apart. -/
theorem quoted_append_inj {s t : String} {rest rest' : List Char}
    (h : quoted s ++ rest = quoted t ++ rest') :
  s = t ∧ rest = rest'
  := by
  have hread := congrArg (fun cs => quoted? cs.tail) h
  simp only [quoted, List.cons_append, List.append_assoc, List.tail_cons, List.nil_append,
    quoted?_escaped] at hread
  cases hread
  exact ⟨rfl, rfl⟩

end Federation.Json.Document
