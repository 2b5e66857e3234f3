import Federation.Proofs.Json.Number
import Federation.Proofs.Json.Quoted

/-!
# Values are told apart by their texts

The text of a value, written without blanks, determines the value and where it ends: if
two values followed by something that continues no numeral have the same characters, then
the values are the same, and so is what follows (`compactChars_append_inj`).
-/

namespace Federation.Json

open Numeral

/-! ### How values begin -/

/-- The kind of value that a character begins. -/
inductive Lead where
  | null
  | true
  | false
  | text
  | array
  | object
  /-- A digit or a sign. -/
  | number
deriving DecidableEq

/-- The kind of value that a character begins, if it begins one. -/
def leadOf (c : Char) : Option Lead :=
  if c = 'n' then some .null
  else if c = 't' then some .true
  else if c = 'f' then some .false
  else if c = '"' then some .text
  else if c = '[' then some .array
  else if c = '{' then some .object
  else if c = '-' ∨ Digits.isDigit c then some .number
  else none

/-- The kind of a value. -/
def lead : Json → Lead
  | .null => .null
  | .bool true => .true
  | .bool false => .false
  | .number _ => .number
  | .string _ => .text
  | .array _ => .array
  | .object _ => .object

/-- The values of a kind. -/
theorem shape_of_lead (a : Json) :
  match a.lead with
  | .null => a = .null
  | .true => a = .bool true
  | .false => a = .bool false
  | .number => ∃ n, a = .number n
  | .text => ∃ s, a = .string s
  | .array => ∃ items, a = .array items
  | .object => ∃ members, a = .object members
  := by
  cases a with
  | null => rfl
  | bool b => cases b <;> rfl
  | number n => exact ⟨n, rfl⟩
  | string s => exact ⟨s, rfl⟩
  | array items => exact ⟨items, rfl⟩
  | object members => exact ⟨members, rfl⟩

theorem leadOf_toChar {d : Nat} (h : d < 10) :
  leadOf (Digits.toChar d) = some .number
  := by
  interval_cases d <;> decide

theorem exists_chars_eq_cons (n : Number) :
  ∃ c cs, n.chars = c :: cs ∧ leadOf c = some .number
  := by
  obtain ⟨hne, hlt⟩ := n.wellFormed_numeral.whole
  obtain ⟨d, ds, hwhole⟩ := List.exists_cons_of_ne_nil hne
  rw [← n.chars_numeral, Numeral.chars]
  split
  · exact ⟨_, _, rfl, rfl⟩
  · rw [bodyChars, hwhole]
    exact ⟨_, _, rfl, leadOf_toChar (hlt d (by simp [hwhole]))⟩

/-- The first character of a value tells its kind. -/
theorem exists_compactChars_eq_cons (a : Json) :
  ∃ c cs, compactChars a = c :: cs ∧ leadOf c = some a.lead
  := by
  cases a with
  | null => exact ⟨_, _, rfl, rfl⟩
  | bool b => cases b <;> exact ⟨_, _, rfl, rfl⟩
  | number n => apply exists_chars_eq_cons
  | string s => exact ⟨_, _, rfl, rfl⟩
  | array items => cases items <;> exact ⟨_, _, rfl, rfl⟩
  | object members => cases members <;> exact ⟨_, _, rfl, rfl⟩

theorem lead_eq_of_append_eq {a b : Json} {rest rest' : List Char}
    (h : compactChars a ++ rest = compactChars b ++ rest') :
  a.lead = b.lead
  := by
  obtain ⟨c, cs, ha, hc⟩ := exists_compactChars_eq_cons a
  obtain ⟨d, ds, hb, hd⟩ := exists_compactChars_eq_cons b
  rw [ha, hb] at h
  rw [(List.cons.inj h).1, hd] at hc
  exact (Option.some.inj hc).symm

/-- A value does not begin with a character that begins none, such as a closing bracket. -/
theorem compactChars_append_ne {c : Char} (hc : leadOf c = none) (a : Json)
    (rest rest' : List Char) :
  compactChars a ++ rest ≠ c :: rest'
  := by
  obtain ⟨d, ds, ha, hd⟩ := exists_compactChars_eq_cons a
  intro h
  rw [ha] at h
  rw [(List.cons.inj h).1, hc] at hd
  cases hd

/-! ### What follows values -/

theorem follows_cons {c : Char} (hc : Digits.value? c = none ∧ c ≠ '.' ∧ c ≠ 'e' ∧ c ≠ 'E')
    (cs : List Char) :
  Follows (c :: cs)
  := by
  rintro _ ⟨rfl⟩
  apply hc

theorem follows_compactItems_append (items : List Json) (rest : List Char) :
  Follows (compactItems items ++ rest)
  := by cases items <;> exact follows_cons (by decide) _

theorem follows_compactMembers_append (members : List (String × Json)) (rest : List Char) :
  Follows (compactMembers members ++ rest)
  := by cases members <;> exact follows_cons (by decide) _

/-! ### Values are told apart -/

/-- The items of a list, after its bracket, are written as items that follow others. -/
theorem compactItems_eq_of_array {items items' : List Json} {rest rest' : List Char}
    (h : compactChars (.array items) ++ rest = compactChars (.array items') ++ rest') :
  compactItems items ++ rest = compactItems items' ++ rest'
  := by
  cases items with
  | nil =>
    cases items' with
    | nil => exact (List.cons.inj h).2
    | cons b bs =>
      have hb : ']' :: rest = compactChars b ++ (compactItems bs ++ rest') := by
        simpa [compactChars] using h
      exact absurd hb.symm (compactChars_append_ne rfl b _ _)
  | cons a as =>
    cases items' with
    | nil =>
      have ha : compactChars a ++ (compactItems as ++ rest) = ']' :: rest' := by
        simpa [compactChars] using h
      exact absurd ha (compactChars_append_ne rfl a _ _)
    | cons b bs =>
      simpa [compactChars, compactItems] using h

/-- The members of an object, after its brace, are written as members that follow others. -/
theorem compactMembers_eq_of_object {members members' : List (String × Json)}
    {rest rest' : List Char}
    (h : compactChars (.object members) ++ rest = compactChars (.object members') ++ rest') :
  compactMembers members ++ rest = compactMembers members' ++ rest'
  := by
  cases members with
  | nil =>
    cases members' with
    | nil => exact (List.cons.inj h).2
    | cons b bs => simp [compactChars, quoted] at h
  | cons a as =>
    cases members' with
    | nil => simp [compactChars, quoted] at h
    | cons b bs => simpa [compactChars, compactMembers] using h

mutual

/-- The text of a value tells the value and its end. -/
theorem compactChars_append_inj : ∀ (a b : Json) {rest rest' : List Char},
    Follows rest → Follows rest' → compactChars a ++ rest = compactChars b ++ rest' →
  a = b ∧ rest = rest'
  | .null, b, _, _, _, _, h => by
    have hb := shape_of_lead b
    rw [← lead_eq_of_append_eq h] at hb
    cases hb
    exact ⟨rfl, List.append_cancel_left h⟩
  | .bool true, b, _, _, _, _, h => by
    have hb := shape_of_lead b
    rw [← lead_eq_of_append_eq h] at hb
    cases hb
    exact ⟨rfl, List.append_cancel_left h⟩
  | .bool false, b, _, _, _, _, h => by
    have hb := shape_of_lead b
    rw [← lead_eq_of_append_eq h] at hb
    cases hb
    exact ⟨rfl, List.append_cancel_left h⟩
  | .number n, b, _, _, hrest, hrest', h => by
    have hb := shape_of_lead b
    rw [← lead_eq_of_append_eq h] at hb
    obtain ⟨m, rfl⟩ := hb
    obtain ⟨rfl, heq⟩ := Number.chars_append_inj hrest hrest' h
    exact ⟨rfl, heq⟩
  | .string s, b, _, _, _, _, h => by
    have hb := shape_of_lead b
    rw [← lead_eq_of_append_eq h] at hb
    obtain ⟨t, rfl⟩ := hb
    obtain ⟨rfl, heq⟩ := Document.quoted_append_inj h
    exact ⟨rfl, heq⟩
  | .array items, b, _, _, _, _, h => by
    have hb := shape_of_lead b
    rw [← lead_eq_of_append_eq h] at hb
    obtain ⟨items', rfl⟩ := hb
    obtain ⟨rfl, heq⟩ := compactItems_append_inj items items' (compactItems_eq_of_array h)
    exact ⟨rfl, heq⟩
  | .object members, b, _, _, _, _, h => by
    have hb := shape_of_lead b
    rw [← lead_eq_of_append_eq h] at hb
    obtain ⟨members', rfl⟩ := hb
    obtain ⟨rfl, heq⟩ := compactMembers_append_inj members members' (compactMembers_eq_of_object h)
    exact ⟨rfl, heq⟩

theorem compactItems_append_inj : ∀ (as bs : List Json) {rest rest' : List Char},
    compactItems as ++ rest = compactItems bs ++ rest' →
  as = bs ∧ rest = rest'
  | [], [], _, _, h => ⟨rfl, (List.cons.inj h).2⟩
  | [], _ :: _, _, _, h => by cases (List.cons.inj h).1
  | _ :: _, [], _, _, h => by cases (List.cons.inj h).1
  | a :: as, b :: bs, rest, rest', h => by
    have hvalue : compactChars a ++ (compactItems as ++ rest)
        = compactChars b ++ (compactItems bs ++ rest') := by
      simpa [compactItems] using h
    obtain ⟨rfl, htail⟩ := compactChars_append_inj a b (follows_compactItems_append as rest)
      (follows_compactItems_append bs rest') hvalue
    obtain ⟨rfl, heq⟩ := compactItems_append_inj as bs htail
    exact ⟨rfl, heq⟩

theorem compactMembers_append_inj : ∀ (as bs : List (String × Json)) {rest rest' : List Char},
    compactMembers as ++ rest = compactMembers bs ++ rest' →
  as = bs ∧ rest = rest'
  | [], [], _, _, h => ⟨rfl, (List.cons.inj h).2⟩
  | [], _ :: _, _, _, h => by cases (List.cons.inj h).1
  | _ :: _, [], _, _, h => by cases (List.cons.inj h).1
  | (k, a) :: as, (l, b) :: bs, rest, rest', h => by
    have hkey : quoted k ++ (':' :: compactChars a ++ compactMembers as ++ rest)
        = quoted l ++ (':' :: compactChars b ++ compactMembers bs ++ rest') := by
      simpa [compactMembers] using h
    obtain ⟨rfl, hvalue⟩ := Document.quoted_append_inj hkey
    have hvalue' : compactChars a ++ (compactMembers as ++ rest)
        = compactChars b ++ (compactMembers bs ++ rest') := by
      simpa using hvalue
    obtain ⟨rfl, htail⟩ := compactChars_append_inj a b (follows_compactMembers_append as rest)
      (follows_compactMembers_append bs rest') hvalue'
    obtain ⟨rfl, heq⟩ := compactMembers_append_inj as bs htail
    exact ⟨rfl, heq⟩

end

/-- No two values have the same text. -/
theorem compact_injective {a b : Json} (h : a.compact = b.compact) :
  a = b
  := by
  have hchars : compactChars a ++ [] = compactChars b ++ [] := by
    rw [compact, compact] at h
    rw [String.ofList_injective h]
  exact (compactChars_append_inj a b follows_nil follows_nil hchars).1

/-- The text of an object begins with a brace. -/
theorem exists_compact_object (members : List (String × Json)) :
  ∃ cs, (Json.object members).compact.toList = '{' :: cs
  := by
  rw [compact, String.toList_ofList]
  cases members <;> exact ⟨_, rfl⟩

end Federation.Json
