import Federation.Json.Document
import Federation.Proofs.Text.Digits

/-!
# Numerals are read back

`Numeral.chars` writes a numeral, an exponent with its sign.  A numeral with digits
where they are needed, and none too many in front, is read as what it is when no part
of a numeral follows (`numeral?_chars_append`).
-/

namespace Federation.Json

open Digits

/-! ### Writing numerals -/

namespace Numeral

/-- The text of a fraction part. -/
def fractionChars : Option (List Nat) → List Char
  | none => []
  | some ds => '.' :: ds.map toChar

/-- The text of an exponent part. -/
def exponentChars : Option (Bool × List Nat) → List Char
  | none => []
  | some (minus, ds) => 'e' :: (if minus then '-' else '+') :: ds.map toChar

/-- The text of a numeral without its sign. -/
def bodyChars (s : Numeral) : List Char :=
  s.whole.map toChar ++ (fractionChars s.fraction ++ exponentChars s.exponent)

/-- The text of a numeral. -/
def chars (s : Numeral) : List Char :=
  if s.negative then '-' :: s.bodyChars else s.bodyChars

/-- One or more digits. -/
def AreDigits (ds : List Nat) : Prop := ds ≠ [] ∧ ∀ d ∈ ds, d < 10

/-- A numeral that can be written: each part has digits, and a zero in front is the only
digit before the point. -/
structure WellFormed (s : Numeral) : Prop where
  whole : AreDigits s.whole
  zero : ∀ ds, s.whole = 0 :: ds → ds = []
  fraction : ∀ ds ∈ s.fraction, AreDigits ds
  exponent : ∀ e ∈ s.exponent, AreDigits e.2

/-- What may follow a numeral: nothing that a numeral could go on with. -/
def Follows (cs : List Char) : Prop :=
  ∀ c ∈ cs.head?, value? c = none ∧ c ≠ '.' ∧ c ≠ 'e' ∧ c ≠ 'E'

theorem follows_nil :
  Follows []
  := by
  intro c h
  cases h

theorem Follows.noDigit {cs : List Char} (h : Follows cs) :
  NoDigit cs
  := by
  intro c hc
  apply (h c hc).1

end Numeral

/-! ### Reading numerals -/

namespace Document

open Numeral

theorem exponentDigits?_append {ds : List Nat} (hds : AreDigits ds) (minus : Bool)
    {rest : List Char} (hrest : NoDigit rest) :
  exponentDigits? minus (ds.map toChar ++ rest) = some (some (minus, ds), rest)
  := by
  rw [exponentDigits?, span_map_toChar_append hds.2 hrest]
  cases ds with
  | nil => exact absurd rfl hds.1
  | cons d ds => rfl

theorem exponent?_append {e : Option (Bool × List Nat)} (he : ∀ p ∈ e, AreDigits p.2)
    {rest : List Char} (hrest : Follows rest) :
  exponent? (exponentChars e ++ rest) = some (e, rest)
  := by
  cases e with
  | none =>
    cases rest with
    | nil => rfl
    | cons c rest =>
      obtain ⟨-, -, hlower, hupper⟩ := hrest c rfl
      simp [exponentChars, exponent?, hlower, hupper]
  | some p =>
    obtain ⟨minus, ds⟩ := p
    have hds := he _ rfl
    cases minus with
    | true => exact exponentDigits?_append hds true hrest.noDigit
    | false => exact exponentDigits?_append hds false hrest.noDigit

/-- What may follow a whole part or a fraction. -/
theorem noDigit_exponentChars_append (e : Option (Bool × List Nat)) {rest : List Char}
    (hrest : Follows rest) :
  NoDigit (exponentChars e ++ rest)
  := by
  cases e with
  | none => apply hrest.noDigit
  | some p => apply noDigit_cons rfl

theorem fraction?_append {f : Option (List Nat)} (hf : ∀ ds ∈ f, AreDigits ds)
    (e : Option (Bool × List Nat)) {rest : List Char} (hrest : Follows rest) :
  fraction? (fractionChars f ++ (exponentChars e ++ rest)) = some (f, exponentChars e ++ rest)
  := by
  cases f with
  | none =>
    cases e with
    | none =>
      cases rest with
      | nil => rfl
      | cons c rest =>
        obtain ⟨-, hpoint, -⟩ := hrest c rfl
        simp only [fractionChars, exponentChars, List.nil_append]
        rw [fraction?]
        intro rest' h
        exact hpoint (List.cons.inj h).1
    | some p => rfl
  | some ds =>
    obtain ⟨hne, hlt⟩ := hf ds rfl
    rw [fractionChars, List.cons_append, fraction?,
      span_map_toChar_append hlt (noDigit_exponentChars_append e hrest)]
    cases ds with
    | nil => exact absurd rfl hne
    | cons d ds => rfl

theorem noDigit_fractionChars_append (f : Option (List Nat)) (e : Option (Bool × List Nat))
    {rest : List Char} (hrest : Follows rest) :
  NoDigit (fractionChars f ++ (exponentChars e ++ rest))
  := by
  cases f with
  | none => apply noDigit_exponentChars_append e hrest
  | some ds => apply noDigit_cons rfl

/-- The numeral that stands after a sign or none. -/
def afterSign? (minus : Bool) (cs : List Char) : Option (Numeral × List Char) := do
  let (whole, rest) ← match span cs with
    | ([], _) => none
    | (0 :: _ :: _, _) => none
    | (ds, rest) => some (ds, rest)
  let (fraction, rest) ← fraction? rest
  let (exponent, rest) ← exponent? rest
  some (⟨minus, whole, fraction, exponent⟩, rest)

theorem numeral?_minus (cs : List Char) :
  numeral? ('-' :: cs) = afterSign? true cs
  := rfl

theorem numeral?_of_ne_minus {c : Char} (h : c ≠ '-') (cs : List Char) :
  numeral? (c :: cs) = afterSign? false (c :: cs)
  := by
  simp only [numeral?, List.cons.injEq, h, false_and, imp_false, not_false_eq_true, implies_true]
  rfl

theorem afterSign?_append {s : Numeral} (hs : s.WellFormed) {rest : List Char}
    (hrest : Follows rest) :
  afterSign? s.negative (s.bodyChars ++ rest) = some (s, rest)
  := by
  have hspan : span (s.bodyChars ++ rest)
      = (s.whole, fractionChars s.fraction ++ (exponentChars s.exponent ++ rest)) := by
    rw [bodyChars, List.append_assoc, List.append_assoc]
    apply span_map_toChar_append hs.whole.2
    apply noDigit_fractionChars_append _ _ hrest
  have hfraction := fraction?_append hs.fraction s.exponent hrest
  have hexponent := exponent?_append hs.exponent hrest
  rw [afterSign?, hspan]
  obtain ⟨negative, whole, fraction, exponent⟩ := s
  simp only at hfraction hexponent ⊢
  rcases whole with - | ⟨- | d, ds⟩
  · exact absurd rfl hs.whole.1
  · cases hs.zero ds rfl
    simp only [Option.bind_eq_bind, Option.bind_some, hfraction, hexponent]
  · simp only [Option.bind_eq_bind, Option.bind_some, hfraction, hexponent]

/-- A numeral is read up to its end, as what it is. -/
theorem numeral?_chars_append {s : Numeral} (hs : s.WellFormed) {rest : List Char}
    (hrest : Follows rest) :
  numeral? (s.chars ++ rest) = some (s, rest)
  := by
  rw [← afterSign?_append hs hrest, chars]
  cases hnegative : s.negative with
  | true => exact numeral?_minus _
  | false =>
    obtain ⟨d, ds, hwhole⟩ := List.exists_cons_of_ne_nil hs.whole.1
    have hd : d < 10 := hs.whole.2 d (by simp [hwhole])
    have hbody : s.bodyChars ++ rest = toChar d :: (ds.map toChar
        ++ (fractionChars s.fraction ++ exponentChars s.exponent) ++ rest) := by
      rw [bodyChars, hwhole]
      rfl
    rw [if_neg (by simp), hbody]
    apply numeral?_of_ne_minus (toChar_ne hd rfl)

end Document
end Federation.Json
