import Federation.Text.Digits
import Mathlib.Data.Nat.Digits.Lemmas
import Mathlib.Tactic.IntervalCases

/-!
# Numerals and their digits

The numeral of a number is the text of its digit values (`numeral_eq_map_toChar`), which
write the number (`ofDigits_values`) without leading zeros.  Where digits are followed
by something else, `span` gives them back (`span_map_toChar_append`).
-/

namespace Federation.Digits

/-- The digit values of a number, most significant first. -/
def values (n : Nat) : List Nat := if n = 0 then [0] else (Nat.digits 10 n).reverse

/-- What does not begin with a digit. -/
def NoDigit (cs : List Char) : Prop := ∀ c ∈ cs.head?, value? c = none

theorem noDigit_nil :
  NoDigit []
  := by
  intro c h
  cases h

theorem noDigit_cons {c : Char} (h : value? c = none) (cs : List Char) :
  NoDigit (c :: cs)
  := by
  rintro _ ⟨rfl⟩
  apply h

/-! ### Single digits -/

theorem value?_toChar {d : Nat} (h : d < 10) :
  value? (toChar d) = some d
  := by
  interval_cases d <;> rfl

/-- A digit is not a character that is none. -/
theorem toChar_ne {d : Nat} (h : d < 10) {c : Char} (hc : value? c = none) :
  toChar d ≠ c
  := by
  rintro rfl
  rw [value?_toChar h] at hc
  cases hc

/-! ### Digit values -/

theorem values_of_lt {n : Nat} (h : n < 10) :
  values n = [n]
  := by
  rw [values]
  split
  · rename_i hzero
    rw [hzero]
  · rename_i hzero
    rw [Nat.digits_of_lt 10 n hzero h]
    rfl

theorem values_of_le {n : Nat} (h : 10 ≤ n) :
  values n = values (n / 10) ++ [n % 10]
  := by
  rw [values, values, if_neg (by omega), if_neg (by omega),
    Nat.digits_def' (by omega) (by omega), List.reverse_cons]

theorem values_ne_nil (n : Nat) :
  values n ≠ []
  := by
  rcases Nat.lt_or_ge n 10 with h | h
  · simp [values_of_lt h]
  · simp [values_of_le h]

theorem lt_of_mem_values {n d : Nat} (h : d ∈ values n) :
  d < 10
  := by
  rw [values] at h
  split at h
  · cases List.mem_singleton.mp h
    omega
  · apply Nat.digits_lt_base (by omega) (List.mem_reverse.mp h)

theorem length_values_le {n k : Nat} (hk : k ≠ 0) (h : n < 10 ^ k) :
  (values n).length ≤ k
  := by
  rw [values]
  split
  · rw [List.length_singleton]
    omega
  · rw [List.length_reverse]
    apply (Nat.digits_length_le_iff (Nat.one_lt_succ_succ 8) n).mpr h

/-- A number of several digits does not begin with zero. -/
theorem head_values_ne_zero {n : Nat} (h : n ≠ 0) :
  (values n).head? ≠ some 0
  := by
  rw [values, if_neg h, List.head?_reverse]
  intro hlast
  obtain ⟨_, hzero⟩ := List.mem_getLast?_eq_getLast hlast
  apply Nat.getLast_digit_ne_zero 10 h hzero.symm

/-! ### Numbers from digits -/

theorem foldl_digits (n : Nat) (ds : List Nat) :
  ds.foldl (fun n d => 10 * n + d) n = n * 10 ^ ds.length + ofDigits ds
  := by
  rw [ofDigits]
  induction ds generalizing n with
  | nil => simp
  | cons d ds ih =>
    rw [List.foldl_cons, List.foldl_cons, ih, ih (10 * 0 + d), List.length_cons, Nat.pow_succ]
    ring

theorem ofDigits_append (ds es : List Nat) :
  ofDigits (ds ++ es) = ofDigits ds * 10 ^ es.length + ofDigits es
  := by
  rw [ofDigits, List.foldl_append, foldl_digits]
  rfl

theorem ofDigits_singleton (d : Nat) :
  ofDigits [d] = d
  := by simp [ofDigits]

theorem ofDigits_cons (d : Nat) (ds : List Nat) :
  ofDigits (d :: ds) = d * 10 ^ ds.length + ofDigits ds
  := by
  rw [← List.singleton_append, ofDigits_append, ofDigits_singleton]

theorem ofDigits_replicate_zero (k : Nat) :
  ofDigits (List.replicate k 0) = 0
  := by
  induction k with
  | zero => rfl
  | succ k ih => rw [List.replicate_succ, ofDigits_cons, ih, Nat.zero_mul]

/-- The digit values of a number write it. -/
theorem ofDigits_values (n : Nat) :
  ofDigits (values n) = n
  := by
  induction n using Nat.strong_induction_on with
  | h n ih =>
    rcases Nat.lt_or_ge n 10 with h | h
    · rw [values_of_lt h, ofDigits_singleton]
    · rw [values_of_le h, ofDigits_append, ih (n / 10) (by omega), ofDigits_singleton,
        List.length_singleton, Nat.pow_one]
      omega

theorem values_injective {n m : Nat} (h : values n = values m) :
  n = m
  := by rw [← ofDigits_values n, h, ofDigits_values]

/-! ### Numerals -/

theorem prependNumeral_eq {fuel n : Nat} (h : n < 2 ^ (fuel + 1)) (rest : List Char) :
  prependNumeral (fuel + 1) n rest = (values n).map toChar ++ rest
  := by
  induction fuel generalizing n rest with
  | zero =>
    rw [prependNumeral, if_pos (by omega), values_of_lt (by omega)]
    rfl
  | succ fuel ih =>
    rw [prependNumeral]
    split
    · rename_i hlt
      rw [values_of_lt hlt]
      rfl
    · rename_i hge
      have hdiv : n / 10 < 2 ^ (fuel + 1) := by
        rw [Nat.pow_succ] at h
        omega
      rw [ih hdiv, values_of_le (Nat.le_of_not_lt hge), List.map_append, List.append_assoc]
      rfl

/-- A numeral is the text of its digit values. -/
theorem numeral_eq_map_toChar (n : Nat) :
  numeral n = (values n).map toChar
  := by
  rw [numeral, prependNumeral_eq Nat.lt_log2_self, List.append_nil]

/-- Digits in front of something else are read as what they are. -/
theorem span_map_toChar_append {ds : List Nat} (hds : ∀ d ∈ ds, d < 10) {rest : List Char}
    (hrest : NoDigit rest) :
  span (ds.map toChar ++ rest) = (ds, rest)
  := by
  induction ds with
  | nil =>
    cases rest with
    | nil => rfl
    | cons c rest =>
      rw [List.map_nil, List.nil_append, span, hrest c rfl]
  | cons d ds ih =>
    rw [List.map_cons, List.cons_append, span, value?_toChar (hds d List.mem_cons_self)]
    simp only
    rw [ih fun e he => hds e (List.mem_cons_of_mem _ he)]

/-! ### Numerals of a fixed width -/

/-- The digit values of a number with zeros in front. -/
def paddedValues (width n : Nat) : List Nat :=
  List.replicate (width - (values n).length) 0 ++ values n

theorem padded_eq_map_toChar (width n : Nat) :
  padded width n = (paddedValues width n).map toChar
  := by
  rw [padded, paddedValues, numeral_eq_map_toChar, List.map_append, List.map_replicate,
    List.length_map]
  rfl

theorem ofDigits_paddedValues (width n : Nat) :
  ofDigits (paddedValues width n) = n
  := by
  rw [paddedValues, ofDigits_append, ofDigits_replicate_zero, Nat.zero_mul, Nat.zero_add,
    ofDigits_values]

theorem lt_of_mem_paddedValues {width n d : Nat} (h : d ∈ paddedValues width n) :
  d < 10
  := by
  rcases List.mem_append.mp h with h | h
  · rw [List.eq_of_mem_replicate h]
    omega
  · apply lt_of_mem_values h

theorem length_paddedValues {width n : Nat} (hwidth : width ≠ 0) (h : n < 10 ^ width) :
  (paddedValues width n).length = width
  := by
  have hle := length_values_le hwidth h
  rw [paddedValues, List.length_append, List.length_replicate]
  omega

end Federation.Digits
