import Federation.Proofs.Decimal
import Federation.Proofs.Json.Numeral
import Mathlib.Data.List.Induction

/-!
# The numerals that numbers are written as

A number is written as the numeral `Number.numeral`, which says what it is: a double is
written with a fraction or an exponent, an integer with neither, and the numeral of a
double has the value of its shortest decimal (`value_decimalNumeral`).  So no two numbers
have the same text, also when something else follows (`Number.chars_append_inj`).
-/

namespace Federation.Json

open Digits

/-! ### Values of numerals -/

namespace Numeral

/-- The power of ten that an exponent part stands for. -/
def exponentValue : Option (Bool × List Nat) → Int
  | none => 0
  | some (minus, ds) => if minus then -(ofDigits ds : Int) else ofDigits ds

/-- The digits of an integer and its sign stand for it. -/
theorem exponentValue_sign (k : Int) :
  exponentValue (some (decide (k < 0), values k.natAbs)) = k
  := by
  rw [exponentValue, ofDigits_values]
  by_cases hk : k < 0
  · simp only [hk, decide_true, if_true]
    omega
  · simp only [hk, decide_false, Bool.false_eq_true, if_false]
    omega

/-- The absolute value of a numeral. -/
def value (s : Numeral) : ℚ :=
  ofDigits (s.whole ++ s.fraction.getD [])
    * 10 ^ (exponentValue s.exponent - (s.fraction.getD []).length)

end Numeral

namespace Number

open Numeral

/-! ### Digits without the zeros at their end -/

/-- Digits without the zeros at their end. -/
def stripped (ds : List Nat) : List Nat := (ds.reverse.dropWhile (· = 0)).reverse

theorem stripped_concat (ds : List Nat) (d : Nat) :
  stripped (ds ++ [d]) = if d = 0 then stripped ds else ds ++ [d]
  := by
  rw [stripped, List.reverse_concat, List.dropWhile_cons]
  by_cases h : d = 0 <;> simp [h, stripped]

theorem exists_eq_stripped_append (ds : List Nat) :
  ∃ z, ds = stripped ds ++ List.replicate z 0
  := by
  induction ds using List.reverseRecOn with
  | nil =>
    use 0
    rfl
  | append_singleton ds d ih =>
    rw [stripped_concat]
    by_cases hd : d = 0
    · obtain ⟨z, hz⟩ := ih
      use z + 1
      rw [if_pos hd, List.replicate_succ', ← List.append_assoc, ← hz, hd]
    · use 0
      rw [if_neg hd, List.replicate_zero, List.append_nil]

theorem stripZeros_map_toChar {ds : List Nat} (h : ∀ d ∈ ds, d < 10) :
  stripZeros (ds.map toChar) = (stripped ds).map toChar
  := by
  induction ds using List.reverseRecOn with
  | nil => rfl
  | append_singleton ds d ih =>
    have hlt : d < 10 := h d (by simp)
    have hzero : toChar d = '0' ↔ d = 0 := by
      interval_cases d <;> decide
    have ih' := ih fun e he => h e (List.mem_append_left _ he)
    rw [stripZeros] at ih'
    rw [stripped_concat, stripZeros, List.map_append, List.map_singleton, List.reverse_concat,
      List.dropWhile_cons]
    by_cases hd : d = 0
    · rw [if_pos hd, if_pos (by simpa using hzero.mpr hd), ih']
    · rw [if_neg hd, if_neg (by simpa using fun hc => hd (hzero.mp hc))]
      simp

/-- Digits that do not begin with zero do not when zeros at their end are left out. -/
theorem head_stripped_ne_zero {ds : List Nat} (hne : ds ≠ []) (hhead : ds.head? ≠ some 0) :
  ∃ d es, stripped ds = d :: es ∧ d ≠ 0
  := by
  obtain ⟨z, hz⟩ := exists_eq_stripped_append ds
  cases hstripped : stripped ds with
  | nil =>
    rw [hstripped, List.nil_append] at hz
    cases z with
    | zero => exact absurd hz hne
    | succ z =>
      rw [hz] at hhead
      exact absurd rfl hhead
  | cons d es =>
    use d, es, rfl
    rintro rfl
    rw [hz, hstripped] at hhead
    exact hhead rfl

/-! ### Numerals of decimals -/

/-- The numeral of a decimal: positional, or with one digit before the point and an
exponent. -/
def decimalNumeral (negative : Bool) (d : Decimal) : Numeral :=
  let all := values d.digits
  let ds := stripped all
  let k : Int := d.exponent + (all.length - 1 : Nat)
  if positional k then
    match k with
    | .ofNat n =>
      let whole := ds.take (n + 1)
      let fraction := ds.drop (n + 1)
      ⟨negative, whole ++ List.replicate (n + 1 - whole.length) 0,
        some (if fraction.isEmpty then [0] else fraction), none⟩
    | .negSucc n => ⟨negative, [0], some (List.replicate n 0 ++ ds), none⟩
  else
    ⟨negative, ds.take 1, if ds.tail.isEmpty then none else some ds.tail,
      some (k < 0, values k.natAbs)⟩

theorem bodyChars_decimalNumeral (negative : Bool) (d : Decimal) :
  (decimalNumeral negative d).bodyChars = decimalChars d
  := by
  have hstrip := stripZeros_map_toChar fun e (he : e ∈ values d.digits) => lt_of_mem_values he
  rw [decimalChars, decimalNumeral, numeral_eq_map_toChar, List.length_map, hstrip]
  generalize stripped (values d.digits) = ds
  generalize d.exponent + ((values d.digits).length - 1 : Nat) = k
  simp only
  split
  · cases k with
    | ofNat n =>
      simp only [bodyChars, fractionChars, exponentChars, fractionOr0, List.isEmpty_iff,
        List.map_append, List.map_take, List.map_replicate, List.append_assoc,
        List.length_map, List.length_take, List.append_nil]
      split <;> simp_all [toChar]
    | negSucc n => simp [bodyChars, fractionChars, exponentChars, toChar]
  · have hexponent : (if 0 ≤ k then '+' :: integerNumeral k else integerNumeral k)
        = (if k < 0 then '-' else '+') :: (values k.natAbs).map toChar := by
      cases k with
      | ofNat n => simp [integerNumeral, numeral_eq_map_toChar]
      | negSucc n => simp [integerNumeral, numeral_eq_map_toChar]
    rw [hexponent]
    cases ds with
    | nil => simp [bodyChars, fractionChars, exponentChars]
    | cons e es => cases es <;> simp [bodyChars, fractionChars, exponentChars]

/-- What the digits of a decimal write, the first of them at the power of ten `k`. -/
theorem value_eq_stripped {d : Decimal} {k : Int}
    (hk : k = d.exponent + ((values d.digits).length - 1 : Nat)) :
  d.value = ofDigits (stripped (values d.digits))
    * 10 ^ (k + 1 - (stripped (values d.digits)).length)
  := by
  obtain ⟨z, hz⟩ := exists_eq_stripped_append (values d.digits)
  have hlength := congrArg List.length hz
  have hpos := List.length_pos_iff.mpr (values_ne_nil d.digits)
  rw [List.length_append, List.length_replicate] at hlength
  have hdigits : d.digits = ofDigits (stripped (values d.digits)) * 10 ^ z := by
    have hvalues := ofDigits_values d.digits
    rw [hz, ofDigits_append, ofDigits_replicate_zero, List.length_replicate] at hvalues
    exact hvalues.symm
  have hexponent : k + 1 - (stripped (values d.digits)).length = z + d.exponent := by omega
  rw [hexponent, zpow_add₀ (by norm_num), zpow_natCast, ← mul_assoc, Decimal.value]
  congr 1
  exact_mod_cast hdigits

theorem ofDigits_append_zeros (ds : List Nat) (z : Nat) :
  ofDigits (ds ++ List.replicate z 0) = ofDigits ds * 10 ^ z
  := by
  rw [ofDigits_append, ofDigits_replicate_zero, List.length_replicate, Nat.add_zero]

/-- The numeral of a decimal has its value. -/
theorem value_decimalNumeral (negative : Bool) {d : Decimal} (hd : d.digits ≠ 0) :
  (decimalNumeral negative d).value = d.value
  := by
  obtain ⟨k, hk⟩ : ∃ k : Int, k = d.exponent + ((values d.digits).length - 1 : Nat) := ⟨_, rfl⟩
  obtain ⟨e, es, hstripped, -⟩ :=
    head_stripped_ne_zero (values_ne_nil d.digits) (head_values_ne_zero hd)
  rw [value_eq_stripped hk, decimalNumeral, ← hk, hstripped]
  have hlength : 0 < (e :: es).length := Nat.succ_pos _
  generalize e :: es = ds at hlength
  simp only
  split
  · cases k with
    | ofNat n =>
      simp only [Numeral.value, exponentValue, Option.getD_some]
      rcases Nat.lt_or_ge (n + 1) ds.length with hlt | hge
      · have hne : (ds.drop (n + 1)).isEmpty = false := by simpa using hlt
        rw [hne, List.length_take_of_le hlt.le, Nat.sub_self, List.replicate_zero, List.append_nil,
          if_neg (by simp), List.take_append_drop, List.length_drop]
        congr 2
        simp only [Int.ofNat_eq_natCast]
        omega
      · have hempty : ds.drop (n + 1) = [] := by simpa using hge
        rw [hempty, List.take_of_length_le hge, List.isEmpty_nil, if_pos rfl, List.append_assoc,
          ← List.replicate_succ', ofDigits_append_zeros, List.length_singleton]
        push_cast
        rw [mul_assoc, ← zpow_natCast, ← zpow_add₀ (by norm_num)]
        congr 2
        simp only [Int.ofNat_eq_natCast]
        omega
    | negSucc n =>
      simp only [Numeral.value, exponentValue, Option.getD_some, List.length_append,
        List.length_replicate]
      rw [← List.append_assoc, List.singleton_append, ← List.replicate_succ, ofDigits_append,
        ofDigits_replicate_zero, Nat.zero_mul, Nat.zero_add]
      congr 2
      omega
  · have hfraction : (if ds.tail.isEmpty then none else some ds.tail).getD [] = ds.tail := by
      cases ds.tail <;> rfl
    simp only [Numeral.value, hfraction, exponentValue_sign, List.length_tail]
    rw [← List.drop_one, List.take_append_drop]
    congr 2
    omega

theorem wellFormed_decimalNumeral (negative : Bool) {d : Decimal} (hd : d.digits ≠ 0) :
  (decimalNumeral negative d).WellFormed
  := by
  obtain ⟨e, es, hstripped, hne⟩ :=
    head_stripped_ne_zero (values_ne_nil d.digits) (head_values_ne_zero hd)
  have hlt : ∀ f ∈ e :: es, f < 10 := by
    intro f hf
    obtain ⟨z, hz⟩ := exists_eq_stripped_append (values d.digits)
    apply lt_of_mem_values
    rw [hz, hstripped]
    apply List.mem_append_left _ hf
  have hexponent : ∀ k : Int, AreDigits (values k.natAbs) := fun k =>
    ⟨values_ne_nil _, fun _ => lt_of_mem_values⟩
  have hone : AreDigits [e] := ⟨by simp, by simpa using hlt e List.mem_cons_self⟩
  rw [decimalNumeral, hstripped]
  simp only
  split
  · split
    · rename_i n _
      constructor
      · constructor
        · simp
        · intro f hf
          rcases List.mem_append.mp hf with hf | hf
          · apply hlt f (List.mem_of_mem_take hf)
          · rw [List.eq_of_mem_replicate hf]
            omega
      · intro ds hds
        exact absurd (List.cons.inj hds).1 hne
      · rintro _ ⟨rfl⟩
        split
        · exact ⟨by simp, by simp⟩
        · rename_i hnonempty
          refine ⟨by simpa using hnonempty, fun f hf => hlt f (List.mem_of_mem_drop hf)⟩
      · rintro _ ⟨⟩
    · constructor
      · exact ⟨by simp, by simp⟩
      · intro ds hds
        exact (List.cons.inj hds).2.symm
      · rintro _ ⟨rfl⟩
        refine ⟨by simp, fun f hf => ?_⟩
        rcases List.mem_append.mp hf with hf | hf
        · rw [List.eq_of_mem_replicate hf]
          omega
        · apply hlt f hf
      · rintro _ ⟨⟩
  · constructor
    · apply hone
    · intro ds hds
      exact absurd (List.cons.inj hds).1 hne
    · intro ds hds
      cases es with
      | nil => cases hds
      | cons f fs =>
        cases hds
        exact ⟨by simp, fun g hg => hlt g (List.mem_cons_of_mem _ hg)⟩
    · rintro _ ⟨rfl⟩
      apply hexponent

/-! ### Numerals of numbers -/

/-- The numeral that a number is written as. -/
def numeral : Number → Numeral
  | natural n => ⟨false, values n.toNat, none, none⟩
  | negative n => ⟨true, values (n.val + 1), none, none⟩
  | double x =>
    if x.magnitude.val = 0 then ⟨x.negative, [0], some [0], none⟩
    else decimalNumeral x.negative (Decimal.shortest x.magnitude)

theorem negative_decimalNumeral (negative : Bool) (d : Decimal) :
  (decimalNumeral negative d).negative = negative
  := by
  rw [decimalNumeral]
  simp only
  split
  · split <;> rfl
  · rfl

/-- The numeral of a decimal is not the one of an integer. -/
theorem not_integral_decimalNumeral (negative : Bool) (d : Decimal) :
  (decimalNumeral negative d).fraction ≠ none ∨ (decimalNumeral negative d).exponent ≠ none
  := by
  rw [decimalNumeral]
  simp only
  split
  · left
    split <;> simp
  · right
    simp

/-- A number is written as its numeral. -/
theorem chars_numeral (n : Number) :
  n.numeral.chars = n.chars
  := by
  cases n with
  | natural n =>
    simp [numeral, chars, Numeral.chars, bodyChars, fractionChars, exponentChars,
      numeral_eq_map_toChar]
  | negative n =>
    simp [numeral, chars, Numeral.chars, bodyChars, fractionChars, exponentChars,
      numeral_eq_map_toChar]
  | double x =>
    rw [numeral, chars, doubleChars]
    split
    · rfl
    · rw [Numeral.chars, negative_decimalNumeral, bodyChars_decimalNumeral]

theorem digits_shortest_ne_zero {x : Binary64} (h : x.magnitude.val ≠ 0) :
  (Decimal.shortest x.magnitude).digits ≠ 0
  := (Decimal.shortest_roundsTo h x.magnitude.isLt).1

theorem wellFormed_numeral (n : Number) :
  n.numeral.WellFormed
  := by
  have hinteger : ∀ (minus : Bool) (k : Nat), WellFormed ⟨minus, values k, none, none⟩ := by
    intro minus k
    constructor
    · exact ⟨values_ne_nil k, fun _ => lt_of_mem_values⟩
    · intro ds hds
      by_cases hk : k = 0
      · subst hk
        cases hds
        rfl
      · have hvalues : values k = 0 :: ds := hds
        exact absurd (by rw [hvalues]; rfl) (head_values_ne_zero hk)
    · rintro _ ⟨⟩
    · rintro _ ⟨⟩
  cases n with
  | natural n => apply hinteger
  | negative n => apply hinteger
  | double x =>
    rw [numeral]
    split
    · constructor
      · exact ⟨by simp, by simp⟩
      · intro ds hds
        exact (List.cons.inj hds).2.symm
      · rintro _ ⟨rfl⟩
        exact ⟨by simp, by simp⟩
      · rintro _ ⟨⟩
    · rename_i hmagnitude
      apply wellFormed_decimalNumeral _ (digits_shortest_ne_zero hmagnitude)

theorem value_numeral_double (x : Binary64) :
  (numeral (double x)).value
    = if x.magnitude.val = 0 then 0 else (Decimal.shortest x.magnitude).value
  := by
  rw [numeral]
  split
  · simp [Numeral.value, ofDigits]
  · rename_i hmagnitude
    apply value_decimalNumeral _ (digits_shortest_ne_zero hmagnitude)

theorem shortest_value_ne_zero {x : Binary64} (h : x.magnitude.val ≠ 0) :
  (Decimal.shortest x.magnitude).value ≠ 0
  := by
  have hdigits : ((Decimal.shortest x.magnitude).digits : ℚ) ≠ 0 := by
    exact_mod_cast digits_shortest_ne_zero h
  rw [Decimal.value]
  positivity

theorem eq_of_numeral_double {x y : Binary64} (h : numeral (double x) = numeral (double y)) :
  x = y
  := by
  have hnegative : ∀ z, (numeral (double z)).negative = z.negative := by
    intro z
    rw [numeral]
    split
    · rfl
    · apply negative_decimalNumeral
  have hsign := congrArg Numeral.negative h
  rw [hnegative, hnegative] at hsign
  have hvalue := congrArg Numeral.value h
  rw [value_numeral_double, value_numeral_double] at hvalue
  have hmagnitude : x.magnitude.val = y.magnitude.val := by
    by_cases hx : x.magnitude.val = 0
    · by_cases hy : y.magnitude.val = 0
      · rw [hx, hy]
      · rw [if_pos hx, if_neg hy] at hvalue
        exact absurd hvalue.symm (shortest_value_ne_zero hy)
    · by_cases hy : y.magnitude.val = 0
      · rw [if_neg hx, if_pos hy] at hvalue
        exact absurd hvalue (shortest_value_ne_zero hx)
      · rw [if_neg hx, if_neg hy] at hvalue
        apply Decimal.eq_of_shortest_value hx hy x.magnitude.isLt y.magnitude.isLt hvalue
  cases x
  cases y
  simp_all [Fin.ext_iff]

/-- The numeral of a double has a fraction or an exponent. -/
theorem not_integral_double (x : Binary64) :
  (numeral (double x)).fraction ≠ none ∨ (numeral (double x)).exponent ≠ none
  := by
  rw [numeral]
  split
  · left
    simp
  · apply not_integral_decimalNumeral

theorem numeral_injective {n m : Number} (h : n.numeral = m.numeral) :
  n = m
  := by
  have hdouble : ∀ x k : Number, x.numeral = k.numeral →
      k.numeral.fraction = none ∧ k.numeral.exponent = none → ∀ z, x ≠ double z := by
    rintro _ k hnumeral hintegral z rfl
    rw [← hnumeral] at hintegral
    rcases not_integral_double z with hz | hz
    · exact hz hintegral.1
    · exact hz hintegral.2
  cases n with
  | natural n =>
    cases m with
    | natural m =>
      rw [numeral, numeral, Numeral.mk.injEq] at h
      rw [UInt64.toNat_inj.mp (values_injective h.2.1)]
    | negative m => cases congrArg Numeral.negative h
    | double y => exact absurd rfl (hdouble _ _ h.symm ⟨rfl, rfl⟩ y)
  | negative n =>
    cases m with
    | natural m => cases congrArg Numeral.negative h
    | negative m =>
      rw [numeral, numeral, Numeral.mk.injEq] at h
      have hval := values_injective h.2.1
      rw [Fin.ext (Nat.succ_injective hval)]
    | double y => exact absurd rfl (hdouble _ _ h.symm ⟨rfl, rfl⟩ y)
  | double x =>
    cases m with
    | natural m => exact absurd rfl (hdouble _ _ h ⟨rfl, rfl⟩ x)
    | negative m => exact absurd rfl (hdouble _ _ h ⟨rfl, rfl⟩ x)
    | double y => rw [eq_of_numeral_double h]

/-- The texts of numbers are told apart, and from what follows them. -/
theorem chars_append_inj {n m : Number} {rest rest' : List Char} (hrest : Follows rest)
    (hrest' : Follows rest') (h : n.chars ++ rest = m.chars ++ rest') :
  n = m ∧ rest = rest'
  := by
  have hread := congrArg Document.numeral? h
  rw [← chars_numeral, ← chars_numeral, Document.numeral?_chars_append n.wellFormed_numeral hrest,
    Document.numeral?_chars_append m.wellFormed_numeral hrest', Option.some.injEq,
    Prod.mk.injEq] at hread
  exact ⟨numeral_injective hread.1, hread.2⟩

/-- No two numbers have one text: an integer is not written as a double is. -/
theorem text_injective {n m : Number} (h : n.text = m.text) :
  n = m
  := by
  have hchars : n.chars ++ [] = m.chars ++ [] := by
    rw [List.append_nil, List.append_nil]
    exact String.ofList_injective h
  exact (chars_append_inj Numeral.follows_nil Numeral.follows_nil hchars).1

end Number
end Federation.Json
