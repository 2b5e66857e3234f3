import Federation.Decimal.Shortest
import Mathlib.Algebra.Order.Field.Power
import Mathlib.Data.Rat.Cast.Order
import Mathlib.Tactic.FieldSimp
import Mathlib.Tactic.Linarith
import Mathlib.Tactic.NormNum
import Mathlib.Tactic.Positivity
import Mathlib.Tactic.Ring

/-!
# Shortest decimals tell doubles apart

The values at different positions have rounding intervals with no number in common
(`eq_of_roundsTo`): the interval of a position ends where the next one begins, and this
end belongs to one of the two only, since of two successive significands one is odd.
The search for the shortest decimal of a position that is not zero finds one in its
interval (`shortest_roundsTo`).  So the shortest decimal of a position is of no other.
-/

namespace Federation

/-! ### Powers with an integral exponent -/

theorem zpow_eq_div (b : ℚ) (k : Int) :
  b ^ k = b ^ k.toNat / b ^ (-k).toNat
  := by
  rcases Int.le_total 0 k with hk | hk
  · obtain ⟨n, rfl⟩ := Int.eq_ofNat_of_zero_le hk
    simp
  · obtain ⟨n, hn⟩ := Int.eq_ofNat_of_zero_le (show 0 ≤ -k by omega)
    obtain rfl : k = -(n : Int) := by omega
    simp

namespace Binary64

/-- The absolute value at a position. -/
def value (i : Nat) : ℚ := significand i * 2 ^ exponent i

theorem significand_mod_two (i : Nat) :
  significand i % 2 = i % 2
  := by
  rw [significand]
  split
  · rfl
  · rw [binade]
    omega

theorem significand_lt (i : Nat) :
  significand i < 2 * binade
  := by
  rw [significand]
  split <;> rw [binade] at * <;> omega

theorem quotient_spec (i : Nat) :
  0 < (quotient i).2 ∧ ((quotient i).1 : ℚ) / (quotient i).2 = value i
  := by
  rw [quotient, value, zpow_eq_div 2]
  split
  · rename_i he
    have hneg : (-exponent i).toNat = 0 := by omega
    simp [hneg, Nat.shiftLeft_eq]
  · rename_i he
    have hpos : (exponent i).toNat = 0 := by omega
    simp [hpos, Nat.shiftLeft_eq, div_eq_mul_inv]

theorem scale_le_iff {p q : Nat} (hq : 0 < q) (s : Int) :
  (scale p q s).2 ≤ (scale p q s).1 ↔ (2 : ℚ) ^ s ≤ p / q
  := by
  have hq' : (0 : ℚ) < q := by exact_mod_cast hq
  rw [le_div_iff₀ hq', zpow_eq_div 2, scale]
  split
  · rename_i hs
    have hneg : (-s).toNat = 0 := by omega
    rw [← Nat.cast_le (α := ℚ)]
    simp [hneg, Nat.shiftLeft_eq, mul_comm]
  · rename_i hs
    have hpos : s.toNat = 0 := by omega
    have hpow : (0 : ℚ) < 2 ^ (-s).toNat := by positivity
    rw [← Nat.cast_le (α := ℚ), hpos, pow_zero, one_div, inv_mul_le_iff₀ hpow]
    simp [Nat.shiftLeft_eq, mul_comm]

/-- The binary logarithm of a quotient is not too large. -/
theorem two_zpow_log2Quotient_le {p q : Nat} (hp : 0 < p) (hq : 0 < q) :
  (2 : ℚ) ^ log2Quotient p q ≤ p / q
  := by
  rw [log2Quotient]
  simp only
  split
  · rename_i h
    apply (scale_le_iff hq _).mp h
  · have hq' : (0 : ℚ) < q := by exact_mod_cast hq
    have hlow : (2 : ℚ) ^ p.log2 ≤ p := by exact_mod_cast Nat.log2_self_le (by omega)
    have hhigh : (q : ℚ) ≤ 2 ^ (q.log2 + 1) := by
      exact_mod_cast Nat.le_of_lt Nat.lt_log2_self
    rw [le_div_iff₀ hq']
    calc (2 : ℚ) ^ ((p.log2 : Int) - q.log2 - 1) * q
        ≤ 2 ^ ((p.log2 : Int) - q.log2 - 1) * 2 ^ (q.log2 + 1) := by gcongr
      _ = 2 ^ p.log2 := by
        rw [← zpow_natCast, ← zpow_add₀ two_ne_zero, ← zpow_natCast]
        congr 1
        push_cast
        ring
      _ ≤ p := hlow

/-- Two positions that follow one another have successive significands and one exponent,
or the second one begins a binade. -/
theorem parts_succ (i : Nat) :
  (significand (i + 1) = significand i + 1 ∧ exponent (i + 1) = exponent i
      ∧ ¬ (significand (i + 1) = binade ∧ 2 * binade ≤ i + 1))
    ∨ (significand (i + 1) = binade ∧ exponent (i + 1) = exponent i + 1
      ∧ significand i = 2 * binade - 1 ∧ 2 * binade ≤ i + 1)
  := by
  have hbinade : binade = 4503599627370496 := rfl
  rw [significand, significand, exponent, exponent]
  split <;> split <;> rw [hbinade] at * <;> omega

theorem log2Quotient_bounds {p q : Nat} (hp : 0 < p) (hq : 0 < q) :
  -(q.log2 : Int) - 1 ≤ log2Quotient p q ∧ (2 : ℚ) ^ log2Quotient p q ≤ p / q
  := by
  constructor
  · rw [log2Quotient]
    simp only
    split <;> omega
  · apply two_zpow_log2Quotient_le hp hq

theorem exponent_bounds {i : Nat} (h : i < infinity) :
  -1074 ≤ exponent i ∧ exponent i ≤ 971
  := by
  rw [infinity, binade] at h
  rw [exponent, binade]
  split <;> omega

theorem log2_quotient_le {i : Nat} (h : i < infinity) :
  (quotient i).2.log2 ≤ 1074
  := by
  have he := (exponent_bounds h).1
  rw [quotient]
  split
  · exact Nat.zero_le _
  · rw [Nat.one_shiftLeft, Nat.log2_two_pow]
    omega

theorem significand_pos {i : Nat} (h : i ≠ 0) :
  0 < significand i
  := by
  rw [significand, binade]
  split <;> omega

theorem value_pos {i : Nat} (h : i ≠ 0) :
  0 < value i
  := by
  have hcast : (0 : ℚ) < significand i := by exact_mod_cast significand_pos h
  rw [value]
  positivity

theorem value_lt {i : Nat} (h : i < infinity) :
  value i < 2 ^ 1024
  := by
  have hsignificand : (significand i : ℚ) < 2 ^ 53 := by
    have hlt := significand_lt i
    rw [binade] at hlt
    exact_mod_cast hlt
  rw [value]
  calc (significand i : ℚ) * 2 ^ exponent i
      < 2 ^ 53 * 2 ^ exponent i := by gcongr
    _ ≤ 2 ^ 53 * 2 ^ (971 : Int) := by
      gcongr
      · norm_num
      · apply (exponent_bounds h).2
    _ = 2 ^ 1024 := by rw [show (971 : Int) = (971 : Nat) from rfl, zpow_natCast, ← pow_add]

end Binary64

namespace Decimal

open Binary64

/-- The number that a decimal writes. -/
def value (d : Decimal) : ℚ := d.digits * 10 ^ d.exponent

/-! ### Rounding intervals -/

/-- The lower end of the rounding interval of a position. -/
def lower (i : Nat) : ℚ := (interval i).1 * 2 ^ (Binary64.exponent i - 2)

/-- The upper end of the rounding interval of a position. -/
def upper (i : Nat) : ℚ := ↑(4 * significand i + 2) * 2 ^ (Binary64.exponent i - 2)

/-- A number lies in the rounding interval of a position; the ends belong to it when the
significand is even. -/
structure RoundsTo (x : ℚ) (i : Nat) : Prop where
  lower_le : lower i ≤ x
  le_upper : x ≤ upper i
  interior : significand i % 2 = 1 → lower i < x ∧ x < upper i

/-- The interval of a position ends where the next one begins. -/
theorem upper_eq_lower_succ (i : Nat) :
  upper i = lower (i + 1)
  := by
  rw [upper, lower, interval]
  simp only
  rcases parts_succ i with ⟨hsignificand, hexponent, hinside⟩ | ⟨hfirst, hexponent, hlast, hle⟩
  · rw [if_neg hinside, hexponent, hsignificand]
    congr 2
  · rw [if_pos ⟨hfirst, hle⟩, hexponent, hfirst, hlast,
      show Binary64.exponent i + 1 - 2 = Binary64.exponent i - 2 + 1 by ring,
      zpow_add_one₀ two_ne_zero, binade]
    push_cast
    ring

theorem lower_lt_upper (i : Nat) :
  lower i < upper i
  := by
  have hlt : (interval i).1 < 4 * significand i + 2 := by
    rw [interval]
    simp only
    split <;> omega
  rw [lower, upper]
  gcongr

theorem upper_le_lower {i j : Nat} (h : i < j) :
  upper i ≤ lower j
  := by
  induction j, h using Nat.le_induction with
  | base => rw [upper_eq_lower_succ]
  | succ j _ ih =>
    rw [← upper_eq_lower_succ j]
    apply ih.trans (lower_lt_upper j).le

/-- Of two positions that have a number of their intervals in common, none comes before the
other. -/
theorem not_lt_of_roundsTo {x : ℚ} {i j : Nat} (hi : RoundsTo x i) (hj : RoundsTo x j) :
  ¬ i < j
  := by
  intro hlt
  rcases Nat.lt_or_ge (i + 1) j with hfar | hnear
  · have hgap := (upper_eq_lower_succ i).trans_lt
      ((lower_lt_upper (i + 1)).trans_le (upper_le_lower hfar))
    exact absurd (hi.le_upper.trans_lt hgap) (not_lt.mpr hj.lower_le)
  · -- One of two neighbours is odd, and its interval does not contain the common end.
    obtain rfl : j = i + 1 := by omega
    have hend := upper_eq_lower_succ i
    have hx : x = upper i := le_antisymm hi.le_upper (hend ▸ hj.lower_le)
    have hparity := significand_mod_two i
    have hparity' := significand_mod_two (i + 1)
    rcases Nat.mod_two_eq_zero_or_one i with heven | hodd
    · have hinterior := hj.interior (by omega)
      rw [hx, hend] at hinterior
      exact lt_irrefl _ hinterior.1
    · have hinterior := hi.interior (by omega)
      rw [hx] at hinterior
      exact lt_irrefl _ hinterior.2

/-- The rounding intervals have no number in common. -/
theorem eq_of_roundsTo {x : ℚ} {i j : Nat} (hi : RoundsTo x i) (hj : RoundsTo x j) :
  i = j
  := by
  rcases Nat.lt_trichotomy i j with h | h | h
  · exact absurd h (not_lt_of_roundsTo hi hj)
  · apply h
  · exact absurd h (not_lt_of_roundsTo hj hi)

/-! ### Decimals that read back -/

/-- The unit of which aligned products are multiples. -/
def alignUnit (e k : Int) : ℚ := 2 ^ (-e).toNat * 10 ^ (-k).toNat

theorem alignUnit_pos (e k : Int) :
  0 < alignUnit e k
  := by
  rw [alignUnit]
  positivity

theorem align_fst (a : Nat) (e : Int) (b : Nat) (k : Int) :
  ((align a e b k).1 : ℚ) = a * 2 ^ e * alignUnit e k
  := by
  have hpow : (2 : ℚ) ^ (-e).toNat ≠ 0 := by positivity
  rw [align, alignUnit, zpow_eq_div 2]
  simp only [Nat.shiftLeft_eq, Nat.pow_eq]
  push_cast
  field_simp

theorem align_snd (a : Nat) (e : Int) (b : Nat) (k : Int) :
  ((align a e b k).2 : ℚ) = b * 10 ^ k * alignUnit e k
  := by
  have hpow : (10 : ℚ) ^ (-k).toNat ≠ 0 := by positivity
  rw [align, alignUnit, zpow_eq_div 10]
  simp only [Nat.shiftLeft_eq, Nat.pow_eq]
  push_cast
  field_simp

theorem align_le_iff (a : Nat) (e : Int) (b : Nat) (k : Int) :
  (align a e b k).1 ≤ (align a e b k).2 ↔ (a : ℚ) * 2 ^ e ≤ b * 10 ^ k
  := by
  rw [← Nat.cast_le (α := ℚ), align_fst, align_snd,
    mul_le_mul_iff_of_pos_right (alignUnit_pos e k)]

theorem le_align_iff (a : Nat) (e : Int) (b : Nat) (k : Int) :
  (align a e b k).2 ≤ (align a e b k).1 ↔ (b : ℚ) * 10 ^ k ≤ a * 2 ^ e
  := by
  rw [← Nat.cast_le (α := ℚ), align_fst, align_snd,
    mul_le_mul_iff_of_pos_right (alignUnit_pos e k)]

theorem readsBack_iff (i c : Nat) (k : Int) :
  readsBack i c k = true ↔ RoundsTo (c * 10 ^ k) i
  := by
  have hunfold : readsBack i c k =
      (let e := Binary64.exponent i - 2
      let l := align (interval i).1 e c k
      let h := align (4 * significand i + 2) e c k
      if significand i % 2 = 0 then l.1 ≤ l.2 && h.2 ≤ h.1 else l.1 < l.2 && h.2 < h.1) := rfl
  have hrounds : RoundsTo (c * 10 ^ k) i ↔
      (lower i ≤ c * 10 ^ k ∧ c * 10 ^ k ≤ upper i)
        ∧ (significand i % 2 = 1 → lower i < c * 10 ^ k ∧ c * 10 ^ k < upper i) :=
    ⟨fun h => ⟨⟨h.lower_le, h.le_upper⟩, h.interior⟩, fun h => ⟨h.1.1, h.1.2, h.2⟩⟩
  rw [hunfold, hrounds, lower, upper]
  simp only
  split
  · rename_i heven
    rw [Bool.and_eq_true, decide_eq_true_iff, decide_eq_true_iff, align_le_iff, le_align_iff]
    simp [heven]
  · rename_i hodd
    rw [Bool.and_eq_true, decide_eq_true_iff, decide_eq_true_iff, ← not_le, ← not_le,
      align_le_iff, le_align_iff, not_le, not_le]
    have hone : significand i % 2 = 1 := by omega
    simp only [hone, true_imp_iff]
    constructor
    · rintro ⟨hlow, hhigh⟩
      exact ⟨⟨hlow.le, hhigh.le⟩, hlow, hhigh⟩
    · rintro ⟨-, hinterior⟩
      apply hinterior

theorem value_eq_quarters (i : Nat) :
  Binary64.value i = ↑(4 * significand i) * 2 ^ (Binary64.exponent i - 2)
  := by
  rw [Binary64.value, zpow_sub₀ two_ne_zero]
  push_cast
  ring

theorem lower_lt_value {i : Nat} (h : i ≠ 0) :
  lower i < Binary64.value i
  := by
  have hlt : (interval i).1 < 4 * significand i := by
    have hpos := significand_pos h
    rw [interval]
    simp only
    split <;> omega
  rw [lower, value_eq_quarters]
  gcongr

theorem upper_eq_add (i : Nat) :
  upper i = Binary64.value i + 2 ^ (Binary64.exponent i - 1)
  := by
  rw [upper, value_eq_quarters, show Binary64.exponent i - 1 = Binary64.exponent i - 2 + 1 by ring,
    zpow_add_one₀ two_ne_zero]
  push_cast
  ring

/-- A point of a grid that the search settles on reads back. -/
theorem roundsTo_of_gridPoint? {i c : Nat} {k : Int} (h : gridPoint? i k = some c) :
  c ≠ 0 ∧ RoundsTo (c * 10 ^ k) i
  := by
  rw [← readsBack_iff]
  rw [gridPoint?] at h
  simp only at h
  split at h
  · rename_i hlow hhigh
    rw [Bool.and_eq_true, bne_iff_ne] at hlow
    split at h
    · cases h
      exact ⟨hlow.2, hlow.1⟩
    · cases h
      exact ⟨Nat.succ_ne_zero _, hhigh⟩
  · rename_i hlow _
    rw [Bool.and_eq_true, bne_iff_ne] at hlow
    cases h
    exact ⟨hlow.2, hlow.1⟩
  · rename_i hhigh
    cases h
    exact ⟨Nat.succ_ne_zero _, hhigh⟩
  · cases h

/-- A grid that is finer than the upper half of the interval has a point that reads
back: the first one above the value. -/
theorem gridPoint?_ne_none {i : Nat} (hi : i ≠ 0) {k : Int}
    (hk : (10 : ℚ) ^ k < 2 ^ (Binary64.exponent i - 1)) :
  gridPoint? i k ≠ none
  := by
  obtain ⟨v, unit, halign⟩ : ∃ v unit,
      align (4 * significand i) (Binary64.exponent i - 2) 1 k = (v, unit) := ⟨_, _, rfl⟩
  have hv := align_fst (4 * significand i) (Binary64.exponent i - 2) 1 k
  have hunit := align_snd (4 * significand i) (Binary64.exponent i - 2) 1 k
  rw [halign] at hv hunit
  rw [← value_eq_quarters] at hv
  rw [Nat.cast_one, one_mul] at hunit
  have hpos := alignUnit_pos (Binary64.exponent i - 2) k
  have hunitPos : 0 < unit := by
    have : (0 : ℚ) < unit := by
      rw [hunit]
      positivity
    exact_mod_cast this
  have hfloor : (↑(v / unit) : ℚ) * 10 ^ k ≤ Binary64.value i := by
    have hle : (↑(v / unit * unit) : ℚ) ≤ v := by exact_mod_cast Nat.div_mul_le_self v unit
    rw [Nat.cast_mul, hunit, hv, ← mul_assoc] at hle
    apply le_of_mul_le_mul_right hle hpos
  have habove : Binary64.value i < ↑(v / unit + 1) * 10 ^ k := by
    have hlt : (v : ℚ) < ↑((v / unit + 1) * unit) := by
      exact_mod_cast Nat.lt_mul_of_div_lt (Nat.lt_succ_self (v / unit)) hunitPos
    rw [Nat.cast_mul, hunit, hv, ← mul_assoc] at hlt
    apply lt_of_mul_lt_mul_right hlt hpos.le
  have hbelow : (↑(v / unit + 1) : ℚ) * 10 ^ k < upper i := by
    rw [upper_eq_add]
    push_cast
    linarith
  have hread : readsBack i (v / unit + 1) k = true := by
    rw [readsBack_iff]
    have hlow := (lower_lt_value hi).trans habove
    exact ⟨hlow.le, hbelow.le, fun _ => ⟨hlow, hbelow⟩⟩
  have hmid : interval i = ((interval i).1, 4 * significand i, 4 * significand i + 2,
      Binary64.exponent i - 2) := rfl
  rw [gridPoint?, hmid]
  simp only [halign, hread]
  cases readsBack i (v / unit) k && v / unit != 0 <;> simp

/-! ### The search -/

theorem search_spec {i : Nat} {fuel : Nat} {k : Int}
    (h : ∃ j < fuel, gridPoint? i (k - j) ≠ none) :
  gridPoint? i (search i fuel k).exponent = some (search i fuel k).digits
  := by
  induction fuel generalizing k with
  | zero =>
    obtain ⟨j, hj, -⟩ := h
    omega
  | succ fuel ih =>
    rw [search]
    cases hpoint : gridPoint? i k with
    | some c => exact hpoint
    | none =>
      apply ih
      obtain ⟨j, hj, hne⟩ := h
      cases j with
      | zero =>
        simp only [Nat.cast_zero, sub_zero] at hne
        exact absurd hpoint hne
      | succ j =>
        refine ⟨j, by omega, ?_⟩
        rw [show k - 1 - (j : Int) = k - ((j + 1 : Nat) : Int) by push_cast; ring]
        apply hne

/-- Steps down from an exponent that is not much too large end at one that is not too
large. -/
theorem ten_zpow_log10Below_le {p q : Nat} (hq : 0 < q) {fuel : Nat} {k : Int}
    (h : (10 : ℚ) ^ (k - fuel) ≤ p / q) :
  (10 : ℚ) ^ log10Below p q fuel k ≤ p / q
  := by
  have hq' : (0 : ℚ) < q := by exact_mod_cast hq
  induction fuel generalizing k with
  | zero => simpa [log10Below] using h
  | succ fuel ih =>
    rw [log10Below]
    split
    · rename_i hle
      have hpow : (0 : ℚ) < 10 ^ (-k).toNat := by positivity
      rw [zpow_eq_div 10, div_le_div_iff₀ hpow hq']
      have hcast : ((q * 10 ^ k.toNat : Nat) : ℚ) ≤ (p * 10 ^ (-k).toNat : Nat) := by
        exact_mod_cast hle
      push_cast at hcast
      linarith
    · apply ih
      rw [show k - 1 - (fuel : Int) = k - ((fuel + 1 : Nat) : Int) by push_cast; ring]
      apply h

/-- Powers of ten and of two compare as other powers of theirs do. -/
theorem ten_zpow_le_two_zpow_of {a b : Nat} (ha : a ≠ 0) {k l : Int} (hexp : a * k ≤ b * l)
    (h : ((10 : ℚ) ^ b) ^ l ≤ (2 ^ a) ^ l) :
  (10 : ℚ) ^ k ≤ 2 ^ l
  := by
  rw [← pow_le_pow_iff_left₀ (by positivity) (by positivity) ha]
  calc ((10 : ℚ) ^ k) ^ a = 10 ^ (a * k) := by rw [← zpow_natCast, ← zpow_mul, mul_comm]
    _ ≤ 10 ^ (b * l) := by
      gcongr
      norm_num
    _ = (10 ^ b) ^ l := by rw [zpow_mul, zpow_natCast]
    _ ≤ (2 ^ a) ^ l := h
    _ = ((2 : ℚ) ^ l) ^ a := by
      rw [← zpow_natCast, ← zpow_natCast, ← zpow_mul, ← zpow_mul, mul_comm]

/-- The start of the search for the decimal logarithm is less than eight too large: the
factor for the logarithms is good enough for the exponents of doubles. -/
theorem ten_zpow_le_two_zpow {l : Int} (hlow : -1075 ≤ l) (hhigh : l < 1024) :
  (10 : ℚ) ^ ((l + 1) * 30103 / 100000 + 1 - 8) ≤ 2 ^ l
  := by
  rcases Int.le_total 0 l with hl | hl
  · apply ten_zpow_le_two_zpow_of (show 10 ≠ 0 by decide) (b := 3) (by push_cast; omega)
    apply zpow_le_zpow_left₀ hl <;> norm_num
  · apply ten_zpow_le_two_zpow_of (show 23 ≠ 0 by decide) (b := 7) (by push_cast; omega)
    obtain ⟨m, rfl⟩ : ∃ m, l = -m := ⟨-l, by omega⟩
    rw [zpow_neg, zpow_neg]
    apply inv_anti₀ (by positivity)
    apply zpow_le_zpow_left₀ (by omega) <;> norm_num

/-- The power of ten that the search begins with is at most the value. -/
theorem ten_zpow_log10_le {i : Nat} (hi : i ≠ 0) (h : i < infinity) :
  (10 : ℚ) ^ log10 i ≤ Binary64.value i
  := by
  obtain ⟨hq, hquotient⟩ := quotient_spec i
  have hq' : (0 : ℚ) < (quotient i).2 := by exact_mod_cast hq
  have hvalue := value_pos hi
  have hp : 0 < (quotient i).1 := by
    rw [← hquotient] at hvalue
    exact_mod_cast (div_pos_iff_of_pos_right hq').mp hvalue
  obtain ⟨hlow, hlog⟩ := log2Quotient_bounds hp hq
  have hlog2 := log2_quotient_le h
  have hhigh : log2Quotient (quotient i).1 (quotient i).2 < 1024 := by
    rw [hquotient] at hlog
    have hlt := hlog.trans_lt (value_lt h)
    rw [← zpow_natCast] at hlt
    exact_mod_cast (zpow_lt_zpow_iff_right₀ (show (1 : ℚ) < 2 by norm_num)).mp hlt
  rw [← hquotient, log10]
  apply ten_zpow_log10Below_le hq
  apply le_trans _ hlog
  apply ten_zpow_le_two_zpow _ hhigh
  omega

/-- The shortest decimal of a position that is not zero is positive and reads back. -/
theorem shortest_roundsTo {i : Nat} (hi : i ≠ 0) (h : i < infinity) :
  (shortest i).digits ≠ 0 ∧ RoundsTo (shortest i).value i
  := by
  have hfine : (10 : ℚ) ^ (log10 i - (17 : Nat)) < 2 ^ (Binary64.exponent i - 1) := by
    have hlog := ten_zpow_log10_le hi h
    have hsignificand : (significand i : ℚ) < 2 ^ 53 := by
      have hlt := significand_lt i
      rw [binade] at hlt
      exact_mod_cast hlt
    have hpow : (0 : ℚ) < 2 ^ Binary64.exponent i := by positivity
    rw [zpow_sub₀ (by norm_num), zpow_sub_one₀ two_ne_zero, zpow_natCast]
    rw [Binary64.value] at hlog
    calc (10 : ℚ) ^ log10 i / 10 ^ 17
        ≤ significand i * 2 ^ Binary64.exponent i / 10 ^ 17 := by gcongr
      _ < 2 ^ 53 * 2 ^ Binary64.exponent i / 10 ^ 17 := by gcongr
      _ < 2 ^ Binary64.exponent i * 2⁻¹ := by
        rw [div_lt_iff₀ (by norm_num)]
        norm_num
        linarith
  rw [shortest, value]
  apply roundsTo_of_gridPoint?
  apply search_spec
  use 17, by omega
  apply gridPoint?_ne_none hi hfine

/-- No two positions have the same shortest decimal. -/
theorem eq_of_shortest_value {i j : Nat} (hi : i ≠ 0) (hj : j ≠ 0) (hi' : i < infinity)
    (hj' : j < infinity) (h : (shortest i).value = (shortest j).value) :
  i = j
  := by
  have hround := (shortest_roundsTo hi hi').2
  rw [h] at hround
  apply eq_of_roundsTo hround (shortest_roundsTo hj hj').2

end Decimal
end Federation
