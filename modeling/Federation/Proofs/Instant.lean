import Federation.Instant.Rfc3339
import Federation.Proofs.Text.Digits

/-!
# Instants are read back from their texts

The date of a day number is a date of the calendar with this day number
(`daysOfDate_dateOfDays`, `date_dateOfDays`), and the text of an instant, whose leap
second is the second 60, is read as the instant (`parse?_text`).  So no two instants
have the same text.
-/

namespace Federation.Instant

open Digits

/-! ### The calendar -/

/-- A date that the calendar has. -/
structure Date.Valid (d : Date) : Prop where
  month : 1 ≤ d.month ∧ d.month ≤ 12
  day : 1 ≤ d.day ∧ d.day ≤ daysInMonth d.year d.month

/-- The place of a day in the years that begin in March: the era of 400 years, the century
in it, the four years in that, the year in those, and the day of the year. -/
structure Place where
  era : Int
  century : Nat
  quad : Nat
  year : Nat
  day : Nat

namespace Place

/-- The place of a day number. -/
def ofDays (days : Int) : Place :=
  let n := days + 719468
  let dayOfEra := (n % 146097).toNat
  let century := min (dayOfEra / 36524) 3
  let dayOfCentury := dayOfEra - 36524 * century
  let dayOfQuad := dayOfCentury % 1461
  let year := min (dayOfQuad / 365) 3
  ⟨n / 146097, century, dayOfCentury / 1461, year, dayOfQuad - 365 * year⟩

/-- The year that begins in March. -/
def march (p : Place) : Int := 400 * p.era + 100 * p.century + 4 * p.quad + p.year

/-- The parts of a place are in their ranges; a year has a last day more only every four
years, and of the last of these four years in a century only every four centuries. -/
structure InRange (p : Place) : Prop where
  century : p.century ≤ 3
  quad : p.quad ≤ 24
  year : p.year ≤ 3
  day : p.day ≤ 365
  leap : p.day = 365 → p.year = 3 ∧ (p.quad = 24 → p.century = 3)

theorem inRange_ofDays (days : Int) :
  (ofDays days).InRange
  := by
  have hera : (days + 719468) % 146097 < 146097 := Int.emod_lt_of_pos _ (by decide)
  have hera' : 0 ≤ (days + 719468) % 146097 := Int.emod_nonneg _ (by decide)
  constructor <;> simp only [ofDays] <;> omega

theorem days_ofDays (days : Int) :
  days + 719468 = 146097 * (ofDays days).era + 36524 * (ofDays days).century
    + 1461 * (ofDays days).quad + 365 * (ofDays days).year + (ofDays days).day
  := by
  simp only [ofDays]
  omega

/-- The days before the year of a place. -/
theorem daysBeforeMarch_march {p : Place} (h : p.InRange) :
  daysBeforeMarch p.march
    = 146097 * p.era + 36524 * p.century + 1461 * p.quad + 365 * p.year
  := by
  obtain ⟨hcentury, hquad, hyear, -, -⟩ := h
  rw [daysBeforeMarch, march]
  omega

end Place

theorem dateOfDays_eq (days : Int) :
  dateOfDays days =
    (let p := Place.ofDays days
    let m := (5 * p.day + 2) / 153
    let day := p.day - daysBeforeMonth m + 1
    if m < 10 then ⟨p.march, m + 3, day⟩ else ⟨p.march + 1, m - 9, day⟩)
  := rfl

/-- The date of a day number has this number. -/
theorem daysOfDate_dateOfDays (days : Int) :
  daysOfDate (dateOfDays days) = days
  := by
  have hrange := Place.inRange_ofDays days
  have hdays := Place.days_ofDays days
  have hmarch := Place.daysBeforeMarch_march hrange
  have hday := hrange.day
  rw [dateOfDays_eq]
  generalize Place.ofDays days = p at *
  simp only [daysBeforeMonth]
  split
  · simp only [daysOfDate, daysBeforeMonth]
    rw [if_neg (by omega)]
    simp only [Nat.add_sub_cancel]
    omega
  · simp only [daysOfDate, daysBeforeMonth]
    rw [if_pos (by omega)]
    simp only [Int.add_sub_cancel]
    omega

/-- The last day of a year that has it is a leap day. -/
theorem Place.isLeapYear_march {p : Place} (h : p.InRange) (hday : p.day = 365) :
  isLeapYear (p.march + 1) = true
  := by
  obtain ⟨hyear, hlast⟩ := h.leap hday
  have hcentury := h.century
  have hquad := h.quad
  have hfour : (p.march + 1) % 4 = 0 := by
    rw [march]
    omega
  have hhundred : (p.march + 1) % 100 ≠ 0 ∨ (p.march + 1) % 400 = 0 := by
    rw [march]
    omega
  rw [isLeapYear, hfour]
  simpa using hhundred

/-- The date of a day number is one of the calendar. -/
theorem valid_dateOfDays (days : Int) :
  (dateOfDays days).Valid
  := by
  have hrange := Place.inRange_ofDays days
  rw [dateOfDays_eq]
  generalize Place.ofDays days = p at *
  have hday := hrange.day
  obtain ⟨m, hm⟩ : ∃ m, m = (5 * p.day + 2) / 153 := ⟨_, rfl⟩
  have hle : m ≤ 11 := by omega
  simp only [← hm]
  by_cases hfebruary : m = 11
  · subst hfebruary
    rw [if_neg (by decide)]
    have hlength : p.day - daysBeforeMonth 11 + 1 ≤ daysInMonth (p.march + 1) 2 := by
      rw [show daysBeforeMonth 11 = 337 from rfl, daysInMonth, if_pos rfl]
      by_cases hlast : p.day = 365
      · rw [Place.isLeapYear_march hrange hlast, if_pos rfl]
        omega
      · split <;> omega
    exact ⟨by simp, by simp, hlength⟩
  · interval_cases m
    all_goals
      refine ⟨by simp, by simp, ?_⟩
      simp [daysInMonth, daysBeforeMonth]
      omega

/-! ### Parts of a text -/

theorem isBlank_toChar {d : Nat} (h : d < 10) :
  Text.isBlank (toChar d) = false
  := by
  interval_cases d <;> decide

theorem trimStart_cons {c : Char} (h : Text.isBlank c = false) (cs : List Char) :
  Text.trimStart (c :: cs) = c :: cs
  := by rw [Text.trimStart, List.dropWhile_cons, h, if_neg (by simp)]

theorem trimStart_map_toChar_append {ds : List Nat} (hne : ds ≠ []) (hds : ∀ d ∈ ds, d < 10)
    (rest : List Char) :
  Text.trimStart (ds.map toChar ++ rest) = ds.map toChar ++ rest
  := by
  obtain ⟨d, ds, rfl⟩ := List.exists_cons_of_ne_nil hne
  apply trimStart_cons (isBlank_toChar (hds d List.mem_cons_self))

/-- Digits are read up to the width that they fill. -/
theorem digits?_append {ds : List Nat} (hne : ds ≠ []) (hds : ∀ d ∈ ds, d < 10)
    (rest : List Char) :
  digits? ds.length (ds.map toChar ++ rest) = some (ds, rest)
  := by
  have hspan := span_map_toChar_append hds noDigit_nil
  rw [List.append_nil] at hspan
  have htake : (ds.map toChar ++ rest).take ds.length = ds.map toChar := by
    rw [List.take_append_of_le_length (by simp), List.take_of_length_le (by simp)]
  have hdrop : (ds.map toChar ++ rest).drop ds.length = rest := by
    rw [List.drop_append_of_le_length (by simp), List.drop_of_length_le (by simp),
      List.nil_append]
  rw [digits?, htake, hspan]
  cases ds with
  | nil => exact absurd rfl hne
  | cons d ds => simp only [hdrop]

/-- Digits are read up to something else when there is no width to fill. -/
theorem digits?_length {ds : List Nat} (hne : ds ≠ []) (hds : ∀ d ∈ ds, d < 10)
    {rest : List Char} (hrest : NoDigit rest) :
  digits? (ds.map toChar ++ rest).length (ds.map toChar ++ rest) = some (ds, rest)
  := by
  have hdrop : (ds.map toChar ++ rest).drop ds.length = rest := by
    rw [List.drop_append_of_le_length (by simp), List.drop_of_length_le (by simp),
      List.nil_append]
  rw [digits?, List.take_length, span_map_toChar_append hds hrest]
  cases ds with
  | nil => exact absurd rfl hne
  | cons d ds => simp only [hdrop]

theorem paddedValues_ne_nil (width n : Nat) :
  paddedValues width n ≠ []
  := by simp [paddedValues, values_ne_nil]

/-- A number of two digits. -/
theorem number?_padded {n : Nat} (h : n < 100) (rest : List Char) :
  number? 2 (padded 2 n ++ rest) = some (n, rest)
  := by
  have hne := paddedValues_ne_nil 2 n
  have hlt : ∀ d ∈ paddedValues 2 n, d < 10 := fun _ => lt_of_mem_paddedValues
  have hdigits := digits?_append hne hlt rest
  rw [length_paddedValues (by decide) h] at hdigits
  rw [number?, padded_eq_map_toChar, trimStart_map_toChar_append hne hlt, hdigits]
  simp only [Option.map_some, ofDigits_paddedValues]

/-- A year without a sign is read from four digits. -/
theorem year?_unsigned {c : Char} (hblank : Text.isBlank c = false) (hminus : c ≠ '-')
    (hplus : c ≠ '+') (cs : List Char) :
  year? (c :: cs) = (digits? 4 (c :: cs)).map fun (ds, rest) => ((ofDigits ds : Int), rest)
  := by
  rw [year?, trimStart_cons hblank]
  split
  · rename_i h
    exact absurd (List.cons.inj h).1 hminus
  · rename_i h
    exact absurd (List.cons.inj h).1 hplus
  · rfl

theorem year?_yearChars (y : Int) {rest : List Char} (hrest : NoDigit rest) :
  year? (yearChars y ++ rest) = some (y, rest)
  := by
  have hne : ∀ n, paddedValues 4 n ≠ [] := paddedValues_ne_nil 4
  have hlt : ∀ n, ∀ d ∈ paddedValues 4 n, d < 10 := fun _ _ => lt_of_mem_paddedValues
  rw [yearChars]
  split
  · rename_i hy
    obtain ⟨n, rfl⟩ := Int.eq_ofNat_of_zero_le hy.1
    have hdigits := digits?_append (hne n) (hlt n) rest
    rw [length_paddedValues (by decide) (by omega)] at hdigits
    obtain ⟨d, ds, hcons⟩ := List.exists_cons_of_ne_nil (hne n)
    have hd : d < 10 := hlt n d (by simp [hcons])
    have hyear : year? ((paddedValues 4 n).map toChar ++ rest) = some ((n : Int), rest) := by
      rw [hcons, List.map_cons, List.cons_append, year?_unsigned (isBlank_toChar hd)
        (toChar_ne hd rfl) (toChar_ne hd rfl), ← List.cons_append, ← List.map_cons, ← hcons,
        hdigits]
      simp only [Option.map_some, ofDigits_paddedValues]
    rw [padded_eq_map_toChar]
    exact hyear
  · rename_i hlarge
    have hdigits := digits?_length (hne y.natAbs) (hlt y.natAbs) hrest
    split
    · rw [padded_eq_map_toChar, List.cons_append, year?, trimStart_cons rfl]
      simp only [hdigits, Option.map_some, ofDigits_paddedValues]
      congr 2
      omega
    · rw [padded_eq_map_toChar, List.cons_append, year?, trimStart_cons rfl]
      simp only [hdigits, Option.map_some, ofDigits_paddedValues]
      congr 2
      omega

theorem mark?_cons {c : Char} (h : Text.isBlank c = false) (cs : List Char) :
  mark? c (c :: cs) = some cs
  := by
  rw [mark?, trimStart_cons h]
  simp

/-- The nanoseconds of a fraction of at most nine digits. -/
theorem nanos?_point {width n : Nat} (hwidth : width ≠ 0) (hnine : width ≤ 9)
    (hn : n < 10 ^ width) {rest : List Char} (hrest : NoDigit rest) :
  nanos? ('.' :: padded width n ++ rest) = some (n * 10 ^ (9 - width), rest)
  := by
  have hlt : ∀ d ∈ paddedValues width n, d < 10 := fun _ => lt_of_mem_paddedValues
  have hlength := length_paddedValues hwidth hn
  have htake : (paddedValues width n ++ List.replicate 9 0).take 9
      = paddedValues width n ++ List.replicate (9 - width) 0 := by
    rw [List.take_append, hlength, List.take_of_length_le (by omega), List.take_replicate,
      Nat.min_eq_left (by omega)]
  have hvalue : ofDigits ((paddedValues width n ++ List.replicate 9 0).take 9)
      = n * 10 ^ (9 - width) := by
    rw [htake, ofDigits_append, ofDigits_paddedValues, ofDigits_replicate_zero,
      List.length_replicate, Nat.add_zero]
  obtain ⟨d, ds, hcons⟩ := List.exists_cons_of_ne_nil (paddedValues_ne_nil width n)
  rw [padded_eq_map_toChar, List.cons_append, nanos?, span_map_toChar_append hlt hrest, ← hvalue,
    hcons]

/-- The shortest fraction in thousands is read as the nanoseconds it was made of. -/
theorem nanos?_fractionChars {n : Nat} (hn : n < 1000000000) {c : Char}
    (hc : value? c = none) (hpoint : c ≠ '.') (rest : List Char) :
  nanos? (fractionChars n ++ c :: rest) = some (n, c :: rest)
  := by
  rw [fractionChars]
  split
  · rename_i hzero
    rw [hzero, List.nil_append, nanos?]
    intro _ h
    exact hpoint (List.cons.inj h).1
  · split
    · rw [nanos?_point (by decide) (by decide) (by omega) (noDigit_cons hc rest)]
      congr 2
      omega
    · split
      · rw [nanos?_point (by decide) (by decide) (by omega) (noDigit_cons hc rest)]
        congr 2
        omega
      · rw [nanos?_point (by decide) (by decide) (by omega) (noDigit_cons hc rest)]
        congr 2
        omega

/-! ### Whole texts -/

theorem ofParts?_self (t : Instant) :
  ofParts? t.seconds t.nanos = some t
  := dif_pos ⟨t.inRange, t.nanos_lt⟩

/-- An instant is read from the parts of its text. -/
theorem ofLocal?_parts (t : Instant) :
  ofLocal? (dateOfDays (t.seconds / 86400)) ((t.seconds % 86400).toNat / 3600)
      ((t.seconds % 86400).toNat / 60 % 60)
      ((t.seconds % 86400).toNat % 60 + t.nanos / 1000000000) (t.nanos % 1000000000) 0
    = some t
  := by
  obtain ⟨hmonth, hday⟩ := valid_dateOfDays (t.seconds / 86400)
  have hnanos := t.nanos_lt
  obtain ⟨time, htime⟩ := Int.eq_ofNat_of_zero_le (Int.emod_nonneg t.seconds (show (86400 : Int) ≠ 0 by decide))
  have hday' : t.seconds % 86400 < 86400 := Int.emod_lt_of_pos _ (by decide)
  rw [ofLocal?, htime, Int.toNat_natCast]
  -- A leap second is the second 60, which is read as the second 59 with a second more.
  have hsecond : min (time % 60 + t.nanos / 1000000000) 59 = time % 60 := by omega
  have hleap : (if time % 60 + t.nanos / 1000000000 = 60 then
      t.nanos % 1000000000 + 1000000000 else t.nanos % 1000000000) = t.nanos := by
    split <;> omega
  have hseconds : daysOfDate (dateOfDays (t.seconds / 86400)) * 86400
      + (time / 3600 : Nat) * 3600 + (time / 60 % 60 : Nat) * 60 + (time % 60 : Nat)
      = t.seconds := by
    rw [daysOfDate_dateOfDays]
    omega
  rw [if_pos ⟨hmonth.1, hmonth.2, hday.1, hday.2, by omega, by omega, by omega, by decide⟩,
    hsecond, hleap, hseconds]
  simp only [Int.sub_zero, ofParts?_self]
  rfl

/-- A text of the format is read as the local time of its parts. -/
theorem parseChars?_parts (date : Date) {hour minute second nanos : Nat}
    (hmonth : date.month < 100) (hday : date.day < 100) (hhour : hour < 100)
    (hminute : minute < 100) (hsecond : second < 100) (hnanos : nanos < 1000000000) :
  parseChars? (yearChars date.year ++ '-' :: padded 2 date.month ++ '-' :: padded 2 date.day
      ++ 'T' :: padded 2 hour ++ ':' :: padded 2 minute ++ ':' :: padded 2 second
      ++ fractionChars nanos ++ ['Z'])
    = ofLocal? date hour minute second nanos 0
  := by
  have hdash : ∀ cs, mark? '-' ('-' :: cs) = some cs := mark?_cons rfl
  have hcolon : ∀ cs, mark? ':' (':' :: cs) = some cs := mark?_cons rfl
  have hyear : ∀ cs, year? (yearChars date.year ++ '-' :: cs) = some (date.year, '-' :: cs) :=
    fun cs => year?_yearChars _ (noDigit_cons rfl cs)
  have hzone : offset? (Text.trimStart ['Z']) = some (0, []) := rfl
  simp only [List.append_assoc, List.cons_append]
  rw [parseChars?]
  dsimp only [Option.bind_eq_bind]
  rw [hyear, Option.bind_some, hdash, Option.bind_some, number?_padded hmonth, Option.bind_some,
    hdash, Option.bind_some, number?_padded hday, Option.bind_some]
  dsimp only
  rw [if_pos (Or.inl rfl), Option.bind_some, number?_padded hhour, Option.bind_some, hcolon,
    Option.bind_some, number?_padded hminute, Option.bind_some, hcolon, Option.bind_some,
    number?_padded hsecond, Option.bind_some,
    nanos?_fractionChars hnanos rfl (show 'Z' ≠ '.' by decide), Option.bind_some]
  dsimp only
  rw [hzone, Option.bind_some]
  rfl

theorem parseChars?_chars (t : Instant) :
  parseChars? t.chars = some t
  := by
  obtain ⟨hmonth, hday⟩ := valid_dateOfDays (t.seconds / 86400)
  have hlength : daysInMonth (dateOfDays (t.seconds / 86400)).year
      (dateOfDays (t.seconds / 86400)).month ≤ 31 := by
    rw [daysInMonth]
    repeat' split
    all_goals omega
  have hnanos := t.nanos_lt
  rw [← ofLocal?_parts t, chars]
  apply parseChars?_parts <;> omega

/-- The text of an instant is read as the instant. -/
theorem parse?_text (t : Instant) :
  parse? t.text = some t
  := by rw [parse?, text, String.toList_ofList, parseChars?_chars]

theorem text_injective {t u : Instant} (h : t.text = u.text) :
  t = u
  := by
  have hread := congrArg parse? h
  rw [parse?_text, parse?_text] at hread
  exact Option.some.inj hread

end Federation.Instant
