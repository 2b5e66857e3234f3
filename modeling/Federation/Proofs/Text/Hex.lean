import Federation.Text.Hex
import Mathlib.Tactic.IntervalCases

/-!
# Hexadecimal text is read back

The digits of bytes are read as the bytes (`decode?_encode`), so no two byte sequences
have the same digits.
-/

namespace Federation.Hex

theorem value?_digit {n : Nat} (h : n < 16) :
  value? (digit n) = some n
  := by
  interval_cases n <;> rfl

theorem decode?_byteChars_append (b : UInt8) (rest : List Char) :
  decode? (byteChars b ++ rest) = (decode? rest).map fun bytes => b :: bytes
  := by
  have hb := b.toNat_lt
  have hhigh : value? (digit (b.toNat / 16)) = some (b.toNat / 16) := value?_digit (by omega)
  have hlow : value? (digit (b.toNat % 16)) = some (b.toNat % 16) := value?_digit (by omega)
  have hbyte : UInt8.ofNat (16 * (b.toNat / 16) + b.toNat % 16) = b := by
    rw [Nat.div_add_mod, UInt8.ofNat_toNat]
  rw [byteChars, List.cons_append, List.cons_append, decode?, hhigh, hlow]
  simp only [Option.bind_eq_bind, Option.bind_some, hbyte, List.nil_append]
  cases decode? rest <;> rfl

/-- The digits of bytes are read as the bytes. -/
theorem decode?_encode (bytes : Bytes) :
  decode? (encode bytes).toList = some bytes
  := by
  rw [encode, String.toList_ofList]
  induction bytes with
  | nil => rfl
  | cons b bytes ih =>
    rw [List.flatMap_cons, decode?_byteChars_append, ih]
    rfl

theorem encode_injective {bytes bytes' : Bytes} (h : encode bytes = encode bytes') :
  bytes = bytes'
  := by
  have hread := decode?_encode bytes
  rw [h, decode?_encode] at hread
  exact (Option.some.inj hread).symm

/-- The digits of bytes are digits. -/
theorem isSome_value?_of_mem_encode {bytes : Bytes} {c : Char} (h : c ∈ (encode bytes).toList) :
  (value? c).isSome = true
  := by
  rw [encode, String.toList_ofList] at h
  obtain ⟨b, -, hc⟩ := List.mem_flatMap.mp h
  have hb := b.toNat_lt
  simp only [byteChars, List.mem_cons, List.not_mem_nil, or_false] at hc
  obtain rfl | rfl := hc
  · rw [value?_digit (by omega)]
    rfl
  · rw [value?_digit (by omega)]
    rfl

end Federation.Hex
