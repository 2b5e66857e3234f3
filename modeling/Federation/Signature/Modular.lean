import Federation.Text.Utf8

/-!
# Arithmetic with remainders

Numbers are read from bytes with the highest byte first.  `powMod` raises to a power
with as many squarings as the exponent has bits.
-/

namespace Federation.Modular

/-- The number that bytes write, the highest byte first. -/
def ofBytes (bytes : Bytes) : Nat := bytes.foldl (fun n b => 256 * n + b.toNat) 0

/-- The remainder of `a ^ n` modulo `m`, for an exponent below `2 ^ bits`. -/
def powMod (m : Nat) : Nat → Nat → Nat → Nat
  | 0, _, _ => 1 % m
  | bits + 1, a, n =>
    let r := powMod m bits (a * a % m) (n / 2)
    if n % 2 = 1 then r * a % m else r

theorem powMod_eq (m : Nat) : ∀ bits a n : Nat, n < Nat.pow 2 bits →
  powMod m bits a n = Nat.pow a n % m
  | 0, a, n, h => by
    have hn : n = 0 := Nat.lt_one_iff.mp h
    subst hn
    rfl
  | bits + 1, a, n, h => by
    have h : n < Nat.pow 2 bits * 2 := h
    have ih := powMod_eq m bits (a * a % m) (n / 2) (by omega)
    have key : Nat.pow (a * a % m) (n / 2) % m = Nat.pow a (2 * (n / 2)) % m := by
      have hsquare : a * a = Nat.pow a 2 := (Nat.pow_two a).symm
      rw [hsquare]
      exact (Nat.pow_mod (Nat.pow a 2) (n / 2) m).symm.trans
        (congrArg (· % m) (Nat.pow_mul a 2 (n / 2)).symm)
    simp only [powMod]
    rw [ih, key]
    split
    · rename_i h2
      have hsplit : n = 2 * (n / 2) + 1 := by omega
      have hpow : Nat.pow a n = Nat.pow a (2 * (n / 2)) * a :=
        (congrArg (Nat.pow a) hsplit).trans rfl
      rw [hpow, Nat.mod_mul_mod]
    · have h2 : 2 * (n / 2) = n := by omega
      rw [h2]

end Federation.Modular
