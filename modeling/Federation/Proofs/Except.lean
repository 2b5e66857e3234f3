/-!
# Results of computations that can fail

A sequence of steps gives a result exactly when each of its steps does.  A loop in which
a step that can fail takes values one after another is known by its step alone
(`Accumulates`): which lists of values it takes (`exists_foldlM_iff`), what it makes of
them (`of_foldlM`), and when it comes to the same for two lists (`foldlM_eq_ok_iff`).
-/

namespace Federation

variable {ε α β : Type}

/-- Two steps give a result exactly when the first one does and the second one then does. -/
theorem bind_eq_ok_iff {x : Except ε α} {f : α → Except ε β} {b : β} :
  x >>= f = .ok b ↔ ∃ a, x = .ok a ∧ f a = .ok b
  := by
  cases x with
  | error e =>
    constructor
    · intro h
      cases h
    · rintro ⟨a, h, -⟩
      cases h
  | ok a =>
    constructor
    · intro h
      exact ⟨a, rfl, h⟩
    · rintro ⟨_, h, hb⟩
      cases h
      apply hb

theorem map_eq_ok_iff {x : Except ε α} {f : α → β} {b : β} :
  x.map f = .ok b ↔ ∃ a, x = .ok a ∧ f a = b
  := by
  cases x with
  | error e =>
    constructor
    · intro h
      cases h
    · rintro ⟨a, h, -⟩
      cases h
  | ok a =>
    constructor
    · intro h
      cases h
      exact ⟨a, rfl, rfl⟩
    · rintro ⟨_, h, rfl⟩
      cases h
      rfl

/-- What stands behind a check gives a result exactly when the check passes and it
does. -/
theorem check_eq_ok_iff {c : Prop} [Decidable c] {e : ε} {f : α → Except ε β}
    {y : Except ε β} {b : β} :
  (if c then Except.error e >>= f else y) = .ok b ↔ ¬ c ∧ y = .ok b
  := by
  split
  · rename_i h
    constructor
    · intro hb
      cases hb
    · rintro ⟨hc, -⟩
      exact absurd h hc
  · rename_i h
    constructor
    · intro hb
      exact ⟨h, hb⟩
    · rintro ⟨-, hb⟩
      apply hb

/-- A result that is there is not replaced. -/
theorem eq_ok_getD_of_isOk {x : Except ε α} (h : x.isOk = true) (a : α) :
  x = .ok (x.toOption.getD a)
  := by
  cases x with
  | error e => cases h
  | ok a' => rfl

theorem mapError_eq_ok_iff {ε' : Type} {x : Except ε α} {f : ε → ε'} {a : α} :
  x.mapError f = .ok a ↔ x = .ok a
  := by
  cases x with
  | error e =>
    constructor
    · intro h
      cases h
    · intro h
      cases h
  | ok b =>
    constructor
    · intro h
      cases h
      rfl
    · intro h
      cases h
      rfl

/-! ### Loops -/

/-- What a step that can fail makes of the values that it is given one after another:
`Good` says which lists of values are taken, and `Holds` what the state is after them. -/
structure Accumulates {σ : Type} (f : σ → α → Except ε σ) (Good : List α → Prop)
    (Holds : List α → σ → Prop) : Prop where
  /-- A list is not taken unless what it begins with is. -/
  of_append : ∀ {before after : List α}, Good (before ++ after) → Good before
  /-- There is a state only after values that are taken. -/
  good : ∀ {before : List α} {s : σ}, Holds before s → Good before
  /-- When one more value is taken. -/
  exists_step_iff : ∀ {before : List α} {s : σ}, Holds before s → ∀ a,
    (∃ next, f s a = .ok next) ↔ Good (before ++ [a])
  /-- What becomes of the state with one more value. -/
  step : ∀ {before : List α} {s next : σ} {a : α}, Holds before s → f s a = .ok next →
    Holds (before ++ [a]) next

namespace Accumulates

variable {σ : Type} {f : σ → α → Except ε σ} {Good : List α → Prop} {Holds : List α → σ → Prop}

theorem of_foldlM (h : Accumulates f Good Holds) {before l : List α} {s last : σ}
    (hs : Holds before s) (hl : l.foldlM f s = .ok last) :
  Holds (before ++ l) last
  := by
  induction l generalizing before s with
  | nil =>
    cases hl
    rw [List.append_nil]
    apply hs
  | cons a l ih =>
    rw [List.foldlM_cons] at hl
    obtain ⟨next, ha, hl⟩ := bind_eq_ok_iff.mp hl
    rw [List.append_cons]
    apply ih (h.step hs ha) hl

theorem exists_foldlM_iff (h : Accumulates f Good Holds) {before : List α} {s : σ}
    (hs : Holds before s) (l : List α) :
  (∃ last, l.foldlM f s = .ok last) ↔ Good (before ++ l)
  := by
  constructor
  · rintro ⟨last, hl⟩
    apply h.good (h.of_foldlM hs hl)
  · intro hgood
    induction l generalizing before s with
    | nil => exact ⟨s, rfl⟩
    | cons a l ih =>
      rw [List.append_cons] at hgood
      obtain ⟨next, ha⟩ := (h.exists_step_iff hs a).mpr (h.of_append hgood)
      obtain ⟨last, hl⟩ := ih (h.step hs ha) hgood
      refine ⟨last, ?_⟩
      rw [List.foldlM_cons]
      apply bind_eq_ok_iff.mpr ⟨next, ha, hl⟩

/-- Two lists lead to the same state if both or neither of them is taken, and a state
after one of them is the state after the other. -/
theorem foldlM_eq_ok_iff (h : Accumulates f Good Holds) {s : σ} (hs : Holds [] s)
    {l l' : List α} (hgood : Good l ↔ Good l')
    (heq : ∀ {last last' : σ}, Holds l last → Holds l' last' → last = last') {last : σ} :
  l.foldlM f s = .ok last ↔ l'.foldlM f s = .ok last
  := by
  constructor
  · intro hl
    obtain ⟨last', hl'⟩ := (h.exists_foldlM_iff hs l').mpr (hgood.mp (h.good (h.of_foldlM hs hl)))
    rw [heq (h.of_foldlM hs hl) (h.of_foldlM hs hl')]
    apply hl'
  · intro hl'
    obtain ⟨last', hl⟩ := (h.exists_foldlM_iff hs l).mpr (hgood.mpr (h.good (h.of_foldlM hs hl')))
    rw [← heq (h.of_foldlM hs hl) (h.of_foldlM hs hl')]
    apply hl

end Accumulates
end Federation
