import Federation.Proofs.Audit.Writer
import Federation.Proofs.Gateway.Traffic
import Mathlib.Tactic.Use

/-!
# What the trail takes

A trail is `Written` when its records are numbered one after another, a record of a
submission holds its decision, and a record that makes another one void stands right
behind it and names it.  In such a trail, unless it is so long that numbers come again, a
record that is not made void by the one behind it is not named by any record
(`Written.voids_ne`).
-/

namespace Federation

/-- What may be appended behind what the trail has taken, the first record of which has
a given number. -/
def Appending.Follows (first : UInt64) (before : List Appending) : Appending → Prop
  | record x r =>
    r.sequence = first + .ofNat before.length ∧ r.decision = x.decision ∧ r.voids = none
  | void x v =>
    v.sequence = first + .ofNat before.length ∧ v.decision = x.decision.toDenied .timeout
      ∧ ∃ r, before.getLast? = some (record x r) ∧ v.voids = some r.sequence

/-- Everything follows what was taken before it. -/
def Written (first : UInt64) (l : List Appending) : Prop :=
  ∀ before a after, l = before ++ a :: after → a.Follows first before

namespace Written

variable {first : UInt64} {l : List Appending}

theorem nil :
  Written first []
  := by
  intro before a after h
  simp at h

theorem concat (h : Written first l) {a : Appending} (ha : a.Follows first l) :
  Written first (l ++ [a])
  := forall_split_concat h ha

theorem sequence_eq (h : Written first l) {before after : List Appending} {a : Appending}
    (hl : l = before ++ a :: after) :
  a.written.sequence = first + .ofNat before.length
  := by
  cases a with
  | record x r => apply (h before _ after hl).1
  | void x v => apply (h before _ after hl).1

/-- A record that makes another one void stands right behind it. -/
theorem exists_of_void (h : Written first l) {x : Submission} {v : AuditRecord}
    (hv : .void x v ∈ l) :
  ∃ before r after, l = before ++ [.record x r, .void x v] ++ after
    ∧ v.decision = x.decision.toDenied .timeout ∧ v.voids = some r.sequence
  := by
  obtain ⟨before, after, hl⟩ := List.append_of_mem hv
  obtain ⟨-, hdecision, r, hr, hvoids⟩ := h before _ after hl
  obtain ⟨before, rfl⟩ := List.getLast?_eq_some_iff.mp hr
  use before, r, after
  constructor
  · rw [hl]
    simp
  · exact ⟨hdecision, hvoids⟩

/-- Only a record that makes another one void names a record. -/
theorem exists_void_of_voids (h : Written first l) {a : Appending} (ha : a ∈ l)
    (hvoids : a.written.voids ≠ none) :
  ∃ x v, a = .void x v
  := by
  cases a with
  | record x r =>
    obtain ⟨before, after, hl⟩ := List.append_of_mem ha
    exact absurd (h before _ after hl).2.2 hvoids
  | void x v => use x, v

/-- Numbers do not come again in a trail that is not too long. -/
theorem eq_of_sequence_eq (h : Written first l) (hlength : l.length ≤ UInt64.size)
    {before before' after after' : List Appending} {a a' : Appending}
    (hl : l = before ++ a :: after) (hl' : l = before' ++ a' :: after')
    (hseq : a.written.sequence = a'.written.sequence) :
  a = a'
  := by
  rw [h.sequence_eq hl, h.sequence_eq hl'] at hseq
  have hlt : before.length < UInt64.size := by
    have := congrArg List.length hl
    simp only [List.length_append, List.length_cons] at this
    omega
  have hlt' : before'.length < UInt64.size := by
    have := congrArg List.length hl'
    simp only [List.length_append, List.length_cons] at this
    omega
  have hlen : before.length = before'.length := by
    have hnum := congrArg UInt64.toNat ((UInt64.add_right_inj first).mp hseq)
    rwa [UInt64.toNat_ofNat_of_lt' hlt, UInt64.toNat_ofNat_of_lt' hlt'] at hnum
  obtain ⟨-, hcons⟩ := List.append_inj (hl.symm.trans hl') hlen
  apply (List.cons.inj hcons).1

/-- A record that is not made void by the one behind it is not named by any record. -/
theorem voids_ne (h : Written first l) (hlength : l.length ≤ UInt64.size) {x : Submission}
    {r : AuditRecord} (hr : .record x r ∈ l) (hnot : ∀ v, .void x v ∉ l) :
  ∀ a ∈ l, a.written.voids ≠ some r.sequence
  := by
  intro a ha hvoids
  obtain ⟨y, v, rfl⟩ := h.exists_void_of_voids ha (by rw [hvoids]; simp)
  obtain ⟨before, r', after, hl, -, hnames⟩ := h.exists_of_void ha
  obtain ⟨before', after', hl'⟩ := List.append_of_mem hr
  rw [List.append_assoc, List.cons_append] at hl
  have hnumbers : r'.sequence = r.sequence := by
    apply Option.some.inj
    rw [← hnames]
    apply hvoids
  have heq := h.eq_of_sequence_eq hlength hl hl' hnumbers
  cases heq
  apply hnot v ha

end Written
end Federation
