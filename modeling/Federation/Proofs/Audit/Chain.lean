import Federation.Audit.Chain
import Federation.Proofs.Except
import Mathlib.Tactic.Use

/-!
# Chains that verify

`verifyChain` accepts a list with one more record exactly when it accepts the list, the
record follows its last one, and the hash of the record is right (`verifyChain_concat_iff`).
What a chain makes at the end of a list that verifies keeps it so, one record
(`verifyChain_record`) or any number of them (`AuditChain.Makes.verifyChain_append`).
-/

namespace Federation

/-! ### Records in a row -/

theorem verifyAfter_cons_iff {previous : Option AuditRecord} {r : AuditRecord}
    {l : List AuditRecord} :
  verifyAfter previous (r :: l) = .ok ()
    ↔ previous.all r.follows = true ∧ r.hashOk = true ∧ verifyAfter (some r) l = .ok ()
  := by
  rw [verifyAfter]
  split
  · rename_i h
    rw [Bool.and_eq_true] at h
    simp [h]
  · rename_i h
    rw [Bool.and_eq_true] at h
    constructor
    · rintro ⟨⟩
    · rintro ⟨hfollows, hhash, -⟩
      exact absurd ⟨hfollows, hhash⟩ h

/-- A list is checked as its two halves are, the second one from the end of the first one. -/
theorem verifyAfter_append (previous : Option AuditRecord) (l l' : List AuditRecord) :
  verifyAfter previous (l ++ l')
    = verifyAfter previous l >>= fun _ => verifyAfter (l.getLast?.or previous) l'
  := by
  induction l generalizing previous with
  | nil => rfl
  | cons r l ih =>
    have hlast : (r :: l).getLast?.or previous = l.getLast?.or (some r) := by
      rw [List.getLast?_cons]
      cases l.getLast? <;> rfl
    rw [List.cons_append, verifyAfter, verifyAfter, hlast]
    split
    · apply ih
    · rfl

theorem verifyAfter_append_iff {previous : Option AuditRecord} {l l' : List AuditRecord} :
  verifyAfter previous (l ++ l') = .ok ()
    ↔ verifyAfter previous l = .ok () ∧ verifyAfter (l.getLast?.or previous) l' = .ok ()
  := by
  rw [verifyAfter_append, bind_eq_ok_iff]
  constructor
  · rintro ⟨_, hl, hl'⟩
    exact ⟨hl, hl'⟩
  · rintro ⟨hl, hl'⟩
    exact ⟨(), hl, hl'⟩

theorem verifyChain_concat_iff {l : List AuditRecord} {r : AuditRecord} :
  verifyChain (l ++ [r]) = .ok ()
    ↔ verifyChain l = .ok () ∧ l.getLast?.all r.follows = true ∧ r.hashOk = true
  := by
  rw [verifyChain, verifyAfter_append_iff, verifyAfter_cons_iff, Option.or_none, verifyAfter]
  simp only [verifyChain, and_true]

theorem AuditRecord.follows_iff {r previous : AuditRecord} :
  r.follows previous = true
    ↔ r.sequence = previous.sequence + 1 ∧ r.prevHash = some previous.hash
  := by
  simp [follows]

/-! ### What a chain makes -/

theorem AuditChain.hashOk_record (c : AuditChain) (b : AuditBody) :
  (c.record b).hashOk = true
  := by
  simp [AuditRecord.hashOk, record]

theorem AuditChain.follows_record {previous : AuditRecord} {b : AuditBody}
    (hb : b.sequence = (resume (some previous)).nextSequence) :
  ((resume (some previous)).record b).follows previous = true
  := by
  rw [AuditRecord.follows_iff]
  constructor
  · apply hb
  · rfl

/-- A record that is made at the end of a list that verifies may be added to it. -/
theorem verifyChain_record {l : List AuditRecord} (h : verifyChain l = .ok ()) {b : AuditBody}
    (hb : b.sequence = (AuditChain.resume l.getLast?).nextSequence) :
  verifyChain (l ++ [(AuditChain.resume l.getLast?).record b]) = .ok ()
  := by
  rw [verifyChain_concat_iff]
  refine ⟨h, ?_, AuditChain.hashOk_record _ b⟩
  cases hlast : l.getLast? with
  | none => rfl
  | some previous =>
    rw [hlast] at hb
    apply AuditChain.follows_record hb

/-- The records that a chain makes one after another, each of some body. -/
inductive AuditChain.Makes : AuditChain → List AuditRecord → Prop where
  | nil (c : AuditChain) : Makes c []
  | cons {c : AuditChain} {b : AuditBody} {rest : List AuditRecord}
      (hb : b.sequence = c.nextSequence) (hrest : Makes (c.advance (c.record b)) rest) :
    Makes c (c.record b :: rest)

/-- Records that are made one after another at the end of a list that verifies may be added
to it. -/
theorem AuditChain.Makes.verifyChain_append {c : AuditChain} {more : List AuditRecord}
    (h : c.Makes more) {l : List AuditRecord} (hc : c = resume l.getLast?)
    (hl : verifyChain l = .ok ()) :
  verifyChain (l ++ more) = .ok ()
  := by
  induction h generalizing l with
  | nil c =>
    rw [List.append_nil]
    exact hl
  | @cons c b rest hb _ ih =>
    subst hc
    have hnext : (resume l.getLast?).advance ((resume l.getLast?).record b)
        = resume (l ++ [(resume l.getLast?).record b]).getLast? := by
      rw [List.getLast?_concat]
      rfl
    have hverified := ih hnext (verifyChain_record hl hb)
    rwa [List.append_assoc] at hverified

/-- The first records of a list that verifies do so. -/
theorem verifyChain_of_isPrefix {l l' : List AuditRecord} (h : verifyChain l' = .ok ())
    (hl : l <+: l') :
  verifyChain l = .ok ()
  := by
  obtain ⟨rest, rfl⟩ := hl
  exact (verifyAfter_append_iff.mp h).1

end Federation
