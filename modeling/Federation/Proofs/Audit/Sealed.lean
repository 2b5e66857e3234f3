import Federation.Proofs.Audit.Chain

/-!
# What a chain seals

An `AuditEntry` is what a record says apart from its place in a trail.  A chain seals
entries one after another, each at its place, and moves past the records that it makes
(`AuditChain.sealEntries`).  A list of records is sealed when some chain makes just these
records from what they say.

Checking a list comes to the same as sealing it again: main statement
`verifyChain_iff_isSealed`, which also says where a list that is refused stops being
sealed.  Sequences are compared as they are counted on, modulo `2 ^ 64`, so no bound on them
is needed.
-/

namespace Federation

/-- What a record says apart from its place in a trail. -/
structure AuditEntry where
  recordedAt : Instant
  decision : Decision
  /-- The position of the record that this one makes void. -/
  voids : Option UInt64

/-- What a record says. -/
def AuditRecord.entry (r : AuditRecord) : AuditEntry := ⟨r.recordedAt, r.decision, r.voids⟩

namespace AuditChain

/-- The record that an entry makes at the place of a chain. -/
def sealEntry (c : AuditChain) (e : AuditEntry) : AuditRecord :=
  c.record ⟨c.nextSequence, e.recordedAt, e.decision, e.voids⟩

/-- The records that entries make one after another. -/
def sealEntries : AuditChain → List AuditEntry → List AuditRecord
  | _, [] => []
  | c, e :: rest => c.sealEntry e :: (c.advance (c.sealEntry e)).sealEntries rest

/-- The record of a decision is a sealed entry that makes nothing void. -/
theorem nextRecord_eq_sealEntry (c : AuditChain) (recordedAt : Instant) (d : Decision) :
  c.nextRecord recordedAt d = c.sealEntry ⟨recordedAt, d, none⟩
  := rfl

/-- The record that makes another one void is a sealed entry, too. -/
theorem nextVoid_eq_sealEntry (c : AuditChain) (recordedAt : Instant) (r : AuditRecord) :
  c.nextVoid recordedAt r
    = c.sealEntry ⟨recordedAt, r.decision.toDenied .timeout, some r.sequence⟩
  := rfl

/-- A chain makes a record again from what it says exactly when it stands at the place of
the record and the hash of the record is right. -/
theorem sealEntry_eq_iff {c : AuditChain} {r : AuditRecord} :
  c.sealEntry r.entry = r ↔ c = ⟨r.sequence, r.prevHash⟩ ∧ r.hashOk = true
  := by
  obtain ⟨nextSequence, head⟩ := c
  obtain ⟨⟨sequence, recordedAt, decision, voids⟩, prevHash, hash⟩ := r
  simp only [sealEntry, record, AuditRecord.entry, AuditRecord.hashOk, AuditRecord.mk.injEq,
    AuditBody.mk.injEq, AuditChain.mk.injEq, and_true, decide_eq_true_eq]
  constructor
  · rintro ⟨rfl, rfl, hhash⟩
    exact ⟨⟨rfl, rfl⟩, hhash⟩
  · rintro ⟨⟨rfl, rfl⟩, hhash⟩
    exact ⟨rfl, rfl, hhash⟩

/-- The chain after a record stands at the place of the next one exactly when that one
follows. -/
theorem resume_eq_iff {previous r : AuditRecord} :
  resume (some previous) = ⟨r.sequence, r.prevHash⟩ ↔ r.follows previous = true
  := by
  rw [AuditRecord.follows_iff, resume, AuditChain.mk.injEq, eq_comm, @eq_comm _ (some _)]

/-- Records are what a chain makes from what they say exactly when the first one is and the
chain after it makes the others. -/
theorem sealEntries_cons_eq_iff {c : AuditChain} {r : AuditRecord} {l : List AuditRecord} :
  c.sealEntries ((r :: l).map AuditRecord.entry) = r :: l
    ↔ c.sealEntry r.entry = r ∧ (resume (some r)).sealEntries (l.map AuditRecord.entry) = l
  := by
  rw [List.map_cons, sealEntries, List.cons.injEq]
  constructor
  · rintro ⟨hr, hl⟩
    rw [hr] at hl
    exact ⟨hr, hl⟩
  · rintro ⟨hr, hl⟩
    refine ⟨hr, ?_⟩
    rw [hr]
    exact hl

end AuditChain

/-- Whether records are what some chain makes, one after another, from what they say. -/
def IsSealed (l : List AuditRecord) : Prop :=
  ∃ c : AuditChain, c.sealEntries (l.map AuditRecord.entry) = l

/-! ### Checking and sealing -/

/-- Records pass the check after another one exactly when the chain after that one makes
them. -/
theorem verifyAfter_some_iff {previous : AuditRecord} {l : List AuditRecord} :
  verifyAfter (some previous) l = .ok ()
    ↔ (AuditChain.resume (some previous)).sealEntries (l.map AuditRecord.entry) = l
  := by
  induction l generalizing previous with
  | nil =>
    constructor
    · intro _
      rfl
    · intro _
      rfl
  | cons r l ih =>
    rw [verifyAfter_cons_iff, AuditChain.sealEntries_cons_eq_iff, AuditChain.sealEntry_eq_iff,
      AuditChain.resume_eq_iff, ih, Option.all_some, and_assoc]

/-- A list passes the check exactly when it is sealed. -/
theorem verifyChain_eq_ok_iff {l : List AuditRecord} :
  verifyChain l = .ok () ↔ IsSealed l
  := by
  cases l with
  | nil =>
    constructor
    · intro _
      exact ⟨.resume none, rfl⟩
    · intro _
      rfl
  | cons r l =>
    rw [verifyChain, verifyAfter_cons_iff, verifyAfter_some_iff]
    constructor
    · rintro ⟨-, hhash, hl⟩
      use ⟨r.sequence, r.prevHash⟩
      apply AuditChain.sealEntries_cons_eq_iff.mpr
      exact ⟨AuditChain.sealEntry_eq_iff.mpr ⟨rfl, hhash⟩, hl⟩
    · rintro ⟨c, hc⟩
      obtain ⟨hr, hl⟩ := AuditChain.sealEntries_cons_eq_iff.mp hc
      exact ⟨rfl, (AuditChain.sealEntry_eq_iff.mp hr).2, hl⟩

/-- A check that fails names the first record with which the records up to it do not
pass. -/
theorem exists_of_verifyAfter_eq_error {previous : Option AuditRecord} {l : List AuditRecord}
    {e : AuditError} (h : verifyAfter previous l = .error e) :
  ∃ before r after, l = before ++ r :: after ∧ e = .chainBroken r.sequence
    ∧ verifyAfter previous before = .ok () ∧ verifyAfter previous (before ++ [r]) ≠ .ok ()
  := by
  induction l generalizing previous with
  | nil => cases h
  | cons r l ih =>
    rw [verifyAfter] at h
    split at h
    · rename_i hr
      obtain ⟨hfollows, hhash⟩ := Bool.and_eq_true_iff.mp hr
      obtain ⟨before, broken, after, rfl, he, hbefore, hbroken⟩ := ih h
      refine ⟨r :: before, broken, after, rfl, he, ?_, ?_⟩
      · exact verifyAfter_cons_iff.mpr ⟨hfollows, hhash, hbefore⟩
      · intro hok
        apply hbroken
        apply (verifyAfter_cons_iff.mp hok).2.2
    · rename_i hr
      cases h
      refine ⟨[], r, l, rfl, rfl, rfl, ?_⟩
      intro hok
      obtain ⟨hfollows, hhash, -⟩ := verifyAfter_cons_iff.mp hok
      apply hr
      rw [hfollows, hhash]
      rfl

/-- A list is accepted exactly when it is sealed.  Otherwise there is a first record with
which the records up to it are not sealed, and the error names its sequence. -/
theorem verifyChain_iff_isSealed (l : List AuditRecord) :
  (verifyChain l = .ok () ↔ IsSealed l)
    ∧ (IsSealed l ∨ ∃ i, ∃ h : i < l.length,
      verifyChain l = .error (.chainBroken l[i].sequence)
        ∧ ¬ IsSealed (l.take (i + 1)) ∧ ∀ j < i, IsSealed (l.take (j + 1)))
  := by
  refine ⟨verifyChain_eq_ok_iff, ?_⟩
  cases hl : verifyChain l with
  | ok u => exact .inl (verifyChain_eq_ok_iff.mp hl)
  | error e =>
    right
    obtain ⟨before, r, after, rfl, rfl, hbefore, hbroken⟩ := exists_of_verifyAfter_eq_error hl
    have hlength : before.length < (before ++ r :: after).length := by simp
    refine ⟨before.length, hlength, ?_, ?_, ?_⟩
    · rw [List.getElem_append_right (Nat.le_refl _)]
      simp
    · have htake : (before ++ r :: after).take (before.length + 1) = before ++ [r] := by
        rw [List.append_cons]
        apply List.take_left'
        rw [List.length_append, List.length_singleton]
      rw [htake, ← verifyChain_eq_ok_iff]
      exact hbroken
    · intro j hj
      apply verifyChain_eq_ok_iff.mp
      apply verifyChain_of_isPrefix hbefore
      rw [List.take_append_of_le_length (by omega)]
      apply List.take_prefix

end Federation
