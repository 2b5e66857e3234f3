import Federation.Audit.Record

/-!
# The chain of audit records

An `AuditChain` is where the next record goes: its position and the hash of the record
before it.  `AuditChain.nextRecord` makes that record, and `AuditChain.advance` moves past
it once it has been taken.  `verifyChain` checks that the records of a list follow from
one another; the first record of a list is checked by its hash alone.
-/

namespace Federation

/-- Where the next audit record goes. -/
structure AuditChain where
  /-- The position of the next record. -/
  nextSequence : UInt64
  /-- The hash of the record before it, if there is one. -/
  head : Option String
deriving DecidableEq

namespace AuditChain

/-- The chain after the last record of a trail, or at the start of one. -/
def resume : Option AuditRecord → AuditChain
  | some r => ⟨r.sequence + 1, some r.hash⟩
  | none => ⟨1, none⟩

/-- The record that a body makes at the place of a chain. -/
def record (c : AuditChain) (b : AuditBody) : AuditRecord :=
  ⟨b, c.head, b.computeHash c.head⟩

/-- The next record, with a decision made at an instant. -/
def nextRecord (c : AuditChain) (recordedAt : Instant) (d : Decision) : AuditRecord :=
  c.record ⟨c.nextSequence, recordedAt, d, none⟩

/-- The next record, making void one whose caller did not wait for it. -/
def nextVoid (c : AuditChain) (recordedAt : Instant) (r : AuditRecord) : AuditRecord :=
  c.record ⟨c.nextSequence, recordedAt, r.decision.toDenied .timeout, some r.sequence⟩

/-- The chain after a record. -/
def advance (_ : AuditChain) (r : AuditRecord) : AuditChain := ⟨r.sequence + 1, some r.hash⟩

end AuditChain

/-- Whether a record follows the one before it. -/
def AuditRecord.follows (r previous : AuditRecord) : Bool :=
  r.sequence = previous.sequence + 1 && r.prevHash = some previous.hash

/-- Checks the records after `previous`. -/
def verifyAfter (previous : Option AuditRecord) : List AuditRecord → Except AuditError Unit
  | [] => .ok ()
  | r :: rest =>
    if previous.all r.follows && r.hashOk then verifyAfter (some r) rest
    else .error (.chainBroken r.sequence)

/-- Checks that the records of a list follow from one another. -/
def verifyChain (records : List AuditRecord) : Except AuditError Unit := verifyAfter none records

end Federation
