import Federation.Audit.Chain

/-!
# The audit writer

All decisions are recorded by one writer, which takes submissions in order and appends
a record for each to the end of the trail.  The submitter of a decision may give up at
any time.  What then happens depends on how far the writer has come:

* a submission that was not taken yet is dropped;
* a record that is being appended stays, and is followed by a record that makes it void;
* when the trail refuses a record, nothing is recorded.

A submitter that has not given up is told what became of its decision.
-/

namespace Federation

/-- A decision to be recorded. -/
structure Submission where
  /-- What tells this submission from others. -/
  id : Nat
  decision : Decision

/-- What the writer is appending. -/
inductive Appending where
  | record (s : Submission) (r : AuditRecord)
  /-- A record that makes void the one before it, which is the record of a submission. -/
  | void (s : Submission) (r : AuditRecord)

/-- What a submitter is told. -/
inductive Acknowledgement where
  /-- The decision was recorded. -/
  | recorded (r : AuditRecord)
  /-- The decision was not recorded. -/
  | refused (e : AuditError)

/-- What the caller of a decision gets once it knows what became of it: a decision that was
not recorded becomes a denial. -/
def Acknowledgement.decision (d : Decision) : Acknowledgement → Decision
  | .recorded _ => d
  | .refused _ => d.toDenied .auditUnavailable

/-- The writer and the trail. -/
structure AuditWriter where
  /-- Where the next record goes. -/
  chain : AuditChain
  /-- The trail. -/
  records : List AuditRecord
  /-- The submissions that wait to be taken. -/
  waiting : List Submission := []
  /-- What is being appended. -/
  appending : Option Appending := none
  /-- The submissions whose submitters have given up. -/
  abandoned : List Nat := []

namespace AuditWriter

/-- The writer that goes on with a trail. -/
def resume (records : List AuditRecord) : AuditWriter where
  chain := .resume records.getLast?
  records := records

/-- Submits a decision. -/
def submit (w : AuditWriter) (s : Submission) : AuditWriter :=
  { w with waiting := w.waiting ++ [s] }

/-- The submitter of a decision gives up. -/
def abandon (w : AuditWriter) (id : Nat) : AuditWriter := { w with abandoned := id :: w.abandoned }

/-- Takes the next submission, if the writer is free. -/
def take (w : AuditWriter) (now : Instant) : AuditWriter :=
  match w.appending, w.waiting with
  | none, s :: rest =>
    if w.abandoned.contains s.id then { w with waiting := rest }
    else
      { w with
        waiting := rest
        appending := some (.record s (w.chain.nextRecord now s.decision)) }
  | _, _ => w

/-- A record is at the end of the trail. -/
def append (w : AuditWriter) (r : AuditRecord) : AuditWriter :=
  { w with chain := w.chain.advance r, records := w.records ++ [r], appending := none }

/-- The trail takes or refuses what is being appended; what a submitter is told. -/
def finish (w : AuditWriter) (now : Instant) (answer : Except AuditError Unit) :
    AuditWriter × Option (Nat × Acknowledgement) :=
  match w.appending, answer with
  | none, _ => (w, none)
  | some (.record s r), .ok () =>
    let w := w.append r
    if w.abandoned.contains s.id then
      ({ w with appending := some (.void s (w.chain.nextVoid now r)) }, none)
    else (w, some (s.id, .recorded r))
  | some (.record s _), .error e =>
    let w := { w with appending := none }
    if w.abandoned.contains s.id then (w, none) else (w, some (s.id, .refused e))
  | some (.void _ r), .ok () => (w.append r, none)
  | some (.void ..), .error _ => ({ w with appending := none }, none)

/-- The number of steps after which the writer has nothing left to do, at most. -/
def remaining (w : AuditWriter) : Nat :=
  3 * w.waiting.length + match w.appending with
    | none => 0
    | some (.record ..) => 2
    | some (.void ..) => 1

end AuditWriter
end Federation
