import Federation.Audit.Writer
import Federation.Evaluate

/-!
# The audit writer in time

A trail takes some milliseconds to take a record, and can be switched off; whether it
takes a record is decided at the end of that time.  An `AuditTimeline` is the writer
with such a trail and a clock.  It moves only when somebody waits: `waitUntil` lets time
pass, and `await` waits for what the writer says about a submission, up to a deadline.
What would happen at the very instant at which a waiting ends happens after it.
-/

namespace Federation

/-- The audit writer with a clock. -/
structure AuditTimeline where
  /-- The writer and the trail. -/
  writer : AuditWriter
  /-- Whether the trail takes records. -/
  available : Bool := true
  /-- The milliseconds that the trail takes for a record. -/
  delay : Nat := 0
  /-- The milliseconds that have passed. -/
  clock : Nat := 0
  /-- When the trail will have taken or refused what is being appended. -/
  due : Nat := 0
  /-- What tells the next call from others. -/
  nextId : Nat := 0

namespace AuditTimeline

/-- Whether the trail takes a record. -/
def answer (t : AuditTimeline) : Except AuditError Unit :=
  if t.available then .ok () else .error (.unavailable "memory sink switched off")

/-- When the writer has its next step to make, if it has one. -/
def nextStep? (t : AuditTimeline) : Option Nat :=
  match t.writer.appending, t.writer.waiting with
  | some _, _ => some t.due
  | none, _ :: _ => some t.clock
  | none, [] => none

/-- Makes the next step of the writer; what a submitter is told. -/
def step (t : AuditTimeline) (now : Instant) : AuditTimeline × Option (Nat × Acknowledgement) :=
  match t.writer.appending with
  | none => ({ t with writer := t.writer.take now, due := t.clock + t.delay }, none)
  | some _ =>
    let (writer, told) := t.writer.finish now t.answer
    let clock := max t.clock t.due
    ({ t with writer := writer, clock := clock, due := clock + t.delay }, told)

/-- Makes the steps before an instant, up to the first one at which the submitter `id`
is told something. -/
def run (now : Instant) (id : Option Nat) (deadline : Nat) :
    Nat → AuditTimeline → AuditTimeline × Option Acknowledgement
  | 0, t => (t, none)
  | fuel + 1, t =>
    if t.nextStep?.any (· < deadline) then
      match t.step now with
      | (t, some (i, a)) => if id = some i then (t, some a) else run now id deadline fuel t
      | (t, none) => run now id deadline fuel t
    else ({ t with clock := max t.clock deadline }, none)

/-- Lets time pass. -/
def waitUntil (t : AuditTimeline) (now : Instant) (deadline : Nat) : AuditTimeline :=
  (run now none deadline (t.writer.remaining + 1) t).1

/-- Waits for what the writer says about a submission, and gives up at a deadline. -/
def await (t : AuditTimeline) (now : Instant) (id deadline : Nat) :
    AuditTimeline × Option Acknowledgement :=
  match run now (some id) deadline (t.writer.remaining + 1) t with
  | (t, some a) => (t, some a)
  | (t, none) => ({ t with writer := t.writer.abandon id }, none)

/-- A call comes and goes that has nothing to record. -/
def skip (t : AuditTimeline) : AuditTimeline := { t with nextId := t.nextId + 1 }

/-- Records a decision: what the caller gets by a deadline. -/
def record (t : AuditTimeline) (now : Instant) (d : Decision) (deadline : Nat) :
    AuditTimeline × Except Interruption Decision :=
  let id := t.nextId
  let t := { t with writer := t.writer.submit ⟨id, d⟩, nextId := id + 1 }
  match t.await now id deadline with
  | (t, some a) => (t, .ok (a.decision d))
  | (t, none) => (t, .error .deadlineExceeded)

end AuditTimeline
end Federation
