import Federation.Gateway.Call
import Mathlib.Logic.Relation

/-!
# Calls in any order

A `Traffic` is the state of a gateway that serves calls: the audit writer with its trail,
and for each call how far it has come.  `Step depth s s'` says what can happen next when
the writer's channel has room for `depth` submissions: a call arrives, decides or is
interrupted, puts its decision into the channel, finds out what became of it, or gives up
when its deadline expires; the writer takes a submission, or the trail takes or refuses
what is being appended.  Nothing says in which order, at what times, or what the trail answers.

Tasks run at the same time.  A call whose deadline has expired looks for an acknowledgement
before it gives up, but one may be sent in between: the call then gives up all the same
(`Step.miss`), and the writer knows nothing of that.
-/

namespace Federation

/-! ### Calls -/

/-- What a caller asks for. -/
inductive Inquiry where
  /-- A decision on a token; an interruption is denied. -/
  | identified (t : IdentityToken)
  /-- A decision on a token; an interruption is reported. -/
  | cancellable (t : IdentityToken)
  /-- A decision on a text that is to be verified first; an interruption is denied. -/
  | raw

namespace Inquiry

/-- What a request against a set can come to.  The context says when it is interrupted,
and the verification of a text may come to anything. -/
def ComesTo (q : Inquiry) (set : BindingSet) (r : Except Interruption Decision) : Prop :=
  match q with
  | identified t | cancellable t => ∃ ctx, r = evaluate set t ctx
  | raw => ∃ ctx verified, r = decideVerified set ctx verified

/-- What the caller gets. -/
def answer (q : Inquiry) (set : BindingSet) (now : Instant) (r : Except Interruption Decision) :
    Except Interruption Decision :=
  match q with
  | identified t => .ok (Service.settle set now t.issuer t.subject r)
  | cancellable _ => r
  | raw => .ok (Service.settle set now "" "" r)

end Inquiry

/-- The submission that is being recorded or made void. -/
def Appending.submission : Appending → Submission
  | record x _ => x
  | void x _ => x

def Appending.written : Appending → AuditRecord
  | record _ r => r
  | void _ r => r

@[simp]
theorem Appending.submission_record (x : Submission) (r : AuditRecord) :
  (record x r).submission = x
  := rfl

@[simp]
theorem Appending.submission_void (x : Submission) (v : AuditRecord) :
  (void x v).submission = x
  := rfl

/-- How far a call has come. -/
inductive Progress where
  /-- It verifies or evaluates. -/
  | deciding
  /-- It waits for room in the channel. -/
  | sending (d : Decision)
  /-- It waits for the writer, which may have told it something already. -/
  | waiting (d : Decision) (told : Option Acknowledgement)
  /-- It has returned; what the trail had taken by then. -/
  | returned (answer : Except Interruption Decision) (seen : List Appending)

structure Call where
  inquiry : Inquiry
  /-- The set that it is decided against. -/
  set : BindingSet
  progress : Progress

/-- Whether a call still waits: it has not returned, and the writer has told it nothing. -/
def Progress.IsOpen : Progress → Prop
  | deciding | sending _ | waiting _ none => True
  | waiting _ (some _) | returned .. => False

/-- A call is told what became of its submission. -/
def Call.hear (c : Call) (a : Acknowledgement) : Call :=
  match c.progress with
  | .waiting d _ => { c with progress := .waiting d (some a) }
  | _ => c

theorem Call.progress_hear {c : Call} {d : Decision} {told : Option Acknowledgement}
    (h : c.progress = .waiting d told) (a : Acknowledgement) :
  (c.hear a).progress = .waiting d (some a)
  := by
  simp [hear, h]

/-! ### States -/

/-- The state of a gateway that serves calls. -/
structure Traffic where
  writer : AuditWriter
  calls : Nat → Option Call
  /-- What the trail has taken, and for whom, since the start. -/
  taken : List Appending
  /-- The calls whose record the trail refused to have made void. -/
  unvoided : List Nat
  /-- The calls that gave up without seeing what they had been told. -/
  unread : List Nat

namespace Traffic

/-- A gateway that starts with a trail. -/
def start (trail : List AuditRecord) : Traffic where
  writer := .resume trail
  calls := fun _ => none
  taken := []
  unvoided := []
  unread := []

def put (s : Traffic) (id : Nat) (c : Call) : Traffic :=
  { s with calls := fun i => if i = id then some c else s.calls i }

def finishCall (s : Traffic) (id : Nat) (c : Call) (now : Instant)
    (r : Except Interruption Decision) : Traffic :=
  s.put id { c with progress := .returned (c.inquiry.answer c.set now r) s.taken }

/-- The submitter of a decision, if there is one, is told something. -/
def tell (s : Traffic) : Option (Nat × Acknowledgement) → Nat → Option Call
  | none => s.calls
  | some (id, a) => fun i => if i = id then (s.calls i).map (·.hear a) else s.calls i

theorem tell_congr {s s' : Traffic} {id : Nat} (h : s'.calls id = s.calls id)
    (told : Option (Nat × Acknowledgement)) :
  s'.tell told id = s.tell told id
  := by
  cases told with
  | none => apply h
  | some p => simp only [tell, h]

/-- The trail takes or refuses what is being appended. -/
def finish (s : Traffic) (now : Instant) (answer : Except AuditError Unit) : Traffic where
  writer := (s.writer.finish now answer).1
  calls := s.tell (s.writer.finish now answer).2
  taken := match s.writer.appending, answer with
    | some a, .ok () => s.taken ++ [a]
    | _, _ => s.taken
  unvoided := match s.writer.appending, answer with
    | some (.void x _), .error _ => x.id :: s.unvoided
    | _, _ => s.unvoided
  unread := s.unread

/-- What can happen next. -/
inductive Step (depth : Nat) (s : Traffic) : Traffic → Prop where
  | arrive (id : Nat) (h : s.calls id = none) (q : Inquiry) (set : BindingSet) :
    Step depth s (s.put id ⟨q, set, .deciding⟩)
  | decide (id : Nat) {c : Call} {d : Decision} (h : s.calls id = some c)
      (hc : c.progress = .deciding) (hd : c.inquiry.ComesTo c.set (.ok d)) :
    Step depth s (s.put id { c with progress := .sending d })
  | interrupt (id : Nat) {c : Call} {i : Interruption} (h : s.calls id = some c)
      (hc : c.progress = .deciding) (hi : c.inquiry.ComesTo c.set (.error i)) (now : Instant) :
    Step depth s (s.finishCall id c now (.error i))
  | send (id : Nat) {c : Call} {d : Decision} (h : s.calls id = some c)
      (hc : c.progress = .sending d) (hroom : s.writer.waiting.length < max depth 1) :
    Step depth s
      { s.put id { c with progress := .waiting d none } with writer := s.writer.submit ⟨id, d⟩ }
  | receive (id : Nat) {c : Call} {d : Decision} {a : Acknowledgement} (h : s.calls id = some c)
      (hc : c.progress = .waiting d (some a)) (now : Instant) :
    Step depth s (s.finishCall id c now (.ok (a.decision d)))
  /-- A call that still waits gives up. -/
  | expire (id : Nat) {c : Call} (h : s.calls id = some c) (hc : c.progress.IsOpen)
      (now : Instant) :
    Step depth s
      { s.finishCall id c now (.error .deadlineExceeded) with writer := s.writer.abandon id }
  /-- A call gives up that was told something after it had last looked. -/
  | miss (id : Nat) {c : Call} {d : Decision} {a : Acknowledgement} (h : s.calls id = some c)
      (hc : c.progress = .waiting d (some a)) (now : Instant) :
    Step depth s { s.finishCall id c now (.error .deadlineExceeded) with
      writer := s.writer.abandon id
      unread := id :: s.unread }
  | take (now : Instant) :
    Step depth s { s with writer := s.writer.take now }
  | finish (now : Instant) (answer : Except AuditError Unit) :
    Step depth s (s.finish now answer)

/-- What can happen in some steps. -/
def Run (depth : Nat) : Traffic → Traffic → Prop :=
  Relation.ReflTransGen (Step depth)

/-- The states that a gateway can come to that starts with a trail. -/
inductive Reachable (depth : Nat) (trail : List AuditRecord) : Traffic → Prop where
  | start : Reachable depth trail (start trail)
  | step {s s' : Traffic} (h : Reachable depth trail s) (hs : Step depth s s') :
    Reachable depth trail s'

theorem Reachable.run {depth : Nat} {trail : List AuditRecord} {s s' : Traffic}
    (h : Reachable depth trail s) (hrun : Run depth s s') :
  Reachable depth trail s'
  := by
  induction hrun with
  | refl => apply h
  | tail _ hstep ih => apply ih.step hstep

end Traffic
end Federation
