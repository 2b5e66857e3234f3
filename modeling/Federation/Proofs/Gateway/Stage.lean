import Federation.Proofs.Audit.Writer
import Federation.Proofs.Gateway.Trail

/-!
# Stages of a submission

Seen from the writer, a submission is at one of seven stages: it is nowhere, it waits in
the channel, its record is being appended, its record was taken, its record is being made
void, it was made void, or the trail refused to have it made void.  `s.At id g` says that
everything that the writer and the trail have of a call is what belongs to the stage `g`.
Stages change only by steps of the writer (`at_take`, `at_finish`) and when a decision is
put into the channel (`at_submit`).
-/

namespace Federation

/-- How far the writer has come with a submission. -/
inductive Stage where
  | absent
  | queued (x : Submission)
  | writing (x : Submission) (r : AuditRecord)
  | recorded (x : Submission) (r : AuditRecord)
  | voiding (x : Submission) (r v : AuditRecord)
  | voided (x : Submission) (r v : AuditRecord)
  | unvoided (x : Submission) (r : AuditRecord)

namespace Traffic

variable {s : Traffic} {id : Nat}

/-- What a call has in the channel. -/
def queuedFor (s : Traffic) (id : Nat) : List Submission := s.writer.waiting.filter (·.id = id)

/-- What is being appended for a call. -/
def appendingFor (s : Traffic) (id : Nat) : Option Appending :=
  s.writer.appending.filter (·.submission.id = id)

/-- What the trail has taken for a call. -/
def takenFor (s : Traffic) (id : Nat) : List Appending := s.taken.filter (·.submission.id = id)

/-- A call has this much in the channel, under way and on the trail. -/
def Has (s : Traffic) (id : Nat) (queued : List Submission) (appending : Option Appending)
    (taken : List Appending) : Prop :=
  s.queuedFor id = queued ∧ s.appendingFor id = appending ∧ s.takenFor id = taken

/-- The submission of a call is at a stage. -/
def At (s : Traffic) (id : Nat) : Stage → Prop
  | .absent => s.Has id [] none []
  | .queued x => s.Has id [x] none []
  | .writing x r => s.Has id [] (some (.record x r)) []
  | .recorded x r => s.Has id [] none [.record x r]
  | .voiding x r v => s.Has id [] (some (.void x v)) [.record x r]
  | .voided x r v => s.Has id [] none [.record x r, .void x v]
  | .unvoided x r => s.Has id [] none [.record x r] ∧ id ∈ s.unvoided

/-- Steps that move nothing of a call leave it at its stage. -/
theorem At.congr {s' : Traffic} {g : Stage} (h : s.At id g)
    (hqueued : s'.queuedFor id = s.queuedFor id)
    (happending : s'.appendingFor id = s.appendingFor id)
    (htaken : s'.takenFor id = s.takenFor id) (hunvoided : id ∈ s.unvoided → id ∈ s'.unvoided) :
  s'.At id g
  := by
  cases g <;> simp only [At, Has, hqueued, happending, htaken] at h ⊢
  case unvoided => exact ⟨h.1, hunvoided h.2⟩
  all_goals exact h

theorem At.of_eq {s' : Traffic} {g : Stage} (h : s.At id g)
    (hwaiting : s'.writer.waiting = s.writer.waiting)
    (happending : s'.writer.appending = s.writer.appending) (htaken : s'.taken = s.taken)
    (hunvoided : s'.unvoided = s.unvoided) :
  s'.At id g
  := by
  apply h.congr
  · rw [queuedFor, hwaiting, queuedFor]
  · rw [appendingFor, happending, appendingFor]
  · rw [takenFor, htaken, takenFor]
  · rw [hunvoided]
    intro hmem
    apply hmem

theorem At.put {g : Stage} (h : s.At id g) (other : Nat) (c : Call) :
  (s.put other c).At id g
  := by
  apply h.of_eq rfl rfl rfl rfl

/-- A call puts a decision into the channel. -/
theorem at_submit (h : s.At id .absent) (calls : Nat → Option Call) (d : Decision) :
  { s with calls := calls, writer := s.writer.submit ⟨id, d⟩ }.At id (.queued ⟨id, d⟩)
  := by
  obtain ⟨hqueued, happending, htaken⟩ := h
  refine ⟨?_, happending, htaken⟩
  simp only [queuedFor] at hqueued
  simp [queuedFor, AuditWriter.submit, hqueued]

/-- Another call puts a decision into the channel. -/
theorem At.submit_of_ne {g : Stage} (h : s.At id g) {other : Nat} (hne : other ≠ id)
    (calls : Nat → Option Call) (d : Decision) :
  { s with calls := calls, writer := s.writer.submit ⟨other, d⟩ }.At id g
  := by
  apply h.congr
  · simp [queuedFor, AuditWriter.submit, hne]
  · rfl
  · rfl
  · intro hmem
    apply hmem

/-- What a step of the writer can do with a submission. -/
inductive Moved (s s' : Traffic) (id : Nat) : Stage → Prop where
  /-- It stays where it is. -/
  | still {g : Stage} (h : s'.At id g) (hcalls : s'.calls id = s.calls id) : Moved s s' id g
  /-- It is dropped, for its submitter has given up. -/
  | dropped {x : Submission} (hgiven : id ∈ s.writer.abandoned) (h : s'.At id .absent)
      (hcalls : s'.calls id = s.calls id) : Moved s s' id (.queued x)
  /-- Its record is begun. -/
  | begun {x : Submission} {r : AuditRecord} (h : s'.At id (.writing x r))
      (hcalls : s'.calls id = s.calls id) : Moved s s' id (.queued x)
  /-- Its record is taken, and its submitter is told. -/
  | recorded {x : Submission} {r : AuditRecord} (hwaits : id ∉ s.writer.abandoned)
      (h : s'.At id (.recorded x r))
      (hcalls : s'.calls id = (s.calls id).map (·.hear (.recorded r))) :
    Moved s s' id (.writing x r)
  /-- Its record is refused, and its submitter is told. -/
  | refused {x : Submission} {r : AuditRecord} {e : AuditError}
      (hwaits : id ∉ s.writer.abandoned) (h : s'.At id .absent)
      (hcalls : s'.calls id = (s.calls id).map (·.hear (.refused e))) :
    Moved s s' id (.writing x r)
  /-- Its record is taken, but its submitter has given up. -/
  | late {x : Submission} {r v : AuditRecord} (hgiven : id ∈ s.writer.abandoned)
      (h : s'.At id (.voiding x r v)) (hcalls : s'.calls id = s.calls id) :
    Moved s s' id (.writing x r)
  /-- Its record is refused, and its submitter has given up. -/
  | lost {x : Submission} {r : AuditRecord} (hgiven : id ∈ s.writer.abandoned)
      (h : s'.At id .absent) (hcalls : s'.calls id = s.calls id) : Moved s s' id (.writing x r)
  /-- Its record is made void. -/
  | voided {x : Submission} {r v : AuditRecord} (h : s'.At id (.voided x r v))
      (hcalls : s'.calls id = s.calls id) : Moved s s' id (.voiding x r v)
  /-- The trail refuses to have its record made void. -/
  | unvoided {x : Submission} {r v : AuditRecord} (h : s'.At id (.unvoided x r))
      (hcalls : s'.calls id = s.calls id) : Moved s s' id (.voiding x r v)

/-- A step that moves nothing of a call lets its submission stay where it is. -/
theorem Moved.of_same {s' : Traffic} {g : Stage} (h : s.At id g)
    (hqueued : s'.queuedFor id = s.queuedFor id)
    (happending : s'.appendingFor id = s.appendingFor id)
    (htaken : s'.takenFor id = s.takenFor id) (hunvoided : id ∈ s.unvoided → id ∈ s'.unvoided)
    (hcalls : s'.calls id = s.calls id) :
  Moved s s' id g
  := by
  apply Moved.still _ hcalls
  apply h.congr hqueued happending htaken hunvoided

/-! ### The writer takes a submission -/

/-- A free writer drops the first submission of the channel, if its submitter has given
up, and otherwise begins to append a record of it. -/
theorem take_cases (w : AuditWriter) (now : Instant) :
  w.take now = w
    ∨ ∃ x rest, w.appending = none ∧ w.waiting = x :: rest
      ∧ (x.id ∈ w.abandoned ∧ w.take now = { w with waiting := rest }
        ∨ x.id ∉ w.abandoned ∧ w.take now = { w with
            waiting := rest
            appending := some (.record x (w.chain.nextRecord now x.decision)) })
  := by
  obtain happending | ⟨a, happending⟩ := Option.eq_none_or_eq_some w.appending
  · cases hwaiting : w.waiting with
    | nil =>
      left
      simp [AuditWriter.take, hwaiting]
    | cons x rest =>
      right
      use x, rest, happending, rfl
      by_cases hid : x.id ∈ w.abandoned
      · left
        exact ⟨hid, AuditWriter.take_of_mem happending hwaiting hid now⟩
      · right
        exact ⟨hid, AuditWriter.take_of_not_mem happending hwaiting hid now⟩
  · left
    simp [AuditWriter.take, happending]

/-- A submission in the channel is at the stage of waiting there. -/
theorem At.eq_queued {g : Stage} (h : s.At id g) {x : Submission} {rest : List Submission}
    (hqueued : s.queuedFor id = x :: rest) :
  g = .queued x ∧ rest = [] ∧ s.takenFor id = []
  := by
  cases g <;> simp only [At, Has, hqueued] at h <;> simp_all

/-- What becomes of a submission when the writer takes one. -/
theorem moved_take {g : Stage} (h : s.At id g) (now : Instant) :
  Moved s { s with writer := s.writer.take now } id g
  := by
  rcases take_cases s.writer now with hsame | ⟨x, rest, happending, hwaiting, htake⟩
  · rw [hsame]
    apply Moved.still h rfl
  by_cases hid : x.id = id
  · have hqueued : s.queuedFor id = x :: rest.filter (·.id = id) := by
      simp [queuedFor, hwaiting, hid]
    obtain ⟨rfl, hrest, htaken⟩ := h.eq_queued hqueued
    rcases htake with ⟨hgiven, htake⟩ | ⟨-, htake⟩
    · rw [htake]
      refine Moved.dropped (hid ▸ hgiven) ?_ rfl
      refine ⟨hrest, ?_, htaken⟩
      simp [appendingFor, happending]
    · rw [htake]
      refine Moved.begun (r := s.writer.chain.nextRecord now x.decision) ?_ rfl
      refine ⟨hrest, ?_, htaken⟩
      simp [appendingFor, Appending.submission, hid]
  · have hqueued : s.queuedFor id = rest.filter (·.id = id) := by
      simp [queuedFor, hwaiting, hid]
    rcases htake with ⟨-, htake⟩ | ⟨-, htake⟩
    · rw [htake]
      refine Moved.of_same h hqueued.symm rfl rfl (fun hmem => hmem) rfl
    · rw [htake]
      refine Moved.of_same h hqueued.symm ?_ rfl (fun hmem => hmem) rfl
      simp [appendingFor, happending, Appending.submission, hid]

theorem abandoned_take (w : AuditWriter) (now : Instant) :
  (w.take now).abandoned = w.abandoned
  := by
  rcases take_cases w now with hsame | ⟨x, rest, -, -, ⟨-, htake⟩ | ⟨-, htake⟩⟩
  · rw [hsame]
  · rw [htake]
  · rw [htake]

/-! ### The trail takes or refuses a record -/

section Finish

variable {x : Submission} {r : AuditRecord} {now : Instant}

theorem finish_of_none (h : s.writer.appending = none) (now : Instant)
    (answer : Except AuditError Unit) :
  s.finish now answer = s
  := by
  simp [finish, AuditWriter.finish, h, tell]

theorem finish_record_ok_of_mem (h : s.writer.appending = some (.record x r))
    (hgiven : x.id ∈ s.writer.abandoned) :
  s.finish now (.ok ()) = { s with
    writer := { s.writer.append r with
      appending := some (.void x ((s.writer.append r).chain.nextVoid now r)) }
    taken := s.taken ++ [.record x r] }
  := by
  simp [finish, AuditWriter.finish_record_ok_of_mem h hgiven, h, tell]

theorem finish_record_ok_of_not_mem (h : s.writer.appending = some (.record x r))
    (hwaits : x.id ∉ s.writer.abandoned) :
  s.finish now (.ok ()) = { s with
    writer := s.writer.append r
    calls := s.tell (some (x.id, .recorded r))
    taken := s.taken ++ [.record x r] }
  := by
  simp [finish, AuditWriter.finish_record_ok_of_not_mem h hwaits, h]

theorem finish_record_error_of_mem (h : s.writer.appending = some (.record x r))
    (hgiven : x.id ∈ s.writer.abandoned) (e : AuditError) :
  s.finish now (.error e) = { s with writer := { s.writer with appending := none } }
  := by
  simp [finish, AuditWriter.finish_record_error_of_mem h hgiven, h, tell]

theorem finish_record_error_of_not_mem (h : s.writer.appending = some (.record x r))
    (hwaits : x.id ∉ s.writer.abandoned) (e : AuditError) :
  s.finish now (.error e) = { s with
    writer := { s.writer with appending := none }
    calls := s.tell (some (x.id, .refused e)) }
  := by
  simp [finish, AuditWriter.finish_record_error_of_not_mem h hwaits, h]

theorem finish_void_ok (h : s.writer.appending = some (.void x r)) :
  s.finish now (.ok ()) = { s with
    writer := s.writer.append r
    taken := s.taken ++ [.void x r] }
  := by
  simp [finish, AuditWriter.finish_void_ok h, h, tell]

theorem finish_void_error (h : s.writer.appending = some (.void x r)) (e : AuditError) :
  s.finish now (.error e) = { s with
    writer := { s.writer with appending := none }
    unvoided := x.id :: s.unvoided }
  := by
  simp [finish, AuditWriter.finish_void_error h, h, tell]

end Finish

theorem abandoned_finish (s : Traffic) (now : Instant) (answer : Except AuditError Unit) :
  (s.finish now answer).writer.abandoned = s.writer.abandoned
  := by
  unfold finish AuditWriter.finish
  dsimp only
  split
  · rfl
  · split <;> rfl
  · split <;> rfl
  · rfl
  · rfl

/-- What is being appended for a call belongs to its stage. -/
theorem At.of_appending {g : Stage} (h : s.At id g) {a : Appending}
    (happending : s.writer.appending = some a) (hid : a.submission.id = id) :
  s.queuedFor id = []
    ∧ ((∃ x r, a = .record x r ∧ g = .writing x r ∧ s.takenFor id = [])
      ∨ ∃ x r v, a = .void x v ∧ g = .voiding x r v ∧ s.takenFor id = [.record x r])
  := by
  have hfor : s.appendingFor id = some a := by
    simp [appendingFor, happending, hid]
  cases g with
  | writing x r =>
    obtain ⟨hqueued, happending, htaken⟩ := h
    rw [hfor] at happending
    cases happending
    refine ⟨hqueued, .inl ⟨x, r, rfl, rfl, htaken⟩⟩
  | voiding x r v =>
    obtain ⟨hqueued, happending, htaken⟩ := h
    rw [hfor] at happending
    cases happending
    refine ⟨hqueued, .inr ⟨x, r, v, rfl, rfl, htaken⟩⟩
  | _ => simp [At, Has, hfor] at h

/-- What becomes of the submission of another call when the trail takes or refuses a
record. -/
theorem moved_finish_of_ne {g : Stage} (h : s.At id g) {a : Appending}
    (happending : s.writer.appending = some a) (hid : a.submission.id ≠ id) (now : Instant)
    (answer : Except AuditError Unit) :
  Moved s (s.finish now answer) id g
  := by
  have hnone : s.appendingFor id = none := by
    simp [appendingFor, happending, hid]
  have htaken : (s.taken ++ [a]).filter (fun b => b.submission.id = id) = s.takenFor id := by
    simp [takenFor, hid]
  cases a with
  | record x r =>
    rw [Appending.submission_record] at hid
    cases answer with
    | ok =>
      by_cases hgiven : x.id ∈ s.writer.abandoned
      · rw [finish_record_ok_of_mem happending hgiven]
        refine Moved.of_same h rfl ?_ htaken (fun hmem => hmem) rfl
        rw [hnone]
        simp [appendingFor, hid]
      · rw [finish_record_ok_of_not_mem happending hgiven]
        refine Moved.of_same h rfl hnone.symm htaken (fun hmem => hmem) ?_
        simp [tell, hid.symm]
    | error e =>
      by_cases hgiven : x.id ∈ s.writer.abandoned
      · rw [finish_record_error_of_mem happending hgiven]
        refine Moved.of_same h rfl hnone.symm rfl (fun hmem => hmem) rfl
      · rw [finish_record_error_of_not_mem happending hgiven]
        refine Moved.of_same h rfl hnone.symm rfl (fun hmem => hmem) ?_
        simp [tell, hid.symm]
  | void x v =>
    cases answer with
    | ok =>
      rw [finish_void_ok happending]
      refine Moved.of_same h rfl hnone.symm htaken (fun hmem => hmem) rfl
    | error e =>
      rw [finish_void_error happending]
      refine Moved.of_same h rfl hnone.symm rfl (fun hmem => ?_) rfl
      apply List.mem_cons_of_mem _ hmem

/-- What becomes of a submission when the trail takes or refuses a record. -/
theorem moved_finish {g : Stage} (h : s.At id g) (now : Instant)
    (answer : Except AuditError Unit) :
  Moved s (s.finish now answer) id g
  := by
  cases happending : s.writer.appending with
  | none =>
    rw [finish_of_none happending]
    apply Moved.still h rfl
  | some a =>
    by_cases hid : a.submission.id = id
    · obtain ⟨hqueued, ⟨x, r, rfl, rfl, htaken⟩ | ⟨x, r, v, rfl, rfl, htaken⟩⟩ :=
        h.of_appending happending hid
      · rw [Appending.submission_record] at hid
        have hrecord : (s.taken ++ [Appending.record x r]).filter (fun b => b.submission.id = id)
            = s.takenFor id ++ [Appending.record x r] := by
          simp [takenFor, hid]
        rw [htaken] at hrecord
        cases answer with
        | ok =>
          by_cases hgiven : x.id ∈ s.writer.abandoned
          · rw [finish_record_ok_of_mem happending hgiven]
            refine Moved.late (v := (s.writer.append r).chain.nextVoid now r) (hid ▸ hgiven)
              ⟨hqueued, ?_, hrecord⟩ rfl
            simp [appendingFor, hid]
          · rw [finish_record_ok_of_not_mem happending hgiven]
            refine Moved.recorded (hid ▸ hgiven) ⟨hqueued, rfl, hrecord⟩ ?_
            simp [tell, hid]
        | error e =>
          by_cases hgiven : x.id ∈ s.writer.abandoned
          · rw [finish_record_error_of_mem happending hgiven]
            refine Moved.lost (hid ▸ hgiven) ⟨hqueued, rfl, htaken⟩ rfl
          · rw [finish_record_error_of_not_mem happending hgiven]
            refine Moved.refused (e := e) (hid ▸ hgiven) ⟨hqueued, rfl, htaken⟩ ?_
            simp [tell, hid]
      · rw [Appending.submission_void] at hid
        have hvoid : (s.taken ++ [Appending.void x v]).filter (fun b => b.submission.id = id)
            = s.takenFor id ++ [Appending.void x v] := by
          simp [takenFor, hid]
        rw [htaken] at hvoid
        cases answer with
        | ok =>
          rw [finish_void_ok happending]
          refine Moved.voided ⟨hqueued, rfl, hvoid⟩ rfl
        | error e =>
          rw [finish_void_error happending]
          refine Moved.unvoided ⟨⟨hqueued, rfl, htaken⟩, ?_⟩ rfl
          apply List.mem_cons.mpr (.inl hid.symm)
    · apply moved_finish_of_ne h happending hid

/-! ### The writer comes to rest -/

theorem remaining_take_lt {w : AuditWriter} (happending : w.appending = none)
    (hwaiting : w.waiting ≠ []) (now : Instant) :
  (w.take now).remaining < w.remaining
  := by
  cases hw : w.waiting with
  | nil => exact absurd hw hwaiting
  | cons x rest =>
    rw [AuditWriter.take]
    rw [happending, hw]
    dsimp only
    split
    · simp [AuditWriter.remaining, happending, hw]
    · simp [AuditWriter.remaining, happending, hw]
      omega

theorem remaining_finish_lt {w : AuditWriter} (happending : w.appending ≠ none) (now : Instant)
    (answer : Except AuditError Unit) :
  (w.finish now answer).1.remaining < w.remaining
  := by
  cases ha : w.appending with
  | none => exact absurd ha happending
  | some a =>
    cases a with
    | record x r =>
      cases answer with
      | ok =>
        unfold AuditWriter.finish
        rw [ha]
        dsimp only
        split <;> simp [AuditWriter.remaining, AuditWriter.append, ha]
      | error e =>
        unfold AuditWriter.finish
        rw [ha]
        dsimp only
        split <;> simp [AuditWriter.remaining, ha]
    | void x v =>
      cases answer <;>
        simp [AuditWriter.remaining, AuditWriter.finish, AuditWriter.append, ha]

/-- Nothing is told to a call that has returned. -/
theorem tell_of_returned {c : Call} {o : Except Interruption Decision} {seen : List Appending}
    (hc : s.calls id = some c) (hreturned : c.progress = .returned o seen)
    (told : Option (Nat × Acknowledgement)) :
  s.tell told id = some c
  := by
  cases told with
  | none => apply hc
  | some p =>
    obtain ⟨i, a⟩ := p
    simp only [tell]
    split
    · rw [hc, Option.map_some, Call.hear, hreturned]
    · apply hc

/-- Whatever the trail answers, the writer on its own comes to a point where it has nothing
to do, and no call that has returned notices. -/
theorem exists_rest (depth : Nat) (s : Traffic) (now : Instant)
    (answer : AuditWriter → Except AuditError Unit) :
  ∃ s', Run depth s s' ∧ s'.writer.waiting = [] ∧ s'.writer.appending = none
    ∧ ∀ id c o seen, s.calls id = some c → c.progress = .returned o seen →
      s'.calls id = some c
  := by
  induction hn : s.writer.remaining using Nat.strongRecOn generalizing s with
  | _ n ih =>
    subst hn
    by_cases happending : s.writer.appending = none
    · by_cases hwaiting : s.writer.waiting = []
      · refine ⟨s, .refl, hwaiting, happending, ?_⟩
        intro id c o seen hc _
        apply hc
      · obtain ⟨s', hrun, hrest⟩ :=
          ih _ (remaining_take_lt happending hwaiting now)
            { s with writer := s.writer.take now } rfl
        exact ⟨s', .head (.take now) hrun, hrest⟩
    · have hlt := remaining_finish_lt happending now (answer s.writer)
      obtain ⟨s', hrun, hwaiting, hnone, hcalls⟩ :=
        ih _ hlt (s.finish now (answer s.writer)) rfl
      refine ⟨s', .head (.finish now _) hrun, hwaiting, hnone, ?_⟩
      intro id c o seen hc hreturned
      apply hcalls id c o seen _ hreturned
      apply tell_of_returned hc hreturned

end Traffic
end Federation
