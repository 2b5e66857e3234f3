import Federation.Proofs.Evaluate
import Federation.Proofs.Gateway.Stage

/-!
# What the trail shows of a call

A call that returns a decision of its own has exactly one record on the trail, which
holds that decision, was taken before the call returned, and is never made void.  A call
that is denied because its decision could not be recorded has none.  A call that runs out
of time or is interrupted has none, or one record that the very next one makes void,
unless the trail refuses that (`accounted_of_reachable`).  All this holds in whatever
order calls and writer go on, whatever the trail refuses and whenever deadlines expire.

There is one exception.  A call that gives up just after its record was acknowledged never
reads the acknowledgement, but the writer takes it for delivered.  The trail then shows a
grant that the caller did not get, and nothing makes it void (`granted_of_missed`).
-/

namespace Federation

/-! ### Decisions -/

/-- A decision comes from the token and the set, not from the lack of time or of a
trail. -/
def Decision.IsOwn (d : Decision) : Prop :=
  d.verdict ≠ .denied .timeout ∧ d.verdict ≠ .denied .auditUnavailable

theorem Decision.isOwn_unverified (e : TokenError) (revision : UInt64) (now : Instant) :
  (Decision.unverified e revision now).IsOwn
  := by
  cases e <;> simp [unverified, deny, IsOwn]

theorem isOwn_settle (schema : ClaimSchema) (set : BindingSet) (t : IdentityToken)
    (ctx : EvalContext) (candidates : List Binding) :
  (settle schema set t ctx candidates).IsOwn
  := by
  rw [settle]
  dsimp only
  split
  · simp [Decision.IsOwn]
  · split <;> simp [Decision.IsOwn, Decision.deny]
  · simp [Decision.IsOwn, Decision.deny]

theorem isOwn_of_evaluate {set : BindingSet} {t : IdentityToken} {ctx : EvalContext}
    {d : Decision} (h : evaluate set t ctx = .ok d) :
  d.IsOwn
  := by
  rw [evaluate] at h
  split at h
  · cases h
  split at h
  · cases h
    simp [Decision.IsOwn, Decision.deny]
  split at h
  · cases h
    simp [Decision.IsOwn, Decision.deny]
  dsimp only at h
  split at h
  · cases h
    simp [Decision.IsOwn, Decision.deny]
  split at h
  · cases h
  · cases h
    apply isOwn_settle

namespace Inquiry

theorem isOwn_of_comesTo {q : Inquiry} {set : BindingSet} {d : Decision}
    (h : q.ComesTo set (.ok d)) :
  d.IsOwn
  := by
  cases q with
  | identified t =>
    obtain ⟨ctx, hctx⟩ := h
    apply isOwn_of_evaluate hctx.symm
  | cancellable t =>
    obtain ⟨ctx, hctx⟩ := h
    apply isOwn_of_evaluate hctx.symm
  | raw =>
    obtain ⟨ctx, verified, hctx⟩ := h
    cases verified with
    | error e =>
      cases hctx
      apply Decision.isOwn_unverified
    | ok t => apply isOwn_of_evaluate hctx.symm

theorem answer_ok (q : Inquiry) (set : BindingSet) (now : Instant) (d : Decision) :
  q.answer set now (.ok d) = .ok d
  := by
  cases q <;> rfl

end Inquiry

/-- A caller gets no decision in time. -/
def IsLate : Except Interruption Decision → Prop
  | .error _ => True
  | .ok d => d.verdict = .denied .timeout

theorem Inquiry.isLate_answer_error (q : Inquiry) (set : BindingSet) (now : Instant)
    (i : Interruption) :
  IsLate (q.answer set now (.error i))
  := by
  cases q with
  | cancellable t => trivial
  | _ => rfl

/-! ### The trail -/

namespace Traffic

/-- What is on the trail, and what is being appended, follows what was there before. -/
structure Sound (trail : List AuditRecord) (first : UInt64) (s : Traffic) : Prop where
  records_eq : s.writer.records = trail ++ s.taken.map Appending.written
  written : Written first s.taken
  next_eq : s.writer.chain.nextSequence = first + .ofNat s.taken.length
  appending : ∀ a, s.writer.appending = some a → a.Follows first s.taken

namespace Sound

variable {trail : List AuditRecord} {first : UInt64} {s : Traffic}

theorem start (trail : List AuditRecord) :
  Sound trail (AuditChain.resume trail.getLast?).nextSequence (start trail)
  := by
  constructor
  · simp [Traffic.start, AuditWriter.resume]
  · apply Written.nil
  · simp [Traffic.start, AuditWriter.resume]
  · intro a ha
    cases ha

theorem take (h : Sound trail first s) (now : Instant) :
  Sound trail first { s with writer := s.writer.take now }
  := by
  rcases take_cases s.writer now with hsame | ⟨x, rest, happending, -, ⟨-, htake⟩ | ⟨-, htake⟩⟩
  · rw [hsame]
    apply h
  · rw [htake]
    exact ⟨h.records_eq, h.written, h.next_eq, h.appending⟩
  · rw [htake]
    refine ⟨h.records_eq, h.written, h.next_eq, ?_⟩
    intro a ha
    cases ha
    refine ⟨?_, rfl, rfl⟩
    apply h.next_eq

theorem append (h : Sound trail first s) {a : Appending} (ha : a.Follows first s.taken)
    (calls : Nat → Option Call) :
  Sound trail first { s with
    writer := s.writer.append a.written, calls := calls, taken := s.taken ++ [a] }
  := by
  constructor
  · simp [AuditWriter.append, h.records_eq]
  · apply h.written.concat ha
  · have hsequence : a.written.sequence = first + .ofNat s.taken.length := by
      cases a <;> apply ha.1
    simp [AuditWriter.append, AuditChain.advance, hsequence, UInt64.add_assoc]
  · intro b hb
    cases hb

theorem finish (h : Sound trail first s) (now : Instant) (answer : Except AuditError Unit) :
  Sound trail first (s.finish now answer)
  := by
  cases happending : s.writer.appending with
  | none =>
    rw [finish_of_none happending]
    apply h
  | some a =>
    have hfollows := h.appending a happending
    have hnone : Sound trail first { s with writer := { s.writer with appending := none } } := by
      refine ⟨h.records_eq, h.written, h.next_eq, ?_⟩
      intro b hb
      cases hb
    cases a with
    | record x r =>
      cases answer with
      | ok =>
        by_cases hgiven : x.id ∈ s.writer.abandoned
        · rw [finish_record_ok_of_mem happending hgiven]
          have happended := h.append hfollows s.calls
          refine ⟨happended.records_eq, happended.written, happended.next_eq, ?_⟩
          intro a ha
          cases ha
          refine ⟨happended.next_eq, ?_, r, List.getLast?_concat, rfl⟩
          exact congrArg (·.toDenied .timeout) hfollows.2.1
        · rw [finish_record_ok_of_not_mem happending hgiven]
          apply h.append hfollows
      | error e =>
        by_cases hgiven : x.id ∈ s.writer.abandoned
        · rw [finish_record_error_of_mem happending hgiven]
          apply hnone
        · rw [finish_record_error_of_not_mem happending hgiven]
          exact ⟨hnone.records_eq, hnone.written, hnone.next_eq, hnone.appending⟩
    | void x v =>
      cases answer with
      | ok =>
        rw [finish_void_ok happending]
        apply h.append hfollows
      | error e =>
        rw [finish_void_error happending]
        exact ⟨hnone.records_eq, hnone.written, hnone.next_eq, hnone.appending⟩

theorem step (h : Sound trail first s) {depth : Nat} {s' : Traffic} (hs : Step depth s s') :
  Sound trail first s'
  := by
  cases hs with
  | take now => apply h.take
  | finish now answer => apply h.finish
  | _ => exact ⟨h.records_eq, h.written, h.next_eq, h.appending⟩

end Sound

/-! ### Calls and their submissions -/

variable {s s' : Traffic} {id : Nat}

/-- How far a call has come and at which stage its submission is go together. -/
inductive Accounts (s : Traffic) (id : Nat) : Option Progress → Prop where
  | absent (h : s.At id .absent) (hwaits : id ∉ s.writer.abandoned) : Accounts s id none
  | deciding (h : s.At id .absent) (hwaits : id ∉ s.writer.abandoned) :
    Accounts s id (some .deciding)
  | sending {d : Decision} (hd : d.IsOwn) (h : s.At id .absent)
      (hwaits : id ∉ s.writer.abandoned) :
    Accounts s id (some (.sending d))
  | queued {d : Decision} (hd : d.IsOwn) (h : s.At id (.queued ⟨id, d⟩))
      (hwaits : id ∉ s.writer.abandoned) :
    Accounts s id (some (.waiting d none))
  | writing {d : Decision} {r : AuditRecord} (hd : d.IsOwn) (h : s.At id (.writing ⟨id, d⟩ r))
      (hwaits : id ∉ s.writer.abandoned) :
    Accounts s id (some (.waiting d none))
  | recorded {d : Decision} {r : AuditRecord} (hd : d.IsOwn)
      (h : s.At id (.recorded ⟨id, d⟩ r)) :
    Accounts s id (some (.waiting d (some (.recorded r))))
  | refused {d : Decision} {e : AuditError} (h : s.At id .absent) :
    Accounts s id (some (.waiting d (some (.refused e))))
  /-- The call returned its own decision. -/
  | kept {d : Decision} {r : AuditRecord} {seen : List Appending} (hd : d.IsOwn)
      (h : s.At id (.recorded ⟨id, d⟩ r)) (hseen : .record ⟨id, d⟩ r ∈ seen) :
    Accounts s id (some (.returned (.ok d) seen))
  /-- The call returned that its decision could not be recorded. -/
  | denied {d : Decision} {seen : List Appending} (hd : d.verdict = .denied .auditUnavailable)
      (h : s.At id .absent) :
    Accounts s id (some (.returned (.ok d) seen))
  /-- The call was interrupted before it had a decision, or its decision was not recorded. -/
  | interrupted {o : Except Interruption Decision} {seen : List Appending} (ho : IsLate o)
      (h : s.At id .absent) :
    Accounts s id (some (.returned o seen))
  /-- The call gave up. -/
  | gaveUp {o : Except Interruption Decision} {seen : List Appending} {g : Stage} (ho : IsLate o)
      (hgiven : id ∈ s.writer.abandoned) (h : s.At id g) (hg : ∀ x r, g ≠ .recorded x r) :
    Accounts s id (some (.returned o seen))
  /-- The call gave up, but its record had been acknowledged. -/
  | missed {o : Except Interruption Decision} {seen : List Appending} {x : Submission}
      {r : AuditRecord} (ho : IsLate o) (hunread : id ∈ s.unread) (h : s.At id (.recorded x r)) :
    Accounts s id (some (.returned o seen))

/-- What another call does changes nothing for a call. -/
theorem Accounts.congr {p : Option Progress} (h : Accounts s id p)
    (hat : ∀ g, s.At id g → s'.At id g)
    (hgiven : id ∈ s'.writer.abandoned ↔ id ∈ s.writer.abandoned)
    (hunread : id ∈ s.unread → id ∈ s'.unread) :
  Accounts s' id p
  := by
  cases h with
  | absent h hwaits => apply Accounts.absent (hat _ h) (mt hgiven.mp hwaits)
  | deciding h hwaits => apply Accounts.deciding (hat _ h) (mt hgiven.mp hwaits)
  | sending hd h hwaits => apply Accounts.sending hd (hat _ h) (mt hgiven.mp hwaits)
  | queued hd h hwaits => apply Accounts.queued hd (hat _ h) (mt hgiven.mp hwaits)
  | writing hd h hwaits => apply Accounts.writing hd (hat _ h) (mt hgiven.mp hwaits)
  | recorded hd h => apply Accounts.recorded hd (hat _ h)
  | refused h => apply Accounts.refused (hat _ h)
  | kept hd h hseen => apply Accounts.kept hd (hat _ h) hseen
  | denied hd h => apply Accounts.denied hd (hat _ h)
  | interrupted ho h => apply Accounts.interrupted ho (hat _ h)
  | gaveUp ho hg h hne => apply Accounts.gaveUp ho (hgiven.mpr hg) (hat _ h) hne
  | missed ho hmissed h => apply Accounts.missed ho (hunread hmissed) (hat _ h)

/-- What the writer does with the submission of a call is told to the call if that still
waits. -/
theorem Accounts.moved (h : Accounts s id ((s.calls id).map Call.progress))
    (hmoved : ∀ g, s.At id g → Moved s s' id g)
    (habandoned : s'.writer.abandoned = s.writer.abandoned) (hunread : s'.unread = s.unread) :
  Accounts s' id ((s'.calls id).map Call.progress)
  := by
  have hgiven : id ∈ s'.writer.abandoned ↔ id ∈ s.writer.abandoned := by
    rw [habandoned]
  generalize hp : (s.calls id).map Call.progress = p at h
  cases h with
  | absent h hwaits =>
    cases hmoved _ h with
    | still h hcalls =>
      rw [hcalls, hp]
      apply Accounts.absent h (mt hgiven.mp hwaits)
  | deciding h hwaits =>
    cases hmoved _ h with
    | still h hcalls =>
      rw [hcalls, hp]
      apply Accounts.deciding h (mt hgiven.mp hwaits)
  | sending hd h hwaits =>
    cases hmoved _ h with
    | still h hcalls =>
      rw [hcalls, hp]
      apply Accounts.sending hd h (mt hgiven.mp hwaits)
  | queued hd h hwaits =>
    cases hmoved _ h with
    | still h hcalls =>
      rw [hcalls, hp]
      apply Accounts.queued hd h (mt hgiven.mp hwaits)
    | dropped hdropped => exact absurd hdropped hwaits
    | begun h hcalls =>
      rw [hcalls, hp]
      apply Accounts.writing hd h (mt hgiven.mp hwaits)
  | writing hd h hwaits =>
    obtain ⟨c, hc, hprogress⟩ := Option.map_eq_some_iff.mp hp
    cases hmoved _ h with
    | still h hcalls =>
      rw [hcalls, hp]
      apply Accounts.writing hd h (mt hgiven.mp hwaits)
    | recorded _ h hcalls =>
      rw [hcalls, hc, Option.map_some, Option.map_some, Call.progress_hear hprogress]
      apply Accounts.recorded hd h
    | refused _ h hcalls =>
      rw [hcalls, hc, Option.map_some, Option.map_some, Call.progress_hear hprogress]
      apply Accounts.refused h
    | late hlate => exact absurd hlate hwaits
    | lost hlost => exact absurd hlost hwaits
  | recorded hd h =>
    cases hmoved _ h with
    | still h hcalls =>
      rw [hcalls, hp]
      apply Accounts.recorded hd h
  | refused h =>
    cases hmoved _ h with
    | still h hcalls =>
      rw [hcalls, hp]
      apply Accounts.refused h
  | kept hd h hseen =>
    cases hmoved _ h with
    | still h hcalls =>
      rw [hcalls, hp]
      apply Accounts.kept hd h hseen
  | denied hd h =>
    cases hmoved _ h with
    | still h hcalls =>
      rw [hcalls, hp]
      apply Accounts.denied hd h
  | interrupted ho h =>
    cases hmoved _ h with
    | still h hcalls =>
      rw [hcalls, hp]
      apply Accounts.interrupted ho h
  | gaveUp ho hgone h hg =>
    -- the writer tells nothing to a call that has given up, and its record does not stay
    have hgone' := hgiven.mpr hgone
    cases hmoved _ h with
    | still h hcalls =>
      rw [hcalls, hp]
      apply Accounts.gaveUp ho hgone' h hg
    | recorded hwaits => exact absurd hgone hwaits
    | refused hwaits => exact absurd hgone hwaits
    | dropped _ h' hcalls | lost _ h' hcalls =>
      rw [hcalls, hp]
      apply Accounts.interrupted ho h'
    | begun h' hcalls | late _ h' hcalls | voided h' hcalls | unvoided h' hcalls =>
      rw [hcalls, hp]
      apply Accounts.gaveUp ho hgone' h'
      intro x r heq
      cases heq
  | missed ho hmissed h =>
    cases hmoved _ h with
    | still h hcalls =>
      rw [hcalls, hp]
      apply Accounts.missed ho (hunread ▸ hmissed) h

/-! ### Steps and runs -/

/-- A step of one call leaves it to that call to account for its submission. -/
theorem accounts_of_own {own : Nat} {c : Call}
    (h : ∀ id, Accounts s id ((s.calls id).map Call.progress))
    (hcalls : s'.calls = (s.put own c).calls)
    (hat : ∀ id g, id ≠ own → s.At id g → s'.At id g)
    (hgiven : ∀ id, id ≠ own → (id ∈ s'.writer.abandoned ↔ id ∈ s.writer.abandoned))
    (hunread : ∀ id, id ∈ s.unread → id ∈ s'.unread)
    (hown : Accounts s' own (some c.progress)) (id : Nat) :
  Accounts s' id ((s'.calls id).map Call.progress)
  := by
  rw [hcalls]
  by_cases hid : id = own
  · subst hid
    simpa [put] using hown
  · simp only [put, if_neg hid]
    apply (h id).congr
    · intro g hg
      apply hat id g hid hg
    · apply hgiven id hid
    · apply hunread id

theorem accounts_of_put {own : Nat} {c : Call}
    (h : ∀ id, Accounts s id ((s.calls id).map Call.progress))
    (hown : Accounts (s.put own c) own (some c.progress)) :
  ∀ id, Accounts (s.put own c) id (((s.put own c).calls id).map Call.progress)
  := by
  refine accounts_of_own h rfl ?_ ?_ ?_ hown
  · intro id g _ hg
    apply hg.put
  · intro id _
    apply Iff.rfl
  · intro id hmem
    apply hmem

/-- A call gives up. -/
theorem accounts_of_giveUp {own : Nat} {c : Call} {unread : List Nat}
    (h : ∀ id, Accounts s id ((s.calls id).map Call.progress))
    (hunread : ∀ id, id ∈ s.unread → id ∈ unread)
    (hown : Accounts { s.put own c with writer := s.writer.abandon own, unread := unread } own
      (some c.progress)) :
  ∀ id, Accounts { s.put own c with writer := s.writer.abandon own, unread := unread } id
    (((s.put own c).calls id).map Call.progress)
  := by
  refine accounts_of_own h rfl ?_ ?_ hunread hown
  · intro id g _ hg
    apply hg.of_eq rfl rfl rfl rfl
  · intro id hne
    simp [AuditWriter.abandon, hne]

/-- A call that has not returned and has been told nothing has no record on the trail. -/
theorem Accounts.exists_of_isOpen {p : Progress} (h : Accounts s id (some p)) (hp : p.IsOpen) :
  ∃ g, s.At id g ∧ ∀ x r, g ≠ .recorded x r
  := by
  cases h with
  | deciding h | sending _ h | queued _ h | writing _ h =>
    refine ⟨_, h, ?_⟩
    intro x r heq
    cases heq
  | _ => cases hp

/-- Every call accounts for its submission after a step if it did before. -/
theorem accounts_step {depth : Nat}
    (h : ∀ id, Accounts s id ((s.calls id).map Call.progress)) (hs : Step depth s s') :
  ∀ id, Accounts s' id ((s'.calls id).map Call.progress)
  := by
  cases hs with
  | @arrive own hc q set =>
    apply accounts_of_put h
    have hown := h own
    rw [hc] at hown
    cases hown with
    | absent hat hwaits => exact Accounts.deciding (hat.put _ _) hwaits
  | @decide own c d hc hprogress hd =>
    apply accounts_of_put h
    have hown := h own
    rw [hc, Option.map_some, hprogress] at hown
    cases hown with
    | deciding hat hwaits =>
      exact Accounts.sending (Inquiry.isOwn_of_comesTo hd) (hat.put _ _) hwaits
  | @interrupt own c i hc hprogress hi now =>
    apply accounts_of_put h
    have hown := h own
    rw [hc, Option.map_some, hprogress] at hown
    cases hown with
    | deciding hat hwaits =>
      exact Accounts.interrupted (Inquiry.isLate_answer_error _ _ _ _) (hat.put _ _)
  | @send own c d hc hprogress hroom =>
    refine accounts_of_own h rfl ?_ ?_ ?_ ?_
    · intro id g hne hg
      apply hg.submit_of_ne hne.symm
    · intro id _
      apply Iff.rfl
    · intro id hmem
      apply hmem
    · have hown := h own
      rw [hc, Option.map_some, hprogress] at hown
      cases hown with
      | sending hd hat hwaits => exact Accounts.queued hd (at_submit hat _ d) hwaits
  | @receive own c d a hc hprogress now =>
    rw [finishCall, Inquiry.answer_ok]
    apply accounts_of_put h
    have hown := h own
    rw [hc, Option.map_some, hprogress] at hown
    cases hown with
    | @recorded _ r hd hat =>
      have hmem : .record ⟨own, d⟩ r ∈ s.takenFor own := by
        rw [hat.2.2]
        apply List.mem_singleton_self
      exact Accounts.kept hd (hat.put _ _) (List.mem_filter.mp hmem).1
    | refused hat => exact Accounts.denied rfl (hat.put _ _)
  | @expire own c hc hopen now =>
    apply accounts_of_giveUp h
    · intro id hmem
      apply hmem
    · have hown := h own
      rw [hc, Option.map_some] at hown
      obtain ⟨g, hg, hne⟩ := hown.exists_of_isOpen hopen
      refine Accounts.gaveUp (Inquiry.isLate_answer_error _ _ _ _) ?_ (hg.of_eq rfl rfl rfl rfl) hne
      apply List.mem_cons_self
  | @miss own c d a hc hprogress now =>
    apply accounts_of_giveUp h
    · intro id hmem
      apply List.mem_cons_of_mem _ hmem
    · have hown := h own
      rw [hc, Option.map_some, hprogress] at hown
      have hlate := Inquiry.isLate_answer_error c.inquiry c.set now .deadlineExceeded
      cases hown with
      | recorded hd hat =>
        refine Accounts.missed hlate ?_ (hat.of_eq rfl rfl rfl rfl)
        apply List.mem_cons_self
      | refused hat => exact Accounts.interrupted hlate (hat.of_eq rfl rfl rfl rfl)
  | take now =>
    intro id
    apply (h id).moved
    · intro g hg
      apply moved_take hg
    · apply abandoned_take
    · rfl
  | finish now answer =>
    intro id
    apply (h id).moved
    · intro g hg
      apply moved_finish hg
    · apply abandoned_finish
    · rfl

theorem accounts_of_reachable {depth : Nat} {trail : List AuditRecord}
    (h : Reachable depth trail s) :
  ∀ id, Accounts s id ((s.calls id).map Call.progress)
  := by
  induction h with
  | start =>
    intro id
    apply Accounts.absent
    · exact ⟨rfl, rfl, rfl⟩
    · simp [start, AuditWriter.resume]
  | step _ hs ih => apply accounts_step ih hs

theorem sound_of_reachable {depth : Nat} {trail : List AuditRecord}
    (h : Reachable depth trail s) :
  Sound trail (AuditChain.resume trail.getLast?).nextSequence s
  := by
  induction h with
  | start => apply Sound.start
  | step _ hs ih => apply ih.step hs

/-! ### What the trail shows -/

/-- The trail has exactly one record of a call, which holds its decision and was there
when it returned.  No record names it as void, unless the trail is so long that numbers
come again. -/
def Kept (s : Traffic) (id : Nat) (d : Decision) (seen : List Appending) : Prop :=
  ∃ r, s.takenFor id = [.record ⟨id, d⟩ r] ∧ r.decision = d ∧ r.voids = none
    ∧ .record ⟨id, d⟩ r ∈ seen
    ∧ (s.taken.length ≤ UInt64.size → ∀ a ∈ s.taken, a.written.voids ≠ some r.sequence)

/-- The trail has no record of a call, or one that the very next record makes void, unless
the trail refused that record or is about to take it, or the call gave up without seeing
that its record was acknowledged. -/
def Undone (s : Traffic) (id : Nat) : Prop :=
  s.takenFor id = []
    ∨ ∃ x r, (s.takenFor id = [.record x r]
        ∧ (id ∈ s.unvoided ∨ (∃ v, s.writer.appending = some (.void x v)) ∨ id ∈ s.unread))
      ∨ ∃ v before after, s.takenFor id = [.record x r, .void x v]
        ∧ s.taken = before ++ [.record x r, .void x v] ++ after
        ∧ v.decision = x.decision.toDenied .timeout ∧ v.voids = some r.sequence

/-- What the trail shows of a call by what the call returned. -/
def Accounted (s : Traffic) (id : Nat) (seen : List Appending) :
    Except Interruption Decision → Prop
  | .error _ => s.Undone id
  | .ok d =>
    match d.verdict with
    | .denied .timeout => s.Undone id
    | .denied .auditUnavailable => s.takenFor id = []
    | _ => s.Kept id d seen

theorem mem_takenFor_iff {a : Appending} :
  a ∈ s.takenFor id ↔ a ∈ s.taken ∧ a.submission.id = id
  := by
  simp [takenFor]

theorem kept_of_at {trail : List AuditRecord} {first : UInt64} (hs : Sound trail first s)
    {d : Decision} {r : AuditRecord} (h : s.At id (.recorded ⟨id, d⟩ r)) {seen : List Appending}
    (hseen : .record ⟨id, d⟩ r ∈ seen) :
  s.Kept id d seen
  := by
  obtain ⟨-, -, htaken⟩ := h
  have hmem : .record ⟨id, d⟩ r ∈ s.taken := by
    apply (mem_takenFor_iff.mp (htaken ▸ List.mem_singleton_self _)).1
  obtain ⟨before, after, hl⟩ := List.append_of_mem hmem
  obtain ⟨-, hdecision, hvoids⟩ := hs.written before _ after hl
  refine ⟨r, htaken, hdecision, hvoids, hseen, ?_⟩
  intro hlength
  apply hs.written.voids_ne hlength hmem
  intro v hv
  have hown : .void ⟨id, d⟩ v ∈ s.takenFor id := mem_takenFor_iff.mpr ⟨hv, rfl⟩
  rw [htaken] at hown
  simp at hown

theorem undone_of_at {trail : List AuditRecord} {first : UInt64} (hs : Sound trail first s)
    {g : Stage} (h : s.At id g) (hg : ∀ x r, g ≠ .recorded x r) :
  s.Undone id
  := by
  cases g with
  | absent | queued x | writing x r =>
    left
    apply h.2.2
  | recorded x r => exact absurd rfl (hg x r)
  | voiding x r v =>
    right
    obtain ⟨-, happending, htaken⟩ := h
    refine ⟨x, r, .inl ⟨htaken, .inr (.inl ⟨v, ?_⟩)⟩⟩
    apply (Option.filter_eq_some_iff.mp happending).1
  | voided x r v =>
    right
    obtain ⟨-, -, htaken⟩ := h
    have hvoid : .void x v ∈ s.takenFor id := by
      rw [htaken]
      simp
    obtain ⟨hmem, hid⟩ := mem_takenFor_iff.mp hvoid
    rw [Appending.submission_void] at hid
    obtain ⟨before, r', after, hl, hdecision, hvoids⟩ := hs.written.exists_of_void hmem
    -- the record right in front of the void one is the only other record of the call
    have hfront : .record x r' ∈ s.takenFor id := by
      apply mem_takenFor_iff.mpr
      rw [hl]
      simp [hid]
    rw [htaken] at hfront
    have hr : r' = r := by
      simpa using hfront
    subst hr
    exact ⟨x, r', .inr ⟨v, before, after, htaken, hl, hdecision, hvoids⟩⟩
  | unvoided x r =>
    right
    obtain ⟨⟨-, -, htaken⟩, hunvoided⟩ := h
    exact ⟨x, r, .inl ⟨htaken, .inl hunvoided⟩⟩

theorem accounted_of_isOwn {d : Decision} (hd : d.IsOwn) {seen : List Appending}
    (h : s.Kept id d seen) :
  s.Accounted id seen (.ok d)
  := by
  simp only [Accounted]
  split
  · rename_i hverdict
    exact absurd hverdict hd.1
  · rename_i hverdict
    exact absurd hverdict hd.2
  · apply h

theorem accounted_of_isLate {o : Except Interruption Decision} (ho : IsLate o)
    {seen : List Appending} (h : s.Undone id) :
  s.Accounted id seen o
  := by
  cases o with
  | error i => apply h
  | ok d =>
    have hverdict : d.verdict = .denied .timeout := ho
    simp only [Accounted, hverdict]
    apply h

/-- In whatever order calls and writer go on, the trail shows of each call that has
returned what the call returned. -/
theorem accounted_of_reachable {depth : Nat} {trail : List AuditRecord}
    (h : Reachable depth trail s) {c : Call} (hc : s.calls id = some c)
    {o : Except Interruption Decision} {seen : List Appending}
    (hreturned : c.progress = .returned o seen) :
  s.writer.records = trail ++ s.taken.map Appending.written ∧ s.Accounted id seen o
  := by
  have hs := sound_of_reachable h
  have haccounts := accounts_of_reachable h id
  rw [hc, Option.map_some, hreturned] at haccounts
  constructor
  · apply hs.records_eq
  cases haccounts with
  | kept hd hat hseen =>
    apply accounted_of_isOwn hd
    apply kept_of_at hs hat hseen
  | denied hd hat =>
    simp only [Accounted, hd]
    apply hat.2.2
  | interrupted ho hat =>
    apply accounted_of_isLate ho
    left
    apply hat.2.2
  | gaveUp ho _ hat hg =>
    apply accounted_of_isLate ho
    apply undone_of_at hs hat hg
  | @missed _ _ x r ho hunread hat =>
    apply accounted_of_isLate ho
    right
    exact ⟨x, r, .inl ⟨hat.2.2, .inr (.inr hunread)⟩⟩

end Traffic

/-! ### Two calls -/

namespace Sample

/-- The decision on the token at the beginning of 1970. -/
def decision : Decision :=
  (evaluate set token ⟨.epoch, some 60, fun _ => none⟩).toOption.getD
    (.deny .unverified 0 "" "" .epoch)

theorem evaluate_eq_decision :
  evaluate set token ⟨.epoch, some 60, fun _ => none⟩ = .ok decision
  := by
  have hok : (evaluate set token ⟨.epoch, some 60, fun _ => none⟩).isOk = true := by
    decide +kernel
  apply eq_ok_getD_of_isOk hok

/-- What a call for the token gets when it gives up. -/
def timedOut : Decision := .deny .timeout set.revision token.issuer token.subject .epoch

/-- One call returns its decision; the deadline of another one expires while its record is
being appended. -/
theorem exists_reachable_traffic :
  ∃ s c c' seen seen', Traffic.Reachable 1 [] s
    ∧ s.calls 0 = some c ∧ c.progress = .returned (.ok decision) seen
    ∧ s.calls 1 = some c' ∧ c'.progress = .returned (.error .deadlineExceeded) seen'
    ∧ s.taken.length = 3
  := by
  have h : Traffic.Reachable 1 [] _ := .start
  have h := h.step (.arrive 0 rfl (.identified token) set)
  have h := h.step (.arrive 1 rfl (.cancellable token) set)
  have h := h.step (.decide 0 rfl rfl ⟨_, evaluate_eq_decision.symm⟩)
  have h := h.step (.decide 1 rfl rfl ⟨_, evaluate_eq_decision.symm⟩)
  have h := h.step (.send 0 rfl rfl (by decide))
  have h := h.step (.take .epoch)
  have h := h.step (.send 1 rfl rfl (by decide))
  have h := h.step (.finish .epoch (.ok ()))
  have h := h.step (.take .epoch)
  have h := h.step (.expire 1 rfl (by trivial) .epoch)
  have h := h.step (.finish .epoch (.ok ()))
  have h := h.step (.finish .epoch (.ok ()))
  have h := h.step (.receive 0 rfl rfl .epoch)
  exact ⟨_, _, _, _, _, h, rfl, rfl, rfl, rfl, rfl⟩

end Sample

namespace Traffic

theorem accounted_of_reachable_sample :
  ∃ s seen seen', Reachable 1 [] s ∧ s.taken.length = 3
    ∧ s.writer.records = s.taken.map Appending.written
    ∧ s.Accounted 0 seen (.ok Sample.decision)
    ∧ s.Accounted 1 seen' (.error .deadlineExceeded)
  := by
  obtain ⟨s, c, c', seen, seen', h, hc, hreturned, hc', hreturned', hlength⟩ :=
    Sample.exists_reachable_traffic
  obtain ⟨hrecords, haccounted⟩ := accounted_of_reachable h hc hreturned
  obtain ⟨-, haccounted'⟩ := accounted_of_reachable h hc' hreturned'
  exact ⟨s, seen, seen', h, hlength, hrecords, haccounted, haccounted'⟩

/-- The deadline of a call expires just after its grant was acknowledged: the caller gets a
denial for lack of time, and the grant is all that the trail shows, with nothing left to be
appended and nothing refused.  For a call that gives up earlier the trail shows the same until
it takes the record that makes the grant void. -/
theorem granted_of_missed :
  Sample.decision.isGranted = true
    ∧ (∃ s c seen r, Reachable 1 [] s ∧ s.calls 0 = some c
      ∧ c.progress = .returned (.ok Sample.timedOut) seen
      ∧ s.taken = [.record ⟨0, Sample.decision⟩ r] ∧ s.writer.records = [r]
      ∧ r.decision = Sample.decision ∧ r.voids = none
      ∧ s.writer.waiting = [] ∧ s.writer.appending = none ∧ s.unvoided = [])
    ∧ ∃ s c seen r v, Reachable 1 [] s ∧ s.calls 0 = some c
      ∧ c.progress = .returned (.ok Sample.timedOut) seen
      ∧ s.taken = [.record ⟨0, Sample.decision⟩ r] ∧ s.writer.records = [r]
      ∧ r.decision = Sample.decision ∧ r.voids = none
      ∧ s.writer.appending = some (.void ⟨0, Sample.decision⟩ v) ∧ s.unvoided = []
  := by
  have h : Reachable 1 [] _ := .start
  have h := h.step (.arrive 0 rfl (.identified Sample.token) Sample.set)
  have h := h.step (.decide 0 rfl rfl ⟨_, Sample.evaluate_eq_decision.symm⟩)
  have h := h.step (.send 0 rfl rfl (by decide))
  have h := h.step (.take .epoch)
  refine ⟨by decide +kernel, ?_, ?_⟩
  · have h := h.step (.finish .epoch (.ok ()))
    have h := h.step (.miss 0 rfl rfl .epoch)
    exact ⟨_, _, _, _, h, rfl, rfl, rfl, rfl, rfl, rfl, rfl, rfl, rfl⟩
  · have h := h.step (.expire 0 rfl (by trivial) .epoch)
    have h := h.step (.finish .epoch (.ok ()))
    exact ⟨_, _, _, _, _, h, rfl, rfl, rfl, rfl, rfl, rfl, rfl, rfl⟩

end Traffic
end Federation
