import Federation.Proofs.Gateway.Traffic

/-!
# Calls one after the other

A `Service` makes one call after the other while time passes.  What it does is a run of a
gateway that serves calls in any order: an `AuditTimeline` agrees with a state of such a
gateway (`AuditTimeline.Agrees`), and goes on agreeing with one that this state comes to.
Every call then ends there with what the service returns.
-/

namespace Federation

namespace AuditTimeline

/-- A timeline has the writer of a state, and identifies new calls by what is new there. -/
structure Agrees (t : AuditTimeline) (s : Traffic) : Prop where
  writer : s.writer = t.writer
  fresh : ∀ id, t.nextId ≤ id → s.calls id = none

variable {t : AuditTimeline} {s : Traffic}

/-- A new call puts its decision into the channel. -/
def submit (t : AuditTimeline) (d : Decision) : AuditTimeline :=
  { t.skip with writer := t.writer.submit ⟨t.nextId, d⟩ }

/-- What a caller gets for a decision by what the writer says about it. -/
def outcome (d : Decision) : Option Acknowledgement → Except Interruption Decision
  | some a => .ok (a.decision d)
  | none => .error .deadlineExceeded

theorem record_eq (t : AuditTimeline) (now : Instant) (d : Decision) (deadline : Nat) :
  t.record now d deadline
    = (((t.submit d).await now t.nextId deadline).1,
      outcome d ((t.submit d).await now t.nextId deadline).2)
  := by
  have hsubmit : t.submit d
      = { t with writer := t.writer.submit ⟨t.nextId, d⟩, nextId := t.nextId + 1 } := rfl
  rw [hsubmit]
  unfold record
  dsimp only
  split
  · rename_i hawait
    rw [hawait, outcome]
  · rename_i hawait
    rw [hawait, outcome]

theorem nextId_step (t : AuditTimeline) (now : Instant) :
  (t.step now).1.nextId = t.nextId
  := by
  rw [step]
  split <;> rfl

theorem nextId_run (now : Instant) (id : Option Nat) (deadline fuel : Nat) (t : AuditTimeline) :
  (run now id deadline fuel t).1.nextId = t.nextId
  := by
  induction fuel generalizing t with
  | zero => rfl
  | succ fuel ih =>
    rw [run]
    split
    · have hstep := nextId_step t now
      split
      · rename_i hresult
        rw [hresult] at hstep
        split
        · apply hstep
        · rw [ih, hstep]
      · rename_i hresult
        rw [hresult] at hstep
        rw [ih, hstep]
    · rfl

theorem agrees_start {trail : List AuditRecord} (h : t.writer = .resume trail) :
  t.Agrees (.start trail)
  := by
  constructor
  · exact h.symm
  · intro id _
    rfl

namespace Agrees

/-! ### The writer -/

theorem tell (h : t.Agrees s) (told : Option (Nat × Acknowledgement)) :
  ∀ id, t.nextId ≤ id → s.tell told id = none
  := by
  intro id hid
  have hnone := h.fresh id hid
  cases told with
  | none => apply hnone
  | some p => simp [Traffic.tell, hnone]

/-- A step of the writer is a step there. -/
theorem step (h : t.Agrees s) (depth : Nat) (now : Instant) :
  ∃ s', Traffic.Step depth s s' ∧ (t.step now).1.Agrees s' ∧ s'.calls = s.tell (t.step now).2
  := by
  cases happending : t.writer.appending with
  | none =>
    refine ⟨{ s with writer := s.writer.take now }, .take now, ?_, ?_⟩
    · simp only [AuditTimeline.step, happending]
      refine ⟨congrArg (·.take now) h.writer, h.fresh⟩
    · simp only [AuditTimeline.step, happending, Traffic.tell]
  | some a =>
    refine ⟨s.finish now t.answer, .finish now t.answer, ?_, ?_⟩
    · simp only [AuditTimeline.step, happending]
      refine ⟨congrArg (fun w => (w.finish now t.answer).1) h.writer, ?_⟩
      apply h.tell
    · simp only [AuditTimeline.step, happending, Traffic.finish, h.writer]

/-- What happens while somebody waits for what is said about a submission is a run there,
and the call of that submission is told just that. -/
theorem run (h : t.Agrees s) (depth : Nat) (now : Instant) (id : Option Nat)
    (deadline fuel : Nat) :
  ∃ s', Traffic.Run depth s s' ∧ (AuditTimeline.run now id deadline fuel t).1.Agrees s'
    ∧ ∀ i, id = some i →
      s'.calls i = s.tell ((AuditTimeline.run now id deadline fuel t).2.map (i, ·)) i
  := by
  induction fuel generalizing t s with
  | zero =>
    refine ⟨s, .refl, h, ?_⟩
    intro i _
    rfl
  | succ fuel ih =>
    rw [AuditTimeline.run]
    split
    · obtain ⟨s₁, hstep, hagrees, hcalls⟩ := h.step depth now
      split
      · rename_i t₁ j a ht
        rw [ht] at hagrees hcalls
        split
        · rename_i hid
          refine ⟨s₁, .single hstep, hagrees, ?_⟩
          intro i hi
          cases hid.symm.trans hi
          rw [hcalls, Option.map_some]
        · rename_i hid
          obtain ⟨s', hrun, hagrees', htold⟩ := ih hagrees
          refine ⟨s', .head hstep hrun, hagrees', ?_⟩
          intro i hi
          rw [htold i hi]
          -- what another call was told in between makes no difference
          have hne : i ≠ j := by
            intro heq
            apply hid
            rw [hi, heq]
          apply Traffic.tell_congr
          simp [hcalls, Traffic.tell, hne]
      · rename_i t₁ ht
        rw [ht] at hagrees hcalls
        obtain ⟨s', hrun, hagrees', htold⟩ := ih hagrees
        refine ⟨s', .head hstep hrun, hagrees', ?_⟩
        intro i hi
        rw [htold i hi]
        apply Traffic.tell_congr
        rw [hcalls]
        rfl
    · refine ⟨s, .refl, ⟨h.writer, h.fresh⟩, ?_⟩
      intro i _
      rfl

theorem waitUntil (h : t.Agrees s) (depth : Nat) (now : Instant) (deadline : Nat) :
  ∃ s', Traffic.Run depth s s' ∧ (t.waitUntil now deadline).Agrees s'
  := by
  obtain ⟨s', hrun, hagrees, -⟩ := h.run depth now none deadline (t.writer.remaining + 1)
  exact ⟨s', hrun, hagrees⟩

/-! ### Calls -/

theorem put (h : t.Agrees s) {id : Nat} (hid : id < t.nextId) (c : Call) :
  t.Agrees (s.put id c)
  := by
  refine ⟨h.writer, ?_⟩
  intro i hi
  have hne : i ≠ id := by omega
  simp only [Traffic.put, if_neg hne]
  apply h.fresh i hi

/-- Others are called after a new call. -/
theorem arrive (h : t.Agrees s) (c : Call) :
  t.skip.Agrees (s.put t.nextId c)
  := by
  have hskip : t.skip.Agrees s := by
    refine ⟨h.writer, ?_⟩
    intro i hi
    apply h.fresh i (Nat.le_of_succ_le hi)
  apply hskip.put (Nat.lt_succ_self _)

variable {q : Inquiry} {set : BindingSet} {depth : Nat}

/-- A call that is interrupted returns that. -/
theorem skip (h : t.Agrees s) (depth : Nat) (now : Instant) {i : Interruption}
    (hi : q.ComesTo set (.error i)) :
  ∃ s' seen, Traffic.Run depth s s' ∧ t.skip.Agrees s'
    ∧ s'.calls t.nextId = some ⟨q, set, .returned (q.answer set now (.error i)) seen⟩
  := by
  let c : Call := ⟨q, set, .deciding⟩
  have hc : (s.put t.nextId c).calls t.nextId = some c := if_pos rfl
  have harrive : Traffic.Step depth s (s.put t.nextId c) :=
    .arrive t.nextId (h.fresh t.nextId (Nat.le_refl _)) q set
  have hinterrupt : Traffic.Step depth (s.put t.nextId c) _ :=
    .interrupt t.nextId hc rfl hi now
  refine ⟨_, _, .tail (.single harrive) hinterrupt, ?_, if_pos rfl⟩
  apply (h.arrive c).put (Nat.lt_succ_self _)

/-- A call that comes to a decision puts it into the channel when that has room. -/
theorem submit (h : t.Agrees s) {d : Decision} (hd : q.ComesTo set (.ok d))
    (hroom : t.writer.waiting.length < max depth 1) :
  ∃ s', Traffic.Run depth s s' ∧ (t.submit d).Agrees s'
    ∧ s'.calls t.nextId = some ⟨q, set, .waiting d none⟩
  := by
  let c : Call := ⟨q, set, .deciding⟩
  let c₁ : Call := ⟨q, set, .sending d⟩
  let c₂ : Call := ⟨q, set, .waiting d none⟩
  let s₁ := s.put t.nextId c
  let s₂ := s₁.put t.nextId c₁
  have hc : s₁.calls t.nextId = some c := if_pos rfl
  have hc₁ : s₂.calls t.nextId = some c₁ := if_pos rfl
  have hroom' : s₂.writer.waiting.length < max depth 1 := by
    rw [← h.writer] at hroom
    apply hroom
  have harrive : Traffic.Step depth s s₁ :=
    .arrive t.nextId (h.fresh t.nextId (Nat.le_refl _)) q set
  have hdecide : Traffic.Step depth s₁ s₂ := .decide t.nextId hc rfl hd
  have hsend : Traffic.Step depth s₂ _ := .send t.nextId hc₁ rfl hroom'
  refine ⟨_, .tail (.tail (.single harrive) hdecide) hsend, ⟨?_, ?_⟩, if_pos rfl⟩
  · exact congrArg (·.submit ⟨t.nextId, d⟩) h.writer
  · have hid := Nat.lt_succ_self t.nextId
    apply (((h.arrive c).put hid c₁).put hid c₂).fresh

/-- A call that waits returns what it is told of its decision, or that its deadline has
expired. -/
theorem await (h : t.Agrees s) (depth : Nat) (now : Instant) {id : Nat} (hid : id < t.nextId)
    {d : Decision} (hc : s.calls id = some ⟨q, set, .waiting d none⟩) (deadline : Nat) :
  ∃ s' seen, Traffic.Run depth s s' ∧ (t.await now id deadline).1.Agrees s'
    ∧ s'.calls id = some ⟨q, set, .returned
        (q.answer set now (outcome d (t.await now id deadline).2)) seen⟩
  := by
  obtain ⟨s₁, hrun, hagrees, htold⟩ :=
    h.run depth now (some id) deadline (t.writer.remaining + 1)
  have htold := htold id rfl
  rw [← nextId_run now (some id) deadline (t.writer.remaining + 1)] at hid
  rw [AuditTimeline.await]
  split
  · rename_i t₁ a hresult
    rw [hresult] at hagrees htold hid
    have hc₁ : s₁.calls id = some ⟨q, set, .waiting d (some a)⟩ := by
      rw [htold]
      simp [Traffic.tell, hc, Call.hear]
    refine ⟨_, _, .tail hrun (.receive id hc₁ rfl now), ?_, if_pos rfl⟩
    apply hagrees.put hid
  · rename_i t₁ hresult
    rw [hresult] at hagrees htold hid
    have hc₁ : s₁.calls id = some ⟨q, set, .waiting d none⟩ := htold.trans hc
    refine ⟨_, _, .tail hrun (.expire id hc₁ trivial now), ⟨?_, ?_⟩, if_pos rfl⟩
    · exact congrArg (·.abandon id) hagrees.writer
    · apply (hagrees.put hid _).fresh

/-- A call returns what it is told of its decision, or that its deadline has expired. -/
theorem record (h : t.Agrees s) (now : Instant) {d : Decision} (hd : q.ComesTo set (.ok d))
    (hroom : t.writer.waiting.length < max depth 1) (deadline : Nat) :
  ∃ s' seen, Traffic.Run depth s s' ∧ (t.record now d deadline).1.Agrees s'
    ∧ s'.calls t.nextId
      = some ⟨q, set, .returned (q.answer set now (t.record now d deadline).2) seen⟩
  := by
  obtain ⟨s₁, hsent, hagrees, hc⟩ := h.submit hd hroom
  obtain ⟨s₂, seen, hrun, hagrees₂, hreturned⟩ :=
    hagrees.await depth now (Nat.lt_succ_self _) hc deadline
  rw [record_eq]
  exact ⟨s₂, seen, hsent.trans hrun, hagrees₂, hreturned⟩

end Agrees

end AuditTimeline

/-! ### A service -/

namespace Service

variable {σ : Type} {v : Service σ} {s : Traffic} {depth : Nat}

/-- A call to a service ends with what the service returns. -/
theorem exists_run_of_record (h : v.audit.Agrees s)
    (hroom : v.audit.writer.waiting.length < max depth 1) (q : Inquiry) {set : BindingSet}
    {r : Except Interruption Decision} (hr : q.ComesTo set r) (now : Instant)
    (o : CallOptions) :
  ∃ s' seen, Traffic.Run depth s s' ∧ (v.record now o r).1.audit.Agrees s'
    ∧ s'.calls v.audit.nextId
      = some ⟨q, set, .returned (q.answer set now (v.record now o r).2) seen⟩
  := by
  cases r with
  | error i => apply h.skip depth now hr
  | ok d => apply h.record now hr hroom

theorem exists_run_of_evaluateToken (h : v.audit.Agrees s)
    (hroom : v.audit.writer.waiting.length < max depth 1) (now : Instant) (o : CallOptions)
    (token : IdentityToken) :
  ∃ s' seen, Traffic.Run depth s s' ∧ (v.evaluateToken now o token).1.audit.Agrees s'
    ∧ s'.calls v.audit.nextId = some ⟨.identified token, v.gateway.snapshot,
        .returned (.ok (v.evaluateToken now o token).2) seen⟩
  := by
  apply exists_run_of_record h hroom (.identified token) ⟨o.context now, rfl⟩

theorem exists_run_of_evaluateAgainst (h : v.audit.Agrees s)
    (hroom : v.audit.writer.waiting.length < max depth 1) (set : BindingSet) (now : Instant)
    (o : CallOptions) (token : IdentityToken) :
  ∃ s' seen, Traffic.Run depth s s' ∧ (v.evaluateAgainst set now o token).1.audit.Agrees s'
    ∧ s'.calls v.audit.nextId = some ⟨.cancellable token, set,
        .returned (v.evaluateAgainst set now o token).2 seen⟩
  := by
  apply exists_run_of_record h hroom (.cancellable token) ⟨o.context now, rfl⟩

theorem exists_run_of_evaluateRaw (h : v.audit.Agrees s)
    (hroom : v.audit.writer.waiting.length < max depth 1) (web : Keys.Web) (now : Instant)
    (o : CallOptions) (raw : String) :
  ∃ s' seen, Traffic.Run depth s s' ∧ (v.evaluateRaw web now o raw).1.audit.Agrees s'
    ∧ s'.calls v.audit.nextId = some ⟨.raw, v.gateway.snapshot,
        .returned (.ok (v.evaluateRaw web now o raw).2) seen⟩
  := by
  let decided := v.gateway.decideRaw web (o.context now) raw
  refine exists_run_of_record (v := { v with gateway := decided.2 }) h hroom .raw ?_ now o
  exact ⟨o.context now, _, rfl⟩

variable [SnapshotStore σ]

/-- What a service can do when the channel of its writer has room for `depth` submissions.
The trail may change its delay, and refuse records or take them again, at any time. -/
inductive Serves (depth : Nat) (v : Service σ) : Service σ → Prop where
  | evaluateToken (now : Instant) (o : CallOptions) (token : IdentityToken)
      (hroom : v.audit.writer.waiting.length < max depth 1) :
    Serves depth v (v.evaluateToken now o token).1
  | evaluateAgainst (set : BindingSet) (now : Instant) (o : CallOptions) (token : IdentityToken)
      (hroom : v.audit.writer.waiting.length < max depth 1) :
    Serves depth v (v.evaluateAgainst set now o token).1
  | evaluateRaw (web : Keys.Web) (now : Instant) (o : CallOptions) (raw : String)
      (hroom : v.audit.writer.waiting.length < max depth 1) :
    Serves depth v (v.evaluateRaw web now o raw).1
  | reload (c : Config) (now : Instant) :
    Serves depth v (v.reload c now).2
  | wait (now : Instant) (deadline : Nat) :
    Serves depth v { v with audit := v.audit.waitUntil now deadline }
  | switch (available : Bool) (delay : Nat) :
    Serves depth v { v with audit := { v.audit with available, delay } }

theorem exists_run_of_serves {v' : Service σ} (h : v.audit.Agrees s) (hs : Serves depth v v') :
  ∃ s', Traffic.Run depth s s' ∧ v'.audit.Agrees s'
  := by
  cases hs with
  | evaluateToken now o token hroom =>
    obtain ⟨s', -, hrun, hagrees, -⟩ := exists_run_of_evaluateToken h hroom now o token
    exact ⟨s', hrun, hagrees⟩
  | evaluateAgainst set now o token hroom =>
    obtain ⟨s', -, hrun, hagrees, -⟩ := exists_run_of_evaluateAgainst h hroom set now o token
    exact ⟨s', hrun, hagrees⟩
  | evaluateRaw web now o raw hroom =>
    obtain ⟨s', -, hrun, hagrees, -⟩ := exists_run_of_evaluateRaw h hroom web now o raw
    exact ⟨s', hrun, hagrees⟩
  | reload c now => exact ⟨s, .refl, h⟩
  | wait now deadline => apply h.waitUntil
  | switch available delay => exact ⟨s, .refl, h.writer, h.fresh⟩

/-- Whatever a service does from its start with a trail, a gateway that serves calls in any
order can do as well. -/
theorem exists_reachable_of_serves {trail : List AuditRecord} {v' : Service σ}
    (h : v.audit.writer = .resume trail) (hs : Relation.ReflTransGen (Serves depth) v v') :
  ∃ s, Traffic.Reachable depth trail s ∧ v'.audit.Agrees s
  := by
  induction hs with
  | refl => exact ⟨_, .start, AuditTimeline.agrees_start h⟩
  | tail _ hs ih =>
    obtain ⟨s, hreachable, hagrees⟩ := ih
    obtain ⟨s', hrun, hagrees'⟩ := exists_run_of_serves hagrees hs
    exact ⟨s', hreachable.run hrun, hagrees'⟩

end Service
end Federation
