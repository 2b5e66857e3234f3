import Federation.Proofs.Audit.Chain
import Federation.Proofs.Audit.Writer

/-!
# The audit writer over its lives

An `AuditHistory` is the audit writer together with what has happened to it since the trail
was empty: what was submitted, which submitters gave up, what became of each submission
that the writer is done with, and what submitters were told.  `Step` says what can happen
next.  Each submission may be given up before the writer takes it, be refused by the trail,
be acknowledged, or be recorded without anybody waiting for it any more, in which case the
trail takes or refuses a record that makes it void; and between two submissions the writer
may be stopped and another one be started on the same trail.

Whatever happens, the trail stays intact (`intact_of_reachable`): it verifies, it is
numbered from 1, the writer goes on right behind it, it holds the decisions of just those
submissions whose record was taken, in the order of submission, and a record that makes
another one void stands right behind it.
-/

namespace Federation

/-! ### Trails -/

/-- A record that makes another one void stands right behind it, names it, and holds its
decision turned into a denial for lack of time. -/
def VoidsFollow (l : List AuditRecord) : Prop :=
  ∀ before v after, l = before ++ v :: after → v.voids ≠ none →
    ∃ r, before.getLast? = some r ∧ r.voids = none ∧ v.voids = some r.sequence
      ∧ v.decision = { r.decision with verdict := .denied .timeout, attributes := {} }

/-- The trail of a writer is an unbroken chain. -/
structure AuditWriter.Chained (w : AuditWriter) : Prop where
  verified : verifyChain w.records = .ok ()
  /-- The records are numbered from 1 without gaps. -/
  numbered : w.records.map (·.sequence) = (List.range' 1 w.records.length).map UInt64.ofNat
  /-- The writer goes on right behind the last record. -/
  positioned : w.chain = .resume w.records.getLast?
  voided : VoidsFollow w.records

/-- What is being appended was made at the end of the trail, of a decision or to make void
the record of one. -/
def Appending.Continues (w : AuditWriter) : Appending → Prop
  | record x r => ∃ now, r = w.chain.nextRecord now x.decision
  | void _ v => ∃ now r, w.records.getLast? = some r ∧ r.voids = none
      ∧ v = w.chain.nextVoid now r

theorem VoidsFollow.nil :
  VoidsFollow []
  := by
  intro before v after heq
  simp at heq

theorem VoidsFollow.concat {l : List AuditRecord} (hl : VoidsFollow l) {v : AuditRecord}
    (hv : v.voids ≠ none → ∃ r, l.getLast? = some r ∧ r.voids = none ∧ v.voids = some r.sequence
      ∧ v.decision = { r.decision with verdict := .denied .timeout, attributes := {} }) :
  VoidsFollow (l ++ [v])
  := forall_split_concat hl hv

namespace AuditWriter.Chained

variable {w : AuditWriter}

theorem nextSequence_eq (hw : w.Chained) :
  w.chain.nextSequence = .ofNat (w.records.length + 1)
  := by
  rw [hw.positioned]
  rcases List.eq_nil_or_concat w.records with hnil | ⟨l, r, hl⟩
  · rw [hnil]
    rfl
  · have hnumbered := hw.numbered
    rw [hl, List.concat_eq_append, List.map_append, List.length_append, List.length_singleton,
      List.range'_concat, List.map_append] at hnumbered
    have hr : r.sequence = .ofNat (1 + 1 * l.length) := by
      have := List.append_inj_right' hnumbered rfl
      simpa using this
    rw [hl, List.concat_eq_append, List.getLast?_concat, List.length_append,
      List.length_singleton]
    simp only [AuditChain.resume]
    rw [hr, Nat.one_mul, Nat.add_comm 1, UInt64.ofNat_add (l.length + 1) 1]
    rfl

/-- What a writer makes at the end of its trail may be added to it. -/
theorem append (hw : w.Chained) {b : AuditBody} (hb : b.sequence = w.chain.nextSequence)
    (hvoids : b.voids ≠ none → ∃ r, w.records.getLast? = some r ∧ r.voids = none
      ∧ b.voids = some r.sequence
      ∧ b.decision = { r.decision with verdict := .denied .timeout, attributes := {} }) :
  (w.append (w.chain.record b)).Chained
  := by
  have hsequence := hb.trans hw.nextSequence_eq
  constructor
  · have hverified := hw.verified
    rw [hw.positioned] at hb ⊢
    apply verifyChain_record hverified hb
  · simp only [AuditWriter.append, List.map_append, hw.numbered, List.length_append,
      List.length_singleton, List.range'_concat, Nat.one_mul, List.map_singleton]
    rw [Nat.add_comm 1]
    congr 2
  · simp only [AuditWriter.append, List.getLast?_concat]
    rfl
  · apply hw.voided.concat hvoids

end AuditWriter.Chained

/-! ### Histories -/

/-- What a writer has been through since its trail was empty. -/
structure AuditHistory where
  writer : AuditWriter
  /-- The submissions, in order. -/
  submitted : List Submission := []
  /-- The submissions whose submitters have given up. -/
  gaveUp : List Nat := []
  /-- The submissions that the writer is done with, and the record that the trail took of
  each, if it took one. -/
  served : List (Submission × Option AuditRecord) := []
  /-- What submitters were told. -/
  told : List (Nat × Acknowledgement) := []

namespace AuditHistory

/-- A writer on an empty trail. -/
def start : AuditHistory where
  writer := .resume []

/-- What the submitters that still wait are told when the writer is stopped. -/
def stopped (w : AuditWriter) : List (Nat × Acknowledgement) :=
  (w.waiting.filter (·.id ∉ w.abandoned)).map
    fun x => (x.id, .refused (.unavailable "audit writer stopped"))

/-- What can happen next. -/
inductive Step (h : AuditHistory) : AuditHistory → Prop where
  | submit (x : Submission) :
    Step h { h with writer := h.writer.submit x, submitted := h.submitted ++ [x] }
  /-- A submitter who was told nothing yet gives up. -/
  | giveUp (id : Nat) (hopen : id ∉ h.told.map Prod.fst) :
    Step h { h with writer := h.writer.abandon id, gaveUp := id :: h.gaveUp }
  /-- The writer passes over a submission that was given up. -/
  | skip {x : Submission} {rest : List Submission} (happending : h.writer.appending = none)
      (hwaiting : h.writer.waiting = x :: rest) (hgiven : x.id ∈ h.writer.abandoned)
      (now : Instant) :
    Step h { h with writer := h.writer.take now, served := h.served ++ [(x, none)] }
  /-- The writer takes a submission. -/
  | take {x : Submission} {rest : List Submission} (happending : h.writer.appending = none)
      (hwaiting : h.writer.waiting = x :: rest) (hwaits : x.id ∉ h.writer.abandoned)
      (now : Instant) :
    Step h { h with writer := h.writer.take now }
  /-- The trail takes the record of a submission. -/
  | record {x : Submission} {r : AuditRecord} (happending : h.writer.appending = some (.record x r))
      (now : Instant) :
    Step h { h with
      writer := (h.writer.finish now (.ok ())).1
      served := h.served ++ [(x, some r)]
      told := h.told ++ (h.writer.finish now (.ok ())).2.toList }
  /-- The trail refuses the record of a submission. -/
  | refuse {x : Submission} {r : AuditRecord} (happending : h.writer.appending = some (.record x r))
      (now : Instant) (e : AuditError) :
    Step h { h with
      writer := (h.writer.finish now (.error e)).1
      served := h.served ++ [(x, none)]
      told := h.told ++ (h.writer.finish now (.error e)).2.toList }
  /-- The trail takes or refuses a record that makes another one void. -/
  | void {x : Submission} {v : AuditRecord} (happending : h.writer.appending = some (.void x v))
      (now : Instant) (answer : Except AuditError Unit) :
    Step h { h with writer := (h.writer.finish now answer).1 }
  /-- The writer is stopped, and another one goes on with the trail. -/
  | restart (happending : h.writer.appending = none) :
    Step h { h with
      writer := .resume h.writer.records
      served := h.served ++ h.writer.waiting.map (·, none)
      told := h.told ++ stopped h.writer }

/-- The histories of a trail that begins empty. -/
inductive Reachable : AuditHistory → Prop where
  | start : Reachable start
  | step {h h' : AuditHistory} (hr : Reachable h) (hs : Step h h') : Reachable h'

/-! ### What stays true -/

/-- The submission whose record is being appended. -/
def inHand (w : AuditWriter) : List Submission :=
  match w.appending with
  | some (.record x _) => [x]
  | _ => []

/-- The trail is an unbroken chain and holds what it should. -/
structure Intact (h : AuditHistory) : Prop extends h.writer.Chained where
  /-- The writer deals with submissions in order. -/
  ordered : h.submitted = h.served.map Prod.fst ++ inHand h.writer ++ h.writer.waiting
  /-- The records that make no other one void hold the decisions of the submissions of which
  a record was taken, in order. -/
  recorded : (h.writer.records.filter (·.voids = none)).map (·.decision)
    = (h.served.filter (·.2.isSome)).map (·.1.decision)
  /-- Who waits for a decision of which a record was taken is told so. -/
  acknowledged : ∀ x r, (x, some r) ∈ h.served →
    r ∈ h.writer.records ∧ r.decision = x.decision ∧ r.voids = none
      ∧ (x.id ∉ h.gaveUp → (x.id, .recorded r) ∈ h.told)
  /-- Who waits for a decision of which no record was taken gets an error. -/
  refused : ∀ x, (x, none) ∈ h.served → x.id ∉ h.gaveUp → ∃ e, (x.id, .refused e) ∈ h.told

/-- An intact trail to which the writer adds only what belongs there. -/
structure Sound (h : AuditHistory) : Prop extends h.Intact where
  appending : ∀ a, h.writer.appending = some a → a.Continues h.writer
  given : ∀ id, id ∈ h.writer.abandoned → id ∈ h.gaveUp

namespace Sound

variable {h : AuditHistory} {x : Submission} {rest : List Submission} {r v : AuditRecord}

theorem start :
  Sound start
  where
  verified := rfl
  numbered := rfl
  positioned := rfl
  voided := .nil
  ordered := rfl
  recorded := rfl
  acknowledged := by simp [AuditHistory.start]
  refused := by simp [AuditHistory.start]
  appending := by simp [AuditHistory.start, AuditWriter.resume]
  given := by simp [AuditHistory.start, AuditWriter.resume]

theorem submit (hs : Sound h) (x : Submission) :
  Sound { h with writer := h.writer.submit x, submitted := h.submitted ++ [x] }
  where
  verified := hs.verified
  numbered := hs.numbered
  positioned := hs.positioned
  voided := hs.voided
  ordered := by
    rw [hs.ordered, AuditWriter.submit, List.append_assoc]
    rfl
  recorded := hs.recorded
  acknowledged := hs.acknowledged
  refused := hs.refused
  appending := hs.appending
  given := hs.given

theorem giveUp (hs : Sound h) (id : Nat) :
  Sound { h with writer := h.writer.abandon id, gaveUp := id :: h.gaveUp }
  where
  verified := hs.verified
  numbered := hs.numbered
  positioned := hs.positioned
  voided := hs.voided
  ordered := hs.ordered
  recorded := hs.recorded
  acknowledged y r hy := by
    obtain ⟨hr, hdecision, hvoids, htold⟩ := hs.acknowledged y r hy
    refine ⟨hr, hdecision, hvoids, fun hwaits => htold ?_⟩
    intro hmem
    apply hwaits (List.mem_cons_of_mem _ hmem)
  refused y hy hwaits := by
    apply hs.refused y hy
    intro hmem
    apply hwaits (List.mem_cons_of_mem _ hmem)
  appending := hs.appending
  given i hi := by
    rcases List.mem_cons.mp hi with rfl | hi
    · apply List.mem_cons_self
    · apply List.mem_cons_of_mem _ (hs.given i hi)

/-- The writer is done with submissions without a record. -/
theorem dismiss (hs : Sound h) (l : List Submission) (w : AuditWriter)
    (told : List (Nat × Acknowledgement)) (hchain : w.chain = h.writer.chain)
    (hrecords : w.records = h.writer.records) (happending : w.appending = none)
    (habandoned : ∀ id ∈ w.abandoned, id ∈ h.writer.abandoned)
    (hordered : inHand h.writer ++ h.writer.waiting = l ++ w.waiting)
    (htold : ∀ x ∈ l, x.id ∉ h.writer.abandoned → ∃ e, (x.id, .refused e) ∈ told) :
  Sound { h with writer := w, served := h.served ++ l.map (·, none), told := h.told ++ told }
  where
  verified := hrecords ▸ hs.verified
  numbered := hrecords ▸ hs.numbered
  positioned := by
    rw [hchain, hrecords]
    apply hs.positioned
  voided := hrecords ▸ hs.voided
  ordered := by
    have hhand : inHand w = [] := by simp [inHand, happending]
    have hfst : l.map (Prod.fst ∘ fun x : Submission => (x, (none : Option AuditRecord))) = l := by
      apply List.map_id
    rw [hs.ordered, List.append_assoc, hordered, hhand, List.map_append, List.map_map, hfst,
      List.append_nil, List.append_assoc]
  recorded := by
    rw [hrecords, hs.recorded, List.filter_append]
    simp
  acknowledged y r hy := by
    rw [hrecords]
    rcases List.mem_append.mp hy with hy | hy
    · obtain ⟨hr, hdecision, hvoids, htold⟩ := hs.acknowledged y r hy
      exact ⟨hr, hdecision, hvoids, fun hwaits => List.mem_append_left _ (htold hwaits)⟩
    · simp at hy
  refused y hy hwaits := by
    rcases List.mem_append.mp hy with hy | hy
    · obtain ⟨e, he⟩ := hs.refused y hy hwaits
      exact ⟨e, List.mem_append_left _ he⟩
    · obtain ⟨e, he⟩ := htold y (by simpa using hy) (mt (hs.given y.id) hwaits)
      exact ⟨e, List.mem_append_right _ he⟩
  appending a ha := by
    rw [happending] at ha
    cases ha
  given id hid := hs.given id (habandoned id hid)

theorem skip (hs : Sound h) (happending : h.writer.appending = none)
    (hwaiting : h.writer.waiting = x :: rest) (hgiven : x.id ∈ h.writer.abandoned)
    (now : Instant) :
  Sound { h with writer := h.writer.take now, served := h.served ++ [(x, none)] }
  := by
  rw [AuditWriter.take_of_mem happending hwaiting hgiven]
  have hdismiss := hs.dismiss [x] { h.writer with waiting := rest } [] rfl rfl happending (fun _ hid => hid) ?_ ?_
  · rw [List.append_nil] at hdismiss
    apply hdismiss
  · simp [inHand, happending, hwaiting]
  · intro y hy hwaits
    rw [List.mem_singleton.mp hy] at hwaits
    exact absurd hgiven hwaits

theorem take (hs : Sound h) (happending : h.writer.appending = none)
    (hwaiting : h.writer.waiting = x :: rest) (hwaits : x.id ∉ h.writer.abandoned)
    (now : Instant) :
  Sound { h with writer := h.writer.take now }
  := by
  rw [AuditWriter.take_of_not_mem happending hwaiting hwaits]
  refine ⟨⟨⟨hs.verified, hs.numbered, hs.positioned, hs.voided⟩, ?_, hs.recorded, hs.acknowledged,
    hs.refused⟩, ?_, hs.given⟩
  · rw [hs.ordered]
    simp [inHand, happending, hwaiting]
  · intro a ha
    cases ha
    use now

theorem refuse (hs : Sound h) (happending : h.writer.appending = some (.record x r))
    (now : Instant) (e : AuditError) :
  Sound { h with
    writer := (h.writer.finish now (.error e)).1
    served := h.served ++ [(x, none)]
    told := h.told ++ (h.writer.finish now (.error e)).2.toList }
  := by
  have hhand : inHand h.writer ++ h.writer.waiting = [x] ++ h.writer.waiting := by
    simp [inHand, happending]
  by_cases hgiven : x.id ∈ h.writer.abandoned
  · rw [AuditWriter.finish_record_error_of_mem happending hgiven]
    apply hs.dismiss [x] { h.writer with appending := none } [] rfl rfl rfl (fun _ hid => hid) hhand
    intro y hy hwaits
    rw [List.mem_singleton.mp hy] at hwaits
    exact absurd hgiven hwaits
  · rw [AuditWriter.finish_record_error_of_not_mem happending hgiven]
    apply hs.dismiss [x] { h.writer with appending := none } [(x.id, .refused e)] rfl rfl rfl
      (fun _ hid => hid) hhand
    intro y hy _
    rw [List.mem_singleton.mp hy]
    use e
    apply List.mem_singleton_self

theorem restart (hs : Sound h) (happending : h.writer.appending = none) :
  Sound { h with
    writer := .resume h.writer.records
    served := h.served ++ h.writer.waiting.map (·, none)
    told := h.told ++ stopped h.writer }
  := by
  apply hs.dismiss _ (.resume h.writer.records) _ hs.positioned.symm rfl rfl
  · intro id hid
    cases hid
  · simp [inHand, happending, AuditWriter.resume]
  · intro x hx hwaits
    use .unavailable "audit writer stopped"
    apply List.mem_map.mpr
    exact ⟨x, List.mem_filter.mpr ⟨hx, by simpa using hwaits⟩, rfl⟩

/-- The trail takes a record that makes another one void. -/
theorem void_ok (hs : Sound h) (happending : h.writer.appending = some (.void x v)) :
  Sound { h with writer := h.writer.append v }
  := by
  obtain ⟨now, r, hlast, hvoids, rfl⟩ := hs.appending _ happending
  have hchained := hs.toChained.append (b := ⟨_, now, r.decision.toDenied .timeout, some r.sequence⟩)
    rfl (fun _ => ⟨r, hlast, hvoids, rfl, rfl⟩)
  refine ⟨⟨hchained, ?_, ?_, ?_, hs.refused⟩, ?_, hs.given⟩
  · rw [hs.ordered]
    simp [inHand, happending, AuditWriter.append]
  · rw [← hs.recorded]
    simp [AuditWriter.append, AuditChain.nextVoid, AuditChain.record]
  · intro y r' hy
    obtain ⟨hr, hrest⟩ := hs.acknowledged y r' hy
    exact ⟨List.mem_append_left _ hr, hrest⟩
  · intro a ha
    cases ha

/-- The trail takes the record of a submission. -/
theorem record_ok (hs : Sound h) (happending : h.writer.appending = some (.record x r))
    (told : List (Nat × Acknowledgement))
    (htold : x.id ∉ h.writer.abandoned → (x.id, .recorded r) ∈ told) :
  Sound { h with
    writer := h.writer.append r
    served := h.served ++ [(x, some r)]
    told := h.told ++ told }
  := by
  obtain ⟨now, rfl⟩ := hs.appending _ happending
  have hchained := hs.toChained.append (b := ⟨_, now, x.decision, none⟩) rfl
    (fun hvoids => absurd rfl hvoids)
  refine ⟨⟨hchained, ?_, ?_, ?_, ?_⟩, ?_, hs.given⟩
  · rw [hs.ordered]
    simp [inHand, happending, AuditWriter.append]
  · simp only [AuditWriter.append, List.filter_append, List.map_append, hs.recorded]
    simp [AuditChain.nextRecord, AuditChain.record]
  · intro y r' hy
    rcases List.mem_append.mp hy with hy | hy
    · obtain ⟨hr, hdecision, hvoids, hheard⟩ := hs.acknowledged y r' hy
      exact ⟨List.mem_append_left _ hr, hdecision, hvoids,
        fun hwaits => List.mem_append_left _ (hheard hwaits)⟩
    · cases List.mem_singleton.mp hy
      refine ⟨List.mem_append_right _ (List.mem_singleton_self _), rfl, rfl, fun hwaits => ?_⟩
      apply List.mem_append_right
      apply htold (mt (hs.given x.id) hwaits)
  · intro y hy hwaits
    rcases List.mem_append.mp hy with hy | hy
    · obtain ⟨e, he⟩ := hs.refused y hy hwaits
      exact ⟨e, List.mem_append_left _ he⟩
    · simp at hy
  · intro a ha
    cases ha

theorem record (hs : Sound h) (happending : h.writer.appending = some (.record x r))
    (now : Instant) :
  Sound { h with
    writer := (h.writer.finish now (.ok ())).1
    served := h.served ++ [(x, some r)]
    told := h.told ++ (h.writer.finish now (.ok ())).2.toList }
  := by
  by_cases hgiven : x.id ∈ h.writer.abandoned
  · rw [AuditWriter.finish_record_ok_of_mem happending hgiven]
    have happended := hs.record_ok happending [] (fun hwaits => absurd hgiven hwaits)
    obtain ⟨made, rfl⟩ := hs.appending _ happending
    have hchained := happended.toChained
    refine ⟨⟨⟨hchained.verified, hchained.numbered, hchained.positioned, hchained.voided⟩, ?_, happended.recorded, happended.acknowledged,
      happended.refused⟩, ?_, hs.given⟩
    · rw [happended.ordered]
      simp [inHand, AuditWriter.append]
    · intro a ha
      cases ha
      exact ⟨now, _, List.getLast?_concat, rfl, rfl⟩
  · rw [AuditWriter.finish_record_ok_of_not_mem happending hgiven]
    apply hs.record_ok happending
    intro _
    apply List.mem_singleton_self

theorem void (hs : Sound h) (happending : h.writer.appending = some (.void x v))
    (now : Instant) (answer : Except AuditError Unit) :
  Sound { h with writer := (h.writer.finish now answer).1 }
  := by
  cases answer with
  | ok =>
    rw [AuditWriter.finish_void_ok happending]
    apply hs.void_ok happending
  | error e =>
    rw [AuditWriter.finish_void_error happending]
    refine ⟨⟨⟨hs.verified, hs.numbered, hs.positioned, hs.voided⟩, ?_, hs.recorded,
      hs.acknowledged, hs.refused⟩, ?_, hs.given⟩
    · rw [hs.ordered]
      simp [inHand, happending]
    · intro a ha
      cases ha

theorem step (hs : Sound h) {h' : AuditHistory} (hstep : Step h h') :
  Sound h'
  := by
  cases hstep with
  | submit x => apply hs.submit
  | giveUp id => apply hs.giveUp
  | skip happending hwaiting hgiven now => apply hs.skip happending hwaiting hgiven
  | take happending hwaiting hwaits now => apply hs.take happending hwaiting hwaits
  | record happending now => apply hs.record happending
  | refuse happending now e => apply hs.refuse happending
  | void happending now answer => apply hs.void happending
  | restart happending => apply hs.restart happending

end Sound

/-- Whatever becomes of the submissions, and whenever the writer is started again, the trail
stays intact. -/
theorem intact_of_reachable {h : AuditHistory} (hr : Reachable h) :
  Intact h
  := by
  have hs : Sound h := by
    induction hr with
    | start => apply Sound.start
    | step _ hstep ih => apply ih.step hstep
  apply hs.toIntact

/-! ### A writer that is stopped twice -/

namespace Sample

def submission (id : Nat) : Submission :=
  ⟨id, .deny .expired 1 "https://ci.example" "apply@dev" .epoch⟩

/-- Submissions are acknowledged (0, 6), given up in time (1), refused (2), stopped with the
writer (3) and given up too late, where the trail takes (4) and refuses (5) to have the
record made void. -/
theorem exists_reachable_history :
  ∃ h, Reachable h
    ∧ h.served.map (fun s => (s.1.id, s.2.isSome))
      = [(0, true), (1, false), (2, false), (3, false), (4, true), (5, true), (6, true)]
    ∧ h.writer.records.map (·.voids) = [none, none, some 2, none, none]
  := by
  have hr : Reachable _ := .start
  have hr := hr.step (.submit (submission 0))
  have hr := hr.step (.submit (submission 1))
  have hr := hr.step (.submit (submission 2))
  have hr := hr.step (.submit (submission 3))
  have hr := hr.step (.giveUp 1 (by decide))
  have hr := hr.step (.take rfl rfl (by decide) .epoch)
  have hr := hr.step (.record rfl .epoch)
  have hr := hr.step (.skip rfl rfl (by decide) .epoch)
  have hr := hr.step (.take rfl rfl (by decide) .epoch)
  have hr := hr.step (.refuse rfl .epoch .io)
  have hr := hr.step (.restart rfl)
  have hr := hr.step (.submit (submission 4))
  have hr := hr.step (.take rfl rfl (by decide) .epoch)
  have hr := hr.step (.giveUp 4 (by decide))
  have hr := hr.step (.record rfl .epoch)
  have hr := hr.step (.void rfl .epoch (.ok ()))
  have hr := hr.step (.submit (submission 5))
  have hr := hr.step (.take rfl rfl (by decide) .epoch)
  have hr := hr.step (.giveUp 5 (by decide))
  have hr := hr.step (.record rfl .epoch)
  have hr := hr.step (.void rfl .epoch (.error .io))
  have hr := hr.step (.restart rfl)
  have hr := hr.step (.submit (submission 6))
  have hr := hr.step (.take rfl rfl (by decide) .epoch)
  have hr := hr.step (.record rfl .epoch)
  exact ⟨_, hr, rfl, rfl⟩

end Sample

theorem intact_of_reachable_sample :
  ∃ h, Reachable h
    ∧ h.served.map (fun s => (s.1.id, s.2.isSome))
      = [(0, true), (1, false), (2, false), (3, false), (4, true), (5, true), (6, true)]
    ∧ h.writer.records.map (·.voids) = [none, none, some 2, none, none]
    ∧ h.Intact
  := by
  obtain ⟨h, hr, hserved, hvoids⟩ := Sample.exists_reachable_history
  exact ⟨h, hr, hserved, hvoids, intact_of_reachable hr⟩

end AuditHistory
end Federation
