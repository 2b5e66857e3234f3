import Federation.Proofs.Audit.Commitment

/-!
# Records that are missing

When a record between two others is taken out of a list that verifies, the one that came
after it no longer follows the one before, and the list is refused there
(`verifyChain_eraseIdx`).

The first record of a list is checked by its hash alone, so a list that verifies still does
so without its first record (`verifyChain_tail`): that a trail has lost its beginning goes
unnoticed, although its first record names a record before it
(`verifyChain_eraseIdx_zero`).
-/

namespace Federation

/-- A record does not follow the one that stands two places before it. -/
theorem AuditRecord.not_follows_of_skipped {p r next : AuditRecord} (hr : r.follows p = true)
    (hnext : next.follows r = true) :
  next.follows p = false
  := by
  rw [follows_iff] at hr hnext
  have hne : next.sequence ≠ p.sequence + 1 := by
    rw [hnext.1, hr.1]
    grind
  rw [follows, decide_eq_false hne, Bool.false_and]

/-- Without a record between two others, a list that verified is refused at the record that
came after it. -/
theorem verifyChain_of_skipped {before after : List AuditRecord} {r next : AuditRecord}
    (hbefore : before ≠ []) (h : verifyChain (before ++ r :: next :: after) = .ok ()) :
  verifyChain (before ++ next :: after) = .error (.chainBroken next.sequence)
  := by
  obtain ⟨front, p, rfl⟩ := before.eq_nil_or_concat'.resolve_left hbefore
  obtain ⟨hfront, hrest⟩ := verifyAfter_append_iff.mp h
  rw [List.getLast?_concat] at hrest
  obtain ⟨hr, -, hrest⟩ := verifyAfter_cons_iff.mp hrest
  obtain ⟨hnext, -, -⟩ := verifyAfter_cons_iff.mp hrest
  have hskipped : next.follows p = false := AuditRecord.not_follows_of_skipped hr hnext
  rw [verifyChain, verifyAfter_append, hfront, List.getLast?_concat]
  simp [bind, Except.bind, verifyAfter, hskipped]

/-- A list that verifies is refused when one of its records other than the first and the
last one is taken out, at the record that came after it. -/
theorem verifyChain_eraseIdx {l : List AuditRecord} (h : verifyChain l = .ok ()) {i : Nat}
    (hi : 0 < i) {next : AuditRecord} (hnext : l[i + 1]? = some next) :
  verifyChain (l.eraseIdx i) = .error (.chainBroken next.sequence)
  := by
  obtain ⟨hlength, hget⟩ := List.getElem?_eq_some_iff.mp hnext
  have hdrop : l.drop i = l[i] :: next :: l.drop (i + 2) := by
    rw [List.drop_eq_getElem_cons (by omega), List.drop_eq_getElem_cons hlength, hget]
  have hsplit : l = l.take i ++ l[i] :: next :: l.drop (i + 2) := by
    rw [← hdrop, List.take_append_drop]
  have hbefore : l.take i ≠ [] := by
    apply List.ne_nil_of_length_pos
    rw [List.length_take]
    omega
  rw [List.eraseIdx_eq_take_drop_succ, List.drop_eq_getElem_cons hlength, hget]
  rw [hsplit] at h
  apply verifyChain_of_skipped hbefore h

/-- A list that verifies does so without its first record. -/
theorem verifyChain_tail {l : List AuditRecord} (h : verifyChain l = .ok ()) :
  verifyChain l.tail = .ok ()
  := by
  rcases l with _ | ⟨r, _ | ⟨s, l⟩⟩
  · apply h
  · rfl
  · obtain ⟨-, -, hrest⟩ := verifyAfter_cons_iff.mp h
    obtain ⟨-, hhash, hrest⟩ := verifyAfter_cons_iff.mp hrest
    apply verifyAfter_cons_iff.mpr ⟨rfl, hhash, hrest⟩

/-! ### A trail of three records -/

namespace Sample

def thirdRecord : AuditRecord := (AuditChain.resume (some secondRecord)).record (denial 3)

theorem verifyChain_three :
  verifyChain [firstRecord, secondRecord, thirdRecord] = .ok ()
  := by
  apply verifyChain_record verifyChain_records rfl

end Sample

theorem verifyChain_eraseIdx_sample :
  verifyChain [Sample.firstRecord, Sample.secondRecord, Sample.thirdRecord] = .ok ()
    ∧ verifyChain [Sample.firstRecord, Sample.thirdRecord] = .error (.chainBroken 3)
  := by
  constructor
  · apply Sample.verifyChain_three
  · apply verifyChain_eraseIdx Sample.verifyChain_three Nat.one_pos rfl

/-- A trail that has lost its first record still verifies. -/
theorem verifyChain_eraseIdx_zero :
  verifyChain [Sample.firstRecord, Sample.secondRecord, Sample.thirdRecord] = .ok ()
    ∧ Sample.firstRecord.sequence = 1
    ∧ Sample.firstRecord.prevHash = none
    ∧ (∀ r ∈ [Sample.firstRecord, Sample.secondRecord, Sample.thirdRecord],
      r.sequence < 18446744073709551615)
    ∧ verifyChain ([Sample.firstRecord, Sample.secondRecord, Sample.thirdRecord].eraseIdx 0)
      = .ok ()
  := by
  refine ⟨Sample.verifyChain_three, rfl, rfl, ?_, ?_⟩
  · rw [List.forall_mem_cons, List.forall_mem_cons, List.forall_mem_singleton]
    exact ⟨by decide, by decide, by decide⟩
  · rw [List.eraseIdx_zero]
    apply verifyChain_tail Sample.verifyChain_three

end Federation
