import Federation.Audit.Writer

/-!
# Steps of the audit writer

What `AuditWriter.take` and `AuditWriter.finish` do in each of their cases.
-/

namespace Federation

/-- What holds of the parts of a list around each of its members holds of those around a
new last member. -/
theorem forall_split_concat {α : Type} {p : List α → α → Prop} {l : List α} {a : α}
    (hl : ∀ before b after, l = before ++ b :: after → p before b) (ha : p l a) :
  ∀ before b after, l ++ [a] = before ++ b :: after → p before b
  := by
  intro before b after heq
  obtain rfl | ⟨after, c, rfl⟩ := after.eq_nil_or_concat
  · obtain ⟨rfl, hb⟩ := List.append_inj' heq rfl
    cases hb
    exact ha
  · rw [List.concat_eq_append, ← List.cons_append, ← List.append_assoc] at heq
    obtain ⟨rfl, -⟩ := List.append_inj' heq rfl
    exact hl before b after rfl

namespace AuditWriter

variable {w : AuditWriter} {x : Submission} {rest : List Submission} {r : AuditRecord}

/-! ### Taking a submission -/

theorem take_of_mem (happending : w.appending = none) (hwaiting : w.waiting = x :: rest)
    (hgiven : x.id ∈ w.abandoned) (now : Instant) :
  w.take now = { w with waiting := rest }
  := by
  cases w
  cases happending
  cases hwaiting
  exact if_pos (List.contains_iff_mem.mpr hgiven)

theorem take_of_not_mem (happending : w.appending = none) (hwaiting : w.waiting = x :: rest)
    (hwaits : x.id ∉ w.abandoned) (now : Instant) :
  w.take now = { w with
    waiting := rest
    appending := some (.record x (w.chain.nextRecord now x.decision)) }
  := by
  cases w
  cases happending
  cases hwaiting
  exact if_neg (mt List.contains_iff_mem.mp hwaits)

/-! ### The answer of the trail -/

variable {now : Instant}

theorem finish_record_ok_of_mem (happending : w.appending = some (.record x r))
    (hgiven : x.id ∈ w.abandoned) :
  w.finish now (.ok ())
    = ({ w.append r with appending := some (.void x ((w.append r).chain.nextVoid now r)) }, none)
  := by
  cases w
  cases happending
  exact if_pos (List.contains_iff_mem.mpr hgiven)

theorem finish_record_ok_of_not_mem (happending : w.appending = some (.record x r))
    (hwaits : x.id ∉ w.abandoned) :
  w.finish now (.ok ()) = (w.append r, some (x.id, .recorded r))
  := by
  cases w
  cases happending
  exact if_neg (mt List.contains_iff_mem.mp hwaits)

theorem finish_record_error_of_mem (happending : w.appending = some (.record x r))
    (hgiven : x.id ∈ w.abandoned) (e : AuditError) :
  w.finish now (.error e) = ({ w with appending := none }, none)
  := by
  cases w
  cases happending
  exact if_pos (List.contains_iff_mem.mpr hgiven)

theorem finish_record_error_of_not_mem (happending : w.appending = some (.record x r))
    (hwaits : x.id ∉ w.abandoned) (e : AuditError) :
  w.finish now (.error e) = ({ w with appending := none }, some (x.id, .refused e))
  := by
  cases w
  cases happending
  exact if_neg (mt List.contains_iff_mem.mp hwaits)

theorem finish_void_ok (happending : w.appending = some (.void x r)) :
  w.finish now (.ok ()) = (w.append r, none)
  := by
  cases w
  cases happending
  rfl

theorem finish_void_error (happending : w.appending = some (.void x r)) (e : AuditError) :
  w.finish now (.error e) = ({ w with appending := none }, none)
  := by
  cases w
  cases happending
  rfl

end AuditWriter
end Federation
