import Federation.Proofs.Audit.Commitment
import Federation.Proofs.Audit.Trail

/-!
# Trails that are cut off

A trail can lose its end at any byte.  What is left of its file is the file of the records
whose lines are whole (`survivors`) and some bytes without a line break after it
(`exists_take_file`).  These bytes are read over and cut off when the trail is opened again
(`read_append_torn`, `complete_append_torn`), so that no later record is glued to them.

Main statement: `recovery`.
-/

namespace Federation

/-- A record that is read back from its own text. -/
def AuditRecord.ReadsBack (r : AuditRecord) : Prop :=
  decoder.ofText? r.toJson.compact = some r

namespace Trail

/-- The file of some records. -/
def file (records : List AuditRecord) : Bytes := records.flatMap line

/-- The records of which the whole line, with its line break, is among the first `k` bytes
of their file. -/
def survivors : Nat → List AuditRecord → List AuditRecord
  | _, [] => []
  | k, r :: records =>
    if (line r).length ≤ k then r :: survivors (k - (line r).length) records else []

/-! ### Lines -/

/-- Bytes without a line break are no line. -/
theorem splitLines_torn {l : Bytes} (h : ∀ b ∈ l, b ≠ 10) :
  splitLines l = ([], l)
  := by
  induction l with
  | nil => rfl
  | cons b l ih =>
    obtain ⟨hb, hl⟩ := List.forall_mem_cons.mp h
    rw [splitLines, ih hl]
    simp only [if_neg hb]

theorem splitLines_file (records : List AuditRecord) :
  splitLines (file records) = (records.map fun r => Utf8.encode r.toJson.compact, [])
  := by
  induction records with
  | nil => rfl
  | cons r records ih =>
    rw [file, List.flatMap_cons, line, splitLines_append]
    · rw [splitLines_compact, ← file, ih]
      rfl
    · rw [splitLines_compact]

theorem readLines_texts {records : List AuditRecord} (h : ∀ r ∈ records, r.ReadsBack)
    (number : Nat) :
  readLines number (records.map fun r => Utf8.encode r.toJson.compact) = .ok records
  := by
  induction records generalizing number with
  | nil => rfl
  | cons r records ih =>
    obtain ⟨hr, hrecords⟩ := List.forall_mem_cons.mp h
    have hline : readLines number [Utf8.encode r.toJson.compact] = .ok [r] := by
      rw [readLines_line, hr]
    have happend := readLines_append hline (records.map fun r => Utf8.encode r.toJson.compact)
    rw [ih hrecords] at happend
    exact happend

/-- A file of records that are read back is read as these records. -/
theorem read_file {records : List AuditRecord} (h : ∀ r ∈ records, r.ReadsBack) :
  read (file records) = .ok records
  := by
  rw [read, splitLines_file]
  exact readLines_texts h 1

/-! ### Torn files -/

/-- What stands after the last line break is read over. -/
theorem read_append_torn {content torn : Bytes} (h : (splitLines content).2 = [])
    (htorn : ∀ b ∈ torn, b ≠ 10) :
  read (content ++ torn) = read content
  := by
  rw [read, splitLines_append h, splitLines_torn htorn, List.append_nil]
  rfl

/-- What stands after the last line break is cut off. -/
theorem complete_append_torn {content torn : Bytes} (h : (splitLines content).2 = [])
    (htorn : ∀ b ∈ torn, b ≠ 10) :
  complete (content ++ torn) = content
  := by
  rw [complete, splitLines_append h, splitLines_torn htorn, List.length_append,
    Nat.add_sub_cancel, List.take_left]

/-- The first bytes of a file are the lines of the survivors and a part of the next line. -/
theorem exists_take_file (k : Nat) (records : List AuditRecord) :
  ∃ torn, (file records).take k = file (survivors k records) ++ torn ∧ ∀ b ∈ torn, b ≠ 10
  := by
  induction records generalizing k with
  | nil => exact ⟨[], by simp [file, survivors], by simp⟩
  | cons r records ih =>
    rw [file, List.flatMap_cons, ← file, survivors, List.take_append]
    split
    · rename_i hk
      obtain ⟨torn, htake, htorn⟩ := ih (k - (line r).length)
      refine ⟨torn, ?_, htorn⟩
      rw [List.take_of_length_le hk, htake, file, file, List.flatMap_cons, List.append_assoc]
    · rename_i hk
      have hline : (line r).length = (Utf8.encode r.toJson.compact).length + 1 := by
        rw [line, List.length_append, List.length_singleton]
      have hzero : k - (line r).length = 0 := by omega
      refine ⟨(line r).take k, ?_, ?_⟩
      · rw [hzero, List.take_zero, List.append_nil]
        rfl
      · intro b hb
        rw [line, List.take_append_of_le_length (by omega)] at hb
        exact ne_newLine_of_mem_compact (List.mem_of_mem_take hb)

theorem survivors_isPrefix (k : Nat) (records : List AuditRecord) :
  survivors k records <+: records
  := by
  induction records generalizing k with
  | nil => exact List.nil_prefix
  | cons r records ih =>
    rw [survivors]
    split
    · exact (List.prefix_cons_inj r).mpr (ih _)
    · exact List.nil_prefix

/-- A record survives exactly when its line ends among the first bytes. -/
theorem lt_length_survivors_iff {k : Nat} {records : List AuditRecord} {i : Nat}
    (hi : i < records.length) :
  i < (survivors k records).length ↔ (file (records.take (i + 1))).length ≤ k
  := by
  induction records generalizing k i with
  | nil => cases hi
  | cons r records ih =>
    have hfile : ∀ n, (file ((r :: records).take (n + 1))).length
        = (line r).length + (file (records.take n)).length := by
      intro n
      rw [List.take_succ_cons, file, List.flatMap_cons, List.length_append, ← file]
    rw [hfile, survivors]
    split
    · rename_i hk
      cases i with
      | zero => simp [file, hk]
      | succ i =>
        rw [List.length_cons, Nat.succ_lt_succ_iff, ih (Nat.lt_of_succ_lt_succ hi)]
        omega
    · rename_i hk
      simp only [List.length_nil, Nat.not_lt_zero, false_iff]
      omega

/-! ### Recovery -/

theorem foldl_append_file (more : List AuditRecord) (records : List AuditRecord) :
  more.foldl append (file records) = file (records ++ more)
  := by
  induction more generalizing records with
  | nil => rw [List.foldl_nil, List.append_nil]
  | cons r more ih =>
    have hline : append (file records) r = file (records ++ [r]) := by
      simp [append, file]
    rw [List.foldl_cons, hline, ih, List.append_assoc]
    rfl

/-- A file of records that are read back and that is cut off after `k` bytes is read as the
survivors.  Opening it leaves exactly their lines, and what is read.  Records that are
appended then are read after the survivors, and the whole verifies if the records did and
the new ones were made from the last survivor on. -/
theorem recovery {records : List AuditRecord} (h : ∀ r ∈ records, r.ReadsBack) (k : Nat) :
  let cut := (file records).take k
  let kept := survivors k records
  kept <+: records
    ∧ (∀ i < records.length, i < kept.length ↔ (file (records.take (i + 1))).length ≤ k)
    ∧ read cut = .ok kept
    ∧ complete cut = file kept
    ∧ read (complete cut) = read cut
    ∧ tail? (complete cut) = .ok kept.getLast?
    ∧ ∀ more : List AuditRecord, (∀ r ∈ more, r.ReadsBack) →
      read (more.foldl append (complete cut)) = .ok (kept ++ more)
      ∧ (verifyChain records = .ok () → (AuditChain.resume kept.getLast?).Makes more →
        verifyChain (kept ++ more) = .ok ())
  := by
  intro cut kept
  obtain ⟨torn, htake, htorn⟩ := exists_take_file k records
  have hterminated : (splitLines (file kept)).2 = [] := by rw [splitLines_file]
  have hbegins : kept <+: records := survivors_isPrefix k records
  have hkept : ∀ r ∈ kept, r.ReadsBack := fun r hr => h r (hbegins.subset hr)
  have hcut : cut = file kept ++ torn := htake
  have hread : read cut = .ok kept := by
    rw [hcut, read_append_torn hterminated htorn, read_file hkept]
  have hcomplete : complete cut = file kept := by
    rw [hcut, complete_append_torn hterminated htorn]
  refine ⟨hbegins, fun i hi => lt_length_survivors_iff hi, hread, hcomplete, ?_, ?_, ?_⟩
  · rw [hread, hcomplete, read_file hkept]
  · rw [tail?, hcomplete, read_file hkept]
    rfl
  · intro more hmore
    constructor
    · rw [hcomplete, foldl_append_file]
      apply read_file
      exact List.forall_mem_append.mpr ⟨hkept, hmore⟩
    · intro hverified hmakes
      exact hmakes.verifyChain_append rfl (verifyChain_of_isPrefix hverified hbegins)

/-! ### A trail of two records, without its last byte -/

namespace Sample

open Federation.Sample (firstRecord secondRecord)

/-- How many bytes are left of the file of two records. -/
def left (r r' : AuditRecord) : Nat := (line r).length + (line r').length - 1

/-- A record that makes the survivor void. -/
def void : AuditRecord := (AuditChain.resume (some firstRecord)).nextVoid .epoch firstRecord

theorem readsBack_of_bare {r : AuditRecord} (hclaims : r.decision.claims = {})
    (hattributes : r.decision.attributes = {}) :
  r.ReadsBack
  := by
  apply AuditRecord.ofText?_compact_iff.mpr
  constructor
  · rw [hclaims]
    rintro e ⟨⟩
  · rw [hattributes]
    rintro e ⟨⟩

/-- Of two records the first one survives the loss of the last byte. -/
theorem survivors_left (r r' : AuditRecord) :
  survivors (left r r') [r, r'] = [r]
  := by
  have hpos : 0 < (line r').length := by
    rw [line, List.length_append, List.length_singleton]
    omega
  rw [left, survivors, if_pos (by omega), survivors, if_neg (by omega)]

theorem makes_void :
  (AuditChain.resume (some firstRecord)).Makes [void]
  := AuditChain.Makes.cons rfl (AuditChain.Makes.nil _)

end Sample

theorem recovery_sample :
  let cut := (file [Federation.Sample.firstRecord, Federation.Sample.secondRecord]).take
    (Sample.left Federation.Sample.firstRecord Federation.Sample.secondRecord)
  (∀ r ∈ [Federation.Sample.firstRecord, Federation.Sample.secondRecord], r.ReadsBack)
    ∧ verifyChain [Federation.Sample.firstRecord, Federation.Sample.secondRecord] = .ok ()
    ∧ Sample.void.ReadsBack
    ∧ (AuditChain.resume (some Federation.Sample.firstRecord)).Makes [Sample.void]
    ∧ read cut = .ok [Federation.Sample.firstRecord]
    ∧ read (append (complete cut) Sample.void)
      = .ok [Federation.Sample.firstRecord, Sample.void]
    ∧ verifyChain [Federation.Sample.firstRecord, Sample.void] = .ok ()
  := by
  intro cut
  have hrecords : ∀ r ∈ [Federation.Sample.firstRecord, Federation.Sample.secondRecord],
      r.ReadsBack := by
    intro r hr
    obtain rfl | rfl := List.mem_pair.mp hr
    · exact Sample.readsBack_of_bare rfl rfl
    · exact Sample.readsBack_of_bare rfl rfl
  have hvoid : Sample.void.ReadsBack := Sample.readsBack_of_bare rfl rfl
  have h := recovery hrecords
    (Sample.left Federation.Sample.firstRecord Federation.Sample.secondRecord)
  rw [Sample.survivors_left] at h
  obtain ⟨-, -, hread, -, -, -, hmore⟩ := h
  have hvoids := hmore [Sample.void] (List.forall_mem_singleton.mpr hvoid)
  rw [List.foldl_cons, List.foldl_nil, List.getLast?_singleton, List.singleton_append] at hvoids
  obtain ⟨happended, hverified⟩ := hvoids
  exact ⟨hrecords, Federation.Sample.verifyChain_records, hvoid, Sample.makes_void, hread,
    happended, hverified Federation.Sample.verifyChain_records Sample.makes_void⟩

end Trail
end Federation
