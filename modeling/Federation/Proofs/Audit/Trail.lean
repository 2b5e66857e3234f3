import Federation.Audit.Trail
import Federation.Proofs.Audit.Chain
import Federation.Proofs.Audit.Reading
import Federation.Proofs.Json.Printable

/-!
# Trails kept in files

What is appended to a trail is read back: a file that holds a trail holds it with one
record more after the record is appended (`Holds.concat`), and so after any number of
decisions that are sealed one after another (`read_sealed`), as long as they are legible.
-/

namespace Federation

/-- The records that a chain makes of decisions, each recorded at an instant. -/
def AuditChain.sealAll (c : AuditChain) : List (Instant × Decision) → List AuditRecord
  | [] => []
  | (t, d) :: rest => c.nextRecord t d :: (c.advance (c.nextRecord t d)).sealAll rest

namespace Trail

/-! ### Lines -/

theorem splitLines_append {content : Bytes} (h : (splitLines content).2 = []) (rest : Bytes) :
  splitLines (content ++ rest) = ((splitLines content).1 ++ (splitLines rest).1, (splitLines rest).2)
  := by
  induction content with
  | nil => rfl
  | cons b content ih =>
    rw [List.cons_append, splitLines]
    rw [splitLines] at h ⊢
    by_cases hb : b = 10
    · simp only [if_pos hb] at h ⊢
      rw [ih h]
      rfl
    · simp only [if_neg hb] at h ⊢
      cases hlines : (splitLines content).1 with
      | nil =>
        rw [hlines] at h
        cases h
      | cons line lines =>
        rw [hlines] at h
        rw [ih h, hlines]
        rfl

/-- A line without line breaks of its own. -/
theorem splitLines_line {l : Bytes} (h : ∀ b ∈ l, b ≠ 10) :
  splitLines (l ++ [10]) = ([l], [])
  := by
  induction l with
  | nil => rfl
  | cons b l ih =>
    obtain ⟨hb, hl⟩ := List.forall_mem_cons.mp h
    rw [List.cons_append, splitLines, ih hl]
    simp only [if_neg hb]

/-- The text of a value has no line breaks. -/
theorem ne_newLine_of_mem_compact {j : Json} {b : UInt8} (hb : b ∈ Utf8.encode j.compact) :
  b ≠ 10
  := by
  rintro rfl
  rw [Utf8.encode, Json.compact, String.toList_ofList] at hb
  obtain ⟨c, hc, hb⟩ := List.mem_flatMap.mp hb
  have hprintable := j.printable_compactChars c hc
  obtain h | h := Utf8.toNat_of_mem_encodeChar hb
  · rw [← h] at hprintable
    exact absurd hprintable (by decide)
  · exact absurd h (by decide)

/-- The text of a value takes one line. -/
theorem splitLines_compact (j : Json) :
  splitLines (Utf8.encode j.compact ++ [10]) = ([Utf8.encode j.compact], [])
  := splitLines_line fun _ => ne_newLine_of_mem_compact

/-! ### Records -/

theorem readLines_append {number : Nat} {lines : List Bytes} {rs : List AuditRecord}
    (h : readLines number lines = .ok rs) (lines' : List Bytes) :
  readLines number (lines ++ lines') = (readLines (number + lines.length) lines').map (rs ++ ·)
  := by
  induction lines generalizing number rs with
  | nil =>
    cases h
    rw [List.nil_append, List.length_nil, Nat.add_zero]
    cases readLines number lines' <;> rfl
  | cons line lines ih =>
    have hnext : number + (line :: lines).length = number + 1 + lines.length := by
      rw [List.length_cons]
      omega
    rw [hnext, List.cons_append, readLines]
    rw [readLines] at h
    split at h
    · rename_i hblank
      rw [if_pos hblank, ih h]
    · rename_i hblank
      rw [if_neg hblank]
      split at h
      · cases h
      · rename_i r hr
        cases hlines : readLines (number + 1) lines with
        | error e =>
          rw [hlines] at h
          cases h
        | ok rs =>
          rw [hlines] at h
          cases h
          rw [ih hlines]
          cases readLines (number + 1 + lines.length) lines' <;> rfl

theorem isAllBlank_compact (r : AuditRecord) :
  Text.isAllBlank r.toJson.compact = false
  := by
  obtain ⟨cs, hcs⟩ := Json.exists_compact_object _
  rw [Text.isAllBlank, AuditRecord.toJson, hcs]
  rfl

/-- The line of a record is read as the text of the record is. -/
theorem readLines_line (number : Nat) (r : AuditRecord) :
  readLines number [Utf8.encode r.toJson.compact]
    = match AuditRecord.decoder.ofText? r.toJson.compact with
      | none => .error (.corruptLine number)
      | some r => .ok [r]
  := by
  rw [readLines, Utf8.decodeLossy_encode, isAllBlank_compact]
  cases AuditRecord.decoder.ofText? r.toJson.compact <;> rfl

/-! ### Trails -/

/-- A file holds a trail: it ends with a line break unless it is empty, it is read as the
records of the trail, and they follow from one another. -/
structure Holds (content : Bytes) (records : List AuditRecord) : Prop where
  terminated : (splitLines content).2 = []
  read : read content = .ok records
  verified : verifyChain records = .ok ()

theorem holds_nil :
  Holds [] []
  := ⟨rfl, rfl, rfl⟩

/-- A record that is appended to the file of a trail is read as its text is. -/
theorem Holds.read_append {content : Bytes} {records : List AuditRecord}
    (h : Holds content records) (r : AuditRecord) :
  Trail.read (append content r)
    = match AuditRecord.decoder.ofText? r.toJson.compact with
      | none => .error (.corruptLine (1 + (splitLines content).1.length))
      | some r => .ok (records ++ [r])
  := by
  rw [Trail.read, append, line, splitLines_append h.terminated, splitLines_compact,
    readLines_append h.read, readLines_line]
  cases AuditRecord.decoder.ofText? r.toJson.compact <;> rfl

/-- A record that is appended to the file of a trail is read back exactly when its decision
is legible. -/
theorem Holds.read_append_iff {content : Bytes} {records : List AuditRecord}
    (h : Holds content records) (r : AuditRecord) :
  Trail.read (append content r) = .ok (records ++ [r])
    ↔ r.decision.Legible AuditRecord.claimDepth
  := by
  rw [h.read_append, ← AuditRecord.ofText?_compact_iff]
  cases AuditRecord.decoder.ofText? r.toJson.compact <;> simp

/-- A record that is made at the end of a trail and appended to its file becomes a part
of the trail. -/
theorem Holds.concat {content : Bytes} {records : List AuditRecord} (h : Holds content records)
    {b : AuditBody} (hb : b.sequence = (AuditChain.resume records.getLast?).nextSequence)
    (hlegible : b.decision.Legible AuditRecord.claimDepth) :
  Holds (append content ((AuditChain.resume records.getLast?).record b))
    (records ++ [(AuditChain.resume records.getLast?).record b])
  := by
  constructor
  · rw [append, line, splitLines_append h.terminated, splitLines_compact]
  · exact (h.read_append_iff _).mpr hlegible
  · exact verifyChain_record h.verified hb

/-- Decisions that are sealed at the end of a trail and appended to its file become a part
of the trail. -/
theorem Holds.appendAll {content : Bytes} {records : List AuditRecord} (h : Holds content records)
    {decisions : List (Instant × Decision)}
    (hlegible : ∀ d ∈ decisions, d.2.Legible AuditRecord.claimDepth) :
  Holds (((AuditChain.resume records.getLast?).sealAll decisions).foldl Trail.append content)
    (records ++ (AuditChain.resume records.getLast?).sealAll decisions)
  := by
  induction decisions generalizing content records with
  | nil =>
    rw [AuditChain.sealAll, List.append_nil]
    exact h
  | cons d decisions ih =>
    obtain ⟨t, d⟩ := d
    obtain ⟨hd, hdecisions⟩ := List.forall_mem_cons.mp hlegible
    have hstep := ih (h.concat (b := ⟨_, t, d, none⟩) rfl hd) hdecisions
    rw [List.getLast?_concat, List.append_assoc] at hstep
    exact hstep

/-- What is left of a file that holds a trail when it is opened: all of it. -/
theorem Holds.complete_eq {content : Bytes} {records : List AuditRecord}
    (h : Holds content records) :
  complete content = content
  := by rw [complete, h.terminated, List.length_nil, Nat.sub_zero, List.take_length]

/-- Decisions that are sealed one after another at the end of a trail and appended to its
file are read back as they were recorded, follow from one another, and leave the last of
them for the trail to be resumed from, as long as each is legible. -/
theorem read_sealed {content : Bytes} {records : List AuditRecord} (h : Holds content records)
    {decisions : List (Instant × Decision)}
    (hlegible : ∀ d ∈ decisions, d.2.Legible AuditRecord.claimDepth) :
  let trail := records ++ (AuditChain.resume records.getLast?).sealAll decisions
  let file := ((AuditChain.resume records.getLast?).sealAll decisions).foldl append content
  read file = .ok trail ∧ verifyChain trail = .ok ()
    ∧ tail? (complete file) = .ok trail.getLast?
  := by
  have hall := h.appendAll hlegible
  refine ⟨hall.read, hall.verified, ?_⟩
  rw [hall.complete_eq, tail?, hall.read]
  rfl

/-! ### A claim that changes -/

namespace Sample

/-- The double that `1e-28` is read as. -/
def claimed : Binary64 := ⟨false, ⟨4188260752279232538, by decide⟩⟩

/-- The double that the text of `claimed` is read as. -/
def changed : Binary64 := ⟨false, ⟨4188260752279232536, by decide⟩⟩

/-- The doubles that three texts are read as. -/
theorem readings :
  Json.parse? "1e-28" = some (.number (.double claimed))
    ∧ (Json.Number.double claimed).numeral.read? = some (.double changed)
    ∧ (Json.Number.double changed).numeral.read? = some (.double changed)
  := by decide +kernel

theorem readsBack_changed :
  Json.ReadsBack changed
  := readings.2.2

/-- A denial of a token with one claim. -/
def decision (x : Binary64) : Decision :=
  { Decision.deny .expired 1 "https://ci.example" "apply@dev" .epoch with
    claims := StringMap.empty.insert "n" (.number (.double x)) }

theorem legible_changed :
  (decision changed).Legible AuditRecord.claimDepth
  := by
  constructor
  · rintro e he
    obtain rfl := List.mem_singleton.mp he
    refine ⟨⟨.number (some (.double changed)), rfl⟩, ?_⟩
    rintro x hx
    obtain rfl := List.mem_singleton.mp hx
    exact readsBack_changed
  · rintro e ⟨⟩

theorem legible_deny (reason : DenialReason) (revision : UInt64) (issuer subject : String)
    (now : Instant) :
  (Decision.deny reason revision issuer subject now).Legible AuditRecord.claimDepth
  := by
  constructor
  · rintro e ⟨⟩
  · rintro e ⟨⟩

/-- A denial with a claim and one without claims, a second apart. -/
def decisions : List (Instant × Decision) :=
  [(.epoch, decision changed),
    (.addMillis .epoch 1000, .deny .issuerUnknown 1 "https://ci.example" "plan@dev" .epoch)]

theorem legible_decisions :
  ∀ d ∈ decisions, d.2.Legible AuditRecord.claimDepth
  := by
  intro d hd
  rcases List.mem_cons.mp hd with rfl | hd
  · exact legible_changed
  · obtain rfl := List.mem_singleton.mp hd
    apply legible_deny

/-- The first record of a trail, of a token that claims `1e-28`. -/
def sealed : AuditRecord := (AuditChain.resume none).nextRecord .epoch (decision claimed)

/-- The same record with the claim changed. -/
def altered : AuditRecord := { sealed with decision := decision changed }

theorem reread_sealed :
  sealed.toJson.reread = altered.toJson.reread
  := by
  have hclaims : (Json.ofMap (decision claimed).claims).reread
      = (Json.ofMap (decision changed).claims).reread := by
    simp only [decision, StringMap.insert, StringMap.insertEntry, StringMap.empty, Json.ofMap,
      Json.reread, Json.rereadMembers]
    rw [readings.2.1, readings.2.2]
  have hdecision : (decision claimed).toJson.reread = (decision changed).toJson.reread := by
    simp only [Decision.toJson, Json.reread, Json.rereadMembers, hclaims]
    rfl
  simp only [AuditRecord.toJson, AuditBody.members, sealed, altered, AuditChain.nextRecord,
    AuditChain.record, Json.optionalMember, List.cons_append, List.nil_append, Json.reread,
    Json.rereadMembers, hdecision]

theorem digest_altered :
  Sha256.digest (altered.hashInput none) ≠ Sha256.digest (sealed.hashInput none)
  := by
  simp only [altered, sealed, AuditChain.nextRecord, AuditChain.record, AuditChain.resume,
    AuditBody.hashInput, Option.getD, Utf8.encode, Json.compact, String.toList_ofList]
  decide +kernel

theorem hashOk_altered :
  altered.hashOk = false
  := by
  rw [AuditRecord.hashOk, decide_eq_false_iff_not]
  intro h
  exact digest_altered (Hex.encode_injective h)

end Sample

theorem read_sealed_sample :
  Holds [] []
    ∧ (∀ d ∈ Sample.decisions, d.2.Legible AuditRecord.claimDepth)
    ∧ (let trail := (AuditChain.resume none).sealAll Sample.decisions
      let file := trail.foldl append []
      trail.length = 2 ∧ Trail.read file = .ok trail ∧ verifyChain trail = .ok ()
        ∧ tail? (complete file) = .ok trail.getLast?)
  := ⟨holds_nil, Sample.legible_decisions, rfl, read_sealed holds_nil Sample.legible_decisions⟩

/-- The claim `1e-28` of an accepted token is recorded as a text that is read as another
double, so that what is read back is not what was sealed and no longer verifies. -/
theorem read_sealed_altered :
  Json.parse? "1e-28" = some (.number (.double Sample.claimed))
    ∧ Trail.read (append [] Sample.sealed) = .ok [Sample.altered]
    ∧ Sample.altered ≠ Sample.sealed
    ∧ verifyChain [Sample.altered] = .error (.chainBroken 1)
  := by
  have hread : AuditRecord.decoder.ofText? Sample.sealed.toJson.compact = some Sample.altered := by
    rw [Json.Decoder.ofText?, Json.Document.parse?_compact, Sample.reread_sealed,
      ← Json.Document.parse?_compact]
    exact AuditRecord.ofText?_compact_iff.mpr Sample.legible_changed
  refine ⟨Sample.readings.1, ?_, ?_, ?_⟩
  · rw [holds_nil.read_append, hread]
    rfl
  · intro h
    have hclaims := congrArg (fun r : AuditRecord => r.decision.claims.entries) h
    cases hclaims
  · rw [verifyChain, verifyAfter, Sample.hashOk_altered]
    rfl

end Trail
end Federation
