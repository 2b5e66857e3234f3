import Federation.Proofs.Audit.Chain
import Federation.Proofs.Audit.Record
import Mathlib.Data.List.Induction

/-!
# A hash stands for a whole trail

The hash of the last record of a trail covers all that stands before it: two trails that
verify, with the same hash at their ends, are the same, as long as no two of the messages
that are hashed for them collide (`eq_of_hash_eq`).
-/

namespace Federation

/-- No two of the messages have the same digest. -/
def CollisionFree (messages : List Bytes) : Prop :=
  ∀ m ∈ messages, ∀ m' ∈ messages, Sha256.digest m = Sha256.digest m' → m = m'

theorem CollisionFree.mono {messages messages' : List Bytes} (h : CollisionFree messages')
    (hsub : messages ⊆ messages') :
  CollisionFree messages
  := fun m hm m' hm' => h m (hsub hm) m' (hsub hm')

theorem CollisionFree.pair {m m' : Bytes} (h : Sha256.digest m ≠ Sha256.digest m') :
  CollisionFree [m, m']
  := by
  intro n hn n' hn' hdigest
  obtain rfl | rfl := List.mem_pair.mp hn
  · obtain rfl | rfl := List.mem_pair.mp hn'
    · rfl
    · exact absurd hdigest h
  · obtain rfl | rfl := List.mem_pair.mp hn'
    · exact absurd hdigest.symm h
    · rfl

/-- The message that is hashed when a record is checked. -/
def AuditRecord.message (r : AuditRecord) : Bytes := r.hashInput r.prevHash

/-- A record with the right hash is the only one with this hash among records whose
messages do not collide. -/
theorem AuditRecord.eq_of_hashOk {r r' : AuditRecord} (hr : r.hashOk = true)
    (hr' : r'.hashOk = true) (hp : ∀ s ∈ r.prevHash, IsHash s) (hp' : ∀ s ∈ r'.prevHash, IsHash s)
    (hfree : CollisionFree [r.message, r'.message]) (hhash : r.hash = r'.hash) :
  r = r'
  := by
  have hdigest : Sha256.digest r.message = Sha256.digest r'.message := by
    apply Hex.encode_injective
    rw [hashOk, decide_eq_true_iff, AuditBody.computeHash, Sha256.hexDigest] at hr hr'
    rw [message, message, hr, hr', hhash]
  have hmessage := hfree r.message (by simp) r'.message (by simp) hdigest
  obtain ⟨hprev, hbody⟩ := AuditBody.hashInput_inj hp hp' hmessage
  obtain ⟨body, prevHash, hash⟩ := r
  obtain ⟨body', prevHash', hash'⟩ := r'
  simp only at hprev hbody hhash
  rw [hprev, hbody, hhash]

theorem AuditRecord.isHash_of_hashOk {r : AuditRecord} (h : r.hashOk = true) :
  IsHash r.hash
  := by
  rw [hashOk, decide_eq_true_iff] at h
  exact ⟨_, h.symm⟩

/-- What the last record of a trail names: no hash when it is the first one, else the hash
of the record before it. -/
theorem prevHash_of_verifyChain {l : List AuditRecord} {r : AuditRecord}
    (h : verifyChain (l ++ [r]) = .ok ()) (hroot : ∀ s ∈ (l ++ [r]).head?, s.prevHash = none) :
  r.prevHash = l.getLast?.map AuditRecord.hash
  := by
  obtain ⟨-, hfollows, -⟩ := verifyChain_concat_iff.mp h
  cases hlast : l.getLast? with
  | none =>
    obtain rfl := List.getLast?_eq_none_iff.mp hlast
    apply hroot r rfl
  | some s =>
    rw [hlast] at hfollows
    apply (AuditRecord.follows_iff.mp hfollows).2

theorem isHash_prevHash {l : List AuditRecord} {r : AuditRecord}
    (h : verifyChain (l ++ [r]) = .ok ()) (hroot : ∀ s ∈ (l ++ [r]).head?, s.prevHash = none) :
  ∀ s ∈ r.prevHash, IsHash s
  := by
  rw [prevHash_of_verifyChain h hroot]
  obtain rfl | ⟨l, s, rfl⟩ := l.eq_nil_or_concat'
  · rintro _ ⟨⟩
  · rw [List.getLast?_concat]
    rintro _ ⟨rfl⟩
    apply AuditRecord.isHash_of_hashOk
    apply (verifyChain_concat_iff.mp (verifyChain_concat_iff.mp h).1).2.2

/-- Two trails that verify are the same when their last records have the same hash, as
long as the messages that are hashed for them do not collide.  Each begins with a record
that names none before it. -/
theorem eq_of_hash_eq {l l' : List AuditRecord} (h : verifyChain l = .ok ())
    (h' : verifyChain l' = .ok ()) (hroot : ∀ s ∈ l.head?, s.prevHash = none)
    (hroot' : ∀ s ∈ l'.head?, s.prevHash = none)
    (hfree : CollisionFree ((l ++ l').map AuditRecord.message)) {r r' : AuditRecord}
    (hlast : l.getLast? = some r) (hlast' : l'.getLast? = some r') (hhash : r.hash = r'.hash) :
  l = l'
  := by
  induction l using List.reverseRecOn generalizing l' r r' with
  | nil => cases hlast
  | append_singleton l s ih =>
    rw [List.getLast?_concat, Option.some.injEq] at hlast
    obtain rfl := hlast
    obtain ⟨l', rfl⟩ := List.getLast?_eq_some_iff.mp hlast'
    have hprev := prevHash_of_verifyChain h hroot
    have hprev' := prevHash_of_verifyChain h' hroot'
    obtain ⟨hchain, -, hok⟩ := verifyChain_concat_iff.mp h
    obtain ⟨hchain', -, hok'⟩ := verifyChain_concat_iff.mp h'
    have hpair : CollisionFree [s.message, r'.message] := by
      apply hfree.mono
      simp
    obtain rfl := AuditRecord.eq_of_hashOk hok hok' (isHash_prevHash h hroot)
      (isHash_prevHash h' hroot') hpair hhash
    rw [hprev] at hprev'
    -- The records before the last ones have the same hash, too, or neither is there.
    obtain rfl | ⟨k, t, rfl⟩ := l.eq_nil_or_concat'
    · obtain rfl | ⟨k', t', rfl⟩ := l'.eq_nil_or_concat'
      · rfl
      · simp at hprev'
    · obtain rfl | ⟨k', t', rfl⟩ := l'.eq_nil_or_concat'
      · simp at hprev'
      · rw [List.head?_append_of_ne_nil _ (by simp)] at hroot hroot'
        have hsub : (k ++ [t]) ++ (k' ++ [t']) ⊆ (k ++ [t] ++ [s]) ++ (k' ++ [t'] ++ [s]) := by
          intro x hx
          simp only [List.mem_append] at hx ⊢
          tauto
        rw [ih hchain hchain' hroot hroot' (hfree.mono (List.map_subset _ hsub))
          List.getLast?_concat List.getLast?_concat (by simpa using hprev')]

/-! ### A trail of two records -/

namespace Sample

/-- The body of a record of a denial. -/
def denial (sequence : UInt64) : AuditBody :=
  ⟨sequence, .epoch, .deny .expired 1 "https://ci.example" "apply@dev" .epoch, none⟩

def firstRecord : AuditRecord := (AuditChain.resume none).record (denial 1)

def secondRecord : AuditRecord := (AuditChain.resume (some firstRecord)).record (denial 2)

theorem verifyChain_records :
  verifyChain [firstRecord, secondRecord] = .ok ()
  := by
  have hfirst : verifyChain ([] ++ [firstRecord]) = .ok () := verifyChain_record rfl rfl
  apply verifyChain_record hfirst rfl

theorem digest_ne :
  Sha256.digest firstRecord.message ≠ Sha256.digest secondRecord.message
  := by
  simp only [AuditRecord.message, AuditBody.hashInput, Utf8.encode, Json.compact,
    String.toList_ofList, secondRecord, firstRecord, AuditChain.resume, AuditChain.record,
    Option.getD, AuditBody.computeHash, Sha256.hexDigest, Hex.encode]
  decide +kernel

theorem collisionFree_records :
  CollisionFree (([firstRecord, secondRecord] ++ [firstRecord, secondRecord]).map
    AuditRecord.message)
  := by
  apply (CollisionFree.pair digest_ne).mono
  intro m hm
  rw [List.map_append] at hm
  obtain hm | hm := List.mem_append.mp hm
  · exact hm
  · exact hm

end Sample

theorem eq_of_hash_eq_sample :
  verifyChain [Sample.firstRecord, Sample.secondRecord] = .ok ()
    ∧ CollisionFree (([Sample.firstRecord, Sample.secondRecord]
      ++ [Sample.firstRecord, Sample.secondRecord]).map AuditRecord.message)
    ∧ [Sample.firstRecord, Sample.secondRecord]
      = [(AuditChain.resume none).record (Sample.denial 1),
        (AuditChain.resume (some Sample.firstRecord)).record (Sample.denial 2)]
  := by
  refine ⟨Sample.verifyChain_records, Sample.collisionFree_records, ?_⟩
  apply eq_of_hash_eq Sample.verifyChain_records Sample.verifyChain_records _ _
    Sample.collisionFree_records rfl rfl rfl
  · rintro _ ⟨rfl⟩
    rfl
  · rintro _ ⟨rfl⟩
    rfl

end Federation
