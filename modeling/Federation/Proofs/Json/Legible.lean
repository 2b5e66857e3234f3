import Federation.Proofs.Json.Document
import Federation.Proofs.StringMap

/-!
# Values that come back from their texts

An integer is what its numeral is read as; a double need not be (`Binary64.ReadsBack`).
A value comes back from its own text with a number of levels of nesting exactly when it
was read from a document with as many and its doubles all come back (`toJson?_reread_iff`).
-/

namespace Federation.Json

open Digits

/-! ### Numbers -/

namespace Number

/-- Digits are all taken when the number that they make of `m` is below `2 ^ 64`. -/
theorem accumulate_of_lt {m : Nat} {ds : List Nat}
    (h : ds.foldl (fun n d => 10 * n + d) m < UInt64.size) :
  Numeral.accumulate m ds = (ds.foldl (fun n d => 10 * n + d) m, [])
  := by
  induction ds generalizing m with
  | nil => rfl
  | cons d ds ih =>
    rw [List.foldl_cons] at h ⊢
    have hle : 10 * m + d ≤ ds.foldl (fun n d => 10 * n + d) (10 * m + d) := by
      rw [foldl_digits]
      exact Nat.le_add_right_of_le (Nat.le_mul_of_pos_right _ (by positivity))
    rw [Numeral.accumulate, if_pos (Nat.lt_of_le_of_lt hle h), ih h]

theorem accumulate_values {n : Nat} (h : n < UInt64.size) :
  Numeral.accumulate 0 (values n) = (n, [])
  := by
  have hvalue : (values n).foldl (fun n d => 10 * n + d) 0 = n := ofDigits_values n
  rw [accumulate_of_lt (by rwa [hvalue]), hvalue]

/-- A natural number is what its numeral is read as. -/
theorem read?_natural (n : UInt64) :
  (natural n).numeral.read? = some (natural n)
  := by
  rw [numeral, Numeral.read?, accumulate_values n.toNat_lt]
  simp

/-- A negative integer is what its numeral is read as. -/
theorem read?_negative (n : Fin 9223372036854775808) :
  (negative n).numeral.read? = some (negative n)
  := by
  have hn : n.val + 1 < UInt64.size := Nat.lt_of_le_of_lt n.isLt (by decide)
  rw [numeral, Numeral.read?, accumulate_values hn]
  simp

end Number

/-- A double that is what its numeral is read as. -/
def ReadsBack (x : Binary64) : Prop := (Number.double x).numeral.read? = some (.double x)

/-! ### Values -/

mutual

/-- The doubles in a value. -/
def doubles : Json → List Binary64
  | .number (.double x) => [x]
  | .array items => doublesOfItems items
  | .object members => doublesOfMembers members
  | _ => []

/-- The doubles in the items of a list. -/
def doublesOfItems : List Json → List Binary64
  | [] => []
  | a :: as => doubles a ++ doublesOfItems as

/-- The doubles in the members of an object. -/
def doublesOfMembers : List (String × Json) → List Binary64
  | [] => []
  | (_, a) :: ms => doubles a ++ doublesOfMembers ms

end

mutual

/-- A value whose doubles come back is read as its document. -/
theorem reread_eq_document : ∀ (a : Json), (∀ x ∈ a.doubles, ReadsBack x) →
  reread a = document a
  | .null, _ => rfl
  | .bool _, _ => rfl
  | .number (.natural n), _ => by rw [reread, document, Number.read?_natural]
  | .number (.negative n), _ => by rw [reread, document, Number.read?_negative]
  | .number (.double x), h => by
    rw [reread, document, show ReadsBack x from h x (by simp [doubles])]
  | .string _, _ => rfl
  | .array items, h => by
    rw [reread, document, rereadItems_eq_documents items (by simpa [doubles] using h)]
  | .object members, h => by
    rw [reread, document, rereadMembers_eq_documents members (by simpa [doubles] using h)]

theorem rereadItems_eq_documents : ∀ (items : List Json),
    (∀ x ∈ doublesOfItems items, ReadsBack x) →
  rereadItems items = documents items
  | [], _ => rfl
  | a :: as, h => by
    simp only [doublesOfItems, List.mem_append, or_imp, forall_and] at h
    rw [rereadItems, documents, reread_eq_document a h.1, rereadItems_eq_documents as h.2]

theorem rereadMembers_eq_documents : ∀ (members : List (String × Json)),
    (∀ x ∈ doublesOfMembers members, ReadsBack x) →
  rereadMembers members = memberDocuments members
  | [], _ => rfl
  | (k, a) :: ms, h => by
    simp only [doublesOfMembers, List.mem_append, or_imp, forall_and] at h
    rw [rereadMembers, memberDocuments, reread_eq_document a h.1,
      rereadMembers_eq_documents ms h.2]

end

namespace Document

/-! ### Values that were read -/

theorem membersToJson?_memberDocuments {depth : Nat} {members : List (String × Json)}
    (h : ∀ m ∈ members, toJson? depth m.2.document = some m.2) :
  membersToJson? depth (memberDocuments members) = some members
  := by
  induction members with
  | nil => rfl
  | cons m members ih =>
    have hm := h m List.mem_cons_self
    have hmembers := ih fun m' hm' => h m' (List.mem_cons_of_mem m hm')
    rw [memberDocuments, membersToJson?, hm, hmembers]
    rfl

/-- An object whose values are read again is read again, too. -/
theorem toJson?_document_ofMembers {depth : Nat} {members : List (String × Json)}
    (h : ∀ m ∈ members, toJson? depth m.2.document = some m.2) :
  toJson? (depth + 1) (ofMembers members).document = some (ofMembers members)
  := by
  have hentries : ∀ m ∈ (StringMap.ofList members).entries,
      toJson? depth m.2.document = some m.2 :=
    fun m hm => h m (StringMap.mem_of_mem_entries_ofList hm)
  rw [ofMembers, ofMap, document, toJson?, membersToJson?_memberDocuments hentries,
    Option.map_some, ofMembers, StringMap.ofList_entries]
  rfl

mutual

/-- A value that was read from a document is read again from its own document. -/
theorem toJson?_document : ∀ (doc : Document) {depth : Nat} {a : Json},
    toJson? depth doc = some a →
  toJson? depth a.document = some a
  | .null, _, _, h => by
    rw [toJson?, Option.some.injEq] at h
    subst h
    rw [Json.document, toJson?]
  | .bool b, _, _, h => by
    rw [toJson?, Option.some.injEq] at h
    subst h
    rw [Json.document, toJson?]
  | .number n, _, _, h => by
    rw [toJson?] at h
    obtain ⟨n, rfl, rfl⟩ := Option.map_eq_some_iff.mp h
    rw [Json.document, toJson?, Option.map_some]
  | .string s, _, _, h => by
    rw [toJson?] at h
    obtain ⟨s, rfl, rfl⟩ := Option.map_eq_some_iff.mp h
    rw [Json.document, toJson?, Option.map_some]
  | .array _, 0, _, h => by
    rw [toJson?] at h
    cases h
  | .array docs, depth + 1, a, h => by
    rw [toJson?] at h
    obtain ⟨items, hitems, rfl⟩ := Option.map_eq_some_iff.mp h
    rw [Json.document, toJson?, itemsToJson?_documents docs hitems, Option.map_some]
  | .object _, 0, _, h => by
    rw [toJson?] at h
    cases h
  | .object ms, depth + 1, a, h => by
    rw [toJson?] at h
    obtain ⟨members, hmembers, rfl⟩ := Option.map_eq_some_iff.mp h
    exact toJson?_document_ofMembers (toJson?_document_of_mem ms hmembers)

theorem itemsToJson?_documents : ∀ (docs : List Document) {depth : Nat} {items : List Json},
    itemsToJson? depth docs = some items →
  itemsToJson? depth (documents items) = some items
  | [], _, _, h => by
    rw [itemsToJson?] at h
    cases h
    rfl
  | doc :: docs, _, _, h => by
    rw [itemsToJson?] at h
    obtain ⟨a, ha, h⟩ := Option.bind_eq_some_iff.mp h
    obtain ⟨items, hitems, h⟩ := Option.bind_eq_some_iff.mp h
    cases h
    rw [documents, itemsToJson?, toJson?_document doc ha, itemsToJson?_documents docs hitems]
    rfl

theorem toJson?_document_of_mem : ∀ (ms : List (Option String × Document)) {depth : Nat}
    {members : List (String × Json)}, membersToJson? depth ms = some members →
  ∀ m ∈ members, toJson? depth m.2.document = some m.2
  | [], _, _, h => by
    rw [membersToJson?] at h
    cases h
    simp
  | (k, doc) :: ms, _, _, h => by
    rw [membersToJson?] at h
    obtain ⟨key, -, h⟩ := Option.bind_eq_some_iff.mp h
    obtain ⟨a, ha, h⟩ := Option.bind_eq_some_iff.mp h
    obtain ⟨members, hmembers, h⟩ := Option.bind_eq_some_iff.mp h
    cases h
    intro m hm
    obtain rfl | hm := List.mem_cons.mp hm
    · exact toJson?_document doc ha
    · exact toJson?_document_of_mem ms hmembers m hm

end

end Document

/-- A value that comes back from its text with a number of levels: it was read from a
document with as many, and its doubles are what their numerals are read as. -/
structure Legible (depth : Nat) (a : Json) : Prop where
  /-- It was read from a document. -/
  read : ∃ doc, Document.toJson? depth doc = some a
  /-- Its doubles come back. -/
  doubles : ∀ x ∈ a.doubles, ReadsBack x

/-! ### What it takes to come back -/

namespace Document

theorem keys_of_membersToJson? {depth : Nat} {members members' : List (String × Json)}
    (h : membersToJson? depth (rereadMembers members) = some members') :
  members'.map Prod.fst = members.map Prod.fst
  := by
  induction members generalizing members' with
  | nil =>
    rw [rereadMembers, membersToJson?] at h
    cases h
    rfl
  | cons m members ih =>
    rw [rereadMembers, membersToJson?] at h
    obtain ⟨_, ⟨⟩, h⟩ := Option.bind_eq_some_iff.mp h
    obtain ⟨a, -, h⟩ := Option.bind_eq_some_iff.mp h
    obtain ⟨rest, hrest, h⟩ := Option.bind_eq_some_iff.mp h
    cases h
    rw [List.map_cons, List.map_cons, ih hrest]

/-- An object that comes back has its members in order, and each of them comes back. -/
theorem membersToJson?_of_ofMembers {depth : Nat} {members members' : List (String × Json)}
    (h : membersToJson? depth (rereadMembers members) = some members')
    (hsame : ofMembers members' = .object members) :
  members' = members
  := by
  obtain rfl : (StringMap.ofList members').entries = members := by
    simpa [ofMembers, ofMap] using hsame
  have hascending : members'.Pairwise (fun a b => a.1 < b.1) := by
    apply List.pairwise_map.mp
    rw [keys_of_membersToJson? h]
    exact List.pairwise_map.mpr (StringMap.ofList members').ascending
  exact (congrArg StringMap.entries (StringMap.ofList_entries ⟨members', hascending⟩)).symm

mutual

theorem readsBack_of_toJson? : ∀ (a : Json) {depth : Nat},
    toJson? depth a.reread = some a →
  ∀ x ∈ a.doubles, ReadsBack x
  | .null, _, _ => by simp [doubles]
  | .bool _, _, _ => by simp [doubles]
  | .number (.natural _), _, _ => by simp [doubles]
  | .number (.negative _), _, _ => by simp [doubles]
  | .number (.double x), _, h => by
    rw [reread, toJson?] at h
    obtain ⟨n, hn, hsame⟩ := Option.map_eq_some_iff.mp h
    cases hsame
    simpa [doubles] using show ReadsBack x from hn
  | .string _, _, _ => by simp [doubles]
  | .array _, 0, h => by
    rw [reread, toJson?] at h
    cases h
  | .array items, depth + 1, h => by
    rw [reread, toJson?] at h
    obtain ⟨items', hitems, hsame⟩ := Option.map_eq_some_iff.mp h
    cases hsame
    rw [doubles]
    exact readsBack_of_itemsToJson? items hitems
  | .object _, 0, h => by
    rw [reread, toJson?] at h
    cases h
  | .object members, depth + 1, h => by
    rw [reread, toJson?] at h
    obtain ⟨members', hmembers, hsame⟩ := Option.map_eq_some_iff.mp h
    obtain rfl := membersToJson?_of_ofMembers hmembers hsame
    rw [doubles]
    exact readsBack_of_membersToJson? members' hmembers

theorem readsBack_of_itemsToJson? : ∀ (items : List Json) {depth : Nat},
    itemsToJson? depth (rereadItems items) = some items →
  ∀ x ∈ doublesOfItems items, ReadsBack x
  | [], _, _ => by simp [doublesOfItems]
  | a :: as, _, h => by
    rw [rereadItems, itemsToJson?] at h
    obtain ⟨a', ha, h⟩ := Option.bind_eq_some_iff.mp h
    obtain ⟨as', has, h⟩ := Option.bind_eq_some_iff.mp h
    cases h
    rw [doublesOfItems]
    exact List.forall_mem_append.mpr ⟨readsBack_of_toJson? a ha, readsBack_of_itemsToJson? as has⟩

theorem readsBack_of_membersToJson? : ∀ (members : List (String × Json)) {depth : Nat},
    membersToJson? depth (rereadMembers members) = some members →
  ∀ x ∈ doublesOfMembers members, ReadsBack x
  | [], _, _ => by simp [doublesOfMembers]
  | (k, a) :: ms, _, h => by
    rw [rereadMembers, membersToJson?] at h
    obtain ⟨_, ⟨⟩, h⟩ := Option.bind_eq_some_iff.mp h
    obtain ⟨a', ha, h⟩ := Option.bind_eq_some_iff.mp h
    obtain ⟨ms', hms, h⟩ := Option.bind_eq_some_iff.mp h
    cases h
    rw [doublesOfMembers]
    exact List.forall_mem_append.mpr
      ⟨readsBack_of_toJson? a ha, readsBack_of_membersToJson? ms hms⟩

end

end Document

/-- A value comes back from its text exactly when it is legible. -/
theorem toJson?_reread_iff {depth : Nat} {a : Json} :
  Document.toJson? depth a.reread = some a ↔ a.Legible depth
  := by
  constructor
  · intro h
    exact ⟨⟨a.reread, h⟩, Document.readsBack_of_toJson? a h⟩
  · rintro ⟨⟨doc, hdoc⟩, hdoubles⟩
    rw [reread_eq_document a hdoubles]
    exact Document.toJson?_document doc hdoc

/-- The members of an object come back exactly when each of them is legible. -/
theorem membersToJson?_rereadMembers_iff {depth : Nat} {members : List (String × Json)} :
  Document.membersToJson? depth (rereadMembers members) = some members
    ↔ ∀ m ∈ members, m.2.Legible depth
  := by
  induction members with
  | nil => simp [rereadMembers, Document.membersToJson?]
  | cons m members ih =>
    obtain ⟨k, b⟩ := m
    rw [List.forall_mem_cons, ← toJson?_reread_iff, ← ih, rereadMembers, Document.membersToJson?]
    constructor
    · intro h
      obtain ⟨_, ⟨⟩, h⟩ := Option.bind_eq_some_iff.mp h
      obtain ⟨a, ha, h⟩ := Option.bind_eq_some_iff.mp h
      obtain ⟨rest, hrest, h⟩ := Option.bind_eq_some_iff.mp h
      cases h
      exact ⟨ha, hrest⟩
    · rintro ⟨ha, hrest⟩
      rw [ha, hrest]
      rfl

end Federation.Json
